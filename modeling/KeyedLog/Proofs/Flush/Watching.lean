import KeyedLog.Proofs.Flush.Promises
import KeyedLog.Proofs.Remote.Stored

/-!
Writing down what flushes show while an executor drains. The executor does the same with and without the log.
-/

namespace KeyedLog

/-- Two workers do the same, one on what the other's state comes to. -/
structure Worker.Follows {σ τ ω : Type} (first : Worker σ ω) (second : Worker τ ω) (view : σ → τ) : Prop where
  resume : ∀ job target state,
    second.resume job target (view state) = ((first.resume job target state).1, view (first.resume job target state).2)
  isHeld : ∀ state, second.isHeld (view state) = first.isHeld state

/-- It is kept when anything that is ready runs, and when anything that is away comes back. -/
structure Worker.Keeps {σ ω : Type} (worker : Worker σ ω) (keeps : Schedule σ → Prop) : Prop where
  run : ∀ schedule activity rest, schedule.ready = activity :: rest → keeps schedule →
    keeps ({ schedule with ready := rest }.run worker activity).2
  bringBack : ∀ schedule job others, schedule.away = job :: others → keeps schedule → keeps (schedule.bringBack job others)

namespace Schedule

variable {σ τ ω : Type}

def map (view : σ → τ) (schedule : Schedule σ) : Schedule τ where
  executor := schedule.executor
  work := view schedule.work
  clock := schedule.clock
  direct := schedule.direct
  ready := schedule.ready
  alarms := schedule.alarms
  away := schedule.away

@[simp] theorem map_work (view : σ → τ) (schedule : Schedule σ) : (schedule.map view).work = view schedule.work := rfl

variable {first : Worker σ ω} {second : Worker τ ω} {view : σ → τ}

theorem enter_map (schedule : Schedule σ) (job : JobId) :
    (schedule.map view).enter job = ((schedule.enter job).1, (schedule.enter job).2.map view) := by
  simp only [enter, map]
  cases schedule.direct.lookup job with
  | some target => rfl
  | none => cases schedule.executor.jobs.lookup job <;> rfl

theorem pause_map (schedule : Schedule σ) (job : JobId) (pause : Pause) :
    (schedule.map view).pause job pause = (schedule.pause job pause).map view := by
  fun_cases schedule.pause job pause
  case case1 => rfl
  case case2 duration later => exact if_neg later
  case case3 => rfl

theorem carryOn_map (follows : first.Follows second view) (schedule : Schedule σ) (job : JobId) (target : TargetId) :
    (schedule.map view).carryOn second job target =
      ((schedule.carryOn first job target).1, (schedule.carryOn first job target).2.map view) := by
  have step := follows.resume job target schedule.work
  unfold carryOn
  generalize first.resume job target schedule.work = result at step
  obtain ⟨progress, work⟩ := result
  rw [map_work, step]
  cases progress with
  | blocked => rfl
  | paused pause => exact congrArg _ (pause_map { schedule with work } job pause)
  | finished result next =>
      dsimp only [wake, map]
      by_cases waited : (schedule.direct.lookup job).isSome = true
      · rw [if_pos waited, if_pos waited]
      · rw [if_neg waited, if_neg waited]

theorem flushAll_map (follows : first.Follows second view) (schedule : Schedule σ) :
    (schedule.map view).flushAll second = ((schedule.flushAll first).1, (schedule.flushAll first).2.map view) := by
  simp only [flushAll, map, follows.isHeld]
  rfl

theorem startTicker_map (schedule : Schedule σ) : (schedule.map view).startTicker = schedule.startTicker.map view := by
  unfold startTicker
  by_cases never : schedule.executor.interval = 0 ∨ horizon ≤ schedule.clock + schedule.executor.interval
  · rw [if_pos never]
    exact if_pos never
  · rw [if_neg never]
    exact if_neg never

theorem run_map (follows : first.Follows second view) (schedule : Schedule σ) (activity : Activity) :
    (schedule.map view).run second activity =
      ((schedule.run first activity).1, (schedule.run first activity).2.map view) := by
  cases activity with
  | tick => simp only [run, flushAll_map follows, startTicker_map]
  | flush job =>
      simp only [run, enter_map]
      generalize schedule.enter job = entered
      obtain ⟨admitted, entered⟩ := entered
      cases admitted with
      | none => rfl
      | some target => exact carryOn_map follows entered job target

theorem settleFrom_map (follows : first.Follows second view) (fuel : Nat) (ended : List (JobId × ω))
    (schedule : Schedule σ) :
    (schedule.map view).settleFrom second fuel ended =
      ((schedule.settleFrom first fuel ended).1, (schedule.settleFrom first fuel ended).2.map view) := by
  induction fuel generalizing ended schedule with
  | zero => rfl
  | succ fuel ih =>
      simp only [settleFrom]
      cases ready : schedule.ready with
      | nil => simp only [map, ready]
      | cons activity rest =>
          have step := run_map follows { schedule with ready := rest } activity
          simp only [map] at step
          simp only [map, ready, step]
          exact ih _ _

theorem settle_map (follows : first.Follows second view) (schedule : Schedule σ) :
    (schedule.map view).settle second = (schedule.settle first).map view := by
  simp only [settle, settleFrom_map follows]

theorem calmFrom_map (follows : first.Follows second view) (fuel : Nat) (schedule : Schedule σ) :
    (schedule.map view).calmFrom second fuel = (schedule.calmFrom first fuel).map view := by
  induction fuel generalizing schedule with
  | zero => rfl
  | succ fuel ih =>
      have settles := settle_map follows schedule
      unfold calmFrom
      rw [settles]
      generalize schedule.settle first = settled
      have same : (settled.map view).away = settled.away := rfl
      dsimp only
      rw [same]
      cases settled.away with
      | nil => rfl
      | cons job others => exact ih (settled.bringBack job others)

theorem drainFrom_map (follows : first.Follows second view) (deadline : Millis) (fuel : Nat) (schedule : Schedule σ) :
    (schedule.map view).drainFrom second deadline fuel =
      ((schedule.drainFrom first deadline fuel).1, (schedule.drainFrom first deadline fuel).2.map view) := by
  induction fuel generalizing schedule with
  | zero => rfl
  | succ fuel ih =>
      have calms : (schedule.map view).calm second = (schedule.calm first).map view := calmFrom_map follows patience schedule
      unfold drainFrom
      rw [calms]
      generalize schedule.calm first = settled
      by_cases none : schedule.executor.inFlight = 0
      · rw [if_pos none]
        exact if_pos none
      · rw [if_neg none]
        refine (if_neg none).trans ?_
        by_cases late : schedule.clock ≥ deadline
        · rw [if_pos late]
          exact if_pos late
        · rw [if_neg late]
          refine (if_neg late).trans ?_
          by_cases finished : settled.executor.inFlight = 0
          · rw [if_pos finished]
            exact if_pos finished
          · rw [if_neg finished]
            refine (if_neg finished).trans ?_
            have alarm : (settled.map view).nextAlarm? = settled.nextAlarm? := rfl
            rw [alarm]
            cases settled.nextAlarm? with
            | none => rfl
            | some next =>
                dsimp only
                by_cases soon : next < deadline
                · rw [if_pos soon, if_pos soon]
                  exact ih (settled.moveTo next)
                · rw [if_neg soon, if_neg soon]
                  rfl

theorem drain_map (follows : first.Follows second view) (schedule : Schedule σ) (grace : Millis) :
    (schedule.map view).drain second grace =
      ((schedule.drain first grace).1, (schedule.drain first grace).2.map view) := by
  simp only [drain, flushAll_map follows]
  generalize (schedule.flushAll first).2 = flushed
  exact drainFrom_map follows (flushed.clock + grace) (grace + 2) { flushed with executor := flushed.executor.close }

section Keeps

variable {worker : Worker σ ω} {keeps : Schedule σ → Prop}

theorem settleFrom_keeps (stable : worker.Keeps keeps) (fuel : Nat) (ended : List (JobId × ω)) {schedule : Schedule σ}
    (kept : keeps schedule) : keeps (schedule.settleFrom worker fuel ended).2 := by
  induction fuel generalizing ended schedule with
  | zero => exact kept
  | succ fuel ih =>
      simp only [settleFrom]
      split
      · exact kept
      next ready => exact ih _ (stable.run _ _ _ ready kept)

theorem calmFrom_keeps (stable : worker.Keeps keeps) (fuel : Nat) {schedule : Schedule σ} (kept : keeps schedule) :
    keeps (schedule.calmFrom worker fuel) := by
  induction fuel generalizing schedule with
  | zero => exact kept
  | succ fuel ih =>
      have settled : keeps (schedule.settle worker) := settleFrom_keeps stable patience [] kept
      simp only [calmFrom]
      split
      · exact settled
      next away => exact ih (stable.bringBack _ _ _ away settled)

theorem advanceFrom_keeps (stable : worker.Keeps keeps)
    (wake : ∀ schedule time, keeps schedule → keeps (schedule.moveTo time))
    (fuel : Nat) (time : Millis) {schedule : Schedule σ} (kept : keeps schedule) :
    keeps (schedule.advanceFrom worker fuel time) := by
  induction fuel generalizing schedule with
  | zero => exact kept
  | succ fuel ih =>
      have settled : keeps (schedule.settle worker) := settleFrom_keeps stable patience [] kept
      simp only [advanceFrom]
      split
      · exact settled
      · exact ih (wake _ _ (calmFrom_keeps stable patience settled))

theorem drainFrom_keeps (stable : worker.Keeps keeps) (deadline : Millis)
    (wake : ∀ schedule time, time < deadline → keeps schedule → keeps (schedule.moveTo time))
    (wait : ∀ schedule, (∀ next, schedule.nextAlarm? = some next → deadline ≤ next) → keeps schedule →
      keeps { schedule with clock := deadline })
    (fuel : Nat) {schedule : Schedule σ} (kept : keeps schedule) :
    keeps (schedule.drainFrom worker deadline fuel).2 := by
  induction fuel generalizing schedule with
  | zero => exact kept
  | succ fuel ih =>
      have calmed : keeps (schedule.calm worker) := calmFrom_keeps stable patience kept
      simp only [drainFrom]
      split
      · exact kept
      · split
        · exact kept
        · split
          · exact calmed
          · split
            next alarm =>
              split
              next soon => exact ih (wake _ _ soon calmed)
              next beyond =>
                refine wait _ (fun next same => ?_) calmed
                rw [alarm] at same
                obtain rfl := Option.some.inj same
                exact Nat.le_of_not_lt beyond
            next alarm =>
              refine wait _ (fun next same => ?_) calmed
              rw [alarm] at same
              exact absurd same (by simp)

theorem drain_keeps (stable : worker.Keeps keeps) (wake : ∀ schedule time, keeps schedule → keeps (schedule.moveTo time))
    (wait : ∀ schedule time, keeps schedule → keeps { schedule with clock := time }) (schedule : Schedule σ) (grace : Millis)
    (closed : keeps { (schedule.flushAll worker).2 with executor := (schedule.flushAll worker).2.executor.close }) :
    keeps (schedule.drain worker grace).2 :=
  drainFrom_keeps stable _ (fun later time _ => wake later time) (fun later _ => wait later _) _ closed

end Keeps

theorem drainFrom_completed (worker : Worker σ ω) (deadline : Millis) (fuel : Nat) {schedule : Schedule σ}
    (completed : (schedule.drainFrom worker deadline fuel).1.completed = true) :
    (schedule.drainFrom worker deadline fuel).2.executor.jobs = [] := by
  induction fuel generalizing schedule with
  | zero => simp [drainFrom] at completed
  | succ fuel ih =>
      simp only [drainFrom] at completed ⊢
      split
      next none => exact List.length_eq_zero_iff.mp none
      next some =>
        simp only [some, if_false] at completed
        split
        next late => simp [late] at completed
        next early =>
          simp only [early, if_false] at completed
          split
          next none => exact List.length_eq_zero_iff.mp none
          next left =>
            simp only [left, if_false] at completed
            cases alarm : (schedule.calm worker).nextAlarm? with
            | none => simp [alarm] at completed
            | some next =>
                simp only [alarm] at completed ⊢
                split
                next soon => exact ih (by simpa only [soon, if_true] using completed)
                next beyond => simp [beyond] at completed

end Schedule

namespace Uploads

def watching : Worker (Uploads × List Notice) FlushOutcome where
  resume job target state :=
    let (progress, uploads) := worker.resume job target state.1
    (progress, uploads, state.2 ++ state.1.notices ObjectStore.proceed job target)
  isHeld state := worker.isHeld state.1

theorem watching_follows : watching.Follows worker Prod.fst where
  resume := fun _ _ _ => rfl
  isHeld := fun _ => rfl

end Uploads

namespace Schedule

def watch (schedule : UploadSchedule) : Schedule (Uploads × List Notice) :=
  schedule.map fun uploads => (uploads, [])

def drainNotices (schedule : UploadSchedule) (grace : Millis) : List Notice :=
  (schedule.watch.drain Uploads.watching grace).2.work.2

theorem run_watching (schedule : Schedule (Uploads × List Notice)) (activity : Activity) :
    (schedule.run Uploads.watching activity).2.work.2 =
      schedule.work.2 ++ (schedule.map Prod.fst).notices ObjectStore.proceed activity := by
  cases activity with
  | tick =>
      simp only [run, notices, List.append_nil]
      rw [startTicker_work, flushAll_work]
  | flush job =>
      have work := schedule.enter_work job
      have same : (schedule.map Prod.fst).enter job = ((schedule.enter job).1, (schedule.enter job).2.map Prod.fst) :=
        enter_map schedule job
      simp only [run, notices, same]
      generalize schedule.enter job = entered at work
      obtain ⟨admitted, entered⟩ := entered
      cases admitted with
      | none =>
          simp only [List.append_nil]
          rw [work]
      | some target =>
          simp only
          rw [carryOn_work, work]
          rfl

/-- Nothing is known of the buffers of a schedule but that they have books. -/
def HasBooks (schedule : UploadSchedule) (log : List Notice) : Prop :=
  ∀ target, target < schedule.work.buffers.length →
    ∃ origin accepted, schedule.work.Balanced target origin accepted log ∧ StorageKey.IsPlain origin.sinkInstance

theorem HasBooks.continues {before after : UploadSchedule} {log shown : List Notice} (books : before.HasBooks log)
    (continues : before.Continues after shown) : after.HasBooks (log ++ shown) := by
  intro target bound
  rw [continues.length] at bound
  obtain ⟨origin, accepted, balanced, plain⟩ := books target bound
  exact ⟨origin, accepted, continues.balanced balanced, plain⟩

theorem drain_continues {ids : String → DocumentType → Prop} (schedule : UploadSchedule) (grace : Millis) {log : List Notice}
    (stored : Uploads.Stored ids schedule.work log) (books : schedule.HasBooks log) :
    schedule.Continues (schedule.drain Uploads.worker grace).2 (schedule.drainNotices grace) ∧
      Uploads.Stored ids (schedule.drain Uploads.worker grace).2.work (log ++ schedule.drainNotices grace) := by
  let keeps (watched : Schedule (Uploads × List Notice)) : Prop :=
    schedule.Continues (watched.map Prod.fst) watched.work.2 ∧
      Uploads.Stored ids watched.work.1 (log ++ watched.work.2)
  have same : ∀ watched after : Schedule (Uploads × List Notice), after.work = watched.work →
      watched.executor.Accepts after.executor → after.direct = watched.direct → keeps watched → keeps after := by
    intro watched after work accepts direct ⟨continues, stored⟩
    have further : (watched.map Prod.fst).Continues (after.map Prod.fst) [] :=
      continues_of_accepts (congrArg (·.1.buffers) work) accepts
        (by simp only [map, direct]; exact fun _ member => .inl member)
    have whole := continues.trans further
    rw [List.append_nil] at whole
    exact ⟨by rw [work]; exact whole, by rw [work]; exact stored⟩
  have stable : Uploads.watching.Keeps keeps := by
    refine ⟨?_, fun watched job others _ => same watched _ rfl (Executor.accepts_of_same rfl (Nat.le_refl _)) rfl⟩
    intro watched activity rest _ kept
    obtain ⟨continues, stored⟩ := same watched { watched with ready := rest } rfl
      (Executor.accepts_of_same rfl (Nat.le_refl _)) rfl kept
    generalize { watched with ready := rest } = watched at continues stored
    have step := run_map Uploads.watching_follows watched activity
    have shown := watched.run_watching activity
    have next : (watched.run Uploads.watching activity).2.map Prod.fst =
        ((watched.map Prod.fst).run Uploads.worker activity).2 := by rw [step]
    refine ⟨?_, ?_⟩
    · rw [next, shown]
      exact continues.trans (run_continues ObjectStore.proceed _ activity)
    · have work : (watched.run Uploads.watching activity).2.work.1 =
          ((watched.map Prod.fst).run Uploads.worker activity).2.work := by rw [← next]; rfl
      rw [work, shown, ← List.append_assoc]
      exact run_stored _ activity stored (books.continues continues)
  have start : keeps schedule.watch := by
    refine ⟨continues_of_accepts rfl (Executor.accepts_of_same rfl (Nat.le_refl _)) fun _ member => .inl member, ?_⟩
    simpa [watch, map] using stored
  have begun : keeps { (schedule.watch.flushAll Uploads.watching).2 with
      executor := (schedule.watch.flushAll Uploads.watching).2.executor.close } := by
    refine same schedule.watch _ rfl ?_ rfl start
    exact (Executor.flushAll_accepts ..).trans (Executor.accepts_of_same rfl (Nat.le_refl _))
  have drained : keeps (schedule.watch.drain Uploads.watching grace).2 :=
    drain_keeps stable (fun watched _ => same watched _ rfl (Executor.accepts_of_same rfl (Nat.le_refl _)) rfl)
      (fun watched _ => same watched _ rfl (Executor.accepts_of_same rfl (Nat.le_refl _)) rfl) schedule.watch grace begun
  have forget : (schedule.watch.drain Uploads.watching grace).2.map Prod.fst = (schedule.drain Uploads.worker grace).2 := by
    have whole := drain_map Uploads.watching_follows schedule.watch grace
    have plain : schedule.watch.map Prod.fst = schedule := rfl
    rw [plain] at whole
    rw [whole]
  obtain ⟨continues, stored⟩ := drained
  rw [forget] at continues
  refine ⟨continues, ?_⟩
  rw [← forget]
  exact stored

theorem drain_completed (schedule : UploadSchedule) (grace : Millis)
    (completed : (schedule.drain Uploads.worker grace).1.completed = true) :
    (schedule.drain Uploads.worker grace).2.executor.jobs = [] :=
  drainFrom_completed Uploads.worker _ _ completed

end Schedule

end KeyedLog
