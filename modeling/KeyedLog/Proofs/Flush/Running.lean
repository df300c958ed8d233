import KeyedLog.Proofs.Flush.Turns

/-!
Flushes that run. Whatever runs next, every flush is in one place again afterwards, and as long as one has not ended, one
can go on.
-/

namespace KeyedLog

namespace Schedule

def retire {σ : Type} (schedule : Schedule σ) (job : JobId) : Schedule σ :=
  if (schedule.direct.lookup job).isSome then
    { schedule with direct := schedule.direct.filter fun entry => entry.1 != job }
  else { schedule with executor := (schedule.executor.finish job).2 }.wake (schedule.executor.finish job).1.toList

section CarryOn

variable {σ ω : Type} {worker : Worker σ ω} {schedule : Schedule σ} {work : σ} {job : JobId} {target : TargetId}

theorem carryOn_blocked (resumed : worker.resume job target schedule.work = (.blocked, work)) :
    schedule.carryOn worker job target = (none, { schedule with work }) := by
  simp only [carryOn, resumed]

theorem carryOn_paused {pause : Pause} (resumed : worker.resume job target schedule.work = (.paused pause, work)) :
    schedule.carryOn worker job target = (none, Schedule.pause { schedule with work } job pause) := by
  simp only [carryOn, resumed]

theorem carryOn_finished {result : ω} {next : Option JobId}
    (resumed : worker.resume job target schedule.work = (.finished result next, work)) :
    schedule.carryOn worker job target = (some (job, result), ({ schedule with work }.wake next.toList).retire job) := by
  simp only [carryOn, resumed, retire]
  split <;> rfl

end CarryOn

theorem behind_set {buffers : List RemoteBuffer} {target : TargetId} {old : RemoteBuffer}
    (present : buffers[target]? = some old) (new : RemoteBuffer) (job : JobId) :
    ((buffers.set target new).flatMap (·.turns.tail)).count job + old.turns.tail.count job =
      (buffers.flatMap (·.turns.tail)).count job + new.turns.tail.count job := by
  induction buffers generalizing target with
  | nil => simp at present
  | cons buffer rest ih =>
      cases target with
      | zero =>
          obtain rfl : buffer = old := by simpa using present
          simp only [List.set_cons_zero, List.flatMap_cons, List.count_append]
          omega
      | succ target =>
          have further := @ih target (by simpa using present)
          simp only [List.set_cons_succ, List.flatMap_cons, List.count_append]
          omega

namespace Placed

variable {schedule after : UploadSchedule} {hand : List JobId} {job : JobId} {target : TargetId}

theorem apart (placed : schedule.Placed [job]) (known : job ∈ schedule.unfinished) :
    schedule.due.count job = 0 ∧ schedule.executor.queue.count job = 0 ∧ schedule.behind.count job = 0 := by
  have once := placed.count_le_one job
  have places := placed.places job
  have counted := List.count_pos_iff.mpr known
  rw [List.count_singleton_self] at places
  omega

theorem mem_unfinished (admits : schedule.Admits job target) : job ∈ schedule.unfinished :=
  List.mem_map_of_mem (mem_flushes admits)

theorem lane (placed : schedule.Placed hand) {hand' : List JobId} {old new : RemoteBuffer}
    (present : schedule.work.buffers[target]? = some old) (executor : after.executor = schedule.executor)
    (direct : after.direct = schedule.direct) (buffers : after.work.buffers = schedule.work.buffers.set target new)
    (places : ∀ job, hand'.count job + after.due.count job + new.turns.tail.count job =
      hand.count job + schedule.due.count job + old.turns.tail.count job)
    (nodup : new.turns.Nodup) (busy : new.upload ≠ none → new.turns ≠ [])
    (admitted : ∀ job ∈ new.turns, schedule.Admits job target) : after.Placed hand' := by
  have flushes : after.flushes = schedule.flushes := by rw [Schedule.flushes, Schedule.flushes, executor, direct]
  have unfinished : after.unfinished = schedule.unfinished := by rw [Schedule.unfinished, flushes]; rfl
  have admits : after.Admits = schedule.Admits := by
    funext job target
    rw [Admits, Admits, executor, direct]
  constructor
  case single =>
    exact unfinished ▸ placed.single
  case given =>
    rw [unfinished, executor]
    exact placed.given
  case places =>
    -- A flush that moves between the hand, the alarms and the turns is counted once before and once after.
    intro job
    have before := placed.places job
    have moved := places job
    have counted := behind_set present new job
    rw [unfinished, executor, behind, buffers]
    rw [behind] at before
    omega
  case turns =>
    intro other buffer stands
    rw [admits]
    rw [buffers] at stands
    by_cases here : target = other
    · subst other
      obtain ⟨bound, -⟩ := List.getElem?_eq_some_iff.mp present
      rw [List.getElem?_set_self bound] at stands
      obtain rfl := Option.some.inj stands
      exact ⟨nodup, busy, admitted⟩
    · rw [List.getElem?_set_ne here] at stands
      exact placed.turns other buffer stands
  case permits =>
    exact executor ▸ placed.permits

theorem enter (placed : schedule.Placed [job]) :
    (∃ after, schedule.enter job = (none, after) ∧ after.Placed []) ∨
      ∃ target after, schedule.enter job = (some target, after) ∧ after.Placed [job] ∧ after.Admits job target := by
  have known : job ∈ schedule.unfinished := by
    have places := placed.places job
    rw [List.count_singleton_self] at places
    exact List.count_pos_iff.mp (by omega)
  unfold Schedule.enter
  cases waited : schedule.direct.lookup job with
  | some target => exact .inr ⟨target, schedule, rfl, placed, .inl (mem_of_lookup waited)⟩
  | none =>
      cases found : schedule.executor.jobs.lookup job with
      | none =>
          obtain ⟨entry, member, same⟩ := List.mem_map.mp known
          rcases List.mem_append.mp member with accepted | begun
          · exact absurd same.symm (by simpa using List.lookup_eq_none_iff.mp found entry accepted)
          · exact absurd same.symm (by simpa using List.lookup_eq_none_iff.mp waited entry begun)
      | some target =>
          have member := mem_of_lookup found
          obtain ⟨-, free, -⟩ := placed.apart known
          have permits := placed.permits.grant (List.mem_map_of_mem member) (List.count_eq_zero.mp free)
          unfold Executor.grant at permits ⊢
          by_cases holds : job ∈ schedule.executor.holders
          · simp only [if_pos holds]
            exact .inr ⟨target, schedule, rfl, placed, .inr ⟨member, holds⟩⟩
          · simp only [if_neg holds] at permits ⊢
            by_cases room : schedule.executor.holders.length < schedule.executor.limit
            · simp only [if_pos room] at permits ⊢
              refine .inr ⟨target, _, rfl, ⟨placed.single, placed.given, placed.places, ?_, permits⟩, .inr ⟨member, by simp⟩⟩
              intro other buffer present
              obtain ⟨nodup, busy, admitted⟩ := placed.turns other buffer present
              refine ⟨nodup, busy, fun turn waits => ?_⟩
              exact (admitted turn waits).imp_right fun known => ⟨known.1, List.mem_append_left _ known.2⟩
            · -- No permit is free, so the flush goes from the hand into the queue.
              simp only [if_neg room] at permits ⊢
              refine .inl ⟨_, rfl, ⟨placed.single, placed.given, ?_, placed.turns, permits⟩⟩
              intro other
              have before := placed.places other
              change schedule.unfinished.count other = [].count other + schedule.due.count other +
                (schedule.executor.queue ++ [job]).count other + schedule.behind.count other
              rw [List.count_append, List.count_nil]
              omega

theorem leave (placed : schedule.Placed [job]) (known : job ∈ schedule.unfinished)
    (gone : ∀ (target : TargetId) buffer, schedule.work.buffers[target]? = some buffer → job ∉ buffer.turns)
    (flushes : after.flushes = schedule.flushes.filter fun entry => entry.1 != job) (work : after.work = schedule.work)
    (next : after.executor.nextJob = schedule.executor.nextJob)
    (admits : ∀ other target, other ≠ job → schedule.Admits other target → after.Admits other target)
    (places : ∀ other, after.due.count other + after.executor.queue.count other =
      schedule.due.count other + schedule.executor.queue.count other)
    (permits : after.executor.Permits) : after.Placed [] := by
  have unfinished : after.unfinished = schedule.unfinished.filter (· != job) := by
    rw [Schedule.unfinished, flushes, Schedule.unfinished, List.filter_map]
    rfl
  constructor
  case single =>
    rw [unfinished]
    exact placed.single.filter _
  case given =>
    rw [unfinished, next]
    exact fun other member => placed.given other (List.mem_of_mem_filter member)
  case places =>
    intro other
    have before := placed.places other
    have moved := places other
    rw [unfinished, behind, work, List.count_nil]
    rw [behind] at before
    by_cases same : other = job
    · subst other
      obtain ⟨late, waits, turns⟩ := placed.apart known
      rw [behind] at turns
      rw [List.count_eq_zero.mpr (by simp)]
      omega
    · have elsewhere : [job].count other = 0 := List.count_eq_zero.mpr (by simpa using same)
      rw [List.count_filter (by simpa using same)]
      omega
  case turns =>
    rw [work]
    intro target buffer present
    obtain ⟨nodup, busy, admitted⟩ := placed.turns target buffer present
    refine ⟨nodup, busy, fun other turn => admits other target ?_ (admitted other turn)⟩
    intro same
    subst other
    exact gone target buffer present turn
  case permits => exact permits

theorem retire (placed : schedule.Placed [job]) (admits : schedule.Admits job target)
    (gone : ∀ (target : TargetId) buffer, schedule.work.buffers[target]? = some buffer → job ∉ buffer.turns) :
    (schedule.retire job).Placed [] := by
  have known := mem_unfinished admits
  have single := placed.single
  rw [Schedule.unfinished, flushes, List.map_append, List.nodup_append] at single
  obtain ⟨-, -, disjoint⟩ := single
  unfold Schedule.retire
  split
  next waited =>
    obtain ⟨entry, begun, same⟩ := List.lookup_isSome_iff.mp waited
    obtain rfl : job = entry.1 := by simpa using same
    have kept : (schedule.executor.jobs.filter fun other => other.1 != entry.1) = schedule.executor.jobs := by
      refine List.filter_eq_self.mpr fun other accepted => ?_
      simpa using disjoint other.1 (List.mem_map_of_mem accepted) entry.1 (List.mem_map_of_mem begun)
    refine placed.leave known gone ?_ rfl rfl ?_ (fun _ => rfl) placed.permits
    · rw [flushes, flushes, List.filter_append, kept]
    · intro other target different admitted
      exact admitted.imp_left fun begun => List.mem_filter.mpr ⟨begun, by simpa using different⟩
  next absent =>
    have none : ∀ entry ∈ schedule.direct, (entry.1 != job) = true := by
      intro entry begun
      rw [bne_comm]
      exact List.lookup_eq_none_iff.mp (Option.not_isSome_iff_eq_none.mp absent) entry begun
    have holds : job ∈ schedule.executor.holders := by
      rcases admits with begun | ⟨-, holds⟩
      · simpa using none _ begun
      · exact holds
    have permits := placed.permits.finish holds
    rw [Executor.finish_eq] at permits ⊢
    refine placed.leave known gone ?_ rfl rfl ?_ ?_ permits
    · rw [flushes, flushes, List.filter_append, List.filter_eq_self.mpr none]
      rfl
    · intro other target different admitted
      refine admitted.imp_right fun known => ⟨List.mem_filter.mpr ⟨known.1, by simpa using different⟩, ?_⟩
      exact List.mem_append_left _ (List.mem_filter.mpr ⟨known.2, by simpa using different⟩)
    · -- The permit it gives back goes to whoever is first in the queue, who leaves the queue and is due.
      intro other
      rw [due_wake]
      change schedule.due.count other + schedule.executor.queue.head?.toList.count other +
        schedule.executor.queue.tail.count other = schedule.due.count other + schedule.executor.queue.count other
      cases schedule.executor.queue with
      | nil => simp
      | cons next rest =>
          simp only [List.head?_cons, Option.toList_some, List.tail_cons, List.count_cons, List.count_nil]
          omega

theorem not_behind (placed : schedule.Placed [job]) (known : job ∈ schedule.unfinished) {buffer : RemoteBuffer}
    (present : schedule.work.buffers[target]? = some buffer) : job ∉ buffer.turns.tail := by
  obtain ⟨-, -, nowhere⟩ := placed.apart known
  intro waits
  exact List.count_eq_zero.mp nowhere (List.mem_flatMap.mpr ⟨buffer, List.mem_of_getElem? present, waits⟩)

theorem not_elsewhere (placed : schedule.Placed hand) (admits : schedule.Admits job target) {other : TargetId}
    (different : other ≠ target) {buffer : RemoteBuffer} (present : schedule.work.buffers[other]? = some buffer) :
    job ∉ buffer.turns := by
  intro turn
  have admitted := (placed.turns other buffer present).2.2 job turn
  exact different (placed.target_unique (mem_flushes admitted) (mem_flushes admits))

theorem pass (placed : schedule.Placed [job]) (admits : schedule.Admits job target) {buffer new : RemoteBuffer} {work : Uploads}
    (present : schedule.work.buffers[target]? = some buffer) (turns : new.turns = buffer.turns.tail)
    (upload : new.upload = none) (buffers : work.buffers = schedule.work.buffers.set target new) :
    (({ schedule with work }.wake buffer.turns.tail.head?.toList).retire job).Placed [] := by
  obtain ⟨nodup, -, admitted⟩ := placed.turns target buffer present
  have apart := placed.not_behind (mem_unfinished admits) present
  have passed : ({ schedule with work }.wake buffer.turns.tail.head?.toList).Placed [job] := by
    refine placed.lane present rfl rfl buffers ?_ ?_ ?_ ?_
    · intro other
      have woken := due_wake { schedule with work } buffer.turns.tail.head?.toList other
      have same : Schedule.due { schedule with work } = schedule.due := rfl
      have split : buffer.turns.tail.head?.toList.count other + buffer.turns.tail.tail.count other =
          buffer.turns.tail.count other := by
        cases buffer.turns.tail with
        | nil => rfl
        | cons next rest =>
            simp only [List.head?_cons, Option.toList_some, List.tail_cons, List.count_cons, List.count_nil]
            omega
      rw [turns, woken, same]
      omega
    · exact turns ▸ nodup.tail
    · exact fun busy => absurd upload busy
    · rw [turns]
      exact fun other turn => admitted other (List.mem_of_mem_tail turn)
  -- The flush has no turn left: at its own buffer it was the first, and at others it never had one.
  refine passed.retire admits fun other stays stands turn => ?_
  by_cases here : other = target
  · subst other
    change work.buffers[target]? = some stays at stands
    obtain ⟨bound, -⟩ := List.getElem?_eq_some_iff.mp present
    rw [buffers, List.getElem?_set_self bound] at stands
    obtain rfl := Option.some.inj stands
    exact apart (turns ▸ turn)
  · exact passed.not_elsewhere admits here stands turn

theorem pause (placed : schedule.Placed [job]) (pause : Pause) : (schedule.pause job pause).Placed [] := by
  refine placed.move ?_ (by simp) (by simp) (schedule.due_pause job pause)
  rw [pause_executor]
  exact ⟨rfl, rfl, rfl, rfl, rfl⟩

theorem carryOn (placed : schedule.Placed [job]) (admits : schedule.Admits job target) (take : Taking) :
    (schedule.carryOn (Uploads.workerWith take) job target).2.Placed [] := by
  cases present : schedule.work.buffers[target]? with
  | none =>
      have resumed : (Uploads.workerWith take).resume job target schedule.work = (.finished .empty none, schedule.work) := by
        simp only [Uploads.workerWith, Uploads.resume, present]
      rw [carryOn_finished resumed]
      have same : (schedule.wake []).Placed [job] := placed.congr ⟨rfl, rfl, rfl, rfl, rfl⟩ rfl rfl (by simp [due, wake])
      refine same.retire admits fun other buffer stands => placed.not_elsewhere admits ?_ stands
      rintro rfl
      exact absurd (present.symm.trans stands) (by simp)
  | some buffer =>
      obtain ⟨nodup, busy, admitted⟩ := placed.turns target buffer present
      have place := buffer.request_place (placed.not_behind (mem_unfinished admits) present)
      obtain ⟨new, buffers, resumed⟩ := Uploads.resume_turns take job present
      generalize progress : Uploads.resume take job target schedule.work = result at buffers resumed
      obtain ⟨paused, work⟩ := result
      have pauses : (Uploads.workerWith take).resume job target schedule.work = (paused, work) := progress
      generalize schedule.work.milestones take job target = marks at resumed
      have front : (buffer.request job).turns.head? = some job → (buffer.request job).turns.tail = buffer.turns.tail := by
        intro first
        rcases place with ⟨-, tail⟩ | ⟨other, -⟩
        · exact tail
        · exact absurd first other
      have asked : ∀ other ∈ (buffer.request job).turns, schedule.Admits other target := by
        intro other turn
        rcases RemoteBuffer.mem_request job other turn with old | rfl
        · exact admitted other old
        · exact admits
      have same : Schedule.due { schedule with work } = schedule.due := rfl
      cases resumed with
      | blocked behind turns upload =>
          rw [carryOn_blocked pauses]
          refine placed.lane present rfl rfl buffers ?_ (turns ▸ RemoteBuffer.request_nodup nodup job) ?_ (turns ▸ asked)
          · intro other
            rcases place with ⟨first, -⟩ | ⟨-, last, waits⟩
            · exact absurd first behind
            · rw [same, turns, last, List.tail_append_of_ne_nil waits, List.count_append, List.count_nil]
              omega
          · rw [turns, upload]
            intro begun nobody
            have first := RemoteBuffer.head?_request (busy begun) job
            rw [nobody] at first
            exact busy begun (List.head?_eq_none_iff.mp first.symm)
      | paused pause first turns upload =>
          have stays : Placed { schedule with work } [job] := by
            refine placed.lane present rfl rfl buffers ?_ (turns ▸ RemoteBuffer.request_nodup nodup job) ?_ (turns ▸ asked)
            · intro other
              rw [same, turns, front first]
            · rw [turns]
              intro _ nobody
              rw [nobody] at first
              simp at first
          rw [carryOn_paused pauses]
          exact stays.pause pause
      | idle first turns free upload =>
          rw [front first] at turns
          rw [carryOn_finished pauses, front first]
          exact placed.pass admits present turns upload buffers
      | done outcome first turns upload =>
          rw [front first] at turns
          rw [carryOn_finished pauses, front first]
          exact placed.pass admits present turns upload buffers

theorem run (placed : schedule.Placed []) {first rest : List Activity} {activity : Activity}
    (split : schedule.ready = first ++ activity :: rest) (take : Taking) :
    ({ schedule with ready := first ++ rest }.run (Uploads.workerWith take) activity).2.Placed [] := by
  have taken := placed.takeReady split
  cases activity with
  | tick => exact (taken.flushAll _).startTicker
  | flush job =>
      simp only [Schedule.run]
      rcases taken.enter with ⟨after, entered, waits⟩ | ⟨target, after, entered, goes, admits⟩
      · rw [entered]
        exact waits
      · rw [entered]
        exact goes.carryOn admits take

end Placed

/-- When the flush comes up, it gets on: it waits neither for a permit nor behind another flush. -/
def CanGoOn (schedule : UploadSchedule) (job : JobId) : Prop :=
  job ∈ schedule.due ∧ ∃ target, (schedule.enter job).1 = some target ∧
    ∀ take : Taking, (Uploads.resume take job target schedule.work).1 ≠ .blocked

namespace Placed

variable {schedule : UploadSchedule} {job : JobId} {target : TargetId}

theorem enter_goes (placed : schedule.Placed []) (member : (job, target) ∈ schedule.flushes)
    (may : (job, target) ∈ schedule.direct ∨ job ∈ schedule.executor.holders ∨
      schedule.executor.holders.length < schedule.executor.limit) : (schedule.enter job).1 = some target := by
  unfold Schedule.enter
  cases waited : schedule.direct.lookup job with
  | some other => exact congrArg some (placed.target_unique (List.mem_append_right _ (mem_of_lookup waited)) member)
  | none =>
      have absent := List.lookup_eq_none_iff.mp waited
      have accepted : (job, target) ∈ schedule.executor.jobs := by
        rcases List.mem_append.mp member with accepted | begun
        · exact accepted
        · simpa using absent _ begun
      cases found : schedule.executor.jobs.lookup job with
      | none => simpa using List.lookup_eq_none_iff.mp found _ accepted
      | some other =>
          have same := placed.target_unique (List.mem_append_left _ (mem_of_lookup found)) member
          have granted : (schedule.executor.grant job).1 = true := by
            unfold Executor.grant
            rcases may with begun | holds | room
            · simpa using absent _ begun
            · rw [if_pos holds]
            · rw [if_pos room]
              split <;> rfl
          simp only [granted, if_true, same]

theorem resume_goes {uploads : Uploads}
    (front : ∀ buffer, uploads.buffers[target]? = some buffer → (buffer.request job).turns.head? = some job) (take : Taking) :
    (Uploads.resume take job target uploads).1 ≠ .blocked := by
  cases present : uploads.buffers[target]? with
  | none =>
      simp only [Uploads.resume, present, ne_eq, reduceCtorEq, not_false_eq_true]
  | some buffer =>
      obtain ⟨after, -, resumed⟩ := Uploads.resume_turns take job present
      intro blocked
      rw [blocked] at resumed
      generalize uploads.milestones take job target = marks at resumed
      cases resumed with
      | blocked behind => exact behind (front buffer present)

theorem due_or_behind (placed : schedule.Placed []) (known : job ∈ schedule.unfinished) (free : job ∉ schedule.executor.queue) :
    job ∈ schedule.due ∨ job ∈ schedule.behind := by
  have places := placed.places job
  have counted := List.count_pos_iff.mpr known
  rw [List.count_eq_zero.mpr free, List.count_nil] at places
  rw [← List.count_pos_iff, ← List.count_pos_iff]
  omega

theorem not_queued (placed : schedule.Placed []) (admits : schedule.Admits job target) : job ∉ schedule.executor.queue := by
  intro waits
  rcases admits with begun | ⟨-, holds⟩
  · have single := placed.single
    rw [Schedule.unfinished, flushes, List.map_append, List.nodup_append] at single
    exact single.2.2 job (placed.permits.waiting waits) job (List.mem_map_of_mem begun) rfl
  · exact placed.permits.apart waits holds

theorem front_goes (placed : schedule.Placed []) {buffer : RemoteBuffer} {rest : List JobId}
    (present : schedule.work.buffers[target]? = some buffer) (turns : buffer.turns = job :: rest) : schedule.CanGoOn job := by
  obtain ⟨nodup, -, admitted⟩ := placed.turns target buffer present
  have turn : job ∈ buffer.turns := by simp [turns]
  have admits := admitted job turn
  have ahead : job ∉ schedule.behind := by
    intro behind
    obtain ⟨other, member, waits⟩ := List.mem_flatMap.mp behind
    obtain ⟨place, stands⟩ := List.mem_iff_getElem?.mp member
    by_cases here : place = target
    · rw [here, present] at stands
      obtain rfl := Option.some.inj stands
      rw [turns] at nodup waits
      exact (List.nodup_cons.mp nodup).1 waits
    · exact placed.not_elsewhere admits here stands (List.mem_of_mem_tail waits)
  refine ⟨(placed.due_or_behind (mem_unfinished admits) (placed.not_queued admits)).resolve_right ahead, target, ?_, ?_⟩
  · exact placed.enter_goes (mem_flushes admits) (admits.imp_right fun known => .inl known.2)
  · refine resume_goes fun other stands => ?_
    rw [present] at stands
    obtain rfl := Option.some.inj stands
    simp [RemoteBuffer.request, turns]

theorem someone_goes (placed : schedule.Placed []) (member : (job, target) ∈ schedule.flushes)
    (free : job ∉ schedule.executor.queue)
    (may : (job, target) ∈ schedule.direct ∨ job ∈ schedule.executor.holders ∨
      schedule.executor.holders.length < schedule.executor.limit) : ∃ other, schedule.CanGoOn other := by
  rcases placed.due_or_behind (List.mem_map_of_mem member) free with due | behind
  · cases present : schedule.work.buffers[target]? with
    | none =>
        refine ⟨job, due, target, placed.enter_goes member may, resume_goes fun buffer stands => ?_⟩
        rw [present] at stands
        exact absurd stands (by simp)
    | some buffer =>
        cases turns : buffer.turns with
        | nil =>
            refine ⟨job, due, target, placed.enter_goes member may, resume_goes fun other stands => ?_⟩
            rw [present] at stands
            obtain rfl := Option.some.inj stands
            simp [RemoteBuffer.request, turns]
        | cons first rest => exact ⟨first, placed.front_goes present turns⟩
  · obtain ⟨buffer, stands, waits⟩ := List.mem_flatMap.mp behind
    obtain ⟨place, present⟩ := List.mem_iff_getElem?.mp stands
    cases turns : buffer.turns with
    | nil => simp [turns] at waits
    | cons first rest => exact ⟨first, placed.front_goes present turns⟩

/-- As long as a flush has not ended, one can go on: permits and turns are never waited for in a circle. -/
theorem progress (placed : schedule.Placed []) (unfinished : schedule.unfinished ≠ []) : ∃ job, schedule.CanGoOn job := by
  -- If nobody holds a permit there is a free one, and then nobody waits for one.
  cases holders : schedule.executor.holders with
  | cons job rest =>
      have holds : job ∈ schedule.executor.holders := by simp [holders]
      obtain ⟨entry, accepted, rfl⟩ := List.mem_map.mp (placed.permits.holding holds)
      exact placed.someone_goes (List.mem_append_left _ accepted) (fun waits => placed.permits.apart waits holds) (.inr (.inl holds))
  | nil =>
      have room : schedule.executor.holders.length < schedule.executor.limit := by
        rw [holders]
        exact placed.permits.positive
      obtain ⟨job, known⟩ := List.exists_mem_of_ne_nil _ unfinished
      obtain ⟨entry, member, rfl⟩ := List.mem_map.mp known
      refine placed.someone_goes member ?_ (.inr (.inr room))
      rw [placed.permits.queue_eq_nil room]
      exact List.not_mem_nil

end Placed

end Schedule

end KeyedLog
