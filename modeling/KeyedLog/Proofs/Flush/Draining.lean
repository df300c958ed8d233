import KeyedLog.Proofs.Flush.Running
import KeyedLog.Proofs.Flush.Watching

/-!
Waiting for all flushes to end. The wait ends with the last flush or at the deadline, and its report says which.
-/

namespace KeyedLog

namespace Schedule

variable {σ ω : Type}

/-- Alarms are in the order of time, and none is earlier than the bound. -/
structure Timely (schedule : Schedule σ) (bound : Millis) : Prop where
  sorted : schedule.alarms.Pairwise fun early late => early.1 ≤ late.1
  ahead : ∀ alarm ∈ schedule.alarms, bound ≤ alarm.1

structure SetsAlarm (before after : Schedule σ) : Prop where
  clock : after.clock = before.clock
  alarms : after.alarms = before.alarms ∨ ∃ duration activity, duration ≠ 0 ∧
    after.alarms = insertAlarm (before.clock + duration) activity before.alarms

theorem insertAlarm_sorted (time : Millis) (activity : Activity) {alarms : List (Millis × Activity)}
    (sorted : alarms.Pairwise fun early late => early.1 ≤ late.1) :
    (insertAlarm time activity alarms).Pairwise fun early late => early.1 ≤ late.1 := by
  induction sorted with
  | nil => exact List.pairwise_singleton _ _
  | @cons alarm rest first sorted ih =>
      rw [insertAlarm]
      split
      next before =>
        refine .cons (fun other member => ?_) ih
        rcases List.mem_cons.mp ((insertAlarm_perm time activity rest).mem_iff.mp member) with rfl | old
        · exact before
        · exact first other old
      next after =>
        have earlier : time ≤ alarm.1 := Nat.le_of_not_le after
        refine .cons (fun other member => ?_) (.cons first sorted)
        rcases List.mem_cons.mp member with rfl | old
        · exact earlier
        · exact Nat.le_trans earlier (first other old)

theorem Timely.setsAlarm {before after : Schedule σ} {bound : Millis} (timely : before.Timely bound)
    (soon : bound ≤ before.clock + 1) (sets : before.SetsAlarm after) : after.Timely bound := by
  rcases sets.alarms with same | ⟨duration, activity, later, inserted⟩
  · exact ⟨same ▸ timely.sorted, same ▸ timely.ahead⟩
  · refine ⟨inserted ▸ insertAlarm_sorted _ _ timely.sorted, ?_⟩
    rw [inserted]
    intro alarm member
    rcases List.mem_cons.mp ((insertAlarm_perm _ activity _).mem_iff.mp member) with rfl | old
    · exact Nat.le_trans soon (Nat.add_le_add_left (Nat.one_le_iff_ne_zero.mpr later) _)
    · exact timely.ahead alarm old

theorem startTicker_setsAlarm (schedule : Schedule σ) : schedule.SetsAlarm schedule.startTicker := by
  unfold startTicker
  split
  · exact ⟨rfl, .inl rfl⟩
  next starts => exact ⟨rfl, .inr ⟨_, .tick, fun none => starts (.inl none), rfl⟩⟩

theorem retire_setsAlarm (schedule : Schedule σ) (job : JobId) : schedule.SetsAlarm (schedule.retire job) := by
  unfold retire
  split <;> exact ⟨rfl, .inl rfl⟩

theorem pause_setsAlarm (schedule : Schedule σ) (job : JobId) (pause : Pause) :
    schedule.SetsAlarm (schedule.pause job pause) := by
  fun_cases schedule.pause job pause
  case case1 => exact ⟨rfl, .inl rfl⟩
  case case2 duration later => exact ⟨rfl, .inr ⟨duration, .flush job, later, rfl⟩⟩
  case case3 => exact ⟨rfl, .inl rfl⟩

theorem carryOn_setsAlarm (worker : Worker σ ω) (schedule : Schedule σ) (job : JobId) (target : TargetId) :
    schedule.SetsAlarm (schedule.carryOn worker job target).2 := by
  cases resumed : worker.resume job target schedule.work with
  | mk progress work =>
      cases progress with
      | blocked =>
          rw [carryOn_blocked resumed]
          exact ⟨rfl, .inl rfl⟩
      | paused pause =>
          rw [carryOn_paused resumed]
          obtain ⟨clock, alarms⟩ := pause_setsAlarm { schedule with work } job pause
          exact ⟨clock, alarms⟩
      | finished result next =>
          rw [carryOn_finished resumed]
          obtain ⟨clock, alarms⟩ := retire_setsAlarm ({ schedule with work }.wake next.toList) job
          exact ⟨clock, alarms⟩

theorem run_setsAlarm (worker : Worker σ ω) (schedule : Schedule σ) (activity : Activity) :
    schedule.SetsAlarm (schedule.run worker activity).2 := by
  cases activity with
  | tick =>
      obtain ⟨clock, alarms⟩ := startTicker_setsAlarm (schedule.flushAll worker).2
      exact ⟨clock, alarms⟩
  | flush job =>
      have entered : (schedule.enter job).2.clock = schedule.clock ∧ (schedule.enter job).2.alarms = schedule.alarms := by
        unfold enter
        split
        · exact ⟨rfl, rfl⟩
        · split <;> exact ⟨rfl, rfl⟩
      simp only [run]
      generalize schedule.enter job = result at entered
      obtain ⟨admitted, after⟩ := result
      obtain ⟨same, untouched⟩ := entered
      cases admitted with
      | none => exact ⟨same, .inl untouched⟩
      | some target =>
          obtain ⟨clock, alarms⟩ := after.carryOn_setsAlarm worker job target
          rw [same] at clock alarms
          rw [untouched] at alarms
          exact ⟨clock, alarms⟩

theorem dropWhile_ahead (time : Millis) {alarms : List (Millis × Activity)}
    (sorted : alarms.Pairwise fun early late => early.1 ≤ late.1) :
    ∀ alarm ∈ alarms.dropWhile fun alarm => decide (alarm.1 ≤ time), time < alarm.1 := by
  induction sorted with
  | nil => simp
  | @cons first rest before sorted ih =>
      rw [List.dropWhile_cons]
      split
      · exact ih
      next ahead =>
        have later : time < first.1 := by simpa using ahead
        intro alarm member
        rcases List.mem_cons.mp member with rfl | behind
        · exact later
        · exact Nat.lt_of_lt_of_le later (before alarm behind)

theorem Timely.moveTo {schedule : Schedule σ} {bound : Millis} (timely : schedule.Timely bound) (time : Millis) :
    (schedule.moveTo time).Timely (max bound (time + 1)) := by
  refine ⟨timely.sorted.sublist (List.dropWhile_sublist _), fun alarm member => ?_⟩
  have ahead := timely.ahead alarm ((List.dropWhile_sublist _).subset member)
  exact Nat.max_le.mpr ⟨ahead, dropWhile_ahead time timely.sorted alarm member⟩

theorem calm_timely (worker : Worker σ ω) {schedule : Schedule σ} {bound : Millis} (timely : schedule.Timely bound)
    (soon : bound ≤ schedule.clock + 1) :
    (schedule.calm worker).Timely bound ∧ (schedule.calm worker).clock = schedule.clock := by
  let keeps (later : Schedule σ) : Prop := later.Timely bound ∧ later.clock = schedule.clock
  have start : keeps schedule := ⟨timely, rfl⟩
  have kept : keeps (schedule.calm worker) := by
    refine calmFrom_keeps ⟨?_, fun _ _ _ _ kept => ⟨⟨kept.1.sorted, kept.1.ahead⟩, kept.2⟩⟩ patience start
    intro current activity rest _ ⟨timely, clock⟩
    have sets := run_setsAlarm worker { current with ready := rest } activity
    have taken : Timely { current with ready := rest } bound := ⟨timely.sorted, timely.ahead⟩
    exact ⟨taken.setsAlarm (clock ▸ soon) sets, sets.clock.trans clock⟩
  exact kept

inductive Reports (deadline : Millis) (after : Schedule σ) : DrainReport → Prop where
  | completed (none : after.executor.inFlight = 0) : Reports deadline after ⟨true, 0⟩
  | abandoned (some : 1 ≤ after.executor.inFlight) (clock : after.clock = deadline) :
      Reports deadline after ⟨false, after.executor.inFlight⟩

/-- A wait with a round for every moment up to the deadline reports how it ended. Every round that does not end it moves the
clock on to the next alarm. -/
theorem drainFrom_reports (worker : Worker σ ω) {deadline : Millis} (fuel : Nat) {schedule : Schedule σ} {bound : Millis}
    (timely : schedule.Timely bound) (now : schedule.clock ≤ bound) (soon : bound ≤ schedule.clock + 1)
    (early : schedule.clock ≤ deadline) (rounds : deadline + 2 ≤ bound + fuel) :
    Reports deadline (schedule.drainFrom worker deadline fuel).2 (schedule.drainFrom worker deadline fuel).1 := by
  -- The alarms are never behind the bound, so every round that goes on moves it towards the deadline.
  induction fuel generalizing schedule bound with
  | zero => exact absurd (Nat.le_trans rounds soon) (Nat.not_le_of_lt (Nat.lt_succ_of_le (Nat.succ_le_succ early)))
  | succ fuel ih =>
      obtain ⟨calmed, clock⟩ := calm_timely worker timely soon
      simp only [drainFrom]
      split
      next none => exact .completed none
      next some =>
        split
        next late => exact .abandoned (Nat.one_le_iff_ne_zero.mpr some) (Nat.le_antisymm early late)
        next before =>
          split
          next none => exact .completed none
          next left =>
            have unfinished := Nat.one_le_iff_ne_zero.mpr left
            cases alarm : (schedule.calm worker).nextAlarm? with
            | none => exact .abandoned unfinished rfl
            | some next =>
                dsimp only
                split
                next within =>
                  have ahead : bound ≤ next := by
                    obtain ⟨first, front, rfl⟩ := Option.map_eq_some_iff.mp alarm
                    exact calmed.ahead first (List.mem_of_head? front)
                  have moved : ((schedule.calm worker).moveTo next).clock = next := by
                    change max (schedule.calm worker).clock next = next
                    rw [clock]
                    exact Nat.max_eq_right (Nat.le_trans now ahead)
                  have further := calmed.moveTo next
                  rw [Nat.max_eq_right (Nat.le_succ_of_le ahead)] at further
                  refine ih further ?_ ?_ ?_ ?_
                  · exact Nat.le_trans (Nat.le_of_eq moved) (Nat.le_succ next)
                  · exact Nat.succ_le_succ (Nat.le_of_eq moved.symm)
                  · exact Nat.le_trans (Nat.le_of_eq moved) (Nat.le_of_lt within)
                  · grind
                · exact .abandoned unfinished rfl

theorem drain_reports (worker : Worker σ ω) {schedule : Schedule σ} (timely : schedule.Timely schedule.clock) (grace : Millis) :
    Reports (schedule.clock + grace) (schedule.drain worker grace).2 (schedule.drain worker grace).1 := by
  have begun : Timely { (schedule.flushAll worker).2 with executor := (schedule.flushAll worker).2.executor.close }
      schedule.clock := ⟨timely.sorted, timely.ahead⟩
  exact drainFrom_reports worker (grace + 2) begun (Nat.le_refl _) (Nat.le_succ _) (Nat.le_add_right _ _) (Nat.le_refl _)

end Schedule

end KeyedLog
