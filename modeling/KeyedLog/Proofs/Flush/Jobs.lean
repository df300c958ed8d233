import KeyedLog.Proofs.Remote.Notices
import Mathlib.Data.List.Nodup

/-!
The jobs of an executor. A job that was accepted stays until it has ended, and what waits in a buffer when a flush of it
is accepted has left the buffer when that flush has ended.
-/

namespace KeyedLog

namespace Executor

structure Accepts (before after : Executor) : Prop where
  jobs : ∃ more : List (JobId × TargetId), after.jobs = before.jobs ++ more ∧ (more.map (·.1)).Nodup ∧
    ∀ entry ∈ more, before.nextJob ≤ entry.1 ∧ entry.1 < after.nextJob
  next : before.nextJob ≤ after.nextJob

theorem accepts_of_same {before after : Executor} (jobs : after.jobs = before.jobs)
    (next : before.nextJob ≤ after.nextJob) : before.Accepts after :=
  ⟨⟨[], by simp [jobs], by simp, by simp⟩, next⟩

theorem Accepts.trans {first second third : Executor} (one : first.Accepts second) (two : second.Accepts third) :
    first.Accepts third := by
  obtain ⟨more, jobs, single, numbers⟩ := one.jobs
  obtain ⟨later, jobs', single', numbers'⟩ := two.jobs
  have next := one.next
  have next' := two.next
  refine ⟨⟨more ++ later, by rw [jobs', jobs, List.append_assoc], ?_, ?_⟩, Nat.le_trans next next'⟩
  · rw [List.map_append, List.nodup_append]
    refine ⟨single, single', ?_⟩
    intro job early job' late
    obtain ⟨entry, member, rfl⟩ := List.mem_map.mp early
    obtain ⟨entry', member', rfl⟩ := List.mem_map.mp late
    exact Nat.ne_of_lt (Nat.lt_of_lt_of_le (numbers entry member).2 (numbers' entry' member').1)
  · intro entry member
    rcases List.mem_append.mp member with early | late
    · exact ⟨(numbers entry early).1, Nat.lt_of_lt_of_le (numbers entry early).2 next'⟩
    · exact ⟨Nat.le_trans next (numbers' entry late).1, (numbers' entry late).2⟩

theorem submit_accepts (executor : Executor) (target : TargetId) : executor.Accepts (executor.submit target).2 := by
  unfold submit
  split
  · refine ⟨⟨[(executor.nextJob, target)], rfl, by simp, ?_⟩, Nat.le_succ _⟩
    intro entry member
    rw [List.mem_singleton.mp member]
    exact ⟨Nat.le_refl _, Nat.lt_succ_self _⟩
  · exact accepts_of_same rfl (Nat.le_refl _)

theorem submit_accepting (executor : Executor) (target : TargetId) :
    (executor.submit target).2.accepting = executor.accepting := by
  unfold submit
  split <;> rfl

theorem submitAll_accepts (executor : Executor) (targets : List TargetId) :
    executor.Accepts (executor.submitAll targets).2 := by
  induction targets generalizing executor with
  | nil => exact accepts_of_same rfl (Nat.le_refl _)
  | cons target rest ih => exact (submit_accepts executor target).trans (ih _)

theorem submitAll_accepting (executor : Executor) (targets : List TargetId) :
    (executor.submitAll targets).2.accepting = executor.accepting := by
  induction targets generalizing executor with
  | nil => rfl
  | cons target rest ih => exact (ih _).trans (submit_accepting executor target)

theorem flushAll_accepts (executor : Executor) (isHeld : TargetId → Bool) :
    executor.Accepts (executor.flushAll isHeld).2.2 := by
  unfold flushAll
  dsimp only
  refine Accepts.trans ?_ (submitAll_accepts _ _)
  exact accepts_of_same rfl (Nat.le_refl _)

theorem flushAll_accepting (executor : Executor) (isHeld : TargetId → Bool) :
    (executor.flushAll isHeld).2.2.accepting = executor.accepting :=
  submitAll_accepting ..

end Executor

namespace Schedule

variable {σ ω : Type}

structure RunsFlush (worker : Worker σ ω) (job : JobId) (before after : Schedule σ) : Prop where
  next : after.executor.nextJob = before.executor.nextJob
  accepting : after.executor.accepting = before.executor.accepting
  direct : ∀ entry ∈ after.direct, entry ∈ before.direct
  work : (after.work = before.work ∧ after.executor.jobs = before.executor.jobs) ∨
    ∃ target, ((job, target) ∈ before.direct ∨ (job, target) ∈ before.executor.jobs) ∧
      after.work = (worker.resume job target before.work).2 ∧
      (after.executor.jobs = before.executor.jobs ∨
        (job, target) ∈ before.executor.jobs ∧
        (∃ result next, (worker.resume job target before.work).1 = .finished result next) ∧
        after.executor.jobs = before.executor.jobs.filter fun entry => entry.1 != job)

theorem mem_of_lookup {job : JobId} {target : TargetId} {entries : List (JobId × TargetId)}
    (found : entries.lookup job = some target) : (job, target) ∈ entries := by
  obtain ⟨front, back, shape, -⟩ := List.lookup_eq_some_iff.mp found
  simp [shape]

theorem grant_jobs (executor : Executor) (job : JobId) :
    (executor.grant job).2.jobs = executor.jobs ∧ (executor.grant job).2.nextJob = executor.nextJob ∧
      (executor.grant job).2.accepting = executor.accepting := by
  unfold Executor.grant
  split
  · exact ⟨rfl, rfl, rfl⟩
  · split <;> exact ⟨rfl, rfl, rfl⟩

theorem finish_jobs (executor : Executor) (job : JobId) :
    (executor.finish job).2.jobs = executor.jobs.filter (fun entry => entry.1 != job) ∧
      (executor.finish job).2.nextJob = executor.nextJob ∧
      (executor.finish job).2.accepting = executor.accepting := by
  unfold Executor.finish
  dsimp only
  split <;> exact ⟨rfl, rfl, rfl⟩

theorem carryOn_jobs (worker : Worker σ ω) (schedule : Schedule σ) (job : JobId) (target : TargetId) :
    (schedule.carryOn worker job target).2.executor.nextJob = schedule.executor.nextJob ∧
      (schedule.carryOn worker job target).2.executor.accepting = schedule.executor.accepting ∧
      (∀ entry ∈ (schedule.carryOn worker job target).2.direct, entry ∈ schedule.direct) ∧
      ((schedule.carryOn worker job target).2.executor.jobs = schedule.executor.jobs ∨
        schedule.direct.lookup job = none ∧
        (∃ result next, (worker.resume job target schedule.work).1 = .finished result next) ∧
        (schedule.carryOn worker job target).2.executor.jobs =
          schedule.executor.jobs.filter fun entry => entry.1 != job) := by
  unfold carryOn
  generalize worker.resume job target schedule.work = result
  obtain ⟨progress, work⟩ := result
  cases progress with
  | blocked => exact ⟨rfl, rfl, fun _ member => member, .inl rfl⟩
  | paused pause => simp
  | finished result next =>
      cases waited : schedule.direct.lookup job with
      | some other =>
          dsimp only [wake]
          rw [if_pos (by rw [waited]; rfl)]
          exact ⟨rfl, rfl, fun _ member => List.mem_of_mem_filter member, .inl rfl⟩
      | none =>
          obtain ⟨jobs, numbers, accepting⟩ := finish_jobs schedule.executor job
          dsimp only [wake]
          rw [if_neg (by rw [waited]; simp)]
          exact ⟨numbers, accepting, fun _ member => member, .inr ⟨rfl, ⟨result, next, rfl⟩, jobs⟩⟩

theorem run_flush (worker : Worker σ ω) (schedule : Schedule σ) (job : JobId) :
    RunsFlush worker job schedule (schedule.run worker (.flush job)).2 := by
  simp only [run, enter]
  cases waited : schedule.direct.lookup job with
  | some target =>
      obtain ⟨next, accepting, direct, jobs⟩ := schedule.carryOn_jobs worker job target
      refine ⟨next, accepting, direct, .inr ⟨target, .inl (mem_of_lookup waited), schedule.carryOn_work worker job target, ?_⟩⟩
      rcases jobs with same | ⟨absent, -⟩
      · exact .inl same
      · rw [waited] at absent
        exact absurd absent (by simp)
  | none =>
      cases found : schedule.executor.jobs.lookup job with
      | none => exact ⟨rfl, rfl, fun _ member => member, .inl ⟨rfl, rfl⟩⟩
      | some target =>
          have member := mem_of_lookup found
          obtain ⟨jobs, next, accepting⟩ := grant_jobs schedule.executor job
          generalize schedule.executor.grant job = granted at jobs next accepting
          obtain ⟨permit, executor⟩ := granted
          simp only at jobs next accepting ⊢
          cases permit with
          | false => exact ⟨next, accepting, fun _ member => member, .inl ⟨rfl, jobs⟩⟩
          | true =>
              obtain ⟨next', accepting', direct, jobs'⟩ := carryOn_jobs worker { schedule with executor } job target
              refine ⟨next'.trans next, accepting'.trans accepting, direct, .inr ⟨target, .inr member, ?_, ?_⟩⟩
              · exact carryOn_work worker { schedule with executor } job target
              · rcases jobs' with same | ⟨-, ended, rest⟩
                · exact .inl (same.trans jobs)
                · refine .inr ⟨member, ended, ?_⟩
                  rw [← jobs]
                  exact rest

end Schedule

namespace RemoteBuffer

def taken (buffer : RemoteBuffer) : Nat :=
  match buffer.upload with
  | some upload => upload.events
  | none => buffer.pending.length

/-- What carrying on a flush does to its buffer, and whether the flush ends with it. -/
inductive FlushStep (job : JobId) (before after : RemoteBuffer) : (ended : Bool) → Prop where
  | waits (turns : after.turns = (before.request job).turns) (pending : after.pending = before.pending)
      (upload : after.upload = before.upload) : FlushStep job before after false
  | idles (turns : after.turns = (before.request job).turns.tail) (empty : before.pending = [])
      (pending : after.pending = []) (upload : after.upload = none) : FlushStep job before after true
  | goesOn (first : (before.request job).turns.head? = some job) (turns : after.turns = (before.request job).turns)
      (pending : after.pending = before.pending) (upload : ∃ upload, after.upload = some upload ∧ upload.events = before.taken) :
      FlushStep job before after false
  | ends (first : (before.request job).turns.head? = some job) (turns : after.turns = (before.request job).turns.tail)
      (pending : after.pending = before.pending.drop before.taken) (upload : after.upload = none) :
      FlushStep job before after true

/-- The flush has not begun its batch, or its batch has everything that waits. -/
def IsCoveredBy (buffer : RemoteBuffer) (job : JobId) : Prop :=
  ∀ upload, buffer.upload = some upload → buffer.turns.head? = some job → upload.events = buffer.pending.length

variable {job other : JobId} {before after : RemoteBuffer} {ended : Bool}

theorem head?_request (busy : before.turns ≠ []) (job : JobId) : (before.request job).turns.head? = before.turns.head? := by
  unfold request
  split
  · rfl
  · exact List.head?_append_of_ne_nil _ busy

theorem mem_request (job : JobId) : ∀ other ∈ (before.request job).turns, other ∈ before.turns ∨ other = job := by
  intro other member
  unfold request at member
  split at member
  · exact .inl member
  · rcases List.mem_append.mp member with old | new
    · exact .inl old
    · exact .inr (List.mem_singleton.mp new)

theorem FlushStep.covered (step : FlushStep job before after ended) (busy : before.upload ≠ none → before.turns ≠ [])
    (covered : before.IsCoveredBy other) :
    (after.pending = [] ∨ after.IsCoveredBy other) ∧ (ended = true → other = job → after.pending = []) := by
  -- Whoever is in front has taken all that waits, or there is no batch yet and it will.
  have whole : (before.request job).turns.head? = some job → other = job → before.taken = before.pending.length := by
    intro first same
    unfold taken
    cases current : before.upload with
    | none => rfl
    | some upload =>
        rw [head?_request (busy (by simp [current])), ← same] at first
        exact covered upload current first
  cases step with
  | waits turns pending upload =>
      refine ⟨.inr ?_, by simp⟩
      intro current present first
      rw [upload] at present
      rw [turns, head?_request (busy (by simp [present]))] at first
      rw [pending]
      exact covered current present first
  | idles turns empty pending upload => exact ⟨.inl pending, fun _ _ => pending⟩
  | goesOn first turns pending upload =>
      refine ⟨.inr ?_, by simp⟩
      intro current present head
      obtain ⟨upload, same, events⟩ := upload
      rw [turns, first] at head
      rw [present] at same
      rw [Option.some.inj same, events, pending]
      exact whole first (Option.some.inj head).symm
  | ends first turns pending upload =>
      refine ⟨.inr (by simp [IsCoveredBy, upload]), ?_⟩
      intro _ same
      rw [pending, whole first same, List.drop_length]

theorem FlushStep.busy (step : FlushStep job before after ended) (busy : before.upload ≠ none → before.turns ≠ []) :
    after.upload ≠ none → after.turns ≠ [] := by
  intro some nothing
  cases step with
  | waits turns pending upload =>
      rw [upload] at some
      have first := head?_request (busy some) job
      rw [← turns, nothing] at first
      exact busy some (List.head?_eq_none_iff.mp first.symm)
  | idles turns empty pending upload => exact some upload
  | goesOn first turns pending upload =>
      rw [← turns, nothing] at first
      simp at first
  | ends first turns pending upload => exact some upload

theorem FlushStep.turns (step : FlushStep job before after ended) :
    ∀ other ∈ after.turns, other ∈ before.turns ∨ other = job := by
  intro other member
  cases step with
  | waits turns => exact mem_request job other (turns ▸ member)
  | idles turns => exact mem_request job other (List.mem_of_mem_tail (turns ▸ member))
  | goesOn _ turns => exact mem_request job other (turns ▸ member)
  | ends _ turns => exact mem_request job other (List.mem_of_mem_tail (turns ▸ member))

@[simp] theorem request_pending (buffer : RemoteBuffer) (job : JobId) : (buffer.request job).pending = buffer.pending := by
  unfold request
  split <;> rfl

@[simp] theorem request_upload (buffer : RemoteBuffer) (job : JobId) : (buffer.request job).upload = buffer.upload := by
  unfold request
  split <;> rfl

@[simp] theorem request_identity (buffer : RemoteBuffer) (job : JobId) : (buffer.request job).identity = buffer.identity := by
  unfold request
  split <;> rfl

inductive Taken (job : JobId) (before after : RemoteBuffer) : Turn → Prop where
  | waiting (turns : after.turns = (before.request job).turns) (pending : after.pending = before.pending)
      (upload : after.upload = before.upload) : Taken job before after .waiting
  | idle (next : Option JobId) (turns : after.turns = (before.request job).turns.tail) (empty : before.pending = [])
      (pending : after.pending = []) (upload : after.upload = none) : Taken job before after (.idle next)
  | batch (upload : Upload) (first : (before.request job).turns.head? = some job)
      (turns : after.turns = (before.request job).turns) (pending : after.pending = before.pending)
      (events : upload.events = before.taken) : Taken job before after (.batch upload)

theorem takeTurn_taken (buffer : RemoteBuffer) (job : JobId) :
    Taken job buffer (buffer.takeTurn job).2 (buffer.takeTurn job).1 ∧
      (buffer.takeTurn job).2.identity = buffer.identity := by
  simp only [takeTurn]
  by_cases turn : (buffer.request job).isTurnOf job = true
  · have first : (buffer.request job).turns.head? = some job := by simpa [isTurnOf] using turn
    simp only [turn, Bool.not_true, Bool.false_eq_true, if_false]
    cases current : buffer.upload with
    | some upload =>
        simp only [request_upload, current]
        exact ⟨.batch upload first rfl (request_pending ..) (by simp [taken, current]), request_identity ..⟩
    | none =>
        simp only [request_upload, current]
        by_cases empty : buffer.pending = []
        · simp only [request_pending, empty, List.isEmpty_nil, if_true]
          exact ⟨.idle _ rfl empty (by simp [pass, empty]) (by simp [pass, current]), request_identity ..⟩
        · have some : buffer.pending.isEmpty = false := by simpa using empty
          simp only [request_pending, some, Bool.false_eq_true, if_false]
          refine ⟨.batch _ first rfl (request_pending ..) ?_, request_identity ..⟩
          simp [begin, taken, current]
  · have other : (buffer.request job).isTurnOf job = false := by simpa using turn
    simp only [other, Bool.not_false, if_true]
    exact ⟨.waiting rfl (request_pending ..) (request_upload ..), request_identity ..⟩

end RemoteBuffer

def Progress.isFinished {ω : Type} : Progress ω → Bool
  | .finished .. => true
  | _ => false

namespace RemoteBuffer

theorem afterPut_step {job : JobId} {before after : RemoteBuffer} {upload : Upload}
    (batch : Taken job before after (.batch upload)) (stored : Bool) (chance : UInt64) :
    FlushStep job before (after.afterPut upload stored chance).2 (after.afterPut upload stored chance).1.isFinished ∧
      (after.afterPut upload stored chance).2.identity = after.identity := by
  cases batch with
  | batch _ first turns pending events =>
      have concluded : FlushStep job before (after.conclude upload).2 true := by
        refine .ends first ?_ ?_ rfl
        · simp [conclude, pass, turns]
        · simp [conclude, pass, pending, events]
      unfold afterPut
      split
      · exact ⟨concluded, rfl⟩
      · split
        · exact ⟨concluded, rfl⟩
        · exact ⟨.goesOn first turns pending ⟨_, rfl, events⟩, rfl⟩

end RemoteBuffer

namespace Uploads

theorem resume_step (take : Taking) (job : JobId) {target : TargetId} {uploads : Uploads} {buffer : RemoteBuffer}
    (present : uploads.buffers[target]? = some buffer) :
    ∃ after, (resume take job target uploads).2.buffers = uploads.buffers.set target after ∧
      after.identity = buffer.identity ∧
      RemoteBuffer.FlushStep job buffer after (resume take job target uploads).1.isFinished := by
  obtain ⟨taken, identity⟩ := buffer.takeTurn_taken job
  simp only [resume, present]
  generalize buffer.takeTurn job = result at taken identity
  obtain ⟨turn, turned⟩ := result
  cases turn with
  | waiting =>
      cases taken with
      | waiting turns pending upload => exact ⟨turned, rfl, identity, .waits turns pending upload⟩
  | idle next =>
      cases taken with
      | idle _ turns empty pending upload => exact ⟨turned, rfl, identity, .idles turns empty pending upload⟩
  | batch upload =>
      simp only [advance]
      generalize take uploads.store upload.stage upload.id turned.type upload.payload uploads.files = taking
      obtain ⟨intake, store, files⟩ := taking
      cases intake with
      | answered result =>
          obtain ⟨step, same⟩ := RemoteBuffer.afterPut_step taken result.isOk uploads.chance
          exact ⟨_, rfl, same.trans identity, step⟩
      | paused pause stage =>
          cases taken with
          | batch _ first turns pending events =>
              exact ⟨_, rfl, identity, .goesOn first turns pending ⟨_, rfl, events⟩⟩

theorem resume_absent (take : Taking) (job : JobId) {target : TargetId} {uploads : Uploads}
    (absent : uploads.buffers[target]? = none) : (resume take job target uploads).2 = uploads := by
  simp only [resume, absent]

end Uploads

end KeyedLog
