import KeyedLog.Proofs.Flush.Places

/-!
Turns at a buffer. The flush in front goes on, everyone else waits, and from the moment a flush has taken its batch to the
moment it removes it, it stays in front.
-/

namespace KeyedLog

inductive Milestone where
  | accepted (job : JobId)
  | taken (job : JobId) (target : TargetId)
  | removed (job : JobId) (target : TargetId)
  | finished (job : JobId)
  | closed
  deriving DecidableEq, Repr

namespace Milestone

def accepted? : Milestone → Option JobId
  | accepted job => some job
  | _ => none

def finished? : Milestone → Option JobId
  | finished job => some job
  | _ => none

def holding (target : TargetId) (jobs : List JobId) : Milestone → List JobId
  | taken job other => if other = target then jobs ++ [job] else jobs
  | removed job other => if other = target then jobs.erase job else jobs
  | _ => jobs

end Milestone

/-- The flushes of a target that have taken their batch and not removed it. -/
def underway (target : TargetId) (history : List Milestone) : List JobId :=
  history.foldl (Milestone.holding target) []

theorem underway_append (target : TargetId) (first second : List Milestone) :
    underway target (first ++ second) = second.foldl (Milestone.holding target) (underway target first) :=
  List.foldl_append ..

namespace RemoteBuffer

variable {job : JobId} {target : TargetId} {before after : RemoteBuffer}

def marksOfTaking (buffer : RemoteBuffer) (job : JobId) (target : TargetId) : List Milestone :=
  if buffer.upload = none then [.taken job target] else []

/-- How carrying on a flush changes the turns at its buffer, where it pauses, and what is seen of it. -/
inductive Resumed (job : JobId) (target : TargetId) (before after : RemoteBuffer) :
    Progress FlushOutcome → List Milestone → Prop where
  | blocked (behind : (before.request job).turns.head? ≠ some job) (turns : after.turns = (before.request job).turns)
      (upload : after.upload = before.upload) : Resumed job target before after .blocked []
  | paused (pause : Pause) (front : (before.request job).turns.head? = some job)
      (turns : after.turns = (before.request job).turns) (upload : after.upload ≠ none) :
      Resumed job target before after (.paused pause) (before.marksOfTaking job target)
  | idle (front : (before.request job).turns.head? = some job) (turns : after.turns = (before.request job).turns.tail)
      (free : before.upload = none) (upload : after.upload = none) :
      Resumed job target before after (.finished .empty (before.request job).turns.tail.head?) []
  | done (outcome : FlushOutcome) (front : (before.request job).turns.head? = some job)
      (turns : after.turns = (before.request job).turns.tail) (upload : after.upload = none) :
      Resumed job target before after (.finished outcome (before.request job).turns.tail.head?)
        (before.marksOfTaking job target ++ [.removed job target])

theorem takeTurn_cases (buffer : RemoteBuffer) (job : JobId) :
    ((buffer.request job).turns.head? ≠ some job ∧ buffer.takeTurn job = (.waiting, buffer.request job)) ∨
      ((buffer.request job).turns.head? = some job ∧ buffer.upload = none ∧
        buffer.takeTurn job = (.idle (buffer.request job).turns.tail.head?, (buffer.request job).pass.2)) ∨
      ((buffer.request job).turns.head? = some job ∧ ∃ upload after, buffer.takeTurn job = (.batch upload, after) ∧
        after.turns = (buffer.request job).turns ∧ after.upload = some upload) := by
  by_cases turn : (buffer.request job).isTurnOf job = true
  · have front : (buffer.request job).turns.head? = some job := by simpa [isTurnOf] using turn
    cases current : buffer.upload with
    | some upload =>
        refine .inr (.inr ⟨front, upload, buffer.request job, ?_, rfl, by simp [current]⟩)
        simp [takeTurn, turn, current]
    | none =>
        by_cases empty : buffer.pending.isEmpty = true
        · refine .inr (.inl ⟨front, rfl, ?_⟩)
          simp only [takeTurn, turn, request_upload, current, request_pending, empty]
          rfl
        · refine .inr (.inr ⟨front, (buffer.request job).begin.1, (buffer.request job).begin.2, ?_, rfl, rfl⟩)
          simp [takeTurn, turn, current, empty]
  · refine .inl ⟨by simpa [isTurnOf] using turn, ?_⟩
    simp [takeTurn, turn]

theorem request_place (buffer : RemoteBuffer) {job : JobId} (apart : job ∉ buffer.turns.tail) :
    ((buffer.request job).turns.head? = some job ∧ (buffer.request job).turns.tail = buffer.turns.tail) ∨
      ((buffer.request job).turns.head? ≠ some job ∧ (buffer.request job).turns = buffer.turns ++ [job] ∧
        buffer.turns ≠ []) := by
  cases turns : buffer.turns with
  | nil => simp [request, turns]
  | cons first rest =>
      rw [turns] at apart
      by_cases same : first = job
      · subst first
        simp [request, turns]
      · have absent : job ∉ first :: rest := by simpa [Ne.symm same] using apart
        simp [request, turns, absent, same]

theorem request_nodup {buffer : RemoteBuffer} (nodup : buffer.turns.Nodup) (job : JobId) : (buffer.request job).turns.Nodup := by
  unfold request
  split
  · exact nodup
  next absent =>
    change (buffer.turns ++ [job]).Nodup
    rw [List.nodup_append_comm]
    exact List.nodup_cons.mpr ⟨absent, nodup⟩

end RemoteBuffer

namespace Uploads

def takes (job : JobId) (target : TargetId) (uploads : Uploads) : Bool :=
  match uploads.buffers[target]? with
  | none => false
  | some buffer =>
    match (buffer.takeTurn job).1 with
    | .batch _ => buffer.upload.isNone
    | _ => false

def milestones (take : Taking) (job : JobId) (target : TargetId) (uploads : Uploads) : List Milestone :=
  (if uploads.takes job target then [.taken job target] else []) ++
    (if (resume take job target uploads).1.outcome?.isSome then [.removed job target] else [])

theorem afterPut_resumed {job : JobId} {target : TargetId} {before after : RemoteBuffer} {upload : Upload}
    (front : (before.request job).turns.head? = some job) (turns : after.turns = (before.request job).turns)
    (stored : Bool) (chance : UInt64) :
    RemoteBuffer.Resumed job target before (after.afterPut upload stored chance).2 (after.afterPut upload stored chance).1
      (before.marksOfTaking job target ++
        if (after.afterPut upload stored chance).1.outcome?.isSome then [.removed job target] else []) := by
  have next : (after.conclude upload).1 = (before.request job).turns.tail.head? := by
    rw [← turns]
    rfl
  have passed : (after.conclude upload).2.turns = (before.request job).turns.tail := by
    rw [← turns]
    rfl
  unfold RemoteBuffer.afterPut
  split
  · dsimp only
    rw [next]
    exact .done _ front passed rfl
  · split
    · dsimp only
      rw [next]
      exact .done _ front passed rfl
    · dsimp only [Progress.outcome?]
      simp only [Option.isSome_none, Bool.false_eq_true, if_false, List.append_nil]
      exact .paused _ front turns (by simp)

theorem resume_turns (take : Taking) (job : JobId) {target : TargetId} {uploads : Uploads} {buffer : RemoteBuffer}
    (present : uploads.buffers[target]? = some buffer) :
    ∃ after, (resume take job target uploads).2.buffers = uploads.buffers.set target after ∧
      RemoteBuffer.Resumed job target buffer after (resume take job target uploads).1
        (uploads.milestones take job target) := by
  rcases buffer.takeTurn_cases job with ⟨behind, turn⟩ | ⟨front, free, turn⟩ | ⟨front, upload, after, turn, turns, current⟩
  · refine ⟨buffer.request job, ?_, ?_⟩
    · simp [resume, present, turn, setBuffer]
    · simp only [milestones, takes, resume, present, turn, Progress.outcome?]
      exact .blocked behind rfl (buffer.request_upload job)
  · refine ⟨(buffer.request job).pass.2, ?_, ?_⟩
    · simp [resume, present, turn, setBuffer]
    · simp only [milestones, takes, resume, present, turn, Progress.outcome?, FlushOutcome.ofBatch?]
      exact .idle front rfl free ((buffer.request_upload job).trans free)
  · have taken : (if uploads.takes job target then [Milestone.taken job target] else []) =
        buffer.marksOfTaking job target := by
      simp only [takes, present, turn, RemoteBuffer.marksOfTaking, Option.isNone_iff_eq_none]
    simp only [milestones, taken]
    simp only [resume, present, turn, advance]
    generalize take uploads.store upload.stage upload.id after.type upload.payload uploads.files = taking
    obtain ⟨intake, store, files⟩ := taking
    cases intake with
    | answered result => exact ⟨_, rfl, afterPut_resumed front turns _ _⟩
    | paused pause stage =>
        refine ⟨_, rfl, ?_⟩
        simp only [Progress.outcome?, Option.isSome_none, Bool.false_eq_true, if_false, List.append_nil]
        exact .paused pause front turns (by simp)

theorem mem_milestones {take : Taking} {job : JobId} {target : TargetId} {uploads : Uploads} :
    ∀ milestone ∈ uploads.milestones take job target, milestone = .taken job target ∨ milestone = .removed job target := by
  unfold milestones
  split <;> split <;> simp

def inHand (target : TargetId) (uploads : Uploads) : List JobId :=
  match uploads.buffers[target]? with
  | none => []
  | some buffer => if buffer.upload = none then [] else buffer.turns.head?.toList

theorem length_inHand (target : TargetId) (uploads : Uploads) : (uploads.inHand target).length ≤ 1 := by
  unfold inHand
  split
  · exact Nat.zero_le _
  next buffer _ =>
    split
    · exact Nat.zero_le _
    · cases buffer.turns <;> simp

theorem inHand_congr {first second : Uploads} {target : TargetId} (same : first.buffers[target]? = second.buffers[target]?) :
    first.inHand target = second.inHand target := by
  rw [inHand, inHand, same]

theorem foldl_milestones_other (take : Taking) (job : JobId) {target other : TargetId} (different : target ≠ other)
    (uploads : Uploads) (jobs : List JobId) :
    (uploads.milestones take job target).foldl (Milestone.holding other) jobs = jobs := by
  unfold milestones
  split <;> split <;> simp [Milestone.holding, different]

theorem resume_inHand (take : Taking) (job : JobId) (target other : TargetId) {uploads : Uploads}
    (busy : ∀ buffer, uploads.buffers[target]? = some buffer → buffer.upload ≠ none → buffer.turns ≠ []) :
    (resume take job target uploads).2.inHand other =
      (uploads.milestones take job target).foldl (Milestone.holding other) (uploads.inHand other) := by
  by_cases same : target = other
  · subst other
    cases present : uploads.buffers[target]? with
    | none => simp [milestones, takes, resume, present, Progress.outcome?, FlushOutcome.ofBatch?]
    | some buffer =>
        obtain ⟨bound, -⟩ := List.getElem?_eq_some_iff.mp present
        obtain ⟨after, buffers, resumed⟩ := resume_turns take job present
        have stands : (resume take job target uploads).2.buffers[target]? = some after := by
          rw [buffers, List.getElem?_set_self bound]
        have before : uploads.inHand target = if buffer.upload = none then [] else buffer.turns.head?.toList := by
          rw [inHand, present]
        have now : (resume take job target uploads).2.inHand target =
            if after.upload = none then [] else after.turns.head?.toList := by
          rw [inHand, stands]
        have front : buffer.upload ≠ none → (buffer.request job).turns.head? = buffer.turns.head? :=
          fun begun => RemoteBuffer.head?_request (busy buffer present begun) job
        rw [before, now]
        generalize (resume take job target uploads).1 = progress at resumed
        generalize uploads.milestones take job target = marks at resumed
        cases resumed with
        | blocked behind turns upload =>
            rw [upload, turns]
            by_cases free : buffer.upload = none
            · simp [free]
            · simp [free, front free]
        | paused pause first turns upload =>
            rw [if_neg upload, turns, first]
            by_cases free : buffer.upload = none
            · simp [free, RemoteBuffer.marksOfTaking, Milestone.holding]
            · rw [front free] at first
              simp [free, first, RemoteBuffer.marksOfTaking]
        | idle first turns free upload => simp [free, upload]
        | done outcome first turns upload =>
            by_cases free : buffer.upload = none
            · simp [free, upload, RemoteBuffer.marksOfTaking, Milestone.holding]
            · rw [front free] at first
              simp [free, upload, first, RemoteBuffer.marksOfTaking, Milestone.holding]
  · rw [foldl_milestones_other take job same]
    exact inHand_congr (resume_other take job same uploads)

end Uploads

end KeyedLog
