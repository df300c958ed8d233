import KeyedLog.Remote
import Mathlib.Data.List.Basic

/-!
The books of one remote buffer: everything it has ever accepted is in the batches that have ended, in their order,
or still waits. A batch that has ended tells how often the store refused it and whether it was stored at last.
-/

namespace KeyedLog

/-- One call of the store, and whether it answered that it took the object in. -/
structure Attempt where
  id : String
  type : DocumentType
  payload : Bytes
  stored : Bool
  deriving DecidableEq, Repr

structure Batch where
  entries : List Bytes
  refusals : Nat
  stored : Bool
  deriving DecidableEq, Repr

namespace Batch

def payload (batch : Batch) : Bytes :=
  batch.entries.flatten

def attempts (batch : Batch) (id : String) (type : DocumentType) : List Attempt :=
  List.replicate batch.refusals ⟨id, type, batch.payload, false⟩ ++
    if batch.stored then [⟨id, type, batch.payload, true⟩] else []

def outcome (batch : Batch) (id : String) : FlushOutcome :=
  if batch.stored then .persisted id batch.entries.length else .dropped id batch.entries.length

/-- A batch holds something, is given up only after all attempts, and is stored before that. -/
structure IsComplete (batch : Batch) (retry : RetryPolicy) : Prop where
  nonempty : batch.entries ≠ []
  kept : batch.stored = true → batch.refusals < retry.maxAttempts.toNat
  lost : batch.stored = false → batch.refusals = retry.maxAttempts.toNat

end Batch

namespace RemoteBuffer

def identity (buffer : RemoteBuffer) : String × String × DocumentType × String × RetryPolicy :=
  (buffer.name, buffer.baseId, buffer.type, buffer.sinkInstance, buffer.retry)

def openAttempts (buffer : RemoteBuffer) : List Attempt :=
  match buffer.upload with
  | none => []
  | some upload => List.replicate (upload.attempt.toNat - 1) ⟨upload.id, buffer.type, upload.payload, false⟩

/-- A batch on its way is the front of what waits, under the number that was given out last. -/
structure IsFront (buffer : RemoteBuffer) (upload : Upload) : Prop where
  id : upload.id = buffer.idOf buffer.batches
  nonempty : 0 < upload.events
  within : upload.events ≤ buffer.pending.length
  payload : upload.payload = (buffer.pending.take upload.events).flatten
  begun : 0 < upload.attempt.toNat
  bounded : upload.attempt.toNat ≤ buffer.retry.maxAttempts.toNat

end RemoteBuffer

def batchAttempts (origin : RemoteBuffer) (batches : List Batch) : List Attempt :=
  (batches.zipIdx 1).flatMap fun (batch, number) => batch.attempts (origin.idOf number) origin.type

def batchOutcomes (origin : RemoteBuffer) (batches : List Batch) : List FlushOutcome :=
  (batches.zipIdx 1).map fun (batch, number) => batch.outcome (origin.idOf number)

/-- The books of a buffer that was made as `origin`: what it has accepted, which calls of the store it has made, how
its flushes have ended, and the batches that explain all this. -/
structure Books (origin buffer : RemoteBuffer) (accepted : List Bytes) (attempts : List Attempt)
    (outcomes : List FlushOutcome) (batches : List Batch) : Prop where
  identity : buffer.identity = origin.identity
  accepted : accepted = batches.flatMap (·.entries) ++ buffer.pending
  attempts : attempts = batchAttempts origin batches ++ buffer.openAttempts
  outcomes : outcomes = batchOutcomes origin batches
  complete : ∀ batch ∈ batches, batch.IsComplete origin.retry
  counted : buffer.batches = batches.length + if buffer.upload.isSome then 1 else 0
  front : ∀ upload, buffer.upload = some upload → buffer.IsFront upload

theorem batchAttempts_concat (origin : RemoteBuffer) (batches : List Batch) (batch : Batch) :
    batchAttempts origin (batches ++ [batch]) =
      batchAttempts origin batches ++ batch.attempts (origin.idOf (batches.length + 1)) origin.type := by
  simp [batchAttempts, List.zipIdx_append, Nat.add_comm]

theorem batchOutcomes_concat (origin : RemoteBuffer) (batches : List Batch) (batch : Batch) :
    batchOutcomes origin (batches ++ [batch]) =
      batchOutcomes origin batches ++ [batch.outcome (origin.idOf (batches.length + 1))] := by
  simp [batchOutcomes, List.zipIdx_append, Nat.add_comm]

namespace RemoteBuffer

theorem idOf_congr {buffer origin : RemoteBuffer} (same : buffer.identity = origin.identity) (batch : Nat) :
    buffer.idOf batch = origin.idOf batch := by
  simp only [identity, Prod.mk.injEq] at same
  simp only [idOf, same]

theorem retry_congr {buffer origin : RemoteBuffer} (same : buffer.identity = origin.identity) :
    buffer.retry = origin.retry := by
  simp only [identity, Prod.mk.injEq] at same
  exact same.2.2.2.2

theorem type_congr {buffer origin : RemoteBuffer} (same : buffer.identity = origin.identity) :
    buffer.type = origin.type := by
  simp only [identity, Prod.mk.injEq] at same
  exact same.2.2.1

end RemoteBuffer

namespace Books

variable {origin buffer : RemoteBuffer} {accepted : List Bytes} {attempts : List Attempt}
  {outcomes : List FlushOutcome} {batches : List Batch}

theorem fresh (idle : buffer.upload = none) (empty : buffer.pending = []) (unused : buffer.batches = 0) :
    Books buffer buffer [] [] [] [] where
  identity := rfl
  accepted := by simp [empty]
  attempts := by simp [batchAttempts, RemoteBuffer.openAttempts, idle]
  outcomes := rfl
  complete := by simp
  counted := by simp [unused, idle]
  front := by simp [idle]

theorem congr (books : Books origin buffer accepted attempts outcomes batches) {other : RemoteBuffer}
    (identity : other.identity = buffer.identity) (pending : other.pending = buffer.pending)
    (upload : other.upload = buffer.upload) (number : other.batches = buffer.batches) :
    Books origin other accepted attempts outcomes batches where
  identity := identity.trans books.identity
  accepted := by rw [pending]; exact books.accepted
  attempts := by
    have type := RemoteBuffer.type_congr identity
    simp only [RemoteBuffer.openAttempts, upload, type]
    exact books.attempts
  outcomes := books.outcomes
  complete := books.complete
  counted := by rw [number, upload]; exact books.counted
  front := by
    intro current present
    have front := books.front current (upload ▸ present)
    have retry := RemoteBuffer.retry_congr identity
    refine ⟨?_, front.nonempty, ?_, ?_, front.begun, ?_⟩
    · rw [RemoteBuffer.idOf_congr identity, number]
      exact front.id
    · rw [pending]
      exact front.within
    · rw [pending]
      exact front.payload
    · rw [retry]
      exact front.bounded

theorem accept (books : Books origin buffer accepted attempts outcomes batches) (bytes : Bytes) :
    Books origin (buffer.accept bytes) (accepted ++ [bytes]) attempts outcomes batches where
  identity := books.identity
  accepted := by simp [RemoteBuffer.accept, books.accepted]
  attempts := books.attempts
  outcomes := books.outcomes
  complete := books.complete
  counted := books.counted
  front := by
    intro upload present
    have front := books.front upload present
    refine ⟨front.id, front.nonempty, ?_, ?_, front.begun, front.bounded⟩
    · have within := front.within
      simp only [RemoteBuffer.accept, List.length_append, List.length_cons, List.length_nil]
      omega
    · simp only [RemoteBuffer.accept, List.take_append_of_le_length front.within]
      exact front.payload

theorem begin (books : Books origin buffer accepted attempts outcomes batches) (idle : buffer.upload = none)
    (waiting : buffer.pending ≠ []) :
    Books origin buffer.begin.2 accepted attempts outcomes batches where
  identity := books.identity
  accepted := books.accepted
  attempts := by
    have before := books.attempts
    simpa [RemoteBuffer.begin, RemoteBuffer.openAttempts, idle] using before
  outcomes := books.outcomes
  complete := books.complete
  counted := by simp [RemoteBuffer.begin, books.counted, idle]
  front := by
    intro upload present
    simp only [RemoteBuffer.begin, Option.some.injEq] at present
    subst upload
    have positive : 0 < buffer.retry.maxAttempts.toNat := UInt32.lt_iff_toNat_lt.mp buffer.retry.positive
    exact ⟨rfl, List.length_pos_iff.mpr waiting, Nat.le_refl _, by simp [RemoteBuffer.begin], Nat.one_pos, positive⟩

theorem takeTurn (books : Books origin buffer accepted attempts outcomes batches) (job : JobId) :
    Books origin (buffer.takeTurn job).2 accepted attempts outcomes batches ∧
      ∀ upload, (buffer.takeTurn job).1 = .batch upload → (buffer.takeTurn job).2.upload = some upload := by
  have requested : Books origin (buffer.request job) accepted attempts outcomes batches := by
    unfold RemoteBuffer.request
    split
    · exact books
    · exact books.congr rfl rfl rfl rfl
  simp only [RemoteBuffer.takeTurn]
  generalize buffer.request job = buffer at requested
  split
  · exact ⟨requested, by simp⟩
  · split
    next upload present =>
      refine ⟨requested, ?_⟩
      intro other same
      cases same
      exact present
    next idle =>
      split
      next => exact ⟨requested.congr rfl rfl rfl rfl, by simp⟩
      next waiting =>
        refine ⟨requested.begin idle (by simpa using waiting), ?_⟩
        intro other same
        cases same
        rfl

theorem paused (books : Books origin buffer accepted attempts outcomes batches) {upload : Upload}
    (present : buffer.upload = some upload) (stage : PutStage) :
    Books origin { buffer with upload := some { upload with stage } } accepted attempts outcomes batches where
  identity := books.identity
  accepted := books.accepted
  attempts := by
    have before := books.attempts
    simpa [RemoteBuffer.openAttempts, present] using before
  outcomes := books.outcomes
  complete := books.complete
  counted := by simp [books.counted, present]
  front := by
    intro other same
    cases same
    have front := books.front upload present
    exact ⟨front.id, front.nonempty, front.within, front.payload, front.begun, front.bounded⟩

theorem conclude (books : Books origin buffer accepted attempts outcomes batches) {upload : Upload}
    (present : buffer.upload = some upload) {batch : Batch}
    (entries : batch.entries = buffer.pending.take upload.events) (complete : batch.IsComplete origin.retry)
    {calls : List Attempt} (made : buffer.openAttempts ++ calls = batch.attempts upload.id buffer.type) :
    Books origin (buffer.conclude upload).2 accepted (attempts ++ calls) (outcomes ++ [batch.outcome upload.id])
      (batches ++ [batch]) := by
  have front := books.front upload present
  have number : buffer.batches = batches.length + 1 := by simpa [present] using books.counted
  have id : upload.id = origin.idOf (batches.length + 1) := by
    rw [front.id, number]
    exact RemoteBuffer.idOf_congr books.identity _
  have type := RemoteBuffer.type_congr books.identity
  constructor
  case identity =>
    exact books.identity
  case accepted =>
    have split := List.take_append_drop upload.events buffer.pending
    simp only [RemoteBuffer.conclude, RemoteBuffer.pass, List.flatMap_append, List.flatMap_singleton, entries,
      List.append_assoc, split]
    exact books.accepted
  case attempts =>
    rw [batchAttempts_concat, books.attempts, List.append_assoc, made, id, type]
    simp [RemoteBuffer.conclude, RemoteBuffer.pass, RemoteBuffer.openAttempts]
  case outcomes =>
    rw [batchOutcomes_concat, books.outcomes, id]
  case complete =>
    intro other member
    rcases List.mem_append.mp member with old | new
    · exact books.complete other old
    · rw [List.mem_singleton.mp new]
      exact complete
  case counted =>
    simp [RemoteBuffer.conclude, RemoteBuffer.pass, number]
  case front =>
    simp [RemoteBuffer.conclude, RemoteBuffer.pass]

theorem retry (books : Books origin buffer accepted attempts outcomes batches) {upload : Upload}
    (present : buffer.upload = some upload) (left : upload.attempt.toNat < buffer.retry.maxAttempts.toNat) :
    Books origin { buffer with upload := some { upload with attempt := upload.attempt + 1, stage := .due } } accepted
      (attempts ++ [⟨upload.id, buffer.type, upload.payload, false⟩]) outcomes batches := by
  have front := books.front upload present
  have small : buffer.retry.maxAttempts.toNat < UInt32.size := buffer.retry.maxAttempts.toNat_lt
  have next : (upload.attempt + 1).toNat = upload.attempt.toNat + 1 := by
    rw [UInt32.toNat_add]
    have one : (1 : UInt32).toNat = 1 := rfl
    rw [one]
    exact Nat.mod_eq_of_lt (by
      have size : UInt32.size = 2 ^ 32 := rfl
      omega)
  constructor
  case identity =>
    exact books.identity
  case accepted =>
    exact books.accepted
  case attempts =>
    have begun := front.begun
    have count : upload.attempt.toNat + 1 - 1 = (upload.attempt.toNat - 1) + 1 := by omega
    simp only [books.attempts, RemoteBuffer.openAttempts, present, next, count, List.replicate_succ',
      List.append_assoc]
  case outcomes =>
    exact books.outcomes
  case complete =>
    exact books.complete
  case counted =>
    simpa [present] using books.counted
  case front =>
    intro other same
    cases same
    refine ⟨front.id, front.nonempty, front.within, front.payload, ?_, ?_⟩
    · rw [next]
      omega
    · rw [next]
      exact left

end Books

def FlushOutcome.ofBatch? : FlushOutcome → Option FlushOutcome
  | .empty => none
  | outcome => some outcome

def Progress.outcome? : Progress FlushOutcome → Option FlushOutcome
  | .finished outcome _ => outcome.ofBatch?
  | _ => none

namespace Books

variable {origin buffer : RemoteBuffer} {accepted : List Bytes} {attempts : List Attempt}
  {outcomes : List FlushOutcome} {batches : List Batch}

theorem afterPut (books : Books origin buffer accepted attempts outcomes batches) {upload : Upload}
    (present : buffer.upload = some upload) (stored : Bool) (chance : UInt64) :
    ∃ ended, Books origin (buffer.afterPut upload stored chance).2 accepted
      (attempts ++ [⟨upload.id, buffer.type, upload.payload, stored⟩])
      (outcomes ++ (buffer.afterPut upload stored chance).1.outcome?.toList) (batches ++ ended) := by
  have front := books.front upload present
  have retry := RemoteBuffer.retry_congr books.identity
  have waits : buffer.pending.take upload.events ≠ [] := by
    have nonempty := front.nonempty
    have within := front.within
    intro empty
    have length := congrArg List.length empty
    simp only [List.length_take, List.length_nil] at length
    omega
  have length : (buffer.pending.take upload.events).length = upload.events :=
    List.length_take_of_le front.within
  cases stored with
  | true =>
      let batch : Batch := ⟨buffer.pending.take upload.events, upload.attempt.toNat - 1, true⟩
      have complete : batch.IsComplete origin.retry := by
        refine ⟨waits, ?_, by simp [batch]⟩
        intro _
        have begun := front.begun
        have bounded := front.bounded
        rw [← retry]
        simp only [batch]
        omega
      have made : buffer.openAttempts ++ [⟨upload.id, buffer.type, upload.payload, true⟩] =
          batch.attempts upload.id buffer.type := by
        simp [RemoteBuffer.openAttempts, present, batch, Batch.attempts, Batch.payload, front.payload]
      refine ⟨[batch], ?_⟩
      have closed := books.conclude present rfl complete made
      simpa [RemoteBuffer.afterPut, Progress.outcome?, FlushOutcome.ofBatch?, Batch.outcome, batch, length] using closed
  | false =>
      by_cases last : buffer.retry.maxAttempts ≤ upload.attempt
      · let batch : Batch := ⟨buffer.pending.take upload.events, upload.attempt.toNat, false⟩
        have exhausted : upload.attempt.toNat = buffer.retry.maxAttempts.toNat := by
          have bounded := front.bounded
          have reached := UInt32.le_iff_toNat_le.mp last
          omega
        have complete : batch.IsComplete origin.retry := by
          refine ⟨waits, by simp [batch], ?_⟩
          intro _
          rw [← retry]
          exact exhausted
        have made : buffer.openAttempts ++ [⟨upload.id, buffer.type, upload.payload, false⟩] =
            batch.attempts upload.id buffer.type := by
          have begun := front.begun
          have count : upload.attempt.toNat = (upload.attempt.toNat - 1) + 1 := by omega
          simp only [RemoteBuffer.openAttempts, present, batch, Batch.attempts, Batch.payload, front.payload,
            Bool.false_eq_true, if_false, List.append_nil]
          rw [← List.replicate_succ', ← count]
        refine ⟨[batch], ?_⟩
        have closed := books.conclude present rfl complete made
        simpa [RemoteBuffer.afterPut, RetryPolicy.afterFailure, last, Progress.outcome?, FlushOutcome.ofBatch?,
          Batch.outcome, batch, length] using closed
      · have left : upload.attempt.toNat < buffer.retry.maxAttempts.toNat := by
          rw [UInt32.le_iff_toNat_le] at last
          omega
        refine ⟨[], ?_⟩
        have again := books.retry present left
        simpa [RemoteBuffer.afterPut, RetryPolicy.afterFailure, last, Progress.outcome?] using again

end Books

end KeyedLog
