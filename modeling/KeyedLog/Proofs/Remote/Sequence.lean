import KeyedLog.Proofs.Flush.Promises

/-!
Buffers that take over from one another. A buffer in which nothing waits shows nothing, so the calls of the store for
several buffers, of which only the last has anything left, are those for one buffer after the other.
-/

namespace KeyedLog

def Notice.attemptAmong? (targets : List TargetId) : Notice → Option Attempt
  | attempted target attempt => if target ∈ targets then some attempt else none
  | ended .. => none

def attemptsAmong (targets : List TargetId) (log : List Notice) : List Attempt :=
  log.filterMap (Notice.attemptAmong? targets)

theorem attemptsAmong_append (targets : List TargetId) (first second : List Notice) :
    attemptsAmong targets (first ++ second) = attemptsAmong targets first ++ attemptsAmong targets second := by
  simp [attemptsAmong]

theorem attemptsAmong_concat {targets : List TargetId} {log : List Notice}
    (silent : ∀ target ∈ targets, attemptsOf target log = []) (last : TargetId) :
    attemptsAmong (targets ++ [last]) log = attemptsOf last log := by
  refine List.filterMap_congr fun notice member => ?_
  cases notice with
  | ended => rfl
  | attempted target attempt =>
      have other : target ∉ targets := by
        intro among
        have none := List.filterMap_eq_nil_iff.mp (silent target among) _ member
        simp [Notice.attempt?] at none
      simp [Notice.attemptAmong?, Notice.attempt?, other]

theorem attemptsAmong_goOn {targets : List TargetId} {log shown : List Notice}
    (before : attemptsAmong targets log = targets.flatMap fun target => attemptsOf target log)
    (silent : ∀ target ∈ targets.dropLast, attemptsOf target shown = []) :
    attemptsAmong targets (log ++ shown) = targets.flatMap fun target => attemptsOf target (log ++ shown) := by
  rcases List.eq_nil_or_concat targets with rfl | ⟨front, last, rfl⟩
  · refine List.filterMap_eq_nil_iff.mpr fun notice _ => ?_
    cases notice with
    | attempted => simp [Notice.attemptAmong?]
    | ended => rfl
  · rw [List.concat_eq_append] at before silent ⊢
    rw [List.dropLast_concat] at silent
    have still : (front.flatMap fun target => attemptsOf target (log ++ shown)) =
        front.flatMap fun target => attemptsOf target log :=
      List.flatMap_congr fun target member => by rw [attemptsOf_append, silent target member, List.append_nil]
    rw [attemptsAmong_append, before, attemptsAmong_concat silent last, List.flatMap_append, List.flatMap_append, still,
      List.flatMap_singleton, List.flatMap_singleton, attemptsOf_append, List.append_assoc]

theorem attemptsAmong_unseen (targets : List TargetId) {log : List Notice} {last : TargetId}
    (unseen : ∀ notice ∈ log, notice.target ≠ last) : attemptsAmong (targets ++ [last]) log = attemptsAmong targets log := by
  refine List.filterMap_congr fun notice member => ?_
  cases notice with
  | ended => rfl
  | attempted target attempt =>
      have other : target ≠ last := unseen _ member
      simp [Notice.attemptAmong?, other]

namespace RemoteBuffer

theorem takeTurn_emptied {buffer : RemoteBuffer} (empty : buffer.pending = []) (free : buffer.upload = none) (job : JobId) :
    ∃ after, after.pending = [] ∧ after.upload = none ∧
      (buffer.takeTurn job = (.waiting, after) ∨ ∃ next, buffer.takeTurn job = (.idle next, after)) := by
  simp only [takeTurn, request_upload, request_pending, empty, free, List.isEmpty_nil, if_true]
  split
  · exact ⟨_, (request_pending ..).trans empty, (request_upload ..).trans free, .inl rfl⟩
  · exact ⟨(buffer.request job).pass.2, (request_pending ..).trans empty, (request_upload ..).trans free, .inr ⟨_, rfl⟩⟩

end RemoteBuffer

namespace Uploads

def IsEmptied (uploads : Uploads) (target : TargetId) : Prop :=
  ∀ buffer, uploads.buffers[target]? = some buffer → buffer.pending = [] ∧ buffer.upload = none

variable {uploads : Uploads} {target : TargetId}

instance : Decidable (uploads.IsEmptied target) :=
  decidable_of_iff ((uploads.buffers[target]?).all (fun buffer => buffer.pending.isEmpty && buffer.upload.isNone) = true)
    (by simp [IsEmptied, Option.all_eq_true])

theorem call?_emptied (take : Taking) (job : JobId) (emptied : uploads.IsEmptied target) : uploads.call? take job target = none := by
  unfold call?
  split
  · rfl
  next buffer present =>
    obtain ⟨empty, free⟩ := emptied buffer present
    obtain ⟨after, -, -, turn | ⟨next, turn⟩⟩ := RemoteBuffer.takeTurn_emptied empty free job <;> rw [turn]

theorem attemptsOf_emptied (take : Taking) (job : JobId) (other : TargetId) (emptied : uploads.IsEmptied target) :
    attemptsOf target (uploads.notices take job other) = [] := by
  by_cases same : other = target
  · subst other
    rw [attemptsOf_notices, call?_emptied take job emptied]
    rfl
  · exact (notices_other take job same uploads).1

theorem resume_emptied (take : Taking) (job : JobId) (other : TargetId) (emptied : uploads.IsEmptied target) :
    (resume take job other uploads).2.IsEmptied target := by
  intro after stands
  by_cases same : other = target
  · subst other
    cases present : uploads.buffers[target]? with
    | none =>
        rw [resume_absent take job present, present] at stands
        simp at stands
    | some buffer =>
        obtain ⟨empty, free⟩ := emptied buffer present
        obtain ⟨now, waits, idle, turn⟩ := RemoteBuffer.takeTurn_emptied empty free job
        have kept : (resume take job target uploads).2 = uploads.setBuffer target now := by
          obtain turn | ⟨next, turn⟩ := turn <;> simp only [resume, present, turn]
        rw [kept, uploads.setBuffer_same present] at stands
        obtain rfl := Option.some.inj stands
        exact ⟨waits, idle⟩
  · rw [resume_other take job same] at stands
    exact emptied after stands

end Uploads

namespace Schedule

variable {schedule : UploadSchedule} {target : TargetId}

theorem run_emptied (take : Taking) (activity : Activity) (emptied : schedule.work.IsEmptied target) :
    (schedule.run (Uploads.workerWith take) activity).2.work.IsEmptied target ∧
      attemptsOf target (schedule.notices take activity) = [] := by
  exact run_work_cases take schedule activity ⟨emptied, rfl⟩ fun job other =>
    ⟨Uploads.resume_emptied take job other emptied, Uploads.attemptsOf_emptied take job other emptied⟩

end Schedule

/-- The calls of the store for a batch that is made of the front of what waits, all of which have failed, or none if there
is no such batch. -/
def IsPartial (type : DocumentType) (waiting : List Bytes) (calls : List Attempt) : Prop :=
  calls = [] ∨ ∃ id refusals front, front ≠ [] ∧ front <+: waiting ∧
    calls = List.replicate refusals ⟨id, type, front.flatten, false⟩

/-- What was accepted is in batches that have ended, each with its id, or still waits, and the calls of the store are those
for one batch after the other. -/
structure Tally (type : DocumentType) (retry : RetryPolicy) (accepted : List Bytes) (calls : List Attempt)
    (batches : List (String × Batch)) (waiting : List Bytes) : Prop where
  accepted : accepted = batches.flatMap (·.2.entries) ++ waiting
  calls : ∃ current, calls = batches.flatMap (fun entry => entry.2.attempts entry.1 type) ++ current ∧
    IsPartial type waiting current
  complete : ∀ entry ∈ batches, entry.2.IsComplete retry

namespace Tally

variable {type : DocumentType} {retry : RetryPolicy} {accepted more : List Bytes} {calls further : List Attempt}
  {batches later : List (String × Batch)} {waiting : List Bytes}

theorem nil (type : DocumentType) (retry : RetryPolicy) : Tally type retry [] [] [] [] :=
  ⟨rfl, ⟨[], rfl, .inl rfl⟩, by simp⟩

theorem append (early : Tally type retry accepted calls batches []) (late : Tally type retry more further later waiting) :
    Tally type retry (accepted ++ more) (calls ++ further) (batches ++ later) waiting := by
  obtain ⟨current, made, isPartial⟩ := early.calls
  obtain ⟨open', made', isPartial'⟩ := late.calls
  have none : current = [] := by
    obtain none | ⟨id, refusals, front, some, within, -⟩ := isPartial
    · exact none
    · exact absurd (List.prefix_nil.mp within) some
  refine ⟨?_, ⟨open', ?_, isPartial'⟩, ?_⟩
  · rw [early.accepted, late.accepted, List.append_nil, List.flatMap_append, List.append_assoc]
  · rw [made, made', none, List.append_nil, List.flatMap_append, List.append_assoc]
  · intro entry member
    rcases List.mem_append.mp member with before | after
    · exact early.complete entry before
    · exact late.complete entry after

theorem stored (tally : Tally type retry accepted calls batches waiting) :
    (calls.filter (·.stored)).map (·.payload) = (batches.filter (·.2.stored)).map (·.2.payload) := by
  obtain ⟨current, made, isPartial⟩ := tally.calls
  have failed : current.filter (·.stored) = [] := by
    obtain none | ⟨id, refusals, front, -, -, same⟩ := isPartial
    · rw [none]
      rfl
    · rw [same]
      simp
  have each : ∀ batches : List (String × Batch),
      ((batches.flatMap fun entry => entry.2.attempts entry.1 type).filter (·.stored)).map (·.payload) =
        (batches.filter (·.2.stored)).map (·.2.payload) := by
    intro batches
    induction batches with
    | nil => rfl
    | cons entry rest ih =>
        rw [List.flatMap_cons, List.filter_append, List.map_append, ih]
        cases kept : entry.2.stored <;> simp [Batch.attempts, kept]
  rw [made, List.filter_append, failed, List.append_nil, each]

end Tally

theorem RemoteBuffer.openAttempts_isPartial {buffer : RemoteBuffer}
    (front : ∀ upload, buffer.upload = some upload → buffer.IsFront upload) :
    IsPartial buffer.type buffer.pending buffer.openAttempts := by
  unfold openAttempts
  cases current : buffer.upload with
  | none => exact .inl rfl
  | some upload =>
      have begun := front upload current
      refine .inr ⟨upload.id, upload.attempt.toNat - 1, buffer.pending.take upload.events, ?_, List.take_prefix .., ?_⟩
      · rw [← List.length_pos_iff, List.length_take_of_le begun.within]
        exact begun.nonempty
      · dsimp only
        rw [begun.payload]

theorem Books.tally {origin buffer : RemoteBuffer} {accepted : List Bytes} {attempts : List Attempt}
    {outcomes : List FlushOutcome} {batches : List Batch} (books : Books origin buffer accepted attempts outcomes batches) :
    ∃ entries, Tally origin.type origin.retry accepted attempts entries buffer.pending := by
  have same : (batches.zipIdx 1).map Prod.fst = batches := List.zipIdx_map_fst ..
  refine ⟨(batches.zipIdx 1).map fun entry => (origin.idOf entry.2, entry.1), ?_, ⟨buffer.openAttempts, ?_, ?_⟩, ?_⟩
  · rw [books.accepted, List.flatMap_map, ← List.flatMap_map Prod.fst, same]
  · rw [books.attempts, List.flatMap_map]
    rfl
  · rw [← RemoteBuffer.type_congr books.identity]
    exact RemoteBuffer.openAttempts_isPartial books.front
  · intro entry member
    obtain ⟨counted, present, rfl⟩ := List.mem_map.mp member
    exact books.complete counted.1 (List.fst_mem_of_mem_zipIdx present)

end KeyedLog
