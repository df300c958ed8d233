import KeyedLog.Proofs.Remote.Ledger
import KeyedLog.Proofs.Remote.Stored

/-!
What is in the store once nothing waits any more and no batch was given up: the documents of each sink hold, in the order
of their numbers, all events that were delivered to it.
-/

namespace KeyedLog

open StorageKey

theorem eventsOf_eq (sink : SinkId) (receipts : List Receipt) :
    eventsOf sink receipts = (receipts.filter (·.sink = sink)).map (·.event) := by
  induction receipts with
  | nil => rfl
  | cons receipt rest ih =>
      by_cases same : receipt.sink = sink
      · simpa [eventsOf, same] using ih
      · simpa [eventsOf, same] using ih

theorem exists_groups {α β : Type} {f : α → β} {items : List α} {parts : List (List β)}
    (same : items.map f = parts.flatten) :
    ∃ groups : List (List α), groups.flatten = items ∧ groups.map (List.map f) = parts := by
  induction parts generalizing items with
  | nil => exact ⟨[], (List.map_eq_nil_iff.mp same).symm, rfl⟩
  | cons part rest ih =>
      rw [List.flatten_cons, List.map_eq_append_iff] at same
      obtain ⟨front, back, rfl, rfl, behind⟩ := same
      obtain ⟨groups, rfl, rest⟩ := ih behind
      exact ⟨front :: groups, rfl, by rw [List.map_cons, rest]⟩

theorem attemptsOf_split {target : TargetId} {log : List Notice} {front : List Attempt} {attempt : Attempt}
    {back : List Attempt} (shape : attemptsOf target log = front ++ attempt :: back) :
    ∃ early late, log = early ++ .attempted target attempt :: late ∧ attemptsOf target late = back := by
  obtain ⟨early, rest, rfl, -, behind⟩ := List.filterMap_eq_append_iff.mp shape
  obtain ⟨skipped, notice, late, rfl, -, this, after⟩ := List.filterMap_eq_cons_iff.mp behind
  refine ⟨early ++ skipped, late, ?_, after⟩
  cases notice with
  | attempted other made =>
      simp only [Notice.attempt?] at this
      split at this
      next same =>
        rw [same, Option.some.inj this, List.append_assoc]
      · simp at this
  | ended other outcome => simp [Notice.attempt?] at this

theorem mem_attemptsOf {target : TargetId} {attempt : Attempt} {log : List Notice} :
    attempt ∈ attemptsOf target log ↔ .attempted target attempt ∈ log := by
  rw [attemptsOf, List.mem_filterMap]
  constructor
  · rintro ⟨notice, member, this⟩
    cases notice with
    | attempted other made =>
        simp only [Notice.attempt?] at this
        split at this
        next same =>
          rw [← same, ← Option.some.inj this]
          exact member
        · simp at this
    | ended other outcome => simp [Notice.attempt?] at this
  · exact fun member => ⟨_, member, by simp [Notice.attempt?]⟩

theorem id_of_mem_attempts {origin : RemoteBuffer} {batches : List Batch} {first : Nat} {attempt : Attempt}
    (member : attempt ∈ (batches.zipIdx first).flatMap fun (batch, number) =>
      batch.attempts (origin.idOf number) origin.type) :
    ∃ number, first ≤ number ∧ number < first + batches.length ∧ attempt.id = origin.idOf number := by
  obtain ⟨⟨batch, number⟩, inside, made⟩ := List.mem_flatMap.mp member
  obtain ⟨low, high, -⟩ := List.mem_zipIdx inside
  refine ⟨number, low, high, ?_⟩
  rcases List.mem_append.mp made with refused | stored
  · rw [(List.mem_replicate.mp refused).2]
  · split at stored
    · rw [List.mem_singleton.mp stored]
    · simp at stored

theorem batchAttempts_split (origin : RemoteBuffer) (early : List Batch) {batch : Batch} (late : List Batch)
    (stored : batch.stored = true) :
    ∃ front back, batchAttempts origin (early ++ batch :: late) =
        front ++ ⟨origin.idOf (early.length + 1), origin.type, batch.payload, true⟩ :: back ∧
      ∀ attempt ∈ back, ∃ number, early.length + 1 < number ∧ attempt.id = origin.idOf number := by
  let number := early.length + 1
  refine ⟨batchAttempts origin early ++ List.replicate batch.refusals ⟨origin.idOf number, origin.type, batch.payload, false⟩,
    (late.zipIdx (1 + early.length + 1)).flatMap fun (batch, number) => batch.attempts (origin.idOf number) origin.type, ?_, ?_⟩
  · simp only [batchAttempts, List.zipIdx_append, List.zipIdx_cons, List.flatMap_append, List.flatMap_cons, Batch.attempts,
      stored, if_true, List.append_assoc, List.singleton_append, number, Nat.add_comm 1]
  · intro attempt member
    obtain ⟨number, low, -, id⟩ := id_of_mem_attempts member
    exact ⟨number, by omega, id⟩

theorem Books.attempt_cases {origin buffer : RemoteBuffer} {accepted : List Bytes} {attempts : List Attempt}
    {outcomes : List FlushOutcome} {batches : List Batch} (books : Books origin buffer accepted attempts outcomes batches)
    {attempt : Attempt} (member : attempt ∈ attempts) :
    (∃ number, 1 ≤ number ∧ number ≤ batches.length ∧ attempt.id = origin.idOf number) ∨
      ∃ upload, buffer.upload = some upload ∧ attempt.id = origin.idOf (batches.length + 1) := by
  rw [books.attempts] at member
  rcases List.mem_append.mp member with ended | waits
  · obtain ⟨number, low, high, id⟩ := id_of_mem_attempts ended
    exact .inl ⟨number, low, by omega, id⟩
  · cases onWay : buffer.upload with
    | none => simp [RemoteBuffer.openAttempts, onWay] at waits
    | some upload =>
        simp only [RemoteBuffer.openAttempts, onWay] at waits
        have counted := books.counted
        simp only [onWay, Option.isSome_some, if_true] at counted
        refine .inr ⟨upload, rfl, ?_⟩
        rw [(List.mem_replicate.mp waits).2, ← counted, ← RemoteBuffer.idOf_congr books.identity]
        exact (books.front upload onWay).id

theorem Books.idle {origin buffer : RemoteBuffer} {accepted : List Bytes} {attempts : List Attempt}
    {outcomes : List FlushOutcome} {batches : List Batch} (books : Books origin buffer accepted attempts outcomes batches)
    (empty : buffer.pending = []) : buffer.upload = none := by
  cases onWay : buffer.upload with
  | none => rfl
  | some upload =>
      have front := books.front upload onWay
      have within := front.within
      rw [empty] at within
      exact absurd front.nonempty (Nat.not_lt.mpr within)

theorem Books.stored_of_kept {origin buffer : RemoteBuffer} {accepted : List Bytes} {attempts : List Attempt}
    {batches : List Batch} {target : TargetId} {log : List Notice}
    (books : Books origin buffer accepted attempts (outcomesOf target log) batches)
    (kept : ∀ id events, .ended target (.dropped id events) ∉ log) : ∀ batch ∈ batches, batch.stored = true := by
  intro batch member
  by_contra lost
  obtain ⟨number, inside⟩ : ∃ number, (batch, number) ∈ batches.zipIdx 1 := by
    obtain ⟨index, here⟩ := List.mem_iff_getElem?.mp member
    exact ⟨1 + index, List.mk_mem_zipIdx_iff_le_and_getElem?_sub.mpr ⟨Nat.le_add_right .., by simpa using here⟩⟩
  have outcome : batch.outcome (origin.idOf number) ∈ outcomesOf target log := by
    rw [books.outcomes]
    exact List.mem_map.mpr ⟨_, inside, rfl⟩
  obtain ⟨notice, shown, this⟩ := List.mem_filterMap.mp outcome
  cases notice with
  | attempted other attempt => simp [Notice.outcome?] at this
  | ended other ended =>
      simp only [Notice.outcome?] at this
      split at this
      next same =>
        obtain rfl := Option.some.inj this
        rw [same, Batch.outcome, if_neg lost] at shown
        exact kept _ _ shown
      · simp at this

theorem RemoteBuffer.endsIn_idOf {buffer origin : RemoteBuffer} (same : buffer.identity = origin.identity)
    (plain : IsPlain origin.sinkInstance) (number : Nat) :
    EndsIn (buffer.idOf number) (batchName buffer.sinkInstance number) := by
  have instances : buffer.sinkInstance = origin.sinkInstance := congrArg (·.2.2.2.1) same
  rw [idOf, instances]
  exact endsIn_batchId buffer.baseId plain number

namespace World

def BatchIds (world : World) (id : String) (type : DocumentType) : Prop :=
  ∃ buffer ∈ world.uploads.work.buffers, ∃ number, id = buffer.idOf number ∧ type = buffer.type

/-- The store holds what was delivered. -/
structure IsFiled (encode : Event → Bytes) (receipts : List Receipt) (world : World) : Prop where
  filed : ∀ {id : SinkId} {sink : RemoteSink}, world.remote? id = some sink →
    ∃ (buffer : RemoteBuffer) (batches : List (List Receipt)), sink.buffer? world.uploads = some buffer ∧
      batches.flatten = receipts.filter (·.sink = id) ∧ (∀ batch ∈ batches, batch ≠ []) ∧
      ∀ number, world.uploads.work.document? (buffer.idOf (number + 1)) buffer.type =
        batches[number]?.map fun batch => batch.flatMap fun receipt => encode receipt.event
  addressed : ∀ receipt ∈ receipts, world.Serves receipt.sink receipt.type receipt.key
  apart : ∀ {first second : SinkId} {one two : RemoteSink} {here there : RemoteBuffer} {number other : Nat},
    world.remote? first = some one → world.remote? second = some two → one.buffer? world.uploads = some here →
    two.buffer? world.uploads = some there → here.idOf number = there.idOf other → first = second ∧ number = other

namespace Ledger

variable {encode : Event → Bytes} {world : World} {receipts : List Receipt} {log : List Notice}

theorem attempted_id (ledger : world.Ledger encode receipts log) {target : TargetId} {attempt : Attempt}
    (shown : .attempted target attempt ∈ log) :
    ∃ buffer number, world.uploads.work.buffers[target]? = some buffer ∧ attempt.id = buffer.idOf (number + 1) ∧
      EndsIn attempt.id (batchName buffer.sinkInstance (number + 1)) := by
  obtain ⟨origin, accepted, ⟨buffer, batches, present, books⟩, plain⟩ := ledger.hasBooks target (ledger.targets _ shown)
  have named : ∃ number, attempt.id = buffer.idOf (number + 1) := by
    simp only [RemoteBuffer.idOf_congr books.identity]
    rcases books.attempt_cases (mem_attemptsOf.mpr shown) with ⟨number, positive, -, id⟩ | ⟨-, -, id⟩
    · exact ⟨number - 1, by rw [Nat.sub_add_cancel positive]; exact id⟩
    · exact ⟨batches.length, id⟩
  obtain ⟨number, id⟩ := named
  refine ⟨buffer, number, present, id, ?_⟩
  rw [id]
  exact RemoteBuffer.endsIn_idOf books.identity plain _

theorem target_unique (distinct : (world.uploads.work.buffers.map (·.sinkInstance)).Nodup) {first second : TargetId}
    {one two : RemoteBuffer} (here : world.uploads.work.buffers[first]? = some one)
    (there : world.uploads.work.buffers[second]? = some two) (same : one.sinkInstance = two.sinkInstance) :
    first = second := by
  obtain ⟨bound, -⟩ := List.getElem?_eq_some_iff.mp here
  refine (List.getElem?_inj (by simpa using bound) distinct).mp ?_
  rw [List.getElem?_map, List.getElem?_map, here, there, Option.map_some, Option.map_some, same]

theorem document (ledger : world.Ledger encode receipts log)
    (stored : Uploads.Stored world.BatchIds world.uploads.work log)
    (distinct : (world.uploads.work.buffers.map (·.sinkInstance)).Nodup) {target : TargetId} {origin buffer : RemoteBuffer}
    {accepted : List Bytes} {outcomes : List FlushOutcome} {batches : List Batch}
    (present : world.uploads.work.buffers[target]? = some buffer) (plain : IsPlain origin.sinkInstance)
    (books : Books origin buffer accepted (attemptsOf target log) outcomes batches) (empty : buffer.pending = [])
    (all : ∀ batch ∈ batches, batch.stored = true) (number : Nat) :
    world.uploads.work.document? (buffer.idOf (number + 1)) buffer.type = batches[number]?.map Batch.payload := by
  have named := RemoteBuffer.endsIn_idOf books.identity plain
  have known : world.BatchIds (buffer.idOf (number + 1)) buffer.type :=
    ⟨buffer, List.mem_of_getElem? present, number + 1, rfl, rfl⟩
  have attempts : attemptsOf target log = batchAttempts origin batches := by
    rw [books.attempts, RemoteBuffer.openAttempts, books.idle empty, List.append_nil]
  have own : ∀ other attempt, .attempted other attempt ∈ log → ∀ number,
      EndsIn attempt.id (batchName buffer.sinkInstance number) → other = target ∧ attempt.id = buffer.idOf number := by
    intro other attempt shown number ends
    obtain ⟨found, count, stands, id, last⟩ := ledger.attempted_id shown
    obtain ⟨same, numbers⟩ := batchName_injective (last.unique ends)
    obtain rfl := target_unique distinct stands present same
    obtain rfl := Option.some.inj (present.symm.trans stands)
    exact ⟨rfl, by rw [id, numbers]⟩
  -- The batch of the number was stored by its last call, and the calls behind it name later ids. If there is no such
  -- batch, no call has named its id.
  cases here : batches[number]? with
  | some batch =>
      obtain ⟨bound, found⟩ := List.getElem?_eq_some_iff.mp here
      have shape : batches = batches.take number ++ batch :: batches.drop (number + 1) := by
        rw [← found, List.getElem_cons_drop, List.take_append_drop]
      have length : (batches.take number).length = number := List.length_take_of_le (Nat.le_of_lt bound)
      obtain ⟨front, back, split, later⟩ := batchAttempts_split origin (batches.take number)
        (batches.drop (number + 1)) (all batch (List.mem_of_getElem? here))
      rw [← shape, ← attempts, length] at split
      rw [length] at later
      obtain ⟨early, late, log, behind⟩ := attemptsOf_split split
      have id : buffer.idOf (number + 1) = origin.idOf (number + 1) := RemoteBuffer.idOf_congr books.identity _
      have type := RemoteBuffer.type_congr books.identity
      rw [id, type] at known ⊢
      refine stored.stored log known rfl (by rw [← id]; exact named (number + 1)) ?_
      intro other attempt member ends
      obtain ⟨rfl, same⟩ := own other attempt (by rw [log]; simp [member]) _ ends
      obtain ⟨count, greater, other⟩ := later attempt (by rw [← behind]; exact mem_attemptsOf.mpr member)
      rw [other, id] at same
      exact absurd (batchId_injective same) (Nat.ne_of_gt greater)
  | none =>
      refine stored.absent known (named (number + 1)) ?_
      intro other attempt shown ends
      obtain ⟨rfl, same⟩ := own other attempt shown _ ends
      have member := mem_attemptsOf.mpr shown
      rw [attempts] at member
      obtain ⟨count, -, bound, id⟩ := id_of_mem_attempts member
      rw [id, RemoteBuffer.idOf_congr books.identity] at same
      have beyond := List.getElem?_eq_none_iff.mp here
      have equal : count = number + 1 := batchId_injective same
      omega

theorem filed (ledger : world.Ledger encode receipts log)
    (stored : Uploads.Stored world.BatchIds world.uploads.work log)
    (empty : ∀ buffer ∈ world.uploads.work.buffers, buffer.pending = [])
    (kept : ∀ target id events, .ended target (.dropped id events) ∉ log)
    (distinct : (world.uploads.work.buffers.map (·.sinkInstance)).Nodup) : world.IsFiled encode receipts where
  filed := by
    intro id sink remote
    obtain ⟨-, origin, ⟨buffer, batches, present, books⟩, plain⟩ := ledger.books remote
    have inside := List.mem_of_getElem? present
    have nothing := empty buffer inside
    have all := books.stored_of_kept (kept sink.buffer)
    have cut : (receipts.filter (·.sink = id)).map (fun receipt => encode receipt.event) =
        (batches.map Batch.entries).flatten := by
      have accepted := books.accepted
      rw [nothing, List.append_nil, eventsOf_eq, List.map_map] at accepted
      rw [← List.flatMap_def]
      exact accepted
    obtain ⟨groups, flat, entries⟩ := exists_groups cut
    refine ⟨buffer, groups, present, flat, ?_, ?_⟩
    -- A group without receipts would be a batch without entries.
    · rintro _ member rfl
      have inside : ([] : List Bytes) ∈ batches.map Batch.entries := by
        rw [← entries]
        exact List.mem_map.mpr ⟨[], member, rfl⟩
      obtain ⟨batch, ended, none⟩ := List.mem_map.mp inside
      exact (books.complete batch ended).nonempty none
    · intro number
      have document := ledger.document stored distinct present plain books nothing all number
      have same : batches[number]?.map Batch.entries = groups[number]?.map (List.map fun receipt => encode receipt.event) := by
        rw [← List.getElem?_map, ← List.getElem?_map, entries]
      rw [document]
      cases group : groups[number]? with
      | none =>
          rw [group, Option.map_none, Option.map_eq_none_iff] at same
          rw [same]
          rfl
      | some receipts =>
          rw [group, Option.map_some, Option.map_eq_some_iff] at same
          obtain ⟨batch, here, entries⟩ := same
          rw [here, Option.map_some, Option.map_some, Batch.payload, entries, List.flatMap_def]
  addressed := ledger.addressed
  apart := by
    intro one two sink other here there number count atOne atTwo found stands same
    obtain ⟨-, origin, ⟨buffer, batches, present, books⟩, plain⟩ := ledger.books atOne
    obtain ⟨-, source, ⟨second, ended, present', books'⟩, plain'⟩ := ledger.books atTwo
    obtain rfl := Option.some.inj (present.symm.trans found)
    obtain rfl := Option.some.inj (present'.symm.trans stands)
    have first := RemoteBuffer.endsIn_idOf books.identity plain number
    have last := RemoteBuffer.endsIn_idOf books'.identity plain' count
    rw [same] at first
    obtain ⟨instances, numbers⟩ := batchName_injective (first.unique last)
    exact ⟨ledger.single atOne atTwo (target_unique distinct present present' instances), numbers⟩

end Ledger

end World

end KeyedLog
