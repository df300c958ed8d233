import KeyedLog.Proofs.Remote.Delivery
import KeyedLog.Proofs.Store.BatchOrder
import Mathlib.Data.List.Sort

/-!
The objects of a sink as a listing by name shows them. They hold what the sink has accepted in the order in which it was
accepted, as long as no id of the sink has more digits than all ids have.
-/

namespace KeyedLog

/-- Objects that the calls of the store have made, in the order of their ids. -/
structure IsListing (attempts : List Attempt) (objects : List (String × Bytes)) : Prop where
  sorted : objects.Pairwise fun first second => Utf8.encode first.1 < Utf8.encode second.1
  stored : ∀ object ∈ objects, ∃ attempt ∈ attempts, (attempt.id, attempt.payload) = object

def objectsOf (origin : RemoteBuffer) (parts : List (List Bytes)) : List (String × Bytes) :=
  (parts.zipIdx 1).map fun (entries, number) => (origin.idOf number, entries.flatten)

theorem map_snd_objectsOf (origin : RemoteBuffer) (parts : List (List Bytes)) :
    (objectsOf origin parts).map Prod.snd = parts.map List.flatten := by
  rw [objectsOf, List.map_map]
  conv_rhs => rw [← List.zipIdx_map_fst 1 parts, List.map_map]
  rfl

theorem sorted_objectsOf (origin : RemoteBuffer) {parts : List (List Bytes)} (few : parts.length < 1000000) :
    (objectsOf origin parts).Pairwise fun first second => Utf8.encode first.1 < Utf8.encode second.1 := by
  rw [objectsOf, List.pairwise_map, List.pairwise_iff_getElem]
  intro first second one two order
  rw [List.length_zipIdx] at one two
  rw [List.getElem_zipIdx, List.getElem_zipIdx]
  exact StorageKey.batchId_lt _ _ (by omega) (by omega)

theorem IsListing.sublist {attempts : List Attempt} {objects : List (String × Bytes)} (listing : IsListing attempts objects)
    {origin : RemoteBuffer} {parts : List (List Bytes)} (few : parts.length < 1000000)
    (known : ∀ attempt ∈ attempts, (attempt.id, attempt.payload) ∈ objectsOf origin parts) :
    objects.Sublist (objectsOf origin parts) := by
  have unequal : objects.Nodup := by
    refine listing.sorted.imp fun {first second} less same => ?_
    rw [same] at less
    exact List.lt_irrefl _ less
  have subset : objects ⊆ objectsOf origin parts := by
    intro object member
    obtain ⟨attempt, made, rfl⟩ := listing.stored object member
    exact known attempt made
  have asymmetric : Std.Antisymm fun first second : String × Bytes => Utf8.encode first.1 < Utf8.encode second.1 :=
    ⟨fun _ _ less greater => absurd greater (List.lt_asymm less)⟩
  exact List.sublist_of_subperm_of_pairwise (List.subperm_of_subset unequal subset) listing.sorted
    (sorted_objectsOf origin few)

namespace Books

variable {origin buffer : RemoteBuffer} {accepted : List Bytes} {attempts : List Attempt}
  {outcomes : List FlushOutcome} {batches : List Batch}

def parts (batches : List Batch) (buffer : RemoteBuffer) : List (List Bytes) :=
  batches.map Batch.entries ++ (buffer.upload.map fun upload => buffer.pending.take upload.events).toList

theorem length_parts (books : Books origin buffer accepted attempts outcomes batches) :
    (parts batches buffer).length = buffer.batches := by
  rw [books.counted, parts, List.length_append, List.length_map]
  cases buffer.upload <;> rfl

theorem parts_accepted (books : Books origin buffer accepted attempts outcomes batches) :
    (parts batches buffer).flatten <+: accepted := by
  rw [books.accepted, parts, List.flatten_append, List.flatMap_def, List.prefix_append_right_inj]
  cases buffer.upload with
  | none => exact List.nil_prefix
  | some upload => simpa using List.take_prefix upload.events buffer.pending

theorem attempt_known (books : Books origin buffer accepted attempts outcomes batches) :
    ∀ attempt ∈ attempts, (attempt.id, attempt.payload) ∈ objectsOf origin (parts batches buffer) := by
  intro attempt member
  rw [books.attempts] at member
  rw [objectsOf, parts, List.zipIdx_append, List.map_append, List.mem_append]
  rcases List.mem_append.mp member with ended | onWay
  · refine .inl ?_
    obtain ⟨⟨batch, number⟩, counted, call⟩ := List.mem_flatMap.mp ended
    have named : (attempt.id, attempt.payload) = (origin.idOf number, batch.entries.flatten) := by
      rcases List.mem_append.mp call with refused | stored
      · rw [(List.mem_replicate.mp refused).2]
        rfl
      · split at stored
        · rw [List.mem_singleton.mp stored]
          rfl
        · simp at stored
    rw [named, List.zipIdx_map, List.map_map]
    exact List.mem_map.mpr ⟨(batch, number), counted, rfl⟩
  · refine .inr ?_
    unfold RemoteBuffer.openAttempts at onWay
    split at onWay
    · simp at onWay
    next upload present =>
      have front := books.front upload present
      have number : buffer.batches = batches.length + 1 := by simpa [present] using books.counted
      rw [(List.mem_replicate.mp onWay).2, present, List.length_map, Nat.add_comm 1, ← number, front.id, front.payload,
        RemoteBuffer.idOf_congr books.identity]
      exact List.mem_singleton_self _

end Books

/-- The ids of a sink are in the order of their batches except where one has more digits than another and begins with a
smaller number. So as long as no id has more digits than all ids have, every listing of the objects that a sink has made
shows what it has accepted in the order in which it did. -/
theorem listing_keeps_order {origin : RemoteBuffer}
    (new : origin.upload = none ∧ origin.pending = [] ∧ origin.batches = 0)
    (encode : Event → Bytes) (schedule : UploadSchedule) {delivery : Delivery}
    (run : Delivery.Run (Delivery.start origin encode schedule) delivery) :
    (∀ first second, first < second →
      (Utf8.encode (origin.idOf first) < Utf8.encode (origin.idOf second) ↔
        first ≤ second / 10 ^ StorageKey.excess first second)) ∧
    (∀ first second, first < second → second < 1000000 →
      Utf8.encode (origin.idOf first) < Utf8.encode (origin.idOf second)) ∧
    ∃ buffer parts, delivery.sink.buffer? delivery.schedule = some buffer ∧ parts.length = buffer.batches ∧
      parts.flatten <+: delivery.accepted.map encode ∧
      (buffer.batches < 1000000 →
        ∀ objects, IsListing (attemptsOf delivery.sink.buffer delivery.log) objects →
          objects.Sublist (objectsOf origin parts) ∧ (objects.map Prod.snd).Sublist (parts.map List.flatten)) := by
  have balanced := (Delivery.start_balanced new encode schedule).run run
  obtain ⟨buffer, batches, present, books⟩ := balanced.books
  rw [balanced.buffer]
  refine ⟨fun _ _ => StorageKey.batchId_lt_iff _ _, fun _ _ => StorageKey.batchId_lt _ _, buffer,
    Books.parts batches buffer, ?_, books.length_parts, books.parts_accepted, ?_⟩
  · simpa only [RemoteSink.buffer?, balanced.buffer] using present
  · intro few objects listing
    have ordered := listing.sublist (books.length_parts ▸ few) books.attempt_known
    refine ⟨ordered, ?_⟩
    rw [← map_snd_objectsOf origin]
    exact ordered.map Prod.snd

theorem listing_keeps_order_flushed :
    ∃ (origin : RemoteBuffer) (schedule : UploadSchedule) (delivery : Delivery),
      (origin.upload = none ∧ origin.pending = [] ∧ origin.batches = 0) ∧
      Delivery.Run (Delivery.start origin Encoding.line.encode schedule) delivery ∧
      IsListing (attemptsOf delivery.sink.buffer delivery.log)
        [("ws/BATCH_000001", Encoding.line.encode (Event.new 0 .info "first")),
          ("ws/BATCH_000002", Encoding.line.encode (Event.new 1 .info "second"))] ∧
      Utf8.encode (origin.idOf 999998) < Utf8.encode (origin.idOf 999999) ∧
      ∃ buffer, delivery.sink.buffer? delivery.schedule = some buffer ∧ buffer.batches = 2 := by
  let origin : RemoteBuffer :=
    { name := "ws", baseId := "ws", type := .applicationLogs, sinkInstance := "BATCH"
      retry := { maxAttempts := 1, backoff := ⟨10, 10⟩ } }
  let schedule : UploadSchedule :=
    { executor := { interval := 0, limit := 1 }
      work := { files := .empty [], store := { backend := .memory {} } } }
  let first := (Delivery.start origin Encoding.line.encode schedule).write (Event.new 0 .info "first")
  let begun := { first with schedule := (first.schedule.beginDirect first.sink.buffer).2 }
  let stored := begun.run ObjectStore.proceed (.flush 0) []
  let second := stored.write (Event.new 1 .info "second")
  let again := { second with schedule := (second.schedule.beginDirect second.sink.buffer).2 }
  let last := again.run ObjectStore.proceed (.flush 1) []
  have run : Delivery.Run (Delivery.start origin Encoding.line.encode schedule) last :=
    (((((Relation.ReflTransGen.single (.write _ (Event.new 0 .info "first"))).tail
      (.flushNow first)).tail
      (.run begun ObjectStore.proceed [] (.flush 0) [] rfl)).tail
      (.write stored (Event.new 1 .info "second"))).tail
      (.flushNow second)).tail
      (.run again ObjectStore.proceed [] (.flush 1) [] (by decide +kernel))
  have fresh : origin.upload = none ∧ origin.pending = [] ∧ origin.batches = 0 := ⟨rfl, rfl, rfl⟩
  obtain ⟨-, order, buffer, parts, present, -⟩ := listing_keeps_order fresh _ schedule run
  refine ⟨origin, schedule, last, fresh, run, ⟨by decide +kernel, by decide +kernel⟩, order _ _ (by decide) (by decide),
    buffer, present, ?_⟩
  have current : (last.sink.buffer? last.schedule).map (·.batches) = some 2 := by decide +kernel
  rw [present] at current
  exact Option.some_inj.mp current

/-- The ids of a sink are out of order when they begin to have more digits. -/
theorem listing_loses_order :
    Utf8.encode (StorageKey.batchId "ws" "BATCH" 1000000) < Utf8.encode (StorageKey.batchId "ws" "BATCH" 999999) := by
  decide +kernel

end KeyedLog
