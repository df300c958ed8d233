import KeyedLog.Proofs.Flush.Promises
import KeyedLog.Proofs.Store.Documents
import KeyedLog.Proofs.World

/-!
What all remote sinks of a world owe together. Every sink has a buffer of its own whose books agree with the events that
were delivered to the sink, and what waits in the buffer of a sink that has stopped is going to be flushed.
-/

namespace KeyedLog

/-- An event that a remote router has delivered. -/
structure Receipt where
  type : DocumentType
  key : String
  sink : SinkId
  event : Event
  deriving DecidableEq, Repr

def eventsOf (sink : SinkId) (receipts : List Receipt) : List Event :=
  receipts.filterMap fun receipt => if receipt.sink = sink then some receipt.event else none

theorem eventsOf_append (sink : SinkId) (first second : List Receipt) :
    eventsOf sink (first ++ second) = eventsOf sink first ++ eventsOf sink second := by
  simp [eventsOf]

theorem eventsOf_other {sink : SinkId} {receipt : Receipt} (different : receipt.sink ≠ sink) : eventsOf sink [receipt] = [] := by
  simp [eventsOf, different]

theorem eventsOf_same (receipt : Receipt) : eventsOf receipt.sink [receipt] = [receipt.event] := by
  simp [eventsOf]

theorem Schedule.Orderly.accept {schedule : UploadSchedule} {target : TargetId} {buffer : RemoteBuffer} (orderly : schedule.Orderly)
    (found : schedule.work.buffers[target]? = some buffer) (bytes : Bytes) :
    Schedule.Orderly { schedule with
      work := { schedule.work with buffers := schedule.work.buffers.set target (buffer.accept bytes) } } := by
  have old := List.mem_of_getElem? found
  refine ⟨orderly.single, orderly.accepted, orderly.direct, ?_, ?_⟩
  · intro other member
    rcases List.mem_or_eq_of_mem_set member with kept | rfl
    · exact orderly.turns other kept
    · exact orderly.turns buffer old
  · intro other member
    rcases List.mem_or_eq_of_mem_set member with kept | rfl
    · exact orderly.busy other kept
    · exact orderly.busy buffer old

theorem RemoteSink.write_accepts {sink : RemoteSink} {schedule : UploadSchedule} {buffer : RemoteBuffer}
    (running : sink.stopped = false) (found : schedule.work.buffers[sink.buffer]? = some buffer) (event : Event) :
    (sink.write event schedule).2 = { schedule with
      work := { schedule.work with
        buffers := schedule.work.buffers.set sink.buffer (buffer.accept (sink.encode event)) } } := by
  simp only [RemoteSink.write, running, Bool.false_eq_true, if_false, RemoteSink.modifyBuffer]
  rw [List.modify_eq_set_getElem?, found]
  rfl

namespace World

def remote? (world : World) (id : SinkId) : Option RemoteSink :=
  match world.sinks[id]? with
  | some (.remote sink) => some sink
  | _ => none

def Serves (world : World) (id : SinkId) (type : DocumentType) (key : String) : Prop :=
  ∃ sink buffer, world.remote? id = some sink ∧ sink.buffer? world.uploads = some buffer ∧ buffer.type = type ∧
    StorageKey.base key = .ok buffer.baseId

structure Ledger (encode : Event → Bytes) (world : World) (receipts : List Receipt) (log : List Notice) : Prop where
  orderly : world.uploads.Orderly
  owned : ∀ target, target < world.uploads.work.buffers.length →
    ∃ id sink, world.remote? id = some sink ∧ sink.buffer = target
  single : ∀ {first second : SinkId} {one two : RemoteSink}, world.remote? first = some one →
    world.remote? second = some two → one.buffer = two.buffer → first = second
  books : ∀ {id : SinkId} {sink : RemoteSink}, world.remote? id = some sink → sink.encode = encode ∧
    ∃ origin, world.uploads.work.Balanced sink.buffer origin ((eventsOf id receipts).map encode) log ∧
      StorageKey.IsPlain origin.sinkInstance
  promised : ∀ {id : SinkId} {sink : RemoteSink}, world.remote? id = some sink → sink.stopped = true →
    world.uploads.Promises sink.buffer
  targets : ∀ notice ∈ log, notice.target < world.uploads.work.buffers.length
  addressed : ∀ receipt ∈ receipts, world.Serves receipt.sink receipt.type receipt.key

/-- Sinks may be added, written to and stopped. -/
structure Extends (before after : World) : Prop where
  length : before.sinks.length ≤ after.sinks.length
  remotes : ∀ {id : SinkId} {sink : RemoteSink}, before.remote? id = some sink →
    ∃ other, after.remote? id = some other ∧ other.buffer = sink.buffer
  others : ∀ {id : SinkId}, id < before.sinks.length → before.remote? id = none → after.remote? id = none
  identities : ∃ more, after.uploads.work.buffers.map RemoteBuffer.identity =
    before.uploads.work.buffers.map RemoteBuffer.identity ++ more

variable {encode : Event → Bytes} {world before after : World} {receipts : List Receipt} {log shown : List Notice}
  {id : SinkId} {sink : RemoteSink}

theorem remote?_eq : world.remote? id = some sink ↔ world.sinks[id]? = some (.remote sink) := by
  unfold remote?
  split
  next other present => simp [present]
  next absent =>
    constructor
    · simp
    · intro present
      exact absurd present (absent sink)

theorem remote?_congr (same : after.sinks[id]? = before.sinks[id]?) : after.remote? id = before.remote? id := by
  rw [remote?, remote?, same]

theorem lt_of_remote? (present : world.remote? id = some sink) : id < world.sinks.length := by
  obtain ⟨bound, -⟩ := List.getElem?_eq_some_iff.mp (remote?_eq.mp present)
  exact bound

theorem Extends.refl (world : World) : world.Extends world :=
  ⟨Nat.le_refl _, fun present => ⟨_, present, rfl⟩, fun _ absent => absent, [], (List.append_nil _).symm⟩

theorem Extends.trans {first second third : World} (one : first.Extends second) (two : second.Extends third) :
    first.Extends third := by
  refine ⟨Nat.le_trans one.length two.length, ?_, ?_, ?_⟩
  · intro id sink present
    obtain ⟨other, there, same⟩ := one.remotes present
    obtain ⟨last, stands, still⟩ := two.remotes there
    exact ⟨last, stands, still.trans same⟩
  · intro id bound absent
    exact two.others (Nat.lt_of_lt_of_le bound one.length) (one.others bound absent)
  · obtain ⟨more, early⟩ := one.identities
    obtain ⟨further, late⟩ := two.identities
    exact ⟨more ++ further, by rw [late, early, List.append_assoc]⟩

theorem extends_of_same (length : before.sinks.length ≤ after.sinks.length)
    (remotes : ∀ id, after.remote? id = before.remote? id)
    (identities : after.uploads.work.buffers.map RemoteBuffer.identity =
      before.uploads.work.buffers.map RemoteBuffer.identity) : before.Extends after :=
  ⟨length, fun {id _} present => ⟨_, (remotes id).trans present, rfl⟩,
    fun {id} _ absent => (remotes id).trans absent, [], by rw [identities, List.append_nil]⟩

theorem Extends.serves (grows : before.Extends after) {type : DocumentType} {key : String}
    (serves : before.Serves id type key) : after.Serves id type key := by
  obtain ⟨sink, buffer, present, found, kind, base⟩ := serves
  obtain ⟨other, there, same⟩ := grows.remotes present
  obtain ⟨more, identities⟩ := grows.identities
  have before : (before.uploads.work.buffers.map RemoteBuffer.identity)[sink.buffer]? = some buffer.identity := by
    rw [List.getElem?_map]
    exact congrArg (Option.map RemoteBuffer.identity) found
  have after : (after.uploads.work.buffers.map RemoteBuffer.identity)[sink.buffer]? = some buffer.identity := by
    rw [identities, List.getElem?_append_left (List.getElem?_eq_some_iff.mp before).1]
    exact before
  rw [List.getElem?_map, Option.map_eq_some_iff] at after
  obtain ⟨now, stands, identity⟩ := after
  refine ⟨other, now, there, ?_, ?_, ?_⟩
  · rw [RemoteSink.buffer?, same]
    exact stands
  · exact (RemoteBuffer.type_congr identity).trans kind
  · have bases : now.baseId = buffer.baseId := congrArg (·.2.1) identity
    rw [bases]
    exact base

namespace Ledger

theorem present (ledger : world.Ledger encode receipts log) (remote : world.remote? id = some sink) :
    ∃ buffer, world.uploads.work.buffers[sink.buffer]? = some buffer := by
  obtain ⟨-, origin, ⟨buffer, -, found, -⟩, -⟩ := ledger.books remote
  exact ⟨buffer, found⟩

theorem bound (ledger : world.Ledger encode receipts log) (remote : world.remote? id = some sink) :
    sink.buffer < world.uploads.work.buffers.length := by
  obtain ⟨buffer, found⟩ := ledger.present remote
  exact (List.getElem?_eq_some_iff.mp found).1

theorem hasBooks (ledger : world.Ledger encode receipts log) (target : TargetId)
    (inside : target < world.uploads.work.buffers.length) :
    ∃ origin accepted, world.uploads.work.Balanced target origin accepted log ∧
      StorageKey.IsPlain origin.sinkInstance := by
  obtain ⟨id, sink, remote, rfl⟩ := ledger.owned target inside
  obtain ⟨-, origin, balanced, plain⟩ := ledger.books remote
  exact ⟨origin, _, balanced, plain⟩

theorem proceed (ledger : before.Ledger encode receipts log) (continues : before.uploads.Continues after.uploads shown)
    (grows : before.Extends after)
    (remotes : ∀ {id : SinkId} {other : RemoteSink}, after.remote? id = some other →
      ∃ sink, before.remote? id = some sink ∧ other.buffer = sink.buffer ∧ other.encode = sink.encode ∧
        (other.stopped = true → sink.stopped = true ∨ after.uploads.Promises sink.buffer)) :
    after.Ledger encode receipts (log ++ shown) := by
  constructor
  case orderly =>
    exact continues.orderly ledger.orderly
  case owned =>
    intro target inside
    rw [continues.length] at inside
    obtain ⟨id, sink, remote, same⟩ := ledger.owned target inside
    obtain ⟨other, there, still⟩ := grows.remotes remote
    exact ⟨id, other, there, still.trans same⟩
  case single =>
    intro first second one two here there same
    obtain ⟨early, wasHere, oneSame, -, -⟩ := remotes here
    obtain ⟨late, wasThere, twoSame, -, -⟩ := remotes there
    exact ledger.single wasHere wasThere (oneSame.symm.trans (same.trans twoSame))
  case books =>
    intro id other here
    obtain ⟨sink, wasHere, buffer, encoder, -⟩ := remotes here
    obtain ⟨same, origin, balanced, plain⟩ := ledger.books wasHere
    rw [buffer]
    exact ⟨encoder.trans same, origin, continues.balanced balanced, plain⟩
  case promised =>
    intro id other here stopped
    obtain ⟨sink, wasHere, buffer, -, before⟩ := remotes here
    rw [buffer]
    rcases before stopped with still | promises
    · exact continues.promises ledger.orderly _ (ledger.promised wasHere still)
    · exact promises
  case targets =>
    intro notice member
    rw [continues.length]
    rcases List.mem_append.mp member with old | new
    · exact ledger.targets notice old
    · exact continues.targets notice new
  case addressed =>
    intro receipt member
    exact grows.serves (ledger.addressed receipt member)

theorem continues (ledger : before.Ledger encode receipts log) (continues : before.uploads.Continues after.uploads shown)
    (length : before.sinks.length ≤ after.sinks.length) (remotes : ∀ id, after.remote? id = before.remote? id) :
    after.Ledger encode receipts (log ++ shown) := by
  refine ledger.proceed continues (extends_of_same length remotes continues.identities) ?_
  intro id other here
  rw [remotes] at here
  exact ⟨other, here, rfl, rfl, .inl⟩

theorem write (ledger : world.Ledger encode receipts log) (remote : world.remote? id = some sink)
    (running : sink.stopped = false) {receipt : Receipt} (here : receipt.sink = id)
    (serves : world.Serves id receipt.type receipt.key) :
    World.Ledger encode { world with uploads := (sink.write receipt.event world.uploads).2 } (receipts ++ [receipt]) log ∧
      world.Extends { world with uploads := (sink.write receipt.event world.uploads).2 } := by
  obtain ⟨encoder, origin, ⟨buffer, batches, found, books⟩, plain⟩ := ledger.books remote
  obtain ⟨inside, -⟩ := List.getElem?_eq_some_iff.mp found
  have written := RemoteSink.write_accepts running found receipt.event
  rw [encoder] at written
  rw [written]
  have grows : world.Extends { world with uploads := { world.uploads with
      work := { world.uploads.work with
        buffers := world.uploads.work.buffers.set sink.buffer (buffer.accept (encode receipt.event)) } } } :=
    extends_of_same (Nat.le_refl _) (fun _ => rfl) (RemoteBuffer.identities_set found rfl)
  refine ⟨?_, grows⟩
  constructor
  case orderly => exact ledger.orderly.accept found (encode receipt.event)
  case owned =>
    intro target bound
    rw [List.length_set] at bound
    exact ledger.owned target bound
  case single => exact ledger.single
  case books =>
    intro other some present
    by_cases same : other = id
    · subst other
      obtain rfl := Option.some.inj (remote.symm.trans present)
      refine ⟨encoder, origin, ⟨buffer.accept (encode receipt.event), batches, List.getElem?_set_self inside, ?_⟩, plain⟩
      rw [eventsOf_append, ← here, eventsOf_same, List.map_append, here]
      exact books.accept (encode receipt.event)
    · obtain ⟨encoders, first, ⟨kept, ended, stands, balanced⟩, named⟩ := ledger.books present
      have apart : sink.buffer ≠ some.buffer := fun shared => same (ledger.single present remote shared.symm)
      refine ⟨encoders, first, ⟨kept, ended, ?_, ?_⟩, named⟩
      · rw [List.getElem?_set_ne apart]
        exact stands
      · rw [eventsOf_append, eventsOf_other (by rw [here]; exact Ne.symm same), List.append_nil]
        exact balanced
  case promised =>
    intro other some present stopped
    have apart : sink.buffer ≠ some.buffer := by
      intro shared
      obtain rfl := ledger.single present remote shared.symm
      obtain rfl := Option.some.inj (remote.symm.trans present)
      rw [running] at stopped
      exact Bool.false_ne_true stopped
    intro kept stands
    rw [List.getElem?_set_ne apart] at stands
    exact ledger.promised present stopped kept stands
  case targets =>
    intro notice member
    rw [List.length_set]
    exact ledger.targets notice member
  case addressed =>
    intro other member
    rcases List.mem_append.mp member with old | new
    · exact grows.serves (ledger.addressed other old)
    · obtain rfl := List.mem_singleton.mp new
      rw [here]
      exact grows.serves serves

end Ledger

end World

namespace RemoteSink

variable {sink : RemoteSink} {schedule : UploadSchedule}

theorem stop_again (stopped : sink.stopped = true) (schedule : UploadSchedule) : sink.stop schedule = (sink, schedule) := by
  rw [stop, if_pos stopped]

theorem flush_accepts (sink : RemoteSink) (schedule : UploadSchedule) :
    schedule.executor.Accepts (sink.flush schedule).executor :=
  schedule.executor.submit_accepts sink.buffer

theorem flush_continues (sink : RemoteSink) (schedule : UploadSchedule) : schedule.Continues (sink.flush schedule) [] :=
  Schedule.continues_of_accepts rfl (sink.flush_accepts schedule) fun _ member => .inl member

theorem flush_promises (orderly : schedule.Orderly) (accepting : schedule.executor.accepting = true) (sink : RemoteSink) :
    (sink.flush schedule).Promises sink.buffer := by
  have jobs : (sink.flush schedule).executor.jobs = schedule.executor.jobs ++ [(schedule.executor.nextJob, sink.buffer)] := by
    simp [flush, Schedule.submit, Schedule.wake, Executor.submit, accepting]
  intro buffer present
  refine .inr ⟨schedule.executor.nextJob, by simp [jobs], ?_⟩
  -- The new flush cannot have its turn already.
  intro upload _ first
  have waits := orderly.turns buffer (List.mem_of_getElem? present) _ (List.mem_of_head? first)
  exact absurd waits (Nat.lt_irrefl _)

theorem stop_first (running : sink.stopped = false) (schedule : UploadSchedule) :
    (sink.stop schedule).1 = { sink with stopped := true } ∧ schedule.Continues (sink.stop schedule).2 [] ∧
      (sink.stop schedule).2.executor.accepting = schedule.executor.accepting ∧
      (schedule.Orderly → schedule.executor.accepting = true → (sink.stop schedule).2.Promises sink.buffer) := by
  have left : schedule.Continues { schedule with executor := schedule.executor.deregister sink.registration } [] :=
    Schedule.continues_of_accepts rfl (Executor.accepts_of_same rfl (Nat.le_refl _)) fun _ member => .inl member
  simp only [stop, running, Bool.false_eq_true, if_false]
  by_cases none : sink.pending { schedule with executor := schedule.executor.deregister sink.registration } = 0
  · simp only [none, if_true]
    refine ⟨trivial, left, rfl, ?_⟩
    intro _ _ buffer present
    have empty : buffer.pending.length = 0 := by simpa [pending, buffer?, present] using none
    exact .inl (List.length_eq_zero_iff.mp empty)
  · simp only [none, if_false]
    refine ⟨trivial, left.trans (sink.flush_continues _), Executor.submit_accepting .., ?_⟩
    intro orderly accepting
    exact flush_promises (left.orderly orderly) accepting sink

end RemoteSink

namespace World

variable {encode : Event → Bytes} {world : World} {receipts : List Receipt} {log : List Notice} {id : SinkId}
  {sink : RemoteSink}

theorem setSink_remote? (world : World) {old : Sink} (present : world.sinks[id]? = some old) (new : Sink) (other : SinkId) :
    (world.setSink id new).remote? other = if other = id then
      match new with
      | .remote sink => some sink
      | _ => none
    else world.remote? other := by
  by_cases same : other = id
  · subst other
    rw [remote?, world.setSink_same present, if_pos rfl]
    cases new <;> rfl
  · rw [if_neg same]
    exact remote?_congr (world.setSink_other (Ne.symm same) new)

theorem stop_remote? (world : World) (id other : SinkId) :
    (world.stop id).remote? other =
      if other = id then (world.remote? id).map ({ · with stopped := true }) else world.remote? other := by
  cases present : world.sinks[id]? with
  | none =>
      simp only [stop, remote?, present]
      by_cases same : other = id
      · subst other
        simp [present]
      · simp [same]
  | some sink =>
      cases sink with
      | remote sink =>
          simp only [stop, present]
          refine (setSink_remote? _ present _ other).trans ?_
          simp only [remote?, present, Option.map_some]
          by_cases running : sink.stopped = true
          · rw [RemoteSink.stop_again running]
            have same : sink = { sink with stopped := true } := by rw [← running]
            rw [← same]
          · obtain ⟨stopped, -⟩ := RemoteSink.stop_first (by simpa using running) world.uploads
            rw [stopped]
      | _ =>
          simp only [stop, present]
          refine (setSink_remote? _ present _ other).trans ?_
          simp [remote?, present]

theorem stop_length (world : World) (id : SinkId) : (world.stop id).sinks.length = world.sinks.length := by
  unfold stop
  split
  · rfl
  · exact List.length_set
  · exact List.length_set
  · exact List.length_set
  · exact List.length_set
  · exact List.length_set

theorem stop_uploads (world : World) (id : SinkId) :
    (world.stop id).uploads = world.uploads ∨
      ∃ sink, world.remote? id = some sink ∧ sink.stopped = false ∧
        (world.stop id).uploads = (sink.stop world.uploads).2 := by
  unfold stop
  split
  · exact .inl rfl
  · exact .inl rfl
  · exact .inl rfl
  · exact .inl rfl
  next sink present =>
    by_cases running : sink.stopped = true
    · left
      rw [RemoteSink.stop_again running]
      rfl
    · exact .inr ⟨sink, remote?_eq.mpr present, by simpa using running, rfl⟩
  · exact .inl rfl

theorem stop_continues (world : World) (id : SinkId) : world.uploads.Continues (world.stop id).uploads [] := by
  rcases world.stop_uploads id with same | ⟨sink, -, running, uploads⟩
  · rw [same]
    exact Schedule.continues_of_accepts rfl (Executor.accepts_of_same rfl (Nat.le_refl _)) fun _ member => .inl member
  · rw [uploads]
    exact (RemoteSink.stop_first running world.uploads).2.1

theorem stop_accepting (world : World) (id : SinkId) :
    (world.stop id).executor.accepting = world.executor.accepting := by
  unfold executor
  rcases world.stop_uploads id with same | ⟨sink, -, running, uploads⟩
  · rw [same]
  · rw [uploads]
    exact (RemoteSink.stop_first running world.uploads).2.2.1

theorem stop_extends (world : World) (id : SinkId) : world.Extends (world.stop id) := by
  refine ⟨Nat.le_of_eq (world.stop_length id).symm, ?_, ?_, [], ?_⟩
  · intro other sink present
    rw [stop_remote?]
    by_cases same : other = id
    · subst other
      exact ⟨{ sink with stopped := true }, by rw [if_pos rfl, present, Option.map_some], rfl⟩
    · exact ⟨sink, by rw [if_neg same, present], rfl⟩
  · intro other _ absent
    rw [stop_remote?]
    by_cases same : other = id
    · subst other
      rw [if_pos rfl, absent, Option.map_none]
    · rw [if_neg same, absent]
  · rw [(world.stop_continues id).identities, List.append_nil]

theorem Ledger.stop (ledger : world.Ledger encode receipts log) (accepting : world.executor.accepting = true) (id : SinkId) :
    (world.stop id).Ledger encode receipts log := by
  have kept := ledger.proceed (world.stop_continues id) (world.stop_extends id) ?_
  · rw [List.append_nil] at kept
    exact kept
  · intro other now present
    rw [stop_remote?] at present
    by_cases same : other = id
    · subst other
      rw [if_pos rfl] at present
      obtain ⟨sink, before, rfl⟩ := Option.map_eq_some_iff.mp present
      refine ⟨sink, before, rfl, rfl, ?_⟩
      intro _
      by_cases stopped : sink.stopped = true
      · exact .inl stopped
      · right
        have running : sink.stopped = false := by simpa using stopped
        have uploads : (world.stop id).uploads = (sink.stop world.uploads).2 := by
          simp only [World.stop, remote?_eq.mp before]
          rfl
        rw [uploads]
        exact (RemoteSink.stop_first running world.uploads).2.2.2 ledger.orderly accepting
    · rw [if_neg same] at present
      exact ⟨now, present, rfl, rfl, .inl⟩

theorem exists_digit_of_mem_toDigits {number : Nat} {c : Char} (member : c ∈ Nat.toDigits 16 number) :
    ∃ digit < 16, c = Nat.digitChar digit := by
  induction number using Nat.strongRecOn with
  | ind number ih =>
      rw [Nat.toDigits_eq_if (by decide)] at member
      split at member
      next small => exact ⟨number, small, List.mem_singleton.mp member⟩
      next large =>
        rcases List.mem_append.mp member with front | last
        · exact ih (number / 16) (by omega) front
        · exact ⟨number % 16, Nat.mod_lt _ (by decide), List.mem_singleton.mp last⟩

theorem isPlain_instanceName (world : World) : StorageKey.IsPlain world.instanceName := by
  have outside : ∀ c, c ≠ '_' → c.isDigit = false → (∀ digit < 16, c ≠ Nat.digitChar digit) →
      c ∉ world.instanceName.toList := by
    intro c other letter hexadecimal member
    simp only [instanceName, String.toList_append, String.toList_ofList, List.mem_append] at member
    rcases member with (decimal | line) | zero | digit
    · rw [Nat.toList_repr] at decimal
      rw [Nat.isDigit_of_mem_toDigits (by decide) (by decide) decimal] at letter
      exact absurd letter (by decide)
    · exact other (by simpa using line)
    · exact hexadecimal 0 (by decide) (List.mem_replicate.mp zero).2
    · obtain ⟨value, small, same⟩ := exists_digit_of_mem_toDigits digit
      exact hexadecimal value small same
  exact ⟨outside '/' (by decide) (by decide) (by decide), outside '\x00' (by decide) (by decide) (by decide)⟩

theorem addSink_remote? (world : World) (sink : Sink) (other : SinkId) :
    (world.addSink sink).2.remote? other = if other = world.sinks.length then
      match sink with
      | .remote sink => some sink
      | _ => none
    else world.remote? other := by
  by_cases new : other = world.sinks.length
  · subst other
    rw [remote?, if_pos rfl]
    simp only [addSink, List.getElem?_concat_length]
    cases sink <;> rfl
  · rw [if_neg new]
    refine remote?_congr ?_
    simp only [addSink]
    rcases Nat.lt_or_gt_of_ne new with old | beyond
    · exact List.getElem?_append_left old
    · rw [List.getElem?_eq_none (Nat.le_of_lt beyond), List.getElem?_eq_none]
      rw [List.length_append]
      exact beyond

theorem remote?_length (world : World) : world.remote? world.sinks.length = none := by
  rw [remote?, List.getElem?_eq_none (Nat.le_refl _)]

structure AddsRemote (before after : World) (sink : RemoteSink) (buffer : RemoteBuffer) : Prop where
  running : sink.stopped = false
  target : sink.buffer = before.uploads.work.buffers.length
  remotes : ∀ other, after.remote? other = if other = before.sinks.length then some sink else before.remote? other
  length : after.sinks.length = before.sinks.length + 1
  buffers : after.uploads.work.buffers = before.uploads.work.buffers ++ [buffer]
  jobs : after.uploads.executor.jobs = before.uploads.executor.jobs
  next : after.uploads.executor.nextJob = before.uploads.executor.nextJob
  direct : after.uploads.direct = before.uploads.direct

theorem addRemote_adds (world : World) (name baseId : String) (type : DocumentType) (retry : RetryPolicy)
    (encode : Event → Bytes) :
    world.AddsRemote (world.addRemote name baseId type retry encode).2
      ⟨encode, world.uploads.work.buffers.length, world.executor.nextRegistration, false⟩
      { name, baseId, type, sinkInstance := world.instanceName, retry } where
  running := rfl
  target := rfl
  remotes := addSink_remote? _ _
  length := List.length_append
  buffers := rfl
  jobs := rfl
  next := rfl
  direct := rfl

namespace AddsRemote

variable {before after : World} {buffer : RemoteBuffer}

theorem old (adds : before.AddsRemote after sink buffer) {id : SinkId} {other : RemoteSink}
    (present : before.remote? id = some other) : after.remote? id = some other := by
  rw [adds.remotes, if_neg (Nat.ne_of_lt (lt_of_remote? present)), present]

theorem new (adds : before.AddsRemote after sink buffer) : after.remote? before.sinks.length = some sink := by
  rw [adds.remotes, if_pos rfl]

theorem old_or_new (adds : before.AddsRemote after sink buffer) {id : SinkId} {other : RemoteSink}
    (present : after.remote? id = some other) :
    before.remote? id = some other ∨ (id = before.sinks.length ∧ other = sink) := by
  rw [adds.remotes] at present
  by_cases same : id = before.sinks.length
  · rw [if_pos same] at present
    exact .inr ⟨same, (Option.some.inj present).symm⟩
  · rw [if_neg same] at present
    exact .inl present

theorem kept (adds : before.AddsRemote after sink buffer) {target : TargetId} {other : RemoteBuffer}
    (stands : before.uploads.work.buffers[target]? = some other) : after.uploads.work.buffers[target]? = some other := by
  rw [adds.buffers, List.getElem?_append_left (List.getElem?_eq_some_iff.mp stands).1, stands]

theorem made (adds : before.AddsRemote after sink buffer) : after.uploads.work.buffers[sink.buffer]? = some buffer := by
  rw [adds.buffers, adds.target, List.getElem?_concat_length]

theorem grows (adds : before.AddsRemote after sink buffer) : before.Extends after := by
  refine ⟨by rw [adds.length]; exact Nat.le_succ _, fun present => ⟨_, adds.old present, rfl⟩, ?_, [buffer.identity], ?_⟩
  · intro id bound absent
    rw [adds.remotes, if_neg (Nat.ne_of_lt bound), absent]
  · rw [adds.buffers, List.map_append]
    rfl

theorem orderly (adds : before.AddsRemote after sink buffer) (orderly : before.uploads.Orderly)
    (idle : buffer.upload = none ∧ buffer.turns = []) : after.uploads.Orderly := by
  refine ⟨by rw [adds.jobs]; exact orderly.single, by rw [adds.jobs, adds.next]; exact orderly.accepted,
    by rw [adds.direct, adds.next]; exact orderly.direct, ?_, ?_⟩
  · rw [adds.buffers, adds.next]
    intro other member
    rcases List.mem_append.mp member with before | last
    · exact orderly.turns other before
    · rw [List.mem_singleton.mp last, idle.2]
      simp
  · rw [adds.buffers]
    intro other member
    rcases List.mem_append.mp member with before | last
    · exact orderly.busy other before
    · rw [List.mem_singleton.mp last]
      exact fun busy => absurd idle.1 busy

theorem unseen (adds : before.AddsRemote after sink buffer)
    (targets : ∀ notice ∈ log, notice.target < before.uploads.work.buffers.length) :
    attemptsOf sink.buffer log = [] ∧ outcomesOf sink.buffer log = [] := by
  have other : ∀ notice ∈ log, notice.target ≠ sink.buffer := by
    intro notice member
    rw [adds.target]
    exact Nat.ne_of_lt (targets notice member)
  constructor
  · refine List.filterMap_eq_nil_iff.mpr ?_
    intro notice member
    cases notice with
    | attempted target attempt => exact if_neg (other _ member)
    | ended target outcome => rfl
  · refine List.filterMap_eq_nil_iff.mpr ?_
    intro notice member
    cases notice with
    | attempted target attempt => rfl
    | ended target outcome => exact if_neg (other _ member)

theorem ledger (adds : before.AddsRemote after sink buffer) (ledger : before.Ledger encode receipts log)
    (encoder : sink.encode = encode) (unused : buffer.upload = none ∧ buffer.pending = [] ∧ buffer.batches = 0)
    (turns : buffer.turns = []) (plain : StorageKey.IsPlain buffer.sinkInstance) :
    after.Ledger encode receipts log := by
  constructor
  case orderly =>
    exact adds.orderly ledger.orderly ⟨unused.1, turns⟩
  case owned =>
    intro target bound
    rw [adds.buffers, List.length_append, List.length_singleton] at bound
    rcases Nat.lt_succ_iff_lt_or_eq.mp bound with before | rfl
    · obtain ⟨id, other, present, same⟩ := ledger.owned target before
      exact ⟨id, other, adds.old present, same⟩
    · exact ⟨_, sink, adds.new, adds.target⟩
  case single =>
    intro first second one two atFirst atSecond same
    rcases adds.old_or_new atFirst with early | ⟨rfl, rfl⟩
    · rcases adds.old_or_new atSecond with late | ⟨rfl, rfl⟩
      · exact ledger.single early late same
      · exact absurd (same.trans adds.target) (Nat.ne_of_lt (ledger.bound early))
    · rcases adds.old_or_new atSecond with late | ⟨rfl, -⟩
      · exact absurd (same.symm.trans adds.target) (Nat.ne_of_lt (ledger.bound late))
      · rfl
  case books =>
    intro id other present
    rcases adds.old_or_new present with early | ⟨rfl, rfl⟩
    · obtain ⟨same, origin, ⟨kept, batches, stands, books⟩, named⟩ := ledger.books early
      exact ⟨same, origin, ⟨kept, batches, adds.kept stands, books⟩, named⟩
    · have none : eventsOf before.sinks.length receipts = [] := by
        refine List.filterMap_eq_nil_iff.mpr ?_
        intro receipt member
        obtain ⟨known, -, there, -⟩ := ledger.addressed receipt member
        exact if_neg (Nat.ne_of_lt (lt_of_remote? there))
      obtain ⟨attempts, outcomes⟩ := adds.unseen ledger.targets
      refine ⟨encoder, buffer, ⟨buffer, [], adds.made, ?_⟩, plain⟩
      rw [none, attempts, outcomes]
      exact Books.fresh unused.1 unused.2.1 unused.2.2
  case promised =>
    intro id other present stopped
    rcases adds.old_or_new present with early | ⟨rfl, rfl⟩
    · obtain ⟨found, was⟩ := ledger.present early
      intro kept stands
      rw [adds.kept was] at stands
      rw [← Option.some.inj stands, adds.jobs]
      exact ledger.promised early stopped found was
    · rw [adds.running] at stopped
      exact absurd stopped Bool.false_ne_true
  case targets =>
    intro notice member
    rw [adds.buffers, List.length_append]
    exact Nat.lt_add_right _ (ledger.targets notice member)
  case addressed =>
    intro receipt member
    exact adds.grows.serves (ledger.addressed receipt member)

end AddsRemote

end World

end KeyedLog
