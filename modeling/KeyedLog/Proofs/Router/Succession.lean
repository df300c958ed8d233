import KeyedLog.Proofs.Dispatcher
import KeyedLog.Proofs.Registry.Accounts
import KeyedLog.Proofs.Remote.Sequence
import Mathlib.Logic.Relation

/-!
The sinks that a remote router makes for its keys, one after the other. Idle sinks are reaped, and the next event of the
key has another sink made. Whatever else happens, the sink that is registered for a key is the last that was made for it,
and what was delivered for the key is in the books of its sinks, in their order.
-/

namespace KeyedLog

def sinksOf (key : String) (made : List Placement) : List SinkId :=
  (made.filter (·.key == key)).map (·.sink)

def eventsUnder (key : String) (receipts : List Receipt) : List Event :=
  receipts.filterMap fun receipt => if receipt.key = key then some receipt.event else none

theorem RemoteSink.write_buffers {sink : RemoteSink} (running : sink.stopped = false) (event : Event)
    (schedule : UploadSchedule) :
    (sink.write event schedule).2.work.buffers = schedule.work.buffers.modify sink.buffer (·.accept (sink.encode event)) := by
  simp [write, running, modifyBuffer]

namespace World

def targetOf? (world : World) (id : SinkId) : Option TargetId :=
  (world.remote? id).map (·.buffer)

/-- A batch of the sink is on its way: it is taken, and its last attempt is still to come or to end. -/
def isUploading (world : World) (id : SinkId) : Bool :=
  match world.remote? id with
  | none => false
  | some sink => ((sink.buffer? world.uploads).bind (·.upload)).isSome

def IsEmptied (world : World) (id : SinkId) : Prop :=
  ∀ sink, world.remote? id = some sink → world.uploads.work.IsEmptied sink.buffer

structure Preserves (before after : World) (ids : List SinkId) : Prop where
  length : before.sinks.length ≤ after.sinks.length
  targets : before.uploads.work.buffers.length ≤ after.uploads.work.buffers.length
  remotes : ∀ id ∈ ids, ∀ sink, before.remote? id = some sink →
    ∃ other, after.remote? id = some other ∧ other.buffer = sink.buffer ∧ other.encode = sink.encode
  buffers : ∀ id ∈ ids, ∀ sink, before.remote? id = some sink →
    after.uploads.work.buffers[sink.buffer]? = before.uploads.work.buffers[sink.buffer]?

def HasBooks (type : DocumentType) (retry : RetryPolicy) (encode : Event → Bytes) (world : World) (id : SinkId)
    (events : List Event) (log : List Notice) : Prop :=
  ∃ sink origin, world.remote? id = some sink ∧ sink.encode = encode ∧ (origin.type = type ∧ origin.retry = retry) ∧
    world.uploads.work.Balanced sink.buffer origin (events.map encode) log

variable {before after world : World} {ids : List SinkId} {id : SinkId} {sink : RemoteSink}

theorem Preserves.trans {first second third : World} (one : first.Preserves second ids) (two : second.Preserves third ids) :
    first.Preserves third ids := by
  refine ⟨Nat.le_trans one.length two.length, Nat.le_trans one.targets two.targets, ?_, ?_⟩
  · intro id member sink present
    obtain ⟨middle, there, buffer, encode⟩ := one.remotes id member sink present
    obtain ⟨last, stands, buffer', encode'⟩ := two.remotes id member middle there
    exact ⟨last, stands, buffer'.trans buffer, encode'.trans encode⟩
  · intro id member sink present
    obtain ⟨middle, there, buffer, -⟩ := one.remotes id member sink present
    have later := two.buffers id member middle there
    rw [buffer] at later
    exact later.trans (one.buffers id member sink present)

theorem preserves_of_work {uploads : UploadSchedule} (work : uploads.work = world.uploads.work) (ids : List SinkId) :
    world.Preserves { world with uploads } ids := by
  refine ⟨Nat.le_refl _, ?_, fun _ _ sink present => ⟨sink, present, rfl, rfl⟩, ?_⟩
  · exact Nat.le_of_eq (congrArg (·.buffers.length) work).symm
  · exact fun _ _ sink _ => congrArg (·.buffers[sink.buffer]?) work

theorem stop_preserves (world : World) (id : SinkId) (ids : List SinkId) : world.Preserves (world.stop id) ids := by
  have work := (world.stop_keepsWork id).work
  refine ⟨Nat.le_of_eq (world.stop_length id).symm, ?_, ?_, ?_⟩
  · exact Nat.le_of_eq (congrArg (·.buffers.length) work).symm
  · intro other _ sink present
    rw [stop_remote?]
    by_cases same : other = id
    · subst other
      exact ⟨{ sink with stopped := true }, by rw [if_pos rfl, present, Option.map_some], rfl, rfl⟩
    · exact ⟨sink, by rw [if_neg same, present], rfl, rfl⟩
  · exact fun _ _ sink _ => congrArg (·.buffers[sink.buffer]?) work

theorem stopEach_preserves (entries : List Registration) (world : World) (ids : List SinkId) :
    world.Preserves (Router.stopEach entries world) ids := by
  induction entries generalizing world with
  | nil => exact preserves_of_work rfl ids
  | cons entry rest ih => exact (world.stop_preserves entry.sink ids).trans (ih _)

theorem targetOf?_of_remote? (present : world.remote? id = some sink) : world.targetOf? id = some sink.buffer := by
  rw [targetOf?, present, Option.map_some]

theorem Preserves.targetOf? (preserves : before.Preserves after ids) (member : id ∈ ids)
    (present : before.remote? id = some sink) : after.targetOf? id = before.targetOf? id := by
  obtain ⟨other, there, buffer, -⟩ := preserves.remotes id member sink present
  rw [targetOf?_of_remote? there, targetOf?_of_remote? present, buffer]

variable {type : DocumentType} {retry : RetryPolicy} {encode : Event → Bytes} {events : List Event} {log : List Notice}

theorem Preserves.books (preserves : before.Preserves after ids) (member : id ∈ ids)
    (books : before.HasBooks type retry encode id events log) : after.HasBooks type retry encode id events log := by
  obtain ⟨sink, origin, present, encoder, kind, buffer, batches, found, balanced⟩ := books
  obtain ⟨other, there, same, still⟩ := preserves.remotes id member sink present
  refine ⟨other, origin, there, still.trans encoder, kind, ?_⟩
  rw [same]
  exact ⟨buffer, batches, (preserves.buffers id member sink present).trans found, balanced⟩

theorem Preserves.emptied (preserves : before.Preserves after ids) (member : id ∈ ids)
    (present : before.remote? id = some sink) (emptied : before.IsEmptied id) : after.IsEmptied id := by
  obtain ⟨other, there, same, -⟩ := preserves.remotes id member sink present
  intro now here buffer found
  obtain rfl := Option.some.inj (there.symm.trans here)
  rw [same, preserves.buffers id member sink present] at found
  exact emptied sink present buffer found

theorem AddsRemote.preserves (adds : before.AddsRemote after sink buffer)
    (bounds : ∀ id ∈ ids, ∀ other, before.remote? id = some other → other.buffer < before.uploads.work.buffers.length) :
    before.Preserves after ids where
  length := by rw [adds.length]; exact Nat.le_succ _
  targets := by rw [adds.buffers, List.length_append]; exact Nat.le_add_right ..
  remotes := fun _ _ other present => ⟨other, adds.old present, rfl, rfl⟩
  buffers := fun id member other present => by
    rw [adds.buffers, List.getElem?_append_left (bounds id member other present)]

variable {buffer : RemoteBuffer}

theorem HasBooks.write (books : world.HasBooks type retry encode id events log) (remote : world.remote? id = some sink)
    (running : sink.stopped = false) (event : Event) :
    HasBooks type retry encode { world with uploads := (sink.write event world.uploads).2 } id (events ++ [event]) log := by
  obtain ⟨other, origin, present, encoder, kind, kept, batches, found, balanced⟩ := books
  obtain rfl := Option.some.inj (remote.symm.trans present)
  refine ⟨sink, origin, remote, encoder, kind, kept.accept (encode event), batches, ?_, ?_⟩
  · rw [RemoteSink.write_buffers running, List.getElem?_modify_eq, found, encoder]
    rfl
  · rw [List.map_append]
    exact balanced.accept (encode event)

theorem HasBooks.write_other (books : world.HasBooks type retry encode id events log) (running : sink.stopped = false)
    (apart : world.targetOf? id ≠ some sink.buffer) (event : Event) :
    HasBooks type retry encode { world with uploads := (sink.write event world.uploads).2 } id events log := by
  obtain ⟨other, origin, present, encoder, kind, kept, batches, found, balanced⟩ := books
  refine ⟨other, origin, present, encoder, kind, kept, batches, ?_, balanced⟩
  rw [targetOf?_of_remote? present] at apart
  rw [RemoteSink.write_buffers running, List.getElem?_modify_ne _ _ fun same => apart (congrArg some same.symm), found]

theorem AddsRemote.hasBooks (adds : before.AddsRemote after sink buffer) (encoder : sink.encode = encode)
    (kind : buffer.type = type ∧ buffer.retry = retry)
    (unused : buffer.upload = none ∧ buffer.pending = [] ∧ buffer.batches = 0)
    (targets : ∀ notice ∈ log, notice.target < before.uploads.work.buffers.length) :
    after.HasBooks type retry encode before.sinks.length [] log := by
  obtain ⟨attempts, outcomes⟩ := adds.unseen targets
  refine ⟨sink, buffer, adds.new, encoder, kind, buffer, [], adds.made, ?_⟩
  rw [attempts, outcomes]
  exact Books.fresh unused.1 unused.2.1 unused.2.2

end World

namespace Router

def made? (router : Router) (event : Event) (world : World) : Option Placement :=
  let key := router.discriminator.extract event
  if !router.discriminator.passes event || router.registry.contains key then none
  else
    match (router.resolve key world).1 with
    | .ok sink => some ⟨key, sink⟩
    | .error _ => none

/-- What routing an event comes to if the router is remote. -/
inductive Routed (type : DocumentType) (retry : RetryPolicy) (encode : Event → Bytes) (router : Router) (event : Event)
    (world : World) : Option Placement → Option Receipt → Router → World → Prop where
  | refused : Routed type retry encode router event world none none router world
  /-- The sink of the key has stopped. -/
  | stale : Routed type retry encode router event world none none
      { router with registry := router.registry.touch (router.discriminator.extract event) world.instant } world
  | accepted (entry : Registration) (sink : RemoteSink)
      (found : router.registry.find? (router.discriminator.extract event) = some entry)
      (remote : world.remote? entry.sink = some sink) (running : sink.stopped = false) :
      Routed type retry encode router event world none
        (some ⟨type, router.discriminator.extract event, entry.sink, event⟩)
        { router with registry := router.registry.touch (router.discriminator.extract event) world.instant }
        { world with uploads := (sink.write event world.uploads).2 }
  | made (sink : RemoteSink) (buffer : RemoteBuffer) (middle : World)
      (missing : router.registry.find? (router.discriminator.extract event) = none)
      (adds : world.AddsRemote middle sink buffer) (encoder : sink.encode = encode)
      (kind : buffer.type = type ∧ buffer.retry = retry)
      (unused : buffer.upload = none ∧ buffer.pending = [] ∧ buffer.batches = 0) :
      Routed type retry encode router event world (some ⟨router.discriminator.extract event, world.sinks.length⟩)
        (some ⟨type, router.discriminator.extract event, world.sinks.length, event⟩)
        { router with
          registry := router.registry.register (router.discriminator.extract event) world.sinks.length world.instant }
        { middle with uploads := (sink.write event middle.uploads).2 }

section Routed

variable {router : Router} {type : DocumentType} {retry : RetryPolicy} {encode : Event → Bytes} {world : World} {event : Event}

theorem routed_refused {fault : RouteFault} (passes : router.discriminator.passes event = true)
    (refused : router.resolve (router.discriminator.extract event) world = (.error fault, router, world)) :
    Routed type retry encode router event world (router.made? event world) (router.receipt? event world)
      (router.route event world).2.1 (router.route event world).2.2 := by
  have unmade : router.made? event world = none := by simp [made?, refused]
  rw [unmade, receipt?_of_undelivered (by simp [route_unresolved passes refused]), route_unresolved passes refused]
  exact .refused

theorem routed_found {entry : Registration} {sink : RemoteSink} (cloud : router.factory = .cloud type retry encode)
    (passes : router.discriminator.passes event = true) (accepting : router.registry.closed = false)
    (found : router.registry.find? (router.discriminator.extract event) = some entry)
    (remote : world.remote? entry.sink = some sink) :
    Routed type retry encode router event world (router.made? event world) (router.receipt? event world)
      (router.route event world).2.1 (router.route event world).2.2 := by
  have resolved : router.resolve (router.discriminator.extract event) world = _ := resolve_found accepting found
  have unmade : router.made? event world = none := by simp [made?, Registry.contains, found]
  have routed := route_resolved passes resolved
  rw [World.write_remote remote] at routed
  rw [unmade]
  cases stopped : sink.stopped with
  | true =>
      have refuses : sink.write event world.uploads = (.error (.stopped (sink.name world.uploads)), world.uploads) := by
        rw [RemoteSink.write, if_pos stopped]
      rw [refuses] at routed
      rw [receipt?_of_undelivered (by simp [routed]), routed]
      exact .stale
  | false =>
      have accepts : (sink.write event world.uploads).1 = .ok () := by simp [RemoteSink.write, stopped]
      simp only [accepts] at routed
      rw [receipt?_of_delivered cloud (by rw [routed]) (by rw [resolved]), routed]
      exact .accepted entry sink found remote stopped

theorem routed_missing (cloud : router.factory = .cloud type retry encode)
    (passes : router.discriminator.passes event = true) (accepting : router.registry.closed = false)
    (missing : router.registry.find? (router.discriminator.extract event) = none) :
    Routed type retry encode router event world (router.made? event world) (router.receipt? event world)
      (router.route event world).2.1 (router.route event world).2.2 := by
  cases based : StorageKey.base (router.discriminator.extract event) with
  | error fault =>
      have failed : Factory.create router.name (router.discriminator.extract event) (router.factory, world) =
          (.error fault, router.factory, world) := by
        simp only [cloud, Factory.create, based]
      exact routed_refused passes (resolve_failed accepting missing failed)
  | ok base =>
      have adds := world.addRemote_adds (router.name ++ "-" ++ router.discriminator.extract event) base type retry encode
      have made : Factory.create router.name (router.discriminator.extract event) (router.factory, world) =
          (.ok world.sinks.length, router.factory, (world.addRemote
            (router.name ++ "-" ++ router.discriminator.extract event) base type retry encode).2) := by
        simp only [cloud, Factory.create, based]
        rfl
      generalize (world.addRemote (router.name ++ "-" ++ router.discriminator.extract event) base type retry
        encode).2 = middle at adds made
      have resolved := resolve_made accepting missing made
      have placed : router.made? event world = some ⟨router.discriminator.extract event, world.sinks.length⟩ := by
        simp [made?, passes, Registry.contains, missing, resolved]
      have routed := route_resolved passes resolved
      rw [World.write_remote adds.new] at routed
      have accepts : ∀ registration, (RemoteSink.write ⟨encode, world.uploads.work.buffers.length, registration,
          false⟩ event middle.uploads).1 = .ok () := fun _ => rfl
      simp only [accepts] at routed
      rw [placed, receipt?_of_delivered cloud (by rw [routed]) (by rw [resolved]), routed]
      exact .made _ _ middle missing adds rfl ⟨rfl, rfl⟩ ⟨rfl, rfl, rfl⟩

theorem route_routed (cloud : router.factory = .cloud type retry encode)
    (remotes : ∀ placement ∈ router.registry.placements, ∃ sink, world.remote? placement.sink = some sink) (event : Event) :
    Routed type retry encode router event world (router.made? event world) (router.receipt? event world)
      (router.route event world).2.1 (router.route event world).2.2 := by
  cases passes : router.discriminator.passes event with
  | false =>
      have unmade : router.made? event world = none := by simp [made?, passes]
      rw [unmade, receipt?_of_undelivered (by simp [route_suppressed passes]), route_suppressed passes]
      exact .refused
  | true =>
      cases closed : router.registry.closed with
      | true => exact routed_refused passes (resolve_closed closed _ world)
      | false =>
          cases found : router.registry.find? (router.discriminator.extract event) with
          | none => exact routed_missing cloud passes closed found
          | some entry =>
              obtain ⟨member, -⟩ := Registry.find?_mem found
              obtain ⟨sink, remote⟩ := remotes entry.placement (List.mem_map_of_mem member)
              exact routed_found cloud passes closed found remote

end Routed

end Router

/-- A remote router in its world, with all sinks it has made, what it has delivered to them and what flushes have
shown. -/
structure Succession where
  router : Router
  world : World
  made : List Placement := []
  receipts : List Receipt := []
  log : List Notice := []

namespace Succession

def start (router : Router) (type : DocumentType) (retry : RetryPolicy) (encode : Event → Bytes) (world : World) :
    Succession where
  router := { router with factory := .cloud type retry encode, registry := {} }
  world

def route (event : Event) (state : Succession) : Succession :=
  let (_, router, world) := state.router.route event state.world
  { state with
    router, world
    made := state.made ++ (state.router.made? event state.world).toList
    receipts := state.receipts ++ (state.router.receipt? event state.world).toList }

def reap (now : Millis) (state : Succession) : Succession :=
  let (_, router, world) := state.router.reapAt now state.world
  { state with router, world }

def stopAll (state : Succession) : Succession :=
  let (_, router, world) := state.router.stopAll state.world
  { state with router, world }

def setUploads (uploads : UploadSchedule) (state : Succession) : Succession :=
  { state with world := { state.world with uploads } }

def run (take : Taking) (activity : Activity) (rest : List Activity) (state : Succession) : Succession :=
  let schedule := { state.world.uploads with ready := rest }
  { state.setUploads (schedule.run (Uploads.workerWith take) activity).2 with
    log := state.log ++ schedule.notices take activity }

/-- One step of a run, in which events are routed only as it is permitted. The store may answer each call as it likes. -/
inductive Step (permitted : Succession → Event → Prop) : Succession → Succession → Prop where
  | route (state : Succession) (event : Event) (may : permitted state event) : Step permitted state (state.route event)
  | reap (state : Succession) (now : Millis) : Step permitted state (state.reap now)
  | stopAll (state : Succession) : Step permitted state state.stopAll
  | flush (state : Succession) (target : TargetId) :
      Step permitted state (state.setUploads (state.world.uploads.submit target).2)
  | flushAll (state : Succession) :
      Step permitted state (state.setUploads (state.world.uploads.flushAll Uploads.worker).2)
  | flushNow (state : Succession) (target : TargetId) :
      Step permitted state (state.setUploads (state.world.uploads.beginDirect target).2)
  | run (state : Succession) (take : Taking) (before : List Activity) (activity : Activity) (after : List Activity)
      (ready : state.world.uploads.ready = before ++ activity :: after) :
      Step permitted state (state.run take activity (before ++ after))
  | bringBack (state : Succession) (before : List JobId) (job : JobId) (after : List JobId)
      (away : state.world.uploads.away = before ++ job :: after) :
      Step permitted state (state.setUploads (state.world.uploads.bringBack job (before ++ after)))
  | wake (state : Succession) (time : Millis) : Step permitted state (state.setUploads (state.world.uploads.moveTo time))
  | elsewhere (state : Succession) (world : World) (apart : state.world.Preserves world (state.made.map (·.sink))) :
      Step permitted state { state with world }

abbrev Run (permitted : Succession → Event → Prop) : Succession → Succession → Prop :=
  Relation.ReflTransGen (Step permitted)

def targetsOf (key : String) (state : Succession) : List TargetId :=
  (sinksOf key state.made).filterMap state.world.targetOf?

def callsOf (key : String) (state : Succession) : List Attempt :=
  attemptsAmong (state.targetsOf key) state.log

def uploading (key : String) (state : Succession) : List SinkId :=
  (sinksOf key state.made).filter state.world.isUploading

def sinks (state : Succession) : List SinkId :=
  state.made.map (·.sink)

/-- What holds of a remote router and its sinks whatever happens. -/
structure Sound (type : DocumentType) (retry : RetryPolicy) (encode : Event → Bytes) (state : Succession) : Prop where
  cloud : state.router.factory = .cloud type retry encode
  single : state.sinks.Nodup
  current : ∀ placement ∈ state.router.registry.placements,
    (sinksOf placement.key state.made).getLast? = some placement.sink
  books : ∀ id ∈ state.sinks, state.world.HasBooks type retry encode id (eventsOf id state.receipts) state.log
  apart : ∀ first ∈ state.sinks, ∀ second ∈ state.sinks, ∀ target, state.world.targetOf? first = some target →
    state.world.targetOf? second = some target → first = second
  targets : ∀ notice ∈ state.log, notice.target < state.world.uploads.work.buffers.length
  receipts : ∀ receipt ∈ state.receipts, (⟨receipt.key, receipt.sink⟩ : Placement) ∈ state.made
  routed : ∀ key, eventsUnder key state.receipts = (sinksOf key state.made).flatMap fun id => eventsOf id state.receipts

end Succession

section Lists

variable {key other : String} {made : List Placement} {id : SinkId} {receipts : List Receipt}

theorem mem_sinksOf : id ∈ sinksOf key made ↔ (⟨key, id⟩ : Placement) ∈ made := by
  simp only [sinksOf, List.mem_map, List.mem_filter, beq_iff_eq]
  constructor
  · rintro ⟨⟨_, _⟩, ⟨member, rfl⟩, rfl⟩
    exact member
  · intro member
    exact ⟨_, ⟨member, rfl⟩, rfl⟩

theorem sinksOf_append (key : String) (made more : List Placement) :
    sinksOf key (made ++ more) = sinksOf key made ++ sinksOf key more := by
  simp [sinksOf]

theorem sinksOf_same (key : String) (id : SinkId) : sinksOf key [⟨key, id⟩] = [id] := by
  simp [sinksOf]

theorem sinksOf_other (different : other ≠ key) (id : SinkId) : sinksOf key [⟨other, id⟩] = [] := by
  simp [sinksOf, different]

theorem getLast?_sinksOf_concat (key : String) (made : List Placement) (id : SinkId) :
    (sinksOf key (made ++ [⟨key, id⟩])).getLast? = some id := by
  rw [sinksOf_append, sinksOf_same, List.getLast?_concat]

theorem eventsUnder_append (key : String) (first second : List Receipt) :
    eventsUnder key (first ++ second) = eventsUnder key first ++ eventsUnder key second := by
  simp [eventsUnder]

theorem flatMap_eventsOf_concat {ids : List SinkId} {receipt : Receipt} (absent : receipt.sink ∉ ids) (receipts : List Receipt) :
    (ids.flatMap fun id => eventsOf id (receipts ++ [receipt])) = ids.flatMap fun id => eventsOf id receipts := by
  refine List.flatMap_congr fun id member => ?_
  rw [eventsOf_append, eventsOf_other fun same => absent (same ▸ member), List.append_nil]

end Lists

namespace Succession

variable {type : DocumentType} {retry : RetryPolicy} {encode : Event → Bytes} {state next : Succession} {key : String}
  {id : SinkId} {sink : RemoteSink}

theorem mem_sinks (member : id ∈ sinksOf key state.made) : id ∈ state.sinks :=
  List.mem_map_of_mem (mem_sinksOf.mp member)

namespace Sound

theorem remote (sound : state.Sound type retry encode) (member : id ∈ state.sinks) :
    ∃ sink, state.world.remote? id = some sink := by
  obtain ⟨sink, -, present, -⟩ := sound.books id member
  exact ⟨sink, present⟩

theorem known (sound : state.Sound type retry encode) (member : id ∈ state.sinks) : id < state.world.sinks.length := by
  obtain ⟨sink, present⟩ := sound.remote member
  exact World.lt_of_remote? present

theorem bound (sound : state.Sound type retry encode) (member : id ∈ state.sinks) (remote : state.world.remote? id = some sink) :
    sink.buffer < state.world.uploads.work.buffers.length := by
  obtain ⟨other, -, present, -, -, buffer, -, found, -⟩ := sound.books id member
  obtain rfl := Option.some.inj (remote.symm.trans present)
  exact (List.getElem?_eq_some_iff.mp found).1

theorem preserves_of_adds (sound : state.Sound type retry encode) {middle : World} {buffer : RemoteBuffer}
    (adds : state.world.AddsRemote middle sink buffer) : state.world.Preserves middle state.sinks :=
  adds.preserves fun _ member _ present => sound.bound member present

theorem targetOf?_of_adds (sound : state.Sound type retry encode) {middle : World} {buffer : RemoteBuffer}
    (adds : state.world.AddsRemote middle sink buffer) (member : id ∈ state.sinks) :
    middle.targetOf? id = state.world.targetOf? id ∧ middle.targetOf? id ≠ middle.targetOf? state.world.sinks.length := by
  obtain ⟨old, present⟩ := sound.remote member
  rw [World.targetOf?_of_remote? (adds.old present), World.targetOf?_of_remote? present, World.targetOf?_of_remote? adds.new,
    adds.target]
  exact ⟨rfl, fun same => Nat.ne_of_lt (sound.bound member present) (Option.some.inj same)⟩

theorem registered (sound : state.Sound type retry encode) {placement : Placement}
    (present : placement ∈ state.router.registry.placements) : placement.sink ∈ state.sinks :=
  mem_sinks (List.mem_of_getLast? (sound.current placement present))

theorem key_unique (sound : state.Sound type retry encode) {first second : String} (one : id ∈ sinksOf first state.made)
    (two : id ∈ sinksOf second state.made) : first = second := by
  have same := List.inj_on_of_nodup_map sound.single (mem_sinksOf.mp one) (mem_sinksOf.mp two) rfl
  exact congrArg Placement.key same

theorem sinksOf_nodup (sound : state.Sound type retry encode) (key : String) : (sinksOf key state.made).Nodup :=
  sound.single.sublist (List.filter_sublist.map _)

theorem not_earlier (sound : state.Sound type retry encode) (last : (sinksOf key state.made).getLast? = some id) (other : String) :
    id ∉ (sinksOf other state.made).dropLast := by
  intro early
  obtain rfl := sound.key_unique (List.dropLast_subset _ early) (List.mem_of_getLast? last)
  obtain ⟨front, shape⟩ := List.getLast?_eq_some_iff.mp last
  have nodup := sound.sinksOf_nodup other
  rw [shape, List.dropLast_concat] at early
  rw [shape, List.nodup_append] at nodup
  exact nodup.2.2 id early id (List.mem_singleton.mpr rfl) rfl

theorem background (sound : state.Sound type retry encode) {router : Router} {world : World}
    (preserves : state.world.Preserves world state.sinks) (cloud : router.factory = state.router.factory)
    (placements : router.registry.placements ⊆ state.router.registry.placements) :
    Sound type retry encode { state with router, world } where
  cloud := cloud.trans sound.cloud
  single := sound.single
  current := fun placement present => sound.current placement (placements present)
  books := fun id member => preserves.books member (sound.books id member)
  apart := by
    intro first one second two target early late
    obtain ⟨sink, present⟩ := sound.remote one
    obtain ⟨sink', present'⟩ := sound.remote two
    rw [preserves.targetOf? one present] at early
    rw [preserves.targetOf? two present'] at late
    exact sound.apart first one second two target early late
  targets := fun notice member => Nat.lt_of_lt_of_le (sound.targets notice member) preserves.targets
  receipts := sound.receipts
  routed := sound.routed

theorem run (sound : state.Sound type retry encode) (take : Taking) (activity : Activity) (rest : List Activity) :
    (state.run take activity rest).Sound type retry encode := by
  let schedule : UploadSchedule := { state.world.uploads with ready := rest }
  have continues := schedule.run_continues take activity
  constructor
  case cloud => exact sound.cloud
  case single => exact sound.single
  case current => exact sound.current
  case books =>
    intro id member
    obtain ⟨sink, origin, present, encoder, kind, balanced⟩ := sound.books id member
    exact ⟨sink, origin, present, encoder, kind, continues.balanced balanced⟩
  case apart => exact sound.apart
  case targets =>
    intro notice member
    have length : (state.run take activity rest).world.uploads.work.buffers.length =
        state.world.uploads.work.buffers.length := continues.length
    rw [length]
    rcases List.mem_append.mp member with old | new
    · exact sound.targets notice old
    · exact continues.targets notice new
  case receipts => exact sound.receipts
  case routed => exact sound.routed

theorem write (sound : state.Sound type retry encode) (last : (sinksOf key state.made).getLast? = some id)
    (remote : state.world.remote? id = some sink) (running : sink.stopped = false) (event : Event) :
    Sound type retry encode { state with
      world := { state.world with uploads := (sink.write event state.world.uploads).2 }
      receipts := state.receipts ++ [⟨type, key, id, event⟩] } := by
  have here : id ∈ sinksOf key state.made := List.mem_of_getLast? last
  have own : eventsOf id (state.receipts ++ [⟨type, key, id, event⟩]) = eventsOf id state.receipts ++ [event] := by
    rw [eventsOf_append]
    exact congrArg _ (eventsOf_same ⟨type, key, id, event⟩)
  constructor
  case cloud => exact sound.cloud
  case single => exact sound.single
  case current => exact sound.current
  case books =>
    intro other member
    by_cases same : other = id
    · subst other
      rw [own]
      exact (sound.books id member).write remote running event
    · have apart : state.world.targetOf? other ≠ some sink.buffer := fun shared =>
        same (sound.apart other member id (mem_sinks here) _ shared (World.targetOf?_of_remote? remote))
      rw [eventsOf_append, eventsOf_other (Ne.symm same), List.append_nil]
      exact (sound.books other member).write_other running apart event
  case apart => exact sound.apart
  case targets =>
    intro notice member
    rw [RemoteSink.write_buffers running, List.length_modify]
    exact sound.targets notice member
  case receipts =>
    intro receipt member
    rcases List.mem_append.mp member with old | new
    · exact sound.receipts receipt old
    · rw [List.mem_singleton.mp new]
      exact mem_sinksOf.mp here
  case routed =>
    intro other
    rw [eventsUnder_append, sound.routed other]
    by_cases same : key = other
    · -- The event is the last one of the latest sink, so it comes after those of all earlier sinks.
      subst other
      obtain ⟨front, shape⟩ := List.getLast?_eq_some_iff.mp last
      have early := sound.not_earlier last key
      rw [shape, List.dropLast_concat] at early
      rw [shape, List.flatMap_append, List.flatMap_append, List.flatMap_singleton, List.flatMap_singleton, own,
        List.append_assoc, flatMap_eventsOf_concat early]
      simp [eventsUnder]
    · rw [flatMap_eventsOf_concat fun member => same (sound.key_unique here member)]
      simp [eventsUnder, same]

theorem make (sound : state.Sound type retry encode) (missing : state.router.registry.find? key = none) {middle : World}
    {buffer : RemoteBuffer} (adds : state.world.AddsRemote middle sink buffer) (encoder : sink.encode = encode)
    (kind : buffer.type = type ∧ buffer.retry = retry)
    (unused : buffer.upload = none ∧ buffer.pending = [] ∧ buffer.batches = 0) (now : Millis) :
    Sound type retry encode { state with
      router := { state.router with registry := state.router.registry.register key state.world.sinks.length now }
      world := middle
      made := state.made ++ [⟨key, state.world.sinks.length⟩] } := by
  have preserves := sound.preserves_of_adds adds
  have fresh : ∀ id ∈ state.sinks, id ≠ state.world.sinks.length := fun id member => Nat.ne_of_lt (sound.known member)
  have nothing : eventsOf state.world.sinks.length state.receipts = [] := by
    refine List.filterMap_eq_nil_iff.mpr fun receipt member => if_neg ?_
    exact fresh receipt.sink (List.mem_map_of_mem (sound.receipts receipt member))
  have sinks : ∀ id ∈ (state.made ++ [(⟨key, state.world.sinks.length⟩ : Placement)]).map (·.sink),
      id ∈ state.sinks ∨ id = state.world.sinks.length := by
    intro id member
    rw [List.map_append, List.mem_append] at member
    exact member.imp_right List.mem_singleton.mp
  constructor
  case cloud => exact sound.cloud
  case single =>
    rw [Succession.sinks, List.map_append, List.nodup_append]
    refine ⟨sound.single, List.nodup_singleton _, ?_⟩
    intro old member new last
    rw [List.mem_singleton.mp last]
    exact fresh old member
  case current =>
    intro placement present
    rw [Registry.placements_register, List.mem_append, List.mem_singleton] at present
    rcases present with old | rfl
    · have different : key ≠ placement.key := by
        rintro rfl
        have absent := Registry.find?_eq_none_iff.mp missing
        rw [Registry.keys_eq] at absent
        exact absent (List.mem_map_of_mem old)
      rw [sinksOf_append, sinksOf_other different, List.append_nil]
      exact sound.current placement old
    · exact getLast?_sinksOf_concat ..
  case books =>
    intro id member
    rcases sinks id member with old | rfl
    · exact preserves.books old (sound.books id old)
    · rw [nothing]
      exact adds.hasBooks encoder kind unused sound.targets
  case apart =>
    have before := fun id (member : id ∈ state.sinks) => sound.targetOf?_of_adds adds member
    intro first one second two target early late
    rcases sinks first one with old | rfl <;> rcases sinks second two with old' | rfl
    · rw [(before first old).1] at early
      rw [(before second old').1] at late
      exact sound.apart first old second old' target early late
    · exact absurd (early.trans late.symm) (before first old).2
    · exact absurd (late.trans early.symm) (before second old').2
    · rfl
  case targets =>
    intro notice member
    exact Nat.lt_of_lt_of_le (sound.targets notice member) preserves.targets
  case receipts =>
    intro receipt member
    exact List.mem_append_left _ (sound.receipts receipt member)
  case routed =>
    intro other
    rw [sound.routed other, sinksOf_append, List.flatMap_append]
    by_cases same : key = other
    · subst other
      rw [sinksOf_same, List.flatMap_singleton, nothing, List.append_nil]
    · rw [sinksOf_other same, List.flatMap_nil, List.append_nil]

theorem start (router : Router) (type : DocumentType) (retry : RetryPolicy) (encode : Event → Bytes) (world : World) :
    (Succession.start router type retry encode world).Sound type retry encode where
  cloud := rfl
  single := List.nodup_nil
  current := by simp [Succession.start, Registry.placements]
  books := by simp [Succession.start, sinks]
  apart := by simp [Succession.start, sinks]
  targets := by simp [Succession.start]
  receipts := by simp [Succession.start]
  routed := by simp [Succession.start, eventsUnder, sinksOf]

theorem touch (sound : state.Sound type retry encode) (key : String) (now : Millis) :
    Sound type retry encode
      { state with router := { state.router with registry := state.router.registry.touch key now } } := by
  refine sound.background (World.preserves_of_work rfl _) rfl ?_
  rw [Registry.placements_touch]
  exact List.Subset.refl _

theorem last_of_find? (sound : state.Sound type retry encode) {entry : Registration}
    (found : state.router.registry.find? key = some entry) : (sinksOf key state.made).getLast? = some entry.sink := by
  obtain ⟨member, rfl⟩ := Registry.find?_mem found
  exact sound.current entry.placement (List.mem_map_of_mem member)

theorem routed_cases (sound : state.Sound type retry encode) (event : Event) :
    Router.Routed type retry encode state.router event state.world (state.router.made? event state.world)
      (state.router.receipt? event state.world) (state.router.route event state.world).2.1
      (state.router.route event state.world).2.2 :=
  Router.route_routed sound.cloud (fun _ present => sound.remote (sound.registered present)) event

theorem route (sound : state.Sound type retry encode) (event : Event) : (state.route event).Sound type retry encode := by
  have routed := sound.routed_cases event
  unfold Succession.route
  generalize state.router.made? event state.world = made at routed
  generalize state.router.receipt? event state.world = receipt at routed
  generalize state.router.route event state.world = result at routed
  obtain ⟨result, router, world⟩ := result
  cases routed with
  | refused => simpa using sound
  | stale => simpa using sound.touch _ _
  | accepted entry sink found remote running =>
      have touched := sound.touch (state.router.discriminator.extract event) state.world.instant
      simpa using touched.write (sound.last_of_find? found) remote running event
  | made sink buffer middle missing adds encoder kind unused =>
      have made := sound.make missing adds encoder kind unused state.world.instant
      exact made.write (getLast?_sinksOf_concat ..) adds.new adds.running event

end Sound

theorem Step.cases {permitted : Succession → Event → Prop} (step : Step permitted state next) :
    (∃ event, permitted state event ∧ next = state.route event) ∨
      (∃ take activity rest, next = state.run take activity rest) ∨
      ∃ router world, next = { state with router, world } ∧ state.world.Preserves world state.sinks ∧
        router.factory = state.router.factory ∧ router.registry.placements ⊆ state.router.registry.placements := by
  have asked : ∀ uploads : UploadSchedule, uploads.work = state.world.uploads.work →
      ∃ router world, state.setUploads uploads = { state with router, world } ∧ state.world.Preserves world state.sinks ∧
        router.factory = state.router.factory ∧ router.registry.placements ⊆ state.router.registry.placements :=
    fun uploads work => ⟨state.router, { state.world with uploads }, rfl, World.preserves_of_work work _, rfl, List.Subset.refl _⟩
  cases step with
  | route event may => exact .inl ⟨event, may, rfl⟩
  | run take before activity after ready => exact .inr (.inl ⟨take, activity, before ++ after, rfl⟩)
  | reap now =>
      refine .inr (.inr ⟨(state.router.reapAt now state.world).2.1, _, rfl, World.stopEach_preserves _ _ _, rfl, ?_⟩)
      have kept : (state.router.reapAt now state.world).2.1.registry.entries =
          state.router.registry.entries.filter fun entry => !state.router.registry.isExpired now state.router.idleTimeout entry := by
        simp only [Router.reapAt, Registry.expire_eq]
      rw [Registry.placements, kept]
      exact List.map_subset _ List.filter_sublist.subset
  | stopAll =>
      exact .inr (.inr ⟨state.router.stopAll state.world |>.2.1, _, rfl, World.stopEach_preserves _ _ _, rfl, List.nil_subset _⟩)
  | flush target => exact .inr (.inr (asked _ rfl))
  | flushAll => exact .inr (.inr (asked _ rfl))
  | flushNow target => exact .inr (.inr (asked _ rfl))
  | bringBack before job after away => exact .inr (.inr (asked _ rfl))
  | wake time => exact .inr (.inr (asked _ rfl))
  | elsewhere world apart => exact .inr (.inr ⟨state.router, world, rfl, apart, rfl, List.Subset.refl _⟩)

theorem Sound.step {permitted : Succession → Event → Prop} (sound : state.Sound type retry encode)
    (step : Step permitted state next) : next.Sound type retry encode := by
  obtain ⟨event, -, rfl⟩ | ⟨take, activity, rest, rfl⟩ | ⟨router, world, rfl, preserves, cloud, placements⟩ := step.cases
  · exact sound.route event
  · exact sound.run take activity rest
  · exact sound.background preserves cloud placements

end Succession

end KeyedLog
