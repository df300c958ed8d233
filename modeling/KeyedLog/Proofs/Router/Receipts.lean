import KeyedLog.Dispatcher
import KeyedLog.Proofs.Router.Local

/-!
Receipts for what remote routers deliver. While events are routed, the books of all remote sinks agree with the receipts,
and every remote sink that is running is registered with a router.
-/

namespace KeyedLog

namespace World

/-- Every remote sink that is running is among these. -/
def Live (world : World) (known : SinkId → Prop) : Prop :=
  ∀ {id : SinkId} {sink : RemoteSink}, world.remote? id = some sink → sink.stopped = false → known id

theorem write_remote {world : World} {id : SinkId} {sink : RemoteSink} (present : world.remote? id = some sink)
    (event : Event) :
    world.write id event =
      ((sink.write event world.uploads).1, { world with uploads := (sink.write event world.uploads).2 }) := by
  simp only [write, remote?_eq.mp present]

theorem write_remote_leaves (world : World) (sink : RemoteSink) (event : Event) :
    world.Leaves { world with uploads := (sink.write event world.uploads).2 } := by
  unfold RemoteSink.write
  split <;> exact ⟨rfl, .refl _, rfl⟩

end World

namespace Router

def sinks (router : Router) : List SinkId :=
  router.registry.entries.map (·.sink)

/-- What a router has registered suits its factory. -/
structure IsSound (encode : Event → Bytes) (world : World) (router : Router) : Prop where
  cloud : ∀ {type : DocumentType} {retry : RetryPolicy} {encoder : Event → Bytes},
    router.factory = .cloud type retry encoder →
      encoder = encode ∧ ∀ entry ∈ router.registry.entries, world.Serves entry.sink type entry.key
  others : router.factory.isCloud = false →
    ∀ entry ∈ router.registry.entries, entry.sink < world.sinks.length ∧ world.remote? entry.sink = none

def receipt? (router : Router) (event : Event) (world : World) : Option Receipt :=
  let key := router.discriminator.extract event
  match router.factory, (router.route event world).1, (router.resolve key world).1 with
  | .cloud type _ _, .ok .delivered, .ok sink => some { type, key, sink, event }
  | _, _, _ => none

end Router

namespace Dispatcher

def routeReceipts (event : Event) : List Router → World → List Receipt
  | [], _ => []
  | router :: rest, world =>
    (router.receipt? event world).toList ++ routeReceipts event rest (router.route event world).2.2

def receipts (dispatcher : Dispatcher) (event : Event) (world : World) : List Receipt :=
  if !dispatcher.accepting then []
  else if event.level < dispatcher.minLevel then []
  else routeReceipts event dispatcher.routers (dispatcher.writePlatform event world).2

end Dispatcher

theorem Registry.sinks_touch (registry : Registry) (key : String) (now : Millis) :
    (registry.touch key now).entries.map (·.sink) = registry.entries.map (·.sink) := by
  rw [Registry.touch, List.map_map]
  refine List.map_congr_left fun entry _ => ?_
  by_cases named : entry.key = key <;> simp [named]

/-- What holds of a world and routers in it, while other sinks are known elsewhere. -/
structure Tended (encode : Event → Bytes) (receipts : List Receipt) (log : List Notice) (elsewhere : SinkId → Prop)
    (routers : List Router) (world : World) : Prop where
  ledger : world.Ledger encode receipts log
  sound : ∀ router ∈ routers, router.IsSound encode world
  live : world.Live fun id => elsewhere id ∨ ∃ router ∈ routers, id ∈ router.sinks

variable {encode : Event → Bytes} {receipts : List Receipt} {log : List Notice} {elsewhere : SinkId → Prop}
  {routers rest : List Router} {router : Router} {world next : World}

theorem Router.IsSound.grows (sound : router.IsSound encode world) (grows : world.Extends next) : router.IsSound encode next := by
  constructor
  · intro type retry encoder made
    obtain ⟨same, serves⟩ := sound.cloud made
    exact ⟨same, fun entry member => grows.serves (serves entry member)⟩
  · intro isLocal entry member
    obtain ⟨bound, absent⟩ := sound.others isLocal entry member
    exact ⟨Nat.lt_of_lt_of_le bound grows.length, grows.others bound absent⟩

theorem Router.IsSound.congr (sound : router.IsSound encode world) {other : Router} (factory : other.factory = router.factory)
    (entries : ∀ entry ∈ other.registry.entries, ∃ old ∈ router.registry.entries, entry.sink = old.sink ∧ entry.key = old.key) :
    other.IsSound encode world := by
  constructor
  · intro type retry encoder made
    obtain ⟨same, serves⟩ := sound.cloud (factory.symm.trans made)
    refine ⟨same, ?_⟩
    intro entry member
    obtain ⟨old, before, sink, key⟩ := entries entry member
    rw [sink, key]
    exact serves old before
  · intro isLocal entry member
    obtain ⟨old, before, sink, -⟩ := entries entry member
    rw [sink]
    exact sound.others (by rw [← factory]; exact isLocal) old before

namespace Tended

theorem isLocal (tended : Tended encode receipts log elsewhere routers world) (isLocal : world.IsLocal next) :
    Tended encode receipts log elsewhere routers next where
  ledger := isLocal.ledger tended.ledger
  sound := fun router member => (tended.sound router member).grows isLocal.grows
  live := by
    intro id sink present running
    rw [isLocal.remotes] at present
    exact tended.live present running

theorem head (tended : Tended encode receipts log elsewhere (router :: rest) world) {other : Router}
    (sound : other.IsSound encode world) (sinks : ∀ id ∈ router.sinks, id ∈ other.sinks) :
    Tended encode receipts log elsewhere (other :: rest) world where
  ledger := tended.ledger
  sound := by
    intro some member
    rcases List.mem_cons.mp member with rfl | old
    · exact sound
    · exact tended.sound some (List.mem_cons_of_mem _ old)
  live := by
    intro id sink present running
    rcases tended.live present running with away | ⟨some, member, known⟩
    · exact .inl away
    · rcases List.mem_cons.mp member with rfl | old
      · exact .inr ⟨other, List.mem_cons_self .., sinks id known⟩
      · exact .inr ⟨some, List.mem_cons_of_mem _ old, known⟩

theorem tail (tended : Tended encode receipts log elsewhere (router :: rest) world) :
    Tended encode receipts log (fun id => elsewhere id ∨ id ∈ router.sinks) rest world where
  ledger := tended.ledger
  sound := fun some member => tended.sound some (List.mem_cons_of_mem _ member)
  live := by
    intro id sink present running
    rcases tended.live present running with away | ⟨some, member, known⟩
    · exact .inl (.inl away)
    · rcases List.mem_cons.mp member with rfl | old
      · exact .inl (.inr known)
      · exact .inr ⟨some, old, known⟩

theorem cons (tended : Tended encode receipts log (fun id => elsewhere id ∨ id ∈ router.sinks) rest world)
    (sound : router.IsSound encode world) : Tended encode receipts log elsewhere (router :: rest) world where
  ledger := tended.ledger
  sound := by
    intro some member
    rcases List.mem_cons.mp member with rfl | old
    · exact sound
    · exact tended.sound some old
  live := by
    intro id sink present running
    rcases tended.live present running with (away | known) | ⟨some, member, known⟩
    · exact .inl away
    · exact .inr ⟨router, List.mem_cons_self .., known⟩
    · exact .inr ⟨some, List.mem_cons_of_mem _ member, known⟩

theorem touch (tended : Tended encode receipts log elsewhere (router :: rest) world) (key : String) (now : Millis) :
    Tended encode receipts log elsewhere ({ router with registry := router.registry.touch key now } :: rest) world := by
  refine tended.head ((tended.sound router (List.mem_cons_self ..)).congr rfl ?_) fun id known => ?_
  · intro new after
    obtain ⟨old, before, sameKey, sameSink, -⟩ := Registry.mem_touch.mp after
    exact ⟨old, before, sameSink, sameKey⟩
  · rw [Router.sinks, Registry.sinks_touch]
    exact known

end Tended

theorem Tended.register (tended : Tended encode receipts log elsewhere (router :: rest) world)
    (ledger : next.Ledger encode receipts log) (grows : world.Extends next) {key : String} {new : SinkId}
    (live : ∀ {id : SinkId} {sink : RemoteSink}, next.remote? id = some sink → world.remote? id = some sink ∨ id = new)
    {factory : Factory} (cloud : router.factory.isCloud = true → factory = router.factory)
    (isLocal : router.factory.isCloud = false → factory.isCloud = false)
    (serves : ∀ {type retry encoder}, factory = .cloud type retry encoder → next.Serves new type key)
    (others : factory.isCloud = false → new < next.sinks.length ∧ next.remote? new = none) (now : Millis) :
    Tended encode receipts log elsewhere ({ router with registry := router.registry.register key new now, factory } :: rest)
      next := by
  have sound := (tended.sound router (List.mem_cons_self ..)).grows grows
  refine ⟨ledger, ?_, ?_⟩
  · intro some member
    rcases List.mem_cons.mp member with rfl | old
    · constructor
      · intro type retry encoder made
        have was : router.factory = .cloud type retry encoder := by
          cases kind : router.factory.isCloud with
          | true => exact (cloud kind).symm.trans made
          | false =>
              have other := isLocal kind
              rw [show factory = .cloud type retry encoder from made] at other
              exact absurd other (by simp [Factory.isCloud])
        obtain ⟨same, known⟩ := sound.cloud was
        refine ⟨same, ?_⟩
        intro entry member
        rcases List.mem_append.mp member with before | last
        · exact known entry before
        · rw [List.mem_singleton.mp last]
          exact serves made
      · intro kind entry member
        have was : router.factory.isCloud = false := by
          cases same : router.factory.isCloud with
          | false => rfl
          | true =>
              have unchanged := cloud same
              rw [← same, ← unchanged]
              exact kind
        rcases List.mem_append.mp member with before | last
        · exact sound.others was entry before
        · rw [List.mem_singleton.mp last]
          exact others kind
    · exact (tended.sound some (List.mem_cons_of_mem _ old)).grows grows
  · intro id sink present running
    rcases live present with before | rfl
    · rcases tended.live before running with away | ⟨some, member, known⟩
      · exact .inl away
      · rcases List.mem_cons.mp member with rfl | old
        · refine .inr ⟨_, List.mem_cons_self .., ?_⟩
          simp only [Router.sinks, Registry.register, List.map_append, List.mem_append]
          exact .inl known
        · exact .inr ⟨some, List.mem_cons_of_mem _ old, known⟩
    · refine .inr ⟨_, List.mem_cons_self .., ?_⟩
      simp [Router.sinks, Registry.register]

namespace Router

structure Resolves (encode : Event → Bytes) (receipts : List Receipt) (log : List Notice) (elsewhere : SinkId → Prop)
    (rest : List Router) (key : String) (before : Router) (world : World) (result : Except RouteFault SinkId)
    (after : Router) (next : World) : Prop where
  tended : Tended encode receipts log elsewhere (after :: rest) next
  grows : world.Extends next
  leaves : world.Leaves next
  cloud : before.factory.isCloud = true → after.factory = before.factory
  others : before.factory.isCloud = false → after.factory.isCloud = false
  registered : ∀ id, result = .ok id → ∃ entry ∈ after.registry.entries, entry.sink = id ∧ entry.key = key

theorem exists_of_isCloud {factory : Factory} (isCloud : factory.isCloud = true) :
    ∃ type retry encoder, factory = .cloud type retry encoder := by
  cases factory with
  | cloud type retry encoder => exact ⟨type, retry, encoder, rfl⟩
  | _ => simp [Factory.isCloud] at isCloud

namespace Resolves

variable {key : String} {factory : Factory} {cause : SinkFault} {id : SinkId}

theorem refused (tended : Tended encode receipts log elsewhere (router :: rest) world) (key : String) (fault : RouteFault) :
    Resolves encode receipts log elsewhere rest key router world (.error fault) router world :=
  ⟨tended, .refl _, .refl _, fun _ => rfl, fun other => other, by simp⟩

theorem found (tended : Tended encode receipts log elsewhere (router :: rest) world) {entry : Registration}
    (found : router.registry.find? key = some entry) (now : Millis) :
    Resolves encode receipts log elsewhere rest key router world (.ok entry.sink)
      { router with registry := router.registry.touch key now } world := by
  obtain ⟨member, named⟩ := Registry.find?_mem found
  refine ⟨tended.touch key now, .refl _, .refl _, fun _ => rfl, fun other => other, ?_⟩
  intro id same
  cases same
  exact ⟨{ entry with lastUsed := max entry.lastUsed now },
    Registry.mem_touch.mpr ⟨entry, member, rfl, rfl, by simp [named]⟩, rfl, named⟩

theorem failed_local (tended : Tended encode receipts log elsewhere (router :: rest) world)
    (kind : router.factory.isCloud = false)
    (failed : Factory.create router.name key (router.factory, world) = (.error cause, factory, next)) (fault : RouteFault) :
    Resolves encode receipts log elsewhere rest key router world (.error fault) { router with factory } next := by
  obtain ⟨changes, other, -⟩ := Factory.create_isLocal kind router.name key world
  rw [failed] at changes other
  refine ⟨?_, changes.grows, changes.leaves, by simp [kind], fun _ => other, by simp⟩
  refine (tended.isLocal changes).head ?_ fun _ member => member
  constructor
  case cloud =>
    intro type retry encoder same
    rw [show factory = .cloud type retry encoder from same] at other
    simp [Factory.isCloud] at other
  case others => exact fun _ => ((tended.sound router (List.mem_cons_self ..)).grows changes.grows).others kind

theorem made_local (tended : Tended encode receipts log elsewhere (router :: rest) world)
    (kind : router.factory.isCloud = false)
    (made : Factory.create router.name key (router.factory, world) = (.ok id, factory, next)) (now : Millis) :
    Resolves encode receipts log elsewhere rest key router world (.ok id)
      { router with registry := router.registry.register key id now, factory } next := by
  obtain ⟨changes, other, known⟩ := Factory.create_isLocal kind router.name key world
  rw [made] at changes other known
  refine ⟨?_, changes.grows, changes.leaves, by simp [kind], fun _ => other, ?_⟩
  · refine tended.register (changes.ledger tended.ledger) changes.grows ?_ (by simp [kind]) (fun _ => other) ?_
      (fun _ => known id rfl) _
    · intro id sink present
      rw [changes.remotes] at present
      exact .inl present
    · intro type retry encoder same
      rw [same] at other
      simp [Factory.isCloud] at other
  · intro id same
    cases same
    exact ⟨_, List.mem_append_right _ (List.mem_singleton.mpr rfl), rfl, rfl⟩

theorem failed_cloud (tended : Tended encode receipts log elsewhere (router :: rest) world)
    (kind : router.factory.isCloud = true)
    (failed : Factory.create router.name key (router.factory, world) = (.error cause, factory, next)) (fault : RouteFault) :
    Resolves encode receipts log elsewhere rest key router world (.error fault) { router with factory } next := by
  obtain ⟨type, retry, encoder, shape⟩ := exists_of_isCloud kind
  rw [shape, Factory.create] at failed
  cases based : StorageKey.base key with
  | ok base => simp [based] at failed
  | error fault =>
      rw [based] at failed
      cases failed
      rw [← shape]
      exact .refused tended key _

theorem made_cloud (tended : Tended encode receipts log elsewhere (router :: rest) world)
    (kind : router.factory.isCloud = true)
    (made : Factory.create router.name key (router.factory, world) = (.ok id, factory, next)) (now : Millis) :
    Resolves encode receipts log elsewhere rest key router world (.ok id)
      { router with registry := router.registry.register key id now, factory } next := by
  obtain ⟨type, retry, encoder, shape⟩ := exists_of_isCloud kind
  obtain ⟨rfl, -⟩ := (tended.sound router (List.mem_cons_self ..)).cloud shape
  rw [shape, Factory.create] at made
  cases based : StorageKey.base key with
  | error fault => simp [based] at made
  | ok base =>
      rw [based] at made
      have adds := world.addRemote_adds (router.name ++ "-" ++ key) base type retry encoder
      have named : (world.addRemote (router.name ++ "-" ++ key) base type retry encoder).1 = world.sinks.length := rfl
      have leaves : world.Leaves (world.addRemote (router.name ++ "-" ++ key) base type retry encoder).2 :=
        ⟨rfl, .refl _, rfl⟩
      dsimp only at made
      rw [named] at made
      generalize (world.addRemote (router.name ++ "-" ++ key) base type retry encoder).2 = after at adds leaves made
      cases made
      have ledger := adds.ledger tended.ledger rfl ⟨rfl, rfl, rfl⟩ rfl world.isPlain_instanceName
      refine ⟨?_, adds.grows, leaves, fun _ => shape.symm, by simp [kind], ?_⟩
      · refine tended.register ledger adds.grows ?_ (fun _ => shape.symm) (by simp [kind]) ?_ (by simp [Factory.isCloud]) _
        · intro id sink present
          exact (adds.old_or_new present).imp_right (·.1)
        · intro type retry encoder same
          cases same
          exact ⟨_, _, adds.new, adds.made, rfl, based⟩
      · intro id same
        cases same
        exact ⟨_, List.mem_append_right _ (List.mem_singleton.mpr rfl), rfl, rfl⟩

end Resolves

theorem resolve_resolves (tended : Tended encode receipts log elsewhere (router :: rest) world) (key : String) :
    Resolves encode receipts log elsewhere rest key router world (router.resolve key world).1
      (router.resolve key world).2.1 (router.resolve key world).2.2 := by
  refine resolve_cases router key world ?_ ?_ ?_ ?_
  · exact fun _ => .refused tended key _
  · exact fun entry _ found => .found tended found _
  · intro fault factory next _ _ failed
    cases kind : router.factory.isCloud with
    | false => exact .failed_local tended kind failed _
    | true => exact .failed_cloud tended kind failed _
  · intro id factory next _ _ made
    cases kind : router.factory.isCloud with
    | false => exact .made_local tended kind made _
    | true => exact .made_cloud tended kind made _

structure Routes (encode : Event → Bytes) (receipts : List Receipt) (log : List Notice) (elsewhere : SinkId → Prop)
    (rest : List Router) (before : Router) (world : World) (receipt : Option Receipt) (after : Router) (next : World) :
    Prop where
  tended : Tended encode (receipts ++ receipt.toList) log elsewhere (after :: rest) next
  grows : world.Extends next
  leaves : world.Leaves next
  cloud : before.factory.isCloud = true → after.factory = before.factory
  others : before.factory.isCloud = false → after.factory.isCloud = false

theorem receipt?_of_isLocal (isLocal : router.factory.isCloud = false) (event : Event) (world : World) :
    router.receipt? event world = none := by
  unfold receipt?
  cases kind : router.factory with
  | cloud type retry encoder => simp [kind, Factory.isCloud] at isLocal
  | _ => rfl

theorem receipt?_of_undelivered {event : Event} (undelivered : (router.route event world).1 ≠ .ok .delivered) :
    router.receipt? event world = none := by
  unfold receipt?
  dsimp only
  split
  next delivered _ => exact absurd delivered undelivered
  next => rfl

theorem receipt?_of_delivered {event : Event} {type : DocumentType} {retry : RetryPolicy} {encoder : Event → Bytes}
    {sink : SinkId} (shape : router.factory = .cloud type retry encoder)
    (delivered : (router.route event world).1 = .ok .delivered)
    (resolved : (router.resolve (router.discriminator.extract event) world).1 = .ok sink) :
    router.receipt? event world = some ⟨type, router.discriminator.extract event, sink, event⟩ := by
  simp only [receipt?, shape, delivered, resolved]

theorem Resolves.write_cloud {key : String} {after : Router} {middle : World} {sink : SinkId}
    (resolves : Resolves encode receipts log elsewhere rest key router world (.ok sink) after middle)
    {type : DocumentType} {retry : RetryPolicy} {encoder : Event → Bytes} (shape : router.factory = .cloud type retry encoder)
    (event : Event) :
    (∃ next, middle.write sink event = (.ok (), next) ∧
        Tended encode (receipts ++ [⟨type, key, sink, event⟩]) log elsewhere (after :: rest) next ∧
        middle.Extends next ∧ middle.Leaves next) ∨
      ∃ fault, middle.write sink event = (.error fault, middle) := by
  obtain ⟨entry, member, rfl, rfl⟩ := resolves.registered sink rfl
  have kept := resolves.cloud (by rw [shape]; rfl)
  obtain ⟨-, serves⟩ := (resolves.tended.sound after (List.mem_cons_self ..)).cloud (kept.trans shape)
  have served := serves entry member
  obtain ⟨remote, buffer, present, -⟩ := served
  rw [World.write_remote present]
  by_cases stopped : remote.stopped = true
  · right
    refine ⟨.stopped (remote.name middle.uploads), ?_⟩
    rw [RemoteSink.write, if_pos stopped]
  · left
    have running : remote.stopped = false := by simpa using stopped
    let receipt : Receipt := ⟨type, entry.key, entry.sink, event⟩
    have here : receipt.sink = entry.sink := rfl
    obtain ⟨ledger, grows⟩ := resolves.tended.ledger.write present running here (serves entry member)
    have leaves := middle.write_remote_leaves remote event
    have result : (remote.write event middle.uploads).1 = .ok () := by
      rw [RemoteSink.write, if_neg stopped]
    refine ⟨_, by rw [result], ⟨ledger, ?_, resolves.tended.live⟩, grows, leaves⟩
    exact fun some member => (resolves.tended.sound some member).grows grows

theorem route_routes (tended : Tended encode receipts log elsewhere (router :: rest) world) (event : Event) :
    Routes encode receipts log elsewhere rest router world (router.receipt? event world) (router.route event world).2.1
      (router.route event world).2.2 := by
  have resolves := resolve_resolves tended (router.discriminator.extract event)
  have silent : receipts ++ (none : Option Receipt).toList = receipts := List.append_nil _
  cases passes : router.discriminator.passes event with
  | false =>
      rw [receipt?_of_undelivered (by simp [route_suppressed passes]), route_suppressed passes]
      exact ⟨silent.symm ▸ tended, .refl _, .refl _, fun _ => rfl, fun other => other⟩
  | true =>
      obtain ⟨⟨answer, after, middle⟩, outcome⟩ :
        ∃ outcome, router.resolve (router.discriminator.extract event) world = outcome := ⟨_, rfl⟩
      rw [outcome] at resolves
      cases answer with
      | error fault =>
          rw [receipt?_of_undelivered (by simp [route_unresolved passes outcome]), route_unresolved passes outcome]
          exact ⟨silent.symm ▸ resolves.tended, resolves.grows, resolves.leaves, resolves.cloud, resolves.others⟩
      | ok sink =>
          have routed := route_resolved passes outcome
          cases kind : router.factory.isCloud with
          | false =>
              obtain ⟨entry, member, rfl, -⟩ := resolves.registered sink rfl
              obtain ⟨-, absent⟩ := (resolves.tended.sound after (List.mem_cons_self ..)).others (resolves.others kind) entry member
              have written := middle.write_isLocal absent event
              rw [receipt?_of_isLocal kind, routed]
              exact ⟨silent.symm ▸ resolves.tended.isLocal written, resolves.grows.trans written.grows,
                resolves.leaves.trans written.leaves, resolves.cloud, resolves.others⟩
          | true =>
              obtain ⟨type, retry, encoder, shape⟩ := exists_of_isCloud kind
              rcases resolves.write_cloud shape event with ⟨next, written, tended, grows, leaves⟩ | ⟨fault, written⟩
              · rw [written] at routed
                rw [receipt?_of_delivered shape (by rw [routed]) (by rw [outcome]), routed]
                exact ⟨tended, resolves.grows.trans grows, resolves.leaves.trans leaves, resolves.cloud, resolves.others⟩
              · rw [written] at routed
                rw [receipt?_of_undelivered (by simp [routed]), routed]
                exact ⟨silent.symm ▸ resolves.tended, resolves.grows, resolves.leaves, resolves.cloud, resolves.others⟩

end Router

end KeyedLog
