import KeyedLog.Proofs.Router.Receipts

/-!
What dispatching an event and stopping sinks do to all remote sinks: every event a sink accepts has its receipt, and a
sink is forgotten only after it was stopped.
-/

namespace KeyedLog

variable {encode : Event → Bytes} {receipts : List Receipt} {log : List Notice} {elsewhere : SinkId → Prop}
  {routers rest : List Router} {router : Router} {world : World}

namespace World

/-- Nothing changes but what is asked of the executor. -/
structure KeepsWork (before after : World) : Prop where
  work : after.uploads.work = before.uploads.work
  accepting : after.executor.accepting = before.executor.accepting

theorem KeepsWork.refl (world : World) : world.KeepsWork world :=
  ⟨rfl, rfl⟩

theorem KeepsWork.trans {first second third : World} (one : first.KeepsWork second) (two : second.KeepsWork third) :
    first.KeepsWork third :=
  ⟨two.work.trans one.work, two.accepting.trans one.accepting⟩

theorem stop_keepsWork (world : World) (id : SinkId) : world.KeepsWork (world.stop id) where
  work := by
    rcases world.stop_uploads id with same | ⟨sink, -, -, uploads⟩
    · rw [same]
    · rw [uploads]
      exact stop_work sink world.uploads
  accepting := world.stop_accepting id

end World

namespace Router

theorem stopEach_stopped (entries : List Registration) (ledger : world.Ledger encode receipts log)
    (accepting : world.executor.accepting = true) :
    (stopEach entries world).Ledger encode receipts log ∧ world.Extends (stopEach entries world) ∧
      world.KeepsWork (stopEach entries world) ∧
      ∀ {id : SinkId} {sink : RemoteSink}, (stopEach entries world).remote? id = some sink → sink.stopped = false →
        world.remote? id = some sink ∧ ∀ entry ∈ entries, entry.sink ≠ id := by
  induction entries generalizing world with
  | nil => exact ⟨ledger, .refl _, .refl _, fun present _ => ⟨present, by simp⟩⟩
  | cons entry rest ih =>
      have leaves := world.stop_keepsWork entry.sink
      obtain ⟨kept, grows, left, running⟩ := ih (ledger.stop accepting entry.sink) (leaves.accepting.trans accepting)
      refine ⟨kept, (world.stop_extends entry.sink).trans grows, leaves.trans left, ?_⟩
      intro id sink present goes
      obtain ⟨before, apart⟩ := running present goes
      rw [World.stop_remote?] at before
      by_cases same : id = entry.sink
      · rw [if_pos same] at before
        obtain ⟨old, -, rfl⟩ := Option.map_eq_some_iff.mp before
        simp at goes
      · rw [if_neg same] at before
        refine ⟨before, ?_⟩
        intro other member
        rcases List.mem_cons.mp member with rfl | old
        · exact Ne.symm same
        · exact apart other old

theorem stop_tended (tended : Tended encode receipts log elsewhere (router :: rest) world)
    (accepting : world.executor.accepting = true) {registry : Registry} {stopped : List Registration}
    (kept : ∀ entry ∈ registry.entries, entry ∈ router.registry.entries)
    (split : ∀ entry ∈ router.registry.entries, entry ∈ stopped ∨ entry ∈ registry.entries) :
    Tended encode receipts log elsewhere ({ router with registry } :: rest) (stopEach stopped world) ∧
      world.Extends (stopEach stopped world) ∧ world.KeepsWork (stopEach stopped world) := by
  obtain ⟨ledger, grows, leaves, running⟩ := stopEach_stopped stopped tended.ledger accepting
  refine ⟨⟨ledger, ?_, ?_⟩, grows, leaves⟩
  · intro some member
    rcases List.mem_cons.mp member with rfl | old
    · refine IsSound.congr ((tended.sound router (List.mem_cons_self ..)).grows grows) rfl ?_
      exact fun entry member => ⟨entry, kept entry member, rfl, rfl⟩
    · exact (tended.sound some (List.mem_cons_of_mem _ old)).grows grows
  · intro id sink present goes
    obtain ⟨before, apart⟩ := running present goes
    rcases tended.live before goes with away | ⟨some, member, known⟩
    · exact .inl away
    · rcases List.mem_cons.mp member with rfl | old
      · obtain ⟨entry, inside, rfl⟩ := List.mem_map.mp known
        rcases split entry inside with gone | stays
        · exact absurd rfl (apart entry gone)
        · exact .inr ⟨_, List.mem_cons_self .., List.mem_map.mpr ⟨entry, stays, rfl⟩⟩
      · exact .inr ⟨some, List.mem_cons_of_mem _ old, known⟩

theorem reapAt_tended (tended : Tended encode receipts log elsewhere (router :: rest) world)
    (accepting : world.executor.accepting = true) (now : Millis) :
    Tended encode receipts log elsewhere ((router.reapAt now world).2.1 :: rest) (router.reapAt now world).2.2 ∧
      world.Extends (router.reapAt now world).2.2 ∧ world.KeepsWork (router.reapAt now world).2.2 := by
  simp only [reapAt, Registry.expire_eq]
  refine stop_tended tended accepting ?_ ?_
  · exact fun entry member => List.mem_of_mem_filter member
  · intro entry member
    by_cases expired : router.registry.isExpired now router.idleTimeout entry = true
    · exact .inl (List.mem_filter.mpr ⟨member, expired⟩)
    · exact .inr (List.mem_filter.mpr ⟨member, by simpa using expired⟩)

theorem stopAll_tended (tended : Tended encode receipts log elsewhere (router :: rest) world)
    (accepting : world.executor.accepting = true) :
    Tended encode receipts log elsewhere ((router.stopAll world).2.1 :: rest) (router.stopAll world).2.2 ∧
      world.Extends (router.stopAll world).2.2 ∧ world.KeepsWork (router.stopAll world).2.2 ∧
      (router.stopAll world).2.1.registry.entries = [] := by
  have kept : ∀ entry ∈ router.registry.drain.2.entries, entry ∈ router.registry.entries := by simp [Registry.drain]
  have split : ∀ entry ∈ router.registry.entries, entry ∈ router.registry.drain.1 ∨ entry ∈ router.registry.drain.2.entries :=
    fun entry member => .inl member
  obtain ⟨after, grows, leaves⟩ := stop_tended tended accepting kept split
  exact ⟨after, grows, leaves, rfl⟩

end Router

namespace Dispatcher

theorem routeAll_tended (tended : Tended encode receipts log elsewhere routers world) (event : Event) :
    Tended encode (receipts ++ routeReceipts event routers world) log elsewhere (routeAll event routers world).2.1
        (routeAll event routers world).2.2 ∧
      world.Extends (routeAll event routers world).2.2 ∧ world.Leaves (routeAll event routers world).2.2 := by
  induction routers generalizing world receipts elsewhere with
  | nil =>
      simp only [routeReceipts, List.append_nil]
      exact ⟨tended, .refl _, .refl _⟩
  | cons router rest ih =>
      have routes := Router.route_routes tended event
      simp only [routeAll, routeReceipts, ← List.append_assoc]
      generalize router.receipt? event world = receipt at routes
      generalize router.route event world = routed at routes
      obtain ⟨result, after, middle⟩ := routed
      obtain ⟨behind, grows, leaves⟩ := ih routes.tended.tail
      dsimp only at behind grows leaves ⊢
      have sound := (routes.tended.sound after (List.mem_cons_self ..)).grows grows
      cases result <;> exact ⟨behind.cons sound, routes.grows.trans grows, routes.leaves.trans leaves⟩

def IsPlatform (world : World) (platform : Option SinkId) : Prop :=
  ∀ id, platform = some id → id < world.sinks.length ∧ world.remote? id = none

theorem IsPlatform.grows {platform : Option SinkId} {next : World} (isPlatform : IsPlatform world platform)
    (grows : world.Extends next) : IsPlatform next platform := by
  intro id same
  obtain ⟨bound, absent⟩ := isPlatform id same
  exact ⟨Nat.lt_of_lt_of_le bound grows.length, grows.others bound absent⟩

theorem writePlatform_isLocal (dispatcher : Dispatcher) (isPlatform : IsPlatform world dispatcher.platform) (event : Event) :
    world.IsLocal (dispatcher.writePlatform event world).2 := by
  unfold writePlatform
  cases platform : dispatcher.platform with
  | none => exact .refl world
  | some id =>
      have written := world.write_isLocal (isPlatform id platform).2 event
      dsimp only
      generalize world.write id event = answered at written
      obtain ⟨answer, next⟩ := answered
      cases answer <;> exact written

variable {dispatcher : Dispatcher}

theorem dispatch_tended (tended : Tended encode receipts log elsewhere dispatcher.routers world)
    (isPlatform : IsPlatform world dispatcher.platform) (event : Event) :
    Tended encode (receipts ++ dispatcher.receipts event world) log elsewhere (dispatcher.dispatch event world).2.1.routers
        (dispatcher.dispatch event world).2.2 ∧
      world.Extends (dispatcher.dispatch event world).2.2 ∧ world.Leaves (dispatcher.dispatch event world).2.2 ∧
      (dispatcher.dispatch event world).2.1.platform = dispatcher.platform := by
  simp only [dispatch, Dispatcher.receipts]
  by_cases accepts : dispatcher.accepting = true
  · simp only [accepts, Bool.not_true, Bool.false_eq_true, if_false]
    by_cases low : event.level < dispatcher.minLevel
    · simp only [low, if_true, List.append_nil]
      exact ⟨tended, .refl _, .refl _, trivial⟩
    · simp only [low, if_false]
      have written := dispatcher.writePlatform_isLocal isPlatform event
      generalize dispatcher.writePlatform event world = first at written
      obtain ⟨faults, middle⟩ := first
      obtain ⟨after, grows, leaves⟩ := routeAll_tended (tended.isLocal written) event
      exact ⟨after, written.grows.trans grows, written.leaves.trans leaves, trivial⟩
  · have refuses : dispatcher.accepting = false := by simpa using accepts
    simp only [refuses, Bool.not_false, if_true, List.append_nil]
    exact ⟨tended, .refl _, .refl _, trivial⟩

theorem reapEach_tended (tended : Tended encode receipts log elsewhere routers world)
    (accepting : world.executor.accepting = true) (now : Millis) :
    Tended encode receipts log elsewhere (reapEach now routers world).2.1 (reapEach now routers world).2.2 ∧
      world.Extends (reapEach now routers world).2.2 ∧ world.KeepsWork (reapEach now routers world).2.2 := by
  induction routers generalizing world elsewhere with
  | nil => exact ⟨tended, .refl _, .refl _⟩
  | cons router rest ih =>
      obtain ⟨reaped, grew, left⟩ := Router.reapAt_tended tended accepting now
      simp only [reapEach]
      generalize router.reapAt now world = result at reaped grew left
      obtain ⟨keys, after, middle⟩ := result
      obtain ⟨behind, grows, leaves⟩ := ih reaped.tail (left.accepting.trans accepting)
      have sound := (reaped.sound after (List.mem_cons_self ..)).grows grows
      exact ⟨behind.cons sound, grew.trans grows, left.trans leaves⟩

theorem stopEach_tended (tended : Tended encode receipts log elsewhere routers world)
    (accepting : world.executor.accepting = true) :
    Tended encode receipts log elsewhere (stopEach routers world).2.1 (stopEach routers world).2.2 ∧
      world.Extends (stopEach routers world).2.2 ∧ world.KeepsWork (stopEach routers world).2.2 ∧
      ∀ router ∈ (stopEach routers world).2.1, router.registry.entries = [] := by
  induction routers generalizing world elsewhere with
  | nil => exact ⟨tended, .refl _, .refl _, by simp [stopEach]⟩
  | cons router rest ih =>
      obtain ⟨stopped, grew, left, empty⟩ := Router.stopAll_tended tended accepting
      simp only [stopEach]
      generalize router.stopAll world = result at stopped grew left empty
      obtain ⟨count, after, middle⟩ := result
      obtain ⟨behind, grows, leaves, none⟩ := ih stopped.tail (left.accepting.trans accepting)
      have sound := (stopped.sound after (List.mem_cons_self ..)).grows grows
      refine ⟨behind.cons sound, grew.trans grows, left.trans leaves, ?_⟩
      intro other member
      rcases List.mem_cons.mp member with rfl | old
      · exact empty
      · exact none other old

end Dispatcher

end KeyedLog
