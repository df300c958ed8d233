import KeyedLog.Proofs.Registry.Accounts
import Mathlib.Logic.Function.Iterate
import Mathlib.Logic.Relation

/-!
Threads that use one router at the same time. Each step is what a thread does under one lock; between two steps all other
threads may take any number of theirs. A thread that is alone does what the router does at once.
-/

namespace KeyedLog

/-- How the keys of a registry are spread over its locks. -/
structure Sharding where
  count : Nat
  shardOf : String → Nat
  within : ∀ key, shardOf key < count

def Sharding.whole : Sharding where
  count := 1
  shardOf _ := 0
  within _ := Nat.one_pos

/-- Where a thread stands, with what it has in hand. -/
inductive Stage where
  | idle
  | entering (event : Event) (now : Millis)
  | seeking (event : Event) (now : Millis)
  /-- It found nothing, and is about to look again and make the sink. -/
  | claiming (event : Event) (now : Millis)
  | holding (event : Event) (sink : SinkId)
  | leaving (sink : SinkId) (result : Except RouteFault RouteOutcome)
  | routed (result : Except RouteFault RouteOutcome)
  | scanning (now : Millis) (shard : Nat) (found : List String)
  /-- It is about to test the first of these keys again. -/
  | reaping (now : Millis) (keys : List String) (gone : List String)
  | reaped (gone : List String)
  | closing
  | listing (shard : Nat) (keys : List String)
  | stopping (keys : List String) (count : Nat)
  | stopped (count : Nat)

namespace Stage

def held? : Stage → Option SinkId
  | holding _ sink => some sink
  | leaving sink _ => some sink
  | _ => none

def isResting : Stage → Bool
  | idle => true
  | routed _ => true
  | reaped _ => true
  | stopped _ => true
  | _ => false

end Stage

inductive Deed where
  | made (placement : Placement)
  | wrote (sink : SinkId) (result : Except SinkFault Unit)
  | reaped (placement : Placement)
  | closed
  | ended (placement : Placement)
  | finished (count : Nat)
  deriving DecidableEq

namespace Deed

def made? : Deed → Option Placement
  | made placement => some placement
  | _ => none

def reaped? : Deed → Option Placement
  | reaped placement => some placement
  | _ => none

def stopped? : Deed → Option Placement
  | reaped placement => some placement
  | ended placement => some placement
  | _ => none

end Deed

structure Turnout where
  stage : Stage
  router : Router
  world : World
  deeds : List Deed := []

namespace Registry

def without (registry : Registry) (gone : List Registration) : Registry :=
  { registry with entries := registry.entries.filter fun entry => !gone.any (·.key == entry.key) }

structure Listed (registry : Registry) (gone : List Registration) : Prop where
  keys : registry.keys.Nodup
  distinct : (gone.map (·.key)).Nodup
  present : gone ⊆ registry.entries

variable {registry : Registry} {entry : Registration} {rest : List Registration}

theorem find?_of_mem (nodup : registry.keys.Nodup) (member : entry ∈ registry.entries) :
    registry.find? entry.key = some entry := by
  cases found : registry.find? entry.key with
  | none => exact absurd rfl (find?_none found entry member)
  | some other =>
      obtain ⟨present, named⟩ := find?_mem found
      exact congrArg some (List.inj_on_of_nodup_map nodup present member named)

theorem Listed.find?_head (listed : registry.Listed (entry :: rest)) : registry.find? entry.key = some entry :=
  find?_of_mem listed.keys (listed.present (List.mem_cons_self ..))

theorem Listed.tail (listed : registry.Listed (entry :: rest)) : (registry.remove entry.key).Listed rest := by
  have distinct := listed.distinct
  rw [List.map_cons, List.nodup_cons] at distinct
  refine ⟨listed.keys.sublist (List.filter_sublist.map _), distinct.2, ?_⟩
  intro other member
  refine List.mem_filter.mpr ⟨listed.present (List.mem_cons_of_mem _ member), ?_⟩
  have different : other.key ≠ entry.key := fun same => distinct.1 (same ▸ List.mem_map_of_mem member)
  simpa using different

theorem remove_without (registry : Registry) (entry : Registration) (rest : List Registration) :
    (registry.remove entry.key).without rest = registry.without (entry :: rest) := by
  simp only [remove, without, List.filter_filter]
  congr 2
  funext other
  rw [List.any_cons, Bool.not_or, Bool.and_comm, BEq.comm (a := entry.key)]
  rfl

theorem Listed.filter (nodup : registry.keys.Nodup) (test : Registration → Bool) :
    registry.Listed (registry.entries.filter test) :=
  ⟨nodup, nodup.sublist (List.filter_sublist.map _), List.filter_sublist.subset⟩

theorem without_filter (nodup : registry.keys.Nodup) (test : Registration → Bool) :
    registry.without (registry.entries.filter test) =
      { registry with entries := registry.entries.filter fun entry => !test entry } := by
  unfold without
  congr 1
  refine List.filter_congr fun entry member => ?_
  congr 1
  rw [Bool.eq_iff_iff, List.any_eq_true]
  constructor
  · rintro ⟨other, present, same⟩
    obtain ⟨there, passes⟩ := List.mem_filter.mp present
    rwa [List.inj_on_of_nodup_map nodup there member (eq_of_beq same)] at passes
  · intro passes
    exact ⟨entry, List.mem_filter.mpr ⟨member, passes⟩, beq_self_eq_true _⟩

end Registry

namespace Router

def seek (router : Router) (key : String) (now : Millis) : Option (SinkId × Router) :=
  (router.registry.find? key).map fun entry =>
    (entry.sink, { router with registry := (router.registry.touch key now).hold entry.sink })

def takeOut (router : Router) (entry : Registration) (world : World) : Router × World :=
  ({ router with registry := router.registry.remove entry.key }, world.stop entry.sink)

def step (shards : Sharding) (router : Router) (world : World) : Stage → Turnout
  | .entering event now =>
    if !router.discriminator.passes event then { stage := .routed (.ok .suppressed), router, world }
    else if router.registry.closed then { stage := .routed (.error (.stopped router.name)), router, world }
    else { stage := .seeking event now, router, world }
  | .seeking event now =>
    match router.seek (router.discriminator.extract event) now with
    | some (sink, router) => { stage := .holding event sink, router, world }
    | none => { stage := .claiming event now, router, world }
  | .claiming event now =>
    let key := router.discriminator.extract event
    match router.seek key now with
    | some (sink, router) => { stage := .holding event sink, router, world }
    | none =>
      if router.registry.closed then { stage := .routed (.error (.stopped router.name)), router, world }
      else
        match Factory.create router.name key (router.factory, world) with
        | (.error cause, factory, world) =>
          { stage := .routed (.error (.creation router.name key cause)), router := { router with factory }, world }
        | (.ok sink, factory, world) =>
          { stage := .holding event sink
            router := { router with factory, registry := (router.registry.register key sink now).hold sink }
            world
            deeds := [.made ⟨key, sink⟩] }
  | .holding event sink =>
    let (result, world) := world.write sink event
    let outcome := match result with
      | .error cause => .error (.write router.name (router.discriminator.extract event) cause)
      | .ok () => .ok .delivered
    { stage := .leaving sink outcome, router, world, deeds := [.wrote sink result] }
  | .leaving sink result =>
    { stage := .routed result, router := { router with registry := router.registry.release sink }, world }
  | .scanning now shard found =>
    if shard < shards.count then
      let idle := router.registry.entries.filter fun entry =>
        shards.shardOf entry.key == shard && router.registry.isExpired now router.idleTimeout entry
      { stage := .scanning now (shard + 1) (found ++ idle.map (·.key)), router, world }
    else { stage := .reaping now found [], router, world }
  | .reaping now (key :: keys) gone =>
    match router.registry.find? key with
    | none => { stage := .reaping now keys gone, router, world }
    | some entry =>
      if router.registry.isExpired now router.idleTimeout entry then
        let (router, world) := router.takeOut entry world
        { stage := .reaping now keys (gone ++ [key]), router, world, deeds := [.reaped entry.placement] }
      else { stage := .reaping now keys gone, router, world }
  | .reaping _ [] gone => { stage := .reaped gone, router, world }
  | .closing =>
    { stage := .listing 0 [], router := { router with registry := router.registry.close }, world, deeds := [.closed] }
  | .listing shard keys =>
    if shard < shards.count then
      let more := router.registry.keys.filter fun key => shards.shardOf key == shard
      { stage := .listing (shard + 1) (keys ++ more), router, world }
    else { stage := .stopping keys 0, router, world }
  | .stopping (key :: keys) count =>
    match router.registry.find? key with
    | none => { stage := .stopping keys count, router, world }
    | some entry =>
      let (router, world) := router.takeOut entry world
      { stage := .stopping keys (count + 1), router, world, deeds := [.ended entry.placement] }
  | .stopping [] count => { stage := .stopped count, router, world, deeds := [.finished count] }
  | resting => { stage := resting, router, world }

def alone (shards : Sharding) : Nat → Stage × Router × World → Stage × Router × World
  | 0, state => state
  | count + 1, (stage, router, world) =>
    let turnout := router.step shards world stage
    alone shards count (turnout.stage, turnout.router, turnout.world)

section Alone

variable {shards : Sharding} {router : Router} {world : World} {now : Millis}

theorem alone_succ (shards : Sharding) (count : Nat) (stage : Stage) (router : Router) (world : World) :
    alone shards (count + 1) (stage, router, world) = alone shards count ((router.step shards world stage).stage,
      (router.step shards world stage).router, (router.step shards world stage).world) := rfl

theorem alone_resting {stage : Stage} (resting : stage.isResting = true) (count : Nat) :
    alone shards count (stage, router, world) = (stage, router, world) := by
  induction count with
  | zero => rfl
  | succ count ih =>
      cases stage <;> first | exact ih | cases resting

theorem release_hold (registry : Registry) (sink : SinkId) : (registry.hold sink).release sink = registry := by
  simp [Registry.hold, Registry.release]

def deliver (router : Router) (event : Event) (sink : SinkId) (world : World) :
    Except RouteFault RouteOutcome × Router × World :=
  match world.write sink event with
  | (.error cause, world) => (.error (.write router.name (router.discriminator.extract event) cause), router, world)
  | (.ok (), world) => (.ok .delivered, router, world)

theorem alone_holding (router : Router) (world : World) (event : Event) (sink : SinkId) (count : Nat) :
    alone shards (count + 2) (.holding event sink, { router with registry := router.registry.hold sink }, world) =
      (.routed (router.deliver event sink world).1, (router.deliver event sink world).2) := by
  rw [alone_succ, alone_succ]
  unfold deliver
  cases written : world.write sink event with
  | mk result after => cases result <;> simp only [step, written, release_hold] <;> exact alone_resting rfl count

theorem alone_route (shards : Sharding) (router : Router) (world : World) (event : Event) :
    alone shards 5 (.entering event world.instant, router, world) =
      (.routed (router.route event world).1, (router.route event world).2) := by
  rw [alone_succ]
  cases passes : router.discriminator.passes event with
  | false =>
      simp only [step, route, passes, Bool.not_false, if_true]
      exact alone_resting rfl 4
  | true =>
      cases closed : router.registry.closed with
      | true =>
          simp only [step, route, resolve, Registry.getOrCreate, passes, closed, Bool.not_true, Bool.false_eq_true, if_false,
            if_true]
          exact alone_resting rfl 4
      | false =>
          simp only [step, route, resolve, Registry.getOrCreate, passes, closed, Bool.not_true, Bool.false_eq_true, if_false]
          rw [alone_succ]
          cases found : router.registry.find? (router.discriminator.extract event) with
          | some entry =>
              simp only [step, seek, found, Option.map_some]
              exact alone_holding { router with registry := router.registry.touch _ _ } world event entry.sink 1
          | none =>
              rw [alone_succ]
              simp only [step, seek, found, closed, Option.map_none, Bool.false_eq_true, if_false]
              obtain ⟨result, factory, opened⟩ := Factory.create router.name (router.discriminator.extract event)
                (router.factory, world)
              cases result with
              | error cause => exact alone_resting rfl 2
              | ok sink =>
                  exact alone_holding { router with factory, registry := router.registry.register _ sink _ } opened event sink
                    0

theorem alone_reaping (shards : Sharding) (router : Router) (world : World) {gone : List Registration}
    (listed : router.registry.Listed gone)
    (expired : ∀ entry ∈ gone, router.registry.isExpired now router.idleTimeout entry = true) (done : List String) :
    alone shards (gone.length + 1) (.reaping now (gone.map (·.key)) done, router, world) =
      (.reaped (done ++ gone.map (·.key)), { router with registry := router.registry.without gone }, stopEach gone world) := by
  induction gone generalizing router world done with
  | nil => simp [alone, step, Registry.without, stopEach]
  | cons entry rest ih =>
      rw [List.length_cons, alone_succ]
      simp only [List.map_cons, step, listed.find?_head, expired entry (List.mem_cons_self ..), if_true, takeOut]
      rw [ih { router with registry := router.registry.remove entry.key } (world.stop entry.sink) listed.tail
        (fun other member => expired other (List.mem_cons_of_mem _ member)), Registry.remove_without]
      simp [stopEach]

theorem alone_stopping (shards : Sharding) (router : Router) (world : World) {gone : List Registration}
    (listed : router.registry.Listed gone) (count : Nat) :
    alone shards (gone.length + 1) (.stopping (gone.map (·.key)) count, router, world) =
      (.stopped (count + gone.length), { router with registry := router.registry.without gone }, stopEach gone world) := by
  induction gone generalizing router world count with
  | nil => simp [alone, step, Registry.without, stopEach]
  | cons entry rest ih =>
      rw [List.length_cons, alone_succ]
      simp only [List.map_cons, step, listed.find?_head, takeOut]
      rw [ih { router with registry := router.registry.remove entry.key } (world.stop entry.sink) listed.tail,
        Registry.remove_without]
      simp [stopEach, Nat.add_assoc, Nat.add_comm 1]

theorem alone_reap (nodup : router.registry.keys.Nodup) (now : Millis) (world : World) :
    alone .whole ((router.reapAt now world).1.length + 3) (.scanning now 0 [], router, world) =
      (.reaped (router.reapAt now world).1, (router.reapAt now world).2) := by
  have listed := Registry.Listed.filter nodup (router.registry.isExpired now router.idleTimeout)
  have reaping := alone_reaping .whole router world listed
    (fun entry member => (List.mem_filter.mp member).2) []
  rw [Registry.without_filter nodup] at reaping
  simp only [reapAt, Registry.expire_eq, List.length_map]
  rw [alone_succ, alone_succ]
  simpa [step, Sharding.whole] using reaping

theorem alone_stopAll (nodup : router.registry.keys.Nodup) (world : World) :
    alone .whole ((router.stopAll world).1 + 4) (.closing, router, world) =
      (.stopped (router.stopAll world).1, (router.stopAll world).2) := by
  have distinct : router.registry.close.keys.Nodup := nodup
  have stopping := alone_stopping .whole { router with registry := router.registry.close } world
    (Registry.Listed.filter distinct fun _ => true) 0
  rw [Registry.without_filter distinct] at stopping
  simp only [stopAll, Registry.drain]
  rw [alone_succ, alone_succ, alone_succ]
  simpa [step, Sharding.whole, Registry.close, Registry.keys] using stopping

end Alone

end Router

inductive Errand where
  | route (event : Event) (now : Millis)
  | reap (now : Millis)
  | stopAll

def Errand.stage : Errand → Stage
  | route event now => .entering event now
  | reap now => .scanning now 0 []
  | stopAll => .closing

/-- A router, the threads that use it, and what they have done. -/
structure Traffic where
  router : Router
  world : World
  threads : List Stage
  log : List Deed := []

namespace Traffic

def start (router : Router) (world : World) (count : Nat) : Traffic :=
  { router := { router with registry := {} }, world, threads := List.replicate count .idle }

def made (traffic : Traffic) : List Placement :=
  traffic.log.filterMap Deed.made?

def stops (traffic : Traffic) : List Placement :=
  traffic.log.filterMap Deed.stopped?

def reaps (traffic : Traffic) : List Placement :=
  traffic.log.filterMap Deed.reaped?

def held (traffic : Traffic) : List SinkId :=
  traffic.threads.filterMap Stage.held?

def turn (traffic : Traffic) (before after : List Stage) (turnout : Turnout) : Traffic where
  router := turnout.router
  world := turnout.world
  threads := before ++ turnout.stage :: after
  log := traffic.log ++ turnout.deeds

/-- One step of a run. -/
inductive Step (shards : Sharding) : Traffic → Traffic → Prop where
  | call (traffic : Traffic) (before : List Stage) (stage : Stage) (after : List Stage) (errand : Errand)
      (split : traffic.threads = before ++ stage :: after) (resting : stage.isResting = true) :
      Step shards traffic { traffic with threads := before ++ errand.stage :: after }
  | advance (traffic : Traffic) (before : List Stage) (stage : Stage) (after : List Stage)
      (split : traffic.threads = before ++ stage :: after) :
      Step shards traffic (traffic.turn before after (traffic.router.step shards traffic.world stage))
  | elsewhere (traffic : Traffic) (world : World) (spares : traffic.world.Spares world (traffic.made.map (·.sink))) :
      Step shards traffic { traffic with world }

abbrev Run (shards : Sharding) : Traffic → Traffic → Prop :=
  Relation.ReflTransGen (Step shards)

inductive Cue where
  | call (thread : Nat) (errand : Errand)
  | advance (thread : Nat)

def follow (shards : Sharding) (traffic : Traffic) : Cue → Traffic
  | .call thread errand =>
    match traffic.threads[thread]? with
    | none => traffic
    | some stage =>
      if stage.isResting then
        { traffic with threads := traffic.threads.take thread ++ errand.stage :: traffic.threads.drop (thread + 1) }
      else traffic
  | .advance thread =>
    match traffic.threads[thread]? with
    | none => traffic
    | some stage =>
      traffic.turn (traffic.threads.take thread) (traffic.threads.drop (thread + 1))
        (traffic.router.step shards traffic.world stage)

theorem split_at {threads : List Stage} {thread : Nat} {stage : Stage} (there : threads[thread]? = some stage) :
    threads = threads.take thread ++ stage :: threads.drop (thread + 1) := by
  obtain ⟨bound, rfl⟩ := List.getElem?_eq_some_iff.mp there
  rw [← List.drop_eq_getElem_cons bound, List.take_append_drop]

theorem run_follow (shards : Sharding) (traffic : Traffic) (cue : Cue) : Run shards traffic (traffic.follow shards cue) := by
  cases cue with
  | call thread errand =>
      rw [follow]
      split
      · exact .refl
      next there =>
        split
        next resting => exact .single (.call traffic _ _ _ errand (split_at there) resting)
        · exact .refl
  | advance thread =>
      rw [follow]
      split
      · exact .refl
      next there => exact .single (.advance traffic _ _ _ (split_at there))

theorem run_foldl (shards : Sharding) (traffic : Traffic) (cues : List Cue) :
    Run shards traffic (cues.foldl (follow shards) traffic) := by
  induction cues generalizing traffic with
  | nil => exact .refl
  | cons first rest ih => exact (run_follow shards traffic first).trans (ih _)

end Traffic

end KeyedLog
