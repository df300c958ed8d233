import KeyedLog.Dispatcher
import KeyedLog.Proofs.Router.Answers
import KeyedLog.Proofs.Sink.Ownership
import Mathlib.Logic.Relation

/-!
Files keep their owners. Whatever routers do, it is a run of writing to sinks, stopping and making them, and a run that
ends with no file of a sink at or below an archive leaves every open file to those whose paths lead to it.
-/

namespace KeyedLog

open FileTree

namespace World

inductive Acts : World → World → Prop where
  | write (world : World) (id : SinkId) (event : Event) : Acts world (world.write id event).2
  | stop (world : World) (id : SinkId) : Acts world (world.stop id)
  | create (world : World) (factory : Factory) (router key : String) :
      Acts world (Factory.create router key (factory, world)).2.2
  | wait (world : World) (instant : Millis) (timestamp : Nat) : Acts world { world with instant, timestamp }

abbrev Run : World → World → Prop :=
  Relation.ReflTransGen Acts

variable {region : Location → Prop} {before after : World}

theorem Acts.keepsPaths (acts : Acts before after) : before.KeepsPaths after := by
  cases acts with
  | write id event => exact before.write_keepsPaths id event
  | stop id => exact before.stop_keepsPaths id
  | create factory router key => exact factory.create_keepsPaths router key before
  | wait instant timestamp => exact keepsPaths_of_sinks rfl rfl

theorem Acts.advances (acts : Acts before after) (sited : before.IsSited region) (numbered : before.files.IsNumbered) :
    ∃ path, before.Advances region path after := by
  cases acts with
  | write id event => exact write_advances sited numbered id event
  | stop id => exact ⟨"", before.stop_advances id ""⟩
  | create factory router key => exact factory.create_advances router key numbered
  | wait instant timestamp => exact ⟨"", .refl _, .refl _, fun _ _ holds => .inl holds⟩

/-- Files keep their owners in a run at whose end no sink has a path at or below an archive. -/
theorem Owns.run (run : Run before after) (owns : before.Owns) (sited : after.IsSited region) : after.Owns := by
  induction run with
  | refl => exact owns
  -- Sinks never lose their paths, so a world in the middle of the run is sited because the last one is.
  | tail _ acts ih =>
      have middle := sited.earlier acts.keepsPaths
      have owned := ih middle
      obtain ⟨path, advances⟩ := acts.advances middle owned.numbered
      exact owned.advance middle acts.keepsPaths advances

theorem owns_of_closed {world : World} (numbered : world.files.IsNumbered) (closed : ∀ id, world.openFile? id = none) :
    world.Owns := by
  refine ⟨numbered, ?_, ?_, ?_⟩
  · intro id file holds
    simp [closed] at holds
  · intro id path file _ holds
    simp [closed] at holds
  · intro one two first second file _ _ holds
    simp [closed] at holds

end World

namespace Router

variable {world : World}

theorem resolve_run (router : Router) (key : String) (world : World) :
    world.Run (router.resolve key world).2.2 := by
  have created := World.Acts.create world router.factory router.name key
  refine resolve_cases router key world (fun _ => .refl) (fun _ _ _ => .refl) ?_ ?_
  · intro fault factory next _ _ failed
    rw [failed] at created
    exact .single created
  · intro id factory next _ _ made
    rw [made] at created
    exact .single created

theorem route_run (router : Router) (event : Event) (world : World) : world.Run (router.route event world).2.2 := by
  have resolved := router.resolve_run (router.discriminator.extract event) world
  refine route_cases router event world (fun _ => .refl) ?_ ?_
  · intro fault after next _ outcome
    rwa [outcome] at resolved
  · intro id after next _ outcome
    rw [outcome] at resolved
    exact resolved.tail (.write next id event)

theorem stopEach_run (entries : List Registration) (world : World) : world.Run (stopEach entries world) := by
  induction entries generalizing world with
  | nil => exact .refl
  | cons entry rest ih => exact (Relation.ReflTransGen.single (.stop world entry.sink)).trans (ih _)

theorem reapAt_run (router : Router) (now : Millis) (world : World) : world.Run (router.reapAt now world).2.2 :=
  stopEach_run _ world

end Router

namespace Dispatcher

theorem routeAll_run (event : Event) (routers : List Router) (world : World) :
    world.Run (routeAll event routers world).2.2 := by
  induction routers generalizing world with
  | nil => exact .refl
  | cons router rest ih =>
      have routed := (router.route_run event world).trans (ih _)
      unfold routeAll
      dsimp only
      split <;> exact routed

theorem writePlatform_run (dispatcher : Dispatcher) (event : Event) (world : World) :
    world.Run (dispatcher.writePlatform event world).2 := by
  unfold writePlatform
  split
  · exact .refl
  next id _ =>
    have written := World.Acts.write world id event
    split
    next outcome =>
      rw [outcome] at written
      exact .single written
    next outcome =>
      rw [outcome] at written
      exact .single written

theorem dispatch_run (dispatcher : Dispatcher) (event : Event) (world : World) :
    world.Run (dispatcher.dispatch event world).2.2 := by
  unfold dispatch
  split
  · exact .refl
  · split
    · exact .refl
    · exact (dispatcher.writePlatform_run event world).trans (routeAll_run event _ _)

theorem reapEach_run (now : Millis) (routers : List Router) (world : World) :
    world.Run (reapEach now routers world).2.2 := by
  induction routers generalizing world with
  | nil => exact .refl
  | cons router rest ih => exact (router.reapAt_run now world).trans (ih _)

theorem onRouter_run {α : Type} (dispatcher : Dispatcher) (name : String) (world : World)
    {change : Router → World → α × Router × World} (runs : ∀ router, world.Run (change router world).2.2) :
    world.Run (dispatcher.onRouter name world change).2.2 := by
  unfold onRouter
  split
  · exact .refl
  · split
    · exact .refl
    · exact runs _

end Dispatcher

end KeyedLog
