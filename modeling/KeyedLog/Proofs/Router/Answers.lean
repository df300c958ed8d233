import KeyedLog.Router

/-!
How resolving a key and routing an event end. What a router does with an event is told by these cases alone.
-/

namespace KeyedLog

namespace Router

variable {router : Router} {world next : World} {key : String} {event : Event} {factory : Factory}

theorem resolve_closed (closed : router.registry.closed = true) (key : String) (world : World) :
    router.resolve key world = (.error (.stopped router.name), router, world) := by
  simp only [resolve, Registry.getOrCreate, closed, if_true]

theorem resolve_found {entry : Registration} (accepting : router.registry.closed = false)
    (found : router.registry.find? key = some entry) :
    router.resolve key world =
      (.ok entry.sink, { router with registry := router.registry.touch key world.instant }, world) := by
  simp only [resolve, Registry.getOrCreate, accepting, found, Bool.false_eq_true, if_false]

theorem resolve_failed {fault : SinkFault} (accepting : router.registry.closed = false)
    (missing : router.registry.find? key = none)
    (failed : Factory.create router.name key (router.factory, world) = (.error fault, factory, next)) :
    router.resolve key world = (.error (.creation router.name key fault), { router with factory }, next) := by
  simp only [resolve, Registry.getOrCreate, accepting, missing, failed, Bool.false_eq_true, if_false]

theorem resolve_made {id : SinkId} (accepting : router.registry.closed = false)
    (missing : router.registry.find? key = none)
    (made : Factory.create router.name key (router.factory, world) = (.ok id, factory, next)) :
    router.resolve key world =
      (.ok id, { router with registry := router.registry.register key id world.instant, factory }, next) := by
  simp only [resolve, Registry.getOrCreate, accepting, missing, made, Bool.false_eq_true, if_false]

@[elab_as_elim]
theorem resolve_cases {motive : Except RouteFault SinkId × Router × World → Prop} (router : Router) (key : String)
    (world : World)
    (closed : router.registry.closed = true → motive (.error (.stopped router.name), router, world))
    (found : ∀ entry, router.registry.closed = false → router.registry.find? key = some entry →
      motive (.ok entry.sink, { router with registry := router.registry.touch key world.instant }, world))
    (failed : ∀ fault factory next, router.registry.closed = false → router.registry.find? key = none →
      Factory.create router.name key (router.factory, world) = (.error fault, factory, next) →
        motive (.error (.creation router.name key fault), { router with factory }, next))
    (made : ∀ id factory next, router.registry.closed = false → router.registry.find? key = none →
      Factory.create router.name key (router.factory, world) = (.ok id, factory, next) →
        motive (.ok id, { router with registry := router.registry.register key id world.instant, factory }, next)) :
    motive (router.resolve key world) := by
  cases stopped : router.registry.closed with
  | true =>
      rw [resolve_closed stopped]
      exact closed stopped
  | false =>
      cases present : router.registry.find? key with
      | some entry =>
          rw [resolve_found stopped present]
          exact found entry stopped present
      | none =>
          obtain ⟨⟨answer, factory, next⟩, created⟩ :
            ∃ outcome, Factory.create router.name key (router.factory, world) = outcome := ⟨_, rfl⟩
          cases answer with
          | error fault =>
              rw [resolve_failed stopped present created]
              exact failed fault factory next stopped present created
          | ok id =>
              rw [resolve_made stopped present created]
              exact made id factory next stopped present created

theorem route_suppressed (blank : router.discriminator.passes event = false) (world : World) :
    router.route event world = (.ok .suppressed, router, world) := by
  simp [route, blank]

theorem route_unresolved {after : Router} {fault : RouteFault} (passes : router.discriminator.passes event = true)
    (resolved : router.resolve (router.discriminator.extract event) world = (.error fault, after, next)) :
    router.route event world = (.error fault, after, next) := by
  simp only [route, passes, resolved, Bool.not_true, Bool.false_eq_true, if_false]

theorem route_resolved {after : Router} {id : SinkId} (passes : router.discriminator.passes event = true)
    (resolved : router.resolve (router.discriminator.extract event) world = (.ok id, after, next)) :
    router.route event world =
      ((match (next.write id event).1 with
        | .error cause => .error (.write after.name (router.discriminator.extract event) cause)
        | .ok () => .ok .delivered), after, (next.write id event).2) := by
  simp only [route, passes, resolved, Bool.not_true, Bool.false_eq_true, if_false]
  obtain ⟨answer, written⟩ := next.write id event
  cases answer <;> rfl

@[elab_as_elim]
theorem route_cases {motive : Except RouteFault RouteOutcome × Router × World → Prop} (router : Router) (event : Event)
    (world : World)
    (suppressed : router.discriminator.passes event = false → motive (.ok .suppressed, router, world))
    (unresolved : ∀ fault after next, router.discriminator.passes event = true →
      router.resolve (router.discriminator.extract event) world = (.error fault, after, next) →
        motive (.error fault, after, next))
    (resolved : ∀ id after next, router.discriminator.passes event = true →
      router.resolve (router.discriminator.extract event) world = (.ok id, after, next) →
        motive ((match (next.write id event).1 with
          | .error cause => .error (.write after.name (router.discriminator.extract event) cause)
          | .ok () => .ok .delivered), after, (next.write id event).2)) :
    motive (router.route event world) := by
  cases passes : router.discriminator.passes event with
  | false =>
      rw [route_suppressed passes]
      exact suppressed passes
  | true =>
      obtain ⟨⟨answer, after, next⟩, outcome⟩ :
        ∃ outcome, router.resolve (router.discriminator.extract event) world = outcome := ⟨_, rfl⟩
      cases answer with
      | error fault =>
          rw [route_unresolved passes outcome]
          exact unresolved fault after next passes outcome
      | ok id =>
          rw [route_resolved passes outcome]
          exact resolved id after next passes outcome

end Router

end KeyedLog
