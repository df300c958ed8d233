import KeyedLog.Dispatcher
import KeyedLog.Proofs.Router.Solo

/-!
The recipients of a dispatcher, each by itself. What dispatching an event comes to is what they come to one after the
other.
-/

namespace KeyedLog

/-- What receives the events of a dispatcher. -/
inductive Recipient where
  | platform (sink : SinkId)
  | router (router : Router)

def World.pending? (world : World) (id : SinkId) : Option (List Bytes) :=
  (world.remote? id).bind fun sink => (sink.buffer? world.uploads).map (·.pending)

namespace Recipient

def deliver (event : Event) : Recipient → World → List DispatchFault × Recipient × World
  | platform sink, world =>
    match world.write sink event with
    | (.error cause, world) => ([.platform cause], .platform sink, world)
    | (.ok (), world) => ([], .platform sink, world)
  | router its, world =>
    let (result, its, world) := its.route event world
    match result with
    | .error fault => ([.route fault], .router its, world)
    | .ok _ => ([], .router its, world)

def sinks : Recipient → List SinkId
  | platform sink => [sink]
  | router its => its.sinks

/-- The key that an event has for a recipient. -/
def key? (event : Event) : Recipient → Option String
  | platform _ => none
  | router its => if its.discriminator.passes event then some (its.discriminator.extract event) else none

def liveKeys : Recipient → List (String × Millis)
  | platform _ => []
  | router its => its.registry.entries.map fun entry => (entry.key, entry.lastUsed)

def pending (world : World) (recipient : Recipient) : List (Option (List Bytes)) :=
  recipient.sinks.map world.pending?

end Recipient

namespace Dispatcher

def recipients (dispatcher : Dispatcher) : List Recipient :=
  dispatcher.platform.toList.map .platform ++ dispatcher.routers.map .router

def only (dispatcher : Dispatcher) : Recipient → Dispatcher
  | .platform sink => { dispatcher with platform := some sink, routers := [] }
  | .router router => { dispatcher with platform := none, routers := [router] }

def dispatchAll (dispatcher : Dispatcher) (world : World) :
    List (Millis × Event) → List (List DispatchFault) × Dispatcher × World
  | [] => ([], dispatcher, world)
  | (instant, event) :: rest =>
    let (faults, dispatcher, world) := dispatcher.dispatch event { world with instant }
    let (later, dispatcher, world) := dispatcher.dispatchAll world rest
    (faults :: later, dispatcher, world)

def deliverAll (event : Event) : List Recipient → World → List DispatchFault × List Recipient × World
  | [], world => ([], [], world)
  | first :: rest, world =>
    let (faults, first, world) := first.deliver event world
    let (more, rest, world) := deliverAll event rest world
    (faults ++ more, first :: rest, world)

variable {dispatcher : Dispatcher} {event : Event} {world : World}

theorem recipients_only (dispatcher : Dispatcher) (recipient : Recipient) :
    (dispatcher.only recipient).recipients = [recipient] := by
  cases recipient <;> rfl

@[simp] theorem only_accepting (dispatcher : Dispatcher) (recipient : Recipient) :
    (dispatcher.only recipient).accepting = dispatcher.accepting := by
  cases recipient <;> rfl

@[simp] theorem only_minLevel (dispatcher : Dispatcher) (recipient : Recipient) :
    (dispatcher.only recipient).minLevel = dispatcher.minLevel := by
  cases recipient <;> rfl

theorem deliverAll_routers (event : Event) (routers : List Router) (world : World) :
    deliverAll event (routers.map .router) world =
      ((routeAll event routers world).1, (routeAll event routers world).2.1.map .router, (routeAll event routers world).2.2) := by
  induction routers generalizing world with
  | nil => rfl
  | cons router rest ih =>
      simp only [List.map_cons, deliverAll, Recipient.deliver, routeAll]
      generalize router.route event world = routed
      obtain ⟨result, after, next⟩ := routed
      cases result <;> simp [ih]

theorem dispatch_closed (closed : dispatcher.accepting = false) (event : Event) (world : World) :
    dispatcher.dispatch event world = ([.closed], dispatcher, world) := by
  simp [dispatch, closed]

theorem dispatch_low (accepting : dispatcher.accepting = true) (low : event.level < dispatcher.minLevel) (world : World) :
    dispatcher.dispatch event world = ([], dispatcher, world) := by
  simp [dispatch, accepting, low]

theorem dispatch_delivers (accepting : dispatcher.accepting = true) (high : ¬ event.level < dispatcher.minLevel)
    (world : World) : ∃ platform routers, dispatcher.dispatch event world =
        ((deliverAll event dispatcher.recipients world).1, { dispatcher with platform, routers },
          (deliverAll event dispatcher.recipients world).2.2) ∧
      ({ dispatcher with platform, routers } : Dispatcher).recipients =
        (deliverAll event dispatcher.recipients world).2.1 := by
  simp only [dispatch, accepting, Bool.not_true, Bool.false_eq_true, if_false, high, writePlatform, recipients]
  cases platform : dispatcher.platform with
  | none =>
      refine ⟨none, (routeAll event dispatcher.routers world).2.1, ?_, ?_⟩
      · simp [deliverAll_routers]
      · simp [deliverAll_routers]
  | some sink =>
      simp only [Option.toList_some, List.map_cons, List.map_nil, List.cons_append, List.nil_append, deliverAll,
        Recipient.deliver, deliverAll_routers]
      generalize world.write sink event = written
      obtain ⟨result, next⟩ := written
      refine ⟨some sink, (routeAll event dispatcher.routers next).2.1, ?_⟩
      cases result <;> simp

/-- The only recipient of a dispatcher receives every event that is not below its level. -/
theorem dispatch_only {recipient : Recipient} (accepting : dispatcher.accepting = true)
    (high : ¬ event.level < dispatcher.minLevel) (world : World) :
    (dispatcher.only recipient).dispatch event world =
      ((recipient.deliver event world).1, dispatcher.only (recipient.deliver event world).2.1,
        (recipient.deliver event world).2.2) := by
  cases recipient with
  | platform sink =>
      simp only [only, dispatch, accepting, Bool.not_true, Bool.false_eq_true, if_false, high, writePlatform, routeAll,
        Recipient.deliver]
      generalize world.write sink event = written
      obtain ⟨result, next⟩ := written
      cases result <;> rfl
  | router its =>
      simp only [only, dispatch, accepting, Bool.not_true, Bool.false_eq_true, if_false, high, writePlatform, routeAll,
        Recipient.deliver, List.nil_append]
      generalize its.route event world = routed
      obtain ⟨result, after, next⟩ := routed
      cases result <;> rfl

end Dispatcher

end KeyedLog
