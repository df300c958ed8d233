import KeyedLog.Router

/-! Handing every event to all destinations. A destination that fails is in no other's way. -/

namespace KeyedLog

inductive DispatchFault where
  | platform (cause : SinkFault)
  | route (cause : RouteFault)
  | closed
  deriving DecidableEq, Repr

def DispatchFault.message : DispatchFault → String
  | platform cause => "platform sink: " ++ cause.message
  | route cause => cause.message
  | closed => "dispatcher is closed"

structure Dispatcher where
  platform : Option SinkId := none
  routers : List Router := []
  minLevel : Level := default
  accepting : Bool := true

namespace Dispatcher

def close (dispatcher : Dispatcher) : Bool × Dispatcher :=
  (dispatcher.accepting, { dispatcher with accepting := false })

def routeAll (event : Event) : List Router → World → List DispatchFault × List Router × World
  | [], world => ([], [], world)
  | router :: rest, world =>
    let (result, router, world) := router.route event world
    let (faults, routers, world) := routeAll event rest world
    match result with
    | .error fault => (.route fault :: faults, router :: routers, world)
    | .ok _ => (faults, router :: routers, world)

def writePlatform (dispatcher : Dispatcher) (event : Event) (world : World) : List DispatchFault × World :=
  match dispatcher.platform with
  | none => ([], world)
  | some sink =>
    match world.write sink event with
    | (.error cause, world) => ([.platform cause], world)
    | (.ok (), world) => ([], world)

/-- Hand an event to all destinations. The result is the failures, in the order of the destinations. -/
def dispatch (dispatcher : Dispatcher) (event : Event) (world : World) :
    List DispatchFault × Dispatcher × World :=
  if !dispatcher.accepting then ([.closed], dispatcher, world)
  else if event.level < dispatcher.minLevel then ([], dispatcher, world)
  else
    -- A failure at one destination keeps no other from receiving the event.
    let (first, world) := dispatcher.writePlatform event world
    let (rest, routers, world) := routeAll event dispatcher.routers world
    (first ++ rest, { dispatcher with routers }, world)

def onRouter {α : Type} (dispatcher : Dispatcher) (name : String) (world : World)
    (change : Router → World → α × Router × World) : Option α × Dispatcher × World :=
  match dispatcher.routers.findIdx? fun router => router.name == name with
  | none => (none, dispatcher, world)
  | some index =>
    match dispatcher.routers[index]? with
    | none => (none, dispatcher, world)
    | some router =>
      let (result, router, world) := change router world
      (some result, { dispatcher with routers := dispatcher.routers.set index router }, world)

def reapEach (now : Millis) : List Router → World → Nat × List Router × World
  | [], world => (0, [], world)
  | router :: rest, world =>
    let (keys, router, world) := router.reapAt now world
    let (count, routers, world) := reapEach now rest world
    (keys.length + count, router :: routers, world)

def reap (dispatcher : Dispatcher) (world : World) : Nat × Dispatcher × World :=
  let (count, routers, world) := reapEach world.instant dispatcher.routers world
  (count, { dispatcher with routers }, world)

def stopEach : List Router → World → Nat × List Router × World
  | [], world => (0, [], world)
  | router :: rest, world =>
    let (count, router, world) := router.stopAll world
    let (more, routers, world) := stopEach rest world
    (count + more, router :: routers, world)

def stopRouters (dispatcher : Dispatcher) (world : World) : Nat × Dispatcher × World :=
  let (count, routers, world) := stopEach dispatcher.routers world
  (count, { dispatcher with routers }, world)

/-- The time between two passes over idle sinks that suits the routers: a quarter of the shortest idle timeout,
but at least a second and at most a minute. -/
def reapInterval (routers : List Router) : Millis :=
  let shortest := ((routers.map (·.idleTimeout)).min?).getD 60000
  min (max (shortest / 4) 1000) 60000

end Dispatcher

end KeyedLog
