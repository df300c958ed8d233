import KeyedLog.Registry
import KeyedLog.Text
import KeyedLog.World

/-!
Routing events by one of their context entries. Each key has a sink of its own, which is made when the first
event with that key comes.
-/

namespace KeyedLog

structure RecordingFactory where
  refused : List String := []
  /-- Keys for which no sink is made the first times, and how often. -/
  postponed : List (String × Nat) := []
  broken : List String := []
  refusal : String := ""
  requests : List String := []
  deriving DecidableEq, Repr

inductive Factory where
  | localApplication (fileName : String) (policy : RollingPolicy) (encode : Event → Bytes)
  /-- The file that the key names, or the one of this name in the directory that it names. -/
  | localJob (fileName : String) (encode : Event → Bytes)
  | cloud (type : DocumentType) (retry : RetryPolicy) (encode : Event → Bytes)
  | recording (factory : RecordingFactory)

namespace Factory

def adopt {σ : Type} (world : World) (wrap : σ → Sink) :
    EStateM.Result SinkFault FileTree σ → Except SinkFault SinkId × World
  | .ok sink files =>
    let (id, world) := (world.setFiles files).addSink (wrap sink)
    (.ok id, world)
  | .error fault files => (.error fault, world.setFiles files)

def createRecording (factory : RecordingFactory) (router key : String) (world : World) :
    Except SinkFault SinkId × World :=
  if factory.refused.contains key then (.error (.invalidKey key "refused"), world)
  else if factory.requests.count key < ((factory.postponed.lookup key).getD 0) then
    (.error (.invalidKey key "not yet"), world)
  else
    let refusal := if factory.broken.contains key then some factory.refusal else none
    let (id, world) := world.addSink (.recording { name := router ++ "/" ++ key, refusal })
    (.ok id, world)

def create (router key : String) : Factory × World → Except SinkFault SinkId × Factory × World
  | (factory@(.localApplication fileName policy encode), world) =>
    let (result, world) := adopt world .rotating
      (RotatingSink.openAt (key ++ "-local") (Path.join key fileName) policy encode world.files)
    (result, factory, world)
  | (factory@(.localJob fileName encode), world) =>
    let (result, world) := adopt world .file
      (FileSink.openAt (key ++ "-local") (FileSink.jobLogPath world.files key fileName) encode world.files)
    (result, factory, world)
  | (factory@(.cloud type retry encode), world) =>
    match StorageKey.base key with
    | .error fault => (.error fault, factory, world)
    | .ok base =>
      let (id, world) := world.addRemote (router ++ "-" ++ key) base type retry encode
      (.ok id, factory, world)
  | (.recording factory, world) =>
    let (result, world) := createRecording factory router key world
    (result, .recording { factory with requests := key :: factory.requests }, world)

end Factory

inductive RouteFault where
  /-- The sink could not be made. The next event with the key tries again. -/
  | creation (router key : String) (cause : SinkFault)
  | write (router key : String) (cause : SinkFault)
  | stopped (router : String)
  deriving DecidableEq, Repr

def RouteFault.message : RouteFault → String
  | creation router key cause =>
    "router " ++ router ++ ": cannot create sink for key " ++ Quoted.quote key ++ ": " ++ cause.message
  | write router key cause =>
    "router " ++ router ++ ": write to sink for key " ++ Quoted.quote key ++ " failed: " ++ cause.message
  | stopped router => "router " ++ router ++ " is stopped"

inductive RouteOutcome where
  | suppressed
  | delivered
  deriving DecidableEq, Repr

structure Discriminator where
  keyName : String
  deriving DecidableEq, Repr

namespace Discriminator

def extract (discriminator : Discriminator) (event : Event) : String :=
  (event.contextValue? discriminator.keyName).getD ""

def passes (discriminator : Discriminator) (event : Event) : Bool :=
  !Text.isBlank (discriminator.extract event)

end Discriminator

structure Router where
  name : String
  discriminator : Discriminator
  factory : Factory
  idleTimeout : Millis := 900000
  registry : Registry := {}

namespace Router

def resolve (router : Router) (key : String) (world : World) :
    Except RouteFault SinkId × Router × World :=
  let (result, registry, factory, world) := router.registry.getOrCreate key world.instant
    (Factory.create router.name key) (router.factory, world)
  let router := { router with registry, factory }
  match result with
  | .error cause => (.error (.creation router.name key cause), router, world)
  | .ok none => (.error (.stopped router.name), router, world)
  | .ok (some resolved) => (.ok resolved.sink, router, world)

def route (router : Router) (event : Event) (world : World) :
    Except RouteFault RouteOutcome × Router × World :=
  if !router.discriminator.passes event then (.ok .suppressed, router, world)
  else
    let key := router.discriminator.extract event
    match router.resolve key world with
    | (.error fault, router, world) => (.error fault, router, world)
    | (.ok sink, router, world) =>
      match world.write sink event with
      | (.error cause, world) => (.error (.write router.name key cause), router, world)
      | (.ok (), world) => (.ok .delivered, router, world)

def stopEach (entries : List Registration) (world : World) : World :=
  entries.foldl (fun world entry => world.stop entry.sink) world

/-- Stop the sinks that at an instant have not been used for too long, and forget them. The result is their
keys. -/
def reapAt (router : Router) (now : Millis) (world : World) : List String × Router × World :=
  let (expired, registry) := router.registry.expire now router.idleTimeout
  (expired.map (·.key), { router with registry }, stopEach expired world)

def stopAll (router : Router) (world : World) : Nat × Router × World :=
  let (entries, registry) := router.registry.drain
  (entries.length, { router with registry }, stopEach entries world)

def liveSinks (router : Router) : Nat :=
  router.registry.size

def isStopped (router : Router) : Bool :=
  router.registry.closed

def describe (router : Router) : String :=
  "SiftingRouter \x7b name: " ++ Quoted.quote router.name ++ ", key_name: " ++
    Quoted.quote router.discriminator.keyName ++ ", idle_timeout: " ++ router.idleTimeout.describe ++
    ", registry: " ++ router.registry.describe ++ " \x7d"

end Router

end KeyedLog
