import KeyedLog.Config.Validation
import KeyedLog.Engine

/-! All destinations of a configuration as one service: how it starts, and how it stops in order. -/

namespace KeyedLog

inductive StartFault where
  | invalidConfig (violations : List Config.Violation)
  | noBackground
  | missingStore
  | tooManyFlushes (count : UInt64)
  deriving DecidableEq, Repr

def StartFault.message : StartFault → String
  | invalidConfig violations =>
    "invalid configuration: [" ++ ", ".intercalate (violations.map Config.Violation.describe) ++ "]"
  | noBackground => "nothing can do work in the background"
  | missingStore => "remote destinations are enabled but no object store was provided"
  | tooManyFlushes count => count.toNat.repr ++ " flushes cannot run at once"

structure Surroundings where
  files : FileTree
  store : Option ObjectStore := none
  hasBackground : Bool := true
  timestamp : Nat := 0

structure ShutdownReport where
  sinksStopped : Nat
  drain : Option DrainReport
  deriving DecidableEq, Repr

structure Service where
  config : Config
  engine : Engine
  report : Option ShutdownReport := none

namespace Service

def platformName : String := "platform"

def factory (config : Config) : Destination → Factory
  | .localApplication =>
    .localApplication config.localFiles.fileName
      ⟨config.localFiles.maxFileSize.bytes.toNat, config.localFiles.maxArchiveWindows.toNat⟩
      config.lifecycle.encoding.encode
  | .localJob => .localJob config.localFiles.fileName config.lifecycle.encoding.encode
  | .cloudApplication => .cloud .applicationLogs config.remote.retry.policy config.lifecycle.encoding.encode
  | .cloudJob => .cloud .jobLogs config.remote.retry.policy config.lifecycle.encoding.encode

def router (config : Config) (destination : Destination) : Router where
  name := destination.routerName
  discriminator := ⟨config.routes.key destination⟩
  factory := factory config destination
  idleTimeout := config.router.idleTimeout

def routers (config : Config) : List Router :=
  (Destination.all.filter fun destination => config.remote.enabled || !destination.isRemote).map (router config)

def remoteParts (config : Config) (store : Option ObjectStore) : Except StartFault (Executor × ObjectStore) :=
  if config.remote.enabled then
    match store with
    | none => .error .missingStore
    | some store =>
      match Executor.new? config.remote.flushInterval config.remote.maxConcurrentFlushes.toNat with
      | none => .error (.tooManyFlushes config.remote.maxConcurrentFlushes)
      | some executor => .ok (executor, store)
  else .ok (.idle, store.getD { backend := .memory {} })

def initialWorld (surroundings : Surroundings) (executor : Executor) (store : ObjectStore) : World :=
  { uploads := { executor, work := { files := surroundings.files, store } }
    timestamp := surroundings.timestamp }

def openPlatform (config : Config) (world : World) : Option SinkId × World :=
  if config.lifecycle.platformConsole then
    let (sink, world) := world.addSink
      (.console { name := platformName, encode := config.lifecycle.encoding.encode })
    (some sink, world)
  else (none, world)

def reapInterval (config : Config) : Millis :=
  match config.router.reapIntervalSecs with
  | some seconds => Millis.ofSeconds seconds.toNat
  | none => Dispatcher.reapInterval (routers config)

def startBackground (config : Config) (engine : Engine) : Engine :=
  let uploads := engine.world.uploads.startTicker
  { engine with world := { engine.world with uploads } }.startReaper (reapInterval config)

def start (config : Config) (surroundings : Surroundings) : Except StartFault Service := do
  config.validate.mapError StartFault.invalidConfig
  if !surroundings.hasBackground then throw .noBackground
  let (executor, store) ← remoteParts config surroundings.store
  let (platform, world) := openPlatform config (initialWorld surroundings executor store)
  let dispatcher : Dispatcher := { platform, routers := routers config, minLevel := config.rootLevel }
  return { config, engine := startBackground config { dispatcher, world } }

def onEngine {α : Type} (service : Service) (change : Engine → α × Engine) : α × Service :=
  let (result, engine) := change service.engine
  (result, { service with engine })

def dispatch (service : Service) (event : Event) : List DispatchFault × Service :=
  service.onEngine fun engine => engine.dispatch event

def executor? (service : Service) : Option Executor :=
  if service.config.remote.enabled then some service.engine.world.executor else none

def flushAll (service : Service) : Option Nat × Service :=
  if service.config.remote.enabled then
    let (count, service) := service.onEngine fun engine => engine.onWorld World.flushAll
    (some count, service)
  else (none, service)

/-- Let time go on to a moment, with everything that happens on the way. `timestamp` is what that moment is in
milliseconds since the start of 1970. -/
def reach (service : Service) (moment : Millis) (timestamp : Nat) : Service :=
  let world := { service.engine.world with instant := moment, timestamp }
  { service with engine := { service.engine with world }.advanceTo moment }

def quiesce (engine : Engine) : Engine :=
  let (_, engine) := engine.close
  let uploads := engine.world.uploads.stopTicker
  { engine with world := { engine.world with uploads } }.stopReaper

def drain (config : Config) (world : World) : Option DrainReport × World :=
  if config.remote.enabled then
    let (report, world) := world.drain config.lifecycle.shutdownGrace
    (some report, world)
  else (none, world)

def stopPlatform (dispatcher : Dispatcher) (world : World) : World :=
  match dispatcher.platform with
  | some sink => world.stop sink
  | none => world

/-- Stop everything in order: first no more events are accepted and background work ends, then all sinks of routers
stop, then the last flushes are waited for, and last the sink that receives every event stops. -/
def stopAll (service : Service) : ShutdownReport × Service :=
  let engine := quiesce service.engine
  let (sinksStopped, dispatcher, world) := engine.dispatcher.stopRouters engine.world
  let (drain, world) := drain service.config world
  let world := stopPlatform dispatcher world
  let report : ShutdownReport := { sinksStopped, drain }
  (report, { service with engine := { engine with dispatcher, world }, report := some report })

def shutdown (service : Service) : ShutdownReport × Service :=
  match service.report with
  | some report => (report, service)
  | none => service.stopAll

end Service

end KeyedLog
