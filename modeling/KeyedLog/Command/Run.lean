import KeyedLog.Command.Arguments
import KeyedLog.Command.Input
import KeyedLog.Config.Load
import KeyedLog.Service

/-!
A whole run of the command: arguments and environment, then the lines of the input, then an orderly
shutdown. The files that an event can concern tell how much of the disk a run has to know.
-/

namespace KeyedLog.Command

inductive Failure where
  | refused (refusal : Refusal)
  | config (fault : Config.LoadFault)
  | start (fault : StartFault)
  deriving DecidableEq, Repr

namespace Failure

def exitCode : Failure → UInt32
  | refused .help => 0
  | refused .usage => 2
  | start (.tooManyFlushes _) => 101
  | config _ | start _ => 1

def message : Failure → String
  | refused .help => ""
  | refused .usage => "invalid arguments"
  | config fault => fault.message
  | start fault => fault.message

end Failure

def findConfig (options : Options) (environment : Environment) (files : FileTree) :
    Except Config.LoadFault Config := do
  let config ← match options.configPath with
    | some path => Config.load files path environment
    | none => Config.ofEnvironment environment
  return { config with rootLevel := options.level.getD config.rootLevel }

def startService (config : Config) (files : FileTree) (timestamp : Nat) : Except StartFault Service :=
  let store : ObjectStore := { backend := .directory ⟨config.storage.rootDir⟩ }
  Service.start config
    { files, store := if config.remote.enabled then some store else none, timestamp }

def prepare (options : Options) (environment : Environment) (files : FileTree) (timestamp : Nat) :
    Except Failure Service := do
  let config ← (findConfig options environment files).mapError Failure.config
  (startService config files timestamp).mapError Failure.start

structure Outcome where
  exitCode : UInt32
  output : Bytes
  files : FileTree

def Outcome.ofFailure (program : String) (files : FileTree) (failure : Failure) : Outcome where
  exitCode := failure.exitCode
  output := if failure = .refused .help then Utf8.encode (help program) else []
  files := files

def Outcome.ofService (service : Service) : Outcome where
  exitCode := 0
  output := service.engine.world.console.written
  files := service.engine.world.files

def finish (service : Service) (now : UInt64) (input : Bytes) : Service :=
  (takeLines service now (lines input)).shutdown.2

/-- Run the command in a moment in which no time goes by. -/
def run (program : String) (arguments : List String) (environment : Environment) (files : FileTree)
    (now : UInt64) (input : Bytes) : Outcome :=
  match Options.parse arguments with
  | .error refusal => .ofFailure program files (.refused refusal)
  | .ok options =>
    match prepare options environment files now.toNat with
    | .error failure => .ofFailure program files failure
    | .ok service => .ofService (finish service now input)

end KeyedLog.Command

namespace KeyedLog

namespace Path

def lineage : (fuel : Nat) → String → List String
  | 0, path => [path]
  | fuel + 1, path =>
    match parent? path with
    | some parent => if parent.isEmpty then [path] else lineage fuel parent ++ [path]
    | none => [path]

end Path

def RollingPolicy.footprint (policy : RollingPolicy) (base : String) : List String :=
  base :: Archive.stagingPath base ::
    (List.range policy.maxArchives).map fun slot => Archive.slotPath base (slot + 1)

def Factory.footprint (factory : Factory) (key : String) : List String :=
  match factory with
  | .localApplication fileName policy _ => policy.footprint (Path.join key fileName)
  | .localJob fileName _ => [key, Path.join key fileName]
  | .cloud .. | .recording _ => []

def Router.footprint (router : Router) (event : Event) : List String :=
  if router.discriminator.passes event then router.factory.footprint (router.discriminator.extract event) else []

/-- The files that an event can concern, and the directories above them. -/
def Service.footprint (service : Service) (event : Event) : List String :=
  (service.engine.dispatcher.routers.flatMap (·.footprint event)).flatMap fun path =>
    Path.lineage path.length path

end KeyedLog
