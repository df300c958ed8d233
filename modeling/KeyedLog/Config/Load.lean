import KeyedLog.Config
import KeyedLog.Config.Document
import KeyedLog.Config.Validation
import KeyedLog.Files.Operations

/-!
Finding the configuration to run with: a file or the defaults, then the variables of the environment, which
take precedence, then validation.
-/

namespace KeyedLog

abbrev Environment := List (String × String)

namespace Environment

def get? (environment : Environment) (name : String) : Option String :=
  List.lookup name environment

def setting? (environment : Environment) (name : String) : Option String :=
  match environment.get? name with
  | none => none
  | some value => if Text.isBlank value then none else some (Text.trim value)

end Environment

namespace Config

inductive Setting where
  | level
  | idleTimeout
  | maxFileSize
  | maxArchiveWindows
  | shutdownGrace
  deriving DecidableEq, Repr

namespace Setting

def all : List Setting :=
  [level, idleTimeout, maxFileSize, maxArchiveWindows, shutdownGrace]

def variableName : Setting → String
  | level => "LOG_LEVEL"
  | idleTimeout => "LOG_IDLE_ROUTE_TTL"
  | maxFileSize => "LOG_MAX_FILE_SIZE"
  | maxArchiveWindows => "LOG_MAX_ARCHIVE_WINDOWS"
  | shutdownGrace => "LOG_SHUTDOWN_GRACE_SECS"

def assign (setting : Setting) (value : String) (config : Config) : Except String Config :=
  match setting with
  | level => do
    let level ← (Level.parse value).mapError Level.Unknown.message
    return { config with rootLevel := level }
  | idleTimeout => do
    let minutes ← (Natural.parseWord64 value).mapError Natural.Fault.message
    return { config with router := { config.router with idleTimeoutMinutes := minutes } }
  | maxFileSize => do
    let size ← (ByteSize.parse value).mapError ByteSize.Fault.message
    return { config with localFiles := { config.localFiles with maxFileSize := size } }
  | maxArchiveWindows => do
    let count ← (Natural.parseWord32 value).mapError Natural.Fault.message
    return { config with localFiles := { config.localFiles with maxArchiveWindows := count } }
  | shutdownGrace => do
    let seconds ← (Natural.parseWord64 value).mapError Natural.Fault.message
    return { config with lifecycle := { config.lifecycle with shutdownGraceSecs := seconds } }

end Setting

structure BadVariable where
  setting : Setting
  value : String
  reason : String
  deriving DecidableEq, Repr

def BadVariable.message (bad : BadVariable) : String :=
  "invalid value " ++ Quoted.quote bad.value ++ " for " ++ bad.setting.variableName ++ ": " ++ bad.reason

/-- Override settings one after the other, up to the first that cannot be used. The overrides before it
stay. -/
def overrideSettings (environment : Environment) : List Setting → Config → Config × Except BadVariable Unit
  | [], config => (config, .ok ())
  | setting :: rest, config =>
    match environment.setting? setting.variableName with
    | none => overrideSettings environment rest config
    | some value =>
      match setting.assign value config with
      | .ok config => overrideSettings environment rest config
      | .error reason => (config, .error ⟨setting, value, reason⟩)

def override (config : Config) (environment : Environment) : Config × Except BadVariable Unit :=
  overrideSettings environment Setting.all config

end Config

end KeyedLog

namespace KeyedLog.Config

inductive LoadFault where
  | unreadable (path : String) (cause : IoFault)
  | malformed
  | badVariable (bad : BadVariable)
  | invalid (violations : List Violation)
  deriving DecidableEq, Repr

/-- The text of a fault. What exactly is wrong with a malformed file is not said. -/
def LoadFault.message : LoadFault → String
  | unreadable path cause => "cannot read config file " ++ path ++ ": " ++ cause.message
  | malformed => "parse error"
  | badVariable bad => bad.message
  | invalid violations => "validation failed: " ++ ", ".intercalate (violations.map Violation.format)

def complete (config : Config) (environment : Environment) : Except LoadFault Config :=
  match config.override environment with
  | (_, .error bad) => .error (.badVariable bad)
  | (config, .ok ()) =>
    match config.validate with
    | .error violations => .error (.invalid violations)
    | .ok () => .ok config

def load (files : FileTree) (path : String) (environment : Environment) : Except LoadFault Config :=
  match Files.readText path files with
  | .error cause _ => .error (.unreadable path cause)
  | .ok text _ =>
    match ofDocument? text with
    | none => .error .malformed
    | some config => config.complete environment

def ofEnvironment (environment : Environment) : Except LoadFault Config :=
  complete {} environment

end KeyedLog.Config
