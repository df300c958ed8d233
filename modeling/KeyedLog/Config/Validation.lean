import KeyedLog.Config

/-! What a configuration has to satisfy before it is used. -/

namespace KeyedLog.Config

inductive Violation where
  | idleTimeout
  | reapInterval
  | maxFileSize
  | maxArchiveWindows
  | fileName
  | blankRoute (destination : Destination)
  | sharedRoute (destination : Destination) (key : String)
  | flushInterval
  | maxConcurrentFlushes
  | maxAttempts
  | delayOrder
  | shutdownGrace
  | storageRoot
  deriving DecidableEq, Repr

def maxArchiveWindows : UInt32 := 20

namespace Violation

def field : Violation → String
  | idleTimeout => "router.idle_timeout_minutes"
  | reapInterval => "router.reap_interval_secs"
  | maxFileSize => "local.max_file_size"
  | maxArchiveWindows => "local.max_archive_windows"
  | fileName => "local.file_name"
  | blankRoute destination => "routes." ++ destination.field
  | sharedRoute destination _ => "routes." ++ destination.field
  | flushInterval => "remote.flush_interval_secs"
  | maxConcurrentFlushes => "remote.max_concurrent_flushes"
  | maxAttempts => "remote.retry.max_attempts"
  | delayOrder => "remote.retry.base_delay_ms"
  | shutdownGrace => "lifecycle.shutdown_grace_secs"
  | storageRoot => "storage.root_dir"

def message : Violation → String
  | maxArchiveWindows => "must be at most " ++ Config.maxArchiveWindows.toNat.repr
  | fileName => "must be a plain, non-empty file name"
  | blankRoute _ => "must not be empty"
  | sharedRoute _ key => "routing key " ++ Quoted.quote key ++ " is used by another destination"
  | maxConcurrentFlushes => "must be at least 1"
  | maxAttempts => "must be at least 1"
  | delayOrder => "must not exceed remote.retry.max_delay_ms"
  | storageRoot => "required when remote.enabled"
  | _ => "must be greater than 0"

def format (violation : Violation) : String :=
  violation.field ++ ": " ++ violation.message

def describe (violation : Violation) : String :=
  "ValidationError \x7b field: " ++ Quoted.quote violation.field ++ ", message: " ++
    Quoted.quote violation.message ++ " \x7d"

end Violation

def isPlainFileName (name : String) : Bool :=
  !Text.isBlank name && !name.toList.any fun c => c == '/' || c == '\\'

def routeViolation (earlier : List String) (destination : Destination) (key : String) : List Violation :=
  if Text.isBlank key then [.blankRoute destination]
  else if key ∈ earlier then [.sharedRoute destination key]
  else []

def routeViolations (routes : Routes) : (earlier : List String) → List Destination → List Violation
  | _, [] => []
  | earlier, destination :: rest =>
    routeViolation earlier destination (routes.key destination) ++
      routeViolations routes
        (if Text.isBlank (routes.key destination) then earlier else routes.key destination :: earlier) rest

def broken (violation : Violation) (holds : Bool) : List Violation :=
  if holds then [] else [violation]

/-- Every rule that a configuration breaks, in the order of its fields. -/
def violations (config : Config) : List Violation :=
  broken .idleTimeout (config.router.idleTimeoutMinutes != 0) ++
  broken .reapInterval (config.router.reapIntervalSecs != some 0) ++
  broken .maxFileSize (config.localFiles.maxFileSize.bytes != 0) ++
  broken .maxArchiveWindows (config.localFiles.maxArchiveWindows ≤ maxArchiveWindows) ++
  broken .fileName (isPlainFileName config.localFiles.fileName) ++
  routeViolations config.routes [] Destination.all ++
  broken .flushInterval (config.remote.flushIntervalSecs != 0) ++
  broken .maxConcurrentFlushes (config.remote.maxConcurrentFlushes != 0) ++
  broken .maxAttempts (config.remote.retry.maxAttempts != 0) ++
  broken .delayOrder (config.remote.retry.baseDelayMs ≤ config.remote.retry.maxDelayMs) ++
  broken .shutdownGrace (config.lifecycle.shutdownGraceSecs != 0) ++
  broken .storageRoot (!config.remote.enabled || !Text.isBlank config.storage.rootDir)

def validate (config : Config) : Except (List Violation) Unit :=
  if config.violations.isEmpty then .ok () else .error config.violations

end KeyedLog.Config
