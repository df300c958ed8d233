import KeyedLog.Config
import KeyedLog.Toml.Document

/-! Configurations written as TOML documents. Everything may be left out, and what is not known is passed
over. -/

namespace KeyedLog

open Toml (Value)

namespace Toml.Value

inductive Group where
  | named (entries : Toml.Entries)
  | listed (items : List Value)

/-- The settings that a value holds. A time holds none of those that are asked for. -/
def group? : Value → Option Group
  | .table _ entries => some (.named entries)
  | .array items => some (.listed items)
  | .tables items => some (.listed items)
  | .time => some (.named [])
  | _ => none

def isEmptyGroup : Value → Bool
  | .table _ entries => entries.isEmpty
  | .array items => items.isEmpty
  | .tables items => items.isEmpty
  | _ => false

def Group.setting {α : Type} (group : Group) (position : Nat) (name : String)
    (read : Value → Option α) (fallback : α) : Option α :=
  let found := match group with
    | named entries => List.lookup name entries
    | listed items => items[position]?
  match found with
  | none => some fallback
  | some value => read value

def text? : Value → Option String
  | .string text => some text
  | _ => none

def flag? : Value → Option Bool
  | .boolean flag => some flag
  | _ => none

def natural? (bound : Nat) : Value → Option Nat
  | .integer number => if 0 ≤ number ∧ number < bound then some number.toNat else none
  | _ => none

def word64? (value : Value) : Option UInt64 :=
  (value.natural? UInt64.size).map UInt64.ofNat

def word32? (value : Value) : Option UInt32 :=
  (value.natural? UInt32.size).map UInt32.ofNat

def byteSize? : Value → Option ByteSize
  | .string text => (ByteSize.parse text).toOption
  | value => value.word64?.map ByteSize.mk

def alternative? : Value → Option String
  | .string text => some text
  | .table _ [(name, value)] => if value.isEmptyGroup then some name else none
  | _ => none

def level? (value : Value) : Option Level :=
  value.alternative?.bind Level.ofName?

def encoding? (value : Value) : Option Encoding :=
  match value.alternative? with
  | some "line" => some .line
  | some "json" => some .json
  | _ => none

end Toml.Value

namespace Config

open Toml.Value

def Local.ofValue? (value : Value) : Option Local := do
  let group ← value.group?
  let fallback : Local := {}
  return {
    fileName := ← group.setting 0 "file_name" text? fallback.fileName
    maxFileSize := ← group.setting 1 "max_file_size" byteSize? fallback.maxFileSize
    maxArchiveWindows := ← group.setting 2 "max_archive_windows" word32? fallback.maxArchiveWindows }

def Routes.ofValue? (value : Value) : Option Routes := do
  let group ← value.group?
  let fallback : Routes := {}
  return {
    localApplication := ← group.setting 0 "local_application" text? fallback.localApplication
    localJob := ← group.setting 1 "local_job" text? fallback.localJob
    cloudApplication := ← group.setting 2 "cloud_application" text? fallback.cloudApplication
    cloudJob := ← group.setting 3 "cloud_job" text? fallback.cloudJob }

def Router.ofValue? (value : Value) : Option Router := do
  let group ← value.group?
  let fallback : Router := {}
  return {
    idleTimeoutMinutes := ← group.setting 0 "idle_timeout_minutes" word64? fallback.idleTimeoutMinutes
    reapIntervalSecs :=
      ← group.setting 1 "reap_interval_secs" (fun value => value.word64?.map some) fallback.reapIntervalSecs }

def Retry.ofValue? (value : Value) : Option Retry := do
  let group ← value.group?
  let fallback : Retry := {}
  return {
    maxAttempts := ← group.setting 0 "max_attempts" word32? fallback.maxAttempts
    baseDelayMs := ← group.setting 1 "base_delay_ms" word64? fallback.baseDelayMs
    maxDelayMs := ← group.setting 2 "max_delay_ms" word64? fallback.maxDelayMs }

def Remote.ofValue? (value : Value) : Option Remote := do
  let group ← value.group?
  let fallback : Remote := {}
  return {
    enabled := ← group.setting 0 "enabled" flag? fallback.enabled
    flushIntervalSecs := ← group.setting 1 "flush_interval_secs" word64? fallback.flushIntervalSecs
    maxConcurrentFlushes := ← group.setting 2 "max_concurrent_flushes" word64? fallback.maxConcurrentFlushes
    retry := ← group.setting 3 "retry" Retry.ofValue? fallback.retry }

def Lifecycle.ofValue? (value : Value) : Option Lifecycle := do
  let group ← value.group?
  let fallback : Lifecycle := {}
  return {
    shutdownGraceSecs := ← group.setting 0 "shutdown_grace_secs" word64? fallback.shutdownGraceSecs
    platformConsole := ← group.setting 1 "platform_console" flag? fallback.platformConsole
    encoding := ← group.setting 2 "encoder" encoding? fallback.encoding }

def Storage.ofValue? (value : Value) : Option Storage := do
  let group ← value.group?
  let fallback : Storage := {}
  return { rootDir := ← group.setting 0 "root_dir" text? fallback.rootDir }

def ofEntries? (entries : Toml.Entries) : Option Config := do
  let group : Group := .named entries
  let fallback : Config := {}
  return {
    rootLevel := ← group.setting 0 "root_level" level? fallback.rootLevel
    localFiles := ← group.setting 1 "local" Local.ofValue? fallback.localFiles
    routes := ← group.setting 2 "routes" Routes.ofValue? fallback.routes
    router := ← group.setting 3 "router" Router.ofValue? fallback.router
    remote := ← group.setting 4 "remote" Remote.ofValue? fallback.remote
    lifecycle := ← group.setting 5 "lifecycle" Lifecycle.ofValue? fallback.lifecycle
    storage := ← group.setting 6 "storage" Storage.ofValue? fallback.storage }

/-- Read a configuration. None if the text is no TOML document or a setting has the wrong kind. -/
def ofDocument? (text : String) : Option Config := do
  ofEntries? (← Toml.parse text)

end Config

end KeyedLog
