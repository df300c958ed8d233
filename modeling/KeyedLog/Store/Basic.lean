import KeyedLog.Fault
import KeyedLog.Path
import KeyedLog.Text
import KeyedLog.Quantity
import KeyedLog.Text.Quoted

/-! What is stored remotely and under which ids, and why storing fails. -/

namespace KeyedLog

inductive DocumentType where
  | applicationLogs
  | jobLogs
  deriving DecidableEq, Repr

namespace DocumentType

def area : DocumentType → String
  | applicationLogs => "app-logging"
  | jobLogs => "job-logging"

def describe : DocumentType → String
  | applicationLogs => "ApplicationLogs"
  | jobLogs => "Logs"

end DocumentType

inductive StoreFault where
  | io (id : String) (cause : IoFault)
  | invalidId (id : String)
  | unavailable (id : String)
  deriving DecidableEq, Repr

/-- How far an object has got that was given to a store. -/
inductive PutStage where
  | due
  /-- Directories are about to be made for it. -/
  | preparing
  | storing
  deriving DecidableEq, Repr

inductive Intake where
  | answered (result : Except StoreFault Unit)
  | paused (pause : Pause) (next : PutStage)

def StoreFault.message : StoreFault → String
  | io id cause => "storage I/O error for " ++ id ++ ": " ++ cause.message
  | invalidId id => "invalid storage id " ++ Quoted.quote id
  | unavailable id => "storage unavailable: injected failure for " ++ id

end KeyedLog

namespace KeyedLog.StorageKey

/-- The first part of the ids of all objects of a routing key: the key without white space around it and
without slashes in front. A key that is empty or leads anywhere but down is refused. -/
def base (key : String) : Except SinkFault String :=
  let id := (Text.trimChars key.toList).dropWhile (· == '/')
  let parts := Path.cut id
  if id.isEmpty then .error (.invalidKey key "empty storage id")
  else if parts.front != .none || parts.pieces.contains Path.above then
    .error (.invalidKey key "storage id must not contain relative components")
  else .ok (String.ofList id)

def batchDigits (batch : Nat) : List Char :=
  let digits := Nat.toDigits 10 batch
  List.replicate (6 - digits.length) '0' ++ digits

def batchId (base sinkInstance : String) (batch : Nat) : String :=
  base ++ "/" ++ sinkInstance ++ "_" ++ String.ofList (batchDigits batch)

end KeyedLog.StorageKey
