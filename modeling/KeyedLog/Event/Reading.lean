import KeyedLog.Event
import KeyedLog.Json.Skip

/-! Reading an event from JSON: an object with the fields of an event, in any order and among others, or an
array of them. -/

namespace KeyedLog.Event

structure Draft where
  timestamp : Option UInt64 := none
  level : Option Level := none
  message : Option String := none
  context : Option Context := none
  deriving DecidableEq, Repr

namespace Draft

def complete (draft : Draft) (now : UInt64) : Option Event :=
  draft.message.map fun message =>
    ⟨draft.timestamp.getD now, draft.level.getD default, message, draft.context.getD ∅⟩

end Draft

open Json

def levelNamed (name : String) : Except Fault Level :=
  match Level.ofName? name with
  | some level => .ok level
  | none => .error .mismatched

def readNull : Reader Unit := fun text =>
  match skipSpace text with
  | 'n' :: rest => wordRest ['u', 'l', 'l'] rest
  | text => .error (refuseKind text)

def readLevel : Reader Level := fun text =>
  match skipSpace text with
  | [] => .error .truncated
  | '"' :: rest => do
    let (name, rest) ← stringBody rest
    return (← levelNamed name, rest)
  | '\x7b' :: rest => do
    let (name, rest) ← readString rest
    let level ← levelNamed name
    let (_, rest) ← readColon rest
    let (_, rest) ← readNull rest
    match skipSpace rest with
    | [] => .error .truncated
    | '\x7d' :: rest => return (level, rest)
    | _ => .error .malformed
  | _ => .error .malformed

def readEntry (context : Context) (name : String) : Reader Context := fun text => do
  let (_, rest) ← readColon text
  let (value, rest) ← readString rest
  return (context.insert name value, rest)

def readContext : Reader Context := fun text =>
  match skipSpace text with
  | '\x7b' :: rest => members readEntry ∅ rest
  | text => .error (refuseKind text)

/-- One field of an object. A field may stand there once, and a field that is none of an event's is passed
over. -/
def readField (draft : Draft) (name : String) : Reader Draft := fun text =>
  match name with
  | "timestamp" => do
    if draft.timestamp.isSome then .error .mismatched
    let (_, rest) ← readColon text
    let (timestamp, rest) ← readWord rest
    return ({ draft with timestamp := some timestamp }, rest)
  | "level" => do
    if draft.level.isSome then .error .mismatched
    let (_, rest) ← readColon text
    let (level, rest) ← readLevel rest
    return ({ draft with level := some level }, rest)
  | "message" => do
    if draft.message.isSome then .error .mismatched
    let (_, rest) ← readColon text
    let (message, rest) ← readString rest
    return ({ draft with message := some message }, rest)
  | "context" => do
    if draft.context.isSome then .error .mismatched
    let (_, rest) ← readColon text
    let (context, rest) ← readContext rest
    return ({ draft with context := some context }, rest)
  | _ => do
    let (_, rest) ← readColon text
    let (_, rest) ← skip rest
    return (draft, rest)

def requireMessage (draft : Draft) : Except Fault Draft :=
  if draft.message.isSome then .ok draft else .error .mismatched

def readElements : Reader Draft := fun text => do
  let (more, text) ← nextElement true text
  if !more then .error .mismatched
  let (timestamp, text) ← readWord text
  let (more, text) ← nextElement false text
  if !more then .error .mismatched
  let (level, text) ← readLevel text
  let (more, text) ← nextElement false text
  if !more then .error .mismatched
  let (message, text) ← readString text
  let draft : Draft := ⟨some timestamp, some level, some message, none⟩
  let (more, text) ← nextElement false text
  if more then
    let (context, text) ← readContext text
    let (_, text) ← endArray text
    return ({ draft with context := some context }, text)
  else
    let (_, text) ← endArray text
    return (draft, text)

def readDraft : Reader Draft := fun text =>
  match skipSpace text with
  | '[' :: rest => readElements rest
  | '\x7b' :: rest => do
    let (draft, rest) ← members readField {} rest
    return (← requireMessage draft, rest)
  | text => .error (refuseKind text)

def read (text : String) : Except Fault Draft := do
  finish (← readDraft text.toList)

end KeyedLog.Event
