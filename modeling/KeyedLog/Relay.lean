import KeyedLog.Dispatcher
import KeyedLog.Event
import KeyedLog.Text.Quoted

/-!
Spans are named values that hold while something goes on. They lie within each other, and what is reported inside
a span carries its values when it is handed to a dispatcher.
-/

namespace KeyedLog

inductive FieldValue where
  | text (content : String)
  | integer (value : Int)
  | boolean (value : Bool)
  | quoted (content : String)
  deriving DecidableEq, Repr

def FieldValue.format : FieldValue → String
  | text content => content
  | integer value => (if value < 0 then "-" else "") ++ value.natAbs.repr
  | boolean value => if value then "true" else "false"
  | quoted content => Quoted.quote content

abbrev Fields := List (String × FieldValue)

namespace Fields

/-- The field that holds the message of an event. It is never a part of the context. -/
def messageName : String := "message"

def message? (fields : Fields) : Option String :=
  (fields.reverse.lookup messageName).map FieldValue.format

def record (fields : Fields) (context : Context) : Context :=
  fields.foldl (fun context (name, value) =>
    if name = messageName then context else context.insert name value.format) context

end Fields

abbrev SpanId := Nat

structure Span where
  parent : Option SpanId
  values : Context
  deriving DecidableEq, Repr

structure Spans where
  all : List Span := []
  /-- The spans that have been entered and not left, the innermost in front. -/
  entered : List SpanId := []
  deriving DecidableEq, Repr

namespace Spans

def current? (spans : Spans) : Option SpanId :=
  spans.entered.head?

def enter (spans : Spans) (fields : Fields) : SpanId × Spans :=
  let id := spans.all.length
  (id, { all := spans.all ++ [{ parent := spans.current?, values := fields.record ∅ }]
         entered := id :: spans.entered })

def leave (spans : Spans) : Bool × Spans :=
  (!spans.entered.isEmpty, { spans with entered := spans.entered.tail })

def record (spans : Spans) (id : SpanId) (fields : Fields) : Spans :=
  { spans with all := spans.all.modify id fun span => { span with values := fields.record span.values } }

/-- A span and those around it, the innermost in front. A span comes after the span around it, so that `fuel`
need not exceed the number of spans. -/
def lineage (spans : Spans) : (fuel : Nat) → Option SpanId → List Span
  | 0, _ => []
  | _, none => []
  | fuel + 1, some id =>
    match spans.all[id]? with
    | none => []
    | some span => span :: spans.lineage fuel span.parent

def overlay (context : Context) (span : Span) : Context :=
  context.insertAll span.values.entries

def context (spans : Spans) : Context :=
  (spans.lineage spans.all.length spans.current?).reverse.foldl overlay ∅

end Spans

structure Report where
  level : Level
  target : String
  fields : Fields
  deriving DecidableEq, Repr

structure Relay where
  /-- Reports of targets whose names begin like this are about dispatching itself, and are not handed on. -/
  ownTarget : String := "logsift"
  bound : Bool := false
  spans : Spans := {}

namespace Relay

def bind (relay : Relay) : Bool × Relay :=
  (!relay.bound, { relay with bound := true })

def isOwn (relay : Relay) (target : String) : Bool :=
  relay.ownTarget.toList.isPrefixOf target.toList

/-- The event that a report amounts to at present. Its own fields come before those of the spans around it. -/
def event (relay : Relay) (timestamp : UInt64) (report : Report) : Event where
  timestamp
  level := report.level
  message := report.fields.message?.getD ""
  context := report.fields.record relay.spans.context

def accepts (relay : Relay) (dispatcher : Dispatcher) (report : Report) : Bool :=
  !relay.isOwn report.target && relay.bound && decide (dispatcher.minLevel ≤ report.level) &&
    dispatcher.accepting

def report (relay : Relay) (report : Report) (dispatcher : Dispatcher) (world : World) : Dispatcher × World :=
  if relay.accepts dispatcher report then
    let event := relay.event (UInt64.ofNat world.timestamp) report
    (dispatcher.dispatch event world).2
  else (dispatcher, world)

end Relay

end KeyedLog
