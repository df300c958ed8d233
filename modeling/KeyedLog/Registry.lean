import KeyedLog.Quantity
import KeyedLog.Text.Quoted
import KeyedLog.World

/-! The live sinks of one router, by key. There is at most one for each key. Sinks that have not been used for
some time and that nobody holds can be let go; once the registry is closed there are no sinks any more. -/

namespace KeyedLog

structure Registration where
  key : String
  sink : SinkId
  lastUsed : Millis
  deriving DecidableEq, Repr

structure Registry where
  entries : List Registration := []
  closed : Bool := false
  /-- The sinks that callers hold, each as often as it is held. -/
  handles : List SinkId := []
  deriving DecidableEq, Repr

structure Resolved where
  sink : SinkId
  created : Bool
  deriving DecidableEq, Repr

namespace Registry

def find? (registry : Registry) (key : String) : Option Registration :=
  registry.entries.find? fun entry => entry.key == key

def contains (registry : Registry) (key : String) : Bool :=
  (registry.find? key).isSome

def keys (registry : Registry) : List String :=
  registry.entries.map (·.key)

def size (registry : Registry) : Nat :=
  registry.entries.length

def touch (registry : Registry) (key : String) (now : Millis) : Registry :=
  { registry with entries := registry.entries.map fun entry =>
      if entry.key = key then { entry with lastUsed := max entry.lastUsed now } else entry }

def register (registry : Registry) (key : String) (sink : SinkId) (now : Millis) : Registry :=
  { registry with entries := registry.entries ++ [⟨key, sink, now⟩] }

/-- The live sink of a key. If there is none it is made by `create`, which works on a state of its own; if that
fails nothing is registered. None once the registry is closed. -/
def getOrCreate {σ ε : Type} (registry : Registry) (key : String) (now : Millis)
    (create : σ → Except ε SinkId × σ) (state : σ) : Except ε (Option Resolved) × Registry × σ :=
  if registry.closed then (.ok none, registry, state)
  else
    match registry.find? key with
    | some entry => (.ok (some ⟨entry.sink, false⟩), registry.touch key now, state)
    | none =>
      match create state with
      | (.error fault, state) => (.error fault, registry, state)
      | (.ok sink, state) => (.ok (some ⟨sink, true⟩), registry.register key sink now, state)

def hold (registry : Registry) (sink : SinkId) : Registry :=
  { registry with handles := sink :: registry.handles }

def release (registry : Registry) (sink : SinkId) : Registry :=
  { registry with handles := registry.handles.erase sink }

def isExpired (registry : Registry) (now timeout : Millis) (entry : Registration) : Bool :=
  timeout ≤ now - entry.lastUsed && !registry.handles.contains entry.sink

def expire (registry : Registry) (now timeout : Millis) : List Registration × Registry :=
  let (expired, kept) := registry.entries.partition (registry.isExpired now timeout)
  (expired, { registry with entries := kept })

def close (registry : Registry) : Registry :=
  { registry with closed := true }

def drain (registry : Registry) : List Registration × Registry :=
  (registry.entries, { registry.close with entries := [] })

def describe (registry : Registry) : String :=
  "SinkRegistry \x7b keys: [" ++ ", ".intercalate (registry.keys.map Quoted.quote) ++ "], closed: " ++
    toString registry.closed ++ " \x7d"

end Registry

end KeyedLog
