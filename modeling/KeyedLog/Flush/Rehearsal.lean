import KeyedLog.Flush.Schedule

/-! Flushes that only take time, to see how an executor spreads its work. -/

namespace KeyedLog

/-- A target whose flush takes some time and does nothing. -/
structure Rehearsal where
  label : String
  duration : Millis
  held : Bool := true
  ended : Nat := 0
  deriving DecidableEq, Repr

structure Rehearsals where
  targets : List Rehearsal
  running : List JobId := []
  peak : Nat := 0
  deriving DecidableEq, Repr

namespace Rehearsals

def find? (rehearsals : Rehearsals) (label : String) : Option TargetId :=
  rehearsals.targets.findIdx? fun target => target.label == label

def release (rehearsals : Rehearsals) (target : TargetId) : Rehearsals :=
  { rehearsals with targets := rehearsals.targets.modify target fun target => { target with held := false } }

def start (rehearsals : Rehearsals) (job : JobId) : Rehearsals :=
  let running := rehearsals.running ++ [job]
  { rehearsals with running, peak := max rehearsals.peak running.length }

def finish (rehearsals : Rehearsals) (job : JobId) (target : TargetId) : Rehearsals :=
  { rehearsals with
    running := rehearsals.running.filter (· != job)
    targets := rehearsals.targets.modify target fun target => { target with ended := target.ended + 1 } }

def isHeld (rehearsals : Rehearsals) (target : TargetId) : Bool :=
  match rehearsals.targets[target]? with
  | some target => target.held
  | none => false

def worker : Worker Rehearsals Unit where
  resume job target rehearsals :=
    if job ∈ rehearsals.running then (.finished () none, rehearsals.finish job target)
    else
      match rehearsals.targets[target]? with
      | none => (.finished () none, rehearsals)
      | some { duration, .. } => (.paused (.sleep duration), rehearsals.start job)
  isHeld := isHeld

end Rehearsals

end KeyedLog
