import KeyedLog.Quantity

/-! Who may flush and when. Flushes are accepted as jobs; a limited number of jobs hold a permit at once, and
the others wait for one in the order in which they asked. Targets are registered to be flushed from time to
time, and forgotten once nobody holds them any more. -/

namespace KeyedLog

abbrev TargetId := Nat

/-- One flush, from its acceptance to its end. -/
abbrev JobId := Nat

structure Executor where
  interval : Millis
  limit : Nat
  accepting : Bool := true
  nextRegistration : Nat := 1
  registrations : List (Nat × TargetId) := []
  nextJob : JobId := 0
  /-- The jobs that are not finished, in the order in which they were accepted. -/
  jobs : List (JobId × TargetId) := []
  holders : List JobId := []
  queue : List JobId := []
  deriving DecidableEq, Repr

namespace Executor

def maxLimit : Nat := Nat.pow 2 61 - 1

def new? (interval : Millis) (maxConcurrent : Nat) : Option Executor :=
  if maxConcurrent ≤ maxLimit then some { interval, limit := max 1 maxConcurrent } else none

def idle : Executor :=
  { interval := 0, limit := 1 }

def register (executor : Executor) (target : TargetId) : Nat × Executor :=
  (executor.nextRegistration,
    { executor with
      nextRegistration := executor.nextRegistration + 1
      registrations := executor.registrations ++ [(executor.nextRegistration, target)] })

def deregister (executor : Executor) (registration : Nat) : Executor :=
  { executor with registrations := executor.registrations.filter fun entry => entry.1 != registration }

def registered (executor : Executor) : Nat :=
  executor.registrations.length

def inFlight (executor : Executor) : Nat :=
  executor.jobs.length

def submit (executor : Executor) (target : TargetId) : Option JobId × Executor :=
  if executor.accepting then
    (some executor.nextJob,
      { executor with
        nextJob := executor.nextJob + 1
        jobs := executor.jobs ++ [(executor.nextJob, target)] })
  else (none, executor)

def isFlushing (executor : Executor) (target : TargetId) : Bool :=
  executor.jobs.any fun job => job.2 == target

def submitAll (executor : Executor) : List TargetId → List JobId × Executor
  | [] => ([], executor)
  | target :: rest =>
    let (job, executor) := executor.submit target
    let (jobs, executor) := executor.submitAll rest
    (job.toList ++ jobs, executor)

/-- Ask for a flush of every registered target that is still there, and forget the others. `isHeld` tells which
targets somebody holds; a flush holds its target as well. -/
def flushAll (executor : Executor) (isHeld : TargetId → Bool) : Nat × List JobId × Executor :=
  let live := executor.registrations.filter fun entry => isHeld entry.2 || executor.isFlushing entry.2
  let executor := { executor with registrations := live }
  let (jobs, executor) := executor.submitAll (live.map fun entry => entry.2)
  (live.length, jobs, executor)

def grant (executor : Executor) (job : JobId) : Bool × Executor :=
  if job ∈ executor.holders then (true, executor)
  else if executor.holders.length < executor.limit then
    (true, { executor with holders := executor.holders ++ [job] })
  else (false, { executor with queue := executor.queue ++ [job] })

def finish (executor : Executor) (job : JobId) : Option JobId × Executor :=
  let jobs := executor.jobs.filter fun entry => entry.1 != job
  let holders := executor.holders.filter (· != job)
  match executor.queue with
  | [] => (none, { executor with jobs, holders })
  | next :: queue => (some next, { executor with jobs, holders := holders ++ [next], queue })

def close (executor : Executor) : Executor :=
  { executor with accepting := false }

def describe (executor : Executor) : String :=
  "FlushExecutor \x7b interval: " ++ executor.interval.describe ++ ", registered: " ++
    executor.registered.repr ++ ", in_flight: " ++ executor.inFlight.repr ++ ", accepting: " ++
    toString executor.accepting ++ " \x7d"

end Executor

end KeyedLog
