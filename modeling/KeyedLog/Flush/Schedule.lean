import KeyedLog.Flush.Executor

/-! Flushes in time. Everything that is ready runs before time goes on; time goes from one alarm to the
next. -/

namespace KeyedLog

inductive Progress (ω : Type) where
  | finished (result : ω) (next : Option JobId)
  /-- It goes on when another job ends. -/
  | blocked
  | paused (pause : Pause)

/-- How flushes are carried out on a state of type `σ`. -/
structure Worker (σ ω : Type) where
  resume : JobId → TargetId → σ → Progress ω × σ
  isHeld : σ → TargetId → Bool

inductive Activity where
  | flush (job : JobId)
  /-- Flush everything that is registered, and do so again after the interval. -/
  | tick
  deriving DecidableEq, Repr

structure Schedule (σ : Type) where
  executor : Executor
  work : σ
  clock : Millis := 0
  /-- Flushes that somebody waits for and that need no permit. -/
  direct : List (JobId × TargetId) := []
  ready : List Activity := []
  alarms : List (Millis × Activity) := []
  /-- The flushes for which others do something. -/
  away : List JobId := []

structure DrainReport where
  completed : Bool
  abandoned : Nat
  deriving DecidableEq, Repr

namespace Schedule

variable {σ ω : Type}

def insertAlarm (time : Millis) (activity : Activity) : List (Millis × Activity) → List (Millis × Activity)
  | [] => [(time, activity)]
  | alarm :: rest =>
    if alarm.1 ≤ time then alarm :: insertAlarm time activity rest else (time, activity) :: alarm :: rest

def after (schedule : Schedule σ) (duration : Millis) (activity : Activity) : Schedule σ :=
  { schedule with alarms := insertAlarm (schedule.clock + duration) activity schedule.alarms }

def wake (schedule : Schedule σ) (jobs : List JobId) : Schedule σ :=
  { schedule with ready := schedule.ready ++ jobs.map Activity.flush }

def submit (schedule : Schedule σ) (target : TargetId) : Bool × Schedule σ :=
  let (job, executor) := schedule.executor.submit target
  (job.isSome, { schedule with executor }.wake job.toList)

def flushAll (worker : Worker σ ω) (schedule : Schedule σ) : Nat × Schedule σ :=
  let (count, jobs, executor) := schedule.executor.flushAll (worker.isHeld schedule.work)
  (count, { schedule with executor }.wake jobs)

def horizon : Millis := Millis.ofSeconds (Nat.pow 2 63)

/-- Start to flush everything from time to time, for the first time after one interval. Nothing is started if
there is no interval, or if no moment can be told that is one interval away. -/
def startTicker (schedule : Schedule σ) : Schedule σ :=
  if schedule.executor.interval = 0 ∨ horizon ≤ schedule.clock + schedule.executor.interval then schedule
  else schedule.after schedule.executor.interval .tick

def isTicking (schedule : Schedule σ) : Bool :=
  schedule.ready.contains .tick || schedule.alarms.any fun alarm => alarm.2 == .tick

def stopTicker (schedule : Schedule σ) : Schedule σ :=
  { schedule with
    ready := schedule.ready.filter (· != .tick)
    alarms := schedule.alarms.filter fun alarm => alarm.2 != .tick }

def pause (schedule : Schedule σ) (job : JobId) : Pause → Schedule σ
  | .sleep duration =>
    -- A flush that sleeps for no time at all goes on before anything else does.
    if duration = 0 then { schedule with ready := .flush job :: schedule.ready }
    else schedule.after duration (.flush job)
  | .away => { schedule with away := schedule.away ++ [job] }

def carryOn (worker : Worker σ ω) (schedule : Schedule σ) (job : JobId) (target : TargetId) :
    Option (JobId × ω) × Schedule σ :=
  let (progress, work) := worker.resume job target schedule.work
  let schedule := { schedule with work }
  match progress with
  | .blocked => (none, schedule)
  | .paused pause => (none, schedule.pause job pause)
  | .finished result next =>
    let schedule := schedule.wake next.toList
    if (schedule.direct.lookup job).isSome then
      (some (job, result), { schedule with direct := schedule.direct.filter fun entry => entry.1 != job })
    else
      let (granted, executor) := schedule.executor.finish job
      (some (job, result), { schedule with executor }.wake granted.toList)

/-- Let a flush go on if it may: it needs a permit, unless somebody waits for it. The result is its target. -/
def enter (schedule : Schedule σ) (job : JobId) : Option TargetId × Schedule σ :=
  match schedule.direct.lookup job with
  | some target => (some target, schedule)
  | none =>
    match schedule.executor.jobs.lookup job with
    | none => (none, schedule)
    | some target =>
      let (granted, executor) := schedule.executor.grant job
      (if granted then some target else none, { schedule with executor })

def run (worker : Worker σ ω) (schedule : Schedule σ) : Activity → Option (JobId × ω) × Schedule σ
  | .tick =>
    let (_, schedule) := schedule.flushAll worker
    (none, schedule.startTicker)
  | .flush job =>
    match schedule.enter job with
    | (none, schedule) => (none, schedule)
    | (some target, schedule) => schedule.carryOn worker job target

def patience : Nat := Nat.pow 2 60

def settleFrom (worker : Worker σ ω) :
    (fuel : Nat) → (ended : List (JobId × ω)) → Schedule σ → List (JobId × ω) × Schedule σ
  | 0, ended, schedule => (ended, schedule)
  | fuel + 1, ended, schedule =>
    match schedule.ready with
    | [] => (ended, schedule)
    | activity :: rest =>
      let (result, schedule) := { schedule with ready := rest }.run worker activity
      settleFrom worker fuel (result.toList ++ ended) schedule

def settle (worker : Worker σ ω) (schedule : Schedule σ) : Schedule σ :=
  (schedule.settleFrom worker patience []).2

def bringBack (schedule : Schedule σ) (job : JobId) (others : List JobId) : Schedule σ :=
  { schedule with away := others }.wake [job]

/-- Run activities and wait for flushes that are away, until neither is left. Time does not go on meanwhile. -/
def calmFrom (worker : Worker σ ω) : (fuel : Nat) → Schedule σ → Schedule σ
  | 0, schedule => schedule
  | fuel + 1, schedule =>
    let schedule := schedule.settle worker
    match schedule.away with
    | [] => schedule
    | job :: others => calmFrom worker fuel (schedule.bringBack job others)

def calm (worker : Worker σ ω) (schedule : Schedule σ) : Schedule σ :=
  schedule.calmFrom worker patience

def nextAlarm? (schedule : Schedule σ) : Option Millis :=
  schedule.alarms.head?.map (·.1)

def moveTo (schedule : Schedule σ) (time : Millis) : Schedule σ :=
  { schedule with
    clock := max schedule.clock time
    ready := schedule.ready ++ (schedule.alarms.takeWhile fun alarm => alarm.1 ≤ time).map (·.2)
    alarms := schedule.alarms.dropWhile fun alarm => alarm.1 ≤ time }

def advanceFrom (worker : Worker σ ω) : (fuel : Nat) → (time : Millis) → Schedule σ → Schedule σ
  | 0, _, schedule => schedule
  | fuel + 1, time, schedule =>
    let schedule := schedule.settle worker
    if time ≤ schedule.clock then schedule
    else
      let schedule := schedule.calm worker
      let next := (schedule.nextAlarm?.map (min time)).getD time
      advanceFrom worker fuel time (schedule.moveTo next)

def advanceTo (worker : Worker σ ω) (schedule : Schedule σ) (time : Millis) : Schedule σ :=
  schedule.advanceFrom worker patience time

def awaitFrom (worker : Worker σ ω) (job : JobId) :
    (fuel : Nat) → Schedule σ → Option ω × Schedule σ
  | 0, schedule => (none, schedule)
  | fuel + 1, schedule =>
    let (ended, schedule) := schedule.settleFrom worker patience []
    match ended.lookup job, schedule.away, schedule.nextAlarm? with
    | some result, _, _ => (some result, schedule)
    | none, other :: others, _ => awaitFrom worker job fuel (schedule.bringBack other others)
    | none, [], some next => awaitFrom worker job fuel (schedule.moveTo next)
    | none, [], none => (none, schedule)

def beginDirect (schedule : Schedule σ) (target : TargetId) : JobId × Schedule σ :=
  let job := schedule.executor.nextJob
  (job,
    { schedule with
      executor := { schedule.executor with nextJob := job + 1 }
      direct := schedule.direct ++ [(job, target)]
      ready := .flush job :: schedule.ready })

def flushNow (worker : Worker σ ω) (schedule : Schedule σ) (target : TargetId) : Option ω × Schedule σ :=
  let (job, schedule) := schedule.beginDirect target
  schedule.awaitFrom worker job patience

def drainFrom (worker : Worker σ ω) (deadline : Millis) :
    (fuel : Nat) → Schedule σ → DrainReport × Schedule σ
  | 0, schedule => (⟨false, schedule.executor.inFlight⟩, schedule)
  | fuel + 1, schedule =>
    if schedule.executor.inFlight = 0 then (⟨true, 0⟩, schedule)
    else if schedule.clock ≥ deadline then (⟨false, schedule.executor.inFlight⟩, schedule)
    else
      let schedule := schedule.calm worker
      if schedule.executor.inFlight = 0 then (⟨true, 0⟩, schedule)
      else
        match schedule.nextAlarm? with
        | some next =>
          -- What would go on just at the deadline is too late.
          if next < deadline then drainFrom worker deadline fuel (schedule.moveTo next)
          else (⟨false, schedule.executor.inFlight⟩, { schedule with clock := deadline })
        | none => (⟨false, schedule.executor.inFlight⟩, { schedule with clock := deadline })

/-- Flush everything a last time, accept nothing more, and wait for all flushes, but only so long. -/
def drain (worker : Worker σ ω) (schedule : Schedule σ) (grace : Millis) : DrainReport × Schedule σ :=
  let (_, schedule) := schedule.flushAll worker
  let schedule := { schedule with executor := schedule.executor.close }
  schedule.drainFrom worker (schedule.clock + grace) (grace + 2)

end Schedule

end KeyedLog
