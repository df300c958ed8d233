import KeyedLog.Dispatcher

/-! A dispatcher at work: with its world around it, and with idle sinks stopped from time to time. -/

namespace KeyedLog

structure Reaper where
  interval : Millis
  next : Millis
  deriving DecidableEq, Repr

structure Engine where
  dispatcher : Dispatcher
  world : World
  reaper : Option Reaper := none

namespace Engine

def clock (engine : Engine) : Millis :=
  engine.world.uploads.clock

def onWorld {α : Type} (engine : Engine) (change : World → α × World) : α × Engine :=
  let (result, world) := change engine.world
  (result, { engine with world })

def onRouter {α : Type} (engine : Engine) (name : String) (change : Router → World → α × Router × World) :
    Option α × Engine :=
  let (result, dispatcher, world) := engine.dispatcher.onRouter name engine.world change
  (result, { engine with dispatcher, world })

def close (engine : Engine) : Bool × Engine :=
  let (wasOpen, dispatcher) := engine.dispatcher.close
  (wasOpen, { engine with dispatcher })

def dispatch (engine : Engine) (event : Event) : List DispatchFault × Engine :=
  let (faults, dispatcher, world) := engine.dispatcher.dispatch event engine.world
  (faults, { engine with dispatcher, world })

def reapOnce (engine : Engine) : Nat × Engine :=
  let (count, dispatcher, world) := engine.dispatcher.reap engine.world
  (count, { engine with dispatcher, world })

def startReaper (engine : Engine) (interval : Millis) : Engine :=
  if interval = 0 then engine
  else { engine with reaper := some ⟨interval, engine.clock + interval⟩ }

def stopReaper (engine : Engine) : Engine :=
  { engine with reaper := none }

/-- Let time go on to a moment. `fuel` bounds the number of passes over idle sinks. -/
def advanceFrom : (fuel : Nat) → (time : Millis) → Engine → Engine
  | 0, _, engine => engine
  | fuel + 1, time, engine =>
    match engine.reaper with
    | none => { engine with world := engine.world.advanceTo time }
    | some reaper =>
      if reaper.next ≤ time then
        let engine := { engine with
          world := engine.world.advanceTo reaper.next
          reaper := some { reaper with next := reaper.next + reaper.interval } }
        advanceFrom fuel time engine.reapOnce.2
      else { engine with world := engine.world.advanceTo time }

def advanceTo (engine : Engine) (time : Millis) : Engine :=
  engine.advanceFrom Schedule.patience time

def settle (engine : Engine) : Engine :=
  engine.advanceTo engine.clock

end Engine

end KeyedLog
