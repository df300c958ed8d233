/-! The signal that ends background work. It is given once, to everyone who listens at that moment. -/

namespace KeyedLog

abbrev ListenerId := Nat

structure ShutdownSignal where
  triggered : Bool := false
  /-- Who listens, and whether the signal has reached them without being noticed yet. -/
  listeners : List (ListenerId × Bool) := []
  nextListener : ListenerId := 0
  deriving DecidableEq, Repr

namespace ShutdownSignal

def subscribe (signal : ShutdownSignal) : ListenerId × ShutdownSignal :=
  (signal.nextListener,
    { signal with
      listeners := signal.listeners ++ [(signal.nextListener, false)]
      nextListener := signal.nextListener + 1 })

def unsubscribe (signal : ShutdownSignal) (listener : ListenerId) : ShutdownSignal :=
  { signal with listeners := signal.listeners.filter fun entry => entry.1 != listener }

def trigger (signal : ShutdownSignal) : Bool × ShutdownSignal :=
  if signal.triggered then (false, signal)
  else
    (true, { signal with triggered := true, listeners := signal.listeners.map fun entry => (entry.1, true) })

/-- Notice the signal. False if there is nothing to notice; none if the listener listens no more. -/
def receive? (signal : ShutdownSignal) (listener : ListenerId) : Option Bool × ShutdownSignal :=
  (signal.listeners.lookup listener,
    { signal with listeners := signal.listeners.map fun entry =>
        if entry.1 = listener then (entry.1, false) else entry })

def listenerCount (signal : ShutdownSignal) : Nat :=
  signal.listeners.length

def describe (signal : ShutdownSignal) : String :=
  "Shutdown \x7b triggered: " ++ toString signal.triggered ++ ", receivers: " ++
    signal.listenerCount.repr ++ " \x7d"

end ShutdownSignal

end KeyedLog
