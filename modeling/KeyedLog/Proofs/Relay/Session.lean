import KeyedLog.Proofs.Relay.Resolution

/-!
A relay in use. Spans are opened, entered, left and recorded on in any order, dispatchers are bound and closed, and reports
come in between.
-/

namespace KeyedLog

def Spans.openWithin (spans : Spans) (parent : Option SpanId) (fields : Fields) : Spans :=
  { spans with all := spans.all ++ [{ parent := parent.filter (· < spans.all.length), values := fields.record ∅ }] }

def Spans.resume (spans : Spans) (id : SpanId) : Spans :=
  if id < spans.all.length ∧ id ∉ spans.entered then { spans with entered := id :: spans.entered } else spans

def Dispatcher.deliver (dispatcher : Dispatcher) (event : Event) (world : World) : Dispatcher × World :=
  let (_, world) := dispatcher.writePlatform event world
  let (_, routers, world) := routeAll event dispatcher.routers world
  ({ dispatcher with routers }, world)

/-- A relay, and the dispatchers that it can be bound to. -/
structure Session where
  relay : Relay
  dispatchers : List Dispatcher
  chosen : Option Nat := none
  world : World

namespace Session

inductive Action where
  | opened (parent : Option SpanId) (fields : Fields)
  | entered (fields : Fields)
  | left
  | resumed (span : SpanId)
  | recorded (span : SpanId) (fields : Fields)
  | reported (report : Report)
  | bound (dispatcher : Nat)
  | closed (dispatcher : Nat)
  | elsewhere (dispatcher : Nat) (next : Dispatcher) (world : World)

def start (ownTarget : String) (dispatchers : List Dispatcher) (world : World) : Session :=
  { relay := { ownTarget }, dispatchers, world }

def dispatcher? (session : Session) : Option Dispatcher :=
  session.chosen.bind (session.dispatchers[·]?)

def setDispatcher (session : Session) (index : Nat) (dispatcher : Dispatcher) (world : World) : Session :=
  { session with dispatchers := session.dispatchers.set index dispatcher, world }

def onSpans (session : Session) (change : Spans → Spans) : Session :=
  { session with relay := { session.relay with spans := change session.relay.spans } }

def bind (session : Session) (index : Nat) : Session :=
  if index < session.dispatchers.length then
    let (first, relay) := session.relay.bind
    { session with relay, chosen := if first then some index else session.chosen }
  else session

def report (session : Session) (report : Report) : Session :=
  match session.chosen, session.dispatcher? with
  | some index, some dispatcher =>
    let (dispatcher, world) := session.relay.report report dispatcher session.world
    session.setDispatcher index dispatcher world
  | _, _ => session

def act (session : Session) : Action → Session
  | .opened parent fields => session.onSpans (·.openWithin parent fields)
  | .entered fields => session.onSpans fun spans => (spans.enter fields).2
  | .left => session.onSpans fun spans => spans.leave.2
  | .resumed span => session.onSpans (·.resume span)
  | .recorded span fields => session.onSpans (·.record span fields)
  | .reported report => session.report report
  | .bound index => session.bind index
  | .closed index => { session with dispatchers := session.dispatchers.modify index fun dispatcher => dispatcher.close.2 }
  | .elsewhere index next world => session.setDispatcher index next world

def run (session : Session) (actions : List Action) : Session :=
  actions.foldl act session

end Session

def Story.tell (story : Story) : Session.Action → Story
  | .opened parent fields =>
    { story with spans := story.spans ++ [{ parent := parent.filter (· < story.spans.length), fields }] }
  | .entered fields =>
    { spans := story.spans ++ [{ parent := story.entered.head?, fields }]
      entered := story.spans.length :: story.entered }
  | .left => { story with entered := story.entered.tail }
  | .resumed span =>
    if span < story.spans.length ∧ span ∉ story.entered then { story with entered := span :: story.entered } else story
  | .recorded span fields =>
    { story with spans := story.spans.modify span fun known => { known with fields := known.fields ++ fields } }
  | .reported _ | .bound _ | .closed _ | .elsewhere .. => story

def Story.of (actions : List Session.Action) : Story :=
  actions.foldl Story.tell {}

namespace Story

variable {story : Story} {action : Session.Action}

theorem Grounded.tell (grounded : story.Grounded) (action : Session.Action) : (story.tell action).Grounded := by
  have extended {parent : Option SpanId} {fields : Fields} {entered : List SpanId}
      (before : ∀ outer, parent = some outer → outer < story.spans.length)
      (opened : ∀ id ∈ entered, id ≤ story.spans.length) :
      Grounded { spans := story.spans ++ [{ parent, fields }], entered } := by
    refine ⟨fun id span outer present within => ?_, fun id member => ?_⟩
    · rw [List.getElem?_append] at present
      split at present
      next => exact grounded.older id span outer present within
      next beyond =>
        obtain ⟨last, rfl⟩ := List.getElem?_eq_some_iff.mp present |>.imp fun _ => Eq.symm
        refine Nat.lt_of_lt_of_le (before outer ?_) (Nat.not_lt.mp beyond)
        simpa using within
    · simpa [Nat.lt_succ_iff] using opened id member
  cases action with
  | opened parent fields =>
      refine extended (fun outer within => ?_) fun id member => Nat.le_of_lt (grounded.opened id member)
      simpa using (Option.filter_eq_some_iff.mp within).2
  | entered fields =>
      refine extended (fun outer within => grounded.opened outer (List.mem_of_head? within)) fun id member => ?_
      rcases List.mem_cons.mp member with rfl | further
      · exact Nat.le_refl _
      · exact Nat.le_of_lt (grounded.opened id further)
  | left => exact ⟨grounded.older, fun id member => grounded.opened id (List.mem_of_mem_tail member)⟩
  | resumed span =>
      rw [Story.tell]
      split
      next fresh =>
        refine ⟨grounded.older, fun id member => ?_⟩
        rcases List.mem_cons.mp member with rfl | further
        · exact fresh.1
        · exact grounded.opened id further
      next => exact grounded
  | recorded target fields =>
      refine ⟨fun id span outer present within => ?_, fun id member => ?_⟩
      · rw [Story.tell, List.getElem?_modify] at present
        obtain ⟨known, old, rfl⟩ := Option.map_eq_some_iff.mp present
        refine grounded.older id known outer old ?_
        split at within <;> exact within
      · simpa [Story.tell] using grounded.opened id member
  | reported | bound | closed | elsewhere => exact grounded

theorem Grounded.of (actions : List Session.Action) : (Story.of actions).Grounded := by
  have begun : Grounded {} := ⟨nofun, nofun⟩
  rw [Story.of]
  generalize ({} : Story) = story at begun
  induction actions generalizing story with
  | nil => exact begun
  | cons action rest ih => exact ih _ (begun.tell action)

end Story

namespace Session

variable {session : Session} {story : Story}

@[simp] theorem relay_setDispatcher (index : Nat) (dispatcher : Dispatcher) (world : World) :
    (session.setDispatcher index dispatcher world).relay = session.relay := rfl

theorem relay_report (report : Report) : (session.report report).relay = session.relay := by
  rw [Session.report]
  split <;> rfl

end Session

end KeyedLog
