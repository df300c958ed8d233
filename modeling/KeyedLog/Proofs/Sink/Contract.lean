import KeyedLog.Event
import KeyedLog.Fault

/-!
What is promised of every sink, from its beginning until after it was stopped. A kind of sink is given by what a call may
lead to, failures included; whatever holds of each call holds of all calls in any order.
-/

namespace KeyedLog

inductive SinkCall where
  | write (event : Event)
  | flush
  | stop

abbrev SinkLog := List (SinkCall × Except SinkFault Unit)

namespace SinkLog

def accepted (log : SinkLog) : List Event :=
  log.filterMap fun
    | (.write event, .ok ()) => some event
    | _ => none

def HasStop (log : SinkLog) : Prop :=
  ∃ answer, (SinkCall.stop, answer) ∈ log

theorem accepted_append (first second : SinkLog) : accepted (first ++ second) = first.accepted ++ second.accepted :=
  List.filterMap_append

theorem hasStop_concat (log : SinkLog) (call : SinkCall) (answer : Except SinkFault Unit) :
    HasStop (log ++ [(call, answer)]) ↔ log.HasStop ∨ call = .stop := by
  simp only [HasStop, List.mem_append, List.mem_singleton, Prod.mk.injEq, exists_or]
  refine or_congr_right ⟨?_, ?_⟩
  · rintro ⟨_, same, -⟩
    exact same.symm
  · rintro rfl
    exact ⟨answer, rfl, rfl⟩

end SinkLog

/-- A kind of sink in use, each state of which is a sink with all that it writes to. -/
structure SinkUsage (State : Type) where
  /-- How a call may be answered and what it may leave behind, whatever fails meanwhile. -/
  Ends : SinkCall → State → Except SinkFault Unit → State → Prop
  /-- What others may do between two calls. -/
  Meanwhile : State → State → Prop
  isStopped : State → Bool

namespace SinkUsage

variable {State : Type} {usage : SinkUsage State} {name : String} {start state : State} {log : SinkLog}
  {Stored Keeps : List Event → State → Prop} {Closes : State → State → Prop}

inductive Course (usage : SinkUsage State) (start : State) : SinkLog → State → Prop where
  | start : Course usage start [] start
  | meanwhile {log : SinkLog} {state after : State} (course : Course usage start log state)
      (others : usage.Meanwhile state after) : Course usage start log after
  | call {log : SinkLog} {state after : State} {call : SinkCall} {answer : Except SinkFault Unit}
      (course : Course usage start log state) (ends : usage.Ends call state answer after) :
      Course usage start (log ++ [(call, answer)]) after

/-- The events that were taken in are stored. A sink is stopped from the first stop on, which closes it; then it refuses
every event by its name, and neither this nor stopping it again has an effect. -/
structure KeepsContract (usage : SinkUsage State) (name : String) (start : State) (Stored : List Event → State → Prop)
    (Closes : State → State → Prop) : Prop where
  answers : ∀ call state, ∃ answer after, usage.Ends call state answer after
  stored : ∀ log state, usage.Course start log state → Stored log.accepted state
  stopped : ∀ log state, usage.Course start log state → (usage.isStopped state = true ↔ log.HasStop)
  closes : ∀ log state answer after, usage.Course start log state → ¬log.HasStop →
    usage.Ends .stop state answer after → Closes state after
  refuses : ∀ log state event answer after, usage.Course start log state → log.HasStop →
    usage.Ends (.write event) state answer after → answer = .error (.stopped name) ∧ after = state
  idle : ∀ log state answer after, usage.Course start log state → log.HasStop →
    usage.Ends .stop state answer after → after = state

/-- What single calls have to do for the contract, given what they keep. -/
structure IsLawful (usage : SinkUsage State) (name : String) (Keeps : List Event → State → Prop)
    (Closes : State → State → Prop) : Prop where
  answers : ∀ call state, ∃ answer after, usage.Ends call state answer after
  meanwhile : ∀ events state after, Keeps events state → usage.Meanwhile state after →
    Keeps events after ∧ usage.isStopped after = usage.isStopped state
  accepts : ∀ events event state after, Keeps events state → usage.Ends (.write event) state (.ok ()) after →
    Keeps (events ++ [event]) after ∧ usage.isStopped state = false ∧ usage.isStopped after = false
  refuses : ∀ events event fault state after, Keeps events state →
    usage.Ends (.write event) state (.error fault) after →
      Keeps events after ∧ usage.isStopped after = usage.isStopped state ∧
        (usage.isStopped state = true → fault = .stopped name ∧ after = state)
  flushes : ∀ events answer state after, Keeps events state → usage.Ends .flush state answer after →
    Keeps events after ∧ usage.isStopped after = usage.isStopped state
  stops : ∀ events answer state after, Keeps events state → usage.Ends .stop state answer after →
    Keeps events after ∧ usage.isStopped after = true ∧ (usage.isStopped state = true → after = state) ∧
      (usage.isStopped state = false → Closes state after)

theorem IsLawful.call (lawful : usage.IsLawful name Keeps Closes) {call : SinkCall} {answer : Except SinkFault Unit}
    {after : State} (keeps : Keeps log.accepted state) (stopped : usage.isStopped state = true ↔ log.HasStop)
    (ends : usage.Ends call state answer after) :
    Keeps (SinkLog.accepted (log ++ [(call, answer)])) after ∧
      (usage.isStopped after = true ↔ SinkLog.HasStop (log ++ [(call, answer)])) := by
  rw [SinkLog.accepted_append, SinkLog.hasStop_concat]
  have other {call : SinkCall} (different : call ≠ .stop) (same : usage.isStopped after = usage.isStopped state) :
      usage.isStopped after = true ↔ log.HasStop ∨ call = .stop := by
    rw [same, stopped, or_iff_left different]
  cases call with
  | write event =>
      cases answer with
      | ok value =>
          obtain ⟨keeps, before, same⟩ := lawful.accepts _ event state after keeps ends
          exact ⟨keeps, other (by simp) (same.trans before.symm)⟩
      | error fault =>
          obtain ⟨keeps, same, -⟩ := lawful.refuses _ event fault state after keeps ends
          exact ⟨(List.append_nil _).symm ▸ keeps, other (by simp) same⟩
  | flush =>
      obtain ⟨keeps, same⟩ := lawful.flushes _ answer state after keeps ends
      exact ⟨(List.append_nil _).symm ▸ keeps, other (by simp) same⟩
  | stop =>
      obtain ⟨keeps, now, -⟩ := lawful.stops _ answer state after keeps ends
      exact ⟨(List.append_nil _).symm ▸ keeps, by simp [now]⟩

theorem IsLawful.course (lawful : usage.IsLawful name Keeps Closes) (begins : Keeps [] start)
    (running : usage.isStopped start = false) (course : usage.Course start log state) :
    Keeps log.accepted state ∧ (usage.isStopped state = true ↔ log.HasStop) := by
  induction course with
  | start => exact ⟨begins, by simp [running, SinkLog.HasStop]⟩
  | meanwhile _ others ih =>
      obtain ⟨keeps, same⟩ := lawful.meanwhile _ _ _ ih.1 others
      exact ⟨keeps, same ▸ ih.2⟩
  | call _ ends ih => exact lawful.call ih.1 ih.2 ends

theorem IsLawful.contract (lawful : usage.IsLawful name Keeps Closes) (begins : Keeps [] start)
    (running : usage.isStopped start = false) (stored : ∀ events state, Keeps events state → Stored events state) :
    usage.KeepsContract name start Stored Closes where
  answers := lawful.answers
  stored _ _ course := stored _ _ (lawful.course begins running course).1
  stopped _ _ course := (lawful.course begins running course).2
  closes _ _ answer after course open' ends := by
    obtain ⟨keeps, stopped⟩ := lawful.course begins running course
    exact (lawful.stops _ answer _ after keeps ends).2.2.2 (Bool.eq_false_iff.mpr fun now => open' (stopped.mp now))
  refuses _ _ event answer after course ended ends := by
    obtain ⟨keeps, stopped⟩ := lawful.course begins running course
    cases answer with
    | ok value =>
        have before := (lawful.accepts _ event _ after keeps ends).2.1
        rw [stopped.mpr ended] at before
        cases before
    | error fault =>
        obtain ⟨rfl, same⟩ := (lawful.refuses _ event fault _ after keeps ends).2.2 (stopped.mpr ended)
        exact ⟨rfl, same⟩
  idle _ _ answer after course ended ends := by
    obtain ⟨keeps, stopped⟩ := lawful.course begins running course
    exact (lawful.stops _ answer _ after keeps ends).2.2.1 (stopped.mpr ended)

end SinkUsage

end KeyedLog
