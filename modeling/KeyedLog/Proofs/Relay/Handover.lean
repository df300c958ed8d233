import KeyedLog.Proofs.Relay.Session

/-!
What becomes of a report. The event that it amounts to depends on the spans around it only, and no report has a part in
what another one amounts to. It is handed to the dispatcher that the relay was bound to first, unless there is a reason not
to.
-/

namespace KeyedLog

/-- A target that names dispatching itself, or a part of it. -/
def Relay.IsOwnPath (ownTarget target : String) : Prop :=
  target = ownTarget ∨ (ownTarget ++ "::").toList <+: target.toList

theorem Relay.isOwn_of_isOwnPath {relay : Relay} {target : String} (own : IsOwnPath relay.ownTarget target) :
    relay.isOwn target = true := by
  rw [isOwn, List.isPrefixOf_iff_prefix]
  rcases own with rfl | below
  · exact List.prefix_rfl
  · rw [String.toList_append] at below
    exact (List.prefix_append ..).trans below

theorem Dispatcher.dispatch_accepting {dispatcher : Dispatcher} {event : Event} (accepting : dispatcher.accepting = true)
    (severe : dispatcher.minLevel ≤ event.level) (world : World) :
    (dispatcher.dispatch event world).2 = dispatcher.deliver event world := by
  have notBelow : ¬event.level < dispatcher.minLevel := Nat.not_lt.mpr severe
  rw [dispatch, if_neg (by simp [accepting]), if_neg notBelow]
  rfl

namespace Session

variable {session other : Session} {actions : List Action}

def handOver (session : Session) (index : Nat) (dispatcher : Dispatcher) (report : Report) : Session :=
  let event := session.relay.event (UInt64.ofNat session.world.timestamp) report
  let (dispatcher, world) := dispatcher.deliver event session.world
  session.setDispatcher index dispatcher world

def firstBound (count : Nat) (actions : List Action) : Option Nat :=
  actions.findSome? fun
    | .bound index => if index < count then some index else none
    | _ => none

theorem setDispatcher_self {index : Nat} {dispatcher : Dispatcher}
    (present : session.dispatchers[index]? = some dispatcher) :
    session.setDispatcher index dispatcher session.world = session := by
  obtain ⟨inside, rfl⟩ := List.getElem?_eq_some_iff.mp present
  rw [setDispatcher, List.set_getElem_self]

theorem length_report (report : Report) : (session.report report).dispatchers.length = session.dispatchers.length := by
  rw [Session.report]
  split
  · exact List.length_set
  · rfl

theorem chosen_report (report : Report) : (session.report report).chosen = session.chosen := by
  rw [Session.report]
  split <;> rfl

/-- The relay is bound to the first dispatcher it was to be bound to, out of `total`, and to none before that. -/
structure Binding (ownTarget : String) (total : Nat) (first : Option Nat) (session : Session) : Prop where
  own : session.relay.ownTarget = ownTarget
  count : session.dispatchers.length = total
  chosen : session.chosen = first
  bound : session.relay.bound = first.isSome
  inside : ∀ index ∈ first, index < total

variable {ownTarget : String} {total : Nat} {first : Option Nat}

theorem Binding.congr (binding : session.Binding ownTarget total first)
    (own : other.relay.ownTarget = session.relay.ownTarget)
    (count : other.dispatchers.length = session.dispatchers.length) (chosen : other.chosen = session.chosen)
    (bound : other.relay.bound = session.relay.bound) : other.Binding ownTarget total (first.or none) := by
  rw [Option.or_none]
  exact ⟨own.trans binding.own, count.trans binding.count, chosen.trans binding.chosen, bound.trans binding.bound,
    binding.inside⟩

theorem Binding.bind (binding : session.Binding ownTarget total first) (index : Nat) :
    (session.bind index).Binding ownTarget total (first.or (if index < total then some index else none)) := by
  rw [Session.bind, binding.count]
  split
  next inside =>
    cases first with
    | none =>
        refine ⟨binding.own, binding.count, ?_, rfl, by simpa using inside⟩
        simp [Relay.bind, binding.bound]
    | some before =>
        refine ⟨binding.own, binding.count, ?_, rfl, binding.inside⟩
        simp [Relay.bind, binding.bound, binding.chosen]
  next => exact binding.congr rfl rfl rfl rfl

theorem Binding.act (binding : session.Binding ownTarget total first) (action : Action) :
    (session.act action).Binding ownTarget total (first.or (firstBound total [action])) := by
  cases action with
  | bound index =>
      have first : firstBound total [.bound index] = if index < total then some index else none := by
        rw [firstBound, List.findSome?_singleton]
      rw [first]
      exact binding.bind index
  | reported report =>
      have relay : (session.report report).relay = session.relay := relay_report report
      exact binding.congr (congrArg Relay.ownTarget relay) (length_report report) (chosen_report report)
        (congrArg Relay.bound relay)
  | closed index => exact binding.congr rfl (List.length_modify ..) rfl rfl
  | elsewhere index next world => exact binding.congr rfl List.length_set rfl rfl
  | opened | entered | left | resumed | recorded => exact binding.congr rfl rfl rfl rfl

theorem Binding.run (binding : session.Binding ownTarget total first) (actions : List Action) :
    (session.run actions).Binding ownTarget total (first.or (firstBound total actions)) := by
  induction actions generalizing session first with
  | nil => exact binding.congr rfl rfl rfl rfl
  | cons action rest ih =>
      have split : firstBound total (action :: rest) = (firstBound total [action]).or (firstBound total rest) := by
        rw [firstBound, firstBound, firstBound, ← List.findSome?_append]
        rfl
      rw [split, ← Option.or_assoc]
      exact ih (binding.act action)

theorem binding_run_start (ownTarget : String) (dispatchers : List Dispatcher) (world : World) (actions : List Action) :
    ((start ownTarget dispatchers world).run actions).Binding ownTarget dispatchers.length
      (firstBound dispatchers.length actions) :=
  have begun : (start ownTarget dispatchers world).Binding ownTarget dispatchers.length none :=
    ⟨rfl, rfl, rfl, rfl, nofun⟩
  begun.run actions

theorem report_eq {index : Nat} {dispatcher : Dispatcher} (chosen : session.chosen = some index)
    (present : session.dispatchers[index]? = some dispatcher) (bound : session.relay.bound = true) (report : Report) :
    session.report report =
      if dispatcher.accepting = true ∧ dispatcher.minLevel ≤ report.level ∧
          ¬session.relay.ownTarget.toList <+: report.target.toList then
        session.handOver index dispatcher report
      else session := by
  have found : session.dispatcher? = some dispatcher := by rw [dispatcher?, chosen, Option.bind_some, present]
  have accepts : session.relay.accepts dispatcher report = true ↔ dispatcher.accepting = true ∧
      dispatcher.minLevel ≤ report.level ∧ ¬session.relay.ownTarget.toList <+: report.target.toList := by
    rw [Relay.accepts, Relay.isOwn, bound, ← List.isPrefixOf_iff_prefix]
    simp only [Bool.and_true, Bool.and_eq_true, Bool.not_eq_true', decide_eq_true_eq, Bool.not_eq_true]
    exact ⟨fun accepted => ⟨accepted.2, accepted.1.2, accepted.1.1⟩, fun asked => ⟨⟨asked.2.2, asked.2.1⟩, asked.1⟩⟩
  rw [Session.report, chosen, found]
  dsimp only
  rw [Relay.report]
  simp only [accepts]
  split
  next handed =>
    rw [handOver]
    dsimp only
    rw [Dispatcher.dispatch_accepting handed.1 handed.2.1]
  next => exact setDispatcher_self present

end Session

open Session

example :
    let uploads : UploadSchedule :=
      { executor := .idle, work := { files := .empty [], store := { backend := .memory {} } } }
    let session := (start "logsift" [] { uploads }).run
      [.entered [("user", .text "ann"), ("attempt", .integer 1)], .entered [("attempt", .integer 2)],
        .recorded 0 [("user", .text "bob")]]
    let report : Report := { level := .info, target := "app", fields := [("message", .text "on it")] }
    (session.relay.event 0 report).context = .ofList [("attempt", "2"), ("user", "bob")] := by
  decide

/-- Whatever happens, the relay is bound to the first dispatcher that it was to be bound to, and hands nothing over before.
It hands a report to the destinations of that dispatcher if the dispatcher accepts events, the report is severe enough and
the name of its target does not begin like that of dispatching itself, as all names below the latter do; and it does
nothing otherwise. -/
theorem reports_reach_first_bound (ownTarget : String) (dispatchers : List Dispatcher) (world : World)
    (actions : List Action) (report : Report) :
    let session := (start ownTarget dispatchers world).run actions
    session.chosen = firstBound dispatchers.length actions ∧
      (session.chosen = none → session.act (.reported report) = session ∧
        ∀ dispatcher world, session.relay.report report dispatcher world = (dispatcher, world)) ∧
      (∀ index, session.chosen = some index → ∃ dispatcher, session.dispatchers[index]? = some dispatcher ∧
        session.act (.reported report) =
          if dispatcher.accepting = true ∧ dispatcher.minLevel ≤ report.level ∧
              ¬ownTarget.toList <+: report.target.toList then
            session.handOver index dispatcher report
          else session) ∧
      (Relay.IsOwnPath ownTarget report.target → ownTarget.toList <+: report.target.toList) := by
  intro session
  have binding := binding_run_start ownTarget dispatchers world actions
  have own : session.relay.ownTarget = ownTarget := binding.own
  refine ⟨binding.chosen, fun none => ⟨?_, fun dispatcher world => ?_⟩, fun index chosen => ?_, fun below => ?_⟩
  · simp [act, Session.report, none]
  · have unbound : session.relay.bound = false := by
      rw [binding.bound, ← binding.chosen, none, Option.isSome_none]
    rw [Relay.report, Relay.accepts, unbound, Bool.and_false, Bool.false_and, Bool.false_and,
      if_neg Bool.false_ne_true]
  · have inside : index < session.dispatchers.length :=
      binding.count ▸ binding.inside index (binding.chosen.symm.trans chosen)
    have bound : session.relay.bound = true := by
      rw [binding.bound, ← binding.chosen, chosen, Option.isSome_some]
    refine ⟨_, List.getElem?_eq_getElem inside, ?_⟩
    rw [← own]
    exact report_eq chosen (List.getElem?_eq_getElem inside) bound report
  · rw [← own] at below ⊢
    exact List.isPrefixOf_iff_prefix.mp (Relay.isOwn_of_isOwnPath below)

/-- A target whose name only begins with the same letters is taken for one of dispatching itself. -/
theorem unrelated_target_is_dropped :
    let dispatcher : Dispatcher := { platform := some 0 }
    let world : World :=
      { uploads := { executor := .idle, work := { files := .empty [], store := { backend := .memory {} } } }
        sinks := [.recording { name := "platform" }] }
    let session := (start ({} : Relay).ownTarget [dispatcher] world).run [.bound 0]
    let report : Report := { level := .info, target := "logsifter", fields := [("message", .text "m")] }
    session.dispatchers = [dispatcher] ∧ session.chosen = some 0 ∧ dispatcher.accepting = true ∧
      dispatcher.minLevel ≤ report.level ∧ ¬Relay.IsOwnPath ({} : Relay).ownTarget report.target ∧
      (session.act (.reported report)).world.records = [] ∧
      (session.handOver 0 dispatcher report).world.records = [⟨"platform", .received ⟨0, .info, "m", ∅⟩⟩] := by
  refine ⟨rfl, rfl, rfl, by decide, ?_, ?_, ?_⟩
  · rintro (same | below)
    · exact absurd same (by decide)
    · exact absurd below (by decide)
  · decide
  · decide

end KeyedLog
