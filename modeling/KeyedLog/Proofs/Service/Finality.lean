import KeyedLog.Proofs.Router.Stops
import KeyedLog.Proofs.Service.Ownership

/-!
A shutdown is final. It stops all sinks that are live, so that every sink that was ever made for a router has been stopped
once, and from then on nothing that is asked of the service does anything.
-/

namespace KeyedLog

inductive Uploading : UploadSchedule → UploadSchedule → Prop where
  | flushAll (uploads : UploadSchedule) : Uploading uploads (uploads.flushAll Uploads.worker).2
  | submit (uploads : UploadSchedule) (target : TargetId) : Uploading uploads (uploads.submit target).2
  | flushNow (uploads : UploadSchedule) (target : TargetId) : Uploading uploads (uploads.beginDirect target).2
  | run (uploads : UploadSchedule) (before : List Activity) (activity : Activity) (after : List Activity)
      (ready : uploads.ready = before ++ activity :: after) :
      Uploading uploads ({ uploads with ready := before ++ after }.run Uploads.worker activity).2
  | bringBack (uploads : UploadSchedule) (before : List JobId) (job : JobId) (after : List JobId)
      (away : uploads.away = before ++ job :: after) : Uploading uploads (uploads.bringBack job (before ++ after))
  | wake (uploads : UploadSchedule) (time : Millis) : Uploading uploads (uploads.moveTo time)
  | outage (uploads : UploadSchedule) (count : UInt32) :
      Uploading uploads { uploads with work := { uploads.work with store := uploads.work.store.failNext count } }
  | chance (uploads : UploadSchedule) (chance : UInt64) :
      Uploading uploads { uploads with work := { uploads.work with chance } }

theorem Uploading.accepting {before after : UploadSchedule} (uploading : Uploading before after) :
    after.executor.accepting = before.executor.accepting := by
  cases uploading with
  | flushAll => exact Executor.flushAll_accepting ..
  | submit target => exact Executor.submit_accepting ..
  | flushNow target => rfl
  | run front activity back ready =>
      exact Schedule.run_accepting ObjectStore.proceed { before with ready := front ++ back } activity
  | bringBack front job back away => rfl
  | wake time => rfl
  | outage count => rfl
  | chance chance => rfl

theorem Schedule.drain_accepting (schedule : UploadSchedule) (grace : Millis) :
    (schedule.drain Uploads.worker grace).2.executor.accepting = false := by
  let keeps (schedule : UploadSchedule) : Prop := schedule.executor.accepting = false
  have stable : Uploads.worker.Keeps keeps :=
    ⟨fun schedule activity rest _ refuses =>
      (run_accepting ObjectStore.proceed { schedule with ready := rest } activity).trans refuses, fun _ _ _ _ refuses => refuses⟩
  exact drain_keeps stable (fun _ _ refuses => refuses) (fun _ _ refuses => refuses) schedule grace rfl

theorem Executor.submit_refused {executor : Executor} (refuses : executor.accepting = false) (target : TargetId) :
    executor.submit target = (none, executor) := by
  rw [submit, refuses, if_neg Bool.false_ne_true]

namespace Service

def dispatcher (service : Service) : Dispatcher :=
  service.engine.dispatcher

def setWorld (service : Service) (world : World) : Service :=
  { service with engine := { service.engine with world } }

/-- The sinks that routers stop when something happens to a service. -/
def stopsOf (service : Service) : ServiceUse → List SinkId
  | .dispatch _ => []
  | .reap => Dispatcher.idleSinks service.dispatcher.routers service.world.instant
  | .reapRouter name now =>
    (service.dispatcher.onRouter name service.world fun router world => (router.idleSinks now, router, world)).1.getD []
  | .wait _ _ => []

end Service

/-- A service with the sinks that its routers have stopped so far. -/
structure Lifetime where
  service : Service
  stops : List SinkId := []

namespace Lifetime

def use (life : Lifetime) (action : ServiceUse) : Lifetime :=
  ⟨life.service.use action, life.stops ++ life.service.stopsOf action⟩

def shutdown (life : Lifetime) : Lifetime :=
  ⟨life.service.shutdown.2,
    life.stops ++ if life.service.report.isSome then [] else Dispatcher.liveSinks life.service.dispatcher.routers⟩

inductive Step : Lifetime → Lifetime → Prop where
  | use (life : Lifetime) (action : ServiceUse) : Step life (life.use action)
  | flushAll (life : Lifetime) : Step life { life with service := life.service.flushAll.2 }
  | flush (life : Lifetime) (id : SinkId) :
      Step life { life with service := life.service.setWorld (life.service.world.flush id).2 }
  | uploading (life : Lifetime) {uploads : UploadSchedule} (uploading : Uploading life.service.world.uploads uploads) :
      Step life { life with service := life.service.setWorld { life.service.world with uploads } }
  /-- The next pass over idle sinks becomes due at some time, or never. -/
  | schedule (life : Lifetime) (reaper : Option Reaper) :
      Step life { life with service := { life.service with engine := { life.service.engine with reaper } } }

abbrev Run : Lifetime → Lifetime → Prop :=
  Relation.ReflTransGen Step

abbrev LateRun : Lifetime → Lifetime → Prop :=
  Relation.ReflTransGen fun before after => Step before after ∨ after = before.shutdown

/-- The sinks of routers are numbered from `first` on, and each is live or was stopped, one of the two and once. Below
that number there is the platform sink alone. -/
structure IsTallied (first : Nat) (life : Lifetime) : Prop where
  tally : life.service.world.Tally first (Dispatcher.liveSinks life.service.dispatcher.routers) life.stops
  platform : ∀ id, id < first ↔ life.service.dispatcher.platform = some id

variable {first : Nat} {life next : Lifetime}

theorem IsTallied.keep (tallied : life.IsTallied first) {service : Service}
    (keeps : life.service.world.KeepsStates service.world)
    (length : service.world.sinks.length = life.service.world.sinks.length)
    (dispatcher : service.dispatcher = life.service.dispatcher) :
    IsTallied first { life with service } where
  tally := by
    show service.world.Tally first (Dispatcher.liveSinks service.dispatcher.routers) life.stops
    rw [dispatcher]
    exact tallied.tally.keep keeps length
  platform := by
    show ∀ id, id < first ↔ service.dispatcher.platform = some id
    rw [dispatcher]
    exact tallied.platform

theorem IsTallied.use (tallied : life.IsTallied first) (action : ServiceUse) : (life.use action).IsTallied first := by
  cases action with
  | dispatch event =>
      refine ⟨?_, ?_⟩
      · show World.Tally _ _ _ (life.stops ++ [])
        rw [List.append_nil]
        exact Dispatcher.dispatch_tally tallied.tally event
      · have platform : (life.use (.dispatch event)).service.dispatcher.platform = life.service.dispatcher.platform :=
          Dispatcher.dispatch_platform life.service.dispatcher event life.service.world
        rw [platform]
        exact tallied.platform
  | reap => exact ⟨Dispatcher.reapEach_tally [] _ tallied.tally, tallied.platform⟩
  | reapRouter name now =>
      refine ⟨Dispatcher.reapRouter_tally tallied.tally name now, ?_⟩
      have platform : (life.use (.reapRouter name now)).service.dispatcher.platform = life.service.dispatcher.platform :=
        Dispatcher.onRouter_platform life.service.dispatcher name life.service.world fun router world => router.reapAt now world
      rw [platform]
      exact tallied.platform
  | wait instant timestamp =>
      have kept : IsTallied first { life with service := life.service.use (.wait instant timestamp) } :=
        tallied.keep (World.keepsStates_of_sinks rfl) rfl rfl
      refine ⟨?_, kept.platform⟩
      show World.Tally _ _ _ (life.stops ++ [])
      rw [List.append_nil]
      exact kept.tally

theorem flush_sinks (world : World) (id : SinkId) : (world.flush id).2.sinks = world.sinks := by
  unfold World.flush
  split <;> rfl

theorem flushAll_engine (service : Service) :
    service.flushAll.2.world.sinks = service.world.sinks ∧ service.flushAll.2.dispatcher = service.dispatcher := by
  unfold Service.flushAll
  split <;> exact ⟨rfl, rfl⟩

theorem IsTallied.step (tallied : life.IsTallied first) (step : Step life next) : next.IsTallied first := by
  cases step with
  | use action => exact tallied.use action
  | flushAll =>
      obtain ⟨sinks, dispatcher⟩ := flushAll_engine life.service
      exact tallied.keep (World.keepsStates_of_sinks sinks) (congrArg List.length sinks) dispatcher
  | flush id =>
      have sinks := flush_sinks life.service.world id
      exact tallied.keep (World.keepsStates_of_sinks sinks) (congrArg List.length sinks) rfl
  | uploading uploading => exact tallied.keep (World.keepsStates_of_sinks rfl) rfl rfl
  | schedule reaper => exact tallied.keep (World.keepsStates_of_sinks rfl) rfl rfl

theorem IsTallied.run (tallied : life.IsTallied first) (run : Run life next) : next.IsTallied first := by
  induction run with
  | refl => exact tallied
  | tail _ step ih => exact ih.step step

theorem Step.report (step : Step life next) : next.service.report = life.service.report := by
  cases step with
  | use action => cases action <;> rfl
  | flushAll =>
      unfold Service.flushAll
      split <;> rfl
  | _ => rfl

theorem Run.report (run : Run life next) : next.service.report = life.service.report := by
  induction run with
  | refl => rfl
  | tail _ step ih => exact step.report.trans ih

theorem run_useAll (uses : List ServiceUse) (life : Lifetime) : Run life (uses.foldl use life) := by
  induction uses generalizing life with
  | nil => exact .refl
  | cons action rest ih => exact (Relation.ReflTransGen.single (.use life action)).trans (ih (life.use action))

theorem run_advanceTo (life : Lifetime) (time : Millis) :
    Run life { life with service := life.service.setWorld (life.service.world.advanceTo time) } := by
  let keeps (uploads : UploadSchedule) : Prop :=
    Run life { life with service := life.service.setWorld { life.service.world with uploads } }
  have stable : Uploads.worker.Keeps keeps :=
    ⟨fun uploads activity rest ready before => before.tail (.uploading _ (.run uploads [] activity rest ready)),
      fun uploads job others away before => before.tail (.uploading _ (.bringBack uploads [] job others away))⟩
  have wake : ∀ uploads time, keeps uploads → keeps (uploads.moveTo time) :=
    fun uploads time before => before.tail (.uploading _ (.wake uploads time))
  have start : keeps life.service.world.uploads := .refl
  exact Schedule.advanceFrom_keeps stable wake Schedule.patience time start

theorem run_advanceFrom (fuel : Nat) (time : Millis) (life : Lifetime) :
    ∃ stops, Run life
      ⟨{ life.service with engine := life.service.engine.advanceFrom fuel time }, stops⟩ := by
  induction fuel generalizing life with
  | zero => exact ⟨life.stops, .refl⟩
  | succ fuel ih =>
      simp only [Engine.advanceFrom]
      split
      · exact ⟨life.stops, life.run_advanceTo time⟩
      next reaper _ =>
        split
        · have first := life.run_advanceTo reaper.next
          have next := (first.tail (.schedule _ (some { reaper with next := reaper.next + reaper.interval }))).tail (.use _ .reap)
          obtain ⟨stops, rest⟩ := ih _
          exact ⟨stops, next.trans rest⟩
        · exact ⟨life.stops, life.run_advanceTo time⟩

theorem run_reach (life : Lifetime) (moment : Millis) (timestamp : Nat) :
    ∃ stops, Run life ⟨life.service.reach moment timestamp, stops⟩ := by
  obtain ⟨stops, rest⟩ := run_advanceFrom Schedule.patience moment (life.use (.wait moment timestamp))
  exact ⟨stops, (Relation.ReflTransGen.single (.use life (.wait moment timestamp))).trans rest⟩

theorem start_tallied {config : Config} {surroundings : Surroundings} {service : Service}
    (started : Service.start config surroundings = .ok service) :
    IsTallied service.world.sinks.length { service } := by
  obtain ⟨executor, store, -, rfl⟩ := Service.start_ok started
  obtain ⟨engine, initial⟩ : ∃ engine, engine = Service.initialEngine config surroundings executor store := ⟨_, rfl⟩
  have dispatcher := Service.startBackground_dispatcher config engine
  have world := Service.startBackground_world config engine
  have routers : engine.dispatcher.routers = Service.routers config := by
    rw [initial]
    rfl
  have sinks : ∀ id, id < engine.world.sinks.length ↔ engine.dispatcher.platform = some id := by
    intro id
    rw [initial]
    by_cases console : config.lifecycle.platformConsole = true
    · simp [Service.initialEngine, Service.openPlatform, console, Service.initialWorld, World.addSink, eq_comm]
    · simp [Service.initialEngine, Service.openPlatform, console, Service.initialWorld]
  have live : Dispatcher.liveSinks engine.dispatcher.routers = [] := by
    rw [routers]
    refine List.flatMap_eq_nil_iff.mpr fun router member => ?_
    obtain ⟨destination, -, rfl⟩ := List.mem_map.mp member
    rfl
  rw [← initial]
  refine ⟨⟨?_, Nat.le_refl _, by simp⟩, ?_⟩
  · show ([] ++ Dispatcher.liveSinks (Service.startBackground config engine).dispatcher.routers).Perm (List.range' _ (_ - _))
    rw [dispatcher, live, Nat.sub_self]
    rfl
  · show ∀ id, id < (Service.startBackground config engine).world.sinks.length ↔
      (Service.startBackground config engine).dispatcher.platform = some id
    rw [dispatcher, world]
    exact sinks

theorem drain_sinks (config : Config) (world : World) : (Service.drain config world).2.sinks = world.sinks := by
  unfold Service.drain
  split <;> rfl

theorem drain_refuses {config : Config} (enabled : config.remote.enabled = true) (world : World) :
    (Service.drain config world).2.executor.accepting = false := by
  unfold Service.drain
  rw [if_pos enabled]
  exact Schedule.drain_accepting world.uploads _

structure StopsPlatform (platform : Option SinkId) (before after : World) : Prop where
  length : after.sinks.length = before.sinks.length
  accepting : after.executor.accepting = before.executor.accepting
  kept : ∀ id, before.isStopped id = true → after.isStopped id = true
  stopped : ∀ id, platform = some id → id < before.sinks.length → after.isStopped id = true

theorem stopPlatform_stops (dispatcher : Dispatcher) (world : World) :
    StopsPlatform dispatcher.platform world (Service.stopPlatform dispatcher world) := by
  unfold Service.stopPlatform
  split
  next sink platform =>
    refine ⟨world.stop_length sink, world.stop_accepting sink, fun id past => World.stop_isStopped_of_stopped past sink, ?_⟩
    intro id same known
    rw [platform, Option.some_inj] at same
    subst sink
    exact World.stop_isStopped known
  next absent => exact ⟨rfl, rfl, fun _ past => past, fun id same => absurd same (by simp [absent])⟩

/-- What a service is like after it was shut down. -/
structure IsFinal (report : ShutdownReport) (service : Service) : Prop where
  report : service.report = some report
  closed : service.dispatcher.accepting = false
  routers : ∀ router ∈ service.dispatcher.routers, router.registry.entries = [] ∧ router.registry.closed = true
  refuses : service.config.remote.enabled = true → service.world.executor.accepting = false
  stopped : ∀ id < service.world.sinks.length, service.world.isStopped id = true
  platform : ∀ id, service.dispatcher.platform = some id → service.world.isStopped id = true

theorem IsTallied.shutdown (tallied : life.IsTallied first) (running : life.service.report = none) :
    IsFinal life.service.shutdown.1 life.shutdown.service ∧
      life.service.shutdown.1.sinksStopped = (life.service.dispatcher.routers.map Router.liveSinks).sum ∧
      life.shutdown.service.world.sinks.length = life.service.world.sinks.length ∧
      life.shutdown.stops.Perm (List.range' first (life.service.world.sinks.length - first)) := by
  obtain ⟨⟨config, ⟨dispatcher, world, reaper⟩, report⟩, stops⟩ := life
  dsimp only at running
  subst report
  let quiet : World := { world with uploads := world.uploads.stopTicker }
  have begun : quiet.Tally first (Dispatcher.liveSinks dispatcher.routers) stops :=
    tallied.tally.keep (World.keepsStates_of_sinks rfl) rfl
  obtain ⟨count, sinks, closed⟩ := Dispatcher.stopEach_eq dispatcher.routers quiet
  have tally := Dispatcher.stopEach_tally begun
  let halted := (Dispatcher.stopEach dispatcher.routers quiet).2.2
  have drained : (Service.drain config halted).2.sinks = halted.sinks := drain_sinks config halted
  have platform := stopPlatform_stops { dispatcher with accepting := false, routers := (Dispatcher.stopEach dispatcher.routers quiet).2.1 }
    (Service.drain config halted).2
  have length : halted.sinks.length = world.sinks.length := by
    show (Dispatcher.stopEach dispatcher.routers quiet).2.2.sinks.length = _
    rw [sinks, World.stopThese_length]
  refine ⟨?final, count, platform.length.trans ((congrArg List.length drained).trans length), ?stops⟩
  case final =>
    constructor
    case report => rfl
    case closed => rfl
    case routers => exact closed
    case refuses =>
      intro enabled
      exact platform.accepting.trans (drain_refuses enabled halted)
    case stopped =>
      intro id known
      have bound : id < halted.sinks.length := by
        have same := platform.length
        rw [drained] at same
        exact same ▸ known
      by_cases own : id < first
      · exact platform.stopped id ((tallied.platform id).mp own) (drained ▸ bound)
      · have member := tally.mem (Nat.le_of_not_lt own) bound
        rw [List.append_nil] at member
        have past : (Service.drain config halted).2.isStopped id = true :=
          (World.isStopped_congr (by rw [drained])).trans (tally.stopped id member)
        exact platform.kept id past
    case platform =>
      intro id same
      have own : id < world.sinks.length := Nat.lt_of_lt_of_le ((tallied.platform id).mpr same) tallied.tally.bound
      exact platform.stopped id same (by rw [drained, length]; exact own)
  case stops =>
    have balance := tally.balance
    rw [List.append_nil] at balance
    exact length ▸ balance

variable {report : ShutdownReport} {service : Service}

namespace IsFinal

theorem shutdown (final : IsFinal report service) : service.shutdown = (report, service) := by
  rw [Service.shutdown, final.report]

theorem dispatch (final : IsFinal report service) (event : Event) : service.dispatch event = ([.closed], service) := by
  have closed : service.engine.dispatcher.accepting = false := final.closed
  simp [Service.dispatch, Service.onEngine, Engine.dispatch, Dispatcher.dispatch, closed]

theorem reapAt_of_empty {router : Router} (empty : router.registry.entries = []) (now : Millis) (world : World) :
    router.reapAt now world = ([], router, world) := by
  obtain ⟨name, discriminator, factory, timeout, ⟨entries, closed, handles⟩⟩ := router
  dsimp only at empty
  subst empty
  rfl

theorem reapEach_of_empty (now : Millis) (world : World) {routers : List Router}
    (empty : ∀ router ∈ routers, router.registry.entries = []) :
    Dispatcher.reapEach now routers world = (0, routers, world) := by
  induction routers with
  | nil => rfl
  | cons router rest ih =>
      obtain ⟨one, others⟩ := List.forall_mem_cons.mp empty
      rw [Dispatcher.reapEach, reapAt_of_empty one]
      dsimp only
      rw [ih others]
      rfl

theorem reap (final : IsFinal report service) : service.onEngine Engine.reapOnce = (0, service) := by
  have none := reapEach_of_empty service.engine.world.instant service.engine.world fun router member =>
    (final.routers router member).1
  simp only [Service.onEngine, Engine.reapOnce, Dispatcher.reap]
  rw [show service.engine.dispatcher.routers = service.dispatcher.routers from rfl, none]
  rfl

theorem onRouter_of_empty {α : Type} (dispatcher : Dispatcher) (name : String) (world : World)
    (change : Router → World → α × Router × World) (value : α)
    (same : ∀ router ∈ dispatcher.routers, change router world = (value, router, world)) :
    ∃ answer, dispatcher.onRouter name world change = (answer, dispatcher, world) ∧ ∀ result ∈ answer, result = value := by
  unfold Dispatcher.onRouter
  split
  · exact ⟨_, rfl, by simp⟩
  next index _ =>
    cases present : dispatcher.routers[index]? with
    | none => exact ⟨_, rfl, by simp⟩
    | some router =>
        obtain ⟨bound, there⟩ := List.getElem?_eq_some_iff.mp present
        dsimp only
        rw [same router (List.mem_of_getElem? present), ← there, List.set_getElem_self]
        exact ⟨_, rfl, by simp⟩

theorem reapRouter (final : IsFinal report service) (name : String) (now : Millis) :
    ∃ answer, (service.onEngine fun engine => engine.onRouter name fun router world => router.reapAt now world) =
      (answer, service) ∧ ∀ keys ∈ answer, keys = [] := by
  obtain ⟨answer, unchanged, empty⟩ := onRouter_of_empty service.engine.dispatcher name service.engine.world
    (fun router world => router.reapAt now world) [] fun router member =>
      reapAt_of_empty (final.routers router member).1 now service.engine.world
  refine ⟨answer, ?_, empty⟩
  simp only [Service.onEngine, Engine.onRouter, unchanged]

theorem stopsOf (final : IsFinal report service) (action : ServiceUse) : service.stopsOf action = [] := by
  have idle : ∀ now, ∀ router ∈ service.dispatcher.routers, router.idleSinks now = [] := by
    intro now router member
    rw [Router.idleSinks, Registry.expire_eq, (final.routers router member).1]
    rfl
  cases action with
  | dispatch event => rfl
  | reap => exact List.flatMap_eq_nil_iff.mpr (idle service.world.instant)
  | reapRouter name now =>
      obtain ⟨answer, unchanged, empty⟩ := onRouter_of_empty service.dispatcher name service.world
        (fun router world => (router.idleSinks now, router, world)) [] fun router member => by
          rw [idle now router member]
      rw [Service.stopsOf, unchanged]
      cases answer with
      | none => rfl
      | some sinks => exact empty sinks rfl
  | wait instant timestamp => rfl

theorem keep (final : IsFinal report service) {next : Service} (shown : next.report = service.report)
    (config : next.config = service.config) (dispatcher : next.dispatcher = service.dispatcher)
    (accepting : next.world.executor.accepting = service.world.executor.accepting)
    (sinks : next.world.sinks = service.world.sinks) : IsFinal report next where
  report := shown.trans final.report
  closed := by
    rw [dispatcher]
    exact final.closed
  routers := by
    rw [dispatcher]
    exact final.routers
  refuses enabled := accepting.trans (final.refuses (config ▸ enabled))
  stopped id known := (World.isStopped_congr (by rw [sinks])).trans (final.stopped id (sinks ▸ known))
  platform id same := (World.isStopped_congr (by rw [sinks])).trans (final.platform id (dispatcher ▸ same))

end IsFinal

theorem IsFinal.step (final : IsFinal report life.service) (step : Step life next ∨ next = life.shutdown) :
    IsFinal report next.service ∧ next.service.world.sinks = life.service.world.sinks ∧ next.stops = life.stops := by
  rcases step with step | rfl
  · cases step with
    | use action =>
        have stops : (life.use action).stops = life.stops := by
          rw [Lifetime.use, final.stopsOf, List.append_nil]
        have same : ∀ service, life.service.use action = service → IsFinal report service →
            service.world.sinks = life.service.world.sinks →
            IsFinal report (life.use action).service ∧
              (life.use action).service.world.sinks = life.service.world.sinks ∧ (life.use action).stops = life.stops := by
          rintro service rfl kept sinks
          exact ⟨kept, sinks, stops⟩
        cases action with
        | dispatch event => exact same _ (congrArg Prod.snd (final.dispatch event)) final rfl
        | reap => exact same _ (congrArg Prod.snd final.reap) final rfl
        | reapRouter name now =>
            obtain ⟨answer, unchanged, -⟩ := final.reapRouter name now
            exact same _ (congrArg Prod.snd unchanged) final rfl
        | wait instant timestamp => exact same _ rfl (final.keep rfl rfl rfl rfl rfl) rfl
    | flushAll =>
        unfold Service.flushAll
        split
        · exact ⟨final.keep rfl rfl rfl (Executor.flushAll_accepting ..) rfl, rfl, rfl⟩
        · exact ⟨final, rfl, rfl⟩
    | flush id =>
        have sinks := flush_sinks life.service.world id
        refine ⟨final.keep rfl rfl rfl ?_ sinks, sinks, rfl⟩
        show (life.service.world.flush id).2.executor.accepting = _
        unfold World.flush
        split
        · rfl
        · exact Executor.submit_accepting ..
        · rfl
    | uploading uploading => exact ⟨final.keep rfl rfl rfl uploading.accepting rfl, rfl, rfl⟩
    | schedule reaper => exact ⟨final.keep rfl rfl rfl rfl rfl, rfl, rfl⟩
  · have service : life.shutdown.service = life.service := congrArg Prod.snd final.shutdown
    have stops : life.shutdown.stops = life.stops := by
      simp [Lifetime.shutdown, final.report]
    rw [service]
    exact ⟨final, rfl, stops⟩

theorem IsFinal.run (final : IsFinal report life.service) (run : LateRun life next) :
    IsFinal report next.service ∧ next.service.world.sinks = life.service.world.sinks ∧ next.stops = life.stops := by
  induction run with
  | refl => exact ⟨final, rfl, rfl⟩
  | tail _ step ih =>
      obtain ⟨before, sinks, stops⟩ := ih
      obtain ⟨after, sinks', stops'⟩ := before.step step
      exact ⟨after, sinks'.trans sinks, stops'.trans stops⟩

end Lifetime

/-- Whatever is dispatched, flushed and reaped before the first shutdown and whatever follows it: the shutdown reports the
sinks that were live, every sink that was ever made for a router has been stopped once, and the service stays as it is. -/
theorem shutdown_is_final {config : Config} {surroundings : Surroundings} {service : Service}
    (started : Service.start config surroundings = .ok service) {before last : Lifetime}
    (ran : Lifetime.Run { service } before) (later : Lifetime.LateRun before.shutdown last) :
    before.service.shutdown.1.sinksStopped = (before.service.dispatcher.routers.map Router.liveSinks).sum ∧
      last.service.world.sinks.length = before.service.world.sinks.length ∧
      last.stops.Perm (List.range' service.world.sinks.length
        (last.service.world.sinks.length - service.world.sinks.length)) ∧
      (∀ id < last.service.world.sinks.length, last.service.world.isStopped id = true) ∧
      (∀ router ∈ last.service.dispatcher.routers, router.liveSinks = 0 ∧ router.isStopped = true) ∧
      (∀ id, last.service.dispatcher.platform = some id → last.service.world.isStopped id = true) ∧
      (∀ executor, last.service.executor? = some executor → ∀ target, executor.submit target = (none, executor)) ∧
      last.service.shutdown = (before.service.shutdown.1, last.service) ∧
      (∀ event, last.service.dispatch event = ([.closed], last.service)) ∧
      last.service.onEngine Engine.reapOnce = (0, last.service) ∧
      ∀ name now, ∃ answer,
        (last.service.onEngine fun engine => engine.onRouter name fun router world => router.reapAt now world) =
          (answer, last.service) ∧ ∀ keys ∈ answer, keys = [] := by
  have tallied := (Lifetime.start_tallied started).run ran
  have running : before.service.report = none := by
    obtain ⟨executor, store, -, rfl⟩ := Service.start_ok started
    exact Lifetime.Run.report ran
  obtain ⟨shut, count, length, stops⟩ := tallied.shutdown running
  obtain ⟨final, sinks, same⟩ := shut.run later
  have whole : last.service.world.sinks.length = before.service.world.sinks.length :=
    (congrArg List.length sinks).trans length
  refine ⟨count, whole, ?_, final.stopped, ?_, final.platform, ?_, final.shutdown, final.dispatch, final.reap, final.reapRouter⟩
  · rw [same, whole]
    exact stops
  · intro router member
    obtain ⟨empty, closed⟩ := final.routers router member
    exact ⟨congrArg List.length empty, closed⟩
  · intro executor there target
    unfold Service.executor? at there
    split at there
    next enabled =>
      cases there
      exact Executor.submit_refused (final.refuses enabled) target
    · simp at there

namespace Closing

def config : Config :=
  { remote := { enabled := true } }

def surroundings : Surroundings :=
  { files := .empty ["home"], store := some { backend := .memory {} } }

def uses : List ServiceUse :=
  [.send "workspace_app_root" "ws" "one", .send "cloud_workspace_app_root" "ws" "two", .wait 900000 0, .reap,
    .send "workspace_app_root" "ws" "three", .send "job_log_path" "job" "four"]

end Closing

theorem shutdown_is_final_reaped :
    ∃ service, Service.start Closing.config Closing.surroundings = .ok service ∧
      ∃ before, Lifetime.Run { service } before ∧ before.stops = [1, 2] ∧ before.service.shutdown.1.sinksStopped = 2 ∧
        ∀ last, Lifetime.LateRun before.shutdown last →
          last.stops.Perm [1, 2, 3, 4] ∧ (∀ id < 5, last.service.world.isStopped id = true) ∧
          ∀ event, last.service.dispatch event = ([.closed], last.service) := by
  obtain ⟨service, started, one, stops, count, length⟩ :
      ∃ service, Service.start Closing.config Closing.surroundings = .ok service ∧ service.world.sinks.length = 1 ∧
        (Closing.uses.foldl Lifetime.use { service }).stops = [1, 2] ∧
        (Closing.uses.foldl Lifetime.use { service }).service.shutdown.1.sinksStopped = 2 ∧
        (Closing.uses.foldl Lifetime.use { service }).service.world.sinks.length = 5 := by
    refine ⟨_, rfl, ?_⟩
    decide +kernel
  have run := Lifetime.run_useAll Closing.uses { service }
  refine ⟨service, started, _, run, stops, count, fun last later => ?_⟩
  obtain ⟨-, same, once, stopped, -, -, -, -, closed, -⟩ := shutdown_is_final started run later
  rw [length] at same
  rw [same] at once stopped
  rw [one] at once
  exact ⟨once, stopped, closed⟩

end KeyedLog
