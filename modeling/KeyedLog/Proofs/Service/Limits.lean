import KeyedLog.Proofs.Config.Validation
import KeyedLog.Proofs.Service.Shutdown

/-!
What a configuration can ask for. A service with remote destinations starts if there can be as many permits as it asks for, and
flushes from time to time if the end of its interval can be told. Validation bounds neither.
-/

namespace KeyedLog

theorem Schedule.startTicker_eq {σ : Type} {schedule : Schedule σ} (positive : 0 < schedule.executor.interval) :
    schedule.startTicker =
      if schedule.clock + schedule.executor.interval < horizon then schedule.after schedule.executor.interval .tick
      else schedule := by
  unfold startTicker
  by_cases near : schedule.clock + schedule.executor.interval < horizon
  · rw [if_pos near, if_neg (not_or.mpr ⟨Nat.ne_of_gt positive, Nat.not_le.mpr near⟩)]
  · rw [if_neg near, if_pos (.inr (Nat.not_lt.mp near))]

theorem Schedule.startTicker_keeps {σ : Type} (schedule : Schedule σ) :
    schedule.startTicker = { schedule with alarms := schedule.startTicker.alarms } := by
  unfold startTicker
  split <;> rfl

theorem Millis.ofSeconds_pos {seconds : UInt64} (positive : 0 < seconds) : 0 < Millis.ofSeconds seconds.toNat :=
  Nat.mul_pos (by decide) positive

theorem Dispatcher.reapInterval_pos (routers : List Router) : 0 < reapInterval routers :=
  Nat.lt_min.mpr ⟨Nat.lt_of_lt_of_le (by decide) (Nat.le_max_right ..), by decide⟩

namespace Service

variable {config : Config} {surroundings : Surroundings}

structure IsBuilt (config : Config) (service : Service) : Prop where
  executor : service.engine.world.executor =
    { interval := config.remote.flushInterval, limit := config.remote.maxConcurrentFlushes.toNat }
  routers : service.engine.dispatcher.routers = Destination.all.map (router config)
  accepting : service.engine.dispatcher.accepting = true
  reaper : service.engine.reaper = some ⟨reapInterval config, reapInterval config⟩
  positive : 0 < reapInterval config
  configured : service.config = config

def tickerAt (service : Service) (moment : Millis) : UploadSchedule :=
  { service.engine.world.uploads with clock := moment, alarms := [] }.startTicker

theorem reapInterval_pos (valid : config.IsValid) : 0 < reapInterval config := by
  unfold reapInterval
  split
  next seconds given => exact Millis.ofSeconds_pos (valid.reapInterval seconds given)
  next => exact Dispatcher.reapInterval_pos _

theorem start_eq (accepted : config.validate = .ok ()) (background : surroundings.hasBackground = true) :
    start config surroundings = (remoteParts config surroundings.store).map fun (executor, store) =>
      ⟨config, startBackground config (initialEngine config surroundings executor store), none⟩ := by
  unfold start
  cases parts : remoteParts config surroundings.store <;>
    simp [accepted, background, Except.mapError, bind, Except.bind, pure, Except.pure, Except.map, initialEngine]

theorem remoteParts_eq {store : ObjectStore} (enabled : config.remote.enabled = true) :
    remoteParts config (some store) =
      if config.remote.maxConcurrentFlushes.toNat ≤ Executor.maxLimit then
        .ok ({ interval := config.remote.flushInterval, limit := max 1 config.remote.maxConcurrentFlushes.toNat }, store)
      else .error (.tooManyFlushes config.remote.maxConcurrentFlushes) := by
  by_cases fits : config.remote.maxConcurrentFlushes.toNat ≤ Executor.maxLimit <;>
    simp [remoteParts, Executor.new?, enabled, fits]

theorem routers_eq (enabled : config.remote.enabled = true) : routers config = Destination.all.map (router config) := by
  simp [routers, enabled]

theorem initialEngine_uploads (config : Config) (surroundings : Surroundings) (executor : Executor) (store : ObjectStore) :
    (initialEngine config surroundings executor store).world.uploads =
        { executor, work := { files := surroundings.files, store } } ∧
      (initialEngine config surroundings executor store).dispatcher.accepting = true ∧
      (initialEngine config surroundings executor store).reaper = none := by
  cases console : config.lifecycle.platformConsole <;> simp [initialEngine, openPlatform, console, initialWorld, World.addSink]

theorem startBackground_reaper (config : Config) (engine : Engine) (positive : 0 < reapInterval config) :
    (startBackground config engine).reaper =
      some ⟨reapInterval config, engine.world.uploads.startTicker.clock + reapInterval config⟩ := by
  unfold startBackground Engine.startReaper
  rw [if_neg (Nat.ne_of_gt positive)]
  rfl

def built (config : Config) (surroundings : Surroundings) (store : ObjectStore) : Service :=
  ⟨config, startBackground config (initialEngine config surroundings
    { interval := config.remote.flushInterval, limit := max 1 config.remote.maxConcurrentFlushes.toNat } store), none⟩

theorem built_uploads (config : Config) (surroundings : Surroundings) (store : ObjectStore) :
    (built config surroundings store).engine.world.uploads = Schedule.startTicker
      { executor := { interval := config.remote.flushInterval, limit := max 1 config.remote.maxConcurrentFlushes.toNat }
        work := { files := surroundings.files, store } } := by
  rw [built, startBackground_world]
  exact congrArg Schedule.startTicker (initialEngine_uploads config surroundings _ store).1

theorem built_isBuilt (valid : config.IsValid) (enabled : config.remote.enabled = true) (store : ObjectStore) :
    (built config surroundings store).IsBuilt config := by
  obtain ⟨uploads, accepting, -⟩ := initialEngine_uploads config surroundings
    { interval := config.remote.flushInterval, limit := max 1 config.remote.maxConcurrentFlushes.toNat } store
  have limit : max 1 config.remote.maxConcurrentFlushes.toNat = config.remote.maxConcurrentFlushes.toNat :=
    Nat.max_eq_right valid.maxConcurrentFlushes
  have positive := reapInterval_pos valid
  refine ⟨?_, ?_, ?_, ?_, positive, rfl⟩
  · rw [World.executor, built_uploads, Schedule.startTicker_keeps, limit]
  · rw [built, startBackground_dispatcher, ← routers_eq enabled]
    exact (initialEngine_idle config surroundings ⟨rfl, rfl⟩ store).2.2.2.2
  · rw [built, startBackground_dispatcher, accepting]
  · rw [built, startBackground_reaper config _ positive, uploads, Schedule.startTicker_keeps]
    exact congrArg (fun next => some (Reaper.mk _ next)) (Nat.zero_add _)

theorem built_tickerAt (config : Config) (surroundings : Surroundings) (store : ObjectStore) (moment : Millis) :
    (built config surroundings store).tickerAt moment = Schedule.startTicker
      { executor := { interval := config.remote.flushInterval, limit := max 1 config.remote.maxConcurrentFlushes.toNat }
        work := { files := surroundings.files, store }
        clock := moment } := by
  rw [tickerAt, built_uploads]
  exact congrArg (fun uploads => Schedule.startTicker { uploads with clock := moment, alarms := [] })
    (Schedule.startTicker_keeps _)

end Service

/-- Under a configuration that validation accepts a service with remote destinations and a store starts if there can be so many
permits: its executor has them and the interval, all routers are there, and a pass over idle sinks is due after a time that is
not zero. Its ticker has one alarm, an interval after the moment at which it starts, if that can be told, and else does not run.
If there cannot be so many permits the service does not start. -/
theorem starts_within_limits {config : Config} {surroundings : Surroundings} {store : ObjectStore}
    (accepted : config.validate = .ok ()) (enabled : config.remote.enabled = true) (given : surroundings.store = some store)
    (background : surroundings.hasBackground = true) :
    (config.remote.maxConcurrentFlushes.toNat ≤ Executor.maxLimit →
      ∃ service, Service.start config surroundings = .ok service ∧ service.IsBuilt config ∧
        service.engine.world.uploads = service.tickerAt 0 ∧
        ∀ moment,
          (moment + config.remote.flushInterval < Schedule.horizon →
            (service.tickerAt moment).alarms = [(moment + config.remote.flushInterval, .tick)]) ∧
          (Schedule.horizon ≤ moment + config.remote.flushInterval → (service.tickerAt moment).isTicking = false)) ∧
    (Executor.maxLimit < config.remote.maxConcurrentFlushes.toNat →
      Service.start config surroundings = .error (.tooManyFlushes config.remote.maxConcurrentFlushes)) := by
  have valid := Config.validate_eq_ok_iff.mp accepted
  rw [Service.start_eq accepted background, given, Service.remoteParts_eq enabled]
  refine ⟨fun fits => ?_, fun exceeds => ?_⟩
  · rw [if_pos fits]
    refine ⟨Service.built config surroundings store, rfl, Service.built_isBuilt valid enabled store, ?_, fun moment => ?_⟩
    · rw [Service.built_uploads, Service.built_tickerAt]
    · have positive := Millis.ofSeconds_pos valid.flushInterval
      rw [Service.built_tickerAt, Schedule.startTicker_eq positive]
      refine ⟨fun near => ?_, fun far => ?_⟩
      · rw [if_pos near]
        rfl
      · rw [if_neg (Nat.not_lt.mpr far)]
        rfl
  · rw [if_neg (Nat.not_le.mpr exceeds)]
    rfl

def Config.withRemote (maxConcurrentFlushes flushIntervalSecs : UInt64) : Config :=
  { remote := { enabled := true, maxConcurrentFlushes, flushIntervalSecs } }

def Surroundings.withMemory : Surroundings :=
  { files := .empty [], store := some { backend := .memory {} } }

theorem starts_within_limits_greatest :
    (Config.withRemote 2305843009213693951 9223372036854775807).validate = .ok () ∧
      ∃ service, Service.start (.withRemote 2305843009213693951 9223372036854775807) .withMemory = .ok service ∧
        service.engine.world.executor.limit = 2305843009213693951 ∧
        service.engine.dispatcher.routers.length = 4 ∧ service.engine.reaper = some ⟨60000, 60000⟩ ∧
        service.engine.world.uploads.alarms = [(9223372036854775807000, .tick)] ∧
        (service.tickerAt 1000).isTicking = false := by
  have accepted : (Config.withRemote 2305843009213693951 9223372036854775807).validate = .ok () := by decide
  have given : Surroundings.withMemory.store = some { backend := .memory {} } := rfl
  obtain ⟨within, -⟩ := starts_within_limits accepted rfl given rfl
  obtain ⟨service, started, built, uploads, ticks⟩ := within (by decide)
  refine ⟨accepted, service, started, ?_, ?_, ?_, ?_, ?_⟩
  · rw [built.executor]
    rfl
  · rw [built.routers]
    rfl
  · rw [built.reaper]
    rfl
  · rw [uploads, (ticks 0).1 (by decide)]
    rfl
  · exact (ticks 1000).2 (by decide)

/-- Validation accepts more flushes at once than there can be, and an interval whose end cannot be told. -/
theorem limits_are_not_validated :
    ((Config.withRemote 2305843009213693952 60).validate = .ok () ∧
      Service.start (.withRemote 2305843009213693952 60) .withMemory = .error (.tooManyFlushes 2305843009213693952)) ∧
    (Config.withRemote 4 9223372036854775808).validate = .ok () ∧
      ∃ service, Service.start (.withRemote 4 9223372036854775808) .withMemory = .ok service ∧
        service.engine.world.uploads.isTicking = false := by
  refine ⟨⟨by decide, ?_⟩, by decide, _, rfl, ?_⟩
  · rfl
  · decide +kernel

end KeyedLog
