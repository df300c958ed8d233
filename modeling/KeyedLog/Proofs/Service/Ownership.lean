import KeyedLog.Proofs.Router.Ownership
import KeyedLog.Proofs.Service.Shutdown

/-!
The local files of a service. Two sinks have one file open only if their paths lead to the same place, and no open file is
an archive, unless a path of a sink leads to or below the archives of another.
-/

namespace KeyedLog

open FileTree

inductive ServiceUse where
  | dispatch (event : Event)
  | reap
  | reapRouter (name : String) (now : Millis)
  | wait (instant : Millis) (timestamp : Nat)

namespace Service

def use (service : Service) : ServiceUse → Service
  | .dispatch event => (service.dispatch event).2
  | .reap => (service.onEngine Engine.reapOnce).2
  | .reapRouter name now =>
    (service.onEngine fun engine => engine.onRouter name fun router world => router.reapAt now world).2
  | .wait instant timestamp =>
    { service with engine := { service.engine with world := { service.engine.world with instant, timestamp } } }

def useAll (service : Service) (uses : List ServiceUse) : Service :=
  uses.foldl use service

def world (service : Service) : World :=
  service.engine.world

/-- The live sinks with the routers and the keys that they belong to, and their open files. -/
def liveFiles (service : Service) : List (String × String × Option FileId) :=
  service.engine.dispatcher.routers.flatMap fun router =>
    router.registry.entries.map fun entry => (router.name, entry.key, service.world.openFile? entry.sink)

theorem use_run (service : Service) (action : ServiceUse) : service.world.Run (service.use action).world := by
  cases action with
  | dispatch event => exact service.engine.dispatcher.dispatch_run event service.world
  | reap => exact Dispatcher.reapEach_run service.world.instant service.engine.dispatcher.routers service.world
  | reapRouter name now =>
      exact service.engine.dispatcher.onRouter_run name service.world fun router => router.reapAt_run now service.world
  | wait instant timestamp => exact .single (.wait service.world instant timestamp)

theorem useAll_run (service : Service) (uses : List ServiceUse) : service.world.Run (service.useAll uses).world := by
  induction uses generalizing service with
  | nil => exact .refl
  | cons action rest ih => exact (service.use_run action).trans (ih (service.use action))

theorem start_owns {config : Config} {surroundings : Surroundings} {service : Service}
    (started : start config surroundings = .ok service) (numbered : surroundings.files.IsNumbered) :
    service.world.Owns := by
  obtain ⟨executor, store, parts, rfl⟩ := start_ok started
  obtain ⟨-, files, -⟩ := initialEngine_idle config surroundings (remoteParts_unused parts) store
  obtain ⟨engine, initial⟩ : ∃ engine, engine = initialEngine config surroundings executor store := ⟨_, rfl⟩
  have world := startBackground_world config engine
  have closed : ∀ sink ∈ engine.world.sinks, sink.openFile? = none := by
    rw [initial]
    by_cases console : config.lifecycle.platformConsole = true
    · simp [initialEngine, openPlatform, console, initialWorld, World.addSink, Sink.openFile?]
    · simp [initialEngine, openPlatform, console, initialWorld]
  rw [← initial] at files ⊢
  refine World.owns_of_closed ?_ ?_
  · show (startBackground config engine).world.files.IsNumbered
    rw [world, World.files, Schedule.startTicker_work]
    show engine.world.files.IsNumbered
    rwa [files]
  · intro id
    show (startBackground config engine).world.openFile? id = none
    rw [world]
    cases stands : engine.world.sinks[id]? with
    | none => simp [World.openFile?, stands]
    | some sink => simp [World.openFile?, stands, closed sink (List.mem_of_getElem? stands)]

end Service

/-- In the files of a service that has started no file has two names. Whatever is then dispatched, and whenever sinks are
reaped: if no path of a sink that was made leads to or below a place where a sink keeps archives, sinks have the same
file open only if their paths lead to the same place, and an open file is nowhere but there, so that it is no archive. -/
theorem local_files_are_owned {config : Config} {surroundings : Surroundings} {service : Service}
    (uses : List ServiceUse) {final : World} (started : Service.start config surroundings = .ok service)
    (numbered : surroundings.files.IsNumbered) (ended : (service.useAll uses).world = final)
    (apart : ∀ one two path archive, final.path? one = some path → archive ∈ final.archivePaths two →
      ¬ final.files.place archive <+: final.files.place path) :
    (∀ one two first second file, final.path? one = some first → final.path? two = some second →
        final.openFile? one = some file → final.openFile? two = some file →
        final.files.place first = final.files.place second) ∧
      ∀ id path file, final.path? id = some path → final.openFile? id = some file →
        ∀ location content, final.files.node? location = some (.file file content) →
          location = final.files.place path ∧
            ∀ other, ∀ archive ∈ final.archivePaths other, location ≠ final.files.place archive := by
  subst ended
  obtain ⟨final, ended⟩ : ∃ final, final = (service.useAll uses).world := ⟨_, rfl⟩
  rw [← ended] at apart ⊢
  let region : Location → Prop := fun location =>
    ∃ id, ∃ archive ∈ final.archivePaths id, final.files.place archive <+: location
  have sited : final.IsSited region := by
    refine ⟨?_, ?_⟩
    · rintro id path named ⟨two, archive, member, below⟩
      exact apart id two path archive named member below
    · exact fun id archive member location below => ⟨id, archive, member, below⟩
  have owns : final.Owns := (Service.start_owns started numbered).run (ended ▸ service.useAll_run uses) sited
  refine ⟨owns.shared, ?_⟩
  intro id path file named holds location content stands
  have here := owns.placed id path file named holds location content (mem_of_node? stands)
  refine ⟨here, ?_⟩
  rintro other archive member rfl
  exact apart id other path archive named member (here ▸ List.prefix_rfl)

def smallFiles : Config :=
  { localFiles := { maxFileSize := ⟨30⟩ }, lifecycle := { platformConsole := false } }

def ServiceUse.send (entry key text : String) : ServiceUse :=
  .dispatch ((Event.new 0 .info text).withEntry entry key)

theorem local_files_are_owned_rotated :
    ∃ service, Service.start smallFiles { files := .empty ["home"] } = .ok service ∧
      ∃ uses, uses = [.send "workspace_app_root" "ws" "one", .send "job_log_path" "jobs/x" "two", .wait 900000 0, .reap,
          .send "workspace_app_root" "ws" "three three", .send "job_log_path" "jobs/x" "four",
          .send "job_log_path" "./jobs/x" "five"] ∧
        (service.useAll uses).liveFiles =
          [("local-application", "ws", some 3), ("local-job", "jobs/x", some 1), ("local-job", "./jobs/x", some 1)] ∧
        (service.useAll uses).world.files.place "jobs/x" = (service.useAll uses).world.files.place "./jobs/x" ∧
        ∀ location content, (service.useAll uses).world.files.node? location = some (.file 3 content) →
          location = ["home", "ws", "app.log"] := by
  let uses : List ServiceUse :=
    [.send "workspace_app_root" "ws" "one", .send "job_log_path" "jobs/x" "two", .wait 900000 0, .reap,
      .send "workspace_app_root" "ws" "three three", .send "job_log_path" "jobs/x" "four",
      .send "job_log_path" "./jobs/x" "five"]
  obtain ⟨service, started, live, count, paths, holds, there, checked⟩ :
      ∃ service, Service.start smallFiles { files := .empty ["home"] } = .ok service ∧
        (service.useAll uses).liveFiles =
          [("local-application", "ws", some 3), ("local-job", "jobs/x", some 1), ("local-job", "./jobs/x", some 1)] ∧
        (service.useAll uses).world.sinks.length = 5 ∧
        [2, 3, 4].map (service.useAll uses).world.path? = [some "ws/app.log", some "jobs/x", some "./jobs/x"] ∧
        [2, 3, 4].map (service.useAll uses).world.openFile? = [some 3, some 1, some 1] ∧
        (service.useAll uses).world.files.place "ws/app.log" = ["home", "ws", "app.log"] ∧
        ∀ one < 5, ∀ two < 5, ∀ path ∈ (service.useAll uses).world.path? one,
          ∀ archive ∈ (service.useAll uses).world.archivePaths two,
            ¬ (service.useAll uses).world.files.place archive <+: (service.useAll uses).world.files.place path := by
    refine ⟨_, rfl, ?_⟩
    decide +kernel
  obtain ⟨final, ended⟩ : ∃ final, (service.useAll uses).world = final := ⟨_, rfl⟩
  rw [ended] at count paths holds there checked
  have bound : ∀ id path, final.path? id = some path → id < 5 := by
    intro id path named
    obtain ⟨sink, stands, -⟩ := Option.bind_eq_some_iff.mp named
    exact count ▸ (List.getElem?_eq_some_iff.mp stands).1
  have archived : ∀ id, ∀ archive ∈ final.archivePaths id, id < 5 := by
    intro id archive member
    cases stands : final.sinks[id]? with
    | none => simp [World.archivePaths, stands] at member
    | some sink => exact count ▸ (List.getElem?_eq_some_iff.mp stands).1
  simp only [List.map_cons, List.map_nil, List.cons.injEq, and_true] at paths holds
  obtain ⟨shared, placed⟩ := local_files_are_owned uses started (isNumbered_empty ["home"]) ended
    fun one two path archive named member =>
      checked one (bound one path named) two (archived two archive member) path named archive member
  refine ⟨service, started, uses, rfl, live, ?_, ?_⟩
  · rw [ended]
    exact shared 3 4 _ _ 1 paths.2.1 paths.2.2 holds.2.1 holds.2.2
  · rw [ended]
    intro location content stands
    exact (placed 2 _ 3 paths.1 holds.1 location content stands).1.trans there

/-- Live sinks share a file if their keys are different spellings of one path, if they belong to the two local routers,
and if the file has two names. A key can name an archive of another sink. When that sink rotates, the file is moved, on
its own or with a directory above it, and then it is the file of a third key as well. -/
theorem local_files_are_shared :
    (∃ service, Service.start smallFiles { files := .empty ["home"] } = .ok service ∧
      (service.useAll [.send "workspace_app_root" "ws" "one", .send "workspace_app_root" "./ws" "two"]).liveFiles =
        [("local-application", "ws", some 0), ("local-application", "./ws", some 0)] ∧
      (service.useAll [.send "workspace_app_root" "ws" "one", .send "job_log_path" "ws" "two"]).liveFiles =
        [("local-application", "ws", some 0), ("local-job", "ws", some 0)] ∧
      (∃ world, world = (service.useAll [.send "workspace_app_root" "ws" "one",
            .send "job_log_path" "ws/app.1.log.gz" "two"]).world ∧
          world.openFile? 0 = some 0 ∧ Archive.slotPath "ws/app.log" 1 ∈ world.archivePaths 0 ∧
          world.openFile? 1 = some 1 ∧
          (world.files.node? (world.files.place (Archive.slotPath "ws/app.log" 1))).bind FileNode.id? = some 1) ∧
      (service.useAll [.send "workspace_app_root" "ws" "one", .send "job_log_path" "ws/app.1.log.gz" "two",
          .send "workspace_app_root" "ws" "three three", .send "job_log_path" "ws/app.2.log.gz" "four"]).liveFiles =
        [("local-application", "ws", some 3), ("local-job", "ws/app.1.log.gz", some 1),
          ("local-job", "ws/app.2.log.gz", some 1)] ∧
      (service.useAll [.send "workspace_app_root" "ws" "one", .send "workspace_app_root" "ws/app.1.log.gz" "two",
          .send "workspace_app_root" "ws" "three three", .send "workspace_app_root" "ws/app.2.log.gz" "four"]).liveFiles =
        [("local-application", "ws", some 3), ("local-application", "ws/app.1.log.gz", some 1),
          ("local-application", "ws/app.2.log.gz", some 1)]) ∧
    ∃ service, Service.start smallFiles
        { files := { nodes := [(["a"], .directory), (["a", "app.log"], .file 0 []), (["b"], .directory),
            (["b", "app.log"], .file 0 [])], nextId := 1 } } = .ok service ∧
      (service.useAll [.send "workspace_app_root" "a" "one", .send "workspace_app_root" "b" "two"]).liveFiles =
        [("local-application", "a", some 0), ("local-application", "b", some 0)] := by
  refine ⟨⟨_, rfl, ?_, ?_, ⟨_, rfl, ?_⟩, ?_, ?_⟩, ⟨_, rfl, ?_⟩⟩ <;> decide +kernel

end KeyedLog
