import KeyedLog.Proofs.Config.Validation
import KeyedLog.Proofs.Path.Directories
import KeyedLog.Proofs.Service.Ownership

/-!
The directories of applications. The file of an application stands in the directory that its key names, under the name that is
configured, and its archives stand beside it.
-/

namespace KeyedLog

/-- The file at a path has this name in the directory, and all that is made of it stands in the directory as well. -/
structure Archive.IsHoused (directory fileName path : String) : Prop where
  file : Path.StandsIn directory fileName path
  slots : ∀ slot, ∃ name, Path.StandsIn directory name (slotPath path slot)
  staging : ∃ name, Path.StandsIn directory name (stagingPath path)

theorem Archive.isHoused_join (directory : String) {fileName : String} (leaf : Path.IsLeaf fileName.toList) :
    IsHoused directory fileName (Path.join directory fileName) := by
  have file := Path.standsIn_join directory leaf
  exact ⟨file, fun slot => ⟨_, slotPath_standsIn file leaf.whole slot⟩, ⟨_, stagingPath_standsIn file leaf.whole⟩⟩

theorem Config.IsValid.isLeaf {config : Config} (valid : config.IsValid) (ordinary : config.localFiles.fileName ≠ ".")
    (down : config.localFiles.fileName ≠ "..") : Path.IsLeaf config.localFiles.fileName.toList where
  nonempty nothing := valid.fileName (by rw [String.toList_eq_nil_iff.mp nothing]; decide)
  whole := valid.plain.1
  ordinary same := ordinary (String.toList_inj.mp same)
  down same := down (String.toList_inj.mp same)

namespace World

variable {before after : World}

theorem KeepsPaths.refl (world : World) : world.KeepsPaths world :=
  ⟨rfl, fun _ _ named => named, fun _ => List.Subset.refl _⟩

theorem Run.keepsPaths (run : Run before after) : before.KeepsPaths after := by
  induction run with
  | refl => exact .refl _
  | tail _ acts ih => exact ih.trans acts.keepsPaths

theorem mem_archivePaths {world : World} {id : SinkId} {path archive : String} (named : world.path? id = some path)
    (member : archive ∈ world.archivePaths id) :
    archive = Archive.stagingPath path ∨ ∃ slot, archive = Archive.slotPath path slot := by
  obtain ⟨sink, stands, named⟩ := Option.bind_eq_some_iff.mp named
  rw [archivePaths, stands] at member
  cases sink with
  | rotating sink =>
      obtain rfl := Option.some.inj named
      simp only [Option.elim_some, Sink.archivePaths, RollingPolicy.archivePaths] at member
      split at member
      · simp at member
      · rcases List.mem_cons.mp member with staging | slot
        · exact .inl staging
        · obtain ⟨slot, -, same⟩ := List.mem_map.mp slot
          exact .inr ⟨slot + 1, same.symm⟩
  | _ => simp [Sink.archivePaths] at member

end World

namespace Factory

theorem create_localApplication {factory : Factory} {fileName : String} {policy : RollingPolicy} {encode : Event → Bytes}
    (same : factory = .localApplication fileName policy encode) (router key : String) (world : World) :
    (create router key (factory, world)).2.1 = factory ∧ ∀ id, (create router key (factory, world)).1 = .ok id →
      (create router key (factory, world)).2.2.path? id = some (Path.join key fileName) := by
  subst same
  refine ⟨rfl, fun id made => ?_⟩
  simp only [create, RotatingSink.openAt_eq] at made ⊢
  cases touched : Files.touch (Path.join key fileName) world.files with
  | error fault files =>
      rw [bind_of_error touched] at made
      simp [adopt] at made
  | ok opened files =>
      rw [bind_of_ok touched] at made ⊢
      obtain rfl : world.sinks.length = id := Except.ok.inj made
      simp [adopt, pure, EStateM.pure, World.addSink, World.path?, World.setFiles, Sink.path?]

end Factory

namespace Router

variable {config : Config} {before after world : World} {router : Router}

/-- A router for the files of applications, all of whose sinks have their files below their keys. -/
structure Houses (config : Config) (world : World) (router : Router) : Prop where
  factory : router.factory = Service.factory config .localApplication
  paths : ∀ entry ∈ router.registry.entries,
    world.path? entry.sink = some (Path.join entry.key config.localFiles.fileName)

theorem Houses.keeps (houses : router.Houses config before) (keeps : before.KeepsPaths after) :
    router.Houses config after :=
  ⟨houses.factory, fun entry member => keeps.paths _ _ (houses.paths entry member)⟩

theorem Houses.resolve (houses : router.Houses config world) (key : String) :
    (router.resolve key world).2.1.Houses config (router.resolve key world).2.2 := by
  have keeps := (router.resolve_run key world).keepsPaths
  have created := Factory.create_localApplication houses.factory router.name key world
  revert keeps
  refine resolve_cases router key world ?_ ?_ ?_ ?_
  · exact fun _ _ => houses
  · intro entry _ _ keeps
    refine ⟨houses.factory, fun entry member => ?_⟩
    obtain ⟨old, present, key, sink, -⟩ := Registry.mem_touch.mp member
    rw [key, sink]
    exact houses.paths old present
  · intro fault factory next _ _ failed keeps
    rw [failed] at created
    exact ⟨created.1.trans houses.factory, (houses.keeps keeps).paths⟩
  · intro id factory next _ _ made keeps
    rw [made] at created
    refine ⟨created.1.trans houses.factory, fun entry member => ?_⟩
    rcases List.mem_append.mp member with old | new
    · exact (houses.keeps keeps).paths entry old
    · rw [List.mem_singleton.mp new]
      exact created.2 id rfl

theorem Houses.route (houses : router.Houses config world) (event : Event) :
    (router.route event world).2.1.Houses config (router.route event world).2.2 := by
  have resolved := houses.resolve (router.discriminator.extract event)
  refine route_cases router event world (fun _ => houses) ?_ ?_
  · intro fault after next _ outcome
    rwa [outcome] at resolved
  · intro id after next _ outcome
    rw [outcome] at resolved
    exact resolved.keeps (next.write_keepsPaths id event)

theorem Houses.reapAt (houses : router.Houses config world) (now : Millis) :
    (router.reapAt now world).2.1.Houses config (router.reapAt now world).2.2 := by
  have kept := houses.keeps (router.reapAt_run now world).keepsPaths
  refine ⟨kept.factory, fun entry member => kept.paths entry ?_⟩
  simp only [Router.reapAt, Registry.expire_eq] at member
  exact (List.mem_filter.mp member).1

end Router

namespace Dispatcher

variable {config : Config} {before after world : World} {routers : List Router}

def Houses (config : Config) (world : World) (routers : List Router) : Prop :=
  ∀ router ∈ routers, router.name = Destination.localApplication.routerName → router.Houses config world

theorem Houses.keeps (houses : Houses config before routers) (keeps : before.KeepsPaths after) :
    Houses config after routers :=
  fun router member named => (houses router member named).keeps keeps

theorem Houses.routeAll (houses : Houses config world routers) (event : Event) :
    Houses config (routeAll event routers world).2.2 (routeAll event routers world).2.1 := by
  induction routers generalizing world with
  | nil => exact houses
  | cons router rest ih =>
      have others : Houses config (router.route event world).2.2 rest := Houses.keeps
        (fun other member => houses other (List.mem_cons_of_mem _ member)) (router.route_run event world).keepsPaths
      have later := (routeAll_run event rest (router.route event world).2.2).keepsPaths
      have whole : Houses config (Dispatcher.routeAll event rest (router.route event world).2.2).2.2
          ((router.route event world).2.1 :: (Dispatcher.routeAll event rest (router.route event world).2.2).2.1) := by
        intro other member named
        rcases List.mem_cons.mp member with rfl | member
        · obtain ⟨registry, factory, same⟩ := router.route_changes event world
          rw [same] at named
          exact ((houses router (List.mem_cons_self ..) named).route event).keeps later
        · exact ih others other member named
      unfold Dispatcher.routeAll
      dsimp only
      split <;> exact whole

theorem Houses.reapEach (houses : Houses config world routers) (now : Millis) :
    Houses config (reapEach now routers world).2.2 (reapEach now routers world).2.1 := by
  induction routers generalizing world with
  | nil => exact houses
  | cons router rest ih =>
      have others : Houses config (router.reapAt now world).2.2 rest := Houses.keeps
        (fun other member => houses other (List.mem_cons_of_mem _ member)) (router.reapAt_run now world).keepsPaths
      have later := (reapEach_run now rest (router.reapAt now world).2.2).keepsPaths
      intro other member named
      rcases List.mem_cons.mp member with rfl | member
      · exact ((houses router (List.mem_cons_self ..) named).reapAt now).keeps later
      · exact ih others other member named

theorem Houses.dispatch {dispatcher : Dispatcher} (houses : Houses config world dispatcher.routers) (event : Event) :
    Houses config (dispatcher.dispatch event world).2.2 (dispatcher.dispatch event world).2.1.routers := by
  unfold Dispatcher.dispatch
  split
  · exact houses
  · split
    · exact houses
    · exact (houses.keeps (dispatcher.writePlatform_run event world).keepsPaths).routeAll event

theorem Houses.reapRouter {dispatcher : Dispatcher} (houses : Houses config world dispatcher.routers) (name : String)
    (now : Millis) :
    Houses config (dispatcher.onRouter name world fun router world => router.reapAt now world).2.2
      (dispatcher.onRouter name world fun router world => router.reapAt now world).2.1.routers := by
  unfold onRouter
  split
  · exact houses
  next index _ =>
    split
    · exact houses
    next router there =>
      intro other member named
      rcases List.mem_or_eq_of_mem_set member with old | rfl
      · exact (houses other old named).keeps (router.reapAt_run now world).keepsPaths
      · exact (houses router (List.mem_of_getElem? there) named).reapAt now

end Dispatcher

namespace Service

variable {config : Config}

def Houses (config : Config) (service : Service) : Prop :=
  Dispatcher.Houses config service.world service.engine.dispatcher.routers

theorem Houses.use {service : Service} (houses : service.Houses config) (action : ServiceUse) :
    (service.use action).Houses config := by
  cases action with
  | dispatch event => exact Dispatcher.Houses.dispatch houses event
  | reap => exact Dispatcher.Houses.reapEach houses service.world.instant
  | reapRouter name now => exact Dispatcher.Houses.reapRouter houses name now
  | wait instant timestamp => exact Dispatcher.Houses.keeps houses (World.keepsPaths_of_sinks rfl rfl)

theorem Houses.useAll {service : Service} (houses : service.Houses config) (uses : List ServiceUse) :
    (service.useAll uses).Houses config := by
  induction uses generalizing service with
  | nil => exact houses
  | cons action rest ih => exact ih (houses.use action)

theorem routerName_injective {one two : Destination} (same : one.routerName = two.routerName) : one = two := by
  revert same
  cases one <;> cases two <;> decide

theorem start_houses {surroundings : Surroundings} {service : Service}
    (started : start config surroundings = .ok service) : service.Houses config := by
  obtain ⟨executor, store, parts, rfl⟩ := start_ok started
  obtain ⟨-, -, -, -, routers⟩ := initialEngine_idle config surroundings (remoteParts_unused parts) store
  intro router member named
  rw [startBackground_dispatcher, routers] at member
  obtain ⟨destination, -, rfl⟩ := List.mem_map.mp member
  obtain rfl := routerName_injective named
  exact ⟨rfl, by simp [Service.router]⟩

end Service

/-- Under a configuration that validation accepts, with a file name that is neither of the two special ones, the path of every
key has that name in the directory of the key, and all archives and the staging file stand there as well. Whatever is dispatched
to a service with that configuration, and whenever sinks are reaped: the live sink of a key has that path. -/
theorem files_stay_in_their_directories {config : Config} (accepted : config.validate = .ok ())
    (ordinary : config.localFiles.fileName ≠ ".") (down : config.localFiles.fileName ≠ "..") :
    (∀ key, Archive.IsHoused key config.localFiles.fileName (Path.join key config.localFiles.fileName)) ∧
    ∀ surroundings service uses, Service.start config surroundings = .ok service →
      ∀ router ∈ (service.useAll uses).engine.dispatcher.routers, router.name = Destination.localApplication.routerName →
        ∀ entry ∈ router.registry.entries,
          (service.useAll uses).world.path? entry.sink = some (Path.join entry.key config.localFiles.fileName) ∧
          ∀ archive ∈ (service.useAll uses).world.archivePaths entry.sink, ∃ name, Path.StandsIn entry.key name archive := by
  have leaf := (Config.validate_eq_ok_iff.mp accepted).isLeaf ordinary down
  refine ⟨fun key => Archive.isHoused_join key leaf, ?_⟩
  intro surroundings service uses started router member named entry live
  have path := (((Service.start_houses started).useAll uses) router member named).paths entry live
  refine ⟨path, fun archive kept => ?_⟩
  have housed := Archive.isHoused_join entry.key leaf
  rcases World.mem_archivePaths path kept with rfl | ⟨slot, rfl⟩
  · exact housed.staging
  · exact housed.slots slot

theorem files_stay_in_their_directories_archived :
    smallFiles.validate = .ok () ∧ Archive.IsHoused "ws/." "app.log" "ws/./app.log" ∧
      ∃ service, Service.start smallFiles { files := .empty ["home"] } = .ok service ∧
        ∃ uses, uses = [.send "workspace_app_root" "ws/." "one", .send "workspace_app_root" "ws/." "three three"] ∧
          (service.useAll uses).world.files.node? ["home", "ws", "app.1.log.gz"] ≠ none ∧
          ∃ router ∈ (service.useAll uses).engine.dispatcher.routers, ∃ entry ∈ router.registry.entries,
            entry.key = "ws/." ∧ (service.useAll uses).world.path? entry.sink = some "ws/./app.log" ∧
            (service.useAll uses).world.archivePaths entry.sink =
              ["ws/app.1.log.gz.tmp", "ws/app.1.log.gz", "ws/app.2.log.gz", "ws/app.3.log.gz"] ∧
            ∃ name, Path.StandsIn "ws/." name "ws/app.1.log.gz" := by
  have accepted : smallFiles.validate = .ok () := by decide
  obtain ⟨housed, live⟩ := files_stay_in_their_directories accepted (by decide) (by decide)
  let uses : List ServiceUse :=
    [.send "workspace_app_root" "ws/." "one", .send "workspace_app_root" "ws/." "three three"]
  obtain ⟨service, started, archived, router, member, named, entry, present, key, archives⟩ :
      ∃ service, Service.start smallFiles { files := .empty ["home"] } = .ok service ∧
        (service.useAll uses).world.files.node? ["home", "ws", "app.1.log.gz"] ≠ none ∧
        ∃ router ∈ (service.useAll uses).engine.dispatcher.routers,
          router.name = Destination.localApplication.routerName ∧ ∃ entry ∈ router.registry.entries, entry.key = "ws/." ∧
            (service.useAll uses).world.archivePaths entry.sink =
              ["ws/app.1.log.gz.tmp", "ws/app.1.log.gz", "ws/app.2.log.gz", "ws/app.3.log.gz"] := by
    refine ⟨_, rfl, ?_⟩
    decide +kernel
  obtain ⟨path, beside⟩ := live _ service uses started router member named entry present
  rw [key] at path beside
  exact ⟨accepted, housed "ws/.", service, started, uses, rfl, archived, router, member, entry, present, key, path, archives,
    beside "ws/app.1.log.gz" (by simp [archives])⟩

def Config.withFileName (fileName : String) : Config :=
  { localFiles := { fileName } }

/-- Validation accepts both special names. The one stands for the directory itself, so that its archives are made beside the
directory; the other has no last name, and leads above the directory. -/
theorem special_names_leave_directory :
    ((Config.withFileName ".").validate = .ok () ∧ Path.join "ws" "." = "ws/." ∧ Path.fileName? "ws/." = some "ws" ∧
      Path.parent? "ws/." = some "" ∧ Archive.slotPath "ws/." 1 = "ws.1.gz" ∧ Path.parent? "ws.1.gz" = some "" ∧
      ¬ Archive.IsHoused "ws" "." "ws/.") ∧
    (Config.withFileName "..").validate = .ok () ∧ Path.join "ws" ".." = "ws/.." ∧ Path.fileName? "ws/.." = none ∧
      Archive.slotPath "ws/.." 1 = "ws/../.1.gz" ∧ Path.parent? "ws/../.1.gz" = some "ws/.." ∧
      ¬ Archive.IsHoused "ws" ".." "ws/.." := by
  refine ⟨⟨by decide, by decide, by decide, by decide, by decide, by decide, ?_⟩, by decide, by decide, by decide, by decide,
    by decide, ?_⟩
  · exact fun housed => absurd housed.file.last (by decide)
  · exact fun housed => absurd housed.file.last (by decide)

end KeyedLog
