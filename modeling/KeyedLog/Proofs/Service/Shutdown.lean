import KeyedLog.Proofs.Remote.Filed
import KeyedLog.Proofs.Service.Course

/-!
A shutdown loses nothing. Whatever happened before, once the drain of a shutdown is complete and no batch was given up,
every event that a remote sink has accepted is in one document of the sink, and the documents are in order.
-/

namespace KeyedLog

namespace Service

def shutdownNotices (service : Service) : List Notice :=
  match service.report with
  | some _ => []
  | none =>
    let engine := quiesce service.engine
    let (_, _, world) := engine.dispatcher.stopRouters engine.world
    if service.config.remote.enabled then world.uploads.drainNotices service.config.lifecycle.shutdownGrace else []

def initialEngine (config : Config) (surroundings : Surroundings) (executor : Executor) (store : ObjectStore) : Engine :=
  let (platform, world) := openPlatform config (initialWorld surroundings executor store)
  { dispatcher := { platform, routers := routers config, minLevel := config.rootLevel }, world }

theorem start_ok {config : Config} {surroundings : Surroundings} {service : Service}
    (started : start config surroundings = .ok service) :
    ∃ executor store, remoteParts config surroundings.store = .ok (executor, store) ∧
      service = ⟨config, startBackground config (initialEngine config surroundings executor store), none⟩ := by
  unfold start at started
  cases valid : config.validate with
  | error violations => simp [valid, Except.mapError, bind, Except.bind] at started
  | ok value =>
      cases background : surroundings.hasBackground with
      | false =>
          simp [valid, background, Except.mapError, bind, Except.bind, throw, throwThe, MonadExceptOf.throw] at started
      | true =>
          cases parts : remoteParts config surroundings.store with
          | error fault =>
              simp [valid, background, parts, Except.mapError, bind, Except.bind] at started
          | ok both =>
              obtain ⟨executor, store⟩ := both
              refine ⟨executor, store, rfl, ?_⟩
              simp [valid, background, parts, Except.mapError, bind, Except.bind, pure, Except.pure] at started
              exact started.symm

structure IsUnused (executor : Executor) : Prop where
  accepting : executor.accepting = true
  jobs : executor.jobs = []

theorem remoteParts_unused {config : Config} {given : Option ObjectStore} {executor : Executor} {store : ObjectStore}
    (parts : remoteParts config given = .ok (executor, store)) : IsUnused executor := by
  unfold remoteParts at parts
  split at parts
  · split at parts
    · simp at parts
    · split at parts
      · simp at parts
      next made =>
        cases parts
        unfold Executor.new? at made
        split at made
        · cases made
          exact ⟨rfl, rfl⟩
        · simp at made
  · cases parts
    exact ⟨rfl, rfl⟩

theorem startBackground_dispatcher (config : Config) (engine : Engine) :
    (startBackground config engine).dispatcher = engine.dispatcher := by
  unfold startBackground Engine.startReaper
  dsimp only
  split <;> rfl

theorem startBackground_world (config : Config) (engine : Engine) :
    (startBackground config engine).world = { engine.world with uploads := engine.world.uploads.startTicker } := by
  unfold startBackground Engine.startReaper
  dsimp only
  split <;> rfl

theorem router_sound (config : Config) (destination : Destination) (world : World) :
    (router config destination).IsSound config.lifecycle.encoding.encode world := by
  constructor
  · intro type retry encoder made
    cases destination with
    | localApplication => simp [router, factory] at made
    | localJob => simp [router, factory] at made
    | cloudApplication =>
        simp only [router, factory, Factory.cloud.injEq] at made
        exact ⟨made.2.2.symm, by simp [router]⟩
    | cloudJob =>
        simp only [router, factory, Factory.cloud.injEq] at made
        exact ⟨made.2.2.symm, by simp [router]⟩
  · simp [router]

/-- What a service begins with: no flushes, no buffers and no remote sinks. -/
structure IsIdle (uploads : UploadSchedule) : Prop where
  executor : IsUnused uploads.executor
  direct : uploads.direct = []
  buffers : uploads.work.buffers = []

theorem ledger_idle (encode : Event → Bytes) {world : World} (idle : IsIdle world.uploads)
    (none : ∀ id, world.remote? id = none) : world.Ledger encode [] [] where
  orderly := by
    obtain ⟨⟨-, jobs⟩, direct, buffers⟩ := idle
    constructor <;> simp [jobs, direct, buffers]
  owned := by simp [idle.buffers]
  single := by simp [none]
  books := by simp [none]
  promised := by simp [none]
  targets := by simp
  addressed := by simp

theorem initialEngine_idle (config : Config) (surroundings : Surroundings) {executor : Executor}
    (unused : IsUnused executor) (store : ObjectStore) :
    IsIdle (initialEngine config surroundings executor store).world.uploads ∧
      (initialEngine config surroundings executor store).world.files = surroundings.files ∧
      (∀ id, (initialEngine config surroundings executor store).world.remote? id = none) ∧
      Dispatcher.IsPlatform (initialEngine config surroundings executor store).world
        (initialEngine config surroundings executor store).dispatcher.platform ∧
      (initialEngine config surroundings executor store).dispatcher.routers = routers config := by
  have empty : ∀ id, (initialWorld surroundings executor store).remote? id = none := fun _ => rfl
  unfold initialEngine openPlatform
  by_cases console : config.lifecycle.platformConsole = true
  · rw [if_pos console]
    let sink : ConsoleSink := { name := platformName, encode := config.lifecycle.encoding.encode }
    have added : ∀ id, ((initialWorld surroundings executor store).addSink (.console sink)).2.remote? id = none := by
      intro id
      rw [World.addSink_remote?]
      split
      · rfl
      · exact empty id
    refine ⟨⟨unused, rfl, rfl⟩, rfl, added, ?_, rfl⟩
    intro id same
    cases same
    exact ⟨Nat.zero_lt_one, added _⟩
  · rw [if_neg console]
    exact ⟨⟨unused, rfl, rfl⟩, rfl, empty, by simp [Dispatcher.IsPlatform], rfl⟩

theorem start_tended {config : Config} {surroundings : Surroundings} {service : Service}
    (started : start config surroundings = .ok service) (numbered : surroundings.files.IsNumbered)
    {ids : String → DocumentType → Prop}
    (unused : ∀ id type, ids id type → service.engine.world.uploads.work.document? id type = none) :
    Course.IsTended config.lifecycle.encoding.encode ids { service } ∧ service.config = config ∧ service.report = none := by
  obtain ⟨executor, store, parts, rfl⟩ := start_ok started
  refine ⟨?_, rfl, rfl⟩
  obtain ⟨idle, files, none, platform, routers⟩ := initialEngine_idle config surroundings (remoteParts_unused parts) store
  have dispatcher := startBackground_dispatcher config (initialEngine config surroundings executor store)
  have world := startBackground_world config (initialEngine config surroundings executor store)
  generalize initialEngine config surroundings executor store = engine at idle files none platform routers dispatcher world unused
  generalize startBackground config engine = begun at dispatcher world unused
  obtain ⟨sameExecutor, direct⟩ := engine.world.uploads.startTicker_executor
  have work := engine.world.uploads.startTicker_work
  have still : IsIdle begun.world.uploads := by
    rw [world]
    exact ⟨by rw [sameExecutor]; exact idle.executor, direct.trans idle.direct, by rw [work]; exact idle.buffers⟩
  have absent : ∀ id, begun.world.remote? id = Option.none := by
    intro id
    rw [world]
    exact none id
  refine ⟨⟨ledger_idle _ still absent, ?_, ?_⟩, ?_, still.executor.accepting, ?_⟩
  · show ∀ router ∈ begun.dispatcher.routers, router.IsSound config.lifecycle.encoding.encode begun.world
    rw [dispatcher, routers]
    intro router member
    obtain ⟨destination, -, rfl⟩ := List.mem_map.mp member
    exact router_sound config destination begun.world
  · intro id sink present
    have impossible := (absent id).symm.trans present
    simp at impossible
  · show Dispatcher.IsPlatform begun.world begun.dispatcher.platform
    rw [dispatcher]
    intro id same
    obtain ⟨bound, -⟩ := platform id same
    exact ⟨by rw [world]; exact bound, absent id⟩
  · refine Uploads.stored_start ?_ unused
    have kept : begun.world.uploads.work.files = surroundings.files := by
      rw [world]
      exact (congrArg Uploads.files work).trans files
    show begun.world.uploads.work.files.IsNumbered
    rw [kept]
    exact numbered

end Service

/-- Nothing is owed any more when no remote sink is running and no job is left. -/
theorem World.Ledger.settled {encode : Event → Bytes} {world : World} {receipts : List Receipt} {log : List Notice}
    (ledger : world.Ledger encode receipts log) (still : world.Live fun _ => False) (done : world.executor.jobs = []) :
    ∀ buffer ∈ world.uploads.work.buffers, buffer.pending = [] := by
  intro buffer member
  obtain ⟨target, present⟩ := List.mem_iff_getElem?.mp member
  obtain ⟨bound, -⟩ := List.getElem?_eq_some_iff.mp present
  obtain ⟨id, sink, remote, rfl⟩ := ledger.owned target bound
  have stopped : sink.stopped = true := by
    by_contra running
    exact still remote (by simpa using running)
  rcases ledger.promised remote stopped buffer present with empty | ⟨job, accepted, -⟩
  · exact empty
  · have jobs : world.uploads.executor.jobs = [] := done
    rw [jobs] at accepted
    simp at accepted

namespace Course

/-- What is true of a course when its service has been shut down, however its drain has ended. -/
structure IsClosed (encode : Event → Bytes) (ids : String → DocumentType → Prop) (receipts : List Receipt)
    (notices : List Notice) (world : World) : Prop where
  ledger : world.Ledger encode receipts notices
  stored : Uploads.Stored ids world.uploads.work notices

structure IsSettled (encode : Event → Bytes) (ids : String → DocumentType → Prop) (receipts : List Receipt)
    (notices : List Notice) (world : World) : Prop where
  ledger : world.Ledger encode receipts notices
  stored : Uploads.Stored ids world.uploads.work notices
  empty : ∀ buffer ∈ world.uploads.work.buffers, buffer.pending = []

variable {encode : Event → Bytes} {ids : String → DocumentType → Prop} {course : Course}

theorem IsTended.quiesce (tended : course.IsTended encode ids) :
    IsTended encode ids { course with
      service := { course.service with engine := Service.quiesce course.service.engine } } := by
  have same : course.world.executor.Accepts course.world.executor := Executor.accepts_of_same rfl (Nat.le_refl _)
  let world : World := { course.world with uploads := course.world.uploads.stopTicker }
  have quiet : (course.setWorld world).IsTended encode ids :=
    tended.quiet rfl same (fun _ member => .inl member) rfl rfl rfl fun _ _ => rfl
  exact ⟨quiet.tended, quiet.platform, quiet.accepting, quiet.stored⟩

theorem stopPlatform_quiet {dispatcher : Dispatcher} {world : World}
    (isPlatform : Dispatcher.IsPlatform world dispatcher.platform) :
    (Service.stopPlatform dispatcher world).uploads = world.uploads ∧
      (Service.stopPlatform dispatcher world).sinks.length = world.sinks.length ∧
      ∀ id, (Service.stopPlatform dispatcher world).remote? id = world.remote? id := by
  unfold Service.stopPlatform
  cases platform : dispatcher.platform with
  | none => exact ⟨rfl, rfl, fun _ => rfl⟩
  | some sink =>
      obtain ⟨-, absent⟩ := isPlatform sink platform
      refine ⟨?_, world.stop_length sink, ?_⟩
      · rcases world.stop_uploads sink with same | ⟨remote, present, -⟩
        · exact same
        · rw [absent] at present
          simp at present
      · intro id
        dsimp only
        rw [World.stop_remote?, absent]
        split
        next same => rw [same, absent, Option.map_none]
        · rfl

theorem IsClosed.stopPlatform {receipts : List Receipt} {notices : List Notice} {world : World}
    (closed : IsClosed encode ids receipts notices world) {dispatcher : Dispatcher}
    (isPlatform : Dispatcher.IsPlatform world dispatcher.platform) :
    IsClosed encode ids receipts notices (Service.stopPlatform dispatcher world) := by
  obtain ⟨uploads, length, remotes⟩ := stopPlatform_quiet isPlatform
  have same : world.uploads.Continues (Service.stopPlatform dispatcher world).uploads [] := by
    rw [uploads]
    exact Schedule.continues_of_work rfl (Executor.accepts_of_same rfl (Nat.le_refl _)) rfl
  have ledger := closed.ledger.continues same (Nat.le_of_eq length.symm) remotes
  rw [List.append_nil] at ledger
  exact ⟨ledger, by rw [uploads]; exact closed.stored⟩

theorem drain_closed {receipts : List Receipt} {notices : List Notice} {routers : List Router} {world : World}
    (tended : Tended encode receipts notices (fun _ => False) routers world)
    (stopped : ∀ router ∈ routers, router.registry.entries = [])
    (stored : Uploads.Stored ids world.uploads.work notices) (grace : Millis) :
    IsClosed encode ids receipts (notices ++ world.uploads.drainNotices grace) (world.drain grace).2 ∧
      world.Extends (world.drain grace).2 ∧
      ((world.drain grace).1.completed = true →
        ∀ buffer ∈ (world.drain grace).2.uploads.work.buffers, buffer.pending = []) := by
  obtain ⟨continues, after⟩ := world.uploads.drain_continues grace stored tended.ledger.hasBooks
  have sinks : (world.drain grace).2.sinks = world.sinks := rfl
  obtain ⟨kept, grows⟩ := tended.continues continues sinks
  refine ⟨⟨kept.ledger, after⟩, grows, fun completed => ?_⟩
  have still : (world.drain grace).2.Live fun _ => False := by
    intro id sink present running
    rcases kept.live present running with away | ⟨router, member, known⟩
    · exact away
    · rw [Router.sinks, stopped router member] at known
      simp at known
  exact kept.ledger.settled still (world.uploads.drain_completed grace completed)

theorem IsTended.close (tended : course.IsTended encode ids) (running : course.service.report = none) :
    IsClosed encode ids course.receipts (course.notices ++ course.service.shutdownNotices)
        course.service.shutdown.2.engine.world ∧
      ∀ report, course.service.shutdown.1.drain = some report → report.completed = true →
        ∀ buffer ∈ course.service.shutdown.2.engine.world.uploads.work.buffers, buffer.pending = [] := by
  have quiet := tended.quiesce
  simp only [Service.shutdown, Service.shutdownNotices, running, Service.stopAll, Service.drain]
  generalize Service.quiesce course.service.engine = engine at quiet
  have platform := quiet.platform
  have stored := quiet.stored
  have facts : Tended encode course.receipts course.notices (fun _ => False)
      (engine.dispatcher.stopRouters engine.world).2.1.routers (engine.dispatcher.stopRouters engine.world).2.2 ∧
      engine.world.Extends (engine.dispatcher.stopRouters engine.world).2.2 ∧
      engine.world.KeepsWork (engine.dispatcher.stopRouters engine.world).2.2 ∧
      ∀ router ∈ (engine.dispatcher.stopRouters engine.world).2.1.routers, router.registry.entries = [] :=
    Dispatcher.stopEach_tended quiet.tended quiet.accepting
  have same : (engine.dispatcher.stopRouters engine.world).2.1.platform = engine.dispatcher.platform := rfl
  generalize engine.dispatcher.stopRouters engine.world = result at facts same
  obtain ⟨count, dispatcher, world⟩ := result
  obtain ⟨kept, grows, keeps, empty⟩ := facts
  dsimp only at kept grows keeps empty same ⊢
  have before : Uploads.Stored ids world.uploads.work course.notices := by
    rw [keeps.work]
    exact stored
  have isPlatform : Dispatcher.IsPlatform world dispatcher.platform := by
    rw [same]
    exact platform.grows grows
  by_cases enabled : course.service.config.remote.enabled = true
  · simp only [enabled, if_true]
    obtain ⟨closed, added, emptied⟩ := drain_closed kept empty before course.service.config.lifecycle.shutdownGrace
    have later := isPlatform.grows added
    refine ⟨closed.stopPlatform later, ?_⟩
    rintro report ⟨⟩ completed
    rw [(stopPlatform_quiet later).1]
    exact emptied completed
  · simp only [enabled, Bool.false_eq_true, if_false]
    refine ⟨?_, by simp⟩
    rw [List.append_nil]
    exact IsClosed.stopPlatform ⟨kept.ledger, before⟩ isPlatform

theorem IsTended.shutdown (tended : course.IsTended encode ids) (running : course.service.report = none)
    {report : DrainReport} (drained : course.service.shutdown.1.drain = some report) (completed : report.completed = true) :
    IsSettled encode ids course.receipts (course.notices ++ course.service.shutdownNotices)
      course.service.shutdown.2.engine.world := by
  obtain ⟨closed, emptied⟩ := tended.close running
  exact ⟨closed.ledger, closed.stored, emptied report drained completed⟩

end Course

/-- A shutdown loses nothing. If its drain is complete and no batch was given up, then every event that a remote router has
delivered is in one document of the sink it was delivered to, of that router's type and below the event's own key, and the
documents of each sink hold in the order of their numbers what was delivered to it. This is so for every run before the
shutdown in which no dispatch changes documents that are kept in files; that sinks are told apart, and from everything
that was stored before, is promised by whoever makes their names. -/
theorem shutdown_loses_nothing {config : Config} {surroundings : Surroundings} {service : Service}
    (started : Service.start config surroundings = .ok service) (numbered : surroundings.files.IsNumbered)
    {course : Course}
    (run : Course.Run (World.KeepsDocuments course.service.shutdown.2.engine.world.BatchIds) { service } course)
    (distinct : (course.service.shutdown.2.engine.world.uploads.work.buffers.map (·.sinkInstance)).Nodup)
    (unused : ∀ id type, course.service.shutdown.2.engine.world.BatchIds id type →
      service.engine.world.uploads.work.document? id type = none)
    {report : DrainReport} (drained : course.service.shutdown.1.drain = some report) (completed : report.completed = true)
    (kept : ∀ target id events, .ended target (.dropped id events) ∉ course.notices ++ course.service.shutdownNotices) :
    course.service.shutdown.2.engine.world.IsFiled config.lifecycle.encoding.encode course.receipts := by
  obtain ⟨tended, -, running⟩ := Service.start_tended started numbered unused
  obtain ⟨-, report⟩ := Course.Run.kept run
  have settled := (tended.of_run run).shutdown (report.trans running) drained completed
  exact settled.ledger.filed settled.stored settled.empty kept distinct

namespace Outage

def config : Config :=
  { remote := { enabled := true } }

def surroundings : Surroundings :=
  { files := .empty ["home"], store := some { backend := .memory {} } }

def service : Service where
  config
  engine := Service.startBackground config
    (Service.initialEngine config surroundings { interval := 60000, limit := 4 } { backend := .memory {} })

def event (message : String) : Event :=
  (Event.new 0 .info message).withEntry "cloud_workspace_app_root" "a"

def first : Course :=
  Course.dispatch { service } (event "first")

def second : Course :=
  first.dispatch (event "second")

def later : Course :=
  second.setWorld { second.world with instant := 900000, timestamp := 900000 }

def reaped : Course :=
  { later with service := (later.service.onEngine Engine.reapOnce).2 }

def third : Course :=
  reaped.dispatch (event "third")

def course : Course :=
  third.setWorld (third.world.setStore (third.world.store.failNext 1))

theorem start_ok : Service.start config surroundings = .ok service := by
  have valid : config.validate = .ok () := by decide +kernel
  unfold Service.start
  rw [valid]
  rfl

end Outage

open Outage in
theorem shutdown_loses_nothing_in_outage :
    Service.start config surroundings = .ok service ∧
      Course.Run (World.KeepsDocuments course.service.shutdown.2.engine.world.BatchIds) { service } course ∧
      course.receipts.map (·.sink) = [1, 1, 2] ∧ course.service.shutdown.1.drain = some ⟨true, 0⟩ ∧
      course.service.shutdown.2.engine.world.IsFiled config.lifecycle.encoding.encode course.receipts := by
  have run : ∀ ids, Course.Run (World.KeepsDocuments ids) { service } course := by
    intro ids
    have kept : ∀ before : Course, before.world.store = { backend := .memory {} } → ∀ after,
        World.KeepsDocuments ids before.world after :=
      fun before same => World.keepsDocuments_of_memory (congrArg ObjectStore.backend same)
    exact ((((((Relation.ReflTransGen.single (.dispatch _ (event "first") (kept _ (by decide +kernel) _))).tail
      (.dispatch first (event "second") (kept _ (by decide +kernel) _))).tail
      (.wait second 900000 900000)).tail
      (.reap later)).tail
      (.dispatch reaped (event "third") (kept _ (by decide +kernel) _))).tail
      (.outage third 1))
  have empty : service.engine.world.uploads.work.store = { backend := .memory {} } := by decide +kernel
  obtain ⟨drained, distinct, kept, sinks⟩ : course.service.shutdown.1.drain = some ⟨true, 0⟩ ∧
      (course.service.shutdown.2.engine.world.uploads.work.buffers.map (·.sinkInstance)).Nodup ∧
      (course.notices ++ course.service.shutdownNotices).all
        (fun | .ended _ (.dropped ..) => false | _ => true) = true ∧
      course.receipts.map (·.sink) = [1, 1, 2] := by
    decide +kernel
  have filed := shutdown_loses_nothing Outage.start_ok (FileTree.isNumbered_empty ["home"]) (run _) distinct
    (fun _ _ _ => by rw [Uploads.document?, empty]; rfl) drained rfl
    fun target id events member => by simpa using List.all_eq_true.mp kept _ member
  exact ⟨Outage.start_ok, run _, sinks, drained, filed⟩

namespace Displaced

def config : Config :=
  { localFiles := { fileName := "a", maxFileSize := ⟨10⟩ }
    remote := { enabled := true }
    lifecycle := { platformConsole := false }
    storage := { rootDir := "s" } }

def surroundings : Surroundings :=
  { files := .empty ["home"], store := some { backend := .directory ⟨"s"⟩ } }

def service : Service where
  config
  engine := Service.startBackground config
    (Service.initialEngine config surroundings { interval := 60000, limit := 4 } { backend := .directory ⟨"s"⟩ })

def remoteEvent : Event :=
  (Event.new 0 .info "kept").withEntry "cloud_workspace_app_root" "a.1.gz"

def localEvent (message : String) : Event :=
  (Event.new 0 .info message).withEntry "workspace_app_root" "s/app-logging"

def accepted : Course :=
  Course.dispatch { service } remoteEvent

def asked : Course :=
  { accepted with service := accepted.service.flushAll.2 }

def begun : Course :=
  asked.run (.flush 0) []

def prepared : Course :=
  (begun.bringBack 0 []).run (.flush 0) []

def stored : Course :=
  (prepared.bringBack 0 []).run (.flush 0) []

def rested : Course :=
  stored.setUploads (stored.world.uploads.moveTo 30000)

def opened : Course :=
  rested.dispatch (localEvent "first")

def course : Course :=
  opened.dispatch (localEvent "second")

theorem start_ok : Service.start config surroundings = .ok service := by
  have valid : config.validate = .ok () := by decide +kernel
  unfold Service.start
  rw [valid]
  rfl

theorem run : Course.Run (fun _ _ => True) { service } course := by
  obtain ⟨begins, leaves, prepares, leavesAgain, stores⟩ : asked.world.uploads.ready = [.flush 0] ∧
      begun.world.uploads.away = [0] ∧ (begun.bringBack 0 []).world.uploads.ready = [.flush 0] ∧
      prepared.world.uploads.away = [0] ∧ (prepared.bringBack 0 []).world.uploads.ready = [.flush 0] := by
    decide +kernel
  have taken : Course.Run (fun _ _ => True) { service } stored :=
    ((((((Relation.ReflTransGen.single (.dispatch _ remoteEvent trivial)).tail
      (.flushAll accepted)).tail
      (.run asked [] (.flush 0) [] begins)).tail
      (.bringBack begun [] 0 [] leaves)).tail
      (.run (begun.bringBack 0 []) [] (.flush 0) [] prepares)).tail
      (.bringBack prepared [] 0 [] leavesAgain)).tail
      (.run (prepared.bringBack 0 []) [] (.flush 0) [] stores)
  exact ((taken.tail
    (.wake stored 30000)).tail
    (.dispatch rested (localEvent "first") trivial)).tail
    (.dispatch opened (localEvent "second") trivial)

theorem document?_start (id : String) (type : DocumentType) :
    service.engine.world.uploads.work.document? id type = none := by
  have files : service.engine.world.uploads.work.files = .empty ["home"] := by decide +kernel
  have store : service.engine.world.uploads.work.store = { backend := .directory ⟨"s"⟩ } := by decide +kernel
  rw [Uploads.document?, files, store]
  unfold ObjectStore.document?
  dsimp only
  split
  · rw [FileTree.content?, FileTree.node?_empty]
    split <;> rfl
  · rfl

end Displaced

open Displaced in
/-- Without the condition on dispatches this fails: a local destination in the directory of the store moves a document
away. -/
theorem shutdown_loses_displaced_document :
    Service.start config surroundings = .ok service ∧ surroundings.files.IsNumbered ∧
      Course.Run (fun _ _ => True) { service } course ∧
      (course.service.shutdown.2.engine.world.uploads.work.buffers.map (·.sinkInstance)).Nodup ∧
      (∀ id type, service.engine.world.uploads.work.document? id type = none) ∧
      course.service.shutdown.1.drain = some ⟨true, 0⟩ ∧
      (∀ target id events, .ended target (.dropped id events) ∉ course.notices ++ course.service.shutdownNotices) ∧
      ¬ course.service.shutdown.2.engine.world.IsFiled config.lifecycle.encoding.encode course.receipts := by
  obtain ⟨drained, distinct, kept, single, lost⟩ : course.service.shutdown.1.drain = some ⟨true, 0⟩ ∧
      (course.service.shutdown.2.engine.world.uploads.work.buffers.map (·.sinkInstance)).Nodup ∧
      (course.notices ++ course.service.shutdownNotices).all
        (fun | .ended _ (.dropped ..) => false | _ => true) = true ∧
      (course.receipts.filter (·.sink = 0)).length = 1 ∧
      ((course.service.shutdown.2.engine.world.remote? 0).bind
        (·.buffer? course.service.shutdown.2.engine.world.uploads)).map
        (fun buffer => course.service.shutdown.2.engine.world.uploads.work.document? (buffer.idOf 1) buffer.type) =
          some none := by
    decide +kernel
  refine ⟨Displaced.start_ok, FileTree.isNumbered_empty ["home"], Displaced.run, distinct, document?_start, drained, ?_, ?_⟩
  · exact fun target id events member => by simpa using List.all_eq_true.mp kept _ member
  · intro filed
    generalize course.service.shutdown.2.engine.world = world at filed lost
    -- The one receipt of the sink would have to be in its only document, which is not there.
    obtain ⟨buffer, here, absent⟩ := Option.map_eq_some_iff.mp lost
    obtain ⟨sink, remote, same⟩ := Option.bind_eq_some_iff.mp here
    obtain ⟨found, batches, present, flat, -, documents⟩ := filed.filed remote
    obtain rfl := Option.some.inj (same.symm.trans present)
    rw [documents 0, Option.map_eq_none_iff, List.getElem?_eq_none_iff, Nat.le_zero, List.length_eq_zero_iff] at absent
    rw [← flat, absent] at single
    exact absurd single (by decide)

end KeyedLog
