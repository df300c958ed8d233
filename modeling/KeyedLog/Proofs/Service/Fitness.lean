import KeyedLog.Proofs.Dispatcher.Fitness
import KeyedLog.Proofs.Files.Meddling
import KeyedLog.Proofs.Service.Finality

/-!
A service that starts on sound files has a dispatcher that is fit for its world, and nothing changes that, neither what goes
on in the background nor a shutdown.
-/

namespace KeyedLog

open FileTree

namespace ObjectStore

theorem makeParent_endures (path : String) (files : FileTree) :
    files.Endures (stateAfter (DirectoryStore.makeParent path) files) := by
  have grows := DirectoryStore.makeParent_grows path files
  refine ⟨grows.home, ?_, grows.sound⟩
  unfold DirectoryStore.makeParent
  cases Path.parent? path with
  | none => exact Nat.le_refl _
  | some parent => exact Edits.next (Files.makeDirectories_edits parent files : Edits Anywhere Anywhere files _)

theorem proceed_endures (store : ObjectStore) (stage : PutStage) (id : String) (type : DocumentType) (bytes : Bytes)
    (files : FileTree) : files.Endures (store.proceed stage id type bytes files).2.2 := by
  obtain ⟨backend, latency⟩ := store
  cases backend with
  | memory memory =>
      unfold proceed
      dsimp only
      split <;> exact Endures.refl files
  | directory directory =>
      simp only [proceed, DirectoryStore.proceed]
      cases directory.objectPath id type with
      | error fault => exact Endures.refl files
      | ok path =>
          have made := makeParent_endures path files
          have written := Files.writeAll_endures path bytes files
          cases stage with
          | due => exact Endures.refl files
          | preparing =>
              cases reached : DirectoryStore.makeParent path files <;> simpa [stateAfter, reached] using made
          | storing => cases reached : Files.writeAll path bytes files <;> simpa [stateAfter, reached] using written

end ObjectStore

structure Uploads.Lasts (before after : Uploads) : Prop where
  files : before.files.Endures after.files
  buffers : before.buffers.length ≤ after.buffers.length

namespace Uploads.Lasts

theorem refl (uploads : Uploads) : uploads.Lasts uploads :=
  ⟨.refl _, Nat.le_refl _⟩

theorem trans {first second third : Uploads} (one : first.Lasts second) (two : second.Lasts third) : first.Lasts third :=
  ⟨one.files.trans two.files, Nat.le_trans one.buffers two.buffers⟩

theorem resume (job : JobId) (target : TargetId) (uploads : Uploads) :
    uploads.Lasts (worker.resume job target uploads).2 := by
  simp only [worker, workerWith, Uploads.resume]
  split
  · exact refl uploads
  next buffer _ =>
    split
    · exact ⟨.refl _, Nat.le_of_eq List.length_set.symm⟩
    · exact ⟨.refl _, Nat.le_of_eq List.length_set.symm⟩
    next upload turned _ =>
      have endures := uploads.store.proceed_endures upload.stage upload.id turned.type upload.payload uploads.files
      simp only [advance]
      generalize uploads.store.proceed upload.stage upload.id turned.type upload.payload uploads.files = taken at endures
      obtain ⟨intake, store, files⟩ := taken
      cases intake with
      | answered result => exact ⟨endures, Nat.le_of_eq List.length_set.symm⟩
      | paused pause stage => exact ⟨endures, Nat.le_of_eq List.length_set.symm⟩

theorem run (schedule : UploadSchedule) (activity : Activity) :
    schedule.work.Lasts (schedule.run worker activity).2.work :=
  Schedule.run_work_cases ObjectStore.proceed schedule activity (refl _) fun job target => resume job target schedule.work

theorem uploading {before after : UploadSchedule} (uploading : Uploading before after) : before.work.Lasts after.work := by
  cases uploading with
  | run front activity back ready => exact run { before with ready := front ++ back } activity
  | outage count => exact ⟨.refl _, Nat.le_refl _⟩
  | chance chance => exact ⟨.refl _, Nat.le_refl _⟩
  | _ => exact refl _

theorem drain (schedule : UploadSchedule) (grace : Millis) : schedule.work.Lasts (schedule.drain worker grace).2.work := by
  let keeps (later : UploadSchedule) : Prop := schedule.work.Lasts later.work
  have stable : worker.Keeps keeps :=
    ⟨fun later activity rest _ kept => kept.trans (run { later with ready := rest } activity), fun _ _ _ _ kept => kept⟩
  exact Schedule.drain_keeps stable (fun _ _ kept => kept) (fun _ _ kept => kept) schedule grace (refl schedule.work)

end Uploads.Lasts

namespace World.IsFit

variable {world after : World}

theorem lasts (fit : world.IsFit) (lasts : world.uploads.work.Lasts after.uploads.work) (sinks : after.sinks = world.sinks) :
    after.IsFit := by
  refine ⟨lasts.files.sound fit.sound, fit.separate.congr (fun id => remote?_congr (by rw [sinks])) lasts.buffers, ?_⟩
  intro sink member
  exact (fit.sinks sink (sinks ▸ member)).later lasts.files.next

end World.IsFit

namespace Dispatcher.IsFit

variable {dispatcher later : Dispatcher} {world after : World}

theorem lasts (fit : dispatcher.IsFit world) (lasts : world.uploads.work.Lasts after.uploads.work)
    (sinks : after.sinks = world.sinks) (recipients : later.recipients = dispatcher.recipients) : later.IsFit after :=
  fit.later ((isFit_iff.mp fit).fits.lasts lasts sinks) (Nat.le_of_eq (congrArg List.length sinks.symm)) recipients

theorem stopPlatform (fit : dispatcher.IsFit world) : dispatcher.IsFit (Service.stopPlatform dispatcher world) := by
  unfold Service.stopPlatform
  split
  next sink _ => exact fit.later ((isFit_iff.mp fit).fits.stop sink) (Nat.le_of_eq (world.stop_length sink).symm) rfl
  next => exact fit

end Dispatcher.IsFit

namespace Service

variable {config : Config} {surroundings : Surroundings} {service : Service}

def IsFit (service : Service) : Prop :=
  service.dispatcher.IsFit service.world

theorem initialEngine_isFit (config : Config) (sound : surroundings.files.IsSound) {executor : Executor}
    (unused : IsUnused executor) (store : ObjectStore) :
    (initialEngine config surroundings executor store).dispatcher.IsFit
      (initialEngine config surroundings executor store).world := by
  obtain ⟨-, files, none, platform, routers⟩ := initialEngine_idle config surroundings unused store
  have sinks : ∀ sink ∈ (initialEngine config surroundings executor store).world.sinks, ∃ console, sink = .console console := by
    by_cases console : config.lifecycle.platformConsole = true
    · simp [initialEngine, openPlatform, console, initialWorld, World.addSink]
    · simp [initialEngine, openPlatform, console, initialWorld]
  generalize initialEngine config surroundings executor store = engine at *
  have empty : ∀ recipient ∈ engine.dispatcher.routers.map Recipient.router, recipient.sinks = [] := by
    rw [routers]
    intro recipient member
    obtain ⟨router, its, rfl⟩ := List.mem_map.mp member
    obtain ⟨destination, -, rfl⟩ := List.mem_map.mp its
    rfl
  have absent : ∀ {id sink}, engine.world.remote? id ≠ some sink := by simp [none]
  refine ⟨by rwa [files], ⟨fun present => absurd present absent, fun present => absurd present absent⟩, ?_, ?_, ?_⟩
  · intro sink member
    obtain ⟨console, rfl⟩ := sinks sink member
    exact ⟨by simp [Sink.openFile?], by simp⟩
  · intro recipient member id its
    rcases List.mem_append.mp member with inPlatform | inRouters
    · obtain ⟨sink, same, rfl⟩ := List.mem_map.mp inPlatform
      obtain rfl := List.mem_singleton.mp its
      exact (platform id (Option.mem_toList.mp same)).1
    · rw [empty recipient inRouters] at its
      exact absurd its List.not_mem_nil
  · refine List.pairwise_append.mpr ⟨?_, ?_, ?_⟩
    · cases engine.dispatcher.platform <;> simp
    · exact List.pairwise_of_forall_mem_list fun one member _ _ => by
        rw [empty one member]
        exact List.disjoint_nil_left _
    · intro one _ two member
      rw [empty two member]
      exact List.disjoint_nil_right _

theorem start_isFit (started : start config surroundings = .ok service) (sound : surroundings.files.IsSound) :
    service.IsFit := by
  obtain ⟨executor, store, parts, rfl⟩ := start_ok started
  have fit := initialEngine_isFit config sound (remoteParts_unused parts) store
  generalize initialEngine config surroundings executor store = engine at fit
  have begun : engine.dispatcher.IsFit { engine.world with uploads := engine.world.uploads.startTicker } := by
    refine fit.lasts ?_ rfl rfl
    show engine.world.uploads.work.Lasts engine.world.uploads.startTicker.work
    rw [Schedule.startTicker_work]
    exact .refl _
  rw [← startBackground_world config engine, ← startBackground_dispatcher config engine] at begun
  exact begun

theorem drain_lasts (config : Config) (world : World) : world.uploads.work.Lasts (drain config world).2.uploads.work := by
  unfold drain
  split
  · exact .drain world.uploads _
  · exact .refl _

theorem IsFit.shutdown (fit : service.IsFit) : service.shutdown.2.IsFit := by
  obtain ⟨config, ⟨dispatcher, world, reaper⟩, report⟩ := service
  cases report with
  | some report => exact fit
  | none =>
      have quiet : ({ dispatcher with accepting := false } : Dispatcher).IsFit { world with uploads := world.uploads.stopTicker } :=
        fit.lasts (.refl _) rfl rfl
      have stopped := quiet.stopRouters
      have drained := stopped.lasts (drain_lasts config _) (Lifetime.drain_sinks config _) rfl
      exact drained.stopPlatform

end Service

namespace Lifetime

variable {life next : Lifetime}

/-- What may happen, and if it is an event, then no archive that has to do with its keys has the working directory inside. -/
def StepsAtHome (before after : Lifetime) : Prop :=
  Step before after ∧ ∀ event, after = before.use (.dispatch event) →
    ∀ recipient ∈ before.service.dispatcher.recipients, recipient.StaysHome event before.service.world

theorem StepsAtHome.isFit (step : StepsAtHome life next) (fit : life.service.IsFit) : next.service.IsFit := by
  obtain ⟨step, home⟩ := step
  cases step with
  | use action =>
      cases action with
      | dispatch event => exact Dispatcher.IsFit.dispatch fit (home event rfl)
      | reap => exact Dispatcher.IsFit.reap fit
      | reapRouter name now => exact Dispatcher.IsFit.reapRouter fit name now
      | wait instant timestamp => exact Dispatcher.IsFit.lasts fit (.refl _) rfl rfl
  | flushAll =>
      obtain ⟨sinks, dispatcher⟩ := flushAll_engine life.service
      refine Dispatcher.IsFit.lasts fit ?_ sinks (congrArg Dispatcher.recipients dispatcher)
      unfold Service.flushAll
      split <;> exact .refl _
  | flush id =>
      refine Dispatcher.IsFit.lasts fit ?_ (flush_sinks life.service.world id) rfl
      show life.service.world.uploads.work.Lasts (life.service.world.flush id).2.uploads.work
      unfold World.flush
      split <;> exact .refl _
  | uploading uploading => exact Dispatcher.IsFit.lasts fit (.uploading uploading) rfl rfl
  | schedule reaper => exact fit

/-- Whatever happens to a service that has started on sound files, a shutdown at any time included: its dispatcher stays fit for
its world. -/
theorem start_staysFit {config : Config} {surroundings : Surroundings} {service : Service}
    (started : Service.start config surroundings = .ok service) (sound : surroundings.files.IsSound)
    (run : Relation.ReflTransGen (fun before after => StepsAtHome before after ∨ after = before.shutdown) { service } life) :
    life.service.IsFit := by
  induction run with
  | refl => exact Service.start_isFit started sound
  | tail _ step ih =>
      rcases step with step | rfl
      · exact step.isFit ih
      · exact ih.shutdown

end Lifetime

end KeyedLog
