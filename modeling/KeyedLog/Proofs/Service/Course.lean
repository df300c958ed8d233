import KeyedLog.Proofs.Dispatcher
import KeyedLog.Proofs.Flush.Watching
import KeyedLog.Service
import Mathlib.Logic.Relation

/-!
Runs of a whole service. Events are dispatched, flushes are asked for, idle sinks are reaped, activities run in any order
and time goes on, until the service is shut down.
-/

namespace KeyedLog

namespace World

/-- Nothing changes in files that hold objects with these ids. Objects in memory are in no file. -/
def KeepsDocuments (ids : String → DocumentType → Prop) (before after : World) : Prop :=
  ∀ directory, before.store.backend = .directory directory → ∀ id type, ids id type →
    after.uploads.work.document? id type = before.uploads.work.document? id type

theorem keepsDocuments_of_memory {ids : String → DocumentType → Prop} {before : World} {memory : MemoryStore}
    (backend : before.store.backend = .memory memory) (after : World) : before.KeepsDocuments ids after := by
  intro directory same
  rw [backend] at same
  simp at same

end World

/-- A service at work, with what its remote routers have delivered and what flushes have shown. -/
structure Course where
  service : Service
  receipts : List Receipt := []
  notices : List Notice := []

namespace Course

def world (course : Course) : World :=
  course.service.engine.world

def dispatcher (course : Course) : Dispatcher :=
  course.service.engine.dispatcher

def setWorld (course : Course) (world : World) : Course :=
  { course with service := { course.service with engine := { course.service.engine with world } } }

def setUploads (course : Course) (uploads : UploadSchedule) : Course :=
  course.setWorld { course.world with uploads }

def dispatch (course : Course) (event : Event) : Course :=
  { course with
    service := (course.service.dispatch event).2
    receipts := course.receipts ++ course.dispatcher.receipts event course.world }

def run (course : Course) (activity : Activity) (rest : List Activity) : Course :=
  let schedule := { course.world.uploads with ready := rest }
  { course.setUploads (schedule.run Uploads.worker activity).2 with
    notices := course.notices ++ schedule.notices ObjectStore.proceed activity }

def bringBack (course : Course) (job : JobId) (others : List JobId) : Course :=
  course.setUploads (course.world.uploads.bringBack job others)

/-- One step of a run, in which dispatching may change the world only as it is allowed. -/
inductive Step (allowed : World → World → Prop) : Course → Course → Prop where
  | dispatch (course : Course) (event : Event) (permitted : allowed course.world (course.dispatch event).world) :
      Step allowed course (course.dispatch event)
  | flushAll (course : Course) : Step allowed course { course with service := course.service.flushAll.2 }
  | flush (course : Course) (id : SinkId) : Step allowed course (course.setWorld (course.world.flush id).2)
  | flushNow (course : Course) (target : TargetId) :
      Step allowed course (course.setUploads (course.world.uploads.beginDirect target).2)
  | reap (course : Course) :
      Step allowed course { course with service := (course.service.onEngine Engine.reapOnce).2 }
  | run (course : Course) (before : List Activity) (activity : Activity) (after : List Activity)
      (ready : course.world.uploads.ready = before ++ activity :: after) :
      Step allowed course (course.run activity (before ++ after))
  | bringBack (course : Course) (before : List JobId) (job : JobId) (after : List JobId)
      (away : course.world.uploads.away = before ++ job :: after) :
      Step allowed course (course.bringBack job (before ++ after))
  | wake (course : Course) (time : Millis) : Step allowed course (course.setUploads (course.world.uploads.moveTo time))
  | wait (course : Course) (instant : Millis) (timestamp : Nat) :
      Step allowed course (course.setWorld { course.world with instant, timestamp })
  | outage (course : Course) (count : UInt32) :
      Step allowed course (course.setWorld (course.world.setStore (course.world.store.failNext count)))
  | chance (course : Course) (chance : UInt64) :
      Step allowed course (course.setUploads
        { course.world.uploads with work := { course.world.uploads.work with chance } })
  | schedule (course : Course) (reaper : Option Reaper) :
      Step allowed course { course with
        service := { course.service with engine := { course.service.engine with reaper } } }

abbrev Run (allowed : World → World → Prop) : Course → Course → Prop :=
  Relation.ReflTransGen (Step allowed)

/-- Between its start and its shutdown a service has receipts for all that its remote sinks have accepted. -/
structure IsTended (encode : Event → Bytes) (ids : String → DocumentType → Prop) (course : Course) : Prop where
  tended : Tended encode course.receipts course.notices (fun _ => False) course.dispatcher.routers course.world
  platform : Dispatcher.IsPlatform course.world course.dispatcher.platform
  accepting : course.world.executor.accepting = true
  stored : Uploads.Stored ids course.world.uploads.work course.notices

end Course

theorem Tended.continues {encode : Event → Bytes} {receipts : List Receipt} {log shown : List Notice}
    {elsewhere : SinkId → Prop} {routers : List Router} {before after : World}
    (tended : Tended encode receipts log elsewhere routers before)
    (continues : before.uploads.Continues after.uploads shown) (sinks : after.sinks = before.sinks) :
    Tended encode receipts (log ++ shown) elsewhere routers after ∧ before.Extends after := by
  have remotes : ∀ id, after.remote? id = before.remote? id := fun id => World.remote?_congr (by rw [sinks])
  have length : before.sinks.length ≤ after.sinks.length := Nat.le_of_eq (congrArg List.length sinks.symm)
  have grows := World.extends_of_same length remotes continues.identities
  refine ⟨⟨tended.ledger.continues continues length remotes, ?_, ?_⟩, grows⟩
  · exact fun router member => (tended.sound router member).grows grows
  · intro id sink present running
    rw [remotes] at present
    exact tended.live present running

namespace Schedule

theorem run_accepting (take : Taking) (schedule : UploadSchedule) (activity : Activity) :
    (schedule.run (Uploads.workerWith take) activity).2.executor.accepting = schedule.executor.accepting := by
  cases activity with
  | tick =>
      simp only [run]
      rw [(startTicker_executor _).1]
      exact Executor.flushAll_accepting ..
  | flush job => exact (schedule.run_flush (Uploads.workerWith take) job).accepting

theorem continues_of_work {before after : UploadSchedule} (work : after.work = before.work)
    (accepts : before.executor.Accepts after.executor) (direct : after.direct = before.direct) :
    before.Continues after [] :=
  continues_of_accepts (congrArg Uploads.buffers work) accepts fun _ member => .inl (direct ▸ member)

end Schedule

namespace Course

variable {encode : Event → Bytes} {ids : String → DocumentType → Prop} {course next : Course}

theorem IsTended.continues (tended : course.IsTended encode ids) {world : World} {shown : List Notice}
    (continues : course.world.uploads.Continues world.uploads shown) (sinks : world.sinks = course.world.sinks)
    (accepting : world.executor.accepting = course.world.executor.accepting)
    (stored : Uploads.Stored ids world.uploads.work (course.notices ++ shown)) :
    IsTended encode ids { course.setWorld world with notices := course.notices ++ shown } := by
  obtain ⟨kept, grows⟩ := tended.tended.continues continues sinks
  exact ⟨kept, tended.platform.grows grows, accepting.trans tended.accepting, stored⟩

theorem IsTended.quiet (tended : course.IsTended encode ids) {world : World}
    (buffers : world.uploads.work.buffers = course.world.uploads.work.buffers)
    (accepts : course.world.executor.Accepts world.executor)
    (direct : ∀ entry ∈ world.uploads.direct, entry ∈ course.world.uploads.direct ∨ entry.1 < world.executor.nextJob)
    (sinks : world.sinks = course.world.sinks)
    (accepting : world.executor.accepting = course.world.executor.accepting)
    (files : world.files = course.world.files)
    (documents : ∀ id type, world.uploads.work.document? id type = course.world.uploads.work.document? id type) :
    (course.setWorld world).IsTended encode ids := by
  have continues := Schedule.continues_of_accepts buffers accepts direct
  have numbered : world.uploads.work.files.IsNumbered := by
    rw [World.files] at files
    rw [files]
    exact tended.stored.numbered
  have stored := tended.stored.congr numbered fun id type _ => documents id type
  have kept := tended.continues continues sinks accepting (by rw [List.append_nil]; exact stored)
  rw [List.append_nil] at kept
  exact kept

theorem IsTended.dispatch (tended : course.IsTended encode ids) (event : Event)
    (permitted : World.KeepsDocuments ids course.world (course.dispatch event).world) :
    (course.dispatch event).IsTended encode ids := by
  obtain ⟨kept, grows, leaves, platform⟩ := Dispatcher.dispatch_tended tended.tended tended.platform event
  refine ⟨kept, ?_, leaves.accepting.trans tended.accepting, ?_⟩
  · have same : (course.dispatch event).dispatcher.platform = course.dispatcher.platform := platform
    rw [same]
    exact tended.platform.grows grows
  · refine tended.stored.congr (leaves.files.numbered tended.stored.numbered) ?_
    intro id type known
    have store : (course.dispatch event).world.uploads.work.store = course.world.uploads.work.store := leaves.store
    cases backend : course.world.store.backend with
    | memory memory =>
        have held : course.world.uploads.work.store.backend = .memory memory := backend
        simp only [Uploads.document?, store, ObjectStore.document?, held]
    | directory directory => exact permitted directory backend id type known

theorem IsTended.run (tended : course.IsTended encode ids) (activity : Activity) (rest : List Activity) :
    (course.run activity rest).IsTended encode ids := by
  let schedule : UploadSchedule := { course.world.uploads with ready := rest }
  have taken : course.world.uploads.Continues schedule [] :=
    Schedule.continues_of_work rfl (Executor.accepts_of_same rfl (Nat.le_refl _)) rfl
  have ran := taken.trans (schedule.run_continues ObjectStore.proceed activity)
  have stored := schedule.run_stored activity tended.stored tended.tended.ledger.hasBooks
  let after : World := { course.world with uploads := (schedule.run Uploads.worker activity).2 }
  have sinks : after.sinks = course.world.sinks := rfl
  exact tended.continues ran sinks (schedule.run_accepting ObjectStore.proceed activity) stored

theorem IsTended.reap (tended : course.IsTended encode ids) :
    IsTended encode ids { course with service := (course.service.onEngine Engine.reapOnce).2 } := by
  obtain ⟨kept, grows, keeps⟩ := Dispatcher.reapEach_tended tended.tended tended.accepting course.world.instant
  refine ⟨kept, tended.platform.grows grows, keeps.accepting.trans tended.accepting, ?_⟩
  have work : (course.service.onEngine Engine.reapOnce).2.engine.world.uploads.work = course.world.uploads.work := keeps.work
  show Uploads.Stored ids (course.service.onEngine Engine.reapOnce).2.engine.world.uploads.work course.notices
  rw [work]
  exact tended.stored

theorem document?_failNext (store : ObjectStore) (count : UInt32) (files : FileTree) (id : String) (type : DocumentType) :
    (store.failNext count).document? files id type = store.document? files id type := by
  obtain ⟨backend, latency⟩ := store
  cases backend <;> rfl

theorem IsTended.flushAll (tended : course.IsTended encode ids) :
    IsTended encode ids { course with service := course.service.flushAll.2 } := by
  unfold Service.flushAll
  by_cases enabled : course.service.config.remote.enabled = true
  · rw [if_pos enabled]
    let world : World := { course.world with uploads := (course.world.uploads.flushAll Uploads.worker).2 }
    have buffers : world.uploads.work.buffers = course.world.uploads.work.buffers := rfl
    exact tended.quiet buffers (Executor.flushAll_accepts ..) (fun _ member => .inl member) rfl
      (Executor.flushAll_accepting ..) rfl fun _ _ => rfl
  · rw [if_neg enabled]
    exact tended

theorem IsTended.flush (tended : course.IsTended encode ids) (id : SinkId) :
    (course.setWorld (course.world.flush id).2).IsTended encode ids := by
  have same : course.world.executor.Accepts course.world.executor := Executor.accepts_of_same rfl (Nat.le_refl _)
  unfold World.flush
  split
  · exact tended.quiet rfl same (fun _ member => .inl member) rfl rfl rfl fun _ _ => rfl
  next sink _ =>
    exact tended.quiet rfl (sink.flush_accepts course.world.uploads) (fun _ member => .inl member) rfl
      (Executor.submit_accepting ..) rfl fun _ _ => rfl
  · exact tended

theorem IsTended.step (tended : course.IsTended encode ids) (step : Step (World.KeepsDocuments ids) course next) :
    next.IsTended encode ids := by
  have same : course.world.executor.Accepts course.world.executor := Executor.accepts_of_same rfl (Nat.le_refl _)
  cases step with
  | dispatch event permitted => exact tended.dispatch event permitted
  | flushAll => exact tended.flushAll
  | flush id => exact tended.flush id
  | flushNow target =>
      refine tended.quiet rfl (Executor.accepts_of_same rfl (Nat.le_succ _)) ?_ rfl rfl rfl fun _ _ => rfl
      intro entry member
      rcases List.mem_append.mp member with old | new
      · exact .inl old
      · rw [List.mem_singleton.mp new]
        exact .inr (Nat.lt_succ_self _)
  | reap => exact tended.reap
  | run before activity after ready => exact tended.run activity (before ++ after)
  | bringBack before job after away => exact tended.quiet rfl same (fun _ member => .inl member) rfl rfl rfl fun _ _ => rfl
  | wake time => exact tended.quiet rfl same (fun _ member => .inl member) rfl rfl rfl fun _ _ => rfl
  | wait instant timestamp => exact tended.quiet rfl same (fun _ member => .inl member) rfl rfl rfl fun _ _ => rfl
  | outage count =>
      exact tended.quiet rfl same (fun _ member => .inl member) rfl rfl rfl
        fun id type => document?_failNext _ count _ id type
  | chance chance => exact tended.quiet rfl same (fun _ member => .inl member) rfl rfl rfl fun _ _ => rfl
  | schedule reaper => exact ⟨tended.tended, tended.platform, tended.accepting, tended.stored⟩

theorem IsTended.of_run (tended : course.IsTended encode ids) (run : Run (World.KeepsDocuments ids) course next) :
    next.IsTended encode ids := by
  induction run with
  | refl => exact tended
  | tail _ step ih => exact ih.step step

theorem Step.kept {allowed : World → World → Prop} (step : Step allowed course next) :
    next.service.config = course.service.config ∧ next.service.report = course.service.report := by
  cases step with
  | flushAll =>
      unfold Service.flushAll
      split <;> exact ⟨rfl, rfl⟩
  | _ => exact ⟨rfl, rfl⟩

theorem Run.kept {allowed : World → World → Prop} (run : Run allowed course next) :
    next.service.config = course.service.config ∧ next.service.report = course.service.report := by
  induction run with
  | refl => exact ⟨rfl, rfl⟩
  | tail _ step ih =>
      obtain ⟨config, report⟩ := step.kept
      exact ⟨config.trans ih.1, report.trans ih.2⟩

theorem run_advanceTo (allowed : World → World → Prop) (course : Course) (time : Millis) :
    ∃ notices, Run allowed course { course.setWorld (course.world.advanceTo time) with notices } := by
  let keeps (uploads : UploadSchedule) : Prop := ∃ notices, Run allowed course { course.setUploads uploads with notices }
  have stable : Uploads.worker.Keeps keeps := by
    constructor
    · rintro uploads activity rest ready ⟨notices, before⟩
      exact ⟨_, before.tail (.run _ [] activity rest ready)⟩
    · rintro uploads job others away ⟨notices, before⟩
      exact ⟨notices, before.tail (.bringBack _ [] job others away)⟩
  have wake : ∀ uploads time, keeps uploads → keeps (uploads.moveTo time) := by
    rintro uploads time ⟨notices, before⟩
    exact ⟨notices, before.tail (.wake _ time)⟩
  have start : keeps course.world.uploads := ⟨course.notices, .refl⟩
  exact Schedule.advanceFrom_keeps stable wake Schedule.patience time start

theorem run_advanceFrom (allowed : World → World → Prop) (fuel : Nat) (time : Millis) (course : Course) :
    ∃ notices, Run allowed course { course with
      service := { course.service with engine := course.service.engine.advanceFrom fuel time }, notices } := by
  induction fuel generalizing course with
  | zero => exact ⟨course.notices, .refl⟩
  | succ fuel ih =>
      simp only [Engine.advanceFrom]
      split
      · exact course.run_advanceTo allowed time
      next reaper _ =>
        split
        · obtain ⟨notices, first⟩ := course.run_advanceTo allowed reaper.next
          have next := (first.tail (.schedule _ (some { reaper with next := reaper.next + reaper.interval }))).tail (.reap _)
          obtain ⟨shown, rest⟩ := ih _
          exact ⟨shown, next.trans rest⟩
        · exact course.run_advanceTo allowed time

theorem run_reach (allowed : World → World → Prop) (course : Course) (moment : Millis) (timestamp : Nat) :
    ∃ notices, Run allowed course { course with service := course.service.reach moment timestamp, notices } := by
  obtain ⟨notices, rest⟩ := run_advanceFrom allowed Schedule.patience moment
    (course.setWorld { course.world with instant := moment, timestamp })
  exact ⟨notices, (Relation.ReflTransGen.single (.wait course moment timestamp)).trans rest⟩

end Course

end KeyedLog
