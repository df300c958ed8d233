import KeyedLog.Proofs.Flush.Draining

/-!
An executor that is used from all sides. At any time somebody may register a buffer, ask for flushes, flush a buffer at
once or begin to drain; what is ready runs in any order, with any answers of the store, and time goes on in between.
-/

namespace KeyedLog

/-- An executor at work on buffers, and what was seen of it. -/
structure Flushing where
  schedule : UploadSchedule
  history : List Milestone := []

namespace Schedule

def asked (schedule : UploadSchedule) (target : TargetId) : List Milestone :=
  (schedule.executor.submit target).1.toList.map .accepted

def askedForAll (schedule : UploadSchedule) : List Milestone :=
  (schedule.executor.flushAll (Uploads.isHeld schedule.work)).2.1.map .accepted

def endOf (schedule : UploadSchedule) (ended : JobId × FlushOutcome) : Option Milestone :=
  if ended.1 ∈ schedule.executor.jobs.map (·.1) then some (.finished ended.1) else none

def milestones (take : Taking) (schedule : UploadSchedule) : Activity → List Milestone
  | .tick => schedule.askedForAll
  | .flush job =>
    (match schedule.enter job with
    | (none, _) => []
    | (some target, _) => schedule.work.milestones take job target) ++
      (schedule.run (Uploads.workerWith take) (.flush job)).1.toList.filterMap schedule.endOf

/-- The first part of a drain, before anyone waits: flush everything that is registered, and accept nothing more. -/
def beginDrain (schedule : UploadSchedule) : UploadSchedule :=
  { (schedule.flushAll Uploads.worker).2 with executor := (schedule.flushAll Uploads.worker).2.executor.close }

theorem drain_eq (take : Taking) (schedule : UploadSchedule) (grace : Millis) :
    schedule.drain (Uploads.workerWith take) grace =
      schedule.beginDrain.drainFrom (Uploads.workerWith take) (schedule.clock + grace) (grace + 2) := rfl

end Schedule

namespace RemoteBuffer

def lane (buffer : RemoteBuffer) : List JobId × Option Upload :=
  (buffer.turns, buffer.upload)

end RemoteBuffer

namespace Flushing

def start (executor : Executor) (files : FileTree) (store : ObjectStore) : Flushing where
  schedule := { executor, work := { files, store } }

/-- What can happen at any time. -/
inductive Step (state : Flushing) : Flushing → Prop where
  | register (target : TargetId) : Step state { state with
      schedule := { state.schedule with executor := (state.schedule.executor.register target).2 } }
  | deregister (registration : Nat) : Step state { state with
      schedule := { state.schedule with executor := state.schedule.executor.deregister registration } }
  | submit (target : TargetId) : Step state
      ⟨(state.schedule.submit target).2, state.history ++ state.schedule.asked target⟩
  | flushAll : Step state
      ⟨(state.schedule.flushAll Uploads.worker).2, state.history ++ state.schedule.askedForAll⟩
  | flushNow (target : TargetId) : Step state { state with schedule := (state.schedule.beginDirect target).2 }
  | startTicker : Step state { state with schedule := state.schedule.startTicker }
  | stopTicker : Step state { state with schedule := state.schedule.stopTicker }
  | run (take : Taking) (first rest : List Activity) (activity : Activity)
      (ready : state.schedule.ready = first ++ activity :: rest) : Step state
      ⟨({ state.schedule with ready := first ++ rest }.run (Uploads.workerWith take) activity).2,
        state.history ++ Schedule.milestones take { state.schedule with ready := first ++ rest } activity⟩
  | bringBack (first rest : List JobId) (job : JobId) (away : state.schedule.away = first ++ job :: rest) :
      Step state { state with schedule := state.schedule.bringBack job (first ++ rest) }
  | moveTo (time : Millis) : Step state { state with schedule := state.schedule.moveTo time }
  | wait (time : Millis) (later : state.schedule.clock ≤ time) (early : ∀ alarm ∈ state.schedule.alarms, time ≤ alarm.1) :
      Step state { state with schedule := { state.schedule with clock := time } }
  | drain : Step state ⟨state.schedule.beginDrain, state.history ++ (state.schedule.askedForAll ++ [.closed])⟩
  /-- Whatever happens elsewhere, to the store, the files or what waits at a buffer: no flush is touched by it, and none
  has a turn at a buffer that is new. -/
  | elsewhere (work : Uploads) (fresh : Nat)
      (lanes : work.buffers.map RemoteBuffer.lane =
        state.schedule.work.buffers.map RemoteBuffer.lane ++ List.replicate fresh ([], none)) :
      Step state { state with schedule := { state.schedule with work } }

inductive Run (first : Flushing) : Flushing → Prop where
  | none : Run first first
  | step {middle last : Flushing} (run : Run first middle) (step : Step middle last) : Run first last

end Flushing

def acceptedIn (history : List Milestone) : List JobId :=
  history.filterMap Milestone.accepted?

def finishedIn (history : List Milestone) : List JobId :=
  history.filterMap Milestone.finished?

namespace Flushing

/-- Flushes are in their places, and the history tells the same of them as the schedule. -/
structure Sound (limit : Nat) (state : Flushing) : Prop where
  placed : state.schedule.Placed []
  underway : ∀ target, underway target state.history = state.schedule.work.inHand target
  accepted : (acceptedIn state.history).Perm (state.schedule.executor.jobs.map (·.1) ++ finishedIn state.history)
  closed : .closed ∈ state.history ↔ state.schedule.executor.accepting = false
  limit : state.schedule.executor.limit = limit
  timely : state.schedule.Timely state.schedule.clock

variable {limit : Nat} {state : Flushing} {after : UploadSchedule}

theorem Sound.sees (sound : state.Sound limit) (seen : List Milestone) (placed : after.Placed [])
    (inHand : ∀ target, after.work.inHand target =
      seen.foldl (Milestone.holding target) (state.schedule.work.inHand target))
    (jobs : (acceptedIn seen ++ state.schedule.executor.jobs.map (·.1)).Perm
      (after.executor.jobs.map (·.1) ++ finishedIn seen))
    (closed : after.executor.accepting = false ↔ state.schedule.executor.accepting = false ∨ .closed ∈ seen)
    (same : after.executor.limit = state.schedule.executor.limit) (timely : after.Timely after.clock) :
    Sound limit ⟨after, state.history ++ seen⟩ := by
  refine ⟨placed, ?_, ?_, ?_, same.trans sound.limit, timely⟩
  · intro target
    rw [underway_append, sound.underway, inHand]
  · refine List.perm_iff_count.mpr fun job => ?_
    have before := sound.accepted.count_eq job
    have now := jobs.count_eq job
    simp only [acceptedIn, finishedIn, List.filterMap_append, List.count_append] at before now ⊢
    omega
  · rw [List.mem_append, sound.closed, closed]

theorem Sound.goes (sound : state.Sound limit) (placed : after.Placed [])
    (inHand : ∀ target, after.work.inHand target = state.schedule.work.inHand target)
    (jobs : after.executor.jobs = state.schedule.executor.jobs)
    (accepting : after.executor.accepting = state.schedule.executor.accepting)
    (same : after.executor.limit = state.schedule.executor.limit) (timely : after.Timely after.clock) :
    Sound limit { state with schedule := after } := by
  have seen := sound.sees [] placed inHand (by rw [jobs]; simp [acceptedIn, finishedIn]) (by rw [accepting]; simp) same timely
  rwa [List.append_nil] at seen

end Flushing

namespace Schedule

variable {schedule : UploadSchedule}

theorem foldl_accepted (target : TargetId) (numbers jobs : List JobId) :
    (numbers.map Milestone.accepted).foldl (Milestone.holding target) jobs = jobs := by
  induction numbers with
  | nil => rfl
  | cons number rest ih => exact ih

theorem acceptedIn_accepted (numbers : List JobId) : acceptedIn (numbers.map .accepted) = numbers := by
  rw [acceptedIn, List.filterMap_map]
  exact List.filterMap_some

theorem finishedIn_accepted (numbers : List JobId) : finishedIn (numbers.map .accepted) = [] := by
  simp [finishedIn, Milestone.finished?]

end Schedule

namespace Executor

theorem submit_numbers (executor : Executor) (target : TargetId) :
    (executor.submit target).2.jobs.map (·.1) = executor.jobs.map (·.1) ++ (executor.submit target).1.toList ∧
      (executor.submit target).2.limit = executor.limit := by
  unfold submit
  split <;> simp

theorem submitAll_numbers (executor : Executor) (targets : List TargetId) :
    (executor.submitAll targets).2.jobs.map (·.1) = executor.jobs.map (·.1) ++ (executor.submitAll targets).1 ∧
      (executor.submitAll targets).2.limit = executor.limit := by
  induction targets generalizing executor with
  | nil => exact ⟨(List.append_nil _).symm, rfl⟩
  | cons target rest ih =>
      obtain ⟨jobs, limit⟩ := executor.submit_numbers target
      obtain ⟨jobs', limit'⟩ := ih (executor.submit target).2
      refine ⟨?_, limit'.trans limit⟩
      rw [jobs, List.append_assoc] at jobs'
      exact jobs'

end Executor

namespace Schedule

theorem flushAll_numbers (schedule : UploadSchedule) :
    (schedule.flushAll Uploads.worker).2.executor.jobs.map (·.1) =
        schedule.executor.jobs.map (·.1) ++ (schedule.executor.flushAll (Uploads.isHeld schedule.work)).2.1 ∧
      (schedule.flushAll Uploads.worker).2.executor.limit = schedule.executor.limit := by
  exact (schedule.executor.prune (Uploads.isHeld schedule.work)).submitAll_numbers _

end Schedule

namespace Flushing

variable {limit : Nat} {state : Flushing} {after : UploadSchedule}

theorem Sound.accepts (sound : state.Sound limit) (numbers : List JobId) (placed : after.Placed [])
    (work : after.work = state.schedule.work)
    (jobs : after.executor.jobs.map (·.1) = state.schedule.executor.jobs.map (·.1) ++ numbers)
    (accepting : after.executor.accepting = state.schedule.executor.accepting)
    (same : after.executor.limit = state.schedule.executor.limit) (timely : after.Timely after.clock) :
    Sound limit ⟨after, state.history ++ numbers.map .accepted⟩ := by
  refine sound.sees _ placed ?_ ?_ ?_ same timely
  · intro target
    rw [work, Schedule.foldl_accepted]
  · rw [Schedule.acceptedIn_accepted, Schedule.finishedIn_accepted, List.append_nil, jobs]
    exact List.perm_append_comm
  · rw [accepting]
    simp

theorem Sound.flushAll (sound : state.Sound limit) :
    Sound limit ⟨(state.schedule.flushAll Uploads.worker).2, state.history ++ state.schedule.askedForAll⟩ := by
  obtain ⟨jobs, same⟩ := state.schedule.flushAll_numbers
  exact sound.accepts _ (sound.placed.flushAll _) rfl jobs (Executor.flushAll_accepting ..) same
    ⟨sound.timely.sorted, sound.timely.ahead⟩

theorem Sound.submit (sound : state.Sound limit) (target : TargetId) :
    Sound limit ⟨(state.schedule.submit target).2, state.history ++ state.schedule.asked target⟩ := by
  obtain ⟨jobs, same⟩ := state.schedule.executor.submit_numbers target
  exact sound.accepts _ (sound.placed.submit target) rfl jobs (Executor.submit_accepting ..) same
    ⟨sound.timely.sorted, sound.timely.ahead⟩

theorem Sound.startTicker (sound : state.Sound limit) : Sound limit { state with schedule := state.schedule.startTicker } := by
  obtain ⟨executor, -⟩ := state.schedule.startTicker_executor
  have sets := state.schedule.startTicker_setsAlarm
  have timely := sound.timely.setsAlarm (Nat.le_succ _) sets
  rw [← sets.clock] at timely
  refine sound.goes sound.placed.startTicker (fun target => ?_) ?_ ?_ ?_ timely
  · rw [Schedule.startTicker_work]
  · rw [executor]
  · rw [executor]
  · rw [executor]

theorem Sound.drain (sound : state.Sound limit) :
    Sound limit ⟨state.schedule.beginDrain, state.history ++ (state.schedule.askedForAll ++ [.closed])⟩ := by
  have flushed := sound.flushAll
  rw [← List.append_assoc]
  refine flushed.sees [.closed] (flushed.placed.congr ⟨rfl, rfl, rfl, rfl, rfl⟩ rfl rfl (.refl _)) (fun _ => rfl) ?_ ?_ rfl
    ⟨flushed.timely.sorted, flushed.timely.ahead⟩
  · have none : finishedIn [.closed] = [] := rfl
    rw [none, List.append_nil]
    exact .refl _
  · simp [Schedule.beginDrain, Executor.close]

end Flushing

namespace Schedule

variable {schedule : UploadSchedule} {job : JobId} {target : TargetId}

theorem grant_limit (executor : Executor) (job : JobId) : (executor.grant job).2.limit = executor.limit := by
  unfold Executor.grant
  split
  · rfl
  · split <;> rfl

theorem enter_executor (schedule : UploadSchedule) (job : JobId) :
    (schedule.enter job).2.executor.jobs = schedule.executor.jobs ∧
      (schedule.enter job).2.executor.accepting = schedule.executor.accepting ∧
      (schedule.enter job).2.executor.limit = schedule.executor.limit := by
  unfold enter
  cases schedule.direct.lookup job with
  | some target => exact ⟨rfl, rfl, rfl⟩
  | none =>
      cases schedule.executor.jobs.lookup job with
      | none => exact ⟨rfl, rfl, rfl⟩
      | some target =>
          obtain ⟨jobs, -, accepting⟩ := grant_jobs schedule.executor job
          exact ⟨jobs, accepting, grant_limit schedule.executor job⟩

theorem retire_executor (schedule : UploadSchedule) (job : JobId) :
    (schedule.retire job).executor.accepting = schedule.executor.accepting ∧
      (schedule.retire job).executor.limit = schedule.executor.limit := by
  unfold retire
  split
  · exact ⟨rfl, rfl⟩
  · rw [Executor.finish_eq]
    exact ⟨rfl, rfl⟩

theorem retire_jobs (single : schedule.unfinished.Nodup) (admits : schedule.Admits job target) (outcome : FlushOutcome) :
    (schedule.executor.jobs.map (·.1)).Perm
      ((schedule.retire job).executor.jobs.map (·.1) ++ finishedIn ([(job, outcome)].filterMap schedule.endOf)) := by
  rw [Schedule.unfinished, flushes, List.map_append, List.nodup_append] at single
  obtain ⟨nodup, -, disjoint⟩ := single
  unfold retire
  split
  next waited =>
    obtain ⟨entry, begun, same⟩ := List.lookup_isSome_iff.mp waited
    obtain rfl : job = entry.1 := by simpa using same
    have absent : entry.1 ∉ schedule.executor.jobs.map (·.1) :=
      fun accepted => disjoint _ accepted _ (List.mem_map_of_mem begun) rfl
    have unseen : [(entry.1, outcome)].filterMap schedule.endOf = [] := by simp [endOf, absent]
    rw [unseen]
    exact (List.append_nil _).symm ▸ .refl _
  next unlike =>
    have accepted : job ∈ schedule.executor.jobs.map (·.1) := by
      rcases admits with begun | ⟨accepted, -⟩
      · exact absurd (List.lookup_isSome_iff.mpr ⟨_, begun, by simp⟩) unlike
      · exact List.mem_map_of_mem accepted
    have seen : finishedIn ([(job, outcome)].filterMap schedule.endOf) = [job] := by
      simp [endOf, accepted, finishedIn, Milestone.finished?]
    have left : (schedule.executor.jobs.filter fun entry => entry.1 != job).map (·.1) =
        (schedule.executor.jobs.map (·.1)).erase job := by
      rw [nodup.erase_eq_filter, List.filter_map]
      rfl
    rw [seen, Executor.finish_eq]
    change (schedule.executor.jobs.map (·.1)).Perm
      ((schedule.executor.jobs.filter fun entry => entry.1 != job).map (·.1) ++ [job])
    rw [left]
    exact (List.perm_cons_erase accepted).trans (List.perm_append_singleton ..).symm

theorem carryOn_ends (single : schedule.unfinished.Nodup) (admits : schedule.Admits job target)
    (worker : Worker Uploads FlushOutcome) :
    (schedule.executor.jobs.map (·.1)).Perm ((schedule.carryOn worker job target).2.executor.jobs.map (·.1) ++
        finishedIn ((schedule.carryOn worker job target).1.toList.filterMap schedule.endOf)) ∧
      (schedule.carryOn worker job target).2.executor.accepting = schedule.executor.accepting ∧
      (schedule.carryOn worker job target).2.executor.limit = schedule.executor.limit := by
  have same : (schedule.executor.jobs.map (·.1)).Perm (schedule.executor.jobs.map (·.1) ++ []) :=
    (List.append_nil _).symm ▸ .refl _
  cases resumed : worker.resume job target schedule.work with
  | mk progress work =>
      cases progress with
      | blocked =>
          rw [carryOn_blocked resumed]
          exact ⟨same, rfl, rfl⟩
      | paused pause =>
          rw [carryOn_paused resumed, pause_executor]
          exact ⟨same, rfl, rfl⟩
      | finished outcome next =>
          let woken := { schedule with work }.wake next.toList
          rw [carryOn_finished resumed]
          obtain ⟨accepting, limit⟩ := woken.retire_executor job
          exact ⟨@retire_jobs woken job target single admits outcome, accepting, limit⟩

theorem foldl_ends (schedule : UploadSchedule) (target : TargetId) (jobs : List JobId) (ended : Option (JobId × FlushOutcome)) :
    (ended.toList.filterMap schedule.endOf).foldl (Milestone.holding target) jobs = jobs := by
  cases ended with
  | none => rfl
  | some entry =>
      by_cases accepted : entry.1 ∈ schedule.executor.jobs.map (·.1)
      · simp [endOf, accepted, Milestone.holding]
      · simp [endOf, accepted]

theorem milestones_flush (take : Taking) (schedule : UploadSchedule) (job : JobId) :
    acceptedIn (schedule.milestones take (.flush job)) = [] ∧ .closed ∉ schedule.milestones take (.flush job) ∧
      finishedIn (schedule.milestones take (.flush job)) =
        finishedIn ((schedule.run (Uploads.workerWith take) (.flush job)).1.toList.filterMap schedule.endOf) := by
  have ends : ∀ milestone ∈ (schedule.run (Uploads.workerWith take) (.flush job)).1.toList.filterMap schedule.endOf,
      ∃ number, milestone = .finished number := by
    intro milestone member
    obtain ⟨entry, -, seen⟩ := List.mem_filterMap.mp member
    rw [endOf, Option.ite_none_right_eq_some] at seen
    exact ⟨entry.1, (Option.some.inj seen.2).symm⟩
  have batch : ∀ milestone ∈ (match schedule.enter job with
      | (none, _) => []
      | (some target, _) => schedule.work.milestones take job target),
      ∃ target, milestone = .taken job target ∨ milestone = .removed job target := by
    split
    · simp
    next target _ _ => exact fun milestone member => ⟨target, Uploads.mem_milestones milestone member⟩
  unfold milestones
  refine ⟨List.filterMap_eq_nil_iff.mpr fun milestone member => ?_, fun member => ?_, ?_⟩
  · rcases List.mem_append.mp member with taken | ended
    · obtain ⟨target, rfl | rfl⟩ := batch milestone taken <;> rfl
    · obtain ⟨number, rfl⟩ := ends milestone ended
      rfl
  · rcases List.mem_append.mp member with taken | ended
    · obtain ⟨target, same | same⟩ := batch _ taken <;> cases same
    · obtain ⟨number, same⟩ := ends _ ended
      cases same
  · have none : finishedIn (match schedule.enter job with
        | (none, _) => []
        | (some target, _) => schedule.work.milestones take job target) = [] := by
      refine List.filterMap_eq_nil_iff.mpr fun milestone taken => ?_
      obtain ⟨target, rfl | rfl⟩ := batch milestone taken <;> rfl
    rw [finishedIn, List.filterMap_append]
    exact congrArg (· ++ _) none

theorem run_inHand (placed : schedule.Placed [job]) (take : Taking) (target : TargetId) :
    (schedule.run (Uploads.workerWith take) (.flush job)).2.work.inHand target =
      (schedule.milestones take (.flush job)).foldl (Milestone.holding target) (schedule.work.inHand target) := by
  have busy : ∀ (target : TargetId) buffer, schedule.work.buffers[target]? = some buffer →
      buffer.upload ≠ none → buffer.turns ≠ [] := fun target buffer present => (placed.turns target buffer present).2.1
  have work := schedule.enter_work job
  unfold milestones
  rw [List.foldl_append, foldl_ends]
  simp only [run]
  generalize schedule.enter job = result at work
  obtain ⟨admitted, entered⟩ := result
  dsimp only at work
  cases admitted with
  | none => rw [← work]; rfl
  | some own =>
      dsimp only
      rw [carryOn_work, work]
      exact Uploads.resume_inHand take job own target (busy own)

theorem run_ends (placed : schedule.Placed [job]) (take : Taking) :
    (schedule.executor.jobs.map (·.1)).Perm
        ((schedule.run (Uploads.workerWith take) (.flush job)).2.executor.jobs.map (·.1) ++
          finishedIn (schedule.milestones take (.flush job))) ∧
      (schedule.run (Uploads.workerWith take) (.flush job)).2.executor.limit = schedule.executor.limit := by
  obtain ⟨-, -, finished⟩ := schedule.milestones_flush take job
  obtain ⟨jobs, -, limit⟩ := schedule.enter_executor job
  rw [finished]
  rcases placed.enter with ⟨entered, result, -⟩ | ⟨target, entered, result, goes, admits⟩
  · rw [result] at jobs limit
    simp only [run, result]
    rw [← jobs]
    exact ⟨(List.append_nil _).symm ▸ .refl _, limit⟩
  · rw [result] at jobs limit
    have ends : entered.endOf = schedule.endOf := by
      funext ended
      rw [endOf, endOf, jobs]
    obtain ⟨left, -, same⟩ := carryOn_ends goes.single admits (Uploads.workerWith take)
    simp only [run, result]
    rw [ends, jobs] at left
    exact ⟨left, same.trans limit⟩

end Schedule

namespace Flushing

variable {limit : Nat} {state : Flushing}

theorem Sound.run (sound : state.Sound limit) (take : Taking) {first rest : List Activity} {activity : Activity}
    (ready : state.schedule.ready = first ++ activity :: rest) : Sound limit
      ⟨({ state.schedule with ready := first ++ rest }.run (Uploads.workerWith take) activity).2,
        state.history ++ Schedule.milestones take { state.schedule with ready := first ++ rest } activity⟩ := by
  have hand := sound.placed.takeReady ready
  have placed := sound.placed.run ready take
  have timely : Schedule.Timely { state.schedule with ready := first ++ rest } state.schedule.clock :=
    ⟨sound.timely.sorted, sound.timely.ahead⟩
  cases activity with
  | tick =>
      have taken : Sound limit { state with schedule := { state.schedule with ready := first ++ rest } } :=
        sound.goes hand (fun _ => rfl) rfl rfl rfl timely
      exact taken.flushAll.startTicker
  | flush job =>
      have sets := Schedule.run_setsAlarm (Uploads.workerWith take) { state.schedule with ready := first ++ rest } (.flush job)
      have later := timely.setsAlarm (Nat.le_succ _) sets
      rw [← sets.clock] at later
      obtain ⟨accepted, closed, -⟩ := Schedule.milestones_flush take { state.schedule with ready := first ++ rest } job
      obtain ⟨jobs, same⟩ := Schedule.run_ends hand take
      refine sound.sees _ placed (Schedule.run_inHand hand take) (by rw [accepted]; exact jobs) ?_ same later
      rw [(Schedule.run_flush (Uploads.workerWith take) { state.schedule with ready := first ++ rest } job).accepting]
      exact ⟨.inl, fun either => either.resolve_right closed⟩

end Flushing

namespace Schedule

variable {schedule : UploadSchedule} {work : Uploads} {fresh : Nat}

theorem lane_of_lanes (lanes : work.buffers.map RemoteBuffer.lane =
      schedule.work.buffers.map RemoteBuffer.lane ++ List.replicate fresh ([], none)) (target : TargetId) :
    (work.buffers[target]?.map RemoteBuffer.lane = schedule.work.buffers[target]?.map RemoteBuffer.lane) ∨
      schedule.work.buffers[target]? = none ∧ work.buffers[target]?.map RemoteBuffer.lane = some ([], none) := by
  have here := congrArg (fun all : List (List JobId × Option Upload) => all[target]?) lanes
  rw [List.getElem?_map] at here
  by_cases old : target < schedule.work.buffers.length
  · rw [List.getElem?_append_left (by simpa using old), List.getElem?_map] at here
    exact .inl here
  · have absent : schedule.work.buffers[target]? = none := List.getElem?_eq_none (Nat.le_of_not_lt old)
    rw [List.getElem?_append_right (by simpa using old), List.getElem?_replicate] at here
    split at here
    · exact .inr ⟨absent, here⟩
    · rw [here, absent]
      exact .inl rfl

theorem inHand_of_lane (target : TargetId) (uploads : Uploads) :
    uploads.inHand target = ((uploads.buffers[target]?.map RemoteBuffer.lane).map fun lane =>
      if lane.2 = none then [] else lane.1.head?.toList).getD [] := by
  unfold Uploads.inHand
  cases uploads.buffers[target]? <;> rfl

theorem inHand_elsewhere (lanes : work.buffers.map RemoteBuffer.lane =
      schedule.work.buffers.map RemoteBuffer.lane ++ List.replicate fresh ([], none)) (target : TargetId) :
    work.inHand target = schedule.work.inHand target := by
  rw [inHand_of_lane, inHand_of_lane]
  rcases lane_of_lanes lanes target with same | ⟨absent, new⟩
  · rw [same]
  · rw [absent, new]
    rfl

theorem Placed.elsewhere (placed : schedule.Placed []) (lanes : work.buffers.map RemoteBuffer.lane =
      schedule.work.buffers.map RemoteBuffer.lane ++ List.replicate fresh ([], none)) :
    Placed { schedule with work } [] := by
  have behind : Schedule.behind { schedule with work } = schedule.behind := by
    have tails := congrArg (List.flatMap fun lane : List JobId × Option Upload => lane.1.tail) lanes
    rw [List.flatMap_append, List.flatMap_map, List.flatMap_map] at tails
    have none : (List.replicate fresh ([], none)).flatMap (fun lane : List JobId × Option Upload => lane.1.tail) = [] := by
      simp
    rw [none, List.append_nil] at tails
    exact tails
  refine ⟨placed.single, placed.given, fun job => ?_, fun target buffer present => ?_, placed.permits⟩
  · rw [behind]
    exact placed.places job
  · change work.buffers[target]? = some buffer at present
    rcases lane_of_lanes lanes target with same | ⟨-, new⟩
    · rw [present, Option.map_some] at same
      obtain ⟨old, stood, lane⟩ := Option.map_eq_some_iff.mp same.symm
      obtain ⟨turns, upload⟩ := Prod.mk.inj lane
      rw [← turns, ← upload]
      exact placed.turns target old stood
    · rw [present, Option.map_some] at new
      obtain ⟨turns, upload⟩ := Prod.mk.inj (Option.some.inj new)
      rw [turns, upload]
      exact ⟨.nil, fun begun => absurd rfl begun, by simp⟩

end Schedule

namespace Flushing

variable {limit : Nat} {state after : Flushing}

theorem Sound.step (sound : state.Sound limit) (step : Step state after) : after.Sound limit := by
  have timely := sound.timely
  -- Only asking for flushes, running one and draining are seen. All else leaves the flushes where they are.
  cases step with
  | register target =>
      exact sound.goes (sound.placed.congr ⟨rfl, rfl, rfl, rfl, rfl⟩ rfl rfl (.refl _)) (fun _ => rfl) rfl rfl rfl
        ⟨timely.sorted, timely.ahead⟩
  | deregister registration =>
      exact sound.goes (sound.placed.congr ⟨rfl, rfl, rfl, rfl, rfl⟩ rfl rfl (.refl _)) (fun _ => rfl) rfl rfl rfl
        ⟨timely.sorted, timely.ahead⟩
  | submit target => exact sound.submit target
  | flushAll => exact sound.flushAll
  | flushNow target =>
      exact sound.goes (sound.placed.beginDirect target) (fun _ => rfl) rfl rfl rfl ⟨timely.sorted, timely.ahead⟩
  | startTicker => exact sound.startTicker
  | stopTicker =>
      refine sound.goes sound.placed.stopTicker (fun _ => rfl) rfl rfl rfl ⟨timely.sorted.filter _, ?_⟩
      exact fun alarm member => timely.ahead alarm (List.mem_of_mem_filter member)
  | run take first rest activity ready => exact sound.run take ready
  | bringBack first rest job away =>
      exact sound.goes (sound.placed.bringBack away) (fun _ => rfl) rfl rfl rfl ⟨timely.sorted, timely.ahead⟩
  | moveTo time =>
      have moved := timely.moveTo time
      refine sound.goes (sound.placed.moveTo time) (fun _ => rfl) rfl rfl rfl ⟨moved.sorted, fun alarm member => ?_⟩
      have ahead := moved.ahead alarm member
      change max state.schedule.clock time ≤ alarm.1
      grind
  | wait time later early =>
      exact sound.goes (sound.placed.congr ⟨rfl, rfl, rfl, rfl, rfl⟩ rfl rfl (.refl _)) (fun _ => rfl) rfl rfl rfl
        ⟨timely.sorted, early⟩
  | drain => exact sound.drain
  | elsewhere work fresh lanes =>
      exact sound.goes (sound.placed.elsewhere lanes) (Schedule.inHand_elsewhere lanes) rfl rfl rfl
        ⟨timely.sorted, timely.ahead⟩

theorem Run.sound {limit : Nat} {first last : Flushing} (run : Run first last) (sound : first.Sound limit) : last.Sound limit := by
  induction run with
  | none => exact sound
  | step run step ih => exact ih.step step

theorem start_sound {interval : Millis} {maxConcurrent : Nat} {executor : Executor}
    (made : Executor.new? interval maxConcurrent = some executor) (files : FileTree) (store : ObjectStore) :
    (start executor files store).Sound (max 1 maxConcurrent) := by
  obtain ⟨-, same⟩ := Option.ite_none_right_eq_some.mp made
  obtain rfl := Option.some.inj same
  refine ⟨⟨.nil, by simp [start, Schedule.unfinished, Schedule.flushes], fun job => rfl, ?_, ?_⟩, fun target => rfl, .nil, ?_, rfl,
    ⟨.nil, by simp [start]⟩⟩
  · intro target buffer present
    simp [start] at present
  · exact ⟨Nat.lt_of_lt_of_le Nat.one_pos (Nat.le_max_left ..), Nat.zero_le _, by simp [start], .nil, .nil, List.nil_subset _,
      List.nil_subset _, List.disjoint_nil_left _⟩
  · simp [start]

end Flushing

namespace Schedule

structure FlushesAll (before after : UploadSchedule) (targets : List TargetId) : Prop where
  registrations : after.executor.registrations = before.alive Uploads.worker
  flushes : ∃ fresh : List (JobId × TargetId), fresh.map (·.2) = targets ∧
    after.executor.jobs = before.executor.jobs ++ fresh ∧
    after.ready = before.ready ++ fresh.map fun entry => Activity.flush entry.1
  single : (after.executor.jobs.map (·.1)).Nodup

theorem flushAll_flushes {schedule : UploadSchedule} (single : ((schedule.flushAll Uploads.worker).2.executor.jobs.map (·.1)).Nodup) :
    schedule.FlushesAll (schedule.flushAll Uploads.worker).2
      (if schedule.executor.accepting then (schedule.alive Uploads.worker).map (·.2) else []) := by
  cases accepting : schedule.executor.accepting with
  | true =>
      rw [flushAll_accepting Uploads.worker accepting] at single ⊢
      refine ⟨rfl, ⟨_, ?_, rfl, ?_⟩, single⟩
      · exact List.map_snd_zip (Nat.le_of_eq List.length_range'.symm)
      · have names := (schedule.prune Uploads.worker).executor.numbers_zip ((schedule.alive Uploads.worker).map (·.2))
        have ready := congrArg (List.map Activity.flush) names
        rw [List.map_map] at ready
        exact congrArg (schedule.ready ++ ·) ready.symm
  | false =>
      rw [flushAll_closed Uploads.worker accepting] at single ⊢
      exact ⟨rfl, ⟨[], rfl, (List.append_nil _).symm, (List.append_nil _).symm⟩, single⟩

end Schedule

namespace Flushing

/-- What a drain of an executor that has not been drained before comes to: everything that is registered is flushed once
more, and the report says whether a flush is left when the wait ends. -/
structure FirstDrain (state : Flushing) (take : Taking) (grace : Millis) : Prop where
  flushes : state.schedule.FlushesAll state.schedule.beginDrain ((state.schedule.alive Uploads.worker).map (·.2))
  reports : ∃ last, Run ⟨state.schedule.beginDrain, state.history ++ (state.schedule.askedForAll ++ [.closed])⟩ last ∧
    last.schedule = (state.schedule.drain (Uploads.workerWith take) grace).2 ∧
    ((state.schedule.drain (Uploads.workerWith take) grace).1 = ⟨true, 0⟩ ∧
        (acceptedIn last.history).length = (finishedIn last.history).length ∨
      (state.schedule.drain (Uploads.workerWith take) grace).1 =
          ⟨false, (acceptedIn last.history).length - (finishedIn last.history).length⟩ ∧
        (finishedIn last.history).length < (acceptedIn last.history).length ∧
        last.schedule.clock = state.schedule.clock + grace)

structure Safe (maxConcurrent : Nat) (state : Flushing) : Prop where
  permits : state.schedule.executor.holders.length ≤ max 1 maxConcurrent
  /-- Whoever has a batch in hand holds a permit, unless somebody waits for that flush. -/
  permitted : ∀ target, ∀ job ∈ underway target state.history, state.schedule.Admits job target
  exclusive : ∀ target, (underway target state.history).length ≤ 1
  inFlight : state.schedule.executor.inFlight + (finishedIn state.history).length = (acceptedIn state.history).length
  flushAll : (state.schedule.flushAll Uploads.worker).1 = (state.schedule.alive Uploads.worker).length ∧
    state.schedule.FlushesAll (state.schedule.flushAll Uploads.worker).2
      (if .closed ∈ state.history then [] else (state.schedule.alive Uploads.worker).map (·.2))
  progress : state.schedule.executor.inFlight ≠ 0 → ∃ job, state.schedule.CanGoOn job
  closed : .closed ∈ state.history → ∀ target, state.schedule.submit target = (false, state.schedule)
  firstDrain : .closed ∉ state.history → ∀ take grace, state.FirstDrain take grace
  wait : ∀ (take : Taking) (deadline : Millis) (fuel : Nat), state.schedule.clock ≤ deadline →
    deadline + 2 ≤ state.schedule.clock + fuel →
    Schedule.Reports deadline (state.schedule.drainFrom (Uploads.workerWith take) deadline fuel).2
      (state.schedule.drainFrom (Uploads.workerWith take) deadline fuel).1

variable {limit : Nat} {state : Flushing}

theorem Sound.inFlight (sound : state.Sound limit) :
    state.schedule.executor.inFlight + (finishedIn state.history).length = (acceptedIn state.history).length := by
  have length := sound.accepted.length_eq
  rw [List.length_append, List.length_map] at length
  exact length.symm

theorem Sound.waits (sound : state.Sound limit) (take : Taking) {deadline : Millis} (early : state.schedule.clock ≤ deadline)
    (fuel : Nat) : ∃ history, Run state ⟨(state.schedule.drainFrom (Uploads.workerWith take) deadline fuel).2, history⟩ := by
  -- The last step of a wait moves the clock to the deadline, for which no alarm may be earlier: so the alarms must be known
  -- to stand in order, and they are, because what is kept on the way is a run.
  let keeps (later : UploadSchedule) : Prop := later.clock ≤ deadline ∧ ∃ history, Run state ⟨later, history⟩
  have start : keeps state.schedule := ⟨early, state.history, .none⟩
  have kept : keeps (state.schedule.drainFrom (Uploads.workerWith take) deadline fuel).2 := by
    refine Schedule.drainFrom_keeps ⟨?_, ?_⟩ deadline ?_ ?_ fuel start
    · intro later activity rest ready ⟨early, history, run⟩
      have clock := (Schedule.run_setsAlarm (Uploads.workerWith take) { later with ready := rest } activity).clock
      exact ⟨Nat.le_trans (Nat.le_of_eq clock) early, _, run.step (.run take [] rest activity ready)⟩
    · intro later job others away ⟨early, history, run⟩
      exact ⟨early, history, run.step (.bringBack [] others job away)⟩
    · intro later time soon ⟨early, history, run⟩
      exact ⟨Nat.max_le.mpr ⟨early, Nat.le_of_lt soon⟩, history, run.step (.moveTo time)⟩
    · intro later beyond ⟨early, history, run⟩
      have sorted := (run.sound sound).timely.sorted
      refine ⟨Nat.le_refl _, history, run.step (.wait deadline early fun alarm member => ?_)⟩
      change later.alarms.Pairwise _ at sorted
      change alarm ∈ later.alarms at member
      cases alarms : later.alarms with
      | nil => simp [alarms] at member
      | cons first rest =>
          have ahead := beyond first.1 (by simp [Schedule.nextAlarm?, alarms])
          rw [alarms] at sorted member
          rcases List.mem_cons.mp member with rfl | behind
          · exact ahead
          · exact Nat.le_trans ahead (List.rel_of_pairwise_cons sorted behind)
  exact kept.2

theorem Sound.single (sound : state.Sound limit) : (state.schedule.executor.jobs.map (·.1)).Nodup := by
  have single := sound.placed.single
  rw [Schedule.unfinished, Schedule.flushes, List.map_append, List.nodup_append] at single
  exact single.1

theorem Sound.accepting (sound : state.Sound limit) (accepts : .closed ∉ state.history) :
    state.schedule.executor.accepting = true := by
  cases accepting : state.schedule.executor.accepting with
  | true => rfl
  | false => exact absurd (sound.closed.mpr accepting) accepts

theorem Sound.firstDrain (sound : state.Sound limit) (accepts : .closed ∉ state.history) (take : Taking) (grace : Millis) :
    state.FirstDrain take grace := by
  have flushes := Schedule.flushAll_flushes sound.flushAll.single
  rw [sound.accepting accepts] at flushes
  refine ⟨⟨flushes.registrations, flushes.flushes, flushes.single⟩, ?_⟩
  obtain ⟨history, run⟩ := sound.drain.waits take (Nat.le_add_right state.schedule.clock grace) (grace + 2)
  rw [← Schedule.drain_eq] at run
  have reports := Schedule.drain_reports (Uploads.workerWith take) sound.timely grace
  have counted := (run.sound sound.drain).inFlight
  refine ⟨_, run, rfl, ?_⟩
  generalize state.schedule.drain (Uploads.workerWith take) grace = result at reports counted
  obtain ⟨report, after⟩ := result
  dsimp only at reports counted ⊢
  cases reports with
  | completed none =>
      rw [none, Nat.zero_add] at counted
      exact .inl ⟨rfl, counted.symm⟩
  | abandoned some clock =>
      refine .inr ⟨?_, by omega, clock⟩
      rw [← counted, Nat.add_sub_cancel]

/-- Whatever is done with an executor and its buffers, in whatever order flushes run and whatever the store answers, flushes
keep to their permits and their turns, none of them is lost from the count, and a drain tells the truth. -/
theorem run_safe {interval : Millis} {maxConcurrent : Nat} {executor : Executor}
    (made : Executor.new? interval maxConcurrent = some executor) {files : FileTree} {store : ObjectStore} {state : Flushing}
    (run : Run (start executor files store) state) : state.Safe maxConcurrent := by
  have sound := run.sound (start_sound made files store)
  constructor
  case permits =>
    rw [← sound.limit]
    exact sound.placed.permits.bound
  case permitted =>
    intro target job holds
    rw [sound.underway, Uploads.inHand] at holds
    split at holds
    · simp at holds
    next buffer present =>
      split at holds
      · simp at holds
      · have turn := List.mem_of_head? (Option.mem_toList.mp holds)
        exact (sound.placed.turns target buffer present).2.2 job turn
  case exclusive =>
    intro target
    rw [sound.underway]
    exact Uploads.length_inHand target _
  case inFlight => exact sound.inFlight
  case flushAll =>
    refine ⟨rfl, ?_⟩
    have flushes := Schedule.flushAll_flushes sound.flushAll.single
    by_cases refuses : .closed ∈ state.history
    · rw [sound.closed.mp refuses] at flushes
      rw [if_pos refuses]
      exact flushes
    · rw [sound.accepting refuses] at flushes
      rw [if_neg refuses]
      exact flushes
  case progress =>
    intro some
    refine sound.placed.progress fun none => some ?_
    have jobs := (List.append_eq_nil_iff.mp (List.map_eq_nil_iff.mp none)).1
    exact List.length_eq_zero_iff.mpr jobs
  case closed =>
    intro refuses target
    exact Schedule.submit_closed (sound.closed.mp refuses) target
  case firstDrain => exact sound.firstDrain
  case wait =>
    intro take deadline fuel early rounds
    exact Schedule.drainFrom_reports _ fuel sound.timely (Nat.le_refl _) (Nat.le_succ _) early rounds

theorem run_safe_retried :
    let store : ObjectStore := { backend := .memory {} }
    let executor : Executor := { interval := 100, limit := 1 }
    Executor.new? 100 0 = some executor ∧ ∃ state, Run (start executor (.empty ["home"]) store) state ∧
      state.history = [.accepted 0, .taken 0 0, .closed, .removed 0 0, .finished 0] ∧
      state.schedule.work.buffers.map (·.turns) = [[1]] ∧ state.Safe 0 := by
  intro store executor
  let buffer : RemoteBuffer :=
    { name := "k", baseId := "k", type := .jobLogs, sinkInstance := "s", pending := [[1]],
      retry := { maxAttempts := 2, backoff := ⟨10, 10⟩ } }
  let fails : Taking := fun store _ id _ _ files => (.answered (.error (.unavailable id)), store, files)
  let stores : Taking := fun store _ _ _ _ files => (.answered (.ok ()), store, files)
  have made : Executor.new? 100 0 = some executor := rfl
  have begun : Run (start executor (.empty ["home"]) store) _ :=
    ((Run.none.step (.elsewhere { files := .empty ["home"], store, buffers := [buffer] } 1 rfl)).step (.submit 0)).step
      (.flushNow 0)
  have failed := (begun.step (.run fails [.flush 1] [] (.flush 0) (by decide +kernel))).step
    (.run stores [] [] (.flush 1) (by decide +kernel))
  have ended := ((failed.step .drain).step (.moveTo 10)).step (.run stores [] [] (.flush 0) (by decide +kernel))
  exact ⟨made, _, ended, by decide +kernel, by decide +kernel, run_safe made ended⟩

end Flushing

end KeyedLog
