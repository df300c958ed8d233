import KeyedLog.Proofs.Flush.Promises

/-!
Where flushes wait. A flush that has not ended is in exactly one place: it runs now or later, it waits for a permit, or it
waits behind another flush of its buffer. Whoever is in front runs, so that nobody waits for nothing.
-/

namespace KeyedLog

def Activity.job? : Activity → Option JobId
  | flush job => some job
  | tick => none

namespace Executor

def numbers (executor : Executor) (targets : List TargetId) : List JobId :=
  List.range' executor.nextJob targets.length

theorem numbers_zip (executor : Executor) (targets : List TargetId) :
    ((executor.numbers targets).zip targets).map (·.1) = executor.numbers targets :=
  List.map_fst_zip (Nat.le_of_eq List.length_range')

def enroll (executor : Executor) (targets : List TargetId) : Executor :=
  { executor with
    nextJob := executor.nextJob + targets.length
    jobs := executor.jobs ++ (executor.numbers targets).zip targets }

/-- The registrations whose target somebody still holds: its sink, or a flush. -/
def alive (executor : Executor) (isHeld : TargetId → Bool) : List (Nat × TargetId) :=
  executor.registrations.filter fun entry => isHeld entry.2 || executor.isFlushing entry.2

def prune (executor : Executor) (isHeld : TargetId → Bool) : Executor :=
  { executor with registrations := executor.alive isHeld }

theorem submit_open {executor : Executor} (accepting : executor.accepting = true) (target : TargetId) :
    executor.submit target = (some executor.nextJob, executor.enroll [target]) := by
  simp [submit, accepting, enroll, numbers]

theorem enroll_enroll (executor : Executor) (first second : List TargetId) :
    (executor.enroll first).enroll second = executor.enroll (first ++ second) := by
  simp only [enroll, numbers, List.length_append, List.append_assoc, Nat.add_assoc]
  rw [← List.range'_append_1, List.zip_append (by simp)]

theorem submitAll_open {executor : Executor} (accepting : executor.accepting = true) (targets : List TargetId) :
    executor.submitAll targets = (executor.numbers targets, executor.enroll targets) := by
  induction targets generalizing executor with
  | nil => simp [submitAll, enroll, numbers]
  | cons target rest ih =>
      have next : (executor.enroll [target]).accepting = true := accepting
      rw [submitAll, submit_open accepting]
      dsimp only
      rw [ih next, enroll_enroll]
      rfl

theorem submitAll_closed {executor : Executor} (closed : executor.accepting = false) (targets : List TargetId) :
    executor.submitAll targets = ([], executor) := by
  induction targets with
  | nil => rfl
  | cons target rest ih =>
      have refused : executor.submit target = (none, executor) := by simp [submit, closed]
      rw [submitAll, refused]
      dsimp only
      rw [ih]
      rfl

theorem flushAll_eq (executor : Executor) (isHeld : TargetId → Bool) :
    executor.flushAll isHeld =
      ((executor.alive isHeld).length, (executor.prune isHeld).submitAll ((executor.alive isHeld).map (·.2))) := rfl

theorem finish_eq (executor : Executor) (job : JobId) :
    executor.finish job = (executor.queue.head?, { executor with
      jobs := executor.jobs.filter fun entry => entry.1 != job
      holders := executor.holders.filter (· != job) ++ executor.queue.head?.toList
      queue := executor.queue.tail }) := by
  unfold finish
  cases queue : executor.queue with
  | nil => simp only [List.head?_nil, Option.toList_none, List.append_nil, List.tail_nil]
  | cons next rest => rfl

/-- Whoever waits for a permit does so because all permits are given out, and only for as long as it has none. -/
structure Permits (executor : Executor) : Prop where
  positive : 0 < executor.limit
  bound : executor.holders.length ≤ executor.limit
  full : executor.queue ≠ [] → executor.limit ≤ executor.holders.length
  holders : executor.holders.Nodup
  queue : executor.queue.Nodup
  holding : executor.holders ⊆ executor.jobs.map (·.1)
  waiting : executor.queue ⊆ executor.jobs.map (·.1)
  apart : executor.queue.Disjoint executor.holders

structure SameJobs (before after : Executor) : Prop where
  jobs : after.jobs = before.jobs
  next : after.nextJob = before.nextJob
  holders : after.holders = before.holders
  queue : after.queue = before.queue
  limit : after.limit = before.limit

namespace Permits

variable {executor after : Executor} {job : JobId}

theorem more (permits : executor.Permits) (jobs : executor.jobs ⊆ after.jobs) (holders : after.holders = executor.holders)
    (queue : after.queue = executor.queue) (limit : after.limit = executor.limit) : after.Permits := by
  obtain ⟨positive, bound, full, once, line, holding, waiting, apart⟩ := permits
  have known := List.map_subset Prod.fst jobs
  rw [← holders] at bound full once holding apart
  rw [← queue] at full line waiting apart
  rw [← limit] at positive bound full
  exact ⟨positive, bound, full, once, line, List.Subset.trans holding known, List.Subset.trans waiting known, apart⟩

theorem congr (permits : executor.Permits) (same : SameJobs executor after) : after.Permits :=
  permits.more (same.jobs ▸ List.Subset.refl _) same.holders same.queue same.limit

theorem queue_eq_nil (permits : executor.Permits) (room : executor.holders.length < executor.limit) : executor.queue = [] :=
  Classical.by_contradiction fun waits => absurd (permits.full waits) (Nat.not_le_of_lt room)

theorem known_filter {jobs : List (JobId × TargetId)} {numbers : List JobId} (known : numbers ⊆ jobs.map (·.1))
    (absent : job ∉ numbers) : numbers ⊆ (jobs.filter fun entry => entry.1 != job).map (·.1) := by
  intro other member
  obtain ⟨entry, present, rfl⟩ := List.mem_map.mp (known member)
  have different : entry.1 ≠ job := fun same => absent (same ▸ member)
  exact List.mem_map_of_mem (List.mem_filter.mpr ⟨present, by simpa using different⟩)

theorem grant (permits : executor.Permits) (known : job ∈ executor.jobs.map (·.1)) (free : job ∉ executor.queue) :
    (executor.grant job).2.Permits := by
  unfold Executor.grant
  split
  next => exact permits
  next absent =>
    split
    next room =>
      have empty := permits.queue_eq_nil room
      constructor
      case positive => exact permits.positive
      case bound =>
        change (executor.holders ++ [job]).length ≤ executor.limit
        rw [List.length_append]
        exact room
      case full => exact fun waits => absurd empty waits
      case holders =>
        rw [List.nodup_append_comm]
        exact List.nodup_cons.mpr ⟨absent, permits.holders⟩
      case queue => exact permits.queue
      case holding =>
        exact List.append_subset.mpr ⟨permits.holding, List.cons_subset.mpr ⟨known, List.nil_subset _⟩⟩
      case waiting => exact permits.waiting
      case apart =>
        change executor.queue.Disjoint (executor.holders ++ [job])
        rw [empty]
        exact List.disjoint_nil_left _
    next full =>
      constructor
      case positive => exact permits.positive
      case bound => exact permits.bound
      case full => exact fun _ => Nat.le_of_not_lt full
      case holders => exact permits.holders
      case queue =>
        rw [List.nodup_append_comm]
        exact List.nodup_cons.mpr ⟨free, permits.queue⟩
      case holding => exact permits.holding
      case waiting =>
        exact List.append_subset.mpr ⟨permits.waiting, List.cons_subset.mpr ⟨known, List.nil_subset _⟩⟩
      case apart =>
        refine List.disjoint_append_left.mpr ⟨permits.apart, ?_⟩
        exact List.singleton_disjoint.mpr absent

theorem finish (permits : executor.Permits) (holds : job ∈ executor.holders) : (executor.finish job).2.Permits := by
  have removed : job ∉ executor.holders.filter (· != job) := by simp
  have length : (executor.holders.filter (· != job)).length + 1 = executor.holders.length := by
    rw [← permits.holders.erase_eq_filter, List.length_erase_of_mem holds]
    exact Nat.sub_add_cancel (List.length_pos_of_mem holds)
  have holding := known_filter (List.Subset.trans (List.filter_subset_self _) permits.holding) removed
  have waiting := known_filter permits.waiting fun waits => permits.apart waits holds
  have apart : executor.queue.Disjoint (executor.holders.filter (· != job)) := by
    exact fun _ waits kept => permits.apart waits (List.mem_of_mem_filter kept)
  have bound := permits.bound
  cases queue : executor.queue with
  | nil =>
      rw [finish_eq, queue]
      simp only [List.head?_nil, Option.toList_none, List.append_nil, List.tail_nil]
      refine ⟨permits.positive, ?_, fun waits => absurd rfl waits, permits.holders.filter _, .nil, holding,
        List.nil_subset _, List.disjoint_nil_left _⟩
      dsimp only
      omega
  | cons next rest =>
      have line := permits.queue
      have full := permits.full (by rw [queue]; simp)
      rw [queue] at line waiting apart
      obtain ⟨fresh, line⟩ := List.nodup_cons.mp line
      obtain ⟨known, waiting⟩ := List.cons_subset.mp waiting
      obtain ⟨absent, apart⟩ := List.disjoint_cons_left.mp apart
      have counted : (executor.holders.filter (· != job) ++ [next]).length = executor.holders.length := by
        rw [List.length_append]
        exact length
      rw [finish_eq, queue]
      simp only [List.head?_cons, Option.toList_some, List.tail_cons]
      refine ⟨permits.positive, counted ▸ bound, fun _ => counted ▸ full, ?_, line, ?_, waiting, ?_⟩
      · rw [List.nodup_append_comm]
        exact List.nodup_cons.mpr ⟨absent, permits.holders.filter _⟩
      · exact List.append_subset.mpr ⟨holding, List.cons_subset.mpr ⟨known, List.nil_subset _⟩⟩
      · exact List.disjoint_append_right.mpr ⟨apart, List.disjoint_singleton.mpr fresh⟩

end Permits

end Executor

namespace Schedule

variable {σ ω : Type}

def due (schedule : Schedule σ) : List JobId :=
  (schedule.ready ++ schedule.alarms.map (·.2)).filterMap Activity.job? ++ schedule.away

def flushes (schedule : Schedule σ) : List (JobId × TargetId) :=
  schedule.executor.jobs ++ schedule.direct

def unfinished (schedule : Schedule σ) : List JobId :=
  schedule.flushes.map (·.1)

/-- The flushes that wait behind another of their buffer. -/
def behind (schedule : UploadSchedule) : List JobId :=
  schedule.work.buffers.flatMap (·.turns.tail)

def Admits (schedule : Schedule σ) (job : JobId) (target : TargetId) : Prop :=
  (job, target) ∈ schedule.direct ∨ (job, target) ∈ schedule.executor.jobs ∧ job ∈ schedule.executor.holders

/-- Each flush is in one place, or at hand, and the turns at a buffer are those of flushes that may go on. -/
structure Placed (schedule : UploadSchedule) (hand : List JobId) : Prop where
  single : schedule.unfinished.Nodup
  given : ∀ job ∈ schedule.unfinished, job < schedule.executor.nextJob
  places : ∀ job, schedule.unfinished.count job =
    hand.count job + schedule.due.count job + schedule.executor.queue.count job + schedule.behind.count job
  turns : ∀ target buffer, schedule.work.buffers[target]? = some buffer →
    buffer.turns.Nodup ∧ (buffer.upload ≠ none → buffer.turns ≠ []) ∧ ∀ job ∈ buffer.turns, schedule.Admits job target
  permits : schedule.executor.Permits

theorem insertAlarm_perm (time : Millis) (activity : Activity) (alarms : List (Millis × Activity)) :
    (insertAlarm time activity alarms).Perm ((time, activity) :: alarms) := by
  induction alarms with
  | nil => exact .refl _
  | cons alarm rest ih =>
      rw [insertAlarm]
      split
      · exact (ih.cons alarm).trans (.swap ..)
      · exact .refl _

section Due

variable (schedule : Schedule σ)

theorem due_wake (jobs : List JobId) (job : JobId) : (schedule.wake jobs).due.count job = schedule.due.count job + jobs.count job := by
  have all : (jobs.map Activity.flush).filterMap Activity.job? = jobs := by
    induction jobs with
    | nil => rfl
    | cons first rest ih => exact congrArg (first :: ·) ih
  simp only [due, wake, List.filterMap_append, List.count_append, all]
  omega

theorem due_after (duration : Millis) (activity : Activity) :
    (schedule.after duration activity).due.Perm (activity.job?.toList ++ schedule.due) := by
  have inserted := (insertAlarm_perm (schedule.clock + duration) activity schedule.alarms).map (·.2)
  have moved := (((inserted.append_left schedule.ready).trans List.perm_middle).filterMap Activity.job?).append_right
    schedule.away
  cases activity <;> exact moved

theorem due_pause (job : JobId) (pause : Pause) : (schedule.pause job pause).due.Perm (job :: schedule.due) := by
  fun_cases schedule.pause job pause
  case case1 => exact .refl _
  case case2 duration later => exact schedule.due_after duration (.flush job)
  case case3 =>
    rw [due, due, ← List.append_assoc]
    exact List.perm_append_singleton job _

theorem due_bringBack {schedule : Schedule σ} {job : JobId} {first rest : List JobId}
    (away : schedule.away = first ++ job :: rest) :
    (schedule.bringBack job (first ++ rest)).due.Perm schedule.due := by
  refine List.perm_iff_count.mpr fun other => ?_
  rw [bringBack, due_wake]
  simp only [due, away, List.count_append, List.count_cons, List.count_nil]
  omega

theorem due_moveTo (time : Millis) : (schedule.moveTo time).due = schedule.due := by
  simp only [due, moveTo, List.append_assoc, ← List.map_append, List.takeWhile_append_dropWhile]

theorem due_stopTicker : schedule.stopTicker.due = schedule.due := by
  have ready : ∀ activities : List Activity, (activities.filter (· != .tick)).filterMap Activity.job? =
      activities.filterMap Activity.job? := by
    intro activities
    rw [List.filterMap_filter]
    refine List.filterMap_congr fun activity _ => ?_
    cases activity <;> rfl
  have alarms : (schedule.alarms.filter fun alarm => alarm.2 != .tick).map (·.2) =
      (schedule.alarms.map (·.2)).filter (· != .tick) := by
    rw [List.filter_map]
    rfl
  simp only [due, stopTicker, List.filterMap_append, alarms, ready]

end Due

def enroll (schedule : Schedule σ) (targets : List TargetId) : Schedule σ where
  executor := schedule.executor.enroll targets
  work := schedule.work
  clock := schedule.clock
  direct := schedule.direct
  ready := schedule.ready ++ (schedule.executor.numbers targets).map Activity.flush
  alarms := schedule.alarms
  away := schedule.away

def alive (worker : Worker σ ω) (schedule : Schedule σ) : List (Nat × TargetId) :=
  schedule.executor.alive (worker.isHeld schedule.work)

def prune (worker : Worker σ ω) (schedule : Schedule σ) : Schedule σ :=
  { schedule with executor := schedule.executor.prune (worker.isHeld schedule.work) }

theorem submit_accepting {schedule : Schedule σ} (accepting : schedule.executor.accepting = true) (target : TargetId) :
    schedule.submit target = (true, schedule.enroll [target]) := by
  rw [submit, Executor.submit_open accepting]
  rfl

theorem submit_closed {schedule : Schedule σ} (closed : schedule.executor.accepting = false) (target : TargetId) :
    schedule.submit target = (false, schedule) := by
  simp [submit, Executor.submit, closed, wake]

theorem flushAll_accepting (worker : Worker σ ω) {schedule : Schedule σ} (accepting : schedule.executor.accepting = true) :
    schedule.flushAll worker =
      ((schedule.alive worker).length, (schedule.prune worker).enroll ((schedule.alive worker).map (·.2))) := by
  have pruned : (schedule.executor.prune (worker.isHeld schedule.work)).accepting = true := accepting
  rw [flushAll, Executor.flushAll_eq, Executor.submitAll_open pruned]
  rfl

theorem flushAll_closed (worker : Worker σ ω) {schedule : Schedule σ} (closed : schedule.executor.accepting = false) :
    schedule.flushAll worker = ((schedule.alive worker).length, schedule.prune worker) := by
  have pruned : (schedule.executor.prune (worker.isHeld schedule.work)).accepting = false := closed
  rw [flushAll, Executor.flushAll_eq, Executor.submitAll_closed pruned]
  simp [wake, prune, alive]

namespace Placed

variable {schedule after : UploadSchedule} {hand : List JobId} {job : JobId}

theorem count_le_one (placed : schedule.Placed hand) (job : JobId) : schedule.unfinished.count job ≤ 1 :=
  List.nodup_iff_count_le_one.mp placed.single job

theorem target_unique (placed : schedule.Placed hand) {job : JobId} {first second : TargetId}
    (one : (job, first) ∈ schedule.flushes) (two : (job, second) ∈ schedule.flushes) : first = second := by
  have same := List.inj_on_of_nodup_map placed.single one two rfl
  exact congrArg Prod.snd same

theorem mem_flushes {job : JobId} {target : TargetId} (admits : schedule.Admits job target) :
    (job, target) ∈ schedule.flushes :=
  List.mem_append.mpr (admits.symm.imp_left And.left)

theorem move {hand' : List JobId} (placed : schedule.Placed hand) (executor : Executor.SameJobs schedule.executor after.executor)
    (work : after.work = schedule.work) (direct : after.direct = schedule.direct)
    (due : (hand' ++ after.due).Perm (hand ++ schedule.due)) : after.Placed hand' := by
  have flushes : after.flushes = schedule.flushes := by rw [Schedule.flushes, Schedule.flushes, executor.jobs, direct]
  have unfinished : after.unfinished = schedule.unfinished := by rw [Schedule.unfinished, flushes]; rfl
  constructor
  case single =>
    exact unfinished ▸ placed.single
  case given =>
    rw [unfinished, executor.next]
    exact placed.given
  case places =>
    intro job
    have before := placed.places job
    have same := due.count_eq job
    rw [List.count_append, List.count_append] at same
    rw [unfinished, executor.queue, behind, work]
    rw [behind] at before
    omega
  case turns =>
    rw [work]
    unfold Admits
    rw [direct, executor.jobs, executor.holders]
    exact placed.turns
  case permits =>
    exact placed.permits.congr executor

theorem congr (placed : schedule.Placed hand) (executor : Executor.SameJobs schedule.executor after.executor)
    (work : after.work = schedule.work) (direct : after.direct = schedule.direct) (due : after.due.Perm schedule.due) :
    after.Placed hand :=
  placed.move executor work direct (due.append_left hand)

theorem more (placed : schedule.Placed hand) (fresh : List (JobId × TargetId))
    (flushes : after.flushes.Perm (fresh ++ schedule.flushes)) (single : (fresh.map (·.1)).Nodup)
    (numbers : ∀ entry ∈ fresh, schedule.executor.nextJob ≤ entry.1 ∧ entry.1 < after.executor.nextJob)
    (next : schedule.executor.nextJob ≤ after.executor.nextJob) (due : after.due.Perm (fresh.map (·.1) ++ schedule.due))
    (jobs : schedule.executor.jobs ⊆ after.executor.jobs) (direct : schedule.direct ⊆ after.direct)
    (holders : after.executor.holders = schedule.executor.holders) (queue : after.executor.queue = schedule.executor.queue)
    (limit : after.executor.limit = schedule.executor.limit) (work : after.work = schedule.work) : after.Placed hand := by
  have unfinished : after.unfinished.Perm (fresh.map (·.1) ++ schedule.unfinished) := by
    have mapped := flushes.map (·.1)
    rwa [List.map_append] at mapped
  constructor
  case single =>
    rw [unfinished.nodup_iff, List.nodup_append]
    refine ⟨single, placed.single, ?_⟩
    intro job new old known same
    obtain ⟨entry, member, rfl⟩ := List.mem_map.mp new
    exact absurd (Nat.lt_of_lt_of_le (placed.given old known) (numbers entry member).1) (same ▸ Nat.lt_irrefl _)
  case given =>
    intro job member
    rcases List.mem_append.mp (unfinished.mem_iff.mp member) with new | old
    · obtain ⟨entry, present, rfl⟩ := List.mem_map.mp new
      exact (numbers entry present).2
    · exact Nat.lt_of_lt_of_le (placed.given job old) next
  case places =>
    intro job
    have before := placed.places job
    rw [unfinished.count_eq, due.count_eq, queue, behind, work, List.count_append, List.count_append]
    rw [behind] at before
    omega
  case turns =>
    rw [work]
    intro target buffer present
    obtain ⟨nodup, busy, admitted⟩ := placed.turns target buffer present
    refine ⟨nodup, busy, fun job turn => ?_⟩
    unfold Admits
    rw [holders]
    exact (admitted job turn).imp (fun known => direct known) fun known => ⟨jobs known.1, known.2⟩
  case permits =>
    exact placed.permits.more jobs holders queue limit

theorem enroll (placed : schedule.Placed hand) (targets : List TargetId) : (schedule.enroll targets).Placed hand := by
  have names := schedule.executor.numbers_zip targets
  have begun : ((schedule.executor.numbers targets).map Activity.flush).filterMap Activity.job? =
      schedule.executor.numbers targets := by
    rw [List.filterMap_map]
    exact List.filterMap_some
  refine placed.more ((schedule.executor.numbers targets).zip targets) ?_ ?_ ?_ ?_ ?_ ?_ ?_ rfl rfl rfl rfl
  · simp only [flushes, Schedule.enroll, Executor.enroll, ← List.append_assoc]
    exact List.perm_append_comm.append_right _
  · rw [names]
    exact List.nodup_range'
  · intro entry member
    have number : entry.1 ∈ schedule.executor.numbers targets := (List.of_mem_zip member).1
    have range := List.mem_range'_1.mp number
    exact ⟨range.1, range.2⟩
  · exact Nat.le_add_right _ _
  · rw [names]
    simp only [due, Schedule.enroll, List.filterMap_append, begun, ← List.append_assoc]
    exact (List.perm_append_comm.append_right _).append_right _
  · exact List.subset_append_left _ _
  · exact List.Subset.refl _

theorem beginDirect (placed : schedule.Placed hand) (target : TargetId) : (schedule.beginDirect target).2.Placed hand := by
  refine placed.more [(schedule.executor.nextJob, target)] ?_ ?_ ?_ ?_ ?_ ?_ ?_ rfl rfl rfl rfl
  · simp only [flushes, Schedule.beginDirect, ← List.append_assoc]
    exact List.perm_append_comm
  · exact List.nodup_singleton _
  · intro entry member
    rw [List.mem_singleton.mp member]
    exact ⟨Nat.le_refl _, Nat.lt_succ_self _⟩
  · exact Nat.le_succ _
  · exact .refl _
  · exact List.Subset.refl _
  · exact List.subset_append_left _ _

theorem flushAll (placed : schedule.Placed hand) (worker : Worker Uploads ω) : (schedule.flushAll worker).2.Placed hand := by
  have pruned : (schedule.prune worker).Placed hand := placed.congr ⟨rfl, rfl, rfl, rfl, rfl⟩ rfl rfl (.refl _)
  cases accepting : schedule.executor.accepting with
  | true =>
      rw [flushAll_accepting worker accepting]
      exact pruned.enroll _
  | false =>
      rw [flushAll_closed worker accepting]
      exact pruned

theorem submit (placed : schedule.Placed hand) (target : TargetId) : (schedule.submit target).2.Placed hand := by
  cases accepting : schedule.executor.accepting with
  | true =>
      rw [submit_accepting accepting]
      exact placed.enroll [target]
  | false =>
      rw [submit_closed accepting]
      exact placed

theorem startTicker (placed : schedule.Placed hand) : schedule.startTicker.Placed hand := by
  unfold Schedule.startTicker
  split
  · exact placed
  · exact placed.congr ⟨rfl, rfl, rfl, rfl, rfl⟩ rfl rfl (schedule.due_after _ .tick)

theorem stopTicker (placed : schedule.Placed hand) : schedule.stopTicker.Placed hand :=
  placed.congr ⟨rfl, rfl, rfl, rfl, rfl⟩ rfl rfl (schedule.due_stopTicker ▸ .refl _)

theorem moveTo (placed : schedule.Placed hand) (time : Millis) : (schedule.moveTo time).Placed hand :=
  placed.congr ⟨rfl, rfl, rfl, rfl, rfl⟩ rfl rfl (schedule.due_moveTo time ▸ .refl _)

theorem bringBack (placed : schedule.Placed hand) {first rest : List JobId} (away : schedule.away = first ++ job :: rest) :
    (schedule.bringBack job (first ++ rest)).Placed hand :=
  placed.congr ⟨rfl, rfl, rfl, rfl, rfl⟩ rfl rfl (due_bringBack away)

theorem takeReady (placed : schedule.Placed []) {first rest : List Activity} {activity : Activity}
    (split : schedule.ready = first ++ activity :: rest) :
    Placed { schedule with ready := first ++ rest } activity.job?.toList := by
  refine placed.move ⟨rfl, rfl, rfl, rfl, rfl⟩ rfl rfl ?_
  have middle : (first ++ activity :: (rest ++ schedule.alarms.map (·.2))).Perm
      (activity :: (first ++ (rest ++ schedule.alarms.map (·.2)))) := List.perm_middle
  have moved := (middle.filterMap Activity.job?).append_right schedule.away
  simp only [due, split, List.append_assoc, List.cons_append]
  cases activity <;> exact moved.symm

end Placed

end Schedule

end KeyedLog
