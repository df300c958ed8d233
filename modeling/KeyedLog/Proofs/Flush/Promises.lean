import KeyedLog.Proofs.Flush.Jobs

/-!
What an executor owes. Once a flush of a buffer has been accepted, what waits in the buffer is never forgotten, in whatever
order the activities run.
-/

namespace KeyedLog

def Notice.target : Notice → TargetId
  | attempted target _ => target
  | ended target _ => target

namespace RemoteBuffer

theorem FlushStep.empty {job : JobId} {before after : RemoteBuffer} {ended : Bool} (step : FlushStep job before after ended)
    (empty : before.pending = []) : after.pending = [] := by
  cases step with
  | waits _ pending _ => exact pending.trans empty
  | idles _ _ pending _ => exact pending
  | goesOn _ _ pending _ => exact pending.trans empty
  | ends _ _ pending _ => rw [pending, empty, List.drop_nil]

theorem identities_set {buffers : List RemoteBuffer} {target : TargetId} {old : RemoteBuffer}
    (present : buffers[target]? = some old) {new : RemoteBuffer} (same : new.identity = old.identity) :
    (buffers.set target new).map identity = buffers.map identity := by
  obtain ⟨bound, here⟩ := List.getElem?_eq_some_iff.mp present
  rw [List.map_set, same, ← here, ← List.getElem_map identity, List.set_getElem_self]
  simpa using bound

end RemoteBuffer

namespace Uploads

theorem notices_target (take : Taking) (job : JobId) (target : TargetId) (uploads : Uploads) :
    ∀ notice ∈ uploads.notices take job target, notice.target < uploads.buffers.length := by
  intro notice member
  cases present : uploads.buffers[target]? with
  | none => simp [notices, call?, resume, present, Progress.outcome?, FlushOutcome.ofBatch?] at member
  | some buffer =>
      obtain ⟨bound, -⟩ := List.getElem?_eq_some_iff.mp present
      have same : notice.target = target := by
        rcases List.mem_append.mp member with made | ended
        · obtain ⟨attempt, -, rfl⟩ := Option.map_eq_some_iff.mp (Option.mem_toList.mp made)
          rfl
        · obtain ⟨outcome, -, rfl⟩ := Option.map_eq_some_iff.mp (Option.mem_toList.mp ended)
          rfl
      rw [same]
      exact bound

end Uploads

namespace Schedule

structure Orderly (schedule : UploadSchedule) : Prop where
  single : (schedule.executor.jobs.map (·.1)).Nodup
  accepted : ∀ entry ∈ schedule.executor.jobs, entry.1 < schedule.executor.nextJob
  direct : ∀ entry ∈ schedule.direct, entry.1 < schedule.executor.nextJob
  turns : ∀ buffer ∈ schedule.work.buffers, ∀ job ∈ buffer.turns, job < schedule.executor.nextJob
  busy : ∀ buffer ∈ schedule.work.buffers, buffer.upload ≠ none → buffer.turns ≠ []

/-- Whatever waits in the buffer of a target leaves it before all flushes that were accepted have ended. -/
def Promises (schedule : UploadSchedule) (target : TargetId) : Prop :=
  ∀ buffer, schedule.work.buffers[target]? = some buffer →
    buffer.pending = [] ∨ ∃ job, (job, target) ∈ schedule.executor.jobs ∧ buffer.IsCoveredBy job

/-- What happens to the schedule while no sink is made or written to, and what it shows. -/
structure Continues (before after : UploadSchedule) (shown : List Notice) : Prop where
  orderly : before.Orderly → after.Orderly
  promises : before.Orderly → ∀ target, before.Promises target → after.Promises target
  identities : after.work.buffers.map RemoteBuffer.identity = before.work.buffers.map RemoteBuffer.identity
  balanced : ∀ {target origin accepted log}, before.work.Balanced target origin accepted log →
    after.work.Balanced target origin accepted (log ++ shown)
  targets : ∀ notice ∈ shown, notice.target < before.work.buffers.length

variable {before after : UploadSchedule}

theorem Continues.length {shown : List Notice} (continues : before.Continues after shown) :
    after.work.buffers.length = before.work.buffers.length := by
  simpa using congrArg List.length continues.identities

theorem Continues.trans {first second third : UploadSchedule} {early late : List Notice}
    (one : first.Continues second early) (two : second.Continues third late) : first.Continues third (early ++ late) := by
  refine ⟨fun orderly => two.orderly (one.orderly orderly), ?_, two.identities.trans one.identities, ?_, ?_⟩
  · intro orderly target promises
    exact two.promises (one.orderly orderly) target (one.promises orderly target promises)
  · intro target origin accepted log balanced
    rw [← List.append_assoc]
    exact two.balanced (one.balanced balanced)
  · intro notice member
    rcases List.mem_append.mp member with old | new
    · exact one.targets notice old
    · rw [← one.length]
      exact two.targets notice new

theorem continues_of_accepts (buffers : after.work.buffers = before.work.buffers)
    (accepts : before.executor.Accepts after.executor)
    (direct : ∀ entry ∈ after.direct, entry ∈ before.direct ∨ entry.1 < after.executor.nextJob) :
    before.Continues after [] := by
  obtain ⟨more, jobs, single, numbers⟩ := accepts.jobs
  constructor
  case orderly =>
    intro orderly
    constructor
    case single =>
      rw [jobs, List.map_append, List.nodup_append]
      refine ⟨orderly.single, single, ?_⟩
      intro old early new late
      obtain ⟨entry, member, rfl⟩ := List.mem_map.mp early
      obtain ⟨entry', member', rfl⟩ := List.mem_map.mp late
      exact Nat.ne_of_lt (Nat.lt_of_lt_of_le (orderly.accepted entry member) (numbers entry' member').1)
    case accepted =>
      intro entry member
      rw [jobs] at member
      rcases List.mem_append.mp member with old | new
      · exact Nat.lt_of_lt_of_le (orderly.accepted entry old) accepts.next
      · exact (numbers entry new).2
    case direct =>
      intro entry member
      rcases direct entry member with old | new
      · exact Nat.lt_of_lt_of_le (orderly.direct entry old) accepts.next
      · exact new
    case turns =>
      rw [buffers]
      exact fun buffer member job waits => Nat.lt_of_lt_of_le (orderly.turns buffer member job waits) accepts.next
    case busy =>
      rw [buffers]
      exact orderly.busy
  case promises =>
    intro _ target promises buffer present
    rw [buffers] at present
    refine (promises buffer present).imp_right ?_
    rintro ⟨job, member, covered⟩
    exact ⟨job, by rw [jobs]; exact List.mem_append_left _ member, covered⟩
  case identities =>
    rw [buffers]
  case balanced =>
    intro target origin accepted log balanced
    obtain ⟨buffer, batches, present, books⟩ := balanced
    rw [List.append_nil]
    exact ⟨buffer, batches, by rw [buffers]; exact present, books⟩
  case targets =>
    simp

variable {take : Taking} {job : JobId}

theorem RunsFlush.orderly (runs : RunsFlush (Uploads.workerWith take) job before after) (orderly : before.Orderly) :
    after.Orderly := by
  have jobs : ∀ entry ∈ after.executor.jobs, entry ∈ before.executor.jobs := by
    rcases runs.work with ⟨-, same⟩ | ⟨target, -, -, same | ⟨-, -, rest⟩⟩
    · rw [same]; exact fun _ member => member
    · rw [same]; exact fun _ member => member
    · rw [rest]; exact fun _ member => List.mem_of_mem_filter member
  have single : (after.executor.jobs.map (·.1)).Nodup := by
    rcases runs.work with ⟨-, same⟩ | ⟨target, -, -, same | ⟨-, -, rest⟩⟩
    · rw [same]; exact orderly.single
    · rw [same]; exact orderly.single
    · rw [rest]; exact orderly.single.sublist (List.filter_sublist.map _)
  have buffers : (∀ buffer ∈ after.work.buffers, ∀ number ∈ buffer.turns, number < before.executor.nextJob) ∧
      ∀ buffer ∈ after.work.buffers, buffer.upload ≠ none → buffer.turns ≠ [] := by
    rcases runs.work with ⟨same, -⟩ | ⟨target, known, work, -⟩
    · rw [same]
      exact ⟨orderly.turns, orderly.busy⟩
    · have given : job < before.executor.nextJob := by
        rcases known with waited | accepted
        · exact orderly.direct _ waited
        · exact orderly.accepted _ accepted
      rw [work]
      simp only [Uploads.workerWith]
      cases present : before.work.buffers[target]? with
      | none =>
          rw [Uploads.resume_absent take job present]
          exact ⟨orderly.turns, orderly.busy⟩
      | some buffer =>
          have old := List.mem_of_getElem? present
          obtain ⟨next, buffers, -, step⟩ := Uploads.resume_step take job present
          rw [buffers]
          constructor
          · intro other member number waits
            rcases List.mem_or_eq_of_mem_set member with kept | rfl
            · exact orderly.turns other kept number waits
            · rcases step.turns number waits with before | rfl
              · exact orderly.turns buffer old number before
              · exact given
          · intro other member
            rcases List.mem_or_eq_of_mem_set member with kept | rfl
            · exact orderly.busy other kept
            · exact step.busy (orderly.busy buffer old)
  refine ⟨single, ?_, ?_, ?_, buffers.2⟩
  · intro entry member
    rw [runs.next]
    exact orderly.accepted entry (jobs entry member)
  · intro entry member
    rw [runs.next]
    exact orderly.direct entry (runs.direct entry member)
  · rw [runs.next]
    exact buffers.1

theorem RunsFlush.promises (runs : RunsFlush (Uploads.workerWith take) job before after) (orderly : before.Orderly)
    {target : TargetId} (promises : before.Promises target) : after.Promises target := by
  rcases runs.work with ⟨same, jobs⟩ | ⟨carried, -, work, jobs⟩
  · intro buffer present
    rw [jobs]
    rw [same] at present
    exact promises buffer present
  · have stays : ∀ number, (number, target) ∈ before.executor.jobs → (number, target) ∈ after.executor.jobs ∨
        number = job ∧ carried = target ∧ ∃ result next, (Uploads.resume take job carried before.work).1 = .finished result next := by
      intro number member
      rcases jobs with same | ⟨accepted, finished, rest⟩
      · rw [same]
        exact .inl member
      · by_cases this : number = job
        · subst number
          have entries := List.inj_on_of_nodup_map orderly.single member accepted rfl
          exact .inr ⟨rfl, (Prod.mk.inj entries).2.symm, finished⟩
        · rw [rest]
          exact .inl (List.mem_filter.mpr ⟨member, by simpa using this⟩)
    intro buffer present
    rw [work] at present
    simp only [Uploads.workerWith] at present
    by_cases here : carried = target
    · subst carried
      cases stood : before.work.buffers[target]? with
      | none =>
          rw [Uploads.resume_absent take job stood, stood] at present
          simp at present
      | some old =>
          obtain ⟨next, buffers, -, step⟩ := Uploads.resume_step take job stood
          obtain ⟨bound, -⟩ := List.getElem?_eq_some_iff.mp stood
          rw [buffers, List.getElem?_set_self bound] at present
          obtain rfl := Option.some.inj present
          rcases promises old stood with empty | ⟨number, member, covered⟩
          · exact .inl (step.empty empty)
          · obtain ⟨still, last⟩ := step.covered (orderly.busy old (List.mem_of_getElem? stood)) covered
            rcases stays number member with kept | ⟨rfl, -, result, following, finished⟩
            · exact still.imp_right fun covered => ⟨number, kept, covered⟩
            · exact .inl (last (by rw [finished]; rfl) rfl)
    · rw [Uploads.resume_other take job here] at present
      refine (promises buffer present).imp_right ?_
      rintro ⟨number, member, covered⟩
      rcases stays number member with kept | ⟨-, this, -⟩
      · exact ⟨number, kept, covered⟩
      · exact absurd this here

theorem RunsFlush.identities (runs : RunsFlush (Uploads.workerWith take) job before after) :
    after.work.buffers.map RemoteBuffer.identity = before.work.buffers.map RemoteBuffer.identity := by
  rcases runs.work with ⟨same, -⟩ | ⟨target, -, work, -⟩
  · rw [same]
  · rw [work]
    simp only [Uploads.workerWith]
    cases present : before.work.buffers[target]? with
    | none => rw [Uploads.resume_absent take job present]
    | some buffer =>
        obtain ⟨next, buffers, identity, -⟩ := Uploads.resume_step take job present
        rw [buffers]
        exact RemoteBuffer.identities_set present identity

theorem startTicker_executor (schedule : UploadSchedule) :
    schedule.startTicker.executor = schedule.executor ∧ schedule.startTicker.direct = schedule.direct := by
  unfold startTicker
  split <;> exact ⟨rfl, rfl⟩

theorem notices_targets (take : Taking) (schedule : UploadSchedule) (activity : Activity) :
    ∀ notice ∈ schedule.notices take activity, notice.target < schedule.work.buffers.length := by
  cases activity with
  | tick => simp [notices]
  | flush job =>
      simp only [notices]
      split
      · simp
      · exact Uploads.notices_target take job _ schedule.work

theorem run_continues (take : Taking) (schedule : UploadSchedule) (activity : Activity) :
    schedule.Continues (schedule.run (Uploads.workerWith take) activity).2 (schedule.notices take activity) := by
  cases activity with
  | tick =>
      obtain ⟨executor, direct⟩ := (schedule.flushAll (Uploads.workerWith take)).2.startTicker_executor
      have work := (schedule.flushAll (Uploads.workerWith take)).2.startTicker_work
      refine continues_of_accepts (congrArg Uploads.buffers work) ?_ ?_
      · simp only [run]
        rw [executor]
        exact Executor.flushAll_accepts ..
      · simp only [run]
        rw [direct]
        exact fun _ member => .inl member
  | flush job =>
      have runs := schedule.run_flush (Uploads.workerWith take) job
      exact ⟨runs.orderly, fun orderly _ => runs.promises orderly, runs.identities,
        fun balanced => schedule.run_balanced take (.flush job) balanced, schedule.notices_targets take (.flush job)⟩

end Schedule

end KeyedLog
