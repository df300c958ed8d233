import KeyedLog.Proofs.Remote.Books

/-!
What flushes show while they run: every call of the store, and how every batch ends. Whatever the store does and in
whatever order flushes run, the books of every buffer agree with what was shown.
-/

namespace KeyedLog

/-- What a flush of a target shows. -/
inductive Notice where
  | attempted (target : TargetId) (attempt : Attempt)
  | ended (target : TargetId) (outcome : FlushOutcome)
  deriving DecidableEq, Repr

namespace Notice

def attempt? (target : TargetId) : Notice → Option Attempt
  | attempted other attempt => if other = target then some attempt else none
  | ended .. => none

def outcome? (target : TargetId) : Notice → Option FlushOutcome
  | ended other outcome => if other = target then some outcome else none
  | attempted .. => none

end Notice

def attemptsOf (target : TargetId) (log : List Notice) : List Attempt :=
  log.filterMap (Notice.attempt? target)

def outcomesOf (target : TargetId) (log : List Notice) : List FlushOutcome :=
  log.filterMap (Notice.outcome? target)

@[simp] theorem attemptsOf_append (target : TargetId) (first second : List Notice) :
    attemptsOf target (first ++ second) = attemptsOf target first ++ attemptsOf target second := by
  simp [attemptsOf]

@[simp] theorem outcomesOf_append (target : TargetId) (first second : List Notice) :
    outcomesOf target (first ++ second) = outcomesOf target first ++ outcomesOf target second := by
  simp [outcomesOf]

namespace Uploads

def call? (take : Taking) (job : JobId) (target : TargetId) (uploads : Uploads) : Option Attempt :=
  match uploads.buffers[target]? with
  | none => none
  | some buffer =>
    match buffer.takeTurn job with
    | (.batch upload, buffer) =>
      match (take uploads.store upload.stage upload.id buffer.type upload.payload uploads.files).1 with
      | .answered result => some ⟨upload.id, buffer.type, upload.payload, result.isOk⟩
      | .paused .. => none
    | _ => none

def notices (take : Taking) (job : JobId) (target : TargetId) (uploads : Uploads) : List Notice :=
  ((uploads.call? take job target).map (Notice.attempted target)).toList ++
    ((resume take job target uploads).1.outcome?.map (Notice.ended target)).toList

/-- The books of a target agree with what was accepted and shown. -/
def Balanced (uploads : Uploads) (target : TargetId) (origin : RemoteBuffer) (accepted : List Bytes)
    (log : List Notice) : Prop :=
  ∃ buffer batches, uploads.buffers[target]? = some buffer ∧
    Books origin buffer accepted (attemptsOf target log) (outcomesOf target log) batches

theorem attemptsOf_notices (take : Taking) (job : JobId) (target : TargetId) (uploads : Uploads) :
    attemptsOf target (uploads.notices take job target) = (uploads.call? take job target).toList := by
  cases made : uploads.call? take job target <;>
    cases ended : (resume take job target uploads).1.outcome? <;>
    simp [notices, made, ended, attemptsOf, Notice.attempt?]

theorem outcomesOf_notices (take : Taking) (job : JobId) (target : TargetId) (uploads : Uploads) :
    outcomesOf target (uploads.notices take job target) =
      (resume take job target uploads).1.outcome?.toList := by
  cases made : uploads.call? take job target <;>
    cases ended : (resume take job target uploads).1.outcome? <;>
    simp [notices, made, ended, outcomesOf, Notice.outcome?, List.filterMap_cons]

theorem notices_other (take : Taking) (job : JobId) {target other : TargetId} (different : target ≠ other)
    (uploads : Uploads) :
    attemptsOf other (uploads.notices take job target) = [] ∧
      outcomesOf other (uploads.notices take job target) = [] := by
  cases made : uploads.call? take job target <;>
    cases ended : (resume take job target uploads).1.outcome? <;>
    simp [notices, made, ended, attemptsOf, outcomesOf, Notice.attempt?, Notice.outcome?, different]

theorem setBuffer_same (uploads : Uploads) {target : TargetId} {old : RemoteBuffer}
    (present : uploads.buffers[target]? = some old) (buffer : RemoteBuffer) :
    (uploads.setBuffer target buffer).buffers[target]? = some buffer := by
  obtain ⟨bound, -⟩ := List.getElem?_eq_some_iff.mp present
  simp [setBuffer, bound]

theorem setBuffer_other (uploads : Uploads) {target other : TargetId} (different : target ≠ other)
    (buffer : RemoteBuffer) : (uploads.setBuffer target buffer).buffers[other]? = uploads.buffers[other]? := by
  simp [setBuffer, List.getElem?_set_ne different]

theorem resume_other (take : Taking) (job : JobId) {target other : TargetId} (different : target ≠ other)
    (uploads : Uploads) :
    (resume take job target uploads).2.buffers[other]? = uploads.buffers[other]? := by
  unfold resume
  split
  · rfl
  · split
    · exact uploads.setBuffer_other different _
    · exact uploads.setBuffer_other different _
    · unfold advance
      dsimp only
      split <;> exact setBuffer_other _ different _

theorem resume_books (take : Taking) (job : JobId) {target : TargetId} {uploads : Uploads}
    {origin buffer : RemoteBuffer} {accepted : List Bytes} {attempts : List Attempt}
    {outcomes : List FlushOutcome} {batches : List Batch}
    (present : uploads.buffers[target]? = some buffer)
    (books : Books origin buffer accepted attempts outcomes batches) :
    ∃ after ended, (resume take job target uploads).2.buffers[target]? = some after ∧
      Books origin after accepted (attempts ++ (uploads.call? take job target).toList)
        (outcomes ++ (resume take job target uploads).1.outcome?.toList) (batches ++ ended) := by
  obtain ⟨turned, onWay⟩ := books.takeTurn job
  simp only [resume, call?, present]
  generalize buffer.takeTurn job = result at turned onWay
  obtain ⟨turn, taken⟩ := result
  cases turn with
  | waiting => exact ⟨taken, [], uploads.setBuffer_same present taken, by simpa [Progress.outcome?] using turned⟩
  | idle next =>
      exact ⟨taken, [], uploads.setBuffer_same present taken,
        by simpa [Progress.outcome?, FlushOutcome.ofBatch?] using turned⟩
  | batch upload =>
      have current := onWay upload rfl
      simp only [advance]
      generalize take uploads.store upload.stage upload.id taken.type upload.payload uploads.files = taking
      obtain ⟨intake, store, files⟩ := taking
      cases intake with
      | answered result =>
          obtain ⟨ended, closed⟩ := turned.afterPut current result.isOk uploads.chance
          exact ⟨_, ended, setBuffer_same { uploads with store, files } present _, closed⟩
      | paused pause stage =>
          exact ⟨_, [], setBuffer_same { uploads with store, files } present _,
            by simpa [Progress.outcome?] using turned.paused current stage⟩

theorem resume_balanced (take : Taking) (job : JobId) (target : TargetId) {uploads : Uploads} {other : TargetId}
    {origin : RemoteBuffer} {accepted : List Bytes} {log : List Notice}
    (balanced : uploads.Balanced other origin accepted log) :
    (resume take job target uploads).2.Balanced other origin accepted (log ++ uploads.notices take job target) := by
  obtain ⟨buffer, batches, present, books⟩ := balanced
  by_cases same : target = other
  · subst other
    obtain ⟨after, ended, stands, kept⟩ := resume_books take job present books
    refine ⟨after, batches ++ ended, stands, ?_⟩
    rw [attemptsOf_append, outcomesOf_append, attemptsOf_notices, outcomesOf_notices]
    exact kept
  · obtain ⟨attempts, outcomes⟩ := notices_other take job same uploads
    refine ⟨buffer, batches, (resume_other take job same uploads).trans present, ?_⟩
    rw [attemptsOf_append, outcomesOf_append, attempts, outcomes, List.append_nil, List.append_nil]
    exact books

end Uploads

namespace Schedule

variable {σ ω : Type}

theorem enter_work (schedule : Schedule σ) (job : JobId) : (schedule.enter job).2.work = schedule.work := by
  unfold enter
  split
  · rfl
  · split <;> rfl

section Pause

variable (schedule : Schedule σ) (job : JobId) (pause : Pause)

@[simp] theorem pause_work : (schedule.pause job pause).work = schedule.work := by
  fun_cases schedule.pause job pause <;> rfl

@[simp] theorem pause_executor : (schedule.pause job pause).executor = schedule.executor := by
  fun_cases schedule.pause job pause <;> rfl

@[simp] theorem pause_direct : (schedule.pause job pause).direct = schedule.direct := by
  fun_cases schedule.pause job pause <;> rfl

@[simp] theorem pause_clock : (schedule.pause job pause).clock = schedule.clock := by
  fun_cases schedule.pause job pause <;> rfl

end Pause

theorem carryOn_work (worker : Worker σ ω) (schedule : Schedule σ) (job : JobId) (target : TargetId) :
    (schedule.carryOn worker job target).2.work = (worker.resume job target schedule.work).2 := by
  unfold carryOn
  generalize worker.resume job target schedule.work = result
  obtain ⟨progress, work⟩ := result
  cases progress with
  | blocked => rfl
  | paused pause => exact pause_work ..
  | finished result next =>
      dsimp only
      split <;> rfl

theorem flushAll_work (worker : Worker σ ω) (schedule : Schedule σ) :
    (schedule.flushAll worker).2.work = schedule.work := rfl

theorem startTicker_work (schedule : Schedule σ) : schedule.startTicker.work = schedule.work := by
  unfold startTicker
  split <;> rfl

def notices (take : Taking) (schedule : UploadSchedule) : Activity → List Notice
  | .tick => []
  | .flush job =>
    match schedule.enter job with
    | (none, _) => []
    | (some target, _) => schedule.work.notices take job target

@[elab_as_elim]
theorem run_work_cases {motive : Uploads → List Notice → Prop} (take : Taking) (schedule : UploadSchedule) (activity : Activity)
    (idle : motive schedule.work [])
    (resumed : ∀ job target, motive ((Uploads.workerWith take).resume job target schedule.work).2
      (schedule.work.notices take job target)) :
    motive (schedule.run (Uploads.workerWith take) activity).2.work (schedule.notices take activity) := by
  cases activity with
  | tick =>
      simp only [run, notices]
      rw [startTicker_work, flushAll_work]
      exact idle
  | flush job =>
      have work := schedule.enter_work job
      simp only [run, notices]
      generalize schedule.enter job = entered at work
      obtain ⟨admitted, entered⟩ := entered
      cases admitted with
      | none =>
          simp only
          rw [work]
          exact idle
      | some target =>
          simp only
          rw [carryOn_work, work]
          exact resumed job target

theorem run_balanced (take : Taking) (schedule : UploadSchedule) (activity : Activity) {target : TargetId}
    {origin : RemoteBuffer} {accepted : List Bytes} {log : List Notice}
    (balanced : schedule.work.Balanced target origin accepted log) :
    (schedule.run (Uploads.workerWith take) activity).2.work.Balanced target origin accepted
      (log ++ schedule.notices take activity) := by
  refine run_work_cases take schedule activity ?_ fun job other => Uploads.resume_balanced take job other balanced
  rw [List.append_nil]
  exact balanced

end Schedule

end KeyedLog
