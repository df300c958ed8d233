import KeyedLog.Proofs.Remote.Notices
import KeyedLog.Proofs.Store.Documents

/-!
What the store holds agrees with what flushes have shown: the bytes of the last call that stored something under an id
are there, and under an id that no call has named there is nothing.
-/

namespace KeyedLog

open StorageKey

namespace Uploads

def document? (uploads : Uploads) (id : String) (type : DocumentType) : Option Bytes :=
  uploads.store.document? uploads.files id type

/-- Files have numbers of their own, and under these ids the store holds what the calls in the log have stored. -/
structure Stored (ids : String → DocumentType → Prop) (now : Uploads) (log : List Notice) : Prop where
  numbered : now.files.IsNumbered
  absent : ∀ {id : String} {type : DocumentType} {name : List Char}, ids id type → EndsIn id name →
    (∀ target attempt, .attempted target attempt ∈ log → ¬ EndsIn attempt.id name) → now.document? id type = none
  stored : ∀ {front : List Notice} {target : TargetId} {attempt : Attempt} {back : List Notice} {name : List Char},
    log = front ++ .attempted target attempt :: back → ids attempt.id attempt.type → attempt.stored = true →
    EndsIn attempt.id name → (∀ target later, .attempted target later ∈ back → ¬ EndsIn later.id name) →
    now.document? attempt.id attempt.type = some attempt.payload

variable {ids : String → DocumentType → Prop} {now next : Uploads} {log : List Notice}

theorem stored_start (numbered : now.files.IsNumbered) (unused : ∀ id type, ids id type → now.document? id type = none) :
    Stored ids now [] where
  numbered := numbered
  absent := fun known _ _ => unused _ _ known
  stored := by simp

theorem Stored.congr (stored : Stored ids now log) (numbered : next.files.IsNumbered)
    (same : ∀ id type, ids id type → next.document? id type = now.document? id type) : Stored ids next log where
  numbered := numbered
  absent := fun known ends others => (same _ _ known).trans (stored.absent known ends others)
  stored := fun shape known done ends later => (same _ _ known).trans (stored.stored shape known done ends later)

theorem concat_cases {α : Type} {front back list : List α} {middle last : α}
    (shape : list ++ [last] = front ++ middle :: back) :
    (back = [] ∧ front = list ∧ middle = last) ∨ ∃ rest, back = rest ++ [last] ∧ list = front ++ middle :: rest := by
  rcases List.eq_nil_or_concat back with rfl | ⟨rest, other, rfl⟩
  · obtain ⟨same, lasts⟩ := List.append_inj' shape rfl
    exact .inl ⟨rfl, same.symm, (List.singleton_inj.mp lasts).symm⟩
  · have split : list ++ [last] = (front ++ middle :: rest) ++ [other] := by simpa using shape
    obtain ⟨same, lasts⟩ := List.append_inj' split rfl
    exact .inr ⟨rest, by rw [List.concat_eq_append, List.singleton_inj.mp lasts], same⟩

theorem Stored.ended (stored : Stored ids now log) (target : TargetId) (outcome : FlushOutcome) :
    Stored ids now (log ++ [.ended target outcome]) where
  numbered := stored.numbered
  absent := by
    intro id type name known ends others
    exact stored.absent known ends fun target attempt member => others target attempt (List.mem_append_left _ member)
  stored := by
    intro front target attempt back name shape known done ends later
    rcases concat_cases shape with ⟨-, -, impossible⟩ | ⟨rest, rfl, before⟩
    · simp at impossible
    · exact stored.stored before known done ends fun target attempt member => later target attempt (List.mem_append_left _ member)

theorem Stored.attempted (stored : Stored ids now log) (target : TargetId) {id : String} {name : List Char}
    (ends : EndsIn id name) (type : DocumentType) (payload : Bytes) (stage : PutStage) {after : Uploads}
    {result : Except StoreFault Unit}
    (answer : (now.store.proceed stage id type payload now.files).1 = .answered result)
    (store : after.store = (now.store.proceed stage id type payload now.files).2.1)
    (files : after.files = (now.store.proceed stage id type payload now.files).2.2) :
    Stored ids after (log ++ [.attempted target ⟨id, type, payload, result.isOk⟩]) where
  numbered := by
    rw [files]
    exact (now.store.proceed_numbers stage id type payload stored.numbered).numbered stored.numbered
  absent := by
    intro other otherType otherName known otherEnds others
    have different : name ≠ otherName := by
      rintro rfl
      exact others target _ (List.mem_append_right _ (List.mem_singleton.mpr rfl)) ends
    have same := now.store.document?_proceed_other stage type otherType payload stored.numbered ends otherEnds different
    rw [document?, store, files, same]
    exact stored.absent known otherEnds fun target attempt member =>
      others target attempt (List.mem_append_left _ member)
  stored := by
    intro front other attempt back otherName shape known done otherEnds later
    rw [document?, store, files]
    rcases concat_cases shape with ⟨-, -, last⟩ | ⟨rest, rfl, before⟩
    · cases last
      cases result with
      | error fault => simp [Except.isOk, Except.toBool] at done
      | ok value => exact now.store.document?_proceed stage id type payload stored.numbered answer
    · have different : name ≠ otherName := by
        rintro rfl
        exact later target _ (List.mem_append_right _ (List.mem_singleton.mpr rfl)) ends
      have same := now.store.document?_proceed_other stage type attempt.type payload stored.numbered ends otherEnds different
      rw [same]
      exact stored.stored before known done otherEnds fun target attempt member =>
        later target attempt (List.mem_append_left _ member)

theorem Stored.paused (stored : Stored ids now log) {id : String} {type : DocumentType} {payload : Bytes}
    {stage later : PutStage} {pause : Pause} {after : Uploads}
    (answer : (now.store.proceed stage id type payload now.files).1 = .paused pause later)
    (store : after.store = (now.store.proceed stage id type payload now.files).2.1)
    (files : after.files = (now.store.proceed stage id type payload now.files).2.2) : Stored ids after log := by
  refine stored.congr ?_ fun other otherType _ => ?_
  · rw [files]
    exact (now.store.proceed_numbers stage id type payload stored.numbered).numbered stored.numbered
  · rw [document?, store, files]
    exact now.store.document?_paused stored.numbered answer other otherType

theorem resume_store (take : Taking) (job : JobId) (target : TargetId) (uploads : Uploads) :
    (uploads.call? take job target = none ∧ (resume take job target uploads).2.store = uploads.store ∧
      (resume take job target uploads).2.files = uploads.files) ∨
    ∃ stage id type payload,
      (resume take job target uploads).2.store = (take uploads.store stage id type payload uploads.files).2.1 ∧
      (resume take job target uploads).2.files = (take uploads.store stage id type payload uploads.files).2.2 ∧
      ((∃ result, (take uploads.store stage id type payload uploads.files).1 = .answered result ∧
          uploads.call? take job target = some ⟨id, type, payload, result.isOk⟩) ∨
        ∃ pause next, (take uploads.store stage id type payload uploads.files).1 = .paused pause next ∧
          uploads.call? take job target = none) := by
  unfold call? resume
  cases uploads.buffers[target]? with
  | none => exact .inl ⟨rfl, rfl, rfl⟩
  | some buffer =>
      dsimp only
      generalize buffer.takeTurn job = result
      obtain ⟨turn, turned⟩ := result
      cases turn with
      | waiting => exact .inl ⟨rfl, rfl, rfl⟩
      | idle next => exact .inl ⟨rfl, rfl, rfl⟩
      | batch upload =>
          refine .inr ⟨upload.stage, upload.id, turned.type, upload.payload, ?_⟩
          dsimp only [advance]
          generalize take uploads.store upload.stage upload.id turned.type upload.payload uploads.files = taking
          obtain ⟨intake, store, files⟩ := taking
          cases intake with
          | answered result => exact ⟨rfl, rfl, .inl ⟨result, rfl, rfl⟩⟩
          | paused pause next => exact ⟨rfl, rfl, .inr ⟨pause, next, rfl, rfl⟩⟩

theorem call?_id {take : Taking} {job : JobId} {target : TargetId} {uploads : Uploads} {origin : RemoteBuffer}
    {accepted : List Bytes} {log : List Notice} (balanced : uploads.Balanced target origin accepted log)
    {attempt : Attempt} (made : uploads.call? take job target = some attempt) :
    ∃ number, attempt.id = origin.idOf number := by
  obtain ⟨buffer, batches, present, books⟩ := balanced
  obtain ⟨turned, onWay⟩ := books.takeTurn job
  simp only [call?, present] at made
  generalize buffer.takeTurn job = result at turned onWay made
  obtain ⟨turn, taken⟩ := result
  cases turn with
  | waiting => simp at made
  | idle next => simp at made
  | batch upload =>
      simp only at made
      split at made
      · cases made
        have front := turned.front upload (onWay upload rfl)
        exact ⟨taken.batches, front.id.trans (RemoteBuffer.idOf_congr turned.identity _)⟩
      · simp at made

theorem Stored.resume (stored : Stored ids now log) (job : JobId) {target : TargetId} {origin : RemoteBuffer}
    {accepted : List Bytes} {shown : List Notice} (balanced : now.Balanced target origin accepted shown)
    (plain : IsPlain origin.sinkInstance) :
    Stored ids (Uploads.resume ObjectStore.proceed job target now).2
      (log ++ now.notices ObjectStore.proceed job target) := by
  have called : Stored ids (Uploads.resume ObjectStore.proceed job target now).2
      (log ++ ((now.call? ObjectStore.proceed job target).map (Notice.attempted target)).toList) := by
    rcases now.resume_store ObjectStore.proceed job target with ⟨made, store, files⟩ |
      ⟨stage, id, type, payload, store, files, ⟨result, answer, made⟩ | ⟨pause, later, answer, made⟩⟩
    · rw [made, Option.map_none, Option.toList_none, List.append_nil]
      refine stored.congr (by rw [files]; exact stored.numbered) fun id type _ => ?_
      rw [document?, document?, store, files]
    · obtain ⟨number, named⟩ := call?_id balanced made
      have ends : EndsIn id (batchName origin.sinkInstance number) := by
        rw [show id = _ from named]
        exact endsIn_batchId _ plain number
      rw [made]
      exact stored.attempted target ends type payload stage answer store files
    · rw [made, Option.map_none, Option.toList_none, List.append_nil]
      exact stored.paused answer store files
  rw [notices, ← List.append_assoc]
  cases (Uploads.resume ObjectStore.proceed job target now).1.outcome? with
  | none => simpa using called
  | some outcome => exact called.ended target outcome

end Uploads

namespace Schedule

theorem run_stored {ids : String → DocumentType → Prop} (schedule : UploadSchedule) (activity : Activity) {log : List Notice}
    (stored : Uploads.Stored ids schedule.work log)
    (balanced : ∀ target, target < schedule.work.buffers.length →
      ∃ origin accepted, schedule.work.Balanced target origin accepted log ∧ IsPlain origin.sinkInstance) :
    Uploads.Stored ids (schedule.run Uploads.worker activity).2.work
      (log ++ schedule.notices ObjectStore.proceed activity) := by
  refine run_work_cases ObjectStore.proceed schedule activity ?_ fun job target => ?_
  · rw [List.append_nil]
    exact stored
  · cases present : schedule.work.buffers[target]? with
    | none =>
        have same : schedule.work.notices ObjectStore.proceed job target = [] := by
          simp [Uploads.notices, Uploads.call?, Uploads.resume, present, Progress.outcome?, FlushOutcome.ofBatch?]
        have unchanged : ((Uploads.workerWith ObjectStore.proceed).resume job target schedule.work).2 = schedule.work := by
          simp [Uploads.workerWith, Uploads.resume, present]
        rw [same, List.append_nil, unchanged]
        exact stored
    | some buffer =>
        obtain ⟨bound, -⟩ := List.getElem?_eq_some_iff.mp present
        obtain ⟨origin, accepted, balance, plain⟩ := balanced target bound
        exact stored.resume job balance plain

end Schedule

end KeyedLog
