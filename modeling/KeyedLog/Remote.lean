import KeyedLog.Flush.Schedule
import KeyedLog.Retry
import KeyedLog.Store
import KeyedLog.Store.Basic

/-!
The events of one remote sink that wait to be stored. They leave in batches: a flush takes everything that
waits at its start, and only when the batch is stored or given up are its events removed. Flushes of one
buffer take turns at uploading to the object store.
-/

namespace KeyedLog

structure Upload where
  id : String
  events : Nat
  payload : Bytes
  attempt : UInt32 := 1
  stage : PutStage := .due
  deriving DecidableEq, Repr

inductive FlushOutcome where
  | empty
  | persisted (id : String) (events : Nat)
  | dropped (id : String) (events : Nat)
  deriving DecidableEq, Repr

/-- What a flush finds when it is carried on. -/
inductive Turn where
  | waiting
  /-- Nothing waits to be stored, and the turn goes to this flush. -/
  | idle (next : Option JobId)
  | batch (upload : Upload)

structure RemoteBuffer where
  name : String
  baseId : String
  type : DocumentType
  /-- What tells the batches of this sink from those of other sinks with the same key. -/
  sinkInstance : String
  retry : RetryPolicy
  batches : Nat := 0
  pending : List Bytes := []
  turns : List JobId := []
  /-- The batch of the flush that has its turn. -/
  upload : Option Upload := none
  held : Bool := true

namespace RemoteBuffer

def accept (buffer : RemoteBuffer) (bytes : Bytes) : RemoteBuffer :=
  { buffer with pending := buffer.pending ++ [bytes] }

def request (buffer : RemoteBuffer) (job : JobId) : RemoteBuffer :=
  if job ∈ buffer.turns then buffer else { buffer with turns := buffer.turns ++ [job] }

def isTurnOf (buffer : RemoteBuffer) (job : JobId) : Bool :=
  buffer.turns.head? == some job

def idOf (buffer : RemoteBuffer) (batch : Nat) : String :=
  StorageKey.batchId buffer.baseId buffer.sinkInstance batch

def begin (buffer : RemoteBuffer) : Upload × RemoteBuffer :=
  let batch := buffer.batches + 1
  let upload : Upload :=
    { id := buffer.idOf batch
      -- They stay among those that wait until the batch has come to an end. Others may come behind them meanwhile.
      events := buffer.pending.length
      payload := buffer.pending.flatten }
  (upload, { buffer with batches := batch, upload := some upload })

def pass (buffer : RemoteBuffer) : Option JobId × RemoteBuffer :=
  (buffer.turns.tail.head?, { buffer with turns := buffer.turns.tail })

def takeTurn (buffer : RemoteBuffer) (job : JobId) : Turn × RemoteBuffer :=
  let buffer := buffer.request job
  if !buffer.isTurnOf job then (.waiting, buffer)
  else
    match buffer.upload with
    | some upload => (.batch upload, buffer)
    | none =>
      if buffer.pending.isEmpty then
        let (next, buffer) := buffer.pass
        (.idle next, buffer)
      else
        let (upload, buffer) := buffer.begin
        (.batch upload, buffer)

def conclude (buffer : RemoteBuffer) (upload : Upload) : Option JobId × RemoteBuffer :=
  { buffer with pending := buffer.pending.drop upload.events, upload := none }.pass

/-- Go on after the store was asked to take in a batch. `stored` tells whether it says that it did. -/
def afterPut (buffer : RemoteBuffer) (upload : Upload) (stored : Bool) (chance : UInt64) :
    Progress FlushOutcome × RemoteBuffer :=
  if stored then
    let (next, buffer) := buffer.conclude upload
    (.finished (.persisted upload.id upload.events) next, buffer)
  else
    match buffer.retry.afterFailure upload.attempt chance with
    | .giveUp =>
      let (next, buffer) := buffer.conclude upload
      (.finished (.dropped upload.id upload.events) next, buffer)
    | .wait delay =>
      let again := { upload with attempt := upload.attempt + 1, stage := .due }
      (.paused (.sleep delay.toNat), { buffer with upload := some again })

end RemoteBuffer

/-- How objects are taken in: a store that has these files around it goes on with an object of an id and a type. -/
abbrev Taking :=
  ObjectStore → PutStage → String → DocumentType → Bytes → FileTree → Intake × ObjectStore × FileTree

structure Uploads where
  files : FileTree
  store : ObjectStore
  buffers : List RemoteBuffer := []
  chance : UInt64 := 0

namespace Uploads

def setBuffer (uploads : Uploads) (target : TargetId) (buffer : RemoteBuffer) : Uploads :=
  { uploads with buffers := uploads.buffers.set target buffer }

def advance (take : Taking) (uploads : Uploads) (target : TargetId) (buffer : RemoteBuffer) (upload : Upload) :
    Progress FlushOutcome × Uploads :=
  let (intake, store, files) := take uploads.store upload.stage upload.id buffer.type upload.payload uploads.files
  let uploads := { uploads with store, files }
  match intake with
  | .answered result =>
    let (progress, buffer) := buffer.afterPut upload result.isOk uploads.chance
    (progress, uploads.setBuffer target buffer)
  | .paused pause stage =>
    (.paused pause, uploads.setBuffer target { buffer with upload := some { upload with stage } })

def resume (take : Taking) (job : JobId) (target : TargetId) (uploads : Uploads) :
    Progress FlushOutcome × Uploads :=
  match uploads.buffers[target]? with
  | none => (.finished .empty none, uploads)
  | some buffer =>
    match buffer.takeTurn job with
    | (.waiting, buffer) => (.blocked, uploads.setBuffer target buffer)
    | (.idle next, buffer) => (.finished .empty next, uploads.setBuffer target buffer)
    | (.batch upload, buffer) => uploads.advance take target buffer upload

def isHeld (uploads : Uploads) (target : TargetId) : Bool :=
  match uploads.buffers[target]? with
  | some buffer => buffer.held
  | none => false

def workerWith (take : Taking) : Worker Uploads FlushOutcome where
  resume := resume take
  isHeld := isHeld

def worker : Worker Uploads FlushOutcome :=
  workerWith ObjectStore.proceed

end Uploads

abbrev UploadSchedule := Schedule Uploads

end KeyedLog
