import KeyedLog.Sink.Console
import KeyedLog.Sink.File
import KeyedLog.Sink.Remote
import KeyedLog.Sink.Rotating

/-! All sinks, and everything they write to. A sink is known by a number, which never names another sink. -/

namespace KeyedLog

inductive Sink where
  | console (sink : ConsoleSink)
  | file (sink : FileSink)
  | rotating (sink : RotatingSink)
  | remote (sink : RemoteSink)
  | recording (sink : RecordingSink)

abbrev SinkId := Nat

structure World where
  /-- The shared executor, the buffers it flushes, the object store and the files. -/
  uploads : UploadSchedule
  console : OutputStream := {}
  sinks : List Sink := []
  records : List Record := []
  instant : Millis := 0
  timestamp : Nat := 0
  nextInstance : Nat := 0

namespace World

def files (world : World) : FileTree :=
  world.uploads.work.files

def setFiles (world : World) (files : FileTree) : World :=
  { world with uploads := { world.uploads with work := { world.uploads.work with files } } }

def store (world : World) : ObjectStore :=
  world.uploads.work.store

def setStore (world : World) (store : ObjectStore) : World :=
  { world with uploads := { world.uploads with work := { world.uploads.work with store } } }

def executor (world : World) : Executor :=
  world.uploads.executor

def addSink (world : World) (sink : Sink) : SinkId × World :=
  (world.sinks.length, { world with sinks := world.sinks ++ [sink] })

def setSink (world : World) (id : SinkId) (sink : Sink) : World :=
  { world with sinks := world.sinks.set id sink }

/-- What tells a remote sink from all others with its key: when it was made, and a number in thirty-two
hexadecimal digits. -/
def instanceName (world : World) : String :=
  let digits := Nat.toDigits 16 (world.nextInstance % Nat.pow 16 32)
  world.timestamp.repr ++ "_" ++ String.ofList (List.replicate (32 - digits.length) '0' ++ digits)

def addRemote (world : World) (name baseId : String) (type : DocumentType) (retry : RetryPolicy)
    (encode : Event → Bytes) : SinkId × World :=
  let buffer : RemoteBuffer := { name, baseId, type, sinkInstance := world.instanceName, retry }
  let (sink, uploads) := RemoteSink.new buffer encode world.uploads
  { world with uploads, nextInstance := world.nextInstance + 1 }.addSink (.remote sink)

def write (world : World) (id : SinkId) (event : Event) : Except SinkFault Unit × World :=
  match world.sinks[id]? with
  | none => (.error (.stopped ""), world)
  | some (.console sink) =>
    let (result, console) := sink.write event world.console
    (result, { world with console })
  | some (.file sink) =>
    match sink.write event world.files with
    | .ok () files => (.ok (), world.setFiles files)
    | .error fault files => (.error fault, world.setFiles files)
  | some (.rotating sink) =>
    match RotatingSink.write event (sink, world.files) with
    | .ok () (sink, files) => (.ok (), (world.setFiles files).setSink id (.rotating sink))
    | .error fault (sink, files) => (.error fault, (world.setFiles files).setSink id (.rotating sink))
  | some (.remote sink) =>
    let (result, uploads) := sink.write event world.uploads
    (result, { world with uploads })
  | some (.recording sink) =>
    let (result, records) := sink.write event world.records
    (result, { world with records })

def flush (world : World) (id : SinkId) : Except SinkFault Unit × World :=
  match world.sinks[id]? with
  | some (.console sink) =>
    let (result, console) := sink.flush world.console
    (result, { world with console })
  | some (.remote sink) => (.ok (), { world with uploads := sink.flush world.uploads })
  | _ => (.ok (), world)

def stop (world : World) (id : SinkId) : World :=
  match world.sinks[id]? with
  | none => world
  | some (.console sink) =>
    let (sink, console) := sink.stop world.console
    { world with console }.setSink id (.console sink)
  | some (.file sink) => world.setSink id (.file sink.stop)
  | some (.rotating sink) => world.setSink id (.rotating sink.stop)
  | some (.remote sink) =>
    let (sink, uploads) := sink.stop world.uploads
    { world with uploads }.setSink id (.remote sink)
  | some (.recording sink) =>
    let (sink, records) := sink.stop world.records
    { world with records }.setSink id (.recording sink)

def isStopped (world : World) (id : SinkId) : Bool :=
  match world.sinks[id]? with
  | none => false
  | some (.console sink) => sink.stopped
  | some (.file sink) => sink.stopped
  | some (.rotating sink) => sink.stopped
  | some (.remote sink) => sink.stopped
  | some (.recording sink) => sink.stopped

def sinkName (world : World) (id : SinkId) : String :=
  match world.sinks[id]? with
  | none => ""
  | some (.console sink) => sink.name
  | some (.file sink) => sink.name
  | some (.rotating sink) => sink.name
  | some (.remote sink) => sink.name world.uploads
  | some (.recording sink) => sink.name

def describeSink (world : World) (id : SinkId) : String :=
  match world.sinks[id]? with
  | none => ""
  | some (.console sink) => sink.describe
  | some (.file sink) => sink.describe
  | some (.rotating sink) => sink.describe
  | some (.remote sink) => sink.describe world.uploads
  | some (.recording sink) => sink.name

def onUploads {α : Type} (world : World) (change : UploadSchedule → α × UploadSchedule) : α × World :=
  let (result, uploads) := change world.uploads
  (result, { world with uploads })

def flushNow (world : World) (id : SinkId) : Option FlushOutcome × World :=
  match world.sinks[id]? with
  | some (.remote sink) => world.onUploads fun uploads =>
    let (outcome, uploads) := sink.flushNow uploads
    (some outcome, uploads)
  | _ => (none, world)

def release (world : World) (id : SinkId) : World :=
  match world.sinks[id]? with
  | some (.remote sink) => { world with uploads := sink.release world.uploads }
  | _ => world

def settle (world : World) : World :=
  { world with uploads := world.uploads.settle Uploads.worker }

def advanceTo (world : World) (time : Millis) : World :=
  { world with uploads := world.uploads.advanceTo Uploads.worker time }

def flushAll (world : World) : Nat × World :=
  world.onUploads fun uploads => uploads.flushAll Uploads.worker

def drain (world : World) (grace : Millis) : DrainReport × World :=
  world.onUploads fun uploads => uploads.drain Uploads.worker grace

end World

end KeyedLog
