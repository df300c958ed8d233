import KeyedLog.Event
import KeyedLog.Remote
import KeyedLog.Fault

/-! A sink that keeps events in memory until they are uploaded. Whoever writes to it never waits for the
store. -/

namespace KeyedLog

structure RemoteSink where
  encode : Event → Bytes
  buffer : TargetId
  registration : Nat
  stopped : Bool := false

namespace RemoteSink

def new (buffer : RemoteBuffer) (encode : Event → Bytes) (schedule : UploadSchedule) :
    RemoteSink × UploadSchedule :=
  let target := schedule.work.buffers.length
  let (registration, executor) := schedule.executor.register target
  let work := { schedule.work with buffers := schedule.work.buffers ++ [buffer] }
  ({ encode, buffer := target, registration }, { schedule with executor, work })

def buffer? (sink : RemoteSink) (schedule : UploadSchedule) : Option RemoteBuffer :=
  schedule.work.buffers[sink.buffer]?

def name (sink : RemoteSink) (schedule : UploadSchedule) : String :=
  ((sink.buffer? schedule).map (·.name)).getD ""

def pending (sink : RemoteSink) (schedule : UploadSchedule) : Nat :=
  ((sink.buffer? schedule).map (·.pending.length)).getD 0

def modifyBuffer (sink : RemoteSink) (change : RemoteBuffer → RemoteBuffer) (schedule : UploadSchedule) :
    UploadSchedule :=
  { schedule with work := { schedule.work with buffers := schedule.work.buffers.modify sink.buffer change } }

def write (sink : RemoteSink) (event : Event) (schedule : UploadSchedule) :
    Except SinkFault Unit × UploadSchedule :=
  if sink.stopped then (.error (.stopped (sink.name schedule)), schedule)
  else (.ok (), sink.modifyBuffer (·.accept (sink.encode event)) schedule)

def flush (sink : RemoteSink) (schedule : UploadSchedule) : UploadSchedule :=
  (schedule.submit sink.buffer).2

def flushNow (sink : RemoteSink) (schedule : UploadSchedule) : FlushOutcome × UploadSchedule :=
  let (outcome, schedule) := schedule.flushNow Uploads.worker sink.buffer
  (outcome.getD .empty, schedule)

/-- Stop for good. The buffer is flushed from time to time no longer, but what waits in it is flushed once
more. -/
def stop (sink : RemoteSink) (schedule : UploadSchedule) : RemoteSink × UploadSchedule :=
  if sink.stopped then (sink, schedule)
  else
    let schedule := { schedule with executor := schedule.executor.deregister sink.registration }
    ({ sink with stopped := true },
      if sink.pending schedule = 0 then schedule else sink.flush schedule)

def release (sink : RemoteSink) (schedule : UploadSchedule) : UploadSchedule :=
  sink.modifyBuffer ({ · with held := false }) schedule

def describe (sink : RemoteSink) (schedule : UploadSchedule) : String :=
  match sink.buffer? schedule with
  | none => "RemoteBufferedSink"
  | some buffer =>
    "RemoteBufferedSink \x7b name: " ++ Quoted.quote buffer.name ++ ", base_storage_id: " ++
      Quoted.quote buffer.baseId ++ ", document_type: " ++ buffer.type.describe ++ ", pending: " ++
      buffer.pending.length.repr ++ " \x7d"

end RemoteSink

end KeyedLog
