import KeyedLog.Event
import KeyedLog.Fault

/-! A sink on an output stream that it shares with others, and one that only remembers what happens to it. -/

namespace KeyedLog

/-- An output stream: what was written to it, how often it was flushed, and what it refuses. -/
structure OutputStream where
  written : Bytes := []
  flushes : Nat := 0
  writeFault : Option IoFault := none
  flushFault : Option IoFault := none
  deriving DecidableEq, Repr

namespace OutputStream

def write (stream : OutputStream) (bytes : Bytes) : Except IoFault Unit × OutputStream :=
  match stream.writeFault with
  | some fault => (.error fault, stream)
  | none => (.ok (), { stream with written := stream.written ++ bytes })

def flush (stream : OutputStream) : Except IoFault Unit × OutputStream :=
  let counted := { stream with flushes := stream.flushes + 1 }
  match stream.flushFault with
  | some fault => (.error fault, counted)
  | none => (.ok (), counted)

end OutputStream

structure ConsoleSink where
  name : String
  encode : Event → Bytes
  stopped : Bool := false

namespace ConsoleSink

def streamName : String := "<console>"

def write (sink : ConsoleSink) (event : Event) (stream : OutputStream) :
    Except SinkFault Unit × OutputStream :=
  if sink.stopped then (.error (.stopped sink.name), stream)
  else
    let (result, stream) := stream.write (sink.encode event)
    (result.mapError (.io streamName), stream)

def flush (_sink : ConsoleSink) (stream : OutputStream) : Except SinkFault Unit × OutputStream :=
  let (result, stream) := stream.flush
  (result.mapError (.io streamName), stream)

def stop (sink : ConsoleSink) (stream : OutputStream) : ConsoleSink × OutputStream :=
  if sink.stopped then (sink, stream)
  else ({ sink with stopped := true }, (sink.flush stream).2)

def describe (sink : ConsoleSink) : String :=
  "ConsoleSink \x7b name: " ++ Quoted.quote sink.name ++ ", stopped: " ++ toString sink.stopped ++ " \x7d"

end ConsoleSink

inductive Happening where
  | received (event : Event)
  | stopped
  deriving DecidableEq, Repr

structure Record where
  sink : String
  happening : Happening
  deriving DecidableEq, Repr

structure RecordingSink where
  name : String
  refusal : Option String := none
  stopped : Bool := false
  deriving DecidableEq, Repr

namespace RecordingSink

def write (sink : RecordingSink) (event : Event) (records : List Record) :
    Except SinkFault Unit × List Record :=
  if sink.stopped then (.error (.stopped sink.name), records)
  else
    match sink.refusal with
    | some reason => (.error (.io sink.name (.other reason)), records)
    | none => (.ok (), records ++ [⟨sink.name, .received event⟩])

def stop (sink : RecordingSink) (records : List Record) : RecordingSink × List Record :=
  if sink.stopped then (sink, records)
  else ({ sink with stopped := true }, records ++ [⟨sink.name, .stopped⟩])

end RecordingSink

end KeyedLog
