import KeyedLog.Proofs.Sink.Contract
import KeyedLog.Proofs.Sink.Turns
import KeyedLog.Sink.Console
import KeyedLog.Sink.File

/-!
Sinks that write each event at once, to a stream or to the end of a file. A part of an event may have been written when a
write fails.
-/

namespace KeyedLog

namespace ConsoleSink

/-- How calls of a sink on a stream end. The stream may take a part of an event before it fails. -/
inductive Ends :
    SinkCall → ConsoleSink × OutputStream → Except SinkFault Unit → ConsoleSink × OutputStream → Prop where
  | written (sink : ConsoleSink) (stream : OutputStream) (event : Event) :
      Ends (.write event) (sink, stream) (sink.write event stream).1 (sink, (sink.write event stream).2)
  | broken (sink : ConsoleSink) (stream : OutputStream) (event : Event) (running : sink.stopped = false) (front : Bytes)
      (part : front <+: sink.encode event) (cause : IoFault) :
      Ends (.write event) (sink, stream) (.error (.io streamName cause))
        (sink, { stream with written := stream.written ++ front })
  | flushed (sink : ConsoleSink) (stream : OutputStream) :
      Ends .flush (sink, stream) (sink.flush stream).1 (sink, (sink.flush stream).2)
  | stopped (sink : ConsoleSink) (stream : OutputStream) : Ends .stop (sink, stream) (.ok ()) (sink.stop stream)

def usage : SinkUsage (ConsoleSink × OutputStream) where
  Ends := Ends
  Meanwhile before after := after.1 = before.1 ∧ before.2.written <+: after.2.written
  isStopped state := state.1.stopped

def Closes (before after : ConsoleSink × OutputStream) : Prop :=
  after.2.flushes = before.2.flushes + 1 ∧ after.2.written = before.2.written

def Keeps (origin : ConsoleSink) (events : List Event) (state : ConsoleSink × OutputStream) : Prop :=
  state.1.name = origin.name ∧ state.1.encode = origin.encode ∧ Laid (events.map origin.encode) state.2.written

variable {origin sink : ConsoleSink} {stream : OutputStream}

theorem flush_stream (sink : ConsoleSink) (stream : OutputStream) :
    (sink.flush stream).2 = { stream with flushes := stream.flushes + 1 } := by
  unfold flush OutputStream.flush
  cases stream.flushFault <;> rfl

theorem write_of_stopped (stopped : sink.stopped = true) (event : Event) (stream : OutputStream) :
    sink.write event stream = (.error (.stopped sink.name), stream) := by
  rw [write, if_pos stopped]

theorem write_of_running (running : sink.stopped = false) (event : Event) (stream : OutputStream) :
    sink.write event stream = (.ok (), { stream with written := stream.written ++ sink.encode event }) ∨
      ∃ cause, sink.write event stream = (.error (.io streamName cause), stream) := by
  unfold write OutputStream.write
  rw [running]
  cases stream.writeFault with
  | none => exact .inl rfl
  | some cause => exact .inr ⟨cause, rfl⟩

theorem stop_of_running (running : sink.stopped = false) (stream : OutputStream) :
    sink.stop stream = ({ sink with stopped := true }, { stream with flushes := stream.flushes + 1 }) := by
  rw [stop, running, flush_stream]
  rfl

theorem stop_of_stopped (stopped : sink.stopped = true) (stream : OutputStream) : sink.stop stream = (sink, stream) := by
  rw [stop, if_pos stopped]

theorem isLawful (origin : ConsoleSink) : usage.IsLawful origin.name (Keeps origin) Closes where
  answers call state := by
    cases call with
    | write event => exact ⟨_, _, .written state.1 state.2 event⟩
    | flush => exact ⟨_, _, .flushed state.1 state.2⟩
    | stop => exact ⟨_, _, .stopped state.1 state.2⟩
  meanwhile := by
    rintro events ⟨sink, stream⟩ ⟨other, after⟩ ⟨name, encode, laid⟩ ⟨same, more, grown⟩
    obtain rfl : other = sink := same
    refine ⟨⟨name, encode, ?_⟩, rfl⟩
    dsimp only at grown laid ⊢
    rw [← grown]
    exact laid.append more
  accepts := by
    rintro events event ⟨sink, stream⟩ after ⟨name, encode, laid⟩ ends
    generalize answered : (Except.ok () : Except SinkFault Unit) = answer at ends
    cases ends with
    | written =>
        cases stopped : sink.stopped with
        | true =>
            rw [write_of_stopped stopped] at answered
            cases answered
        | false =>
            rcases write_of_running stopped event stream with done | ⟨cause, failed⟩
            · rw [done]
              refine ⟨⟨name, encode, ?_⟩, stopped, stopped⟩
              rw [List.map_append, List.map_singleton, ← encode]
              exact (encode ▸ laid).concat _
            · rw [failed] at answered
              cases answered
    | broken => cases answered
  refuses := by
    rintro events event fault ⟨sink, stream⟩ after ⟨name, encode, laid⟩ ends
    generalize answered : (Except.error fault : Except SinkFault Unit) = answer at ends
    cases ends with
    | written =>
        cases stopped : sink.stopped with
        | true =>
            rw [write_of_stopped stopped] at answered ⊢
            cases answered
            exact ⟨⟨name, encode, laid⟩, rfl, fun _ => ⟨congrArg SinkFault.stopped name, rfl⟩⟩
        | false =>
            rcases write_of_running stopped event stream with done | ⟨cause, failed⟩
            · rw [done] at answered
              cases answered
            · rw [failed]
              exact ⟨⟨name, encode, laid⟩, rfl, fun now => nomatch stopped.symm.trans now⟩
    | broken _ _ _ running =>
        exact ⟨⟨name, encode, laid.append _⟩, rfl, fun now => nomatch running.symm.trans now⟩
  flushes := by
    rintro events answer ⟨sink, stream⟩ after ⟨name, encode, laid⟩ ends
    cases ends with
    | flushed =>
        rw [flush_stream]
        exact ⟨⟨name, encode, laid⟩, rfl⟩
  stops := by
    rintro events answer ⟨sink, stream⟩ after ⟨name, encode, laid⟩ ends
    cases ends with
    | stopped =>
        cases stopped : sink.stopped with
        | true =>
            rw [stop_of_stopped stopped]
            exact ⟨⟨name, encode, laid⟩, stopped, fun _ => rfl, fun running => nomatch stopped.symm.trans running⟩
        | false =>
            rw [stop_of_running stopped]
            exact ⟨⟨name, encode, laid⟩, rfl, fun now => (nomatch stopped.symm.trans now), fun _ => ⟨rfl, rfl⟩⟩

end ConsoleSink

namespace FileSink

inductive Ends : SinkCall → FileSink × FileTree → Except SinkFault Unit → FileSink × FileTree → Prop where
  | written (sink : FileSink) (event : Event) {files after : FileTree} (done : sink.write event files = .ok () after) :
      Ends (.write event) (sink, files) (.ok ()) (sink, after)
  | refused (sink : FileSink) (event : Event) {files after : FileTree} {fault : SinkFault}
      (failed : sink.write event files = .error fault after) :
      Ends (.write event) (sink, files) (.error fault) (sink, after)
  | broken (sink : FileSink) (files : FileTree) (event : Event) {handle : FileHandle} (opened : sink.handle = some handle)
      (front : Bytes) (part : front <+: sink.encode event) (cause : IoFault) :
      Ends (.write event) (sink, files) (.error (.io sink.path cause)) (sink, files.append handle.id front)
  | flushed (sink : FileSink) (files : FileTree) (answer : Except SinkFault Unit) :
      Ends .flush (sink, files) answer (sink, files)
  | stopped (sink : FileSink) (files : FileTree) : Ends .stop (sink, files) (.ok ()) (sink.stop, files)

def usage : SinkUsage (FileSink × FileTree) where
  Ends := Ends
  Meanwhile before after := after.1 = before.1 ∧ before.2.Retains before.1.path [] after.2
  isStopped state := state.1.stopped

def Stored (path : String) (encode : Event → Bytes) (events : List Event) (state : FileSink × FileTree) : Prop :=
  ∃ id content, state.2.node? (state.2.place path) = some (.file id content) ∧ Laid (events.map encode) content

def Closes (before after : FileSink × FileTree) : Prop :=
  after.1.handle = none ∧ after.2 = before.2

/-- The events are in the file, and no other is open. It is open until the sink is stopped. -/
structure Keeps (name path : String) (encode : Event → Bytes) (events : List Event) (state : FileSink × FileTree) :
    Prop where
  sink : state.1 = { name, path, encode, handle := state.1.handle, stopped := state.1.stopped }
  shut : state.1.stopped = true ↔ state.1.handle = none
  handle : ∀ handle, state.1.handle = some handle →
    ∃ content, state.2.node? (state.2.place path) = some (.file handle.id content)
  stored : Stored path encode events state

variable {name path : String} {encode : Event → Bytes} {events : List Event} {sink : FileSink} {files after : FileTree}

theorem Keeps.retains (keeps : Keeps name path encode events (sink, files)) (retains : files.Retains path [] after) :
    Keeps name path encode events (sink, after) := by
  have place : after.place path = files.place path := FileTree.place_congr retains.home path
  obtain ⟨id, content, stands, laid⟩ := keeps.stored
  obtain ⟨more, kept⟩ := retains.file _ _ stands
  rw [← place] at kept
  refine ⟨keeps.sink, keeps.shut, fun handle opened => ?_, ⟨id, content ++ more, kept, laid.append more⟩⟩
  obtain ⟨before, there⟩ := keeps.handle handle opened
  obtain ⟨rfl, -⟩ := FileNode.file.inj (Option.some.inj (there.symm.trans stands))
  exact ⟨_, kept⟩

theorem Keeps.append (keeps : Keeps name path encode events (sink, files)) {handle : FileHandle}
    (opened : sink.handle = some handle) {more : List Event} {bytes : Bytes}
    (behind : ∀ content, Laid (events.map encode) content → Laid ((events ++ more).map encode) (content ++ bytes)) :
    Keeps name path encode (events ++ more) (sink, files.append handle.id bytes) := by
  obtain ⟨id, content, stands, laid⟩ := keeps.stored
  obtain ⟨before, there⟩ := keeps.handle handle opened
  obtain ⟨rfl, -⟩ := FileNode.file.inj (Option.some.inj (there.symm.trans stands))
  have home : (files.append handle.id bytes).workingDirectory = files.workingDirectory := rfl
  have grown := FileTree.node?_rewritten stands (· ++ bytes)
  rw [← FileTree.place_congr home path] at grown
  refine ⟨keeps.sink, keeps.shut, fun other same => ?_, ⟨handle.id, content ++ bytes, grown, behind content laid⟩⟩
  obtain rfl := Option.some.inj (opened.symm.trans same)
  exact ⟨_, grown⟩

theorem write_of_closed (closed : sink.handle = none) (event : Event) (files : FileTree) :
    sink.write event files = .error (.stopped sink.name) files := by
  rw [write, closed]
  rfl

theorem write_of_open {handle : FileHandle} (opened : sink.handle = some handle) (event : Event) (files : FileTree) :
    sink.write event files = .ok () (files.append handle.id (sink.encode event)) := by
  rw [write, opened]
  rfl

theorem Keeps.written (keeps : Keeps name path encode events (sink, files)) (event : Event)
    (done : sink.write event files = .ok () after) :
    Keeps name path encode (events ++ [event]) (sink, after) ∧ sink.stopped = false := by
  cases opened : sink.handle with
  | none => cases (write_of_closed opened event files).symm.trans done
  | some handle =>
      cases (write_of_open opened event files).symm.trans done
      have same : sink.encode = encode := congrArg (·.encode) keeps.sink
      refine ⟨keeps.append opened fun content laid => ?_, Bool.eq_false_iff.mpr fun stopped => ?_⟩
      · rw [List.map_append, List.map_singleton, same]
        exact laid.concat _
      · cases opened.symm.trans (keeps.shut.mp stopped)

theorem keeps_openAt (opened : openAt name path encode files = .ok sink after) :
    Keeps name path encode [] (sink, after) ∧ sink.stopped = false := by
  have guards : FileTree.Guards FileTree.Anywhere files (stateAfter (Files.touch path) files) :=
    Files.touch_guards path files
  obtain ⟨handle, size, touched, rfl⟩ := openAt_eq_ok.mp opened
  rw [stateAfter_of_ok touched] at guards
  obtain ⟨content, stands⟩ := Files.touch_stands touched
  rw [← FileTree.place_congr guards.home path] at stands
  refine ⟨⟨rfl, by simp, fun handle same => ?_, ⟨_, content, stands, trivial⟩⟩, rfl⟩
  cases same
  exact ⟨content, stands⟩

theorem isLawful (name path : String) (encode : Event → Bytes) :
    usage.IsLawful name (Keeps name path encode) Closes where
  answers call state := by
    cases call with
    | write event =>
        cases result : state.1.write event state.2 with
        | ok value after => exact ⟨_, _, .written state.1 event result⟩
        | error fault after => exact ⟨_, _, .refused state.1 event result⟩
    | flush => exact ⟨_, _, .flushed state.1 state.2 (.ok ())⟩
    | stop => exact ⟨_, _, .stopped state.1 state.2⟩
  meanwhile := by
    rintro events ⟨sink, files⟩ ⟨other, after⟩ keeps ⟨same, retains⟩
    obtain rfl : other = sink := same
    have path : other.path = path := congrArg (·.path) keeps.sink
    exact ⟨keeps.retains (path ▸ retains), rfl⟩
  accepts := by
    rintro events event ⟨sink, files⟩ after keeps ends
    cases ends with
    | written _ _ done =>
        obtain ⟨kept, running⟩ := keeps.written event done
        exact ⟨kept, running, running⟩
  refuses := by
    rintro events event fault ⟨sink, files⟩ after keeps ends
    cases ends with
    | refused _ _ failed =>
        cases opened : sink.handle with
        | none =>
            cases (write_of_closed opened event files).symm.trans failed
            have same : sink.name = name := congrArg (·.name) keeps.sink
            exact ⟨keeps, rfl, fun _ => ⟨congrArg SinkFault.stopped same, rfl⟩⟩
        | some handle => cases (write_of_open opened event files).symm.trans failed
    | broken _ _ _ opened front =>
        refine ⟨?_, rfl, fun stopped => nomatch opened.symm.trans (keeps.shut.mp stopped)⟩
        rw [← List.append_nil events]
        exact keeps.append opened fun content laid => by
          rw [List.append_nil]
          exact laid.append front
  flushes := by
    rintro events answer ⟨sink, files⟩ after keeps ends
    cases ends
    exact ⟨keeps, rfl⟩
  stops := by
    rintro events answer ⟨sink, files⟩ after keeps ends
    cases ends
    cases stopped : sink.stopped with
    | true =>
        rw [stop, if_pos stopped]
        exact ⟨keeps, stopped, fun _ => rfl, fun running => nomatch stopped.symm.trans running⟩
    | false =>
        rw [stop, stopped]
        refine ⟨⟨?_, by simp, nofun, keeps.stored⟩, rfl, fun now => (nomatch stopped.symm.trans now),
          fun _ => ⟨rfl, rfl⟩⟩
        have same := keeps.sink
        dsimp only at same ⊢
        rw [same]
        rfl

end FileSink

end KeyedLog
