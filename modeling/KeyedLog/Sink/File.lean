import KeyedLog.Event
import KeyedLog.Fault
import KeyedLog.Files.Operations

/-! Opening the files that sinks write to, and a sink that appends to one file for ever. -/

namespace KeyedLog

abbrev SinkFileAction := EStateM SinkFault FileTree

def FileAction.at {α : Type} (action : FileAction α) (path : String) : SinkFileAction α := fun files =>
  match action files with
  | .ok value files => .ok value files
  | .error cause files => .error (.io path cause) files

namespace Files

/-- Open a file for writing at its end, after making it and the directories above it as far as they are
missing. What the file holds stays, and its size is returned. -/
def touch (path : String) : SinkFileAction (FileHandle × Nat) := do
  match Path.parent? path with
  | some parent => if !parent.isEmpty then (makeDirectories parent).at parent
  | none => pure ()
  (openForWriting path).at path

end Files

structure FileSink where
  name : String
  path : String
  encode : Event → Bytes
  handle : Option FileHandle
  stopped : Bool := false

namespace FileSink

/-- The file that a key names: one of the given name in the directory, if the key names a directory, and
otherwise the file the key itself names. -/
def jobLogPath (files : FileTree) (key fileName : String) : String :=
  if files.isDirectory key then Path.join key fileName else key

def openAt (name path : String) (encode : Event → Bytes) : SinkFileAction FileSink := do
  let (handle, _) ← Files.touch path
  return { name, path, encode, handle := some handle }

def write (sink : FileSink) (event : Event) : SinkFileAction Unit :=
  match sink.handle with
  | none => throw (.stopped sink.name)
  | some handle => (Files.append handle (sink.encode event)).at sink.path

def stop (sink : FileSink) : FileSink :=
  if sink.stopped then sink else { sink with stopped := true, handle := none }

def describe (sink : FileSink) : String :=
  "FileSink \x7b name: " ++ Quoted.quote sink.name ++ ", path: " ++ Quoted.quotePath sink.path ++ " \x7d"

end FileSink

end KeyedLog
