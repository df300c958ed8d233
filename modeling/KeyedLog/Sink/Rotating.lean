import KeyedLog.Archive
import KeyedLog.Event
import KeyedLog.Sink.File

/-! A sink whose file is archived when it grows too large. Before an event that would take the file past its
limit the file is compressed beside the archives, these move up by one slot, the last is dropped, and a new
file is started. Nothing is touched before the new archive is complete. -/

namespace KeyedLog

structure RollingPolicy where
  maxFileSize : Nat := 104857600
  maxArchives : Nat := 3
  deriving DecidableEq, Repr

def RollingPolicy.describe (policy : RollingPolicy) : String :=
  "RollingPolicy \x7b max_file_size: " ++ policy.maxFileSize.repr ++ ", max_archives: " ++
    policy.maxArchives.repr ++ " \x7d"

namespace Rotation

def compress (source target : String) : FileAction Unit := do
  let source ← Files.openForReading source
  let target ← Files.create target
  Files.append target (Gzip.encode (← Files.content source))

def stage (base : String) : SinkFileAction Unit := fun files =>
  match compress base (Archive.stagingPath base) files with
  | .ok () files => .ok () files
  | .error cause files =>
    let fault := SinkFault.io (Archive.stagingPath base) cause
    match Files.removeFile (Archive.stagingPath base) files with
    | .ok () files => .error fault files
    | .error _ files => .error fault files

def shiftSlot (base : String) (slot : Nat) : SinkFileAction Unit := do
  let source := Archive.slotPath base slot
  if (← get).holds source then (Files.rename source (Archive.slotPath base (slot + 1))).at source

def shiftSlots (base : String) : (count : Nat) → SinkFileAction Unit
  | 0 => pure ()
  | count + 1 => do
    shiftSlot base (count + 1)
    shiftSlots base count

def archive (base : String) (maxArchives : Nat) : SinkFileAction Unit := do
  if maxArchives > 0 then
    stage base
    let last := Archive.slotPath base maxArchives
    (Files.removeIfExists last).at last
    shiftSlots base (maxArchives - 1)
    let staging := Archive.stagingPath base
    (Files.rename staging (Archive.slotPath base 1)).at staging

end Rotation

structure RotatingSink where
  name : String
  path : String
  policy : RollingPolicy
  encode : Event → Bytes
  /-- The open file. There is none while a rotation is incomplete, and none once the sink is stopped. -/
  handle : Option FileHandle
  size : Nat
  stopped : Bool := false

namespace RotatingSink

abbrev Action := EStateM SinkFault (RotatingSink × FileTree)

def onFiles {α : Type} (action : SinkFileAction α) : Action α := fun (sink, files) =>
  match action files with
  | .ok value files => .ok value (sink, files)
  | .error fault files => .error fault (sink, files)

def update (change : RotatingSink → RotatingSink) : Action Unit :=
  modify fun (sink, files) => (change sink, files)

def openAt (name path : String) (policy : RollingPolicy) (encode : Event → Bytes) :
    SinkFileAction RotatingSink := do
  let (handle, size) ← Files.touch path
  return { name, path, policy, encode, handle := some handle, size }

def rotate : Action Unit := do
  let (sink, _) ← get
  onFiles (Rotation.archive sink.path sink.policy.maxArchives)
  -- From here on the sink has no open file. If a later step fails, the next write opens one again.
  update ({ · with handle := none })
  onFiles ((Files.removeIfExists sink.path).at sink.path)
  let (handle, _) ← onFiles (Files.touch sink.path)
  update ({ · with handle := some handle, size := 0 })

/-- The event with this many octets would take the file past its limit. An empty file takes any event. -/
def mustRotate (sink : RotatingSink) (length : Nat) : Bool :=
  sink.size > 0 && sink.size + length > sink.policy.maxFileSize

/-- The open file, which is opened again if a rotation has left none. -/
def currentHandle : Action FileHandle := do
  let (sink, _) ← get
  match sink.handle with
  | some handle => return handle
  | none =>
    let (handle, size) ← onFiles (Files.touch sink.path)
    update ({ · with handle := some handle, size })
    return handle

def write (event : Event) : Action Unit := do
  let (sink, _) ← get
  let bytes := sink.encode event
  if sink.stopped then throw (.stopped sink.name)
  if sink.mustRotate bytes.length then rotate
  let handle ← currentHandle
  onFiles ((Files.append handle bytes).at sink.path)
  update fun sink => { sink with size := sink.size + bytes.length }

def stop (sink : RotatingSink) : RotatingSink :=
  if sink.stopped then sink else { sink with stopped := true, handle := none }

def describe (sink : RotatingSink) : String :=
  "RotatingFileSink \x7b name: " ++ Quoted.quote sink.name ++ ", base_path: " ++
    Quoted.quotePath sink.path ++ ", policy: " ++ sink.policy.describe ++ " \x7d"

end RotatingSink

end KeyedLog
