import KeyedLog.Command.Run
import Std.Time.DateTime.Timestamp

/-! The command as a program. A run works on a picture of the files that it can concern: what stands on the disk is
looked up before it matters, and what the run changes is written back. -/

namespace KeyedLog.Command

inductive Standing where
  | nothing
  | directory
  | file (content : Bytes)

def look (path : String) : IO Standing := do
  try
    return .file (← IO.FS.readBinFile path).toList
  catch
    | .noFileOrDirectory .. => return .nothing
    | _ => return .directory

def learn (picture : FileTree) (path : String) : IO FileTree := do
  if picture.holds path then return picture
  let action : FileAction Unit := match ← look path with
    | .nothing => pure ()
    | .directory => Files.makeDirectories path
    | .file content => Files.writeAll path content
  match action picture with
  | .ok _ picture => return picture
  | .error _ _ => return picture

def learnWay (picture : FileTree) : List String → IO FileTree
  | [] => return picture
  | path :: rest => do
    let picture ← learn picture path
    if rest.isEmpty || picture.isDirectory path then learnWay picture rest else return picture

def learnPath (picture : FileTree) (path : String) : IO FileTree :=
  learnWay picture (Path.lineage path.length path)

def diskPath (location : Location) : String :=
  "/" ++ "/".intercalate location

/-- Write octets to a file on the disk. What the file holds already is not written again. -/
def writeDisk (path : String) (before content : Bytes) : IO Unit := do
  let kept := !before.isEmpty && before.isPrefixOf content
  let handle ← IO.FS.Handle.mk path (if kept then .append else .write)
  handle.write ⟨(if kept then content.drop before.length else content).toArray⟩

def writePlace (before : FileTree) (location : Location) (node : FileNode) : IO Unit := do
  match node, before.node? location with
  | .directory, some .directory => pure ()
  | .directory, _ => IO.FS.createDirAll (diskPath location)
  | .file _ content, some (.file _ old) =>
    if content != old then writeDisk (diskPath location) old content
  | .file _ content, _ => writeDisk (diskPath location) [] content

def writeBack (before after : FileTree) : IO Unit := do
  for (location, node) in before.nodes do
    if (after.node? location).isNone && !node.isDirectory then IO.FS.removeFile (diskPath location)
  for (location, node) in after.nodes do
    writePlace before location node

/-- A run of the program: the service, and what the outside has seen of it. -/
structure Progress where
  service : Service
  disk : FileTree
  printed : Nat := 0

namespace Progress

def publish (progress : Progress) : IO Progress := do
  let world := progress.service.engine.world
  writeBack progress.disk world.files
  let output ← IO.getStdout
  output.write ⟨(world.console.written.drop progress.printed).toArray⟩
  output.flush
  return { progress with disk := world.files, printed := world.console.written.length }

def prepareFor (progress : Progress) (event : Event) : IO Progress := do
  let mut files := progress.service.engine.world.files
  for path in progress.service.footprint event do
    files ← learnPath files path
  let world := progress.service.engine.world.setFiles files
  let engine := { progress.service.engine with world }
  return { progress with service := { progress.service with engine }, disk := files }

end Progress

def currentTime : IO Nat := do
  return (← Std.Time.Timestamp.now).toMillisecondsSinceUnixEpoch.val.toNat

def catchUp (start : Nat) (progress : Progress) : IO Progress := do
  let moment := (← IO.monoMsNow) - start
  { progress with service := progress.service.reach moment (← currentTime) }.publish

partial def readLine (input : IO.FS.Stream) (line : ByteArray) : IO Bytes := do
  let octet ← input.read 1
  let line := line ++ octet
  if octet.isEmpty || octet.toList = [newline] then return line.toList else readLine input line

/-- Wait for a line of input, and let the service go on meanwhile. None if the input ends. -/
partial def awaitLine (start : Nat) (progress : Progress) (line : Task (Except IO.Error Bytes)) :
    IO (Option Bytes × Progress) := do
  let progress ← catchUp start progress
  if ← IO.hasFinished line then
    match line.get with
    | .ok line => return (if line.isEmpty then none else some line, progress)
    | .error _ => return (none, progress)
  else
    IO.sleep 20
    awaitLine start progress line

def nextLine (start : Nat) (progress : Progress) : IO (Option (UInt64 × Bytes) × Progress) := do
  let line ← IO.asTask (readLine (← IO.getStdin) .empty)
  let (line, progress) ← awaitLine start progress line
  let now := UInt64.ofNat (← currentTime)
  return (line.map (now, ·), progress)

def Progress.takeLine? (progress : Progress) (now : UInt64) (line : Bytes) : IO (Option Progress) := do
  let progress ← match (Utf8.decode? (body line)).bind (readLine? now) with
    | some event => progress.prepareFor event
    | none => pure progress
  match Command.takeLine? progress.service now line with
  | some service => return some (← { progress with service }.publish)
  | none => return none

def manyLines : Nat := Nat.pow 2 64

def readInput (start : Nat) (progress : Progress) : IO Progress :=
  takeFrom (nextLine start) Progress.takeLine? manyLines progress

def readEnvironment : IO Environment := do
  let found ← Config.Setting.all.mapM fun setting => do
    return (← IO.getEnv setting.variableName).map fun value => (setting.variableName, value)
  return found.filterMap id

def emptyPicture : IO FileTree := do
  let directory := (← IO.currentDir).toString
  return .empty (((Text.split '/' directory.toList).filter (!·.isEmpty)).map String.ofList)

def fail (program : String) (failure : Failure) : IO UInt32 := do
  if failure = .refused .help then IO.print (help program) else IO.eprintln failure.message
  return failure.exitCode

def serve (service : Service) (files : FileTree) : IO UInt32 := do
  let world := { service.engine.world with nextInstance := ← IO.rand 0 (Nat.pow 2 60) }
  let service := { service with engine := { service.engine with world } }
  let progress ← readInput (← IO.monoMsNow) { service, disk := files }
  let (_, service) := progress.service.shutdown
  let _ ← { progress with service }.publish
  return 0

end KeyedLog.Command

open KeyedLog KeyedLog.Command in
def main (arguments : List String) : IO UInt32 := do
  let program := "keyedlog"
  match Options.parse arguments with
  | .error refusal => fail program (.refused refusal)
  | .ok options =>
    let files ← match options.configPath with
      | some path => learnPath (← emptyPicture) path
      | none => emptyPicture
    match prepare options (← readEnvironment) files (← currentTime) with
    | .error failure => fail program failure
    | .ok service => serve service files
