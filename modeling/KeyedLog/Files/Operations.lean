import KeyedLog.Files.Tree

/-! Operations on files. An operation that fails may have done a part of its work. -/

namespace KeyedLog

/-- A computation that changes a tree of files and may fail. What it did before it failed stays done. -/
abbrev FileAction := EStateM IoFault FileTree

structure FileHandle where
  id : FileId
  deriving DecidableEq, Repr

namespace Files

def look {α : Type} (see : FileTree → Except IoFault α) : FileAction α := do
  match see (← get) with
  | .ok value => return value
  | .error fault => throw fault

def place (slot : FileTree.Slot) (otherwise : IoFault) : FileAction Location := do
  match slot.name with
  | none => throw otherwise
  | some name =>
    match FileTree.step slot.parent name with
    | .ok location => return location
    | .error fault => throw fault

def makeDirectory (path : String) : FileAction Unit := do
  let slot ← look (·.slot path)
  let location ← place slot .alreadyExists
  match (← get).node? location with
  | some _ => throw .alreadyExists
  | none => modify (·.attach location .directory)

def ensureDirectory (path : String) : FileAction Unit := do
  try makeDirectory path
  catch fault => if (← get).isDirectory path then pure () else throw fault

def makeDirectoriesFrom : (fuel : Nat) → String → FileAction Unit
  | 0, _ => pure ()
  | fuel + 1, path => do
    if path.isEmpty then return
    let missing ← try
        makeDirectory path
        pure false
      catch fault =>
        if fault = .notFound then pure true
        else if (← get).isDirectory path then pure false
        else throw fault
    if missing then
      match Path.parent? path with
      | none => throw (.other "failed to create whole tree")
      | some parent =>
        makeDirectoriesFrom fuel parent
        ensureDirectory path

def makeDirectories (path : String) : FileAction Unit :=
  makeDirectoriesFrom (path.length + 1) path

def openForWriting (path : String) : FileAction (FileHandle × Nat) := do
  let slot ← look (·.slot path)
  if slot.asDirectory then throw .isDirectory
  let location ← place slot .isDirectory
  let tree ← get
  match tree.node? location with
  | some .directory => throw .isDirectory
  | some (.file id content) => return (⟨id⟩, content.length)
  | none =>
    set { tree.attach location (.file tree.nextId []) with nextId := tree.nextId + 1 }
    return (⟨tree.nextId⟩, 0)

def append (handle : FileHandle) (bytes : Bytes) : FileAction Unit :=
  modify (·.append handle.id bytes)

def create (path : String) : FileAction FileHandle := do
  let (handle, _) ← openForWriting path
  modify (·.modifyContent handle.id fun _ => [])
  return handle

def writeAll (path : String) (bytes : Bytes) : FileAction Unit := do
  append (← create path) bytes

def openForReading (path : String) : FileAction FileNode := do
  return (← look (·.find path)).2

def content : FileNode → FileAction Bytes
  | .directory => throw .isDirectory
  | .file _ content => return content

def readAll (path : String) : FileAction Bytes := do
  content (← openForReading path)

def readText (path : String) : FileAction String := do
  match Utf8.decode? (← readAll path) with
  | some text => return text
  | none => throw .notText

def removeFile (path : String) : FileAction Unit := do
  let slot ← look (·.slot path)
  let location ← place slot .isDirectory
  match (← get).node? location with
  | none => throw .notFound
  | some .directory => throw .isDirectory
  | some (.file ..) =>
    if slot.asDirectory then throw .notDirectory
    modify (·.detach location)

def removeIfExists (path : String) : FileAction Unit := do
  try removeFile path
  catch fault => if fault = .notFound then pure () else throw fault

def removeTree (path : String) : FileAction Unit := do
  match (← get).find path with
  | .error _ => pure ()
  | .ok (location, _) => modify (·.detachAll location)

/-- Give something another path. What stood there before is replaced, if it may be. -/
def rename (source target : String) : FileAction Unit := do
  let fromSlot ← look (·.slot source)
  let toSlot ← look (·.slot target)
  let origin ← place fromSlot .invalidArgument
  let goal ← place toSlot .invalidArgument
  let tree ← get
  match tree.node? origin, tree.node? goal with
  | none, _ => throw .notFound
  | some (.file ..), some .directory => throw .isDirectory
  | some .directory, some (.file ..) => throw .notDirectory
  | some moved, there =>
    if fromSlot.asDirectory && !moved.isDirectory then throw .notDirectory
    if origin = goal then return
    if moved.isDirectory && origin.isPrefixOf goal then throw .invalidArgument
    if there.isSome && !tree.isBare goal then throw .notEmpty
    set ((tree.detach goal).move origin goal)

end Files

end KeyedLog
