import KeyedLog.Files.Operations
import KeyedLog.Store.Basic

/-!
The object store that the remote destinations share. It keeps its objects in memory, in the order in which
they first came, or each in a file of its own.
-/

namespace KeyedLog

structure Document where
  id : String
  type : DocumentType
  bytes : Bytes
  deriving DecidableEq, Repr

structure MemoryStore where
  documents : List Document := []
  outage : UInt32 := 0
  attempts : UInt32 := 0
  deriving DecidableEq, Repr

namespace MemoryStore

/-- Replace the object with the id and type of a document, or add it at the end. -/
def place (document : Document) : List Document → List Document
  | [] => [document]
  | other :: rest =>
    if other.id = document.id ∧ other.type = document.type then document :: rest
    else other :: place document rest

def failNext (store : MemoryStore) (count : UInt32) : MemoryStore :=
  { store with outage := count }

def put (store : MemoryStore) (id : String) (type : DocumentType) (bytes : Bytes) :
    Except StoreFault Unit × MemoryStore :=
  let store := { store with attempts := store.attempts + 1 }
  if store.outage > 0 then
    (.error (.unavailable id), { store with outage := store.outage - 1 })
  else (.ok (), { store with documents := place ⟨id, type, bytes⟩ store.documents })

def contents (store : MemoryStore) (type : DocumentType) : Bytes :=
  (store.documents.filter (·.type == type)).flatMap (·.bytes)

end MemoryStore

structure DirectoryStore where
  root : String
  deriving DecidableEq, Repr

namespace DirectoryStore

def isPlainId (id : String) : Bool :=
  let parts := Path.cut id.toList
  !id.isEmpty && parts.front == .none && !parts.pieces.contains Path.above

def objectPath (store : DirectoryStore) (id : String) (type : DocumentType) : Except StoreFault String :=
  if isPlainId id then .ok (Path.join (Path.join store.root type.area) id)
  else .error (.invalidId id)

def makeParent (path : String) : FileAction Unit :=
  match Path.parent? path with
  | some parent => Files.makeDirectories parent
  | none => pure ()

def writeObject (path : String) (bytes : Bytes) : FileAction Unit := do
  makeParent path
  Files.writeAll path bytes

/-- Go on with an object up to where others work on the files, or to the answer. -/
def proceed (store : DirectoryStore) (stage : PutStage) (id : String) (type : DocumentType) (bytes : Bytes)
    (files : FileTree) : Intake × FileTree :=
  match store.objectPath id type with
  | .error fault => (.answered (.error fault), files)
  | .ok path =>
    match stage with
    | .due => (.paused .away .preparing, files)
    | .preparing =>
      match makeParent path files with
      | .ok () files => (.paused .away .storing, files)
      | .error cause files => (.answered (.error (.io id cause)), files)
    | .storing =>
      match Files.writeAll path bytes files with
      | .ok () files => (.answered (.ok ()), files)
      | .error cause files => (.answered (.error (.io id cause)), files)

/-- Put an object while nothing else happens. -/
def put (store : DirectoryStore) (id : String) (type : DocumentType) (bytes : Bytes) (files : FileTree) :
    Except StoreFault Unit × FileTree :=
  match store.objectPath id type with
  | .error fault => (.error fault, files)
  | .ok path =>
    match writeObject path bytes files with
    | .ok () files => (.ok (), files)
    | .error cause files => (.error (.io id cause), files)

end DirectoryStore

inductive Backend where
  | memory (store : MemoryStore)
  | directory (store : DirectoryStore)
  deriving DecidableEq, Repr

structure ObjectStore where
  backend : Backend
  latency : Millis := 0
  deriving DecidableEq, Repr

namespace ObjectStore

def proceed (store : ObjectStore) (stage : PutStage) (id : String) (type : DocumentType) (bytes : Bytes)
    (files : FileTree) : Intake × ObjectStore × FileTree :=
  match store.backend with
  | .memory memory =>
    if stage = .storing ∨ store.latency = 0 then
      let (result, memory) := memory.put id type bytes
      (.answered result, { store with backend := .memory memory }, files)
    else (.paused (.sleep store.latency) .storing, store, files)
  | .directory directory =>
    let (intake, files) := directory.proceed stage id type bytes files
    (intake, store, files)

def put (store : ObjectStore) (id : String) (type : DocumentType) (bytes : Bytes) (files : FileTree) :
    Except StoreFault Unit × ObjectStore × FileTree :=
  match store.backend with
  | .memory memory =>
    let (result, memory) := memory.put id type bytes
    (result, { store with backend := .memory memory }, files)
  | .directory directory =>
    let (result, files) := directory.put id type bytes files
    (result, store, files)

def memory? (store : ObjectStore) : Option MemoryStore :=
  match store.backend with
  | .memory memory => some memory
  | .directory _ => none

def failNext (store : ObjectStore) (count : UInt32) : ObjectStore :=
  match store.backend with
  | .memory memory => { store with backend := .memory (memory.failNext count) }
  | .directory _ => store

end ObjectStore

end KeyedLog
