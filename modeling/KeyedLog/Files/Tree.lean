import KeyedLog.Fault
import KeyedLog.Path
import KeyedLog.Text

/-! A tree of files and directories, and the way from a path to a place in it. -/

namespace KeyedLog

/-- A file, whatever its name is at the moment. Names change when files are renamed; a file that has no name
any more takes in what is written to it, but nobody sees it. -/
abbrev FileId := Nat

inductive FileNode where
  | directory
  | file (id : FileId) (content : Bytes)
  deriving DecidableEq, Repr

def FileNode.isDirectory : FileNode → Bool
  | directory => true
  | file .. => false

abbrev Location := List String

/-- Everything below the root. Paths that do not start at the root start in the working directory. -/
structure FileTree where
  nodes : List (Location × FileNode)
  nextId : FileId := 0
  workingDirectory : Location := []
  deriving DecidableEq, Repr

namespace FileTree

def empty (workingDirectory : Location) : FileTree :=
  { nodes := (List.range workingDirectory.length).map fun count =>
      (workingDirectory.take (count + 1), .directory)
    workingDirectory }

def node? (tree : FileTree) (location : Location) : Option FileNode :=
  if location.isEmpty then some .directory else List.lookup location tree.nodes

def attach (tree : FileTree) (location : Location) (node : FileNode) : FileTree :=
  { tree with nodes := tree.nodes ++ [(location, node)] }

def detach (tree : FileTree) (location : Location) : FileTree :=
  { tree with nodes := tree.nodes.filter fun entry => entry.1 != location }

def detachAll (tree : FileTree) (location : Location) : FileTree :=
  { tree with nodes := tree.nodes.filter fun entry =>
      !location.isPrefixOf entry.1 || entry.1.isPrefixOf tree.workingDirectory }

def isBare (tree : FileTree) (location : Location) : Bool :=
  tree.nodes.all fun entry => !location.isPrefixOf entry.1 || entry.1 == location

def move (tree : FileTree) (source target : Location) : FileTree :=
  { tree with nodes := tree.nodes.map fun entry =>
      if source.isPrefixOf entry.1 then (target ++ entry.1.drop source.length, entry.2) else entry }

def modifyContent (tree : FileTree) (id : FileId) (change : Bytes → Bytes) : FileTree :=
  { tree with nodes := tree.nodes.map fun entry =>
      match entry.2 with
      | .file other content => if other = id then (entry.1, .file id (change content)) else entry
      | .directory => entry }

def append (tree : FileTree) (id : FileId) (bytes : Bytes) : FileTree :=
  tree.modifyContent id (· ++ bytes)

def listing (tree : FileTree) : List (String × FileNode) :=
  tree.nodes.filterMap fun (location, node) =>
    if tree.workingDirectory.isPrefixOf location ∧ tree.workingDirectory ≠ location then
      some ("/".intercalate (location.drop tree.workingDirectory.length), node)
    else none

end FileTree

def maxNameLength : Nat := 255

def maxPathLength : Nat := 4096

/-- A path on its way through a tree: the names to follow from a place. A path that ends in a slash has to
name a directory. -/
structure Route where
  start : Location
  steps : List String
  asDirectory : Bool
  deriving DecidableEq, Repr

namespace FileTree

def route (tree : FileTree) (path : String) : Except IoFault Route :=
  let chars := path.toList
  if '\x00' ∈ chars then .error .nulInPath
  else if chars.isEmpty then .error .notFound
  else if (Utf8.encodeChars chars).length ≥ maxPathLength then .error .nameTooLong
  else
    .ok {
      start := if chars.head? = some '/' then [] else tree.workingDirectory
      steps := ((Text.split '/' chars).filter (· ≠ [])).map String.ofList
      asDirectory := chars.getLast? = some '/' }

def step (location : Location) (name : String) : Except IoFault Location :=
  if name = "." then .ok location
  else if name = ".." then .ok location.dropLast
  else if (Utf8.encode name).length > maxNameLength then .error .nameTooLong
  else .ok (location ++ [name])

def follow (tree : FileTree) : Location → List String → Except IoFault Location
  | location, [] => .ok location
  | location, name :: rest => do
    let location ← step location name
    match tree.node? location with
    | none => .error .notFound
    | some .directory => tree.follow location rest
    | some (.file ..) => .error .notDirectory

def find (tree : FileTree) (path : String) : Except IoFault (Location × FileNode) := do
  let route ← tree.route path
  match route.steps.getLast? with
  | none => return (route.start, .directory)
  | some name =>
    let parent ← tree.follow route.start route.steps.dropLast
    let location ← step parent name
    match tree.node? location with
    | none => .error .notFound
    | some (.file id content) =>
      if route.asDirectory then .error .notDirectory else return (location, .file id content)
    | some .directory => return (location, .directory)

/-- Where something can be made, renamed or taken away: the directory and the name in it. The name is none if
the path ends in a name that is always there. -/
structure Slot where
  parent : Location
  name : Option String
  asDirectory : Bool
  deriving DecidableEq, Repr

def slot (tree : FileTree) (path : String) : Except IoFault Slot := do
  let route ← tree.route path
  match route.steps.getLast? with
  | none => return ⟨route.start, none, true⟩
  | some name =>
    let parent ← tree.follow route.start route.steps.dropLast
    if name = "." ∨ name = ".." then return ⟨parent, none, true⟩
    else return ⟨parent, some name, route.asDirectory⟩

def holds (tree : FileTree) (path : String) : Bool :=
  match tree.find path with
  | .ok _ => true
  | .error _ => false

def isDirectory (tree : FileTree) (path : String) : Bool :=
  match tree.find path with
  | .ok (_, .directory) => true
  | _ => false

end FileTree

end KeyedLog
