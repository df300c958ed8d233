import KeyedLog.Text.Split

/-! Paths as texts. A path is cut into pieces at its slashes; empty pieces and `.` name nothing, except that a
`.` in front of a relative path is kept. Whatever is not taken away is kept as it was written. -/

namespace KeyedLog.Path

def isIdle (piece : List Char) : Bool :=
  piece == [] || piece == ['.']

def above : List Char := ['.', '.']

/-- What stands in front of the pieces: the root, or the `.` of a relative path. -/
inductive Front where
  | none
  | root
  | here
  deriving DecidableEq, Repr

def Front.chars : Front → List Char
  | none => []
  | root => ['/']
  | here => ['.']

structure Parts where
  front : Front
  pieces : List (List Char)
  deriving DecidableEq, Repr

namespace Parts

def chars (parts : Parts) : List Char :=
  parts.front.chars ++ Text.join '/' parts.pieces

def trim (parts : Parts) : Parts :=
  { parts with pieces := (parts.pieces.reverse.dropWhile isIdle).reverse }

def names (parts : Parts) : List (List Char) :=
  parts.pieces.filter fun piece => !isIdle piece

def parent? (parts : Parts) : Option Parts :=
  if parts.pieces.isEmpty then if parts.front = .here then some ⟨.none, []⟩ else none
  else some ({ parts with pieces := parts.pieces.dropLast }).trim

def fileName? (parts : Parts) : Option (List Char) :=
  match parts.pieces.getLast? with
  | some piece => if piece = above then none else some piece
  | none => none

end Parts

def cutFully (path : List Char) : Parts :=
  match path with
  | '/' :: rest => ⟨.root, Text.split '/' rest⟩
  | ['.'] => ⟨.here, []⟩
  | '.' :: '/' :: rest => ⟨.here, Text.split '/' ('/' :: rest)⟩
  | _ => ⟨.none, Text.split '/' path⟩

/-- Cut a path. No idle piece is left at its end. -/
def cut (path : List Char) : Parts :=
  (cutFully path).trim

def parent? (path : String) : Option String :=
  (cut path.toList).parent?.map fun parts => String.ofList parts.chars

def fileName? (path : String) : Option String :=
  (cut path.toList).fileName?.map String.ofList

def joinChars (base path : List Char) : List Char :=
  match path with
  | '/' :: _ => path
  | _ =>
    match base.getLast? with
    | none => path
    | some last => if last = '/' then base ++ path else base ++ '/' :: path

def join (base path : String) : String :=
  String.ofList (joinChars base.toList path.toList)

def withFileName (path name : String) : String :=
  match fileName? path with
  | some _ => join ((parent? path).getD path) name
  | none => join path name

end KeyedLog.Path
