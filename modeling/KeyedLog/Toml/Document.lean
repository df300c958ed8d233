import KeyedLog.Toml.Value
import KeyedLog.Toml.Scalar

/-! Reading TOML documents. -/

namespace KeyedLog.Toml

def skipComment (text : List Char) : List Char :=
  match text with
  | '#' :: rest => rest.dropWhile isPlain
  | _ => text

/-- Drop spaces, line ends and comments. `fuel` bounds the number of lines. A comment that no line end
follows stays. -/
def skipTrivia : (fuel : Nat) → List Char → List Char
  | 0, text => text
  | fuel + 1, text =>
    match skipLines text with
    | '#' :: rest =>
      match newline? (rest.dropWhile isPlain) with
      | some rest => skipTrivia fuel rest
      | none => '#' :: rest
    | text => text

def endOfLine : Reader Unit := fun text =>
  match skipComment (skipSpace text) with
  | [] => some ((), [])
  | rest => (newline? rest).map fun rest => ((), rest)

def maxDepth : Nat := 79

mutual

/-- A value. `depth` more arrays and tables may enclose it or be part of it. -/
def readValue : (fuel : Nat) → (depth : Nat) → Reader Value
  | 0, _, _ => none
  | fuel + 1, depth, text =>
    match text, depth with
    | '[' :: _, 0 => none
    | '\x7b' :: _, 0 => none
    | '[' :: rest, depth + 1 => do
      let (items, rest) ← readItems fuel depth [] rest
      return (.array items, rest)
    | '\x7b' :: rest, depth + 1 =>
      match skipSpace rest with
      | '\x7d' :: rest => some (.table .inline [], rest)
      | _ => do
        let (pairs, rest) ← readPairs fuel depth [] rest
        return (← inlineTable pairs, rest)
    | '"' :: _, _ => (readString text).map fun (text, rest) => (.string text, rest)
    | '\'' :: _, _ => (readString text).map fun (text, rest) => (.string text, rest)
    | 't' :: 'r' :: 'u' :: 'e' :: rest, _ => some (.boolean true, rest)
    | 'f' :: 'a' :: 'l' :: 's' :: 'e' :: rest, _ => some (.boolean false, rest)
    | _, _ => readNumeric text

def readItems : (fuel : Nat) → (depth : Nat) → (seen : List Value) → Reader (List Value)
  | 0, _, _, _ => none
  | fuel + 1, depth, seen, text =>
    match skipTrivia (text.length + 1) text with
    | ']' :: rest => some (seen.reverse, rest)
    | text => do
      let (value, rest) ← readValue fuel depth text
      match skipTrivia (rest.length + 1) rest with
      | ',' :: rest => readItems fuel depth (value :: seen) rest
      | ']' :: rest => some ((value :: seen).reverse, rest)
      | _ => none

def readPairs : (fuel : Nat) → (depth : Nat) → (seen : List (List String × String × Value)) →
    Reader (List (List String × String × Value))
  | 0, _, _, _ => none
  | fuel + 1, depth, seen, text => do
    let ((path, name), rest) ← readKey text
    let (_, rest) ← readChar '=' rest
    let (value, rest) ← readValue fuel depth (skipSpace rest)
    match skipSpace rest with
    | ',' :: rest => readPairs fuel depth ((path, name, value) :: seen) rest
    | '\x7d' :: rest => some (((path, name, value) :: seen).reverse, rest)
    | _ => none

end

def readStatement : Reader Statement := fun text =>
  match text with
  | '[' :: '[' :: rest => do
    let ((path, name), rest) ← readKey rest
    let (_, rest) ← readChar ']' rest
    let (_, rest) ← readChar ']' rest
    let (_, rest) ← endOfLine rest
    return (.arrayHeader path name, rest)
  | '[' :: rest => do
    let ((path, name), rest) ← readKey rest
    let (_, rest) ← readChar ']' rest
    let (_, rest) ← endOfLine rest
    return (.tableHeader path name, rest)
  | _ => do
    let ((path, name), rest) ← readKey text
    let (_, rest) ← readChar '=' rest
    let (value, rest) ← readValue (3 * (rest.length + 1)) maxDepth (skipSpace rest)
    let (_, rest) ← endOfLine rest
    return (.pair path name value, rest)

def readStatements : (fuel : Nat) → (seen : List Statement) → List Char → Option (List Statement)
  | 0, _, _ => none
  | fuel + 1, seen, text =>
    match skipSpace text with
    | [] => some seen.reverse
    | '#' :: rest => do
      let (_, rest) ← endOfLine ('#' :: rest)
      readStatements fuel seen rest
    | text =>
      match newline? text with
      | some rest => readStatements fuel seen rest
      | none => do
        let (statement, rest) ← readStatement text
        readStatements fuel (statement :: seen) rest

def byteOrderMark : Char := '\ufeff'

def parse (text : String) : Option Entries := do
  let chars := match text.toList with
    | c :: rest => if c = byteOrderMark then rest else c :: rest
    | [] => []
  assemble (← readStatements (chars.length + 1) [] chars)

end KeyedLog.Toml
