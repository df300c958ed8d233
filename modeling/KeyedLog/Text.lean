/-!
Text: white space in the sense of the Unicode property of that name, fields of a given width, and the one
encoding as octets in which every file, batch and output line is written.
-/

namespace KeyedLog

def isBlank (c : Char) : Bool :=
  let n := c.toNat
  (9 ≤ n && n ≤ 13) || n == 0x20 || n == 0x85 || n == 0xA0 || n == 0x1680 ||
    (0x2000 ≤ n && n ≤ 0x200A) || n == 0x2028 || n == 0x2029 || n == 0x202F ||
    n == 0x205F || n == 0x3000

namespace Text

def trimChars (chars : List Char) : List Char :=
  ((chars.dropWhile isBlank).reverse.dropWhile isBlank).reverse

def trim (text : String) : String :=
  String.ofList (trimChars text.toList)

def isBlank (text : String) : Bool :=
  text.toList.all KeyedLog.isBlank

def upper (text : String) : String :=
  String.ofList (text.toList.map Char.toUpper)

def repeated (count : Nat) (text : String) : String :=
  String.ofList ((List.replicate count text.toList).flatten)

end Text

inductive Alignment where
  | left
  | right
  | center
  deriving DecidableEq, Repr

/-- How a text fills a field: the least width, where the text stands, what fills the rest, and how many
characters of it are kept at most. -/
structure FieldFormat where
  width : Nat
  alignment : Alignment := .left
  fill : Char := ' '
  precision : Option Nat := none
  deriving Repr

namespace FieldFormat

def leading (format : FieldFormat) (space : Nat) : Nat :=
  match format.alignment with
  | .left => 0
  | .right => space
  | .center => space / 2

def applyChars (format : FieldFormat) (text : List Char) : List Char :=
  let kept := match format.precision with
    | none => text
    | some count => text.take count
  let space := format.width - kept.length
  let before := format.leading space
  List.replicate before format.fill ++ kept ++ List.replicate (space - before) format.fill

def apply (format : FieldFormat) (text : String) : String :=
  String.ofList (format.applyChars text.toList)

end FieldFormat

abbrev Bytes := List UInt8

namespace Utf8

def encodeChars (chars : List Char) : Bytes :=
  chars.flatMap String.utf8EncodeChar

def encode (text : String) : Bytes :=
  encodeChars text.toList

def decode? (bytes : Bytes) : Option String :=
  String.fromUTF8? ⟨bytes.toArray⟩

@[simp] theorem encodeChars_nil : encodeChars [] = [] := rfl

@[simp] theorem encodeChars_cons (c : Char) (rest : List Char) :
    encodeChars (c :: rest) = String.utf8EncodeChar c ++ encodeChars rest := rfl

@[simp] theorem encodeChars_append (first second : List Char) :
    encodeChars (first ++ second) = encodeChars first ++ encodeChars second := by
  simp [encodeChars]

end Utf8

end KeyedLog
