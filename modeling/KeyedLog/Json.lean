import KeyedLog.Text
import KeyedLog.Quantity

/-!
JSON: writing it, and reading it from left to right. The first thing wrong with a text decides how reading
it fails.
-/

namespace KeyedLog.Json

def hexPair (n : Nat) : List Char :=
  [Nat.digitChar (n / 16), Nat.digitChar (n % 16)]

/-- One character inside a string. Only quotes, backslashes and control characters below the space are
escaped. -/
def escape (c : Char) : List Char :=
  match c with
  | '"' => ['\\', '"']
  | '\\' => ['\\', '\\']
  | '\x08' => ['\\', 'b']
  | '\x0c' => ['\\', 'f']
  | '\n' => ['\\', 'n']
  | '\r' => ['\\', 'r']
  | '\t' => ['\\', 't']
  | c => if c.toNat < 0x20 then ['\\', 'u', '0', '0'] ++ hexPair c.toNat else [c]

def string (text : String) : List Char :=
  '"' :: text.toList.flatMap escape ++ ['"']

def natural (n : Nat) : List Char :=
  Nat.toDigits 10 n

def commaSeparated : List (List Char) → List Char
  | [] => []
  | [item] => item
  | item :: rest => item ++ ',' :: commaSeparated rest

def member (name : String) (value : List Char) : List Char :=
  string name ++ ':' :: value

def object (members : List (List Char)) : List Char :=
  '\x7b' :: commaSeparated members ++ ['\x7d']

inductive Fault where
  | malformed
  | mismatched
  | truncated
  deriving DecidableEq, Repr

abbrev Reader (α : Type) := List Char → Except Fault (α × List Char)

def isSpace (c : Char) : Bool :=
  c == ' ' || c == '\n' || c == '\t' || c == '\r'

def skipSpace (text : List Char) : List Char :=
  text.dropWhile isSpace

def wordRest : (expected : List Char) → Reader Unit
  | [], text => .ok ((), text)
  | _ :: _, [] => .error .truncated
  | e :: expected, c :: rest => if c = e then wordRest expected rest else .error .malformed

def hexValue? (c : Char) : Option Nat :=
  if '0' ≤ c && c ≤ '9' then some (c.toNat - '0'.toNat)
  else if 'a' ≤ c && c ≤ 'f' then some (c.toNat - 'a'.toNat + 10)
  else if 'A' ≤ c && c ≤ 'F' then some (c.toNat - 'A'.toNat + 10)
  else none

def endsWithinFour (text : List Char) : Bool :=
  (Utf8.encodeChars (text.take 4)).length < 4

def isLead (unit : Nat) : Bool :=
  0xD800 ≤ unit && unit ≤ 0xDBFF

def isTrail (unit : Nat) : Bool :=
  0xDC00 ≤ unit && unit ≤ 0xDFFF

def joinUnits (lead trail : Nat) : Char :=
  Char.ofNat (0x10000 + (lead - 0xD800) * 0x400 + (trail - 0xDC00))

def simpleEscape? : Char → Option Char
  | '"' => some '"'
  | '\\' => some '\\'
  | '/' => some '/'
  | 'b' => some '\x08'
  | 'f' => some '\x0c'
  | 'n' => some '\n'
  | 'r' => some '\r'
  | 't' => some '\t'
  | _ => none

inductive StringState where
  | plain
  | escape
  /-- Inside the four digits of a code unit: how many are missing, the value so far, and the lead unit
  that waits for this one. -/
  | digits (missing : Nat) (value : Nat) (lead : Option Nat)
  | afterLead (lead : Nat)
  | afterLeadEscape (lead : Nat)

/-- The characters of a string up to its closing quote. `seen` holds, in reverse, those read so far. -/
def stringRest : (state : StringState) → (seen : List Char) → Reader (List Char)
  | _, _, [] => .error .truncated
  | .plain, seen, c :: rest =>
    if c = '"' then .ok (seen.reverse, rest)
    else if c = '\\' then stringRest .escape seen rest
    else if c.toNat < 0x20 then .error .malformed
    else stringRest .plain (c :: seen) rest
  | .escape, seen, c :: rest =>
    if c = 'u' then
      if endsWithinFour rest then .error .truncated else stringRest (.digits 4 0 none) seen rest
    else
      match simpleEscape? c with
      | some plain => stringRest .plain (plain :: seen) rest
      | none => .error .malformed
  | .digits missing value lead, seen, c :: rest =>
    match hexValue? c with
    | none => .error .malformed
    | some digit =>
      let value := 16 * value + digit
      if missing > 1 then stringRest (.digits (missing - 1) value lead) seen rest
      else
        match lead with
        | none =>
          if isTrail value then .error .malformed
          else if isLead value then stringRest (.afterLead value) seen rest
          else stringRest .plain (Char.ofNat value :: seen) rest
        | some lead =>
          if isTrail value then stringRest .plain (joinUnits lead value :: seen) rest
          else .error .malformed
  | .afterLead lead, seen, c :: rest =>
    if c = '\\' then stringRest (.afterLeadEscape lead) seen rest else .error .malformed
  | .afterLeadEscape lead, seen, c :: rest =>
    if c = 'u' then
      if endsWithinFour rest then .error .truncated else stringRest (.digits 4 0 (some lead)) seen rest
    else .error .malformed

def stringBody : Reader String := fun text => do
  let (chars, rest) ← stringRest .plain [] text
  return (String.ofList chars, rest)

structure Numeral where
  negative : Bool
  whole : List Char
  fraction : List Char
  exponent : Option Int
  deriving Repr

namespace Numeral

def isWhole (numeral : Numeral) : Bool :=
  numeral.fraction.isEmpty && numeral.exponent.isNone

def exceedsDouble (numeral : Numeral) : Bool :=
  (Decimal.ofParts numeral.whole numeral.fraction (numeral.exponent.getD 0)).exceedsDouble

end Numeral

def someDigits : Reader (List Char) := fun text =>
  match text with
  | [] => .error .truncated
  | c :: _ => if Natural.isDigit c then .ok (text.span Natural.isDigit) else .error .malformed

def wholePart : Reader (List Char) := fun text =>
  match text with
  | [] => .error .truncated
  | '0' :: rest =>
    match rest with
    | c :: _ => if Natural.isDigit c then .error .malformed else .ok (['0'], rest)
    | [] => .ok (['0'], rest)
  | c :: _ => if Natural.isDigit c then .ok (text.span Natural.isDigit) else .error .malformed

def fractionPart : Reader (List Char) := fun text =>
  match text with
  | '.' :: rest => someDigits rest
  | _ => .ok ([], text)

def exponentPart : Reader (Option Int) := fun text =>
  match text with
  | c :: rest =>
    if c = 'e' ∨ c = 'E' then
      let (negative, rest) := match rest with
        | '+' :: rest => (false, rest)
        | '-' :: rest => (true, rest)
        | _ => (false, rest)
      do
        let (digits, rest) ← someDigits rest
        let size : Int := Nat.ofDigitChars 10 digits 0
        return (some (if negative then -size else size), rest)
    else .ok (none, text)
  | [] => .ok (none, text)

def numeralRest (negative : Bool) : Reader Numeral := fun text => do
  let (whole, rest) ← wholePart text
  let (fraction, rest) ← fractionPart rest
  let (exponent, rest) ← exponentPart rest
  let numeral : Numeral := ⟨negative, whole, fraction, exponent⟩
  if numeral.exceedsDouble then .error .malformed else return (numeral, rest)

/-- How reading fails at a value of the wrong kind: first the value has to be one. `text` starts with the
value. -/
def refuseKind (text : List Char) : Fault :=
  let outcome : Except Fault Unit := do
    match text with
    | [] => .error .truncated
    | 'n' :: rest => discard <| wordRest ['u', 'l', 'l'] rest
    | 't' :: rest => discard <| wordRest ['r', 'u', 'e'] rest
    | 'f' :: rest => discard <| wordRest ['a', 'l', 's', 'e'] rest
    | '-' :: rest => discard <| numeralRest true rest
    | '"' :: rest => discard <| stringBody rest
    | '[' :: _ => pure ()
    | '\x7b' :: _ => pure ()
    | c :: _ => if Natural.isDigit c then discard <| numeralRest false text else .error .malformed
  match outcome with
  | .ok () => .mismatched
  | .error fault => fault

def readString : Reader String := fun text =>
  match skipSpace text with
  | '"' :: rest => stringBody rest
  | text => .error (refuseKind text)

def readWord : Reader UInt64 := fun text =>
  match skipSpace text with
  | '-' :: rest => do
    discard <| numeralRest true rest
    .error .mismatched
  | text =>
    match text with
    | c :: _ =>
      if Natural.isDigit c then do
        let (numeral, rest) ← numeralRest false text
        let value := Nat.ofDigitChars 10 numeral.whole 0
        if numeral.isWhole && value < UInt64.size then return (UInt64.ofNat value, rest)
        else .error .mismatched
      else .error (refuseKind text)
    | [] => .error .truncated

def readColon : Reader Unit := fun text =>
  match skipSpace text with
  | ':' :: rest => .ok ((), rest)
  | [] => .error .truncated
  | _ => .error .malformed

/-- The members of an object whose opening brace has been seen. `field` reads what follows a name, its
colon included, and adds it to what has been gathered so far. `fuel` bounds the number of members. -/
def membersFrom {σ : Type} (field : σ → String → Reader σ) :
    (fuel : Nat) → (first : Bool) → σ → Reader σ
  | 0, _, _, _ => .error .truncated
  | fuel + 1, first, gathered, text =>
    match skipSpace text with
    | [] => .error .truncated
    | '\x7d' :: rest => .ok (gathered, rest)
    | c :: rest => do
      let next ← if first then .ok (c :: rest)
        else if c = ',' then .ok (skipSpace rest)
        else .error .malformed
      match next with
      | [] => .error .truncated
      | '"' :: rest =>
        let (name, rest) ← stringBody rest
        let (gathered, rest) ← field gathered name rest
        membersFrom field fuel false gathered rest
      | _ => .error .malformed

def members {σ : Type} (field : σ → String → Reader σ) (start : σ) : Reader σ := fun text =>
  membersFrom field (text.length + 1) true start text

def nextElement (first : Bool) : Reader Bool := fun text =>
  match skipSpace text with
  | [] => .error .truncated
  | ']' :: rest => .ok (false, ']' :: rest)
  | c :: rest =>
    if first then .ok (true, c :: rest)
    else if c = ',' then
      match skipSpace rest with
      | [] => .error .truncated
      | ']' :: _ => .error .malformed
      | rest => .ok (true, rest)
    else .error .malformed

def endArray : Reader Unit := fun text =>
  match skipSpace text with
  | ']' :: rest => .ok ((), rest)
  | [] => .error .truncated
  | _ => .error .malformed

def finish {α : Type} : α × List Char → Except Fault α
  | (value, rest) => if (skipSpace rest).isEmpty then .ok value else .error .malformed

end KeyedLog.Json
