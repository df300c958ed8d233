import KeyedLog.Quantity
import KeyedLog.Toml.Value

/-! The parts of a TOML document that hold no other values: names, strings, numbers and times. -/

namespace KeyedLog.Toml

abbrev Reader (α : Type) := List Char → Option (α × List Char)

def isSpace (c : Char) : Bool :=
  c == ' ' || c == '\t'

def skipSpace (text : List Char) : List Char :=
  text.dropWhile isSpace

def newline? : List Char → Option (List Char)
  | '\n' :: rest => some rest
  | '\r' :: '\n' :: rest => some rest
  | _ => none

def skipLines : List Char → List Char
  | ' ' :: rest => skipLines rest
  | '\t' :: rest => skipLines rest
  | '\n' :: rest => skipLines rest
  | '\r' :: '\n' :: rest => skipLines rest
  | text => text

def isPlain (c : Char) : Bool :=
  c == '\t' || (0x20 ≤ c.toNat && c.toNat ≤ 0x7E) || 0x80 ≤ c.toNat

def isNameChar (c : Char) : Bool :=
  c.isAlphanum || c == '_' || c == '-'

def hexValue? (c : Char) : Option Nat :=
  if '0' ≤ c && c ≤ '9' then some (c.toNat - '0'.toNat)
  else if 'a' ≤ c && c ≤ 'f' then some (c.toNat - 'a'.toNat + 10)
  else if 'A' ≤ c && c ≤ 'F' then some (c.toNat - 'A'.toNat + 10)
  else none

def codePoint (count : Nat) : Reader Char := fun text => do
  let digits := text.take count
  if digits.length < count then none
  let value ← digits.foldlM (fun value c => (16 * value + ·) <$> hexValue? c) 0
  if Nat.isValidChar value then some (Char.ofNat value, text.drop count) else none

def escape : Reader Char
  | '"' :: rest => some ('"', rest)
  | '\\' :: rest => some ('\\', rest)
  | 'b' :: rest => some ('\x08', rest)
  | 'f' :: rest => some ('\x0c', rest)
  | 'n' :: rest => some ('\n', rest)
  | 'r' :: rest => some ('\r', rest)
  | 't' :: rest => some ('\t', rest)
  | 'u' :: rest => codePoint 4 rest
  | 'U' :: rest => codePoint 8 rest
  | _ => none

def basicString : (fuel : Nat) → (seen : List Char) → Reader String
  | 0, _, _ => none
  | _ + 1, _, [] => none
  | fuel + 1, seen, c :: rest =>
    if c = '"' then some (String.ofList seen.reverse, rest)
    else if c = '\\' then do
      let (c, rest) ← escape rest
      basicString fuel (c :: seen) rest
    else if isPlain c then basicString fuel (c :: seen) rest
    else none

def literalString : Reader String := fun text =>
  let chars := text.takeWhile fun c => c != '\'' && isPlain c
  match text.dropWhile fun c => c != '\'' && isPlain c with
  | '\'' :: rest => some (String.ofList chars, rest)
  | _ => none

/-- A string over several lines, after its opening quotes and the line end that may follow them. Up to two
quotes may stand right before the three that close it. -/
def longString (quote : Char) (escapes : Bool) : (fuel : Nat) → (seen : List Char) → Reader String
  | 0, _, _ => none
  | _ + 1, _, [] => none
  | fuel + 1, seen, c :: rest =>
    if c = quote then
      let quotes := (c :: rest).takeWhile (· == quote)
      let rest := (c :: rest).dropWhile (· == quote)
      if quotes.length < 3 then longString quote escapes fuel (quotes ++ seen) rest
      else if quotes.length ≤ 5 then
        some (String.ofList (quotes.drop 3 ++ seen).reverse, rest)
      else none
    else if c = '\\' ∧ escapes then
      match newline? (skipSpace rest) with
      | some rest => longString quote escapes fuel seen (skipLines rest)
      | none => do
        let (c, rest) ← escape rest
        longString quote escapes fuel (c :: seen) rest
    else if isPlain c then longString quote escapes fuel (c :: seen) rest
    else do
      let rest ← newline? (c :: rest)
      longString quote escapes fuel ('\n' :: seen) rest

def readString : Reader String := fun text =>
  let fuel := text.length + 1
  let trimmed (rest : List Char) : List Char := (newline? rest).getD rest
  match text with
  | '"' :: '"' :: '"' :: rest => longString '"' true fuel [] (trimmed rest)
  | '"' :: rest => basicString fuel [] rest
  | '\'' :: '\'' :: '\'' :: rest => longString '\'' false fuel [] (trimmed rest)
  | '\'' :: rest => literalString rest
  | _ => none

def readName : Reader String := fun text =>
  match text with
  | '"' :: rest => basicString (text.length + 1) [] rest
  | '\'' :: rest => literalString rest
  | _ =>
    let name := text.takeWhile isNameChar
    if name.isEmpty then none else some (String.ofList name, text.dropWhile isNameChar)

def maxKeyParts : Nat := 79

def keyParts : (fuel : Nat) → (seen : List String) → Reader (List String)
  | 0, _, _ => none
  | fuel + 1, seen, text => do
    let (name, rest) ← readName (skipSpace text)
    match skipSpace rest with
    | '.' :: rest => keyParts fuel (name :: seen) rest
    | rest => return ((name :: seen).reverse, rest)

def readKey : Reader (List String × String) := fun text => do
  let (parts, rest) ← keyParts maxKeyParts [] text
  let name ← parts.getLast?
  return ((parts.dropLast, name), rest)

def moreDigits (isDigit : Char → Bool) (seen : List Char) : Reader (List Char)
  | [] => some (seen.reverse, [])
  | ['_'] => none
  | '_' :: c :: rest => if isDigit c then moreDigits isDigit (c :: seen) rest else none
  | c :: rest =>
    if isDigit c then moreDigits isDigit (c :: seen) rest else some (seen.reverse, c :: rest)

def someDigits (isDigit : Char → Bool) : Reader (List Char)
  | [] => none
  | c :: rest => if isDigit c then moreDigits isDigit [c] rest else none

def wholePart : Reader (List Char)
  | '0' :: rest => some (['0'], rest)
  | text => someDigits Natural.isDigit text

def boundedInteger (n : Int) : Option Value :=
  if -Int.pow 2 63 ≤ n && n < Int.pow 2 63 then some (.integer n) else none

def basedInteger (base : Nat) : Reader Value := fun text => do
  let isDigit (c : Char) : Bool := match hexValue? c with
    | some value => value < base
    | none => false
  let (digits, rest) ← someDigits isDigit text
  let value := digits.foldl (fun value c => base * value + (hexValue? c).getD 0) 0
  return (← boundedInteger value, rest)

def exponentPart : Reader (Option Int)
  | c :: rest =>
    if c = 'e' ∨ c = 'E' then do
      let (negative, rest) := match rest with
        | '+' :: rest => (false, rest)
        | '-' :: rest => (true, rest)
        | _ => (false, rest)
      let (digits, rest) ← someDigits Natural.isDigit rest
      let size : Int := Nat.ofDigitChars 10 digits 0
      return (some (if negative then -size else size), rest)
    else some (none, c :: rest)
  | [] => some (none, [])

/-- A number without sign. A positive one may not exceed the range of double-precision numbers. -/
def unsignedNumber (negative : Bool) : Reader Value := fun text =>
  match text with
  | 'i' :: 'n' :: 'f' :: rest => some (.float, rest)
  | 'n' :: 'a' :: 'n' :: rest => some (.float, rest)
  | _ => do
    let (whole, rest) ← wholePart text
    let (fraction, rest) ← match rest with
      | '.' :: rest => someDigits Natural.isDigit rest
      | _ => some ([], rest)
    let (exponent, rest) ← exponentPart rest
    if fraction.isEmpty && exponent.isNone then
      let size : Int := Nat.ofDigitChars 10 whole 0
      return (← boundedInteger (if negative then -size else size), rest)
    else if !negative && (Decimal.ofParts whole fraction (exponent.getD 0)).exceedsDouble then none
    else return (.float, rest)

def readNumber : Reader Value := fun text =>
  match text with
  | '0' :: 'x' :: rest => basedInteger 16 rest
  | '0' :: 'o' :: rest => basedInteger 8 rest
  | '0' :: 'b' :: rest => basedInteger 2 rest
  | '+' :: rest => unsignedNumber false rest
  | '-' :: rest => unsignedNumber true rest
  | _ => unsignedNumber false text

def fixedDigits (count least most : Nat) : Reader Nat := fun text =>
  let digits := text.take count
  let value := Nat.ofDigitChars 10 digits 0
  if digits.length = count && digits.all Natural.isDigit && least ≤ value && value ≤ most then
    some (value, text.drop count)
  else none

def readChar (expected : Char) : Reader Unit
  | c :: rest => if c = expected then some ((), rest) else none
  | [] => none

def daysIn (year month : Nat) : Nat :=
  if month = 2 then
    if year % 4 = 0 ∧ (year % 100 ≠ 0 ∨ year % 400 = 0) then 29 else 28
  else if month = 4 ∨ month = 6 ∨ month = 9 ∨ month = 11 then 30
  else 31

def readDate : Reader Unit := fun text => do
  let (year, rest) ← fixedDigits 4 0 9999 text
  let (_, rest) ← readChar '-' rest
  let (month, rest) ← fixedDigits 2 1 12 rest
  let (_, rest) ← readChar '-' rest
  let (_, rest) ← fixedDigits 2 1 (daysIn year month) rest
  return ((), rest)

def readTime : Reader Unit := fun text => do
  let (_, rest) ← fixedDigits 2 0 23 text
  let (_, rest) ← readChar ':' rest
  let (_, rest) ← fixedDigits 2 0 59 rest
  let (_, rest) ← readChar ':' rest
  let (_, rest) ← fixedDigits 2 0 60 rest
  match rest with
  | '.' :: c :: more => if Natural.isDigit c then some ((), more.dropWhile Natural.isDigit) else some ((), rest)
  | _ => some ((), rest)

def readOffset : Reader Unit := fun text =>
  let clock (rest : List Char) : Option (Unit × List Char) := do
    let (_, rest) ← fixedDigits 2 0 23 rest
    let (_, rest) ← readChar ':' rest
    let (_, rest) ← fixedDigits 2 0 59 rest
    return ((), rest)
  match text with
  | 'Z' :: rest => some ((), rest)
  | 'z' :: rest => some ((), rest)
  | '+' :: rest => clock rest
  | '-' :: rest => clock rest
  | _ => some ((), text)

def readMoment : Reader Value := fun text => do
  let (_, rest) ← readDate text
  match rest with
  | c :: more =>
    if c = 'T' ∨ c = 't' ∨ c = ' ' then
      match readTime more with
      | some (_, rest) => do
        let (_, rest) ← readOffset rest
        return (.time, rest)
      | none => return (.time, rest)
    else return (.time, rest)
  | [] => return (.time, rest)

def readNumeric : Reader Value := fun text =>
  let digits := (text.takeWhile Natural.isDigit).length
  match digits, (text.drop digits).head? with
  | 4, some '-' => readMoment text
  | 2, some ':' => (readTime text).map fun (_, rest) => (.time, rest)
  | _, _ => readNumber text

end KeyedLog.Toml
