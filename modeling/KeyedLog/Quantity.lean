import KeyedLog.Text
import KeyedLog.Text.Quoted

/-!
Natural numbers as people write them in settings, decimal numerals with an exponent, lengths of time, which are
counted in milliseconds without an upper bound, and numbers of bytes, written plainly or with a unit.
-/

namespace KeyedLog.Natural

inductive Fault where
  | empty
  | invalidDigit
  | tooLarge
  deriving DecidableEq, Repr

def Fault.message : Fault → String
  | empty => "cannot parse integer from empty string"
  | invalidDigit => "invalid digit found in string"
  | tooLarge => "number too large to fit in target type"

def isDigit (c : Char) : Bool :=
  '0' ≤ c && c ≤ '9'

def digitValue (c : Char) : Nat :=
  c.toNat - '0'.toNat

def appendDigits (bound : Nat) : (value : Nat) → List Char → Except Fault Nat
  | value, [] => .ok value
  | value, c :: rest =>
    if !isDigit c then .error .invalidDigit
    else if 10 * value + digitValue c < bound then appendDigits bound (10 * value + digitValue c) rest
    else .error .tooLarge

def parseChars (bound : Nat) : List Char → Except Fault Nat
  | [] => .error .empty
  | ['+'] => .error .invalidDigit
  | '+' :: digits => appendDigits bound 0 digits
  | digits => appendDigits bound 0 digits

def parseWord64 (text : String) : Except Fault UInt64 :=
  (parseChars UInt64.size text.toList).map UInt64.ofNat

def parseWord32 (text : String) : Except Fault UInt32 :=
  (parseChars UInt32.size text.toList).map UInt32.ofNat

def saturate64 (n : Nat) : UInt64 :=
  UInt64.ofNat (min n (UInt64.size - 1))

theorem toNat_saturate64 (n : Nat) : (saturate64 n).toNat = min n (UInt64.size - 1) := by
  have size : UInt64.size = 18446744073709551616 := rfl
  exact UInt64.toNat_ofNat_of_lt (by omega)

end KeyedLog.Natural

namespace KeyedLog

structure Decimal where
  digits : List Char
  scale : Int
  deriving Repr

namespace Decimal

def ofParts (whole fraction : List Char) (exponent : Int) : Decimal :=
  ⟨whole ++ fraction, exponent - fraction.length⟩

/-- The number does not round to any double-precision number: it is at least the largest of them and half
a step more. -/
def exceedsDouble (decimal : Decimal) : Bool :=
  let digits := decimal.digits.dropWhile (· == '0')
  let places : Int := digits.length + decimal.scale
  if digits.isEmpty || places < 300 then false
  else if places > 400 then true
  else
    let significand := Nat.ofDigitChars 10 digits 0
    let bound := Nat.pow 2 1024 - Nat.pow 2 970
    if decimal.scale ≥ 0 then significand * Nat.pow 10 decimal.scale.toNat ≥ bound
    else significand ≥ bound * Nat.pow 10 (-decimal.scale).toNat

end Decimal

abbrev Millis := Nat

namespace Millis

def ofSeconds (seconds : Nat) : Millis :=
  1000 * seconds

def seconds (duration : Millis) : Nat :=
  duration / 1000

def fractionDigits (millis : Nat) : List Char :=
  ([millis / 100, millis / 10 % 10, millis % 10].map Nat.digitChar).reverse.dropWhile (· == '0')
    |>.reverse

def describe (duration : Millis) : String :=
  if duration = 0 then "0ns"
  else if duration < 1000 then duration.repr ++ "ms"
  else
    let rest := fractionDigits (duration % 1000)
    let fraction := if rest.isEmpty then "" else "." ++ String.ofList rest
    duration.seconds.repr ++ fraction ++ "s"

end Millis

/-- Why something does not go on now. -/
inductive Pause where
  | sleep (duration : Millis)
  /-- Others do something for it first. -/
  | away
  deriving DecidableEq, Repr

structure ByteSize where
  bytes : UInt64
  deriving DecidableEq, Repr

namespace ByteSize

inductive Fault where
  | invalid (text : String)
  | unknownUnit (unit text : String)
  | overflow (text : String)
  deriving DecidableEq, Repr

def Fault.message : Fault → String
  | invalid text => "invalid byte size " ++ Quoted.quote text
  | unknownUnit unit text => "unknown size unit " ++ Quoted.quote unit ++ " in " ++ Quoted.quote text
  | overflow text => "byte size " ++ Quoted.quote text ++ " overflows"

def unitFactor? : String → Option Nat
  | "" => some 1
  | "B" => some 1
  | "KB" => some 1024
  | "MB" => some (Nat.pow 1024 2)
  | "GB" => some (Nat.pow 1024 3)
  | _ => none

/-- Read a size: digits and then a unit, with white space around either and letters of any case. -/
def parse (text : String) : Except Fault ByteSize :=
  let trimmed := Text.trimChars text.toList
  match Natural.parseChars UInt64.size (trimmed.takeWhile Natural.isDigit) with
  | .error _ => .error (.invalid text)
  | .ok value =>
    let unit := Text.upper (Text.trim (String.ofList (trimmed.dropWhile Natural.isDigit)))
    match unitFactor? unit with
    | none => .error (.unknownUnit unit text)
    | some factor =>
      if value * factor < UInt64.size then .ok ⟨UInt64.ofNat (value * factor)⟩
      else .error (.overflow text)

def format (size : ByteSize) : String :=
  size.bytes.toNat.repr ++ "B"

end ByteSize

end KeyedLog
