import KeyedLog.Json

/-! Passing over a value nobody asked for. It has to be JSON, but it may be nested to any depth, its
numbers may have any size, and its strings may name code units that stand for no character. -/

namespace KeyedLog.Json

inductive Bracket where
  | array
  | object
  deriving DecidableEq, Repr

def Bracket.closer : Bracket → Char
  | array => ']'
  | object => '\x7d'

inductive SkipState where
  | plain
  | escape
  | digits (missing : Nat)

def skipString : SkipState → Reader Unit
  | _, [] => .error .truncated
  | .plain, c :: rest =>
    if c = '"' then .ok ((), rest)
    else if c = '\\' then skipString .escape rest
    else if c.toNat < 0x20 then .error .malformed
    else skipString .plain rest
  | .escape, c :: rest =>
    if c = 'u' then
      if endsWithinFour rest then .error .truncated else skipString (.digits 4) rest
    else if (simpleEscape? c).isSome then skipString .plain rest
    else .error .malformed
  | .digits missing, c :: rest =>
    if (hexValue? c).isNone then .error .malformed
    else if missing > 1 then skipString (.digits (missing - 1)) rest
    else skipString .plain rest

def skipDigits : Reader Unit := fun text =>
  match text with
  | c :: _ => if Natural.isDigit c then .ok ((), text.dropWhile Natural.isDigit) else .error .malformed
  | [] => .error .malformed

def skipExponent : Reader Unit := fun text =>
  match text with
  | c :: rest =>
    if c = 'e' ∨ c = 'E' then
      match rest with
      | '+' :: rest => skipDigits rest
      | '-' :: rest => skipDigits rest
      | rest => skipDigits rest
    else .ok ((), text)
  | [] => .ok ((), text)

def skipNumeral : Reader Unit := fun text => do
  let rest ← match text with
    | '0' :: c :: rest => if Natural.isDigit c then .error .malformed else .ok (c :: rest)
    | _ => (·.2) <$> skipDigits text
  match rest with
  | '.' :: rest => do
    let (_, rest) ← skipDigits rest
    skipExponent rest
  | rest => skipExponent rest

mutual

def skipValue : (fuel : Nat) → List Bracket → Reader Unit
  | 0, _, _ => .error .truncated
  | fuel + 1, enclosing, text =>
    match skipSpace text with
    | [] => .error .truncated
    | '[' :: rest => skipInside fuel enclosing .array true rest
    | '\x7b' :: rest => skipInside fuel enclosing .object true rest
    | c :: rest => do
      let (_, rest) ←
        if c = 'n' then wordRest ['u', 'l', 'l'] rest
        else if c = 't' then wordRest ['r', 'u', 'e'] rest
        else if c = 'f' then wordRest ['a', 'l', 's', 'e'] rest
        else if c = '"' then skipString .plain rest
        else if c = '-' then skipNumeral rest
        else if Natural.isDigit c then skipNumeral (c :: rest)
        else .error .malformed
      skipAfter fuel enclosing rest

def skipAfter : (fuel : Nat) → List Bracket → Reader Unit
  | 0, _, _ => .error .truncated
  | _ + 1, [], text => .ok ((), text)
  | fuel + 1, bracket :: enclosing, text => skipInside fuel enclosing bracket false text

def skipInside : (fuel : Nat) → List Bracket → Bracket → (first : Bool) → Reader Unit
  | 0, _, _, _, _ => .error .truncated
  | fuel + 1, enclosing, bracket, first, text =>
    match skipSpace text with
    | [] => .error .truncated
    | c :: rest =>
      if c = bracket.closer then skipAfter fuel enclosing rest
      else if first then skipItem fuel enclosing bracket (c :: rest)
      else if c = ',' then skipItem fuel enclosing bracket rest
      else .error .malformed

def skipItem : (fuel : Nat) → List Bracket → Bracket → Reader Unit
  | 0, _, _, _ => .error .truncated
  | fuel + 1, enclosing, .array, text => skipValue fuel (.array :: enclosing) text
  | fuel + 1, enclosing, .object, text =>
    match skipSpace text with
    | [] => .error .truncated
    | '"' :: rest => do
      let (_, rest) ← skipString .plain rest
      let (_, rest) ← readColon rest
      skipValue fuel (.object :: enclosing) rest
    | _ => .error .malformed

end

/-- Pass over one value. Each character costs four steps at most. -/
def skip : Reader Unit := fun text =>
  skipValue (4 * (text.length + 1)) [] text

end KeyedLog.Json
