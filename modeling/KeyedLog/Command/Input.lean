import KeyedLog.Event.Reading
import KeyedLog.Service

/-! Events on lines of input. A line that holds no event is in no other line's way; only octets that are no text
end the input. -/

namespace KeyedLog.Command

def newline : UInt8 := 10

def carriageReturn : UInt8 := 13

/-- The lines of an input, each with its end. The last line may have none. -/
def lines : Bytes → List Bytes
  | [] => []
  | byte :: rest =>
    if byte = newline then [byte] :: lines rest
    else
      match lines rest with
      | [] => [[byte]]
      | line :: more => (byte :: line) :: more

def body (line : Bytes) : Bytes :=
  if line.getLast? = some newline then
    if line.dropLast.getLast? = some carriageReturn then line.dropLast.dropLast else line.dropLast
  else line

def readLine? (now : UInt64) (line : String) : Option Event :=
  if Text.isBlank line then none
  else
    match Event.read line with
    | .ok draft => draft.complete now
    | .error _ => none

def takeText (service : Service) (now : UInt64) (line : String) : Service :=
  match readLine? now line with
  | some event => (service.dispatch event).2
  | none => service

def takeLine? (service : Service) (now : UInt64) (line : Bytes) : Option Service :=
  (Utf8.decode? (body line)).map (takeText service now)

/-- Take in lines as they come, as far as they are text. `await` waits for the next line and says when it was read, and
`fuel` bounds how many there are. -/
@[specialize] def takeFrom {m : Type → Type} [Monad m] {σ : Type} (await : σ → m (Option (UInt64 × Bytes) × σ))
    (take : σ → UInt64 → Bytes → m (Option σ)) : (fuel : Nat) → σ → m σ
  | 0, state => return state
  | fuel + 1, state => do
    match ← await state with
    | (none, state) => return state
    | (some (now, line), state) =>
      match ← take state now line with
      | some state => takeFrom await take fuel state
      | none => return state

def takeLines (service : Service) (now : UInt64) (lines : List Bytes) : Service :=
  let await : Service × List Bytes → Id (Option (UInt64 × Bytes) × Service × List Bytes) := fun (service, rest) =>
    return (rest.head?.map (now, ·), service, rest.tail)
  let take : Service × List Bytes → UInt64 → Bytes → Id (Option (Service × List Bytes)) := fun (service, rest) now line =>
    return (takeLine? service now line).map (·, rest)
  (takeFrom await take lines.length (service, lines)).run.1

end KeyedLog.Command
