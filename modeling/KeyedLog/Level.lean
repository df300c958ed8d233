import KeyedLog.Text

/-! How severe an event is. -/

namespace KeyedLog

inductive Level where
  | trace
  | debug
  | info
  | warn
  | error
  deriving DecidableEq, Repr

instance : Inhabited Level := ⟨.info⟩

namespace Level

def severity : Level → Nat
  | trace => 0
  | debug => 1
  | info => 2
  | warn => 3
  | error => 4

instance : LE Level := ⟨fun first second => first.severity ≤ second.severity⟩

instance : LT Level := ⟨fun first second => first.severity < second.severity⟩

instance (first second : Level) : Decidable (first ≤ second) :=
  inferInstanceAs (Decidable (first.severity ≤ second.severity))

instance (first second : Level) : Decidable (first < second) :=
  inferInstanceAs (Decidable (first.severity < second.severity))

def compare (first second : Level) : Ordering :=
  Ord.compare first.severity second.severity

def name : Level → String
  | trace => "TRACE"
  | debug => "DEBUG"
  | info => "INFO"
  | warn => "WARN"
  | error => "ERROR"

def ofName? : String → Option Level
  | "TRACE" => some trace
  | "DEBUG" => some debug
  | "INFO" => some info
  | "WARN" => some warn
  | "ERROR" => some error
  | _ => none

theorem ofName?_name (level : Level) : ofName? level.name = some level := by
  cases level <;> rfl

structure Unknown where
  text : String
  deriving DecidableEq, Repr

def Unknown.message (unknown : Unknown) : String :=
  "unknown log level: " ++ unknown.text

/-- Read a level as people write it: white space around it and the case of its letters do not matter,
and `WARNING` is another word for `WARN`. -/
def parse (text : String) : Except Unknown Level :=
  match Text.upper (Text.trim text) with
  | "WARNING" => .ok warn
  | word =>
    match ofName? word with
    | some level => .ok level
    | none => .error ⟨text⟩

def format (level : Level) (field : FieldFormat) : String :=
  field.apply level.name

end Level

end KeyedLog
