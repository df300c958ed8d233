import KeyedLog.Json
import KeyedLog.Level
import KeyedLog.Text

/-!
Log events, which never change once they are built, and how they are written to a destination. A sink knows
nothing of the layout of a message but the octets it is given.
-/

namespace KeyedLog

def Entries.IsSorted (entries : List (String × String)) : Prop :=
  entries.Pairwise fun first second => first.1 < second.1

/-- The ambient entries an event carries, by name. There is one context for each assignment of values to names. -/
@[ext] structure Context where
  entries : List (String × String)
  sorted : Entries.IsSorted entries
  deriving DecidableEq, Repr

namespace Entries

variable {entries : List (String × String)}

def insert (name value : String) : List (String × String) → List (String × String)
  | [] => [(name, value)]
  | entry :: rest =>
    if entry.1 = name then (name, value) :: rest
    else if name < entry.1 then (name, value) :: entry :: rest
    else entry :: insert name value rest

theorem mem_insert {name value : String} {entry : String × String} (member : entry ∈ insert name value entries) :
    entry.1 = name ∨ entry ∈ entries := by
  induction entries with
  | nil => exact .inl (congrArg Prod.fst (List.mem_singleton.mp member))
  | cons first rest ih =>
      rw [insert] at member
      split at member
      next =>
        rcases List.mem_cons.mp member with rfl | later
        · exact .inl rfl
        · exact .inr (List.mem_cons_of_mem _ later)
      next =>
        split at member
        next =>
          rcases List.mem_cons.mp member with rfl | later
          · exact .inl rfl
          · exact .inr later
        next =>
          rcases List.mem_cons.mp member with rfl | later
          · exact .inr List.mem_cons_self
          · exact (ih later).imp_right (List.mem_cons_of_mem _)

theorem IsSorted.insert (sorted : IsSorted entries) (name value : String) : IsSorted (insert name value entries) := by
  induction entries with
  | nil => exact List.pairwise_singleton ..
  | cons entry rest ih =>
      obtain ⟨above, later⟩ := List.pairwise_cons.mp sorted
      rw [Entries.insert]
      split
      next same => exact List.pairwise_cons.mpr ⟨fun other member => same ▸ above other member, later⟩
      next different =>
        split
        next before =>
          refine List.pairwise_cons.mpr ⟨fun other member => ?_, sorted⟩
          rcases List.mem_cons.mp member with rfl | further
          · exact before
          · exact String.lt_trans before (above other further)
        next notBefore =>
          refine List.pairwise_cons.mpr ⟨fun other member => ?_, ih later⟩
          rcases mem_insert member with rfl | further
          · exact Std.lt_of_le_of_ne (String.not_lt.mp notBefore) different
          · exact above other further

end Entries

namespace Context

instance : EmptyCollection Context := ⟨⟨[], .nil⟩⟩

def get? (context : Context) (name : String) : Option String :=
  List.lookup name context.entries

def insert (name value : String) (context : Context) : Context :=
  ⟨Entries.insert name value context.entries, context.sorted.insert name value⟩

def insertAll (context : Context) (entries : List (String × String)) : Context :=
  entries.foldl (fun context (name, value) => context.insert name value) context

def ofList (entries : List (String × String)) : Context :=
  insertAll ∅ entries

def map {α : Type} (context : Context) (change : String × String → α) : List α :=
  context.entries.map change

end Context

structure Event where
  /-- Milliseconds since the start of 1970. -/
  timestamp : UInt64
  level : Level
  message : String
  context : Context
  deriving DecidableEq, Repr

namespace Event

def new (timestamp : UInt64) (level : Level) (message : String) : Event :=
  ⟨timestamp, level, message, ∅⟩

def withEntry (event : Event) (name value : String) : Event :=
  { event with context := event.context.insert name value }

def withContext (event : Event) (context : Context) : Event :=
  { event with context }

def contextValue? (event : Event) (name : String) : Option String :=
  event.context.get? name

end Event

inductive Encoding where
  | line
  | json
  deriving DecidableEq, Repr

namespace Event

/-- The level takes five columns, so that messages stand below each other. -/
def levelField : FieldFormat :=
  ⟨5, .left, ' ', none⟩

def lineChars (event : Event) : List Char :=
  Nat.toDigits 10 event.timestamp.toNat ++
    ' ' :: levelField.applyChars event.level.name.toList ++
    ' ' :: event.message.toList ++ ['\n']

def jsonChars (event : Event) : List Char :=
  Json.object [
    Json.member "timestamp" (Json.natural event.timestamp.toNat),
    Json.member "level" (Json.string event.level.name),
    Json.member "message" (Json.string event.message),
    Json.member "context" (Json.object (event.context.map fun (name, value) =>
      Json.member name (Json.string value)))]

end Event

namespace Encoding

def chars : Encoding → Event → List Char
  | line, event => event.lineChars
  | json, event => event.jsonChars ++ ['\n']

def encode (encoding : Encoding) (event : Event) : Bytes :=
  Utf8.encodeChars (encoding.chars event)

end Encoding

end KeyedLog
