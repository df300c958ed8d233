/-!
The values of a TOML document, and putting its tables together. A table is defined once: neither a header
nor a dotted key may add to a table that is already complete.
-/

namespace KeyedLog.Toml

/-- How a table came about. It decides what may be added to it later. -/
inductive TableKind where
  | inline
  | header
  /-- On the way to a table that has a header. -/
  | inferred
  | dotted
  deriving DecidableEq, Repr

/-- A value. Of floating-point numbers and of times only the kind is kept. -/
inductive Value where
  | string (text : String)
  | integer (number : Int)
  | float
  | boolean (flag : Bool)
  | time
  | array (items : List Value)
  /-- The tables that headers in double brackets add one after the other. -/
  | tables (items : List Value)
  | table (kind : TableKind) (entries : List (String × Value))
  deriving Repr, Inhabited

abbrev Entries := List (String × Value)

def Entries.put (name : String) (value : Value) : Entries → Entries
  | [] => [(name, value)]
  | entry :: rest =>
    if entry.1 = name then (name, value) :: rest else entry :: Entries.put name value rest

/-- Change the table at the end of a path. Tables that are missing on the way come into being with the kind
`fresh`; `passes` tells which existing ones may be passed through. Of an array of tables the last counts. -/
def descend (fresh : TableKind) (passes : TableKind → Bool)
    (change : TableKind → Entries → Option Entries) :
    (kind : TableKind) → (path : List String) → Entries → Option Entries
  | kind, [], entries => change kind entries
  | _, name :: path, entries =>
    match List.lookup name entries with
    | none => do
      let inner ← descend fresh passes change fresh path []
      return Entries.put name (.table fresh inner) entries
    | some (.table kind inner) =>
      if passes kind then do
        let inner ← descend fresh passes change kind path inner
        return Entries.put name (.table kind inner) entries
      else none
    | some (.tables items) =>
      match items.getLast? with
      | some (.table kind inner) => do
        let inner ← descend fresh passes change kind path inner
        return Entries.put name (.tables (items.dropLast ++ [.table kind inner])) entries
      | _ => none
    | some _ => none

/-- Add a value under a dotted key. The way leads only through tables without a header, and the table that
takes the value has to be one that dotted keys made, unless the key has no dots. -/
def insertDotted (path : List String) (name : String) (value : Value) (entries : Entries) :
    Option Entries :=
  descend .dotted (fun kind => kind == .inferred || kind == .dotted)
    (fun kind entries =>
      if (path.isEmpty || kind == .dotted) && (List.lookup name entries).isNone then
        some (Entries.put name value entries)
      else none)
    .header path entries

def atHeader (path : List String) (change : Entries → Option Entries) (entries : Entries) :
    Option Entries :=
  descend .inferred (fun kind => kind != .inline) (fun _ entries => change entries) .header path entries

inductive Statement where
  | pair (path : List String) (name : String) (value : Value)
  | tableHeader (path : List String) (name : String)
  | arrayHeader (path : List String) (name : String)

structure Assembly where
  root : Entries := []
  header : Option Statement := none
  current : Entries := []

namespace Assembly

def close (assembly : Assembly) : Option Entries :=
  match assembly.header with
  | some (.tableHeader path name) =>
    atHeader path (fun entries => some (Entries.put name (.table .header assembly.current) entries))
      assembly.root
  | some (.arrayHeader path name) =>
    atHeader path (fun entries =>
      match List.lookup name entries with
      | none => some (Entries.put name (.tables [.table .header assembly.current]) entries)
      | some (.tables items) =>
        some (Entries.put name (.tables (items ++ [.table .header assembly.current])) entries)
      | some _ => none) assembly.root
  | _ => some assembly.current

def reopen (path : List String) (name : String) (root : Entries) : Option Entries :=
  let found : Entries → Option Entries := fun entries =>
    match List.lookup name entries with
    | none => some []
    | some (.table .inferred inner) => some inner
    | some _ => none
  let rec follow : List String → Entries → Option Entries
    | [], entries => found entries
    | step :: rest, entries =>
      match List.lookup step entries with
      | some (.table _ inner) => follow rest inner
      | some (.tables items) =>
        match items.getLast? with
        | some (.table _ inner) => follow rest inner
        | _ => none
      | some _ => none
      | none => some []
  follow path root

def add (assembly : Assembly) : Statement → Option Assembly
  | .pair path name value => do
    return { assembly with current := ← insertDotted path name value assembly.current }
  | .tableHeader path name => do
    let root ← assembly.close
    let current ← reopen path name root
    return ⟨root, some (.tableHeader path name), current⟩
  | .arrayHeader path name => do
    let root ← assembly.close
    return ⟨root, some (.arrayHeader path name), []⟩

end Assembly

def assemble (statements : List Statement) : Option Entries := do
  (← statements.foldlM Assembly.add {}).close

def inlineTable (pairs : List (List String × String × Value)) : Option Value := do
  let entries ← pairs.foldlM (fun entries (path, name, value) => insertDotted path name value entries) []
  return .table .inline entries

end KeyedLog.Toml
