import KeyedLog.Proofs.Files.Nodes
import KeyedLog.Proofs.Path.Siblings

/-!
Where paths lead. A path that leads to a place keeps leading there as long as no directory is taken away, and the paths
beside it lead to the places beside that one.
-/

namespace KeyedLog

structure Path.IsName (name : List Char) : Prop where
  nonempty : name ≠ []
  whole : '/' ∉ name
  clean : '\x00' ∉ name
  ordinary : name ≠ ['.']
  down : name ≠ Path.above

namespace FileTree

structure KeepsDirectories (before after : FileTree) : Prop where
  home : after.workingDirectory = before.workingDirectory
  directories : ∀ location, before.node? location = some .directory → after.node? location = some .directory

theorem Becomes.keeps_update {before after : FileTree} {nodes : Location → Option FileNode} {location : Location}
    {node : Option FileNode} (kept : ∀ place, before.node? place = some .directory → nodes place = some .directory)
    (free : before.node? location ≠ some .directory)
    (became : before.Becomes after (Function.update nodes location node)) : before.KeepsDirectories after := by
  refine ⟨became.home, ?_⟩
  intro place stands
  have elsewhere : place ≠ location := fun same => free (same ▸ stands)
  rw [became.nodes, Function.update_of_ne elsewhere]
  exact kept place stands

def origin (tree : FileTree) (path : List Char) : Location :=
  if path.head? = some '/' then [] else tree.workingDirectory

theorem origin_directory {tree : FileTree} (sound : tree.IsSound) (path : List Char) :
    tree.node? (tree.origin path) = some .directory := by
  unfold origin
  split
  · rfl
  · exact sound.home

theorem step_ordinary {parent : Location} {name : String} (ordinary : name ≠ ".") (down : name ≠ "..") :
    step parent name =
      if (Utf8.encode name).length > maxNameLength then .error .nameTooLong else .ok (parent ++ [name]) := by
  simp [step, ordinary, down]

theorem step_ordinary_ok {parent location : Location} {name : String} (ordinary : name ≠ ".") (down : name ≠ "..")
    (next : step parent name = .ok location) :
    location = parent ++ [name] ∧ (Utf8.encode name).length ≤ maxNameLength := by
  rw [step_ordinary ordinary down] at next
  split at next
  · simp at next
  next short => exact ⟨(Except.ok.inj next).symm, Nat.le_of_not_lt short⟩

theorem bind_eq_ok {α β : Type} {first : Except IoFault α} {next : α → Except IoFault β} {result : β} :
    first >>= next = .ok result ↔ ∃ value, first = .ok value ∧ next value = .ok result := by
  cases first <;> simp [bind, Except.bind]

theorem follow_cons_ok {tree : FileTree} {start goal : Location} {name : String} {rest : List String} :
    tree.follow start (name :: rest) = .ok goal ↔
      ∃ place, step start name = .ok place ∧ tree.node? place = some .directory ∧ tree.follow place rest = .ok goal := by
  rw [follow, bind_eq_ok]
  refine exists_congr fun place => and_congr_right fun _ => ?_
  cases tree.node? place with
  | none => simp
  | some node => cases node <;> simp

theorem follow_append (tree : FileTree) (start : Location) (first second : List String) :
    tree.follow start (first ++ second) = tree.follow start first >>= fun place => tree.follow place second := by
  induction first generalizing start with
  | nil => rfl
  | cons name rest ih =>
      simp only [List.cons_append, follow]
      cases step start name with
      | error fault => rfl
      | ok place =>
          simp only [bind, Except.bind]
          cases tree.node? place with
          | none => rfl
          | some node =>
              cases node with
              | directory => exact ih place
              | file id content => rfl

def descend (location : Location) (name : String) : Location :=
  if name = "." then location else if name = ".." then location.dropLast else location ++ [name]

def place (tree : FileTree) (path : String) : Location :=
  ((Path.steps path.toList).map String.ofList).foldl descend (tree.origin path.toList)

theorem place_congr {before after : FileTree} (home : after.workingDirectory = before.workingDirectory) (path : String) :
    after.place path = before.place path := by
  simp only [place, origin, home]

theorem step_descend {location next : Location} {name : String} (further : step location name = .ok next) :
    next = descend location name := by
  unfold step at further
  unfold descend
  split at further
  next same => rw [if_pos same, Except.ok.inj further]
  next other =>
    rw [if_neg other]
    split at further
    next up => rw [if_pos up, Except.ok.inj further]
    next down =>
      rw [if_neg down]
      split at further
      · simp at further
      · exact (Except.ok.inj further).symm

theorem follow_place {tree : FileTree} {start location : Location} {names : List String}
    (way : tree.follow start names = .ok location) : location = names.foldl descend start := by
  induction names generalizing start with
  | nil => exact (Except.ok.inj way).symm
  | cons name rest ih =>
      obtain ⟨place, next, -, further⟩ := follow_cons_ok.mp way
      rw [List.foldl_cons, ← step_descend next]
      exact ih further

theorem follow_directory {tree : FileTree} {start place : Location} {names : List String}
    (begins : tree.node? start = some .directory) (way : tree.follow start names = .ok place) :
    tree.node? place = some .directory := by
  induction names generalizing start with
  | nil =>
      cases way
      exact begins
  | cons name rest ih =>
      obtain ⟨location, -, stands, further⟩ := follow_cons_ok.mp way
      exact ih stands further

def passed : Location → List String → List Location
  | _, [] => []
  | location, name :: rest => descend location name :: passed (descend location name) rest

/-- The places that a path comes by on the way to what it names. -/
def way (tree : FileTree) (path : String) : List Location :=
  passed (tree.origin path.toList) ((Path.steps path.toList).map String.ofList).dropLast

theorem follow_kept {before after : FileTree} {start place : Location} {names : List String}
    (kept : ∀ location ∈ passed start names, before.node? location = some .directory → after.node? location = some .directory)
    (way : before.follow start names = .ok place) : after.follow start names = .ok place := by
  induction names generalizing start with
  | nil => exact way
  | cons name rest ih =>
      obtain ⟨location, next, stands, further⟩ := follow_cons_ok.mp way
      obtain rfl := step_descend next
      refine follow_cons_ok.mpr ⟨_, next, kept _ (List.mem_cons_self ..) stands, ih ?_ further⟩
      exact fun later member => kept later (List.mem_cons_of_mem _ member)

theorem follow_mono {before after : FileTree} (kept : before.KeepsDirectories after) {start place : Location}
    {names : List String} (way : before.follow start names = .ok place) : after.follow start names = .ok place :=
  follow_kept (fun location _ => kept.directories location) way

theorem directory_of_passed {tree : FileTree} {start place : Location} {names : List String}
    (way : tree.follow start names = .ok place) : ∀ location ∈ passed start names, tree.node? location = some .directory := by
  induction names generalizing start with
  | nil => simp [passed]
  | cons name rest ih =>
      obtain ⟨location, next, stands, further⟩ := follow_cons_ok.mp way
      obtain rfl := step_descend next
      intro later member
      rcases List.mem_cons.mp member with rfl | member
      · exact stands
      · exact ih further later member

theorem follow_dots {tree : FileTree} {place : Location} (stands : tree.node? place = some .directory) (count : Nat) :
    tree.follow place (List.replicate count ".") = .ok place := by
  induction count with
  | zero => rfl
  | succ count ih => simpa [List.replicate_succ, follow, step, bind, Except.bind, stands] using ih

structure Leads (tree : FileTree) (path : List Char) (directory : Location) : Prop where
  clean : '\x00' ∉ path
  short : (Utf8.encodeChars path).length < maxPathLength
  way : tree.follow (tree.origin path) ((Path.steps path).map String.ofList) = .ok directory

/-- The path of a place, whether something stands there or not. -/
structure Names (tree : FileTree) (path : String) (parent : Location) (name : String) : Prop where
  slot : tree.slot path = .ok ⟨parent, some name, false⟩
  short : (Utf8.encode name).length ≤ maxNameLength

theorem Leads.mono {before after : FileTree} (kept : before.KeepsDirectories after) {path : List Char}
    {directory : Location} (leads : before.Leads path directory) : after.Leads path directory := by
  refine ⟨leads.clean, leads.short, ?_⟩
  have same : after.origin path = before.origin path := by rw [origin, origin, kept.home]
  rw [same]
  exact follow_mono kept leads.way

theorem Leads.stands {tree : FileTree} (sound : tree.IsSound) {path : List Char} {directory : Location}
    (leads : tree.Leads path directory) : tree.node? directory = some .directory :=
  follow_directory (origin_directory sound path) leads.way

theorem route_ok {tree : FileTree} {path : String} {route : Route} (ready : tree.route path = .ok route) :
    '\x00' ∉ path.toList ∧ path.toList ≠ [] ∧ (Utf8.encodeChars path.toList).length < maxPathLength ∧
      route = ⟨tree.origin path.toList, (Path.steps path.toList).map String.ofList, path.toList.getLast? = some '/'⟩ := by
  unfold FileTree.route at ready
  dsimp only at ready
  split at ready
  · simp at ready
  next clean =>
    split at ready
    · simp at ready
    next nonempty =>
      split at ready
      · simp at ready
      next short =>
        simp only [Except.ok.injEq] at ready
        refine ⟨clean, by simpa using nonempty, by omega, ?_⟩
        rw [← ready]
        rfl

theorem route_of_short (tree : FileTree) {path : List Char} (clean : '\x00' ∉ path) (nonempty : path ≠ []) :
    tree.route (String.ofList path) =
      if (Utf8.encodeChars path).length < maxPathLength then
        .ok ⟨tree.origin path, (Path.steps path).map String.ofList, path.getLast? = some '/'⟩
      else .error .nameTooLong := by
  have nonempty : path.isEmpty = false := by simpa using nonempty
  by_cases short : (Utf8.encodeChars path).length < maxPathLength
  · simp [route, clean, nonempty, short, Nat.not_le.mpr short, origin, Path.steps]
  · simp [route, clean, nonempty, short, Nat.not_lt.mp short]

theorem slot_ok {tree : FileTree} {path : String} {parent : Location} {name : String} {asDirectory : Bool}
    (found : tree.slot path = .ok ⟨parent, some name, asDirectory⟩) :
    '\x00' ∉ path.toList ∧ path.toList ≠ [] ∧ (Utf8.encodeChars path.toList).length < maxPathLength ∧
      asDirectory = decide (path.toList.getLast? = some '/') ∧ name ≠ "." ∧ name ≠ ".." ∧
      ∃ before, Path.steps path.toList = before ++ [name.toList] ∧
        tree.follow (tree.origin path.toList) (before.map String.ofList) = .ok parent := by
  obtain ⟨route, ready, found⟩ := bind_eq_ok.mp found
  obtain ⟨clean, nonempty, short, rfl⟩ := route_ok ready
  split at found
  next => simp [pure, Except.pure] at found
  next final last =>
    obtain ⟨place, way, found⟩ := bind_eq_ok.mp found
    split at found
    next => simp [pure, Except.pure] at found
    next ordinary =>
      simp only [pure, Except.pure, Except.ok.injEq, Slot.mk.injEq, Option.some.injEq] at found
      obtain ⟨rfl, rfl, rfl⟩ := found
      simp only [not_or] at ordinary
      obtain ⟨before, steps⟩ := List.getLast?_eq_some_iff.mp last
      obtain ⟨initial, rest, split, front, back⟩ := List.map_eq_append_iff.mp steps
      obtain ⟨piece, rfl, rfl⟩ := List.map_eq_singleton_iff.mp back
      refine ⟨clean, nonempty, short, rfl, ordinary.1, ordinary.2, initial, by simpa using split, ?_⟩
      simpa [split, front] using way

theorem place_of_slot {tree : FileTree} {path : String} {slot : Slot} {name : String} {location : Location}
    (found : tree.slot path = .ok slot) (named : slot.name = some name) (next : step slot.parent name = .ok location) :
    tree.place path = location := by
  obtain ⟨parent, _, asDirectory⟩ := slot
  subst named
  obtain ⟨-, -, -, -, -, -, before, steps, way⟩ := slot_ok found
  rw [place, steps, List.map_append, List.foldl_append, ← follow_place way, step_descend next]
  simp

theorem route_congr {before after : FileTree} (home : after.workingDirectory = before.workingDirectory) (path : String) :
    after.route path = before.route path := by
  simp [route, home]

theorem find_eq_ok {tree : FileTree} {path : String} {location : Location} {node : FileNode} :
    tree.find path = .ok (location, node) ↔
      ∃ route, tree.route path = .ok route ∧
        (route.steps.getLast? = none ∧ route.start = location ∧ .directory = node ∨
          ∃ name parent, route.steps.getLast? = some name ∧
            tree.follow route.start route.steps.dropLast = .ok parent ∧ step parent name = .ok location ∧
            tree.node? location = some node ∧ (route.asDirectory = true → node = .directory)) := by
  rw [FileTree.find, bind_eq_ok]
  refine exists_congr fun route => and_congr_right fun _ => ?_
  cases last : route.steps.getLast? with
  | none => simp [pure, Except.pure]
  | some name =>
      simp only [bind_eq_ok]
      constructor
      · rintro ⟨parent, way, place, next, found⟩
        split at found
        next => simp at found
        next id content stands =>
          split at found
          next => simp at found
          next loose =>
            obtain ⟨rfl, rfl⟩ : place = location ∧ .file id content = node := by simpa [pure, Except.pure] using found
            exact .inr ⟨name, parent, rfl, way, next, stands, fun slash => absurd slash loose⟩
        next stands =>
          obtain ⟨rfl, rfl⟩ : place = location ∧ .directory = node := by simpa [pure, Except.pure] using found
          exact .inr ⟨name, parent, rfl, way, next, stands, fun _ => rfl⟩
      · rintro (⟨none, -⟩ | ⟨name, parent, same, way, next, stands, ending⟩)
        · simp at none
        · obtain rfl := Option.some.inj same
          refine ⟨parent, way, location, next, ?_⟩
          cases node with
          | directory => simp [stands, pure, Except.pure]
          | file id content =>
              have loose : route.asDirectory = false := by simpa using ending
              simp [stands, loose, pure, Except.pure]

theorem node?_of_find {tree : FileTree} {path : String} {location : Location} {id : FileId} {content : Bytes}
    (found : tree.find path = .ok (location, .file id content)) : tree.node? location = some (.file id content) := by
  obtain ⟨route, -, ⟨-, -, directory⟩ | ⟨name, parent, -, -, -, stands, -⟩⟩ := find_eq_ok.mp found
  · simp at directory
  · exact stands

/-- The directories that a path comes by are still there. -/
structure KeepsWay (path : String) (before after : FileTree) : Prop where
  home : after.workingDirectory = before.workingDirectory
  way : ∀ location ∈ before.way path, before.node? location = some .directory → after.node? location = some .directory

theorem KeepsDirectories.way {before after : FileTree} (kept : before.KeepsDirectories after) (path : String) :
    KeepsWay path before after :=
  ⟨kept.home, fun location _ => kept.directories location⟩

theorem slot_kept {before after : FileTree} {path : String} (kept : KeepsWay path before after) {parent : Location}
    {name : String} {asDirectory : Bool} (found : before.slot path = .ok ⟨parent, some name, asDirectory⟩) :
    after.slot path = .ok ⟨parent, some name, asDirectory⟩ := by
  obtain ⟨clean, nonempty, short, ending, ordinary, down, initial, steps, way⟩ := slot_ok found
  have same : after.origin path.toList = before.origin path.toList := by rw [origin, origin, kept.home]
  have kept : after.follow (before.origin path.toList) (initial.map String.ofList) = .ok parent := by
    refine follow_kept ?_ way
    have kept := kept.way
    rwa [FileTree.way, steps, List.map_append, List.map_singleton, List.dropLast_concat] at kept
  have ready := route_of_short after clean nonempty
  rw [String.ofList_toList] at ready
  simp [slot, ready, short, steps, same, kept, ordinary, down, ending, bind, Except.bind, pure, Except.pure]

theorem Names.kept {before after : FileTree} {path : String} (kept : KeepsWay path before after) {parent : Location}
    {name : String} (names : before.Names path parent name) : after.Names path parent name :=
  ⟨slot_kept kept names.slot, names.short⟩

theorem Names.mono {before after : FileTree} (kept : before.KeepsDirectories after) {path : String}
    {parent : Location} {name : String} (names : before.Names path parent name) : after.Names path parent name :=
  names.kept (kept.way path)

theorem Names.directory_of_way {tree : FileTree} {path : String} {parent : Location} {name : String}
    (names : tree.Names path parent name) : ∀ location ∈ tree.way path, tree.node? location = some .directory := by
  obtain ⟨-, -, -, -, -, -, before, steps, way⟩ := slot_ok names.slot
  rw [FileTree.way, steps, List.map_append, List.map_singleton, List.dropLast_concat]
  exact directory_of_passed way

namespace Names

variable {tree : FileTree} {path : String} {parent : Location} {name : String}

theorem step (names : tree.Names path parent name) : step parent name = .ok (parent ++ [name]) := by
  obtain ⟨-, -, -, -, ordinary, down, -⟩ := slot_ok names.slot
  rw [step_ordinary ordinary down, if_neg (by have short := names.short; omega)]

theorem place (names : tree.Names path parent name) : tree.place path = parent ++ [name] :=
  place_of_slot names.slot rfl names.step

theorem directory (sound : tree.IsSound) (names : tree.Names path parent name) :
    tree.node? parent = some .directory := by
  obtain ⟨-, -, -, -, -, -, before, -, way⟩ := slot_ok names.slot
  exact follow_directory (origin_directory sound path.toList) way

theorem find (names : tree.Names path parent name) :
    tree.find path = match tree.node? (parent ++ [name]) with
      | none => .error .notFound
      | some node => .ok (parent ++ [name], node) := by
  obtain ⟨clean, nonempty, short, ending, ordinary, down, before, steps, way⟩ := slot_ok names.slot
  have ready := route_of_short tree clean nonempty
  rw [String.ofList_toList, if_pos short, ← ending] at ready
  have next := names.step
  simp only [FileTree.find, ready, steps, bind, Except.bind, List.map_append, List.map_cons, List.map_nil,
    List.getLast?_append, List.getLast?_singleton, Option.some_or, List.dropLast_concat, way, String.ofList_toList, next]
  cases tree.node? (parent ++ [name]) with
  | none => rfl
  | some node => cases node <;> rfl

end Names

namespace Leads

variable {tree : FileTree} {path : List Char} {directory : Location} {name : List Char}

theorem slot (leads : tree.Leads path directory) (named : Path.IsName name) :
    tree.slot (String.ofList (Path.lead path ++ name)) =
      if (Utf8.encodeChars (Path.lead path ++ name)).length < maxPathLength then
        .ok ⟨directory, some (String.ofList name), false⟩
      else .error .nameTooLong := by
  have clean : '\x00' ∉ Path.lead path ++ name := by
    intro member
    rcases List.mem_append.mp member with before | after
    · rcases Path.mem_lead before with inside | slash
      · exact leads.clean inside
      · exact absurd slash (by decide)
    · exact named.clean after
  have nonempty : Path.lead path ++ name ≠ [] := by simp [named.nonempty]
  have ready := route_of_short tree clean nonempty
  by_cases short : (Utf8.encodeChars (Path.lead path ++ name)).length < maxPathLength
  · have start : tree.origin (Path.lead path ++ name) = tree.origin path := by
      have head := Path.head?_lead path named.nonempty named.whole
      simp only [origin, head]
    have ending := decide_eq_false (Path.getLast?_lead path named.nonempty named.whole)
    have way := leads.way
    have ordinary : String.ofList name ≠ "." := by
      intro same
      exact named.ordinary (String.ofList_inj.mp (same.trans rfl))
    have down : String.ofList name ≠ ".." := by
      intro same
      exact named.down (String.ofList_inj.mp (same.trans rfl))
    rw [if_pos short, ending] at ready
    rw [if_pos short]
    simp only [FileTree.slot, ready, start, Path.steps_lead path named.nonempty named.whole, bind, Except.bind,
      List.map_append, List.map_cons, List.map_nil, List.getLast?_append, List.getLast?_singleton, Option.some_or,
      List.dropLast_concat, way, ordinary, down, or_self, if_false, pure, Except.pure]
  · rw [if_neg short] at ready ⊢
    simp only [FileTree.slot, ready, bind, Except.bind]

theorem names (leads : tree.Leads path directory) (named : Path.IsName name)
    (shortPath : (Utf8.encodeChars (Path.lead path ++ name)).length < maxPathLength)
    (shortName : (Utf8.encodeChars name).length ≤ maxNameLength) :
    tree.Names (String.ofList (Path.lead path ++ name)) directory (String.ofList name) := by
  refine ⟨?_, ?_⟩
  · rw [leads.slot named, if_pos shortPath]
  · simpa [Utf8.encode] using shortName

theorem find (leads : tree.Leads path directory) (sound : tree.IsSound) (nonempty : path ≠ []) :
    tree.find (String.ofList path) = .ok (directory, .directory) := by
  have ready := route_of_short tree leads.clean nonempty
  rw [if_pos leads.short] at ready
  have stands := leads.stands sound
  have way := leads.way
  cases final : ((Path.steps path).map String.ofList).getLast? with
  | none =>
      rw [List.getLast?_eq_none_iff.mp final] at way
      cases way
      simp [FileTree.find, ready, final, bind, Except.bind, pure, Except.pure]
  | some last =>
      obtain ⟨initial, shape⟩ := List.getLast?_eq_some_iff.mp final
      rw [shape, follow_append] at way
      cases upper : tree.follow (tree.origin path) initial with
      | error fault => simp [upper, bind, Except.bind] at way
      | ok above =>
          simp only [upper, bind, Except.bind, follow] at way
          cases next : FileTree.step above last with
          | error fault => simp [next] at way
          | ok place =>
              simp only [next] at way
              have arrived : place = directory := by
                cases found : tree.node? place with
                | none => simp [found] at way
                | some node => cases node <;> simp_all
              subst arrived
              simp [FileTree.find, ready, shape, upper, next, stands, bind, Except.bind, pure, Except.pure]

theorem of_slot {base fileName : String} (sound : tree.IsSound)
    (found : tree.slot base = .ok ⟨directory, some fileName, false⟩) :
    ∃ parent, tree.Leads parent directory ∧ Path.parent? base = some (String.ofList parent) ∧
      Path.fileName? base = some fileName ∧ Path.IsName fileName.toList ∧
      ∀ sibling, '/' ∉ sibling →
        Path.withFileName base (String.ofList sibling) = String.ofList (Path.lead parent ++ sibling) := by
  obtain ⟨clean, nonempty, short, ending, ordinary, down, before, steps, way⟩ := slot_ok found
  have member : fileName.toList ∈ Path.steps base.toList := by simp [steps]
  rw [Path.steps, List.mem_filter] at member
  have ordinaryChars : fileName.toList ≠ ['.'] := by
    intro same
    exact ordinary (String.toList_inj.mp same)
  have downChars : fileName.toList ≠ Path.above := by
    intro same
    exact down (String.toList_inj.mp same)
  obtain ⟨parent, parentPath, last, start, ⟨count, idle⟩, head, siblings⟩ :=
    Path.withFileName_of_steps steps ordinaryChars downChars
  obtain ⟨rest, split⟩ := start
  have cleanParent : '\x00' ∉ parent := by
    intro inside
    exact clean (split ▸ List.mem_append_left rest inside)
  have shortParent : (Utf8.encodeChars parent).length < maxPathLength := by
    rw [← split, Utf8.encodeChars_append, List.length_append] at short
    omega
  refine ⟨parent, ⟨cleanParent, shortParent, ?_⟩, parentPath, by simpa using last, ?_, siblings⟩
  · have origin : tree.origin parent = tree.origin base.toList := by simp only [origin, head]
    rw [idle, List.map_append, List.map_replicate, follow_append] at way
    rw [origin]
    cases upper : tree.follow (tree.origin base.toList) ((Path.steps parent).map String.ofList) with
    | error fault => simp [upper, bind, Except.bind] at way
    | ok place =>
        have stands := follow_directory (origin_directory sound base.toList) upper
        have dots := follow_dots stands count
        simp only [upper, bind, Except.bind] at way
        exact congrArg Except.ok (Except.ok.inj (dots.symm.trans way))
  · refine ⟨?_, Text.notMem_of_mem_split member.1, ?_, ordinaryChars, downChars⟩
    · simpa using member.2
    · intro inside
      refine clean ?_
      rw [← Text.join_split '/' base.toList]
      exact Text.mem_join member.1 inside

end Leads

end FileTree

end KeyedLog
