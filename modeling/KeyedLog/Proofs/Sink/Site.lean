import KeyedLog.Proofs.Archive.Names
import KeyedLog.Proofs.Files.Opening

/-!
Where a file that rotates stands, with its archives and its staging file beside it.
-/

namespace KeyedLog

/-- What is seen at a place. Nobody sees the number of a file. -/
inductive Sight where
  | directory
  | file (content : Bytes)
  deriving DecidableEq, Repr

def FileNode.sight : FileNode → Sight
  | directory => .directory
  | file _ content => .file content

def FileTree.sight? (tree : FileTree) (location : Location) : Option Sight :=
  (tree.node? location).map FileNode.sight

theorem FileTree.sight?_file {tree : FileTree} {location : Location} {content : Bytes}
    (seen : tree.sight? location = some (.file content)) : ∃ id, tree.node? location = some (.file id content) := by
  unfold sight? at seen
  cases stands : tree.node? location with
  | none => simp [stands] at seen
  | some node =>
      cases node with
      | directory => simp [stands, FileNode.sight] at seen
      | file id other =>
          have same : other = content := by simpa [stands, FileNode.sight] using seen
          exact ⟨id, by rw [same]⟩

theorem FileTree.sight?_directory {tree : FileTree} {location : Location} :
    tree.sight? location = some .directory ↔ tree.node? location = some .directory := by
  unfold sight?
  cases tree.node? location with
  | none => simp
  | some node => cases node <;> simp [FileNode.sight]

def FileTree.seen? (tree : FileTree) (path : String) : Option Sight :=
  match tree.find path with
  | .ok (_, node) => some node.sight
  | .error _ => none

theorem FileTree.Names.seen? {tree : FileTree} {path name : String} {parent : Location}
    (names : tree.Names path parent name) : tree.seen? path = tree.sight? (parent ++ [name]) := by
  rw [FileTree.seen?, names.find, sight?]
  cases tree.node? (parent ++ [name]) <;> rfl

/-- The path of a file, the path of its directory, and where both lead. -/
structure Site where
  path : String
  parentPath : List Char
  directory : Location
  name : List Char

namespace Site

def base (site : Site) : Location :=
  site.directory ++ [String.ofList site.name]

def slot (site : Site) (number : Nat) : Location :=
  site.directory ++ [String.ofList (Archive.slotName site.name number)]

def staging (site : Site) : Location :=
  site.directory ++ [String.ofList (Archive.stagingName site.name)]

def Owns (site : Site) (archives : Nat) (location : Location) : Prop :=
  location = site.base ∨ (0 < archives ∧ location = site.staging) ∨
    ∃ number, 1 ≤ number ∧ number ≤ archives ∧ location = site.slot number

def Fits (site : Site) (sibling : List Char) : Prop :=
  (Utf8.encodeChars (Path.lead site.parentPath ++ sibling)).length < maxPathLength ∧
    (Utf8.encodeChars sibling).length ≤ maxNameLength

def HasRoom (site : Site) (archives : Nat) : Prop :=
  0 < archives → site.Fits (Archive.stagingName site.name) ∧ site.Fits (Archive.slotName site.name archives)

structure IsProper (site : Site) : Prop where
  named : Path.IsName site.name
  parent : Path.parent? site.path = some (String.ofList site.parentPath)
  slots : ∀ number, Archive.slotPath site.path number =
    String.ofList (Path.lead site.parentPath ++ Archive.slotName site.name number)
  staging : Archive.stagingPath site.path =
    String.ofList (Path.lead site.parentPath ++ Archive.stagingName site.name)

/-- The paths of a site lead to it. -/
structure IsIn (site : Site) (tree : FileTree) : Prop where
  sound : tree.IsSound
  leads : tree.Leads site.parentPath site.directory
  names : tree.Names site.path site.directory (String.ofList site.name)

theorem slot_injective (site : Site) {first second : Nat} (same : site.slot first = site.slot second) :
    first = second := by
  have names := (List.append_inj' same rfl).2
  exact Archive.slotName_injective (String.ofList_inj.mp (List.singleton_inj.mp names))

theorem slot_ne_base (site : Site) (number : Nat) : site.slot number ≠ site.base := by
  intro same
  have names := (List.append_inj' same rfl).2
  exact Archive.slotName_ne _ _ (String.ofList_inj.mp (List.singleton_inj.mp names))

theorem staging_ne_base (site : Site) : site.staging ≠ site.base := by
  intro same
  have names := (List.append_inj' same rfl).2
  exact Archive.stagingName_ne _ (String.ofList_inj.mp (List.singleton_inj.mp names))

theorem staging_ne_slot (site : Site) (number : Nat) : site.staging ≠ site.slot number := by
  intro same
  have names := (List.append_inj' same rfl).2
  exact Archive.stagingName_ne_slotName _ _ (String.ofList_inj.mp (List.singleton_inj.mp names))

theorem prefix_sibling {directory : Location} {one two : String} {rest : List String} :
    directory ++ [one] <+: directory ++ [two] ++ rest ↔ one = two := by
  rw [List.append_assoc, List.prefix_append_right_inj, List.singleton_append, List.cons_prefix_cons]
  simp

theorem slot_prefix_slot (site : Site) {first second : Nat} {rest : List String} :
    site.slot first <+: site.slot second ++ rest ↔ first = second := by
  rw [slot, slot, prefix_sibling]
  refine ⟨fun same => Archive.slotName_injective (String.ofList_inj.mp same), ?_⟩
  rintro rfl
  rfl

theorem slot_not_prefix_slot (site : Site) {first second : Nat} (different : first ≠ second) :
    ¬ site.slot first <+: site.slot second := by
  rw [← List.append_nil (site.slot second), site.slot_prefix_slot]
  exact different

theorem slot_not_prefix_base (site : Site) (number : Nat) : ¬ site.slot number <+: site.base := by
  rw [← List.append_nil site.base, slot, base, prefix_sibling]
  exact fun same => Archive.slotName_ne _ _ (String.ofList_inj.mp same)

theorem slot_not_prefix_staging (site : Site) (number : Nat) : ¬ site.slot number <+: site.staging := by
  rw [← List.append_nil site.staging, slot, staging, prefix_sibling]
  exact fun same => Archive.stagingName_ne_slotName _ _ (String.ofList_inj.mp same).symm

theorem slot_append_ne_slot (site : Site) {first second : Nat} (different : first ≠ second) (rest : List String) :
    site.slot second ++ rest ≠ site.slot first := by
  intro same
  have inside : site.slot first <+: site.slot second ++ rest := same ▸ List.prefix_rfl
  exact different (site.slot_prefix_slot.mp inside)

theorem slot_append_ne_staging (site : Site) (number : Nat) (rest : List String) : site.slot number ++ rest ≠ site.staging :=
  fun same => site.slot_not_prefix_staging number (same ▸ List.prefix_append ..)

/-- Neither the working directory nor the way to the file is in a slot from which an archive may be moved. -/
structure Spares (site : Site) (archives : Nat) (tree : FileTree) : Prop where
  home : ∀ number, 1 ≤ number → number < archives → ¬ site.slot number <+: tree.workingDirectory
  way : ∀ number, 1 ≤ number → number < archives → ∀ location ∈ tree.way site.path, ¬ site.slot number <+: location

theorem Spares.congr {site : Site} {archives : Nat} {before after : FileTree} (spares : site.Spares archives before)
    (home : after.workingDirectory = before.workingDirectory) : site.Spares archives after := by
  have way : after.way site.path = before.way site.path := by simp only [FileTree.way, FileTree.origin, home]
  refine ⟨?_, ?_⟩
  · rw [home]
    exact spares.home
  · rw [way]
    exact spares.way

theorem Spares.mono {site : Site} {fewer archives : Nat} {tree : FileTree} (spares : site.Spares archives tree)
    (le : fewer ≤ archives) : site.Spares fewer tree :=
  ⟨fun number positive bound => spares.home number positive (Nat.lt_of_lt_of_le bound le),
    fun number positive bound => spares.way number positive (Nat.lt_of_lt_of_le bound le)⟩

theorem Fits.mono {site : Site} {first second : List Char}
    (shorter : (Utf8.encodeChars first).length ≤ (Utf8.encodeChars second).length) (fits : site.Fits second) :
    site.Fits first := by
  obtain ⟨path, name⟩ := fits
  rw [Utf8.encodeChars_append, List.length_append] at path
  refine ⟨?_, by omega⟩
  rw [Utf8.encodeChars_append, List.length_append]
  omega

theorem IsIn.mono {site : Site} {before after : FileTree} (stands : site.IsIn before)
    (kept : before.KeepsDirectories after) (sound : after.IsSound) : site.IsIn after :=
  ⟨sound, stands.leads.mono kept, stands.names.mono kept⟩

theorem IsIn.kept {site : Site} {before after : FileTree} (stands : site.IsIn before) (proper : site.IsProper)
    (kept : FileTree.KeepsWay site.path before after) (sound : after.IsSound) : site.IsIn after := by
  have names := stands.names.kept kept
  obtain ⟨parent, leads, above, -⟩ := FileTree.Leads.of_slot sound names.slot
  obtain rfl : parent = site.parentPath := String.ofList_inj.mp (Option.some.inj (above.symm.trans proper.parent))
  exact ⟨sound, leads, names⟩

theorem IsIn.namesSibling {site : Site} {tree : FileTree} (stands : site.IsIn tree) {sibling : List Char}
    (named : Path.IsName sibling) (fits : site.Fits sibling) :
    tree.Names (String.ofList (Path.lead site.parentPath ++ sibling)) site.directory (String.ofList sibling) :=
  stands.leads.names named fits.1 fits.2

theorem IsIn.blocked {site : Site} {tree : FileTree} (stands : site.IsIn tree) {sibling : List Char}
    (named : Path.IsName sibling) (large : ¬ site.Fits sibling) :
    Files.Blocked tree (String.ofList (Path.lead site.parentPath ++ sibling)) := by
  have found := stands.leads.slot named
  by_cases short : (Utf8.encodeChars (Path.lead site.parentPath ++ sibling)).length < maxPathLength
  · rw [if_pos short] at found
    refine .inr ⟨_, _, _, found, ?_⟩
    obtain ⟨-, -, -, -, ordinary, down, -⟩ := FileTree.slot_ok found
    have long : ¬ (Utf8.encodeChars sibling).length ≤ maxNameLength := fun name => large ⟨short, name⟩
    rw [FileTree.step_ordinary ordinary down, if_pos (by simpa [Utf8.encode] using long)]
  · rw [if_neg short] at found
    exact .inl found

theorem IsIn.place_sibling {site : Site} {tree : FileTree} (stands : site.IsIn tree) {sibling : List Char} (named : Path.IsName sibling) :
    tree.place (String.ofList (Path.lead site.parentPath ++ sibling)) = site.directory ++ [String.ofList sibling] := by
  have origin : tree.origin (Path.lead site.parentPath ++ sibling) = tree.origin site.parentPath := by
    simp only [FileTree.origin, Path.head?_lead site.parentPath named.nonempty named.whole]
  have ordinary : String.ofList sibling ≠ "." := fun same => named.ordinary (String.ofList_inj.mp (same.trans rfl))
  have down : String.ofList sibling ≠ ".." := fun same => named.down (String.ofList_inj.mp (same.trans rfl))
  rw [FileTree.place, String.toList_ofList, origin, Path.steps_lead site.parentPath named.nonempty named.whole, List.map_append,
    List.foldl_append, ← FileTree.follow_place stands.leads.way]
  simp [FileTree.descend, ordinary, down]

theorem IsIn.place_slot {site : Site} {tree : FileTree} (stands : site.IsIn tree) (proper : site.IsProper) (number : Nat) :
    tree.place (Archive.slotPath site.path number) = site.slot number := by
  rw [proper.slots, stands.place_sibling (Archive.isName_slotName proper.named number)]
  rfl

theorem IsIn.place_staging {site : Site} {tree : FileTree} (stands : site.IsIn tree) (proper : site.IsProper) :
    tree.place (Archive.stagingPath site.path) = site.staging := by
  rw [proper.staging, stands.place_sibling (Archive.isName_stagingName proper.named)]
  rfl

theorem IsIn.seen?_of_fits {site : Site} {tree : FileTree} (stands : site.IsIn tree) {sibling : List Char}
    (named : Path.IsName sibling) (fits : site.Fits sibling) :
    tree.seen? (String.ofList (Path.lead site.parentPath ++ sibling)) =
      tree.sight? (site.directory ++ [String.ofList sibling]) :=
  (stands.namesSibling named fits).seen?

theorem IsIn.seen?_of_large {site : Site} {tree : FileTree} (stands : site.IsIn tree) {sibling : List Char}
    (named : Path.IsName sibling) (large : ¬ site.Fits sibling) :
    tree.seen? (String.ofList (Path.lead site.parentPath ++ sibling)) = none := by
  obtain ⟨fault, failed⟩ := Files.find_of_blocked (stands.blocked named large)
  rw [FileTree.seen?, failed]

theorem exists_of_names {tree : FileTree} {path fileName : String} {directory : Location} (sound : tree.IsSound)
    (names : tree.Names path directory fileName) :
    ∃ site : Site, site.path = path ∧ site.directory = directory ∧ site.name = fileName.toList ∧ site.IsProper ∧
      site.IsIn tree := by
  obtain ⟨parent, leads, above, last, named, siblings⟩ := FileTree.Leads.of_slot sound names.slot
  refine ⟨⟨path, parent, directory, fileName.toList⟩, rfl, rfl, rfl, ?_, sound, leads, by simpa using names⟩
  have slots : ∀ number, Archive.slotPath path number =
      String.ofList (Path.lead parent ++ Archive.slotName fileName.toList number) := by
    intro number
    rw [Archive.slotPath, last, Option.getD_some]
    exact siblings _ (Archive.isName_slotName named number).whole
  refine ⟨named, above, slots, ?_⟩
  apply String.toList_inj.mp
  simp [Archive.stagingPath, slots 1, Archive.stagingName, String.toList_append]

end Site

end KeyedLog
