import KeyedLog.Proofs.Files.Relocation
import KeyedLog.Proofs.Sink.Site
import KeyedLog.Sink.Rotating

/-!
One rotation. What the file held is in the first slot afterwards, the other archives have moved up by one slot, the last
is gone, and the file is new. Nothing else has changed.
-/

namespace KeyedLog

open FileTree

theorem FileTree.Becomes.again {before middle after : FileTree} {nodes : Location → Option FileNode}
    {location : Location} {first second : Option FileNode}
    (one : before.Becomes middle (Function.update nodes location first))
    (two : middle.Becomes after (Function.update middle.node? location second)) :
    before.Becomes after (Function.update nodes location second) := by
  refine ⟨?_, two.home.trans one.home, two.sound⟩
  rw [two.nodes, one.nodes, Function.update_idem]

theorem FileTree.Becomes.keeps {before after : FileTree} {location : Location} {node : Option FileNode}
    (became : before.Becomes after (Function.update before.node? location node))
    (free : before.node? location ≠ some .directory) : before.KeepsDirectories after :=
  became.keeps_update (fun _ stands => stands) free

namespace Rotation

variable {site : Site} {tree : FileTree} {id : FileId} {content : Bytes}

theorem compress_ok (proper : site.IsProper) (stands : site.IsIn tree)
    (fits : site.Fits (Archive.stagingName site.name)) (base : tree.node? site.base = some (.file id content))
    (free : tree.node? site.staging ≠ some .directory) :
    ∃ number after, compress site.path (Archive.stagingPath site.path) tree = .ok () after ∧
      tree.Becomes after (Function.update tree.node? site.staging (some (.file number (Gzip.encode content)))) := by
  have names := stands.namesSibling (Archive.isName_stagingName proper.named) fits
  rw [← proper.staging] at names
  have opened := Files.openForReading_eq stands.names
  rw [show site.directory ++ [String.ofList site.name] = site.base from rfl, base] at opened
  obtain ⟨number, made, created, became⟩ := Files.create_ok stands.sound names free
  have there : made.node? site.staging = some (.file number []) := by
    rw [became.nodes]
    exact Function.update_self ..
  obtain ⟨after, written, grown⟩ := Files.append_ok became.sound there (Gzip.encode content)
  refine ⟨number, after, ?_, became.again grown⟩
  unfold compress
  rw [bind_of_ok opened, bind_of_ok created]
  exact (bind_of_ok rfl).trans written

theorem stage_ok (proper : site.IsProper) (stands : site.IsIn tree)
    (fits : site.Fits (Archive.stagingName site.name)) (base : tree.node? site.base = some (.file id content))
    (free : tree.node? site.staging ≠ some .directory) :
    ∃ number after, stage site.path tree = .ok () after ∧
      tree.Becomes after (Function.update tree.node? site.staging (some (.file number (Gzip.encode content)))) := by
  obtain ⟨number, after, done, became⟩ := compress_ok proper stands fits base free
  exact ⟨number, after, by rw [stage, done], became⟩

/-- Nothing has changed but the staging file, which holds the archive unless a directory stands in its place. -/
structure Stalled (site : Site) (content : Bytes) (before after : FileTree) : Prop where
  home : after.workingDirectory = before.workingDirectory
  sound : after.IsSound
  nodes : after.node? = before.node? ∨ before.node? site.staging ≠ some .directory ∧
    ∃ id, after.node? = Function.update before.node? site.staging (some (.file id (Gzip.encode content)))

theorem Stalled.refl (sound : tree.IsSound) : Stalled site content tree tree :=
  ⟨rfl, sound, .inl rfl⟩

theorem stage_of_failure (stands : site.IsIn tree) (base : tree.node? site.base = some (.file id content)) {cause cleaning : IoFault}
    (failed : Files.create (Archive.stagingPath site.path) tree = .error cause tree)
    (kept : Files.removeFile (Archive.stagingPath site.path) tree = .error cleaning tree) :
    stage site.path tree = .error (.io (Archive.stagingPath site.path) cause) tree := by
  have opened := Files.openForReading_eq stands.names
  rw [show site.directory ++ [String.ofList site.name] = site.base from rfl, base] at opened
  have compressed : compress site.path (Archive.stagingPath site.path) tree = .error cause tree := by
    unfold compress
    rw [bind_of_ok opened]
    exact bind_of_error failed
  simp only [stage, compressed, kept]

theorem stage_of_blocked (proper : site.IsProper) (stands : site.IsIn tree)
    (large : ¬ site.Fits (Archive.stagingName site.name)) (base : tree.node? site.base = some (.file id content)) :
    ∃ fault, stage site.path tree = .error fault tree := by
  have blocked := stands.blocked (Archive.isName_stagingName proper.named) large
  rw [← proper.staging] at blocked
  obtain ⟨cause, failed⟩ := Files.create_of_blocked blocked
  exact ⟨_, stage_of_failure stands base failed (Files.removeFile_of_blocked blocked)⟩

theorem stage_of_directory (proper : site.IsProper) (stands : site.IsIn tree)
    (fits : site.Fits (Archive.stagingName site.name)) (base : tree.node? site.base = some (.file id content))
    (there : tree.node? site.staging = some .directory) : ∃ fault, stage site.path tree = .error fault tree := by
  have names := stands.namesSibling (Archive.isName_stagingName proper.named) fits
  rw [← proper.staging] at names
  exact ⟨_, stage_of_failure stands base (Files.create_of_directory names there) (Files.removeFile_of_directory names there)⟩

theorem shiftSlot_ok {number : Nat} (proper : site.IsProper) (stands : site.IsIn tree)
    (fits : site.Fits (Archive.slotName site.name (number + 1))) (home : ¬ site.slot number <+: tree.workingDirectory)
    (way : ∀ location ∈ tree.way site.path, ¬ site.slot number <+: location)
    (free : tree.node? (site.slot (number + 1)) = none) :
    ∃ after, shiftSlot site.path number tree = .ok () after ∧ site.IsIn after ∧
      after.workingDirectory = tree.workingDirectory ∧
      ∀ location, after.node? location = (relocated (site.slot number) (site.slot (number + 1)) location).bind tree.node? := by
  have lower := Site.Fits.mono (Archive.length_slotName_mono site.name (Nat.le_succ number)) fits
  have names := stands.namesSibling (Archive.isName_slotName proper.named number) lower
  have goal := stands.namesSibling (Archive.isName_slotName proper.named (number + 1)) fits
  rw [← proper.slots] at names goal
  have seen : tree.holds (Archive.slotPath site.path number) = (tree.node? (site.slot number)).isSome := Files.holds_eq names
  have apart : ¬ site.slot number <+: site.slot (number + 1) := site.slot_not_prefix_slot (Nat.ne_of_lt (Nat.lt_succ_self _))
  have nothing := stands.sound.none_under free
  unfold shiftSlot
  rw [bind_get]
  cases there : tree.node? (site.slot number) with
  | none =>
      refine ⟨tree, by simp [seen, there], stands, rfl, ?_⟩
      intro location
      by_cases arrived : site.slot (number + 1) <+: location
      · obtain ⟨rest, rfl⟩ := arrived
        rw [relocated_arrived, Option.bind_some, nothing, stands.sound.none_under there]
      · by_cases left : site.slot number <+: location
        · obtain ⟨rest, rfl⟩ := left
          rw [relocated_left arrived (List.prefix_append ..), stands.sound.none_under there, Option.bind_none]
        · rw [relocated_other arrived left, Option.bind_some]
  | some node =>
      obtain ⟨after, renamed, same, sound, moved⟩ := Files.rename_relocates stands.sound names goal there free apart home
      have nodes : ∀ location, after.node? location =
          (relocated (site.slot number) (site.slot (number + 1)) location).bind tree.node? := moved
      refine ⟨after, ?_, stands.kept proper ⟨same, ?_⟩ sound, same, nodes⟩
      · simp only [seen, there, Option.isSome_some, if_true]
        exact Files.at_of_ok renamed _
      · intro location member directory
        rw [nodes, relocated_other _ (way location member), Option.bind_some]
        · exact directory
        · rintro ⟨rest, rfl⟩
          rw [nothing] at directory
          simp at directory

structure Shifted (site : Site) (count : Nat) (before after : FileTree) : Prop where
  stands : site.IsIn after
  home : after.workingDirectory = before.workingDirectory
  first : after.node? (site.slot 1) = none
  slots : ∀ number, 1 ≤ number → number ≤ count → ∀ rest,
    after.node? (site.slot (number + 1) ++ rest) = before.node? (site.slot number ++ rest)
  others : ∀ location, (∀ number, 1 ≤ number → number ≤ count + 1 → ¬ site.slot number <+: location) →
    after.node? location = before.node? location

theorem shiftSlots_ok {count : Nat} (proper : site.IsProper) (stands : site.IsIn tree)
    (fits : site.Fits (Archive.slotName site.name (count + 1))) (spares : site.Spares (count + 1) tree)
    (free : tree.node? (site.slot (count + 1)) = none) :
    ∃ after, shiftSlots site.path count tree = .ok () after ∧ Shifted site count tree after := by
  -- From the highest archive down: each finds the slot above it empty, and leaves its own empty.
  induction count generalizing tree with
  | zero => exact ⟨tree, rfl, stands, rfl, free, by omega, fun _ _ => rfl⟩
  | succ count ih =>
      obtain ⟨moved, done, inMoved, home, nodes⟩ := shiftSlot_ok proper stands fits
        (spares.home (count + 1) (by omega) (by omega)) (spares.way (count + 1) (by omega) (by omega)) free
      have emptied : moved.node? (site.slot (count + 1)) = none := by
        rw [nodes, relocated_left (site.slot_not_prefix_slot (by omega)) List.prefix_rfl, Option.bind_none]
      have lower := Site.Fits.mono (Archive.length_slotName_mono site.name (Nat.le_succ (count + 1))) fits
      have sparesMoved := (spares.congr home).mono (Nat.le_succ (count + 1))
      obtain ⟨after, rest, shifted⟩ := ih inMoved lower sparesMoved emptied
      refine ⟨after, ?_, shifted.stands, shifted.home.trans home, shifted.first, ?_, ?_⟩
      · rw [shiftSlots, bind_of_ok done]
        exact rest
      · intro number positive bound below
        by_cases top : number = count + 1
        · subst top
          rw [shifted.others, nodes, relocated_arrived, Option.bind_some]
          intro other _ bound inside
          rw [site.slot_prefix_slot] at inside
          omega
        · rw [shifted.slots number positive (by omega), nodes, relocated_other, Option.bind_some]
          · rw [site.slot_prefix_slot]
            omega
          · rw [site.slot_prefix_slot]
            omega
      · intro location outside
        rw [shifted.others location fun number positive bound => outside number positive (by omega), nodes,
          relocated_other (outside (count + 2) (by omega) (Nat.le_refl _)) (outside (count + 1) (by omega) (by omega)),
          Option.bind_some]

/-- What a file held has become the first archive, and the other archives have moved up. -/
structure Archived (site : Site) (archives : Nat) (content : Bytes) (before after : FileTree) : Prop where
  stands : site.IsIn after
  home : after.workingDirectory = before.workingDirectory
  first : 0 < archives → after.sight? (site.slot 1) = some (.file (Gzip.encode content))
  slots : ∀ number, 1 ≤ number → number < archives → ∀ rest,
    after.node? (site.slot (number + 1) ++ rest) = before.node? (site.slot number ++ rest)
  staging : 0 < archives → after.node? site.staging = none
  others : ∀ location, (0 < archives → location ≠ site.staging) →
    (∀ number, 1 ≤ number → number ≤ archives → ¬ site.slot number <+: location) →
    after.node? location = before.node? location

theorem Archived.base {archives : Nat} {before after : FileTree} {node : Option FileNode}
    (archived : Archived site archives content before after) (base : before.node? site.base = node) :
    after.node? site.base = node := by
  rw [archived.others site.base (fun _ => site.staging_ne_base.symm) fun number _ _ => site.slot_not_prefix_base number, base]

structure IsFree (site : Site) (archives : Nat) (tree : FileTree) : Prop where
  room : site.HasRoom archives
  staging : 0 < archives → tree.node? site.staging ≠ some .directory
  last : 0 < archives → tree.node? (site.slot archives) ≠ some .directory

theorem prepare_ok {last : Nat} (proper : site.IsProper) (stands : site.IsIn tree)
    (fitsStaging : site.Fits (Archive.stagingName site.name)) (fitsLast : site.Fits (Archive.slotName site.name last))
    (clear : tree.node? site.staging ≠ some .directory) (free : tree.node? (site.slot last) ≠ some .directory)
    (base : tree.node? site.base = some (.file id content)) :
    ∃ number staged cleared, stage site.path tree = .ok () staged ∧
      Files.removeIfExists (Archive.slotPath site.path last) staged = .ok () cleared ∧ site.IsIn cleared ∧
      cleared.workingDirectory = tree.workingDirectory ∧
      cleared.node? = Function.update (Function.update tree.node? site.staging (some (.file number (Gzip.encode content))))
        (site.slot last) none := by
  obtain ⟨number, staged, done, became⟩ := stage_ok proper stands fitsStaging base clear
  have inStaged := stands.mono (became.keeps clear) became.sound
  have names := inStaged.namesSibling (Archive.isName_slotName proper.named last) fitsLast
  rw [← proper.slots] at names
  have filed : staged.node? (site.slot last) ≠ some .directory := by
    rw [became.nodes, Function.update_of_ne (site.staging_ne_slot _).symm]
    exact free
  obtain ⟨cleared, removed, gone⟩ := Files.removeIfExists_ok inStaged.sound names filed
  exact ⟨number, staged, cleared, done, removed, inStaged.mono (gone.keeps filed) gone.sound, gone.home.trans became.home,
    gone.nodes.trans (by rw [became.nodes]; rfl)⟩

theorem archived_of_promoted {count number : Nat} {cleared moved after : FileTree} (shifted : Shifted site count cleared moved)
    (cleaned : cleared.node? = Function.update
      (Function.update tree.node? site.staging (some (.file number (Gzip.encode content)))) (site.slot (count + 1)) none)
    (stands : site.IsIn after) (home : after.workingDirectory = tree.workingDirectory)
    (nodes : after.node? = Function.update (Function.update moved.node? site.staging none) (site.slot 1)
      (some (.file number (Gzip.encode content)))) : Archived site (count + 1) content tree after := by
  constructor
  case stands => exact stands
  case home => exact home
  case first =>
    intro _
    rw [sight?, nodes, Function.update_self]
    rfl
  case slots =>
    intro slot positive bound rest
    have notFirst : site.slot (slot + 1) ++ rest ≠ site.slot 1 := site.slot_append_ne_slot (by omega) rest
    have notLast : site.slot slot ++ rest ≠ site.slot (count + 1) := site.slot_append_ne_slot (by omega) rest
    rw [nodes, Function.update_of_ne notFirst, Function.update_of_ne (site.slot_append_ne_staging _ rest),
      shifted.slots slot positive (by omega), cleaned, Function.update_of_ne notLast,
      Function.update_of_ne (site.slot_append_ne_staging _ rest)]
  case staging =>
    intro _
    rw [nodes, Function.update_of_ne (site.staging_ne_slot 1), Function.update_self]
  case others =>
    intro location notStaging outside
    have notSlot : ∀ slot, 1 ≤ slot → slot ≤ count + 1 → location ≠ site.slot slot := by
      rintro slot positive bound rfl
      exact outside slot positive bound List.prefix_rfl
    rw [nodes, Function.update_of_ne (notSlot 1 (Nat.le_refl _) (by omega)),
      Function.update_of_ne (notStaging (Nat.succ_pos count)), shifted.others location outside, cleaned,
      Function.update_of_ne (notSlot (count + 1) (Nat.succ_pos count) (Nat.le_refl _)),
      Function.update_of_ne (notStaging (Nat.succ_pos count))]

theorem archive_ok {archives : Nat} (proper : site.IsProper) (stands : site.IsIn tree) (spares : site.Spares archives tree)
    (free : IsFree site archives tree) (base : tree.node? site.base = some (.file id content)) :
    ∃ after, archive site.path archives tree = .ok () after ∧ Archived site archives content tree after := by
  cases archives with
  | zero => exact ⟨tree, rfl, stands, rfl, by omega, by omega, by omega, fun _ _ _ => rfl⟩
  | succ count =>
      obtain ⟨fitsStaging, fitsLast⟩ := free.room (Nat.succ_pos count)
      obtain ⟨number, staged, cleared, done, removed, inCleared, home, cleaned⟩ := prepare_ok proper stands fitsStaging
        fitsLast (free.staging (Nat.succ_pos count)) (free.last (Nat.succ_pos count)) base
      obtain ⟨moved, shiftDone, shifted⟩ := shiftSlots_ok proper inCleared fitsLast
        (spares.congr home) (by rw [cleaned, Function.update_self])
      have stagedFile : moved.node? site.staging = some (.file number (Gzip.encode content)) := by
        rw [shifted.others _ fun slot _ _ => site.slot_not_prefix_staging slot, cleaned,
          Function.update_of_ne (site.staging_ne_slot (count + 1)), Function.update_self]
      have namesStaging := shifted.stands.namesSibling (Archive.isName_stagingName proper.named) fitsStaging
      have namesFirst := shifted.stands.namesSibling (Archive.isName_slotName proper.named 1)
        (Site.Fits.mono (Archive.length_slotName_mono site.name (Nat.succ_le_succ (Nat.zero_le count))) fitsLast)
      rw [← proper.staging] at namesStaging
      rw [← proper.slots] at namesFirst
      have firstFree : moved.node? (site.slot 1) ≠ some .directory := by simp [shifted.first]
      obtain ⟨after, renamed, final⟩ := Files.rename_ok shifted.stands.sound namesStaging namesFirst stagedFile firstFree
        (site.staging_ne_slot 1).symm
      have nodes : after.node? = Function.update (Function.update moved.node? site.staging none) (site.slot 1)
        (some (.file number (Gzip.encode content))) := final.nodes
      have inAfter : site.IsIn after := by
        refine shifted.stands.mono (final.keeps_update ?_ firstFree) final.sound
        intro location directory
        rw [Function.update_of_ne]
        · exact directory
        · rintro rfl
          exact absurd (stagedFile.symm.trans directory) (by simp)
      refine ⟨after, ?_, archived_of_promoted shifted cleaned inAfter (by rw [final.home, shifted.home, home]) nodes⟩
      unfold archive
      simp only [Nat.succ_pos, if_true, Nat.add_sub_cancel]
      rw [bind_of_ok done, bind_of_ok (Files.at_of_ok removed _), bind_of_ok shiftDone]
      exact Files.at_of_ok renamed _

theorem archive_of_obstacle {archives : Nat} (proper : site.IsProper) (stands : site.IsIn tree)
    (base : tree.node? site.base = some (.file id content)) (obstacle : ¬ IsFree site archives tree) :
    ∃ fault after, archive site.path archives tree = .error fault after ∧ Stalled site content tree after := by
  have positive : 0 < archives := by
    by_contra none
    exact obstacle ⟨fun some => absurd some none, fun some => absurd some none, fun some => absurd some none⟩
  unfold archive
  simp only [positive, if_true]
  by_cases fits : site.Fits (Archive.stagingName site.name)
  swap
  · obtain ⟨fault, failed⟩ := stage_of_blocked proper stands fits base
    exact ⟨fault, tree, bind_of_error failed, .refl stands.sound⟩
  by_cases there : tree.node? site.staging = some .directory
  · obtain ⟨fault, failed⟩ := stage_of_directory proper stands fits base there
    exact ⟨fault, tree, bind_of_error failed, .refl stands.sound⟩
  obtain ⟨number, staged, done, became⟩ := stage_ok proper stands fits base there
  have inStaged := stands.mono (became.keeps there) became.sound
  have stalled : Stalled site content tree staged := ⟨became.home, became.sound, .inr ⟨there, _, became.nodes⟩⟩
  have failed : ∃ cause, Files.removeIfExists (Archive.slotPath site.path archives) staged = .error cause staged := by
    rw [proper.slots]
    by_cases last : site.Fits (Archive.slotName site.name archives)
    · have names := inStaged.namesSibling (Archive.isName_slotName proper.named archives) last
      refine ⟨_, Files.removeIfExists_of_directory names ?_⟩
      rw [became.nodes, show site.directory ++ [String.ofList (Archive.slotName site.name archives)] =
        site.slot archives from rfl, Function.update_of_ne (site.staging_ne_slot archives).symm]
      by_contra filed
      exact obstacle ⟨fun _ => ⟨fits, last⟩, fun _ => there, fun _ => filed⟩
    · exact ⟨_, Files.removeIfExists_of_blocked (inStaged.blocked (Archive.isName_slotName proper.named archives) last)⟩
  obtain ⟨cause, failed⟩ := failed
  refine ⟨.io (Archive.slotPath site.path archives) cause, staged, ?_, stalled⟩
  rw [bind_of_ok done]
  exact bind_of_error (Files.at_of_error failed _)

def HasFiles (site : Site) (count : Nat) (tree : FileTree) : Prop :=
  ∀ number, 1 ≤ number → number ≤ count → tree.node? (site.slot number) ≠ some .directory

theorem HasFiles.spares {archives : Nat} (filed : HasFiles site archives tree) (stands : site.IsIn tree) :
    site.Spares archives tree := by
  have outside : ∀ number, 1 ≤ number → number < archives → ∀ location, tree.node? location = some .directory →
      ¬ site.slot number <+: location := by
    rintro number positive bound location directory ⟨rest, rfl⟩
    have file := filed number positive (Nat.le_of_lt bound)
    by_cases direct : rest = []
    · exact file (by simpa [direct] using directory)
    · rw [stands.sound.none_below file direct] at directory
      simp at directory
  exact ⟨fun number positive bound => outside number positive bound _ stands.sound.home,
    fun number positive bound location member =>
      outside number positive bound location (stands.names.directory_of_way location member)⟩

theorem Archived.others_of_files {archives : Nat} {before after : FileTree} (archived : Archived site archives content before after)
    (sound : before.IsSound) (filed : HasFiles site archives before) (location : Location)
    (notStaging : 0 < archives → location ≠ site.staging)
    (notSlot : ∀ number, 1 ≤ number → number ≤ archives → location ≠ site.slot number) :
    after.node? location = before.node? location := by
  by_cases outside : ∀ number, 1 ≤ number → number ≤ archives → ¬ site.slot number <+: location
  · exact archived.others location notStaging outside
  · simp only [not_forall, not_not] at outside
    obtain ⟨number, positive, bound, rest, rfl⟩ := outside
    have deeper : rest ≠ [] := fun direct => notSlot number positive bound (by rw [direct, List.append_nil])
    rw [sound.none_below (filed number positive bound) deeper]
    refine archived.stands.sound.none_below ?_ deeper
    obtain ⟨lower, rfl⟩ := Nat.exists_eq_add_of_le' positive
    by_cases first : lower = 0
    · subst first
      obtain ⟨id, stands⟩ := sight?_file (archived.first (by omega))
      simp [stands]
    · have slot := archived.slots lower (by omega) (by omega) []
      simp only [List.append_nil] at slot
      rw [slot]
      exact filed lower (by omega) (by omega)

end Rotation

end KeyedLog
