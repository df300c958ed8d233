import KeyedLog.Proofs.Files.Numbers

/-!
Where files come from. A file changes its place only when it, or a directory above it, is renamed.
-/

namespace KeyedLog

namespace FileTree

variable {tree before after : FileTree} {region : Location → Prop} {goal location : Location} {path : String}
  {id : FileId} {content : Bytes}

/-- A file that was there before is where it was, or it has come from a place in the region. -/
structure Descends (region : Location → Prop) (before after : FileTree) : Prop where
  home : after.workingDirectory = before.workingDirectory
  next : before.nextId ≤ after.nextId
  files : ∀ location id content, (location, .file id content) ∈ after.nodes → id < before.nextId →
    ∃ source old, (source, .file id old) ∈ before.nodes ∧ (source = location ∨ region source)

theorem Descends.refl (tree : FileTree) : Descends region tree tree :=
  ⟨rfl, Nat.le_refl _, fun location _ content stands _ => ⟨location, content, stands, .inl rfl⟩⟩

theorem Descends.trans {first second third : FileTree} (one : Descends region first second)
    (two : Descends region second third) : Descends region first third := by
  refine ⟨two.home.trans one.home, Nat.le_trans one.next two.next, ?_⟩
  intro location id content stands old
  obtain ⟨middle, between, there, origin⟩ := two.files location id content stands (Nat.lt_of_lt_of_le old one.next)
  obtain ⟨source, start, here, first⟩ := one.files middle id between there old
  refine ⟨source, start, here, ?_⟩
  rcases first with rfl | inside
  · exact origin
  · exact .inr inside

theorem descends_directory (tree : FileTree) (location : Location) :
    Descends region tree (tree.attach location .directory) := by
  refine ⟨rfl, Nat.le_refl _, ?_⟩
  intro place id content stands _
  rcases List.mem_append.mp stands with old | new
  · exact ⟨place, content, old, .inl rfl⟩
  · simp at new

theorem descends_file (tree : FileTree) (location : Location) :
    Descends region tree { tree.attach location (.file tree.nextId []) with nextId := tree.nextId + 1 } := by
  refine ⟨rfl, Nat.le_succ _, ?_⟩
  intro place id content stands old
  rcases List.mem_append.mp stands with there | new
  · exact ⟨place, content, there, .inl rfl⟩
  · obtain ⟨-, same⟩ := Prod.mk.inj (List.mem_singleton.mp new)
    cases same
    exact absurd old (Nat.lt_irrefl _)

theorem descends_detach (tree : FileTree) (location : Location) : Descends region tree (tree.detach location) :=
  ⟨rfl, Nat.le_refl _, fun place _ content stands _ => ⟨place, content, List.mem_of_mem_filter stands, .inl rfl⟩⟩

theorem descends_modifyContent (tree : FileTree) (id : FileId) (change : Bytes → Bytes) :
    Descends region tree (tree.modifyContent id change) := by
  refine ⟨rfl, Nat.le_refl _, ?_⟩
  intro place other content stands _
  obtain ⟨⟨location, node⟩, member, moved⟩ := List.mem_map.mp stands
  cases node with
  | directory => simp at moved
  | file number kept =>
      dsimp only at moved
      split at moved
      next same =>
        obtain ⟨rfl, rewritten⟩ := Prod.mk.inj moved
        cases rewritten
        exact ⟨location, kept, same ▸ member, .inl rfl⟩
      next =>
        obtain ⟨rfl, unchanged⟩ := Prod.mk.inj moved
        cases unchanged
        exact ⟨location, content, member, .inl rfl⟩

theorem descends_move (tree : FileTree) {source : Location} (below : ∀ place, source <+: place → region place)
    (target : Location) : Descends region tree (tree.move source target) := by
  refine ⟨rfl, Nat.le_refl _, ?_⟩
  intro place id content stands _
  obtain ⟨⟨location, node⟩, member, moved⟩ := List.mem_map.mp stands
  dsimp only at moved
  split at moved
  next inside =>
    obtain ⟨-, rfl⟩ := Prod.mk.inj moved
    exact ⟨location, content, member, .inr (below location (List.isPrefixOf_iff_prefix.mp inside))⟩
  next =>
    obtain ⟨rfl, rfl⟩ := Prod.mk.inj moved
    exact ⟨location, content, member, .inl rfl⟩

def Below (region : Location → Prop) (location : Location) : Prop :=
  ∀ place, location <+: place → region place

theorem Edit.descends {own : Location → Prop} (edit : Edit own (Below region) before after) : Descends region before after := by
  cases edit with
  | directory location => exact descends_directory before location
  | file _ => exact descends_file before _
  | detach _ => exact descends_detach before _
  | rewrite id change => exact descends_modifyContent before id change
  | move start _ => exact descends_move before start _

theorem Edits.descends (edits : Edits Anywhere (Below region) before after) : Descends region before after := by
  induction edits with
  | refl => exact Descends.refl before
  | tail _ edit ih => exact ih.trans edit.descends

structure Acquires (region : Location → Prop) (goal : Location) (id : FileId) (before after : FileTree) : Prop where
  given : id < after.nextId
  placed : ∀ location content, (location, .file id content) ∈ after.nodes → location = goal
  known : id < before.nextId → ∃ source content, (source, .file id content) ∈ before.nodes ∧ (source = goal ∨ region source)

theorem Acquires.later {first second third : FileTree} (acquires : Acquires region goal id first second)
    (outside : ¬ region goal) (descends : Descends region second third) : Acquires region goal id first third := by
  refine ⟨Nat.lt_of_lt_of_le acquires.given descends.next, ?_, acquires.known⟩
  intro location content stands
  obtain ⟨source, old, there, origin⟩ := descends.files location id content stands acquires.given
  obtain rfl := acquires.placed source old there
  rcases origin with same | inside
  · exact same.symm
  · exact absurd inside outside

theorem Acquires.earlier {first second third : FileTree} (acquires : Acquires region goal id second third)
    (descends : Descends region first second) : Acquires region goal id first third := by
  refine ⟨acquires.given, acquires.placed, ?_⟩
  intro old
  obtain ⟨middle, between, there, origin⟩ := acquires.known (Nat.lt_of_lt_of_le old descends.next)
  obtain ⟨source, content, here, first⟩ := descends.files middle id between there old
  refine ⟨source, content, here, ?_⟩
  rcases first with rfl | inside
  · exact origin
  · exact .inr inside

end FileTree

end KeyedLog
