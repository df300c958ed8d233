import KeyedLog.Proofs.Files.Opening
import Mathlib.Logic.Relation

/-!
The changes that operations on files are made of. Each operation, whether it fails or not, is a run of them, so what each
change keeps every operation keeps.
-/

namespace KeyedLog

namespace FileTree

/-- One change of a tree. Files are made and taken away at some places only, and things are moved between some only. -/
inductive Edit (own shifts : Location → Prop) : FileTree → FileTree → Prop where
  | directory (tree : FileTree) (location : Location) : Edit own shifts tree (tree.attach location .directory)
  | file (tree : FileTree) {location : Location} (inside : own location) :
      Edit own shifts tree { tree.attach location (.file tree.nextId []) with nextId := tree.nextId + 1 }
  | detach (tree : FileTree) {location : Location} (inside : own location) : Edit own shifts tree (tree.detach location)
  | rewrite (tree : FileTree) (id : FileId) (change : Bytes → Bytes) : Edit own shifts tree (tree.modifyContent id change)
  | move (tree : FileTree) {source target : Location} (start : shifts source) (goal : shifts target) :
      Edit own shifts tree (tree.move source target)

abbrev Edits (own shifts : Location → Prop) : FileTree → FileTree → Prop :=
  Relation.ReflTransGen (Edit own shifts)

abbrev Anywhere (_ : Location) : Prop :=
  True

variable {own shifts : Location → Prop} {before after : FileTree}

theorem Edits.home (edits : Edits own shifts before after) : after.workingDirectory = before.workingDirectory := by
  induction edits with
  | refl => rfl
  | tail _ edit ih => cases edit <;> exact ih

end FileTree

namespace Files

open FileTree

variable {own shifts : Location → Prop}

theorem edits_bind {α β : Type} {action : FileAction α} {next : α → FileAction β} {tree : FileTree}
    (first : Edits own shifts tree (stateAfter action tree))
    (second : ∀ value after, action tree = .ok value after → Edits own shifts after (stateAfter (next value) after)) :
    Edits own shifts tree (stateAfter (action >>= next) tree) :=
  stateAfter_bind (Edits own shifts) Relation.ReflTransGen.trans first second

theorem edits_place {α : Type} (path : String) (otherwise : IoFault) {next : Slot → Location → FileAction α} {tree : FileTree}
    (goesOn : ∀ slot, Edits own shifts tree (stateAfter (next slot (tree.place path)) tree)) :
    Edits own shifts tree (stateAfter (look (·.slot path) >>= fun slot => place slot otherwise >>= next slot) tree) := by
  refine edits_bind (by rw [look_state]) ?_
  intro slot after looked
  obtain ⟨found, rfl⟩ := look_ok looked
  refine edits_bind (by rw [place_state]) ?_
  intro location last placed
  obtain ⟨rfl, name, named, next⟩ := place_ok placed
  rw [← place_of_slot found named next]
  exact goesOn slot

theorem openForReading_state (path : String) (tree : FileTree) : stateAfter (openForReading path) tree = tree := by
  unfold openForReading
  cases seen : tree.find path with
  | ok value =>
      rw [stateAfter, bind_of_ok (look_of_ok seen)]
      rfl
  | error fault => rw [stateAfter, bind_of_error (look_of_error seen)]

theorem makeDirectory_edits (path : String) (tree : FileTree) :
    Edits own shifts tree (stateAfter (makeDirectory path) tree) := by
  unfold makeDirectory
  refine edits_place path _ fun _ => ?_
  rw [stateAfter_get]
  cases tree.node? (tree.place path) with
  | some node => exact .refl
  | none => exact .single (.directory tree _)

theorem makeDirectories_edits (path : String) (tree : FileTree) :
    Edits own shifts tree (stateAfter (makeDirectories path) tree) :=
  makeDirectories_keeps (Edits own shifts) (fun _ => .refl) Relation.ReflTransGen.trans makeDirectory_edits path tree

theorem openForWriting_edits (path : String) (tree : FileTree) (inside : own (tree.place path)) :
    Edits own shifts tree (stateAfter (openForWriting path) tree) := by
  unfold openForWriting
  refine edits_bind (by rw [look_state]) ?_
  intro slot after looked
  obtain ⟨found, rfl⟩ := look_ok looked
  refine stateAfter_ite _ .refl ?_
  refine edits_bind (by rw [place_state]) ?_
  intro location last placed
  obtain ⟨rfl, name, named, next⟩ := place_ok placed
  rw [stateAfter_get]
  cases last.node? location with
  | some node => cases node <;> exact .refl
  | none => exact .single (.file last (place_of_slot found named next ▸ inside))

theorem append_edits (handle : FileHandle) (bytes : Bytes) (tree : FileTree) :
    Edits own shifts tree (stateAfter (append handle bytes) tree) :=
  .single (.rewrite tree handle.id (· ++ bytes))

theorem create_edits (path : String) (tree : FileTree) (inside : own (tree.place path)) :
    Edits own shifts tree (stateAfter (create path) tree) := by
  unfold create
  refine edits_bind (openForWriting_edits path tree inside) ?_
  intro opened after _
  exact edits_bind (.single (.rewrite after opened.1.id _)) fun _ _ _ => .refl

theorem removeFile_edits (path : String) (tree : FileTree) (inside : own (tree.place path)) :
    Edits own shifts tree (stateAfter (removeFile path) tree) := by
  unfold removeFile
  refine edits_place path _ fun slot => ?_
  rw [stateAfter_get]
  cases tree.node? (tree.place path) with
  | none => exact .refl
  | some node =>
      cases node with
      | directory => exact .refl
      | file id content => cases slot.asDirectory <;> first | exact .refl | exact .single (.detach tree inside)

theorem removeIfExists_edits (path : String) (tree : FileTree) (inside : own (tree.place path)) :
    Edits own shifts tree (stateAfter (removeIfExists path) tree) := by
  unfold removeIfExists
  refine stateAfter_tryCatch (Edits own shifts) Relation.ReflTransGen.trans (removeFile_edits path tree inside) ?_
  intro fault after _
  split <;> exact .refl

theorem rename_edits (source target : String) (tree : FileTree) (start : shifts (tree.place source))
    (goal : shifts (tree.place target)) (inside : own (tree.place target)) :
    Edits own shifts tree (stateAfter (rename source target) tree) := by
  unfold rename
  refine edits_bind (by rw [look_state]) ?_
  intro fromSlot first looked
  obtain ⟨found, rfl⟩ := look_ok looked
  refine edits_bind (by rw [look_state]) ?_
  intro toSlot second seen
  obtain ⟨foundGoal, rfl⟩ := look_ok seen
  refine edits_bind (by rw [place_state]) ?_
  intro origin third placed
  obtain ⟨rfl, name, named, next⟩ := place_ok placed
  refine edits_bind (by rw [place_state]) ?_
  intro location fourth reached
  obtain ⟨rfl, goalName, goalNamed, goalNext⟩ := place_ok reached
  rw [place_of_slot found named next] at start
  rw [place_of_slot foundGoal goalNamed goalNext] at goal inside
  rw [stateAfter_get]
  split
  · exact .refl
  · exact .refl
  · exact .refl
  · refine stateAfter_ite _ .refl (stateAfter_ite _ .refl (stateAfter_ite _ .refl (stateAfter_ite _ .refl ?_)))
    exact (Relation.ReflTransGen.single (.detach fourth inside)).tail (.move _ start goal)

theorem touch_edits (path : String) (tree : FileTree) (inside : own (tree.place path)) :
    Edits own shifts tree (stateAfter (touch path) tree) := by
  have opened : ∀ tree, own (tree.place path) → Edits own shifts tree (stateAfter ((openForWriting path).at path) tree) := by
    intro tree inside
    rw [stateAfter_at]
    exact openForWriting_edits path tree inside
  unfold touch
  cases Path.parent? path with
  | none => exact opened tree inside
  | some parent =>
      dsimp only
      refine stateAfter_ite _ ?_ (opened tree inside)
      have above : Edits own shifts tree (stateAfter ((makeDirectories parent).at parent) tree) := by
        rw [stateAfter_at]
        exact makeDirectories_edits parent tree
      refine stateAfter_bind (Edits own shifts) Relation.ReflTransGen.trans above ?_
      intro _ after done
      rw [stateAfter_of_ok done] at above
      exact opened after (by rwa [place_congr above.home])

end Files

end KeyedLog
