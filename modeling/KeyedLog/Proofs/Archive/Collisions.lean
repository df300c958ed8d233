import KeyedLog.Proofs.Path.Directories

/-!
Archives of different files in one directory. The path of an archive tells the name of its file and its slot, so that no two
archives have one path, and none has that of its file or of a staging file.
-/

namespace KeyedLog.Archive

open KeyedLog.Path

variable {directory first second one two : String}

theorem components_slotPath (stands : StandsIn directory first one) (slot : Nat) :
    components (slotPath one slot).toList = components directory.toList ++ [.name (slotName first.toList slot)] := by
  rw [(slotPath_standsIn stands (isLeaf_of_fileName? stands.last).whole slot).components_eq, String.toList_ofList]

theorem components_stagingPath (stands : StandsIn directory first one) :
    components (stagingPath one).toList = components directory.toList ++ [.name (stagingName first.toList)] := by
  rw [(stagingPath_standsIn stands (isLeaf_of_fileName? stands.last).whole).components_eq, String.toList_ofList]

theorem components_concat_inj {above : List Component} {left right : List Char} :
    above ++ [.name left] = above ++ [.name right] ↔ left = right := by
  simp

/-- Archives of two files in one directory, whatever their names are and however the directory is written, have the same path
only if they are archives of one file in one slot. The path of an archive is neither that of its file nor the staging path of a
file in the directory, and all of them stand in the directory. Paths are compared by their components. -/
theorem archive_paths_never_collide (oneStands : StandsIn directory first one) (twoStands : StandsIn directory second two)
    (i j : Nat) :
    (components (slotPath one i).toList = components (slotPath two j).toList ↔ first = second ∧ i = j) ∧
    components (slotPath one i).toList ≠ components one.toList ∧
    components (slotPath one i).toList ≠ components (stagingPath two).toList ∧
    (∃ name, StandsIn directory name (slotPath one i)) ∧ ∃ name, StandsIn directory name (stagingPath one) := by
  have whole := (isLeaf_of_fileName? oneStands.last).whole
  refine ⟨?_, ?_, ?_, ⟨_, slotPath_standsIn oneStands whole i⟩, ⟨_, stagingPath_standsIn oneStands whole⟩⟩
  · rw [components_slotPath oneStands, components_slotPath twoStands, components_concat_inj, slotName_inj, String.toList_inj]
  · rw [components_slotPath oneStands, oneStands.components_eq, ne_eq, components_concat_inj]
    exact slotName_ne first.toList i
  · rw [components_slotPath oneStands, components_stagingPath twoStands, ne_eq, components_concat_inj]
    exact (stagingName_ne_slotName _ _).symm

theorem archive_paths_never_collide_dotted :
    StandsIn "logs" "app.log" "logs/./app.log" ∧ StandsIn "logs" "app.1.log" "logs//app.1.log/" ∧
      components (slotPath "logs/./app.log" 11).toList ≠ components (slotPath "logs//app.1.log/" 1).toList ∧
      components (slotPath "logs/./app.log" 11).toList ≠ components "logs/./app.log".toList ∧
      components (slotPath "logs/./app.log" 11).toList ≠ components (stagingPath "logs//app.1.log/").toList ∧
      (∃ name, StandsIn "logs" name "logs/app.11.log.gz") ∧ ∃ name, StandsIn "logs" name "logs/app.1.log.gz.tmp" := by
  have oneStands : StandsIn "logs" "app.log" "logs/./app.log" := ⟨by decide, "logs", by decide, by decide⟩
  have twoStands : StandsIn "logs" "app.1.log" "logs//app.1.log/" := ⟨by decide, "logs", by decide, by decide⟩
  obtain ⟨apart, own, staging, beside, staged⟩ := archive_paths_never_collide oneStands twoStands 11 1
  have slot : slotPath "logs/./app.log" 11 = "logs/app.11.log.gz" := by decide
  have temporary : stagingPath "logs/./app.log" = "logs/app.1.log.gz.tmp" := by decide
  exact ⟨oneStands, twoStands, fun same => absurd (apart.mp same).1 (by decide), own, staging, slot ▸ beside,
    temporary ▸ staged⟩

end KeyedLog.Archive
