import KeyedLog.Proofs.Path.Components
import KeyedLog.Store

/-!
Where objects are kept. An id is refused exactly if it could lead out of the directory of its type, so that every object stands
below that directory, and no object of one type stands above one of the other.
-/

namespace KeyedLog

open KeyedLog.Path

namespace DocumentType

theorem names_area (type : DocumentType) : Path.names type.area.toList = [type.area.toList] := by
  cases type <;> decide

theorem steps_area (type : DocumentType) : Path.steps type.area.toList = [type.area.toList] := by
  cases type <;> decide

theorem relative_area (type : DocumentType) : type.area.toList.head? ≠ some '/' := by
  cases type <;> decide

theorem area_injective {first second : DocumentType} (same : first.area = second.area) : first = second := by
  cases first <;> cases second <;> first | rfl | exact absurd same (by decide)

end DocumentType

namespace DirectoryStore

/-- An id that names nothing, starts at the root or where it stands, or goes up somewhere. -/
def LeadsAway (id : String) : Prop :=
  id = "" ∨ id.toList.head? = some '/' ∨ (Text.split '/' id.toList).head? = some ['.'] ∨
    Path.above ∈ Text.split '/' id.toList

theorem above_mem_cut (path : List Char) : Path.above ∈ (cut path).pieces ↔ Path.above ∈ Text.split '/' path := by
  have busy : isIdle Path.above = false := rfl
  have cutNames : Path.above ∈ (cut path).names ↔ Path.above ∈ (cut path).pieces := by simp [Parts.names, busy]
  rw [← cutNames, names_cut, mem_names]
  simp [busy]

theorem isPlainId_iff (id : String) : isPlainId id = true ↔ ¬ LeadsAway id := by
  have front : (cut id.toList).front = .none ↔
      id.toList.head? ≠ some '/' ∧ (Text.split '/' id.toList).head? ≠ some ['.'] := by
    rw [front_cut]
    split
    next root => simp [root]
    next relative =>
      split
      next here => simp [here]
      next => simp_all
  unfold LeadsAway
  simp only [isPlainId, Bool.and_eq_true, Bool.not_eq_true', beq_iff_eq, List.contains_eq_mem, decide_eq_false_iff_not,
    above_mem_cut, front, not_or, String.isEmpty_eq_false_iff]
  tauto

theorem names_of_plain {id : String} (plain : ¬ LeadsAway id) : Path.names id.toList ≠ [] := by
  simp only [LeadsAway, not_or] at plain
  obtain ⟨nonempty, relative, ordinary, -⟩ := plain
  cases chars : id.toList with
  | nil => exact absurd (String.toList_eq_nil_iff.mp chars) nonempty
  | cons c rest =>
      rw [chars] at relative ordinary
      have different : c ≠ '/' := by simpa using relative
      have first : ∃ piece pieces, Text.split '/' (c :: rest) = piece :: pieces ∧ piece ≠ [] := by
        rw [Text.split, if_neg different]
        split <;> exact ⟨_, _, rfl, by simp⟩
      obtain ⟨piece, pieces, shape, busy⟩ := first
      have dot : piece ≠ ['.'] := by simpa [shape] using ordinary
      have member : piece ∈ Path.names (c :: rest) := mem_names.mpr ⟨by simp [shape], by simp [isIdle, busy, dot]⟩
      exact List.ne_nil_of_mem member

variable {store : DirectoryStore} {id path : String} {type : DocumentType}

theorem ofPiece_of_plain (plain : ¬ LeadsAway id) : ∀ piece ∈ Path.names id.toList, Component.ofPiece piece = .name piece := by
  intro piece member
  have down : piece ≠ Path.above := by
    rintro rfl
    exact plain (.inr (.inr (.inr (mem_names.mp member).1)))
  rw [Component.ofPiece, if_neg down]

theorem objectPath_eq (store : DirectoryStore) (id : String) (type : DocumentType) :
    LeadsAway id ∧ store.objectPath id type = .error (.invalidId id) ∨
      ¬ LeadsAway id ∧ store.objectPath id type = .ok (join (join store.root type.area) id) := by
  unfold objectPath
  by_cases plain : isPlainId id = true
  · exact .inr ⟨(isPlainId_iff id).mp plain, by rw [if_pos plain]⟩
  · refine .inl ⟨?_, by rw [if_neg plain]⟩
    by_contra down
    exact plain ((isPlainId_iff id).mpr down)

theorem components_objectPath (kept : store.objectPath id type = .ok path) :
    components path.toList =
      components store.root.toList ++ .name type.area.toList :: (Path.names id.toList).map .name := by
  obtain ⟨-, refused⟩ | ⟨plain, accepted⟩ := objectPath_eq store id type
  · simp [refused] at kept
  obtain rfl : join (join store.root type.area) id = path := by simpa [accepted] using kept
  have front := (isPlainId_iff id).mpr plain
  simp only [isPlainId, Bool.and_eq_true, beq_iff_eq] at front
  have area : (cut type.area.toList).front = .none := by cases type <;> decide
  have areaName : Component.ofPiece type.area.toList = .name type.area.toList := by cases type <;> decide
  calc components (join (join store.root type.area) id).toList
      = components (joinChars store.root.toList type.area.toList) ++ (Path.names id.toList).map .ofPiece := by
        rw [join, join, String.toList_ofList, String.toList_ofList, components_joinChars _ front.1.2]
    _ = components store.root.toList ++ [.name type.area.toList] ++ (Path.names id.toList).map .name := by
        rw [components_joinChars _ area, DocumentType.names_area, List.map_singleton, areaName,
          List.map_congr_left (ofPiece_of_plain plain)]
    _ = _ := by rw [List.append_assoc, List.singleton_append]

theorem places_objectPath (kept : store.objectPath id type = .ok path) (files : FileTree) :
    files.place path = files.place store.root ++ type.area :: (Path.names id.toList).map String.ofList := by
  obtain ⟨-, refused⟩ | ⟨plain, accepted⟩ := objectPath_eq store id type
  · simp [refused] at kept
  obtain rfl : join (join store.root type.area) id = path := by simpa [accepted] using kept
  simp only [LeadsAway, not_or] at plain
  obtain ⟨-, relative, -, down⟩ := plain
  have areaDown : Path.above ∉ Text.split '/' type.area.toList := by cases type <;> decide
  rw [FileTree.place_join files _ id relative down, FileTree.place_join files _ _ type.relative_area areaDown,
    DocumentType.names_area, List.append_assoc]
  simp

end DirectoryStore

/-- An id is refused exactly if it is empty, starts with a slash or with the piece `.`, or has a piece `..`. Otherwise the path
of the object is that of the root, the directory of its type and the names in the id, of which there is at least one. So
the object stands below the directory of its type, and of two objects of different types neither stands at or above the other. -/
theorem object_paths_are_contained (store : DirectoryStore) (id : String) (type : DocumentType) :
    (store.objectPath id type = .error (.invalidId id) ↔
      id = "" ∨ id.toList.head? = some '/' ∨ (Text.split '/' id.toList).head? = some ['.'] ∨
        Path.above ∈ Text.split '/' id.toList) ∧
    (store.objectPath id type = .error (.invalidId id) ∨
      ∃ path, store.objectPath id type = .ok path ∧ Path.names id.toList ≠ [] ∧
        components path.toList =
          components store.root.toList ++ .name type.area.toList :: (Path.names id.toList).map .name ∧
        ∀ files : FileTree, files.place path =
          files.place store.root ++ type.area :: (Path.names id.toList).map String.ofList) ∧
    ∀ other otherType path otherPath, type ≠ otherType → store.objectPath id type = .ok path →
      store.objectPath other otherType = .ok otherPath →
        (¬ components path.toList <+: components otherPath.toList ∧
          ¬ components otherPath.toList <+: components path.toList) ∧
        ∀ files : FileTree, ¬ files.place path <+: files.place otherPath ∧
          ¬ files.place otherPath <+: files.place path := by
  refine ⟨?_, ?_, ?_⟩
  · obtain ⟨away, refused⟩ | ⟨plain, accepted⟩ := DirectoryStore.objectPath_eq store id type
    · exact iff_of_true refused away
    · exact iff_of_false (by simp [accepted]) plain
  · obtain ⟨-, refused⟩ | ⟨plain, accepted⟩ := DirectoryStore.objectPath_eq store id type
    · exact .inl refused
    · exact .inr ⟨_, accepted, DirectoryStore.names_of_plain plain, DirectoryStore.components_objectPath accepted,
        DirectoryStore.places_objectPath accepted⟩
  · intro other otherType path otherPath different kept keptOther
    have apart : type.area ≠ otherType.area := fun same => different (DocumentType.area_injective same)
    have apartChars : type.area.toList ≠ otherType.area.toList := fun same => apart (String.toList_inj.mp same)
    refine ⟨?_, fun files => ?_⟩
    · rw [DirectoryStore.components_objectPath kept, DirectoryStore.components_objectPath keptOther,
        List.prefix_append_right_inj, List.prefix_append_right_inj, List.cons_prefix_cons, List.cons_prefix_cons]
      simp [apartChars, apartChars.symm]
    · rw [DirectoryStore.places_objectPath kept, DirectoryStore.places_objectPath keptOther,
        List.prefix_append_right_inj, List.prefix_append_right_inj, List.cons_prefix_cons, List.cons_prefix_cons]
      simp [apart, apart.symm]

theorem object_paths_are_contained_untidy :
    DirectoryStore.objectPath ⟨"./logs/../s/"⟩ "ws//./a/b/." .applicationLogs = .ok "./logs/../s/app-logging/ws//./a/b/." ∧
    DirectoryStore.objectPath ⟨"./logs/../s/"⟩ "app-logging/ws" .jobLogs = .ok "./logs/../s/job-logging/app-logging/ws" ∧
    components "./logs/../s/app-logging/ws//./a/b/.".toList =
      components "./logs/../s/".toList ++ [.name "app-logging".toList, .name "ws".toList, .name "a".toList, .name "b".toList] ∧
    ¬ components "./logs/../s/app-logging/ws//./a/b/.".toList <+:
      components "./logs/../s/job-logging/app-logging/ws".toList := by
  have kept : DirectoryStore.objectPath ⟨"./logs/../s/"⟩ "ws//./a/b/." .applicationLogs =
      .ok "./logs/../s/app-logging/ws//./a/b/." := by decide +kernel
  have keptOther : DirectoryStore.objectPath ⟨"./logs/../s/"⟩ "app-logging/ws" .jobLogs =
      .ok "./logs/../s/job-logging/app-logging/ws" := by decide +kernel
  obtain ⟨-, -, apart⟩ := object_paths_are_contained ⟨"./logs/../s/"⟩ "ws//./a/b/." .applicationLogs
  exact ⟨kept, keptOther, by decide +kernel, (apart _ .jobLogs _ _ (by decide) kept keptOther).1.1⟩

end KeyedLog
