import KeyedLog.Proofs.Path.Siblings

/-!
The paths above a path. Nothing that leads nowhere stands at their ends, so each but the last has one name more than the
next.
-/

namespace KeyedLog.Path

/-- Nothing that leads nowhere stands at the end of the path. -/
def IsTidy (path : List Char) : Prop :=
  ∃ parts : Parts, parts.IsCut ∧ parts.IsTrimmed ∧ parts.chars = path

structure IsAbove (above path : String) : Prop where
  parent : parent? path = some above
  tidy : IsTidy above.toList
  start : above.toList <+: path.toList
  root : above.toList.head? = some '/' ↔ path.toList.head? = some '/'
  shorter : above.length < path.length

theorem above_or_idle (path : String) :
    (∃ count, steps path.toList = List.replicate count ['.'] ∧ (parent? path = none ∨ parent? path = some "")) ∨
      ∃ above name one two, IsAbove above path ∧ isIdle name = false ∧
        steps path.toList = steps above.toList ++ List.replicate one ['.'] ++ [name] ++ List.replicate two ['.'] := by
  rcases List.eq_nil_or_concat (cut path.toList).pieces with none | ⟨initial, name, split⟩
  · left
    obtain ⟨count, idle⟩ := steps_cut path.toList
    cases front : (cut path.toList).front with
    | here =>
        refine ⟨count + 1, ?_, .inr ?_⟩
        · rw [idle, Parts.steps, none, front, List.replicate_succ]
          rfl
        · simp [parent?, Parts.parent?, none, front, Parts.chars, Front.chars, Text.join]
    | root =>
        refine ⟨count, ?_, .inl ?_⟩
        · rw [idle, Parts.steps, none, front]
          rfl
        · simp [parent?, Parts.parent?, none, front]
    | none =>
        refine ⟨count, ?_, .inl ?_⟩
        · rw [idle, Parts.steps, none, front]
          rfl
        · simp [parent?, Parts.parent?, none, front]
  · right
    rw [List.concat_eq_append] at split
    obtain ⟨parent, isCut, trimmed, above, busy, start, front, one, two, steps⟩ := parent?_of_pieces split
    have shape := Parts.steps_chars isCut
    refine ⟨String.ofList parent.chars, name, one, two, ⟨by simp [parent?, above], ⟨parent, isCut, trimmed, by simp⟩,
      by simpa using start, ?_, ?_⟩, busy, by rw [steps, ← shape]; simp⟩
    · have whole := Parts.head?_chars (isCut_cutFully path.toList)
      rw [chars_cutFully] at whole
      rw [String.toList_ofList, Parts.head?_chars isCut, front, whole]
    -- What is above has fewer names, and is shorter therefore.
    · have length := start.length_le
      have different : parent.chars.length ≠ path.toList.length := by
        intro same
        have equal := start.eq_of_length same
        rw [← equal, shape] at steps
        have count := congrArg List.length steps
        simp at count
      have : (String.ofList parent.chars).length = parent.chars.length := by simp
      rw [this, ← String.length_toList]
      omega

theorem above_of_last {path : String} {before : List (List Char)} {last : List Char}
    (ends : steps path.toList = before ++ [last]) (ordinary : last ≠ ['.']) :
    ∃ above count, IsAbove above path ∧ before = steps above.toList ++ List.replicate count ['.'] := by
  rcases above_or_idle path with ⟨count, idle, -⟩ | ⟨above, name, one, two, isAbove, -, steps⟩
  · have member : last ∈ steps path.toList := by rw [ends]; simp
    rw [idle] at member
    exact absurd (List.eq_of_mem_replicate member) ordinary
  · have none : two = 0 := by
      cases two with
      | zero => rfl
      | succ two =>
          rw [ends, List.replicate_succ', ← List.append_assoc] at steps
          exact absurd (List.singleton_inj.mp (List.append_inj' steps rfl).2) ordinary
    subst none
    rw [ends, List.replicate_zero, List.append_nil] at steps
    exact ⟨above, one, isAbove, (List.append_inj' steps rfl).1⟩

theorem IsTidy.above {path : String} (tidy : IsTidy path.toList) :
    (steps path.toList = [] ∨ steps path.toList = [['.']]) ∨
      ∃ above name count, IsAbove above path ∧
        steps path.toList = steps above.toList ++ List.replicate count ['.'] ++ [name] := by
  obtain ⟨parts, isCut, trimmed, chars⟩ := tidy
  have shape := Parts.steps_chars isCut
  rw [chars] at shape
  rcases List.eq_nil_or_concat parts.pieces with none | ⟨initial, last, split⟩
  · left
    rw [shape, Parts.steps, none]
    cases parts.front with
    | here => exact .inr rfl
    | root => exact .inl rfl
    | none => exact .inl rfl
  · right
    rw [List.concat_eq_append] at split
    have busy := trimmed last (by rw [split, List.getLast?_concat])
    have real : last ≠ [] := by
      rintro rfl
      simp [isIdle] at busy
    have ordinary : last ≠ ['.'] := by
      rintro rfl
      simp [isIdle] at busy
    have ends : steps path.toList = parts.front.steps ++ initial.filter (· ≠ []) ++ [last] := by
      rw [shape, Parts.steps, split]
      simp [real]
    obtain ⟨above, count, isAbove, front⟩ := above_of_last ends ordinary
    exact ⟨above, last, count, isAbove, by rw [ends, front]⟩

end KeyedLog.Path
