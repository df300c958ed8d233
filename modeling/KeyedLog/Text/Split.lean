/-! Cutting a text at a separator, and putting the pieces together again. -/

namespace KeyedLog.Text

/-- The pieces between the separators, of which there is one more than there are separators. -/
def split (separator : Char) : List Char → List (List Char)
  | [] => [[]]
  | c :: rest =>
    if c = separator then [] :: split separator rest
    else
      match split separator rest with
      | [] => [[c]]
      | piece :: pieces => (c :: piece) :: pieces

def join (separator : Char) : List (List Char) → List Char
  | [] => []
  | [piece] => piece
  | piece :: pieces => piece ++ separator :: join separator pieces

theorem split_ne_nil (separator : Char) (text : List Char) : split separator text ≠ [] := by
  induction text with
  | nil => simp [split]
  | cons c rest ih =>
      rw [split]
      split
      · simp
      · split <;> simp

theorem join_split (separator : Char) (text : List Char) : join separator (split separator text) = text := by
  induction text with
  | nil => rfl
  | cons c rest ih =>
      rw [split]
      split
      next equal =>
        cases pieces : split separator rest with
        | nil => exact absurd pieces (split_ne_nil separator rest)
        | cons piece more => rw [pieces] at ih; simp [join, ih, equal]
      next =>
        cases pieces : split separator rest with
        | nil => exact absurd pieces (split_ne_nil separator rest)
        | cons piece more =>
            rw [pieces] at ih
            cases more with
            | nil => simpa [join] using ih
            | cons next more => simpa [join] using ih

theorem mem_join {separator c : Char} {pieces : List (List Char)} {piece : List Char} (member : piece ∈ pieces)
    (inside : c ∈ piece) : c ∈ join separator pieces := by
  induction pieces with
  | nil => simp at member
  | cons first rest ih =>
      cases rest with
      | nil =>
          rw [List.mem_singleton] at member
          exact member ▸ inside
      | cons next more =>
          rw [join]
          · rcases List.mem_cons.mp member with here | later
            · exact List.mem_append_left _ (here ▸ inside)
            · exact List.mem_append_right _ (List.mem_cons_of_mem _ (ih later))
          · simp

theorem mem_of_mem_join {separator c : Char} {pieces : List (List Char)} (member : c ∈ join separator pieces) :
    c = separator ∨ ∃ piece ∈ pieces, c ∈ piece := by
  induction pieces with
  | nil => simp [join] at member
  | cons piece rest ih =>
      cases rest with
      | nil => exact .inr ⟨piece, List.mem_cons_self, member⟩
      | cons next more =>
          rw [join, List.mem_append, List.mem_cons] at member
          · rcases member with here | between | later
            · exact .inr ⟨piece, List.mem_cons_self, here⟩
            · exact .inl between
            · rcases ih later with between | ⟨other, inside, found⟩
              · exact .inl between
              · exact .inr ⟨other, List.mem_cons_of_mem _ inside, found⟩
          · simp

theorem notMem_of_mem_split {separator : Char} {text piece : List Char} (member : piece ∈ split separator text) :
    separator ∉ piece := by
  induction text generalizing piece with
  | nil =>
      rw [split, List.mem_singleton] at member
      simp [member]
  | cons c rest ih =>
      rw [split] at member
      split at member
      next =>
        rcases List.mem_cons.mp member with first | later
        · simp [first]
        · exact ih later
      next different =>
        split at member
        next empty => exact absurd empty (split_ne_nil separator rest)
        next head tail pieces =>
          rw [pieces] at ih
          rcases List.mem_cons.mp member with first | later
          · have absent := ih (List.mem_cons_self ..)
            simp [first, Ne.symm different, absent]
          · exact ih (List.mem_cons_of_mem _ later)

theorem split_of_notMem {separator : Char} {text : List Char} (absent : separator ∉ text) :
    split separator text = [text] := by
  induction text with
  | nil => rfl
  | cons c rest ih =>
      rw [List.mem_cons, not_or] at absent
      simp [split, Ne.symm absent.1, ih absent.2]

theorem split_append_separator (separator : Char) (first second : List Char) :
    split separator (first ++ separator :: second) = split separator first ++ split separator second := by
  induction first with
  | nil => simp [split]
  | cons c rest ih =>
      rw [List.cons_append, split, ih, split]
      split
      · rfl
      · cases pieces : split separator rest with
        | nil => exact absurd pieces (split_ne_nil separator rest)
        | cons piece more => rfl

theorem split_join {separator : Char} {pieces : List (List Char)} (nonempty : pieces ≠ [])
    (whole : ∀ piece ∈ pieces, separator ∉ piece) : split separator (join separator pieces) = pieces := by
  induction pieces with
  | nil => exact absurd rfl nonempty
  | cons piece rest ih =>
      have absent := whole piece (List.mem_cons_self ..)
      cases rest with
      | nil => exact split_of_notMem absent
      | cons next more =>
          have pieces := ih (by simp) fun other member => whole other (List.mem_cons_of_mem _ member)
          rw [join, split_append_separator, split_of_notMem absent, pieces]
          · rfl
          · simp

theorem append_separator_inj {separator : Char} {first second one two : List Char} (absent : separator ∉ one)
    (missing : separator ∉ two) (same : first ++ separator :: one = second ++ separator :: two) :
    first = second ∧ one = two := by
  rcases List.append_eq_append_iff.mp same with ⟨between, rfl, shape⟩ | ⟨between, rfl, shape⟩
  · cases between with
    | nil => exact ⟨(List.append_nil first).symm, (List.cons.inj shape).2⟩
    | cons c more =>
        obtain ⟨-, rfl⟩ := List.cons.inj shape
        exact absurd (List.mem_append_right more List.mem_cons_self) absent
  · cases between with
    | nil => exact ⟨List.append_nil second, (List.cons.inj shape).2.symm⟩
    | cons c more =>
        obtain ⟨-, rfl⟩ := List.cons.inj shape
        exact absurd (List.mem_append_right more List.mem_cons_self) missing

end KeyedLog.Text
