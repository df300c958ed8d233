import KeyedLog.Proofs.Files.Routes

/-!
The components of a path. A relative path that is joined to another one adds the names in it, and so leads to a place below the
other unless it goes up.
-/

namespace KeyedLog

namespace Path

/-- What a path is made of. -/
inductive Component where
  | root
  | here
  | above
  | name (piece : List Char)
  deriving DecidableEq, Repr

def Front.components : Front → List Component
  | none => []
  | root => [.root]
  | here => [.here]

def Component.ofPiece (piece : List Char) : Component :=
  if piece = Path.above then .above else .name piece

def components (path : List Char) : List Component :=
  (cut path).front.components ++ (cut path).names.map .ofPiece

def names (path : List Char) : List (List Char) :=
  (Text.split '/' path).filter fun piece => !isIdle piece

theorem Parts.names_trim (parts : Parts) : parts.trim.names = parts.names := by
  obtain ⟨idle, pieces, named⟩ := parts.pieces_trim
  have nameless : idle.filter (fun piece => !isIdle piece) = [] := by
    rw [List.filter_eq_nil_iff]
    intro piece member
    simp [named piece member]
  rw [names, names, pieces, List.filter_append, nameless, List.append_nil]

theorem names_cut (path : List Char) : (cut path).names = names path := by
  rw [cut, Parts.names_trim]
  unfold cutFully
  split
  · simp [Parts.names, names, Text.split, isIdle]
  · rfl
  · simp [Parts.names, names, Text.split, isIdle]
  · rfl

theorem front_cut (path : List Char) :
    (cut path).front = if path.head? = some '/' then .root
      else if (Text.split '/' path).head? = some ['.'] then .here else .none := by
  show (cutFully path).front = _
  unfold cutFully
  split
  · simp
  · rfl
  · simp [Text.split]
  next notRoot notDot notHere =>
    have relative : path.head? ≠ some '/' := by
      intro first
      obtain ⟨rest, rfl⟩ := List.head?_eq_some_iff.mp first
      exact notRoot rest rfl
    have busy : (Text.split '/' path).head? ≠ some ['.'] := by
      intro first
      obtain ⟨pieces, shape⟩ := List.head?_eq_some_iff.mp first
      have whole := Text.join_split '/' path
      rw [shape] at whole
      cases pieces with
      | nil => exact notDot whole.symm
      | cons next more => exact notHere _ whole.symm
    rw [if_neg relative, if_neg busy]

theorem components_eq (path : List Char) :
    components path = (cut path).front.components ++ (names path).map .ofPiece := by
  rw [components, names_cut]

theorem names_append_slash (first second : List Char) : names (first ++ '/' :: second) = names first ++ names second := by
  simp only [names, Text.split_append_separator, List.filter_append]

theorem head?_split_append (first second : List Char) :
    (Text.split '/' (first ++ '/' :: second)).head? = (Text.split '/' first).head? := by
  rw [Text.split_append_separator, List.head?_append_of_ne_nil _ (Text.split_ne_nil '/' first)]

theorem joinChars_cases (base : List Char) {path : List Char} (relative : path.head? ≠ some '/') :
    base = [] ∧ joinChars base path = path ∨
      ∃ first, (base = first ++ ['/'] ∨ base = first ∧ base ≠ []) ∧ joinChars base path = first ++ '/' :: path := by
  have notRoot : ∀ rest, path ≠ '/' :: rest := by
    rintro rest rfl
    exact relative rfl
  unfold joinChars
  split
  next rest => exact absurd rfl (notRoot rest)
  next =>
    cases final : base.getLast? with
    | none => exact .inl ⟨List.getLast?_eq_none_iff.mp final, rfl⟩
    | some last =>
        obtain ⟨initial, rfl⟩ := List.getLast?_eq_some_iff.mp final
        by_cases slash : last = '/'
        · subst slash
          exact .inr ⟨initial, .inl rfl, by simp⟩
        · exact .inr ⟨initial ++ [last], .inr ⟨rfl, by simp⟩, by simp [slash]⟩

theorem mem_of_mem_joinChars {base path : List Char} {c : Char} (member : c ∈ joinChars base path) :
    c ∈ base ∨ c = '/' ∨ c ∈ path := by
  unfold joinChars at member
  split at member
  · exact .inr (.inr member)
  · split at member
    · exact .inr (.inr member)
    · split at member
      · exact (List.mem_append.mp member).imp_right .inr
      · simpa using member

theorem names_joinChars (base : List Char) {path : List Char} (relative : path.head? ≠ some '/') :
    names (joinChars base path) = names base ++ names path := by
  obtain ⟨rfl, joined⟩ | ⟨first, rfl | ⟨rfl, -⟩, joined⟩ := joinChars_cases base relative
  · rw [joined]
    rfl
  · rw [joined, names_append_slash, names_append_slash, List.append_assoc]
    rfl
  · rw [joined, names_append_slash]

theorem front_joinChars {base : List Char} (nonempty : base ≠ []) {path : List Char} (relative : path.head? ≠ some '/') :
    (cut (joinChars base path)).front = (cut base).front := by
  rw [front_cut, front_cut]
  obtain ⟨empty, -⟩ | ⟨first, rfl | ⟨rfl, -⟩, joined⟩ := joinChars_cases base relative
  · exact absurd empty nonempty
  · rw [joined, head?_split_append, head?_split_append]
    cases first <;> rfl
  · rw [joined, head?_split_append, List.head?_append_of_ne_nil _ nonempty]

theorem components_joinChars (base : List Char) {path : List Char} (relative : (cut path).front = .none) :
    components (joinChars base path) = components base ++ (names path).map .ofPiece := by
  have start : path.head? ≠ some '/' := by
    intro root
    rw [front_cut, if_pos root] at relative
    simp at relative
  rw [components_eq, components_eq, names_joinChars base start, List.map_append, ← List.append_assoc]
  congr 2
  by_cases nothing : base = []
  · subst nothing
    obtain ⟨-, joined⟩ | ⟨first, empty | ⟨-, empty⟩, -⟩ := joinChars_cases [] start
    · rw [joined, relative]
      rfl
    · simp at empty
    · exact absurd rfl empty
  · rw [front_joinChars nothing start]

theorem mem_names {path piece : List Char} : piece ∈ names path ↔ piece ∈ Text.split '/' path ∧ isIdle piece = false := by
  simp [names]

end Path

namespace FileTree

open KeyedLog.Path

theorem steps_joinChars (base : List Char) {path : List Char} (relative : path.head? ≠ some '/') :
    steps (joinChars base path) = steps base ++ steps path := by
  have further : ∀ first second, steps (first ++ '/' :: second) = steps first ++ steps second := by
    intro first second
    simp only [steps, Text.split_append_separator, List.filter_append]
  obtain ⟨rfl, joined⟩ | ⟨first, rfl | ⟨rfl, -⟩, joined⟩ := joinChars_cases base relative
  · rw [joined]
    rfl
  · rw [joined, further, further, List.append_assoc]
    rfl
  · rw [joined, further]

theorem origin_joinChars (tree : FileTree) (base : List Char) {path : List Char} (relative : path.head? ≠ some '/') :
    tree.origin (joinChars base path) = tree.origin base := by
  obtain ⟨rfl, joined⟩ | ⟨first, rfl | ⟨rfl, nonempty⟩, joined⟩ := joinChars_cases base relative
  · rw [joined, origin, if_neg relative]
    rfl
  · rw [joined]
    cases first <;> rfl
  · rw [joined, origin, origin, List.head?_append_of_ne_nil _ nonempty]

theorem foldl_descend (start : Location) {steps : List (List Char)} (down : Path.above ∉ steps) :
    (steps.map String.ofList).foldl descend start =
      start ++ (steps.filter fun step => step ≠ ['.']).map String.ofList := by
  induction steps generalizing start with
  | nil => simp
  | cons step rest ih =>
      obtain ⟨first, later⟩ := not_or.mp fun here => down (List.mem_cons.mpr here)
      have below : String.ofList step ≠ ".." := fun same => first (String.ofList_inj.mp (same.trans rfl)).symm
      rw [List.map_cons, List.foldl_cons, ih _ later]
      by_cases dot : step = ['.']
      · subst dot
        simp [descend]
      · have ordinary : String.ofList step ≠ "." := fun same => dot (String.ofList_inj.mp (same.trans rfl))
        simp [descend, ordinary, below, dot]

/-- A relative path that does not go up leads to a place below the place of the path that it is joined to. -/
theorem place_join (tree : FileTree) (base path : String) (relative : path.toList.head? ≠ some '/')
    (down : Path.above ∉ Text.split '/' path.toList) :
    tree.place (join base path) = tree.place base ++ (names path.toList).map String.ofList := by
  have below : Path.above ∉ steps path.toList := fun member => down (List.mem_filter.mp member).1
  have named : (steps path.toList).filter (fun step => step ≠ ['.']) = names path.toList := by
    rw [steps, List.filter_filter, names]
    refine List.filter_congr fun piece _ => ?_
    by_cases nothing : piece = [] <;> by_cases dot : piece = ['.'] <;> simp [isIdle, nothing, dot]
  rw [place, join, String.toList_ofList, steps_joinChars _ relative, origin_joinChars tree _ relative, List.map_append,
    List.foldl_append, foldl_descend _ below, named]
  rfl

end FileTree

end KeyedLog
