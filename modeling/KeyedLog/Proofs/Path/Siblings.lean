import KeyedLog.Path
import Mathlib.Data.List.Basic

/-!
Paths beside a path. Whoever follows a path with another last name goes the same way, up to names that lead nowhere.
-/

namespace KeyedLog.Path

def steps (path : List Char) : List (List Char) :=
  (Text.split '/' path).filter (· ≠ [])

def Front.steps : Front → List (List Char)
  | none => []
  | root => []
  | here => [['.']]

namespace Parts

def steps (parts : Parts) : List (List Char) :=
  parts.front.steps ++ parts.pieces.filter (· ≠ [])

/-- Parts that cutting a path can give. -/
structure IsCut (parts : Parts) : Prop where
  whole : ∀ piece ∈ parts.pieces, '/' ∉ piece
  relative : parts.front = .none → parts.pieces.head? = some [] → parts.pieces = [[]]
  here : parts.front = .here → parts.pieces.head?.getD [] = []

theorem isCut_prefix {parts : Parts} (cut : parts.IsCut) {pieces : List (List Char)}
    (initial : pieces <+: parts.pieces) : IsCut { parts with pieces } := by
  obtain ⟨rest, split⟩ := initial
  constructor
  case whole =>
    intro piece member
    exact cut.whole piece (split ▸ List.mem_append_left rest member)
  case relative =>
    intro front first
    cases pieces with
    | nil => simp at first
    | cons head tail =>
        have only := cut.relative front (by simpa [← split] using first)
        rw [← split] at only
        obtain ⟨rfl, nothing⟩ := List.cons.inj only
        simp [(List.append_eq_nil_iff.mp nothing).1]
  case here =>
    intro front
    cases pieces with
    | nil => rfl
    | cons head tail => simpa [← split] using cut.here front

theorem steps_chars {parts : Parts} (cut : parts.IsCut) : Path.steps parts.chars = parts.steps := by
  obtain ⟨front, pieces⟩ := parts
  by_cases empty : pieces = []
  · subst empty
    cases front <;> decide
  · have rejoined := Text.split_join empty cut.whole
    cases front with
    | none => simp [Path.steps, chars, Front.chars, steps, Front.steps, rejoined]
    | root => simp [Path.steps, chars, Front.chars, steps, Front.steps, Text.split, rejoined]
    | here =>
        cases pieces with
        | nil => exact absurd rfl empty
        | cons head tail =>
            have first : head = [] := by simpa using cut.here rfl
            subst first
            cases tail with
            | nil => decide
            | cons next more =>
                have tailJoined : Text.split '/' (Text.join '/' (next :: more)) = next :: more :=
                  Text.split_join (by simp) fun piece member => cut.whole piece (List.mem_cons_of_mem _ member)
                simp [Path.steps, chars, Front.chars, steps, Front.steps, Text.join, Text.split, tailJoined]

theorem head?_chars {parts : Parts} (cut : parts.IsCut) :
    parts.chars.head? = some '/' ↔ parts.front = .root := by
  obtain ⟨front, pieces⟩ := parts
  cases front with
  | root => simp [chars, Front.chars]
  | here => simp [chars, Front.chars]
  | none =>
      simp only [chars, Front.chars, List.nil_append, reduceCtorEq, iff_false]
      cases pieces with
      | nil => simp [Text.join]
      | cons head tail =>
          have absent := cut.whole head (List.mem_cons_self ..)
          cases head with
          | nil =>
              have only := cut.relative rfl rfl
              cases only
              simp [Text.join]
          | cons c more =>
              have different : c ≠ '/' := by
                rintro rfl
                exact absent (List.mem_cons_self ..)
              cases tail <;> simpa [Text.join] using different

theorem join_prefix {initial pieces : List (List Char)} (start : initial <+: pieces) :
    Text.join '/' initial <+: Text.join '/' pieces := by
  induction initial generalizing pieces with
  | nil => simp [Text.join]
  | cons piece rest ih =>
      obtain ⟨more, rfl⟩ := start
      cases rest with
      | nil =>
          cases more with
          | nil => exact List.prefix_rfl
          | cons next more => exact ⟨'/' :: Text.join '/' (next :: more), rfl⟩
      | cons next others =>
          have deeper := ih (List.prefix_append (next :: others) more)
          simpa [Text.join] using deeper

theorem pieces_trim (parts : Parts) :
    ∃ idle, parts.pieces = parts.trim.pieces ++ idle ∧ ∀ piece ∈ idle, isIdle piece = true := by
  refine ⟨(parts.pieces.reverse.takeWhile isIdle).reverse, ?_, ?_⟩
  · have split := List.takeWhile_append_dropWhile (p := isIdle) (l := parts.pieces.reverse)
    rw [trim, ← List.reverse_append, split, List.reverse_reverse]
  · intro piece member
    have idle := List.all_takeWhile (p := isIdle) (l := parts.pieces.reverse)
    exact List.all_eq_true.mp idle piece (List.mem_reverse.mp member)

theorem trim_prefix (parts : Parts) : parts.trim.pieces <+: parts.pieces := by
  obtain ⟨idle, pieces, -⟩ := parts.pieces_trim
  exact ⟨idle, pieces.symm⟩

theorem steps_trim (parts : Parts) : ∃ count, parts.steps = parts.trim.steps ++ List.replicate count ['.'] := by
  obtain ⟨idle, pieces, named⟩ := parts.pieces_trim
  have dots : ∀ piece ∈ idle.filter (· ≠ []), piece = ['.'] := by
    intro piece member
    rw [List.mem_filter] at member
    have dot := named piece member.1
    simpa [isIdle, decide_eq_true_eq.mp member.2] using dot
  refine ⟨(idle.filter (· ≠ [])).length, ?_⟩
  rw [← List.eq_replicate_of_mem dots, steps, pieces, List.filter_append, ← List.append_assoc]
  rfl

def IsTrimmed (parts : Parts) : Prop :=
  ∀ piece, parts.pieces.getLast? = some piece → isIdle piece = false

theorem trim_isTrimmed (parts : Parts) : parts.trim.IsTrimmed := by
  intro piece last
  rw [trim, List.getLast?_reverse] at last
  have kept := List.head?_dropWhile_not isIdle parts.pieces.reverse
  rw [last] at kept
  simpa using kept

end Parts

theorem chars_cutFully (path : List Char) : (cutFully path).chars = path := by
  unfold cutFully
  split
  · simp [Parts.chars, Front.chars, Text.join_split]
  · rfl
  · simp [Parts.chars, Front.chars, Text.join_split]
  · simp [Parts.chars, Front.chars, Text.join_split]

theorem isCut_cutFully (path : List Char) : (cutFully path).IsCut := by
  unfold cutFully
  split
  next rest => exact ⟨fun _ => Text.notMem_of_mem_split, by simp, by simp⟩
  next => exact ⟨by simp, by simp, by simp⟩
  next rest => exact ⟨fun _ => Text.notMem_of_mem_split, by simp, by simp [Text.split]⟩
  next notRoot _ _ =>
    refine ⟨fun _ => Text.notMem_of_mem_split, ?_, by simp⟩
    intro _ first
    cases path with
    | nil => rfl
    | cons c rest =>
        have different : c ≠ '/' := fun equal => notRoot rest (by rw [equal])
        simp only [Text.split, different, if_false] at first
        split at first <;> simp at first

theorem steps_cut (path : List Char) : ∃ count, steps path = (cut path).steps ++ List.replicate count ['.'] := by
  obtain ⟨count, idle⟩ := Parts.steps_trim (cutFully path)
  refine ⟨count, ?_⟩
  rw [← Parts.steps_chars (isCut_cutFully path), chars_cutFully] at idle
  exact idle

/-- A path consists of the path of its parent and its last piece, up to names that lead nowhere. -/
theorem parent?_of_pieces {path name : List Char} {initial : List (List Char)}
    (split : (cut path).pieces = initial ++ [name]) :
    ∃ parent : Parts, parent.IsCut ∧ parent.IsTrimmed ∧ (cut path).parent? = some parent ∧ isIdle name = false ∧
      parent.chars <+: path ∧ parent.front = (cutFully path).front ∧
      ∃ one two, steps path = parent.steps ++ List.replicate one ['.'] ++ [name] ++ List.replicate two ['.'] := by
  have busy : isIdle name = false := Parts.trim_isTrimmed (cutFully path) name (by
    rw [show (cutFully path).trim.pieces = initial ++ [name] from split]
    simp)
  have real : name ≠ [] := by
    rintro rfl
    simp [isIdle] at busy
  let directory : Parts := { cut path with pieces := initial }
  have beneath : initial <+: (cutFully path).pieces :=
    (split ▸ List.prefix_append initial [name] : initial <+: (cut path).pieces).trans (Parts.trim_prefix _)
  refine ⟨directory.trim, ?_, directory.trim_isTrimmed, ?_, busy, ?_, rfl, ?_⟩
  · exact Parts.isCut_prefix (isCut_cutFully path) ((Parts.trim_prefix directory).trans beneath)
  · simp [Parts.parent?, split, directory]
  · have pieces := Parts.join_prefix ((Parts.trim_prefix directory).trans beneath)
    have whole : directory.trim.chars <+: (cutFully path).chars := by
      simpa [Parts.chars, Parts.trim, directory, cut] using pieces
    rwa [chars_cutFully] at whole
  · obtain ⟨one, upper⟩ := Parts.steps_trim directory
    obtain ⟨two, lower⟩ := steps_cut path
    refine ⟨one, two, ?_⟩
    rw [lower, ← upper]
    simp [Parts.steps, split, directory, real]

theorem parent?_of_last {path name : List Char} {before : List (List Char)} (named : steps path = before ++ [name])
    (ordinary : name ≠ ['.']) :
    ∃ parent : Parts, parent.IsCut ∧ parent.IsTrimmed ∧ (cut path).parent? = some parent ∧
      (cut path).pieces.getLast? = some name ∧ parent.chars <+: path ∧
      (∃ count, before = parent.steps ++ List.replicate count ['.']) ∧ parent.front = (cutFully path).front := by
  cases final : (cut path).pieces.getLast? with
  | none =>
      exfalso
      obtain ⟨count, idle⟩ := steps_cut path
      have dots : ∀ step ∈ steps path, step = ['.'] := by
        intro step member
        rw [idle, Parts.steps, List.getLast?_eq_none_iff.mp final, List.filter_nil, List.append_nil] at member
        rcases List.mem_append.mp member with inside | dot
        · cases kind : (cut path).front with
          | none => simp [kind, Front.steps] at inside
          | root => simp [kind, Front.steps] at inside
          | here => simpa [kind, Front.steps] using inside
        · exact List.eq_of_mem_replicate dot
      exact ordinary (dots name (by simp [named]))
  | some last =>
      obtain ⟨initial, split⟩ := List.getLast?_eq_some_iff.mp final
      obtain ⟨parent, isCut, trimmed, above, -, start, front, one, two, steps⟩ := parent?_of_pieces split
      have none : two = 0 := by
        cases two with
        | zero => rfl
        | succ two =>
            rw [named, List.replicate_succ', ← List.append_assoc] at steps
            exact absurd (List.singleton_inj.mp (List.append_inj' steps rfl).2) ordinary
      subst none
      rw [named, List.replicate_zero, List.append_nil] at steps
      obtain ⟨upper, lower⟩ := List.append_inj' steps rfl
      refine ⟨parent, isCut, trimmed, above, ?_, start, ⟨one, upper⟩, front⟩
      rw [List.singleton_inj.mp lower]

theorem parent?_of_steps {path name : List Char} {before : List (List Char)}
    (named : steps path = before ++ [name]) (ordinary : name ≠ ['.']) (down : name ≠ above) :
    ∃ parent : Parts, parent.IsCut ∧ (cut path).parent? = some parent ∧ (cut path).fileName? = some name ∧
      parent.chars <+: path ∧ (∃ count, before = parent.steps ++ List.replicate count ['.']) ∧
      parent.front = (cutFully path).front := by
  obtain ⟨parent, isCut, -, above, last, start, idle, front⟩ := parent?_of_last named ordinary
  exact ⟨parent, isCut, above, by simp [Parts.fileName?, last, down], start, idle, front⟩

def lead (parent : List Char) : List Char :=
  match parent.getLast? with
  | none => []
  | some last => if last = '/' then parent else parent ++ ['/']

theorem joinChars_of_notMem (parent : List Char) {name : List Char} (whole : '/' ∉ name) :
    joinChars parent name = lead parent ++ name := by
  have relative : ∀ rest, name ≠ '/' :: rest := by
    rintro rest rfl
    exact whole (List.mem_cons_self ..)
  unfold joinChars lead
  split
  next rest => exact absurd rfl (relative rest)
  next =>
    cases parent.getLast? with
    | none => rfl
    | some last => by_cases slash : last = '/' <;> simp [slash]

theorem steps_of_notMem {name : List Char} (real : name ≠ []) (whole : '/' ∉ name) : steps name = [name] := by
  simp [steps, Text.split_of_notMem whole, real]

theorem steps_lead (parent : List Char) {name : List Char} (real : name ≠ []) (whole : '/' ∉ name) :
    steps (lead parent ++ name) = steps parent ++ [name] := by
  have alone := steps_of_notMem real whole
  unfold lead
  split
  next nothing =>
    rw [List.getLast?_eq_none_iff.mp nothing]
    exact alone
  next last final =>
    obtain ⟨initial, shape⟩ := List.getLast?_eq_some_iff.mp final
    split
    next slash =>
      subst slash
      rw [shape, List.append_assoc, List.singleton_append, steps, Text.split_append_separator, List.filter_append]
      simp only [steps, Text.split_append_separator, List.filter_append]
      simp [Text.split, Text.split_of_notMem whole, real]
    next =>
      rw [List.append_assoc, List.singleton_append, steps, Text.split_append_separator, List.filter_append]
      exact congrArg _ alone

theorem head?_lead (parent : List Char) {name : List Char} (real : name ≠ []) (whole : '/' ∉ name) :
    (lead parent ++ name).head? = some '/' ↔ parent.head? = some '/' := by
  cases parent with
  | nil =>
      cases name with
      | nil => exact absurd rfl real
      | cons c rest =>
          have different : c ≠ '/' := by
            rintro rfl
            exact whole (List.mem_cons_self ..)
          simpa [lead] using different
  | cons c rest =>
      unfold lead
      split
      next nothing => simp at nothing
      next => split <;> simp

theorem getLast?_lead (parent : List Char) {name : List Char} (real : name ≠ []) (whole : '/' ∉ name) :
    (lead parent ++ name).getLast? ≠ some '/' := by
  rw [List.getLast?_append_of_ne_nil _ real]
  intro last
  exact whole (List.mem_of_getLast? last)

theorem mem_lead {parent : List Char} {c : Char} (member : c ∈ lead parent) : c ∈ parent ∨ c = '/' := by
  unfold lead at member
  split at member
  · simp at member
  · split at member
    · exact .inl member
    · simpa using member

theorem withFileName_of_steps {base : String} {name : List Char} {before : List (List Char)}
    (named : steps base.toList = before ++ [name]) (ordinary : name ≠ ['.']) (down : name ≠ above) :
    ∃ parent : List Char, parent? base = some (String.ofList parent) ∧ fileName? base = some (String.ofList name) ∧
      parent <+: base.toList ∧ (∃ count, before = steps parent ++ List.replicate count ['.']) ∧
      (parent.head? = some '/' ↔ base.toList.head? = some '/') ∧
      ∀ sibling, '/' ∉ sibling →
        withFileName base (String.ofList sibling) = String.ofList (lead parent ++ sibling) := by
  obtain ⟨parts, isCut, parent, last, start, way, front⟩ := parent?_of_steps named ordinary down
  refine ⟨parts.chars, by simp [parent?, parent], by simp [fileName?, last], start, ?_, ?_, ?_⟩
  · rwa [Parts.steps_chars isCut]
  · have whole := Parts.head?_chars (isCut_cutFully base.toList)
    rw [chars_cutFully] at whole
    rw [Parts.head?_chars isCut, front, whole]
  · intro sibling whole
    simp [withFileName, fileName?, last, parent?, parent, join, joinChars_of_notMem _ whole]

end KeyedLog.Path
