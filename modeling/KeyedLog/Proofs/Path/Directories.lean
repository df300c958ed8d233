import KeyedLog.Proofs.Archive.Names
import KeyedLog.Proofs.Path.Components

/-!
The directory that a path stands in. A name that is joined to a directory stands in it, and so does every name beside it.
-/

namespace KeyedLog

namespace Path

/-- A piece that is the last name of the paths that end in it. -/
structure IsLeaf (name : List Char) : Prop where
  nonempty : name ≠ []
  whole : '/' ∉ name
  ordinary : name ≠ ['.']
  down : name ≠ above

/-- A path whose last name is this one, and above which there is nothing but the directory. Two paths are the same if they have
the same components. -/
structure StandsIn (directory name path : String) : Prop where
  last : fileName? path = some name
  parent : ∃ parent, parent? path = some parent ∧ components parent.toList = components directory.toList

theorem IsLeaf.busy {name : List Char} (leaf : IsLeaf name) : isIdle name = false := by
  simp [isIdle, leaf.nonempty, leaf.ordinary]

theorem IsLeaf.relative {name : List Char} (leaf : IsLeaf name) : name.head? ≠ some '/' := fun root =>
  leaf.whole (List.mem_of_head? root)

namespace Parts

theorem trim_of_isTrimmed {parts : Parts} (trimmed : parts.IsTrimmed) : parts.trim = parts := by
  obtain ⟨front, pieces⟩ := parts
  rcases List.eq_nil_or_concat pieces with rfl | ⟨initial, last, rfl⟩
  · rfl
  · have busy := trimmed last (by simp)
    simp [trim, busy]

theorem trim_concat_idle (parts : Parts) {piece : List Char} (idle : isIdle piece = true) :
    trim { parts with pieces := parts.pieces ++ [piece] } = parts.trim := by
  simp [trim, idle]

theorem trim_concat_busy (parts : Parts) {piece : List Char} (busy : isIdle piece = false) :
    trim { parts with pieces := parts.pieces ++ [piece] } = { parts with pieces := parts.pieces ++ [piece] } :=
  trim_of_isTrimmed fun last ends => by
    rw [List.getLast?_concat] at ends
    rwa [← Option.some.inj ends]

end Parts

theorem pieces_cutFully {path : List Char} (front : (cutFully path).front = .none) :
    (cutFully path).pieces = Text.split '/' path := by
  unfold cutFully at front ⊢
  split at front <;> first | rfl | simp at front

theorem head?_cut {path : List Char} (front : (cut path).front = .none) : (cut path).pieces.head? ≠ some ['.'] := by
  intro dot
  obtain ⟨rest, split⟩ := Parts.trim_prefix (cutFully path)
  have whole : (Text.split '/' path).head? = some ['.'] := by
    rw [← pieces_cutFully front, ← split, List.head?_append]
    exact Option.or_eq_some_iff.mpr (.inl dot)
  rw [front_cut, if_pos whole] at front
  split at front <;> simp at front

theorem cut_chars {parts : Parts} (isCut : parts.IsCut) (trimmed : parts.IsTrimmed)
    (visible : parts.front = .none → parts.pieces.head? ≠ some ['.']) : cut parts.chars = parts := by
  obtain ⟨front, pieces⟩ := parts
  by_cases empty : pieces = []
  · subst empty
    cases front <;> decide
  have rejoined := Text.split_join empty isCut.whole
  -- How the pieces are read again depends on what stands in front of them.
  cases front with
  | root =>
      rw [cut]
      show Parts.trim ⟨.root, Text.split '/' (Text.join '/' pieces)⟩ = _
      rw [rejoined]
      exact Parts.trim_of_isTrimmed trimmed
  | here =>
      obtain ⟨head, tail, rfl⟩ := List.exists_cons_of_ne_nil empty
      obtain rfl : head = [] := by simpa using isCut.here rfl
      cases tail with
      | nil => exact absurd (trimmed [] rfl) (by decide)
      | cons next more =>
          rw [cut]
          show Parts.trim ⟨.here, Text.split '/' (Text.join '/' ([] :: next :: more))⟩ = _
          rw [rejoined]
          exact Parts.trim_of_isTrimmed trimmed
  | none =>
      have chars : Parts.chars ⟨.none, pieces⟩ = Text.join '/' pieces := rfl
      have relative := mt (Parts.head?_chars isCut).mp (by simp)
      rw [chars] at relative ⊢
      have front : (cut (Text.join '/' pieces)).front = .none := by
        rw [front_cut, if_neg relative, rejoined, if_neg (visible rfl)]
      have whole : cutFully (Text.join '/' pieces) = ⟨.none, pieces⟩ := by
        have same := pieces_cutFully front
        rw [rejoined] at same
        exact Parts.mk.injEq .. ▸ ⟨front, same⟩
      rw [cut, whole]
      exact Parts.trim_of_isTrimmed trimmed

theorem cut_cut (path : List Char) : cut (cut path).chars = cut path :=
  cut_chars (Parts.isCut_prefix (isCut_cutFully path) (Parts.trim_prefix _)) (Parts.trim_isTrimmed _) head?_cut

theorem cutFully_append_slash {first : List Char} (nonempty : first ≠ []) :
    ∃ parts : Parts, parts.trim = cut first ∧ ∀ name, '/' ∉ name →
      cutFully (first ++ '/' :: name) = { parts with pieces := parts.pieces ++ [name] } := by
  by_cases dot : first = ['.']
  · subst dot
    refine ⟨⟨.here, [[]]⟩, by decide, fun name whole => ?_⟩
    simp [cutFully, Text.split, Text.split_of_notMem whole]
  refine ⟨cutFully first, rfl, fun name whole => ?_⟩
  rw [cutFully.eq_def first]
  split
  next rest => simp [cutFully, Text.split_append_separator, Text.split_of_notMem whole]
  next => exact absurd rfl dot
  next rest =>
    have behind := Text.split_append_separator '/' ('/' :: rest) name
    rw [List.cons_append] at behind
    simp [cutFully, behind, Text.split_of_notMem whole]
  next notRoot _ notHere =>
    obtain ⟨head, tail, rfl⟩ := List.exists_cons_of_ne_nil nonempty
    have behind := Text.split_append_separator '/' (head :: tail) name
    rw [Text.split_of_notMem whole] at behind
    unfold cutFully
    split
    next rest same =>
      obtain ⟨rfl, -⟩ := List.cons.inj same
      exact absurd rfl (notRoot tail)
    next same => simp at same
    next rest same =>
      obtain ⟨rfl, later⟩ := List.cons.inj same
      cases tail with
      | nil => exact absurd rfl dot
      | cons second others =>
          obtain ⟨rfl, -⟩ := List.cons.inj later
          exact absurd rfl (notHere others)
    next => rw [behind]

theorem cut_joinChars (directory : List Char) {name : List Char} (leaf : IsLeaf name) :
    ∃ parts : Parts, parts.trim = cut directory ∧
      cut (joinChars directory name) = { parts with pieces := parts.pieces ++ [name] } := by
  obtain ⟨parts, trimmed, full⟩ : ∃ parts : Parts, parts.trim = cut directory ∧
      cutFully (joinChars directory name) = { parts with pieces := parts.pieces ++ [name] } := by
    have alone := Text.split_of_notMem leaf.whole
    obtain ⟨rfl, joined⟩ | ⟨first, shape, joined⟩ := joinChars_cases directory leaf.relative
    · refine ⟨⟨.none, []⟩, by decide, ?_⟩
      have front : (cut name).front = .none := by
        rw [front_cut, if_neg leaf.relative, alone, if_neg (by simpa using leaf.ordinary)]
      have pieces := pieces_cutFully front
      rw [alone] at pieces
      rw [joined]
      exact Parts.mk.injEq .. ▸ ⟨front, pieces⟩
    · rw [joined]
      by_cases empty : first = []
      · subst empty
        obtain rfl | ⟨rfl, nonempty⟩ := shape
        · exact ⟨⟨.root, []⟩, by decide, by simp [cutFully, alone]⟩
        · exact absurd rfl nonempty
      · obtain ⟨parts, trimmed, behind⟩ := cutFully_append_slash empty
        refine ⟨parts, ?_, behind name leaf.whole⟩
        obtain rfl | ⟨rfl, -⟩ := shape
        · rw [cut, behind [] (by simp), Parts.trim_concat_idle parts (by decide), trimmed]
        · exact trimmed
  exact ⟨parts, trimmed, by rw [cut, full, Parts.trim_concat_busy parts leaf.busy]⟩

theorem standsIn_join (directory : String) {name : String} (leaf : IsLeaf name.toList) :
    StandsIn directory name (join directory name) := by
  obtain ⟨parts, trimmed, shape⟩ := cut_joinChars directory.toList leaf
  have tidy : Parts.parent? (cut (joinChars directory.toList name.toList)) = some (cut directory.toList) := by
    rw [shape, ← trimmed]
    simp [Parts.parent?]
  refine ⟨?_, String.ofList (cut directory.toList).chars, ?_, ?_⟩
  · simp [fileName?, join, shape, Parts.fileName?, leaf.down]
  · simp [parent?, join, tidy]
  · rw [String.toList_ofList, components, cut_cut, components]

theorem StandsIn.congr {directory other name path : String} (stands : StandsIn directory name path)
    (same : components directory.toList = components other.toList) : StandsIn other name path := by
  obtain ⟨parent, above, equal⟩ := stands.parent
  exact ⟨stands.last, parent, above, equal.trans same⟩

theorem StandsIn.withFileName {directory name path : String} (stands : StandsIn directory name path) :
    ∃ parent, components parent.toList = components directory.toList ∧
      ∀ sibling, withFileName path sibling = join parent sibling := by
  obtain ⟨parent, above, equal⟩ := stands.parent
  exact ⟨parent, equal, fun sibling => by simp [Path.withFileName, stands.last, above]⟩

theorem fileName?_eq_some_iff {path name : String} :
    fileName? path = some name ↔ (cut path.toList).pieces.getLast? = some name.toList ∧ name.toList ≠ above := by
  simp only [fileName?, Parts.fileName?, Option.map_eq_some_iff]
  constructor
  · rintro ⟨piece, last, rfl⟩
    rw [String.toList_ofList]
    split at last
    next found =>
      split at last
      · simp at last
      next down => exact ⟨found.trans last, Option.some.inj last ▸ down⟩
    next => simp at last
  · rintro ⟨last, down⟩
    exact ⟨name.toList, by simp [last, down], String.ofList_toList⟩

theorem isLeaf_of_fileName? {path name : String} (last : fileName? path = some name) : IsLeaf name.toList := by
  obtain ⟨ends, down⟩ := fileName?_eq_some_iff.mp last
  have busy := Parts.trim_isTrimmed (cutFully path.toList) _ ends
  have member := (Parts.trim_prefix (cutFully path.toList)).mem (List.mem_of_getLast? ends)
  refine ⟨?_, (isCut_cutFully path.toList).whole _ member, ?_, down⟩
  · intro nothing
    simp [isIdle, nothing] at busy
  · intro dot
    simp [isIdle, dot] at busy

theorem cut_parent {path parent : String} {initial : List (List Char)} {last : List Char} (above : parent? path = some parent)
    (pieces : (cut path.toList).pieces = initial ++ [last]) :
    cut parent.toList = Parts.trim { cut path.toList with pieces := initial } := by
  let directory : Parts := { cut path.toList with pieces := initial }
  have shape : parent = String.ofList directory.trim.chars := by
    have found : (cut path.toList).parent? = some directory.trim := by
      simp [Parts.parent?, pieces, directory]
    rw [parent?, found] at above
    exact (Option.some.inj above).symm
  have beneath : directory.trim.pieces <+: (cut path.toList).pieces :=
    (Parts.trim_prefix directory).trans (pieces ▸ List.prefix_append initial [last])
  have isCut : directory.trim.IsCut :=
    Parts.isCut_prefix (isCut_cutFully path.toList) (beneath.trans (Parts.trim_prefix _))
  have visible : directory.trim.front = .none → directory.trim.pieces.head? ≠ some ['.'] := by
    intro front dot
    obtain ⟨rest, split⟩ := beneath
    refine head?_cut front ?_
    rw [← split, List.head?_append]
    exact Option.or_eq_some_iff.mpr (.inl dot)
  rw [shape, String.toList_ofList]
  exact cut_chars isCut (Parts.trim_isTrimmed directory) visible

theorem StandsIn.components_eq {directory name path : String} (stands : StandsIn directory name path) :
    components path.toList = components directory.toList ++ [.name name.toList] := by
  obtain ⟨parent, above, equal⟩ := stands.parent
  obtain ⟨ends, down⟩ := fileName?_eq_some_iff.mp stands.last
  obtain ⟨initial, pieces⟩ := List.getLast?_eq_some_iff.mp ends
  have busy := (isLeaf_of_fileName? stands.last).busy
  rw [← equal, components, components, cut_parent above pieces, Parts.names_trim, List.append_assoc]
  simp [Parts.trim, Parts.names, pieces, busy, Component.ofPiece, down]

end Path

namespace Archive

open KeyedLog.Path

variable {name : List Char}

theorem isLeaf_of_getLast? {last : Char} (ends : name.getLast? = some last) (letter : last ≠ '.') (whole : '/' ∉ name) :
    IsLeaf name := by
  refine ⟨?_, whole, ?_, ?_⟩
  · rintro rfl
    simp at ends
  · rintro rfl
    exact letter (Option.some.inj ends).symm
  · rintro rfl
    exact letter (Option.some.inj ends).symm

theorem isLeaf_slotName (whole : '/' ∉ name) (slot : Nat) : IsLeaf (slotName name slot) :=
  isLeaf_of_getLast? (getLast?_slotName name slot) (by decide) (notMem_slotName whole (by decide) (by decide) slot)

theorem isLeaf_stagingName (whole : '/' ∉ name) : IsLeaf (stagingName name) :=
  isLeaf_of_getLast? (getLast?_stagingName name) (by decide) (notMem_stagingName whole (by decide) (by decide))

variable {directory fileName path : String}

theorem slotPath_standsIn (stands : StandsIn directory fileName path) (whole : '/' ∉ fileName.toList) (slot : Nat) :
    StandsIn directory (String.ofList (slotName fileName.toList slot)) (slotPath path slot) := by
  obtain ⟨parent, same, beside⟩ := stands.withFileName
  rw [slotPath, stands.last, Option.getD_some, beside]
  exact (standsIn_join parent (by rw [String.toList_ofList]; exact isLeaf_slotName whole slot)).congr same

theorem stagingPath_standsIn (stands : StandsIn directory fileName path) (whole : '/' ∉ fileName.toList) :
    StandsIn directory (String.ofList (stagingName fileName.toList)) (stagingPath path) := by
  obtain ⟨parent, same, beside⟩ := stands.withFileName
  have joined : stagingPath path = join parent (String.ofList (stagingName fileName.toList)) := by
    rw [stagingPath, slotPath, stands.last, Option.getD_some, beside]
    apply String.toList_inj.mp
    simp only [join, String.toList_append, String.toList_ofList, joinChars_of_notMem _ (isLeaf_slotName whole 1).whole,
      joinChars_of_notMem _ (isLeaf_stagingName whole).whole]
    simp only [stagingName, List.append_assoc]
    rfl
  rw [joined]
  exact (standsIn_join parent (by rw [String.toList_ofList]; exact isLeaf_stagingName whole)).congr same

end Archive

end KeyedLog
