import KeyedLog.Archive
import KeyedLog.Proofs.Files.Routes

/-!
The names of a file, of its archives and of its staging file. No two of them are the same, and an archive in a lower
slot has no longer name.
-/

namespace KeyedLog.Archive

def stagingName (name : List Char) : List Char :=
  slotName name 1 ++ ['.', 't', 'm', 'p']

def slotFront (name : List Char) : List Char :=
  ((stem? name).getD name) ++ ['.']

def slotBack (name : List Char) : List Char :=
  (if (stem? name).isSome then logEnding else []) ++ ['.', 'g', 'z']

theorem slotName_eq (name : List Char) (slot : Nat) :
    slotName name slot = slotFront name ++ (Nat.toDigits 10 slot ++ slotBack name) := by
  unfold slotName slotFront slotBack
  cases stem? name <;> simp

theorem stem_append {name stem : List Char} (found : stem? name = some stem) : name = stem ++ logEnding := by
  unfold stem? at found
  split at found
  next ending =>
    obtain ⟨front, rfl⟩ := List.isSuffixOf_iff_suffix.mp ending
    cases found
    simp
  next => simp at found

def keptEnding (name : List Char) : List Char :=
  if (stem? name).isSome then logEnding else []

theorem getD_stem?_append (name : List Char) : (stem? name).getD name ++ keptEnding name = name := by
  unfold keptEnding
  cases found : stem? name with
  | none => simp
  | some stem => simp [stem_append found]

theorem dot_notMem_toDigits (slot : Nat) : '.' ∉ Nat.toDigits 10 slot := fun member =>
  absurd (Nat.isDigit_of_mem_toDigits (by decide) (by decide) member) (by decide)

/-- Only what ends in `.log` has archives that end in `.log.gz`, as otherwise the number stands there. -/
theorem logEnding_suffix_slotName (name : List Char) (slot : Nat) :
    logEnding ++ ['.', 'g', 'z'] <:+ slotName name slot ↔ (stem? name).isSome = true := by
  rw [slotName_eq, slotBack]
  constructor
  · rintro ⟨front, ends⟩
    by_contra unended
    rw [if_neg unended, List.nil_append, ← List.append_assoc, ← List.append_assoc] at ends
    have last := congrArg List.getLast? (List.append_cancel_right ends)
    rw [List.getLast?_append_of_ne_nil _ Nat.toDigits_ne_nil, List.getLast?_append_of_ne_nil _ (by decide)] at last
    have digit := Nat.isDigit_of_mem_toDigits (by decide) (by decide) (List.mem_of_getLast? last.symm)
    exact absurd digit (by decide)
  · intro ended
    rw [if_pos ended, ← List.append_assoc]
    exact List.suffix_append _ _

theorem slotName_inj {one two : List Char} {first second : Nat} :
    slotName one first = slotName two second ↔ one = two ∧ first = second := by
  constructor
  · intro same
    have kept : keptEnding one = keptEnding two := by
      have kind : (stem? one).isSome = true ↔ (stem? two).isSome = true := by
        rw [← logEnding_suffix_slotName one first, same, logEnding_suffix_slotName]
      simp only [keptEnding, kind]
    have shape : ∀ name slot, slotName name slot =
        (stem? name).getD name ++ '.' :: Nat.toDigits 10 slot ++ (keptEnding name ++ ['.', 'g', 'z']) := by
      intro name slot
      simp [slotName_eq, slotFront, slotBack, keptEnding]
    rw [shape, shape, kept] at same
    -- Behind the numbers both names are alike, and in front of them stands the last dot.
    obtain ⟨stems, digits⟩ := Text.append_separator_inj (dot_notMem_toDigits first) (dot_notMem_toDigits second)
      (List.append_cancel_right same)
    have numbers := congrArg (fun digits => Nat.ofDigitChars 10 digits 0) digits
    refine ⟨?_, by simpa only [Nat.ofDigitChars_ten_toDigits] using numbers⟩
    rw [← getD_stem?_append one, ← getD_stem?_append two, stems, kept]
  · rintro ⟨rfl, rfl⟩
    rfl

theorem slotName_injective {name : List Char} {first second : Nat}
    (same : slotName name first = slotName name second) : first = second :=
  (slotName_inj.mp same).2

theorem length_slotFront_slotBack (name : List Char) :
    (slotFront name).length + (slotBack name).length = name.length + 4 := by
  have whole := congrArg List.length (getD_stem?_append name)
  rw [List.length_append, keptEnding] at whole
  simp only [slotFront, slotBack, List.length_append, List.length_cons, List.length_nil]
  omega

theorem length_slotName (name : List Char) (slot : Nat) :
    (slotName name slot).length = name.length + (Nat.toDigits 10 slot).length + 4 := by
  have parts := length_slotFront_slotBack name
  simp only [slotName_eq, List.length_append]
  omega

theorem slotName_ne (name : List Char) (slot : Nat) : slotName name slot ≠ name := by
  intro same
  have length := length_slotName name slot
  rw [same] at length
  omega

theorem stagingName_ne (name : List Char) : stagingName name ≠ name := by
  intro same
  have length := congrArg List.length same
  simp only [stagingName, List.length_append, length_slotName] at length
  omega

theorem getLast?_slotName (name : List Char) (slot : Nat) : (slotName name slot).getLast? = some 'z' := by
  rw [slotName_eq, slotBack]
  simp

theorem getLast?_stagingName (name : List Char) : (stagingName name).getLast? = some 'p' := by
  simp [stagingName]

theorem stagingName_ne_slotName {other : List Char} (name : List Char) (slot : Nat) :
    stagingName other ≠ slotName name slot := by
  intro same
  have last := congrArg List.getLast? same
  rw [getLast?_stagingName, getLast?_slotName] at last
  exact absurd last (by decide)

theorem mem_slotName {name : List Char} {slot : Nat} {c : Char} (member : c ∈ slotName name slot) :
    c ∈ name ∨ c.isDigit = true ∨ c ∈ ['.', 'l', 'o', 'g', 'z'] := by
  rw [slotName_eq, slotFront, slotBack] at member
  simp only [List.mem_append] at member
  have stem : ∀ c, c ∈ (stem? name).getD name → c ∈ name := by
    intro c inside
    cases found : stem? name with
    | none => simpa [found] using inside
    | some stem =>
        rw [stem_append found]
        exact List.mem_append_left _ (by simpa [found] using inside)
  rcases member with (inside | dot) | digit | ending | archive
  · exact .inl (stem c inside)
  · exact .inr (.inr (by simp_all))
  · exact .inr (.inl (Nat.isDigit_of_mem_toDigits (by decide) (by decide) digit))
  · refine .inr (.inr ?_)
    split at ending
    · simp only [logEnding, List.mem_cons, List.not_mem_nil, or_false] at ending ⊢
      rcases ending with rfl | rfl | rfl | rfl <;> decide
    · simp at ending
  · refine .inr (.inr ?_)
    simp only [List.mem_cons, List.not_mem_nil, or_false] at archive ⊢
    rcases archive with rfl | rfl | rfl <;> decide

theorem isName_of_getLast? {name : List Char} {last : Char} (ends : name.getLast? = some last) (letter : last ≠ '.')
    (whole : '/' ∉ name) (clean : '\x00' ∉ name) : Path.IsName name := by
  refine ⟨?_, whole, clean, ?_, ?_⟩
  · rintro rfl
    simp at ends
  · rintro rfl
    exact letter (Option.some.inj ends).symm
  · rintro rfl
    exact letter (Option.some.inj ends).symm

theorem notMem_slotName {name : List Char} {c : Char} (absent : c ∉ name) (digit : c.isDigit = false)
    (letter : c ∉ ['.', 'l', 'o', 'g', 'z']) (slot : Nat) : c ∉ slotName name slot := by
  intro inside
  rcases mem_slotName inside with inside | isDigit | isLetter
  · exact absent inside
  · exact absurd (isDigit.symm.trans digit) (by decide)
  · exact letter isLetter

theorem notMem_stagingName {name : List Char} {c : Char} (absent : c ∉ name) (digit : c.isDigit = false)
    (letter : c ∉ ['.', 'l', 'o', 'g', 'z', 't', 'm', 'p']) : c ∉ stagingName name := by
  intro inside
  rcases List.mem_append.mp inside with inside | ending
  · exact notMem_slotName absent digit (fun member => letter (List.mem_append_left ['t', 'm', 'p'] member)) 1 inside
  · refine letter ?_
    simp only [List.mem_cons, List.not_mem_nil, or_false] at ending ⊢
    rcases ending with rfl | rfl | rfl | rfl <;> decide

theorem isName_slotName {name : List Char} (named : Path.IsName name) (slot : Nat) :
    Path.IsName (slotName name slot) :=
  isName_of_getLast? (getLast?_slotName name slot) (by decide)
    (notMem_slotName named.whole (by decide) (by decide) slot) (notMem_slotName named.clean (by decide) (by decide) slot)

theorem isName_stagingName {name : List Char} (named : Path.IsName name) : Path.IsName (stagingName name) :=
  isName_of_getLast? (getLast?_stagingName name) (by decide)
    (notMem_stagingName named.whole (by decide) (by decide)) (notMem_stagingName named.clean (by decide) (by decide))

theorem length_toDigits_mono {first second : Nat} (below : first ≤ second) :
    (Nat.toDigits 10 first).length ≤ (Nat.toDigits 10 second).length := by
  have bound := (Nat.length_toDigits_le_iff (by decide) Nat.length_toDigits_pos).mp (Nat.le_refl (Nat.toDigits 10 second).length)
  exact (Nat.length_toDigits_le_iff (by decide) Nat.length_toDigits_pos).mpr (by omega)

theorem length_encodeChars_toDigits (n : Nat) :
    (Utf8.encodeChars (Nat.toDigits 10 n)).length = (Nat.toDigits 10 n).length := by
  have digits : ∀ c ∈ Nat.toDigits 10 n, c.isDigit = true := fun c member =>
    Nat.isDigit_of_mem_toDigits (by decide) (by decide) member
  generalize Nat.toDigits 10 n = chars at digits
  induction chars with
  | nil => rfl
  | cons c rest ih =>
      have digit := digits c (List.mem_cons_self ..)
      have size : c.utf8Size = 1 := by
        simp only [Char.isDigit, Bool.and_eq_true, decide_eq_true_eq] at digit
        have bound : c.val ≤ 0x7f := Nat.le_trans digit.2 (by decide)
        simp [Char.utf8Size, bound]
      have tail := ih fun other member => digits other (List.mem_cons_of_mem _ member)
      simp only [Utf8.encodeChars_cons, List.length_append, List.length_cons, String.length_utf8EncodeChar, size, tail]
      omega

theorem length_slotName_mono (name : List Char) {first second : Nat} (below : first ≤ second) :
    (Utf8.encodeChars (slotName name first)).length ≤ (Utf8.encodeChars (slotName name second)).length := by
  have digits := length_toDigits_mono below
  simp only [slotName_eq, Utf8.encodeChars_append, List.length_append, length_encodeChars_toDigits]
  omega

end KeyedLog.Archive
