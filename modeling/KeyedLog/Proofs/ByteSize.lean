import KeyedLog.Quantity
import KeyedLog.Proofs.Text

/-!
What texts are numbers of bytes. They are described by their parts, of which only the digits and the unit count, and reading
one gives the number itself or nothing: it is not cut to the width of a word.
-/

namespace KeyedLog

namespace Natural

theorem isDigit_eq (c : Char) : isDigit c = c.isDigit := rfl

theorem span_digits {digits rest : List Char} (decimal : ∀ c ∈ digits, c.isDigit = true)
    (behind : ∀ c, rest.head? = some c → c.isDigit = false) :
    (digits ++ rest).takeWhile isDigit = digits ∧ (digits ++ rest).dropWhile isDigit = rest := by
  have digit : ∀ c ∈ digits, isDigit c = true := decimal
  rw [List.takeWhile_append_of_pos digit, List.dropWhile_append_of_pos digit]
  cases rest with
  | nil => simp
  | cons c rest => simp [isDigit_eq, behind c rfl]

theorem le_ofDigitChars (digits : List Char) (value : Nat) : value ≤ Nat.ofDigitChars 10 digits value := by
  induction digits generalizing value with
  | nil => exact Nat.le_refl value
  | cons c rest ih =>
      have bound := ih (10 * value + (c.toNat - '0'.toNat))
      rw [Nat.ofDigitChars_cons]
      omega

theorem appendDigits_of_digits {bound value : Nat} {digits : List Char} (decimal : ∀ c ∈ digits, c.isDigit = true)
    (below : value < bound) :
    appendDigits bound value digits =
      if Nat.ofDigitChars 10 digits value < bound then .ok (Nat.ofDigitChars 10 digits value) else .error .tooLarge := by
  induction digits generalizing value with
  | nil => rw [appendDigits, Nat.ofDigitChars_nil, if_pos below]
  | cons c rest ih =>
      have digit : isDigit c = true := decimal c List.mem_cons_self
      have grows := le_ofDigitChars rest (10 * value + digitValue c)
      rw [appendDigits, digit, Nat.ofDigitChars_cons]
      show (if 10 * value + digitValue c < bound then _ else _) =
        if Nat.ofDigitChars 10 rest (10 * value + digitValue c) < bound then _ else _
      split
      next fits => exact ih (fun c member => decimal c (List.mem_cons_of_mem _ member)) fits
      next full => rw [if_neg (by omega)]

theorem parseChars_eq_ok_iff {bound value : Nat} (positive : 0 < bound) {digits : List Char}
    (decimal : ∀ c ∈ digits, c.isDigit = true) :
    parseChars bound digits = .ok value ↔
      digits ≠ [] ∧ Nat.ofDigitChars 10 digits 0 = value ∧ value < bound := by
  cases digits with
  | nil => simp [parseChars]
  | cons c rest =>
      have unsigned : c ≠ '+' := by
        rintro rfl
        exact absurd (decimal '+' List.mem_cons_self) (by decide)
      have read : parseChars bound (c :: rest) = appendDigits bound 0 (c :: rest) := by
        unfold parseChars
        split <;> simp_all
      rw [read, appendDigits_of_digits decimal positive]
      simp only [ne_eq, reduceCtorEq, not_false_eq_true, true_and]
      split
      next fits =>
        rw [Except.ok.injEq]
        exact ⟨fun same => ⟨same, same ▸ fits⟩, And.left⟩
      next full =>
        simp only [reduceCtorEq, false_iff, not_and]
        rintro rfl
        exact full

end Natural

namespace ByteSize

def units : List (String × Nat) :=
  [("", 1), ("B", 1), ("KB", 1024), ("MB", 1024 * 1024), ("GB", 1024 * 1024 * 1024)]

/-- The parts of a text that is a number of bytes. White space may stand around the digits and around the unit, and the letters
of the unit may be small. -/
structure Spelling where
  before : List Char
  digits : List Char
  between : List Char
  unit : List Char
  after : List Char
  factor : Nat
  blank : ∀ c ∈ before ++ between ++ after, isBlank c = true
  nonempty : digits ≠ []
  decimal : ∀ c ∈ digits, c.isDigit = true
  known : (String.ofList (unit.map Char.toUpper), factor) ∈ units

namespace Spelling

def text (spelling : Spelling) : String :=
  String.ofList (spelling.before ++ spelling.digits ++ spelling.between ++ spelling.unit ++ spelling.after)

def value (spelling : Spelling) : Nat :=
  Nat.ofDigitChars 10 spelling.digits 0

end Spelling

theorem unitFactor?_eq_some_iff {word : String} {factor : Nat} :
    unitFactor? word = some factor ↔ (word, factor) ∈ units := by
  constructor
  · intro found
    unfold unitFactor? at found
    split at found <;> cases found <;> decide
  · intro member
    simp only [units, List.mem_cons, Prod.mk.injEq, List.not_mem_nil, or_false] at member
    rcases member with ⟨rfl, rfl⟩ | ⟨rfl, rfl⟩ | ⟨rfl, rfl⟩ | ⟨rfl, rfl⟩ | ⟨rfl, rfl⟩ <;> rfl

theorem toUpper_of_not_letter {c : Char} (other : isBlank c = true ∨ c.isDigit = true) : c.toUpper = c := by
  have small : ¬ ('a'.val ≤ c.val ∧ c.val ≤ 'z'.val) := by
    rintro ⟨lower, upper⟩
    have least : 97 ≤ c.toNat := lower
    have greatest : c.toNat ≤ 122 := upper
    rcases other with blank | digit
    · simp only [isBlank, Bool.or_eq_true, Bool.and_eq_true, decide_eq_true_eq, beq_iff_eq] at blank
      omega
    · simp only [Char.isDigit, Bool.and_eq_true, decide_eq_true_eq] at digit
      have bound : c.toNat ≤ 57 := digit.2
      omega
  exact dif_neg small

theorem of_mem_unit {unit : List Char} {factor : Nat}
    (known : (String.ofList (unit.map Char.toUpper), factor) ∈ units) {c : Char} (member : c ∈ unit) :
    isBlank c = false ∧ c.isDigit = false := by
  have capital : c.toUpper ∈ ['B', 'K', 'M', 'G'] := by
    have listed : units.all (fun entry => entry.1.toList.all ['B', 'K', 'M', 'G'].contains) = true := by decide
    have letters := List.all_eq_true.mp listed _ known
    rw [String.toList_ofList] at letters
    exact List.contains_iff_mem.mp (List.all_eq_true.mp letters _ (List.mem_map_of_mem member))
  rw [← Bool.not_eq_true, ← Bool.not_eq_true, ← not_or]
  intro other
  rw [toUpper_of_not_letter other] at capital
  simp only [List.mem_cons, List.not_mem_nil, or_false] at capital
  rcases capital with rfl | rfl | rfl | rfl <;> revert other <;> decide

theorem isBlank_of_isDigit {c : Char} (digit : c.isDigit = true) : isBlank c = false := by
  simp only [Char.isDigit, Bool.and_eq_true, decide_eq_true_eq] at digit
  have least : 48 ≤ c.toNat := digit.1
  have greatest : c.toNat ≤ 57 := digit.2
  rw [← Bool.not_eq_true, isBlank]
  simp only [Bool.or_eq_true, Bool.and_eq_true, decide_eq_true_eq, beq_iff_eq]
  omega

theorem Spelling.trimChars_text (spelling : Spelling) :
    ∃ rest, Text.trimChars spelling.text.toList = spelling.digits ++ rest ∧ (∀ c ∈ rest, c.isDigit = false) ∧
      Text.trimChars rest = spelling.unit := by
  obtain ⟨before, digits, between, unit, after, factor, blank, nonempty, decimal, known⟩ := spelling
  have around : (∀ c ∈ before, isBlank c = true) ∧ (∀ c ∈ between, isBlank c = true) ∧
      ∀ c ∈ after, isBlank c = true := by
    simpa only [List.mem_append, or_imp, forall_and, and_assoc] using blank
  have solid : ∀ c ∈ digits, isBlank c = false := fun c member => isBlank_of_isDigit (decimal c member)
  simp only [text, String.toList_ofList]
  -- Without a unit, the white space behind the digits stands at the end and is taken away as well.
  by_cases nothing : unit = []
  · subst nothing
    refine ⟨[], ?_, by simp, rfl⟩
    have behind : ∀ c ∈ between ++ after, isBlank c = true := fun c member =>
      (List.mem_append.mp member).elim (around.2.1 c) (around.2.2 c)
    have trimmed := Text.trimChars_surrounded around.1 behind (fun c first => solid c (List.mem_of_head? first))
      fun c last => solid c (List.mem_of_getLast? last)
    simpa only [List.append_assoc, List.append_nil, List.nil_append] using trimmed
  · refine ⟨between ++ unit, ?_, ?_, ?_⟩
    · have first : ∀ c, (digits ++ (between ++ unit)).head? = some c → isBlank c = false := by
        rw [List.head?_append_of_ne_nil _ nonempty]
        exact fun c first => solid c (List.mem_of_head? first)
      have last : ∀ c, (digits ++ (between ++ unit)).getLast? = some c → isBlank c = false := by
        rw [← List.append_assoc, List.getLast?_append_of_ne_nil _ nothing]
        exact fun c last => (of_mem_unit known (List.mem_of_getLast? last)).1
      simpa only [List.append_assoc] using Text.trimChars_surrounded around.1 around.2.2 first last
    · intro c member
      rcases List.mem_append.mp member with gap | letter
      · rw [← Bool.not_eq_true]
        intro digit
        exact absurd ((isBlank_of_isDigit digit).symm.trans (around.2.1 c gap)) (by decide)
      · exact (of_mem_unit known letter).2
    · have trimmed := Text.trimChars_surrounded around.2.1 (List.forall_mem_nil _)
        (fun c first => (of_mem_unit known (List.mem_of_head? first)).1)
        fun c last => (of_mem_unit known (List.mem_of_getLast? last)).1
      simpa only [List.append_nil] using trimmed

theorem parse_eq_ok_iff {text : String} {digits rest : List Char} {bytes : UInt64}
    (split : Text.trimChars text.toList = digits ++ rest) (decimal : ∀ c ∈ digits, c.isDigit = true)
    (behind : ∀ c, rest.head? = some c → c.isDigit = false) :
    parse text = .ok ⟨bytes⟩ ↔ digits ≠ [] ∧ Nat.ofDigitChars 10 digits 0 < UInt64.size ∧
      ∃ factor, (String.ofList ((Text.trimChars rest).map Char.toUpper), factor) ∈ units ∧
        Nat.ofDigitChars 10 digits 0 * factor = bytes.toNat := by
  obtain ⟨taken, left⟩ := Natural.span_digits decimal behind
  have numeral (value : Nat) := @Natural.parseChars_eq_ok_iff UInt64.size value (by decide) digits decimal
  simp only [parse, split, taken, left, Text.upper, Text.trim, String.toList_ofList, ← unitFactor?_eq_some_iff]
  cases number : Natural.parseChars UInt64.size digits with
  | error fault =>
      simp only [reduceCtorEq, false_iff]
      rintro ⟨nonempty, below, -⟩
      exact absurd ((numeral _).mpr ⟨nonempty, rfl, below⟩) (by simp [number])
  | ok value =>
      obtain ⟨nonempty, rfl, below⟩ := (numeral value).mp number
      simp only [ne_eq, nonempty, not_false_eq_true, true_and]
      cases unitFactor? (String.ofList ((Text.trimChars rest).map Char.toUpper)) with
      | none => simp
      | some factor =>
          have fits := bytes.toNat_lt
          simp only [Option.some.injEq, exists_eq_left']
          split
          next whole =>
            have product : (UInt64.ofNat (Nat.ofDigitChars 10 digits 0 * factor)).toNat = _ :=
              UInt64.toNat_ofNat_of_lt whole
            rw [Except.ok.injEq, ByteSize.mk.injEq, ← UInt64.toNat_inj, product]
            exact ⟨fun same => ⟨below, same⟩, And.right⟩
          next full =>
            simp only [reduceCtorEq, false_iff, not_and]
            intro _ same
            exact full (same ▸ fits)

theorem parse_eq_ok_iff_spelling {text : String} {bytes : UInt64} :
    parse text = .ok ⟨bytes⟩ ↔
      ∃ spelling : Spelling, spelling.text = text ∧ spelling.value < UInt64.size ∧
        spelling.value * spelling.factor = bytes.toNat := by
  constructor
  · intro read
    let trimmed := Text.trimChars text.toList
    let digits := trimmed.takeWhile Natural.isDigit
    let rest := trimmed.dropWhile Natural.isDigit
    have split : trimmed = digits ++ rest := List.takeWhile_append_dropWhile.symm
    have decimal : ∀ c ∈ digits, c.isDigit = true := List.all_eq_true.mp List.all_takeWhile
    have behind : ∀ c, rest.head? = some c → c.isDigit = false := by
      intro c first
      have stop := List.head?_dropWhile_not Natural.isDigit trimmed
      rwa [show (trimmed.dropWhile Natural.isDigit).head? = some c from first] at stop
    obtain ⟨nonempty, below, factor, known, product⟩ := (parse_eq_ok_iff split decimal behind).mp read
    obtain ⟨before, after, outer, front, back⟩ := Text.exists_trimChars text.toList
    obtain ⟨between, last, inner, gap, close⟩ := Text.exists_trimChars rest
    have blank : ∀ c ∈ before ++ between ++ (last ++ after), isBlank c = true := by
      simp only [List.mem_append, or_imp, forall_and]
      exact ⟨⟨front, gap⟩, close, back⟩
    refine ⟨⟨before, digits, between, Text.trimChars rest, last ++ after, factor, blank, nonempty, decimal, known⟩,
      String.toList_inj.mp ?_, below, product⟩
    calc (Spelling.text _).toList
        = before ++ (digits ++ (between ++ Text.trimChars rest ++ last)) ++ after := by
          simp only [Spelling.text, String.toList_ofList, List.append_assoc]
      _ = before ++ trimmed ++ after := by rw [← inner, ← split]
      _ = text.toList := outer.symm
  · rintro ⟨spelling, rfl, below, product⟩
    obtain ⟨rest, split, plain, unit⟩ := spelling.trimChars_text
    have behind : ∀ c, rest.head? = some c → c.isDigit = false := fun c first => plain c (List.mem_of_head? first)
    rw [parse_eq_ok_iff split spelling.decimal behind, unit]
    exact ⟨spelling.nonempty, below, spelling.factor, spelling.known, product⟩

theorem parse_format (size : ByteSize) : parse size.format = .ok size := by
  let spelling : Spelling := {
    before := []
    digits := Nat.toDigits 10 size.bytes.toNat
    between := []
    unit := ['B']
    after := []
    factor := 1
    blank := by simp
    nonempty := Nat.toDigits_ne_nil
    decimal := fun c => Nat.isDigit_of_mem_toDigits (by decide) (by decide)
    known := by decide }
  have value : spelling.value = size.bytes.toNat := Nat.ofDigitChars_ten_toDigits
  refine parse_eq_ok_iff_spelling.mpr ⟨spelling, ?_, ?_, ?_⟩
  · simp [spelling, Spelling.text, format, Nat.repr]
  · rw [value]
    exact size.bytes.toNat_lt
  · rw [value, Nat.mul_one]

/-- A text is read as a number of bytes exactly if it spells one: its digits stand for a number of sixty-four bits, and so does
their product with the factor of the unit, which is the number that is read. Whatever is written is read again. -/
theorem sizes_are_read_exactly :
    (∀ (text : String) (bytes : UInt64), parse text = .ok ⟨bytes⟩ ↔
      ∃ spelling : Spelling, spelling.text = text ∧ spelling.value < UInt64.size ∧
        spelling.value * spelling.factor = bytes.toNat) ∧
    ∀ size : ByteSize, parse size.format = .ok size :=
  ⟨fun _ _ => parse_eq_ok_iff_spelling, parse_format⟩

end ByteSize

end KeyedLog
