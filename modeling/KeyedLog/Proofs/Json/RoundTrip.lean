import KeyedLog.Json
import Mathlib.Data.List.TakeDrop

/-!
What is written as JSON is read as what it was: strings of any characters, whole numbers of sixty-four bits, and objects
whose values are read as they were. Nothing that is written holds a control character.
-/

namespace KeyedLog.Json

section Strings

theorem hexValue?_digitChar : ∀ digit < 16, hexValue? (Nat.digitChar digit) = some digit := by decide

theorem endsWithinFour_cons (a b c d : Char) (rest : List Char) : endsWithinFour (a :: b :: c :: d :: rest) = false := by
  have one := a.utf8Size_pos
  have two := b.utf8Size_pos
  have three := c.utf8Size_pos
  have four := d.utf8Size_pos
  simp only [endsWithinFour, List.take_succ_cons, List.take_zero, Utf8.encodeChars_cons, Utf8.encodeChars_nil,
    List.length_append, String.length_utf8EncodeChar, decide_eq_false_iff_not, List.length_nil]
  omega

theorem stringRest_hexPair {c : Char} (control : c.toNat < 0x20) (seen rest : List Char) :
    stringRest .plain seen (['\\', 'u', '0', '0'] ++ hexPair c.toNat ++ rest) = stringRest .plain (c :: seen) rest := by
  have high := hexValue?_digitChar (c.toNat / 16) (by omega)
  have low := hexValue?_digitChar (c.toNat % 16) (by omega)
  have zero : hexValue? '0' = some 0 := by decide
  have single : isTrail c.toNat = false ∧ isLead c.toNat = false := by
    simp only [isTrail, isLead, Bool.and_eq_false_iff, decide_eq_false_iff_not]
    omega
  simp only [hexPair, List.cons_append, List.nil_append, stringRest, endsWithinFour_cons, zero, high, low]
  simp [Nat.div_add_mod, single]

theorem stringRest_escape (c : Char) (seen rest : List Char) :
    stringRest .plain seen (escape c ++ rest) = stringRest .plain (c :: seen) rest := by
  unfold escape
  split
  case h_8 quote backslash _ _ _ _ _ =>
    split
    next control => exact stringRest_hexPair control seen rest
    next shown =>
      have plain : c ≠ '"' ∧ c ≠ '\\' := ⟨quote, backslash⟩
      simp [stringRest, plain, shown]
  all_goals simp [stringRest, simpleEscape?]

theorem stringRest_flatMap (chars seen rest : List Char) :
    stringRest .plain seen (chars.flatMap escape ++ '"' :: rest) = .ok (seen.reverse ++ chars, rest) := by
  induction chars generalizing seen with
  | nil => simp [stringRest]
  | cons c chars ih => rw [List.flatMap_cons, List.append_assoc, stringRest_escape, ih]; simp

theorem stringBody_string (text : String) (rest : List Char) :
    stringBody (text.toList.flatMap escape ++ '"' :: rest) = .ok (text, rest) := by
  simp [stringBody, stringRest_flatMap, bind, Except.bind, pure, Except.pure]

end Strings

def Closes (rest : List Char) : Prop :=
  ∃ c tail, rest = c :: tail ∧ (c = ',' ∨ c = '\x7d')

theorem skipSpace_cons {c : Char} (solid : isSpace c = false) (rest : List Char) :
    skipSpace (c :: rest) = c :: rest :=
  List.dropWhile_cons_of_neg (by rw [solid]; exact Bool.false_ne_true)

theorem isSpace_of_isDigit {c : Char} (digit : Natural.isDigit c = true) : isSpace c = false := by
  rw [Bool.eq_false_iff]
  intro space
  simp only [isSpace, Bool.or_eq_true, beq_iff_eq] at space
  rcases space with ((rfl | rfl) | rfl) | rfl <;> exact absurd digit (by decide)

section Numbers

theorem isDigit_of_mem_natural {n : Nat} {c : Char} (member : c ∈ natural n) : Natural.isDigit c = true :=
  Nat.isDigit_of_mem_toDigits (by decide) (by decide) member

theorem head?_natural {n : Nat} (positive : 0 < n) : (natural n).head? ≠ some '0' := by
  induction n using Nat.strongRecOn with
  | _ n ih =>
      rw [natural, Nat.toDigits_eq_if (by decide)]
      split
      next small =>
        have digits : ∀ digit < 10, 0 < digit → [Nat.digitChar digit].head? ≠ some '0' := by decide
        exact digits n small positive
      next large =>
        have front := ih (n / 10) (by omega) (by omega)
        obtain ⟨c, tail, digits⟩ := List.exists_cons_of_ne_nil (Nat.toDigits_ne_nil (n := n / 10) (b := 10))
        rw [natural, digits] at front
        rwa [digits]

variable {rest : List Char}

theorem Closes.not_digit (closes : Closes rest) : rest.takeWhile Natural.isDigit = [] ∧ rest.dropWhile Natural.isDigit = rest := by
  obtain ⟨c, tail, rfl, rfl | rfl⟩ := closes <;> exact ⟨rfl, rfl⟩

theorem span_natural (n : Nat) (closes : Closes rest) : (natural n ++ rest).span Natural.isDigit = (natural n, rest) := by
  have digits : ∀ c ∈ natural n, Natural.isDigit c = true := fun c member => isDigit_of_mem_natural member
  rw [List.span_eq_takeWhile_dropWhile, List.takeWhile_append_of_pos digits, List.dropWhile_append_of_pos digits,
    closes.not_digit.1, closes.not_digit.2, List.append_nil]

theorem wholePart_natural (n : Nat) (closes : Closes rest) : wholePart (natural n ++ rest) = .ok (natural n, rest) := by
  have span := span_natural n closes
  rcases Nat.eq_zero_or_pos n with rfl | positive
  · obtain ⟨c, tail, rfl, rfl | rfl⟩ := closes <;> rfl
  · have head := head?_natural positive
    cases chars : natural n with
    | nil => exact absurd chars Nat.toDigits_ne_nil
    | cons first others =>
        have digit : Natural.isDigit first = true := isDigit_of_mem_natural (by rw [chars]; exact List.mem_cons_self ..)
        rw [chars] at span head
        have nonzero : first ≠ '0' := by simpa using head
        rw [List.cons_append] at span ⊢
        unfold wholePart
        split
        next nothing => simp at nothing
        next same => exact absurd (List.cons.inj same).1 nonzero
        next same =>
          rw [← (List.cons.inj same).1, if_pos digit, span]

theorem exceedsDouble_natural {n : Nat} (small : n < UInt64.size) :
    (Numeral.mk false (natural n) [] none).exceedsDouble = false := by
  have length : (natural n).length ≤ 20 :=
    (Nat.length_toDigits_le_iff (by decide) (by decide)).mpr (Nat.lt_trans small (by decide))
  have front := (List.dropWhile_sublist (· == '0') (l := natural n)).length_le
  simp only [Numeral.exceedsDouble, Decimal.ofParts, Decimal.exceedsDouble, List.append_nil, Option.getD_none,
    List.length_nil]
  rw [if_pos]
  simp only [Bool.or_eq_true, decide_eq_true_eq]
  omega

theorem readWord_natural (word : UInt64) (closes : Closes rest) :
    readWord (natural word.toNat ++ rest) = .ok (word, rest) := by
  have small : word.toNat < UInt64.size := word.toNat_lt
  have whole := wholePart_natural word.toNat closes
  have range := exceedsDouble_natural small
  have value : Nat.ofDigitChars 10 (natural word.toNat) 0 = word.toNat := Nat.ofDigitChars_ten_toDigits
  have fraction : fractionPart rest = .ok ([], rest) := by
    obtain ⟨c, tail, rfl, rfl | rfl⟩ := closes <;> rfl
  have exponent : exponentPart rest = .ok (none, rest) := by
    obtain ⟨c, tail, rfl, rfl | rfl⟩ := closes <;> rfl
  have numeral : numeralRest false (natural word.toNat ++ rest) =
      .ok (⟨false, natural word.toNat, [], none⟩, rest) := by
    simp [numeralRest, whole, fraction, exponent, range, bind, Except.bind, pure, Except.pure]
  cases chars : natural word.toNat with
  | nil => exact absurd chars Nat.toDigits_ne_nil
  | cons first others =>
      have digit : Natural.isDigit first = true := isDigit_of_mem_natural (by rw [chars]; exact List.mem_cons_self ..)
      rw [chars] at numeral value
      have solid := skipSpace_cons (isSpace_of_isDigit digit) (others ++ rest)
      rw [List.cons_append] at numeral ⊢
      unfold readWord
      rw [solid]
      split
      next same =>
        cases (List.cons.inj same).1
        exact absurd digit (by decide)
      next =>
        simp [digit, numeral, value, Numeral.isWhole, small, bind, Except.bind, pure, Except.pure]

end Numbers

section Objects

variable {σ : Type} {field : σ → String → Reader σ} {gathered last : σ} {items : List (String × List Char)}
  {rest : List Char}

theorem readColon_cons (rest : List Char) : readColon (':' :: rest) = .ok ((), rest) := rfl

theorem readString_string (text : String) (rest : List Char) : readString (string text ++ rest) = .ok (text, rest) := by
  simp [readString, string, skipSpace_cons (c := '"') rfl, stringBody_string]

/-- The values of these members, read one after the other, add up. -/
inductive Gathers (field : σ → String → Reader σ) : σ → List (String × List Char) → σ → Prop
  | nil (gathered : σ) : Gathers field gathered [] gathered
  | cons {gathered next last : σ} {name : String} {value : List Char} {items : List (String × List Char)}
      (reads : ∀ rest, Closes rest → field gathered name (':' :: (value ++ rest)) = .ok (next, rest))
      (others : Gathers field next items last) : Gathers field gathered ((name, value) :: items) last

theorem member_append (name : String) (value rest : List Char) :
    member name value ++ rest = '"' :: (name.toList.flatMap escape ++ '"' :: ':' :: (value ++ rest)) := by
  simp [member, string]

def furtherMembers (items : List (String × List Char)) : List Char :=
  items.flatMap fun item => ',' :: member item.1 item.2

theorem length_furtherMembers (items : List (String × List Char)) : items.length ≤ (furtherMembers items).length := by
  induction items with
  | nil => exact Nat.zero_le _
  | cons item items ih =>
      simp only [furtherMembers, List.flatMap_cons, List.length_append, List.length_cons] at ih ⊢
      omega

theorem commaSeparated_cons (first : List Char) (others : List (List Char)) :
    commaSeparated (first :: others) = first ++ others.flatMap (',' :: ·) := by
  induction others generalizing first with
  | nil => simp [commaSeparated]
  | cons second others ih => simp [commaSeparated, ih]

theorem closes_further (items : List (String × List Char)) (rest : List Char) :
    Closes (furtherMembers items ++ '\x7d' :: rest) := by
  cases items with
  | nil => exact ⟨_, _, rfl, .inr rfl⟩
  | cons item items => exact ⟨_, _, rfl, .inl rfl⟩

theorem membersFrom_further (gathers : Gathers field gathered items last) {fuel : Nat} (enough : items.length < fuel)
    (rest : List Char) :
    membersFrom field fuel false gathered (furtherMembers items ++ '\x7d' :: rest) = .ok (last, rest) := by
  induction gathers generalizing fuel with
  | nil gathered =>
      obtain ⟨fuel, rfl⟩ := Nat.exists_eq_add_one_of_ne_zero (Nat.ne_of_gt (Nat.zero_lt_of_lt enough))
      simp [furtherMembers, membersFrom, skipSpace_cons (c := '\x7d') rfl]
  | @cons gathered next last name value items reads others ih =>
      obtain ⟨fuel, rfl⟩ := Nat.exists_eq_add_one_of_ne_zero (Nat.ne_of_gt (Nat.zero_lt_of_lt enough))
      have read := reads _ (closes_further items rest)
      have further := ih (Nat.lt_of_succ_lt_succ enough)
      have text : furtherMembers ((name, value) :: items) ++ '\x7d' :: rest =
          ',' :: (member name value ++ (furtherMembers items ++ '\x7d' :: rest)) := by
        simp [furtherMembers]
      rw [text, member_append]
      simp [membersFrom, skipSpace_cons (c := ',') rfl, skipSpace_cons (c := '"') rfl, stringBody_string, read, further,
        bind, Except.bind]

theorem members_object (gathers : Gathers field gathered items last) (rest : List Char) :
    members field gathered (commaSeparated (items.map fun item => member item.1 item.2) ++ '\x7d' :: rest) =
      .ok (last, rest) := by
  cases gathers with
  | nil => simp [members, membersFrom, commaSeparated, skipSpace_cons (c := '\x7d') rfl]
  | @cons gathered next last name value items reads others =>
      have read := reads _ (closes_further items rest)
      have text : commaSeparated (((name, value) :: items).map fun item => member item.1 item.2) ++ '\x7d' :: rest =
          member name value ++ (furtherMembers items ++ '\x7d' :: rest) := by
        simp [commaSeparated_cons, furtherMembers, List.flatMap_map]
      -- Every member takes at least one character, so the fuel, which is the length of the text, lasts.
      have length := length_furtherMembers items
      have enough : items.length < (member name value ++ (furtherMembers items ++ '\x7d' :: rest)).length := by
        simp only [List.length_append, List.length_cons]
        omega
      rw [text, members]
      generalize (member name value ++ (furtherMembers items ++ '\x7d' :: rest)).length = fuel at enough ⊢
      have further := membersFrom_further others enough rest
      rw [member_append]
      simp [membersFrom, skipSpace_cons (c := '"') rfl, stringBody_string, read, further, bind, Except.bind]

end Objects

section Control

def IsPrinted (chars : List Char) : Prop :=
  ∀ c ∈ chars, 0x20 ≤ c.toNat

theorem IsPrinted.append {first second : List Char} (one : IsPrinted first) (two : IsPrinted second) :
    IsPrinted (first ++ second) :=
  fun c member => (List.mem_append.mp member).elim (one c) (two c)

theorem IsPrinted.cons {c : Char} {rest : List Char} (shown : 0x20 ≤ c.toNat) (others : IsPrinted rest) :
    IsPrinted (c :: rest) :=
  fun other member => (List.mem_cons.mp member).elim (fun same => same ▸ shown) (others other)

theorem isPrinted_escape (c : Char) : IsPrinted (escape c) := by
  unfold escape
  split
  case h_8 =>
    split
    next control =>
      have digits : ∀ digit < 16, 0x20 ≤ (Nat.digitChar digit).toNat := by decide
      have pair : IsPrinted (hexPair c.toNat) := by
        intro other member
        simp only [hexPair, List.mem_cons, List.not_mem_nil, or_false] at member
        rcases member with rfl | rfl
        · exact digits _ (by omega)
        · exact digits _ (by omega)
      exact .append (by simp [IsPrinted]) pair
    next shown => exact .cons (by omega) (by simp [IsPrinted])
  all_goals simp [IsPrinted]

theorem isPrinted_string (text : String) : IsPrinted (string text) := by
  refine .append (.cons (by decide) ?_) (.cons (by decide) (by simp [IsPrinted]))
  intro c member
  obtain ⟨escaped, -, inside⟩ := List.mem_flatMap.mp member
  exact isPrinted_escape escaped c inside

theorem isPrinted_natural (n : Nat) : IsPrinted (natural n) := by
  intro c member
  have digit := isDigit_of_mem_natural member
  simp only [Natural.isDigit, Bool.and_eq_true, decide_eq_true_eq, Char.le_def, UInt32.le_iff_toNat_le] at digit
  exact Nat.le_trans (by decide) digit.1

theorem isPrinted_member (name : String) {value : List Char} (printed : IsPrinted value) :
    IsPrinted (member name value) :=
  .append (isPrinted_string name) (.cons (by decide) printed)

theorem isPrinted_object {members : List (List Char)} (printed : ∀ item ∈ members, IsPrinted item) :
    IsPrinted (object members) := by
  refine .append (.cons (by decide) ?_) (.cons (by decide) (by simp [IsPrinted]))
  cases members with
  | nil => simp [commaSeparated, IsPrinted]
  | cons first others =>
      rw [commaSeparated_cons]
      refine .append (printed first (List.mem_cons_self ..)) ?_
      intro c member
      obtain ⟨item, inside, at_item⟩ := List.mem_flatMap.mp member
      exact IsPrinted.cons (by decide) (printed item (List.mem_cons_of_mem _ inside)) c at_item

end Control

end KeyedLog.Json
