import KeyedLog.Store.Basic
import KeyedLog.Text
import Mathlib.Algebra.Ring.Nat
import Mathlib.Data.List.Basic

/-!
The ids of batches and their order. The last name of an id tells the sink and the number of its batch. Numbers of one width
compare as their digits do, and a number with more digits comes behind one that its digits begin with. So the ids of a sink
are in the order of its batches as long as their numbers fit the width that ids have at least, and need not be from then on.
-/

namespace KeyedLog.StorageKey

theorem ofDigitChars_batchDigits (batch : Nat) : Nat.ofDigitChars 10 (batchDigits batch) 0 = batch := by
  simp [batchDigits, Nat.ofDigitChars_append]

theorem batchDigits_injective {first second : Nat} (same : batchDigits first = batchDigits second) :
    first = second := by
  have values := congrArg (fun digits => Nat.ofDigitChars 10 digits 0) same
  simpa only [ofDigitChars_batchDigits] using values

def batchName (sinkInstance : String) (batch : Nat) : List Char :=
  sinkInstance.toList ++ '_' :: batchDigits batch

theorem isDigit_of_mem_batchDigits {batch : Nat} {c : Char} (member : c ∈ batchDigits batch) : c.isDigit = true := by
  rcases List.mem_append.mp member with zero | digit
  · rw [(List.mem_replicate.mp zero).2]
    rfl
  · exact Nat.isDigit_of_mem_toDigits (by decide) (by decide) digit

theorem batchName_injective {first second : String} {one two : Nat} (same : batchName first one = batchName second two) :
    first = second ∧ one = two := by
  have absent : ∀ batch, '_' ∉ batchDigits batch := fun batch member =>
    absurd (isDigit_of_mem_batchDigits member) (by decide)
  obtain ⟨instances, digits⟩ := Text.append_separator_inj (absent one) (absent two) same
  exact ⟨String.toList_inj.mp instances, batchDigits_injective digits⟩

theorem toList_batchId (base sinkInstance : String) (batch : Nat) :
    (batchId base sinkInstance batch).toList = base.toList ++ '/' :: batchName sinkInstance batch := by
  simp [batchId, batchName, String.toList_append]

theorem batchId_injective {base sinkInstance : String} {first second : Nat}
    (same : batchId base sinkInstance first = batchId base sinkInstance second) : first = second := by
  have chars := congrArg String.toList same
  rw [toList_batchId, toList_batchId] at chars
  have names := List.tail_eq_of_cons_eq (List.append_cancel_left chars)
  exact (batchName_injective names).2

def digitOf (c : Char) : Nat :=
  c.toNat - '0'.toNat

theorem digitOf_lt {c : Char} (digit : c.isDigit = true) : digitOf c < 10 := by
  have most : c.toNat ≤ 57 := (Char.isDigit_iff_toNat.mp digit).2
  have zero : '0'.toNat = 48 := rfl
  unfold digitOf
  omega

theorem encode_digit {c : Char} (digit : c.isDigit = true) :
    String.utf8EncodeChar c = [UInt8.ofNat (48 + digitOf c)] := by
  obtain ⟨least, most⟩ := Char.isDigit_iff_toNat.mp digit
  have small : c.val.toNat ≤ 127 := Nat.le_trans most (by decide)
  have value : 48 + digitOf c = c.val.toNat := Nat.add_sub_of_le least
  rw [value]
  simp only [String.utf8EncodeChar, small, if_true]

theorem ofDigitChars_bounds {digits : List Char} (valid : ∀ c ∈ digits, c.isDigit = true) (high : Nat) :
    high * 10 ^ digits.length ≤ Nat.ofDigitChars 10 digits high ∧
      Nat.ofDigitChars 10 digits high < (high + 1) * 10 ^ digits.length := by
  induction digits generalizing high with
  | nil => simp
  | cons c rest ih =>
      obtain ⟨digit, others⟩ := List.forall_mem_cons.mp valid
      obtain ⟨least, most⟩ := ih others (10 * high + digitOf c)
      have small := digitOf_lt digit
      have cons : Nat.ofDigitChars 10 (c :: rest) high = Nat.ofDigitChars 10 rest (10 * high + digitOf c) :=
        Nat.ofDigitChars_cons
      rw [cons, List.length_cons, Nat.pow_succ', ← Nat.mul_assoc, ← Nat.mul_assoc]
      constructor
      · exact Nat.le_trans (Nat.mul_le_mul_right _ (by omega)) least
      · exact Nat.lt_of_lt_of_le most (Nat.mul_le_mul_right _ (by omega))

theorem encodeChars_lt_iff {first front back : List Char} (one : ∀ c ∈ first, c.isDigit = true)
    (two : ∀ c ∈ front, c.isDigit = true) (length : first.length = front.length) (high : Nat) :
    Utf8.encodeChars first < Utf8.encodeChars (front ++ back) ↔
      Nat.ofDigitChars 10 first high < Nat.ofDigitChars 10 front high ∨
        Nat.ofDigitChars 10 first high = Nat.ofDigitChars 10 front high ∧ [] < Utf8.encodeChars back := by
  induction first generalizing front high with
  | nil => simp [List.length_eq_zero_iff.mp length.symm]
  | cons c rest ih =>
      obtain ⟨d, others, rfl⟩ := List.exists_cons_of_length_eq_add_one length.symm
      obtain ⟨digit, digits⟩ := List.forall_mem_cons.mp one
      obtain ⟨digit', digits'⟩ := List.forall_mem_cons.mp two
      have same : rest.length = others.length := Nat.succ_inj.mp length
      have cons : ∀ c rest, Nat.ofDigitChars 10 (c :: rest) high = Nat.ofDigitChars 10 rest (10 * high + digitOf c) :=
        fun _ _ => Nat.ofDigitChars_cons
      have small := digitOf_lt digit
      have small' := digitOf_lt digit'
      have order : UInt8.ofNat (48 + digitOf c) < UInt8.ofNat (48 + digitOf d) ↔ digitOf c < digitOf d := by
        rw [UInt8.lt_iff_toNat_lt, UInt8.toNat_ofNat', UInt8.toNat_ofNat']
        omega
      have equal : UInt8.ofNat (48 + digitOf c) = UInt8.ofNat (48 + digitOf d) ↔ digitOf c = digitOf d := by
        rw [← UInt8.toNat_inj, UInt8.toNat_ofNat', UInt8.toNat_ofNat']
        omega
      rw [List.cons_append, Utf8.encodeChars_cons, Utf8.encodeChars_cons, encode_digit digit, encode_digit digit',
        List.singleton_append, List.singleton_append, List.cons_lt_cons_iff, order, equal, cons, cons]
      -- Where the first digits differ, what follows either cannot make up for it.
      rcases Nat.lt_trichotomy (digitOf c) (digitOf d) with below | alike | above
      · have least := (ofDigitChars_bounds digits' (10 * high + digitOf d)).1
        have most := (ofDigitChars_bounds digits (10 * high + digitOf c)).2
        have step := Nat.mul_le_mul_right (10 ^ others.length) (show 10 * high + digitOf c + 1 ≤ 10 * high + digitOf d by omega)
        rw [same] at most
        omega
      · rw [alike, ← ih digits digits' same]
        simp
      · have least := (ofDigitChars_bounds digits (10 * high + digitOf c)).1
        have most := (ofDigitChars_bounds digits' (10 * high + digitOf d)).2
        have step := Nat.mul_le_mul_right (10 ^ others.length) (show 10 * high + digitOf d + 1 ≤ 10 * high + digitOf c by omega)
        rw [same] at least
        omega

theorem length_batchDigits (batch : Nat) : (batchDigits batch).length = max 6 (Nat.toDigits 10 batch).length := by
  rw [batchDigits, List.length_append, List.length_replicate]
  omega

theorem length_batchDigits_eq {batch : Nat} (few : batch < 1000000) : (batchDigits batch).length = 6 := by
  have digits : (Nat.toDigits 10 batch).length ≤ 6 := (Nat.length_toDigits_le_iff (by decide) (by decide)).mpr few
  rw [length_batchDigits]
  omega

theorem length_batchDigits_mono {first second : Nat} (order : first ≤ second) :
    (batchDigits first).length ≤ (batchDigits second).length := by
  have digits : (Nat.toDigits 10 first).length ≤ (Nat.toDigits 10 second).length := by
    rw [Nat.length_toDigits_le_iff (by decide) Nat.length_toDigits_pos]
    exact Nat.lt_of_le_of_lt order ((Nat.length_toDigits_le_iff (by decide) Nat.length_toDigits_pos).mp (Nat.le_refl _))
  rw [length_batchDigits, length_batchDigits]
  omega

def excess (first second : Nat) : Nat :=
  (batchDigits second).length - (batchDigits first).length

/-- A later batch comes behind an earlier one unless its digits begin with those of a smaller number. -/
theorem batchDigits_lt_iff {first second : Nat} (order : first < second) :
    Utf8.encodeChars (batchDigits first) < Utf8.encodeChars (batchDigits second) ↔
      first ≤ second / 10 ^ excess first second := by
  have widths := length_batchDigits_mono (Nat.le_of_lt order)
  obtain ⟨front, back, digits, length⟩ : ∃ front back, batchDigits second = front ++ back ∧
      (batchDigits first).length = front.length := by
    refine ⟨(batchDigits second).take (batchDigits first).length, (batchDigits second).drop (batchDigits first).length,
      (List.take_append_drop _ _).symm, ?_⟩
    rw [List.length_take, Nat.min_eq_left widths]
  have digit : ∀ c ∈ front ++ back, c.isDigit = true := fun c member => isDigit_of_mem_batchDigits (digits ▸ member)
  obtain ⟨digit', digit''⟩ := List.forall_mem_append.mp digit
  have behind : excess first second = back.length := by
    rw [excess, digits, length, List.length_append, Nat.add_sub_cancel_left]
  have value : Nat.ofDigitChars 10 back (Nat.ofDigitChars 10 front 0) = second := by
    rw [← Nat.ofDigitChars_append, ← digits, ofDigitChars_batchDigits]
  have quotient : second / 10 ^ excess first second = Nat.ofDigitChars 10 front 0 := by
    obtain ⟨least, most⟩ := ofDigitChars_bounds digit'' (Nat.ofDigitChars 10 front 0)
    rw [value] at least most
    rw [behind]
    exact Nat.div_eq_of_lt_le least most
  rw [quotient, digits, encodeChars_lt_iff (fun _ => isDigit_of_mem_batchDigits) digit' length 0, ofDigitChars_batchDigits]
  constructor
  · rintro (less | ⟨same, -⟩)
    · exact Nat.le_of_lt less
    · exact Nat.le_of_eq same
  · intro most
    rcases Nat.lt_or_eq_of_le most with less | same
    · exact .inl less
    · refine .inr ⟨same, ?_⟩
      -- The digits of the earlier batch cannot be all of the later one.
      cases back with
      | nil => exact absurd (same.trans value) (Nat.ne_of_lt order)
      | cons c rest =>
          rw [Utf8.encodeChars_cons, encode_digit (digit'' c List.mem_cons_self)]
          exact List.nil_lt_cons _ _

theorem batchId_lt_iff (base sinkInstance : String) {first second : Nat} (order : first < second) :
    Utf8.encode (batchId base sinkInstance first) < Utf8.encode (batchId base sinkInstance second) ↔
      first ≤ second / 10 ^ excess first second := by
  have prefixed : ∀ (shared one two : Bytes), shared ++ one < shared ++ two ↔ one < two := by
    intro shared one two
    induction shared with
    | nil => rfl
    | cons byte rest ih => simp [ih]
  have parts : ∀ batch, Utf8.encode (batchId base sinkInstance batch) =
      Utf8.encodeChars (base.toList ++ '/' :: sinkInstance.toList ++ ['_']) ++ Utf8.encodeChars (batchDigits batch) := by
    intro batch
    rw [← Utf8.encodeChars_append, Utf8.encode, toList_batchId, batchName]
    simp
  rw [parts, parts, prefixed, batchDigits_lt_iff order]

theorem batchId_lt (base sinkInstance : String) {first second : Nat} (order : first < second) (few : second < 1000000) :
    Utf8.encode (batchId base sinkInstance first) < Utf8.encode (batchId base sinkInstance second) := by
  have none : excess first second = 0 := by
    rw [excess, length_batchDigits_eq few, length_batchDigits_eq (Nat.lt_trans order few)]
  rw [batchId_lt_iff base sinkInstance order, none, Nat.pow_zero, Nat.div_one]
  exact Nat.le_of_lt order

end KeyedLog.StorageKey
