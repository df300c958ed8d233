import KeyedLog.Text
import Mathlib.Data.List.Basic
import Mathlib.Data.List.TakeWhile

/-!
Nothing is left of a text without the blanks around it exactly if it is blank. Text is read back from its octets, and an
octet of seven bits stands for one character wherever it occurs.
-/

namespace KeyedLog.Text

theorem trimChars_eq_nil_iff (chars : List Char) : trimChars chars = [] ↔ ∀ c ∈ chars, KeyedLog.isBlank c = true := by
  rw [trimChars, List.reverse_eq_nil_iff, List.dropWhile_eq_nil_iff]
  simp only [List.mem_reverse]
  constructor
  · intro blank
    rw [← List.dropWhile_eq_nil_iff]
    by_contra left
    have first := List.head_dropWhile_not KeyedLog.isBlank left
    rw [blank _ (List.head_mem left)] at first
    exact Bool.noConfusion first
  · intro blank c member
    exact blank c ((List.dropWhile_sublist _).subset member)

theorem exists_trimChars (chars : List Char) : ∃ before after, chars = before ++ trimChars chars ++ after ∧
    (∀ c ∈ before, KeyedLog.isBlank c = true) ∧ ∀ c ∈ after, KeyedLog.isBlank c = true := by
  let rest := (chars.dropWhile KeyedLog.isBlank).reverse
  have front := List.takeWhile_append_dropWhile (p := KeyedLog.isBlank) (l := chars)
  have back := List.takeWhile_append_dropWhile (p := KeyedLog.isBlank) (l := rest)
  refine ⟨chars.takeWhile KeyedLog.isBlank, (rest.takeWhile KeyedLog.isBlank).reverse, ?_, ?_, ?_⟩
  · rw [List.append_assoc, trimChars, ← List.reverse_append, back, List.reverse_reverse, front]
  · exact List.all_eq_true.mp List.all_takeWhile
  · intro c member
    exact List.all_eq_true.mp List.all_takeWhile c (List.mem_reverse.mp member)

theorem dropWhile_blanks {before core : List Char} (blank : ∀ c ∈ before, KeyedLog.isBlank c = true)
    (first : ∀ c, core.head? = some c → KeyedLog.isBlank c = false) :
    (before ++ core).dropWhile KeyedLog.isBlank = core := by
  rw [List.dropWhile_append_of_pos blank]
  cases core with
  | nil => rfl
  | cons c rest => exact List.dropWhile_cons_of_neg (by simp [first c rfl])

theorem trimChars_surrounded {before core after : List Char} (front : ∀ c ∈ before, KeyedLog.isBlank c = true)
    (back : ∀ c ∈ after, KeyedLog.isBlank c = true) (first : ∀ c, core.head? = some c → KeyedLog.isBlank c = false)
    (last : ∀ c, core.getLast? = some c → KeyedLog.isBlank c = false) : trimChars (before ++ core ++ after) = core := by
  by_cases nothing : core = []
  · subst nothing
    rw [trimChars_eq_nil_iff, List.append_nil]
    intro c member
    exact (List.mem_append.mp member).elim (front c) (back c)
  · have begins : ∀ c, (core ++ after).head? = some c → KeyedLog.isBlank c = false := by
      rwa [List.head?_append_of_ne_nil _ nothing]
    have ends : ∀ c, core.reverse.head? = some c → KeyedLog.isBlank c = false := by
      rwa [List.head?_reverse]
    have blank : ∀ c ∈ after.reverse, KeyedLog.isBlank c = true := fun c member => back c (List.mem_reverse.mp member)
    rw [trimChars, List.append_assoc, dropWhile_blanks front begins, List.reverse_append, dropWhile_blanks blank ends,
      List.reverse_reverse]

theorem trim_eq_empty_iff (text : String) : trim text = "" ↔ isBlank text = true := by
  rw [trim, isBlank, List.all_eq_true, ← trimChars_eq_nil_iff, ← String.toList_eq_nil_iff, String.toList_ofList]

end KeyedLog.Text

namespace KeyedLog.Utf8

theorem decode?_encodeChars (chars : List Char) : decode? (encodeChars chars) = some (String.ofList chars) := by
  have same : (⟨(encodeChars chars).toArray⟩ : ByteArray) = chars.utf8Encode := by
    rw [List.utf8Encode, encodeChars]
    apply ByteArray.ext
    rw [List.data_toByteArray]
  have valid : (⟨(encodeChars chars).toArray⟩ : ByteArray).IsValidUTF8 := same ▸ .intro chars rfl
  rw [decode?, String.fromUTF8?, dif_pos valid]
  exact congrArg some (String.toByteArray_inj.mp (same.trans String.toByteArray_ofList.symm))

theorem mem_utf8EncodeChar {c other : Char} (small : c.val.toNat < 128) :
    UInt8.ofNat c.val.toNat ∈ String.utf8EncodeChar other ↔ c = other := by
  have bound := other.val.toNat_lt
  rw [← Char.val_inj, ← UInt32.toNat_inj]
  unfold String.utf8EncodeChar
  dsimp only
  repeat' split
  all_goals
    simp only [List.mem_cons, List.not_mem_nil, or_false, ← UInt8.toNat_inj, UInt8.toNat_ofNat']
    omega

theorem mem_encodeChars {c : Char} (small : c.val.toNat < 128) {chars : List Char} :
    UInt8.ofNat c.val.toNat ∈ encodeChars chars ↔ c ∈ chars := by
  induction chars with
  | nil => simp
  | cons first rest ih => rw [encodeChars_cons, List.mem_append, ih, List.mem_cons, mem_utf8EncodeChar small]

theorem count_encodeChars {c : Char} (small : c.val.toNat < 128) (chars : List Char) :
    (encodeChars chars).count (UInt8.ofNat c.val.toNat) = chars.count c := by
  have single : String.utf8EncodeChar c = [UInt8.ofNat c.val.toNat] := by
    have bound : c.val.toNat ≤ 127 := Nat.le_of_lt_succ small
    simp only [String.utf8EncodeChar, bound, if_true]
  induction chars with
  | nil => rfl
  | cons first rest ih =>
      rw [encodeChars_cons, List.count_append, ih]
      by_cases same : c = first
      · subst first
        rw [single, List.count_singleton_self, List.count_cons_self, Nat.add_comm]
      · rw [List.count_eq_zero.mpr fun member => same ((mem_utf8EncodeChar small).mp member),
          List.count_cons_of_ne (Ne.symm same), Nat.zero_add]

end KeyedLog.Utf8
