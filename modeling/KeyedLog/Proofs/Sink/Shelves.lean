import KeyedLog.Event
import Mathlib.Data.List.Basic
import Mathlib.Logic.Function.Basic

/-!
Where entries are kept while files rotate. The file is the lowest shelf, and each archive slot is one above it. A turn moves
all shelves up by one, one after the other from the top, and may be broken off in between.
-/

namespace KeyedLog

def Laid : List Bytes → Bytes → Prop
  | [], _ => True
  | piece :: rest, bytes => ∃ front back, bytes = front ++ piece ++ back ∧ Laid rest back

namespace Laid

variable {pieces : List Bytes} {bytes : Bytes}

theorem append (laid : Laid pieces bytes) (more : Bytes) : Laid pieces (bytes ++ more) := by
  induction pieces generalizing bytes with
  | nil => trivial
  | cons piece rest ih =>
      obtain ⟨front, back, rfl, further⟩ := laid
      exact ⟨front, back ++ more, List.append_assoc .., ih further⟩

theorem concat (laid : Laid pieces bytes) (piece : Bytes) : Laid (pieces ++ [piece]) (bytes ++ piece) := by
  induction pieces generalizing bytes with
  | nil => exact ⟨bytes, [], (List.append_nil _).symm, trivial⟩
  | cons first rest ih =>
      obtain ⟨front, back, rfl, further⟩ := laid
      exact ⟨front, back ++ piece, List.append_assoc .., ih further⟩

end Laid

/-- Entries with the turn in which each was accepted, on shelves that are counted from zero. -/
abbrev Shelves := Nat → List (Nat × Event)

namespace Shelves

def stacked (shelves : Shelves) : Nat → List (Nat × Event)
  | 0 => []
  | count + 1 => shelves count ++ shelves.stacked count

def clear (shelves : Shelves) (number : Nat) : Shelves :=
  Function.update shelves number []

def raise (shelves : Shelves) (number : Nat) : Shelves :=
  clear (Function.update shelves (number + 1) (shelves number)) number

def add (shelves : Shelves) (entry : Nat × Event) : Shelves :=
  Function.update shelves 0 (shelves 0 ++ [entry])

variable {shelves other : Shelves} {number count : Nat}

theorem clear_self (shelves : Shelves) (number : Nat) : shelves.clear number number = [] :=
  Function.update_self ..

theorem clear_of_ne (different : count ≠ number) : shelves.clear number count = shelves count :=
  Function.update_of_ne different ..

theorem raise_self (shelves : Shelves) (number : Nat) : shelves.raise number number = [] :=
  clear_self ..

theorem raise_above (shelves : Shelves) (number : Nat) : shelves.raise number (number + 1) = shelves number := by
  rw [raise, clear_of_ne (by omega), Function.update_self]

theorem raise_of_ne (notBelow : count ≠ number) (notAbove : count ≠ number + 1) :
    shelves.raise number count = shelves count := by
  rw [raise, clear_of_ne notBelow, Function.update_of_ne notAbove]

theorem add_zero (shelves : Shelves) (entry : Nat × Event) : shelves.add entry 0 = shelves 0 ++ [entry] :=
  Function.update_self ..

theorem add_of_ne (entry : Nat × Event) (positive : number ≠ 0) : shelves.add entry number = shelves number :=
  Function.update_of_ne positive ..

theorem stacked_congr (same : ∀ number < count, shelves number = other number) :
    shelves.stacked count = other.stacked count := by
  induction count with
  | zero => rfl
  | succ count ih =>
      rw [stacked, stacked, same count (Nat.lt_succ_self _), ih fun number below => same number (Nat.lt_succ_of_lt below)]

theorem stacked_empty (count : Nat) : stacked (fun _ => []) count = [] := by
  induction count with
  | zero => rfl
  | succ count ih => exact ih

theorem stacked_clear (shelves : Shelves) (number : Nat) :
    shelves number ++ (shelves.clear number).stacked (number + 1) = shelves.stacked (number + 1) := by
  rw [stacked, clear_self, List.nil_append, stacked, stacked_congr fun count below => clear_of_ne (Nat.ne_of_lt below)]

theorem stacked_raise (free : shelves (number + 1) = []) (inside : number + 1 < count) :
    (shelves.raise number).stacked count = shelves.stacked count := by
  induction count with
  | zero => exact absurd inside (Nat.not_lt_zero _)
  | succ count ih =>
      by_cases top : count = number + 1
      · subst top
        rw [stacked, stacked, stacked, stacked, raise_above, raise_self, free, List.nil_append, List.nil_append,
          stacked_congr fun lower below => raise_of_ne (Nat.ne_of_lt below) (by omega)]
      · rw [stacked, stacked, raise_of_ne (by omega) top, ih (by omega)]

theorem stacked_add (shelves : Shelves) (entry : Nat × Event) (count : Nat) :
    (shelves.add entry).stacked (count + 1) = shelves.stacked (count + 1) ++ [entry] := by
  induction count with
  | zero => simp [stacked, add_zero]
  | succ count ih =>
      rw [stacked, add_of_ne entry (by omega), ih, ← List.append_assoc]
      rfl

end Shelves

/-- The entries that were accepted are on the shelves up to `top`, or they were evicted after more than so many turns. No
entry is higher than turns have come after it; in the turn that goes on, those on the lowest `waiting` shelves have not
been moved. -/
structure Shelved (top turns waiting : Nat) (accepted evicted : List (Nat × Event)) (shelves : Shelves) : Prop where
  kept : accepted = evicted ++ shelves.stacked (top + 1)
  old : ∀ entry ∈ evicted, entry.1 + top < turns
  reached : ∀ number ≤ top, ∀ entry ∈ shelves number, entry.1 + number ≤ turns
  waits : ∀ number ≤ top, number < waiting → ∀ entry ∈ shelves number, entry.1 + number < turns

namespace Shelved

variable {top turns waiting fewer number : Nat} {accepted evicted : List (Nat × Event)} {shelves : Shelves}

theorem empty (top : Nat) : Shelved top 0 0 [] [] fun _ => [] where
  kept := by
    rw [Shelves.stacked_empty]
    rfl
  old _ member := absurd member List.not_mem_nil
  reached _ _ _ member := absurd member List.not_mem_nil
  waits _ _ below := absurd below (Nat.not_lt_zero _)

theorem mono (shelved : Shelved top turns waiting accepted evicted shelves) (le : fewer ≤ waiting) :
    Shelved top turns fewer accepted evicted shelves :=
  ⟨shelved.kept, shelved.old, shelved.reached, fun number bound below =>
    shelved.waits number bound (Nat.lt_of_lt_of_le below le)⟩

/-- When a turn begins, all entries wait. -/
theorem begin (shelved : Shelved top turns waiting accepted evicted shelves) :
    Shelved top (turns + 1) (top + 1) accepted evicted shelves :=
  ⟨shelved.kept, fun entry member => Nat.lt_succ_of_lt (shelved.old entry member), fun number bound entry member =>
    Nat.le_succ_of_le (shelved.reached number bound entry member), fun number bound _ entry member =>
      Nat.lt_succ_of_le (shelved.reached number bound entry member)⟩

theorem evict (shelved : Shelved top turns waiting accepted evicted shelves) (first : top < waiting) :
    Shelved top turns waiting accepted (evicted ++ shelves top) (shelves.clear top) := by
  have fewer : ∀ number entry, entry ∈ shelves.clear top number → entry ∈ shelves number := by
    intro number entry member
    by_cases here : number = top
    · rw [here, Shelves.clear_self] at member
      exact absurd member List.not_mem_nil
    · rwa [Shelves.clear_of_ne here] at member
  refine ⟨?_, fun entry member => ?_, fun number bound entry member => ?_, fun number bound below entry member => ?_⟩
  · rw [List.append_assoc, Shelves.stacked_clear]
    exact shelved.kept
  · rcases List.mem_append.mp member with before | now
    · exact shelved.old entry before
    · exact shelved.waits top (Nat.le_refl _) first entry now
  · exact shelved.reached number bound entry (fewer number entry member)
  · exact shelved.waits number bound below entry (fewer number entry member)

theorem raise (shelved : Shelved top turns waiting accepted evicted shelves) (free : shelves (number + 1) = [])
    (inside : number < top) (turn : number < waiting) :
    Shelved top turns (number + 1) accepted evicted (shelves.raise number) := by
  refine ⟨?_, shelved.old, fun count bound entry member => ?_, fun count bound below entry member => ?_⟩
  · rw [Shelves.stacked_raise free (by omega)]
    exact shelved.kept
  · by_cases here : count = number
    · rw [here, Shelves.raise_self] at member
      exact absurd member List.not_mem_nil
    · by_cases above : count = number + 1
      · rw [above, Shelves.raise_above] at member
        have := shelved.waits number (by omega) turn entry member
        omega
      · rw [Shelves.raise_of_ne here above] at member
        exact shelved.reached count bound entry member
  · by_cases here : count = number
    · rw [here, Shelves.raise_self] at member
      exact absurd member List.not_mem_nil
    · rw [Shelves.raise_of_ne here (by omega)] at member
      exact shelved.waits count bound (by omega) entry member

theorem add (shelved : Shelved top turns waiting accepted evicted shelves) (event : Event) :
    Shelved top turns 0 (accepted ++ [(turns, event)]) evicted (shelves.add (turns, event)) := by
  refine ⟨?_, shelved.old, fun number bound entry member => ?_, fun _ _ below => absurd below (Nat.not_lt_zero _)⟩
  · rw [Shelves.stacked_add, ← List.append_assoc, ← shelved.kept]
  · by_cases lowest : number = 0
    · subst lowest
      rw [Shelves.add_zero] at member
      rcases List.mem_append.mp member with before | new
      · exact shelved.reached 0 bound entry before
      · rw [List.mem_singleton.mp new]
        exact Nat.le_refl _
    · rw [Shelves.add_of_ne _ lowest] at member
      exact shelved.reached number bound entry member

end Shelved

end KeyedLog
