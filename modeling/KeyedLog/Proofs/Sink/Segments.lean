import KeyedLog.Archive
import Mathlib.Data.List.Basic

/-!
How a stream of octets is cut into segments. A segment ends before an entry that would take it past the limit, unless it
is empty.
-/

namespace KeyedLog

/-- A stream that has been cut up to here. -/
structure Segments where
  closed : List Bytes := []
  current : Bytes
  deriving DecidableEq, Repr

namespace Segments

def endsBefore (segments : Segments) (limit length : Nat) : Prop :=
  0 < segments.current.length ∧ limit < segments.current.length + length

instance (segments : Segments) (limit length : Nat) : Decidable (segments.endsBefore limit length) :=
  inferInstanceAs (Decidable (_ ∧ _))

def add (limit : Nat) (segments : Segments) (entry : Bytes) : Segments :=
  if segments.endsBefore limit entry.length then
    { closed := segments.current :: segments.closed, current := entry }
  else { segments with current := segments.current ++ entry }

def addAll (limit : Nat) (segments : Segments) (entries : List Bytes) : Segments :=
  entries.foldl (add limit) segments

def stream (segments : Segments) : Bytes :=
  segments.closed.reverse.flatten ++ segments.current

/-- What the archive slots hold once the segments have ended: the newest segments, and behind them what was there
before. -/
def slots (segments : Segments) (before : Nat → Option Bytes) (number : Nat) : Option Bytes :=
  if number ≤ segments.closed.length then segments.closed[number - 1]?.map Gzip.encode
  else before (number - segments.closed.length)

variable {limit : Nat} {segments : Segments} {entry : Bytes} {before : Nat → Option Bytes}

theorem stream_add (limit : Nat) (segments : Segments) (entry : Bytes) :
    (segments.add limit entry).stream = segments.stream ++ entry := by
  unfold add stream
  split <;> simp

theorem stream_addAll (limit : Nat) (segments : Segments) (entries : List Bytes) :
    (segments.addAll limit entries).stream = segments.stream ++ entries.flatten := by
  induction entries generalizing segments with
  | nil => simp [addAll]
  | cons entry rest ih =>
      have step := ih (segments.add limit entry)
      rw [stream_add] at step
      simpa [addAll, List.append_assoc] using step

theorem add_of_ends (ends : segments.endsBefore limit entry.length) :
    segments.add limit entry = { closed := segments.current :: segments.closed, current := entry } := by
  rw [add, if_pos ends]

theorem add_of_not_ends (fits : ¬ segments.endsBefore limit entry.length) :
    segments.add limit entry = { segments with current := segments.current ++ entry } := by
  rw [add, if_neg fits]

theorem add_oversized (large : limit < (segments.add limit entry).current.length) :
    (segments.add limit entry).current = entry := by
  by_cases ends : segments.endsBefore limit entry.length
  · rw [add_of_ends ends]
  · rw [add_of_not_ends ends] at large ⊢
    simp only [List.length_append] at large
    have empty : segments.current.length = 0 := by
      by_contra some
      exact ends ⟨Nat.pos_of_ne_zero some, large⟩
    rw [List.length_eq_zero_iff.mp empty, List.nil_append]

theorem addAll_oversized {entries : List Bytes} {last : Bytes} (final : entries.getLast? = some last)
    (large : limit < (segments.addAll limit entries).current.length) :
    (segments.addAll limit entries).current = last := by
  obtain ⟨front, rfl⟩ := List.getLast?_eq_some_iff.mp final
  rw [addAll, List.foldl_append] at large ⊢
  exact add_oversized large

theorem slots_of_ends (ends : segments.endsBefore limit entry.length) (before : Nat → Option Bytes) (number : Nat) :
    (segments.add limit entry).slots before (number + 1) =
      if number = 0 then some (Gzip.encode segments.current) else segments.slots before number := by
  rw [add_of_ends ends]
  cases number with
  | zero => simp [slots]
  | succ number => simp [slots]

theorem slots_of_not_ends (fits : ¬ segments.endsBefore limit entry.length) :
    (segments.add limit entry).slots before = segments.slots before := by
  rw [add_of_not_ends fits]
  rfl

theorem slots_fresh (content : Bytes) (before : Nat → Option Bytes) {number : Nat} (positive : 1 ≤ number) :
    (Segments.mk [] content).slots before number = before number := by
  have beyond : ¬ number ≤ 0 := by omega
  simp [slots, beyond]

end Segments

end KeyedLog
