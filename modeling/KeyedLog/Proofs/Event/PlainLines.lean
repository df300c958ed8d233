import KeyedLog.Command.Input
import KeyedLog.Proofs.Text
import Mathlib.Algebra.Ring.Nat

/-!
Events on plain lines. An output has a line for each event and one more for each line break in a message, so events whose
messages have none are known by their lines; those with line breaks can pass for others.
-/

namespace KeyedLog

namespace Level

def column (level : Level) : List Char :=
  Event.levelField.applyChars level.name.toList

theorem length_column (level : Level) : level.column.length = 5 := by
  cases level <;> rfl

theorem newline_notMem_column (level : Level) : '\n' ∉ level.column := by
  cases level <;> decide

theorem column_injective {first second : Level} (same : first.column = second.column) : first = second := by
  cases first <;> cases second <;> first | rfl | exact absurd same (by decide)

end Level

namespace Event

def plainChars (event : Event) : List Char :=
  Nat.toDigits 10 event.timestamp.toNat ++ ' ' :: event.level.column ++ ' ' :: event.message.toList

def plainText (event : Event) : Bytes :=
  Utf8.encodeChars event.plainChars

/-- What a plain line tells of an event. -/
def plainPart (event : Event) : UInt64 × Level × String :=
  (event.timestamp, event.level, event.message)

/-- The line breaks in the message of an event. -/
def breaks (event : Event) : Nat :=
  event.message.toList.count '\n'

theorem encode_line (event : Event) : Encoding.line.encode event = event.plainText ++ [Command.newline] := by
  have chars : Encoding.line.chars event = event.plainChars ++ ['\n'] := by
    simp [Encoding.chars, lineChars, plainChars, Level.column]
  rw [Encoding.encode, chars, Utf8.encodeChars_append]
  rfl

theorem isDigit_of_mem_timestamp {event : Event} {c : Char} (member : c ∈ Nat.toDigits 10 event.timestamp.toNat) :
    c.isDigit = true :=
  Nat.isDigit_of_mem_toDigits (by decide) (by decide) member

theorem plainPart_of_plainChars {first second : Event} (same : first.plainChars = second.plainChars) :
    first.plainPart = second.plainPart := by
  have time : ∀ event : Event, event.plainChars.takeWhile (· != ' ') = Nat.toDigits 10 event.timestamp.toNat := by
    intro event
    rw [plainChars, List.append_assoc, List.takeWhile_append_of_pos]
    · simp
    · intro c member
      rw [bne_iff_ne]
      rintro rfl
      exact absurd (isDigit_of_mem_timestamp member) (by decide)
  have digits : Nat.toDigits 10 first.timestamp.toNat = Nat.toDigits 10 second.timestamp.toNat := by
    rw [← time first, ← time second, same]
  have times : first.timestamp = second.timestamp := by
    refine UInt64.toNat_inj.mp ?_
    have values := congrArg (fun digits => Nat.ofDigitChars 10 digits 0) digits
    simpa using values
  simp only [plainChars, digits, List.append_assoc, List.append_cancel_left_eq, List.cons_append, List.cons.injEq,
    true_and] at same
  obtain ⟨columns, rest⟩ := List.append_inj same (by rw [Level.length_column, Level.length_column])
  have messages := String.toList_inj.mp (List.tail_eq_of_cons_eq rest)
  rw [plainPart, plainPart, times, Level.column_injective columns, messages]

theorem plainPart_of_plainText {first second : Event} (same : first.plainText = second.plainText) :
    first.plainPart = second.plainPart := by
  have texts := congrArg Utf8.decode? same
  rw [plainText, plainText, Utf8.decode?_encodeChars, Utf8.decode?_encodeChars, Option.some_inj] at texts
  exact plainPart_of_plainChars (String.ofList_injective texts)

theorem count_newline_plainText (event : Event) : event.plainText.count Command.newline = event.breaks := by
  have digits : (Nat.toDigits 10 event.timestamp.toNat).count '\n' = 0 := by
    refine List.count_eq_zero.mpr fun member => ?_
    exact absurd (isDigit_of_mem_timestamp member) (by decide)
  have level : event.level.column.count '\n' = 0 := List.count_eq_zero.mpr event.level.newline_notMem_column
  calc event.plainText.count Command.newline
      = event.plainChars.count '\n' := Utf8.count_encodeChars (c := '\n') (by decide) event.plainChars
    _ = event.breaks := by simp [plainChars, breaks, digits, level]

theorem count_newline_plainLines (events : List Event) :
    (events.flatMap Encoding.line.encode).count Command.newline = events.length + (events.map breaks).sum := by
  induction events with
  | nil => rfl
  | cons event rest ih =>
      rw [List.flatMap_cons, List.count_append, ih, encode_line, List.count_append, count_newline_plainText,
        List.count_singleton_self, List.length_cons, List.map_cons, List.sum_cons]
      omega

theorem splitOn_plainLines {events : List Event} (unbroken : ∀ event ∈ events, event.breaks = 0) :
    (events.flatMap Encoding.line.encode).splitOn Command.newline = events.map plainText ++ [[]] := by
  induction events with
  | nil => rfl
  | cons event rest ih =>
      obtain ⟨whole, others⟩ := List.forall_mem_cons.mp unbroken
      have line : Command.newline ∉ event.plainText :=
        List.count_eq_zero.mp (event.count_newline_plainText.trans whole)
      rw [List.flatMap_cons, encode_line, List.append_assoc, List.singleton_append,
        List.splitOn_append_cons_self_of_not_mem line, ih others, List.map_cons, List.cons_append]

theorem sum_breaks_eq_zero {events : List Event} :
    (events.map breaks).sum = 0 ↔ ∀ event ∈ events, event.breaks = 0 := by
  rw [List.sum_eq_zero_iff_forall_eq_nat, List.forall_mem_map]

theorem plainPart_of_texts {first second : List Event} (same : first.map plainText = second.map plainText) :
    first.map plainPart = second.map plainPart := by
  induction first generalizing second with
  | nil => rw [List.map_eq_nil_iff.mp same.symm]
  | cons event rest ih =>
      obtain ⟨other, others, rfl, text, texts⟩ := List.map_eq_cons_iff.mp same.symm
      rw [List.map_cons, List.map_cons, ih texts.symm, plainPart_of_plainText text]

/-- Events without line breaks are each on a line of its own. A list with the same output is not longer, and has the same
times, levels and messages if it is not shorter. -/
theorem plain_lines_unforged {events : List Event} (unbroken : ∀ event ∈ events, event.breaks = 0) :
    (events.flatMap Encoding.line.encode).splitOn Command.newline = events.map plainText ++ [[]] ∧
      ∀ others : List Event, others.flatMap Encoding.line.encode = events.flatMap Encoding.line.encode →
        others.length + (others.map breaks).sum = events.length ∧
          (others.length = events.length → others.map plainPart = events.map plainPart) := by
  refine ⟨splitOn_plainLines unbroken, fun others same => ?_⟩
  have lines : others.length + (others.map breaks).sum = events.length := by
    rw [← count_newline_plainLines, same, count_newline_plainLines, sum_breaks_eq_zero.mpr unbroken, Nat.add_zero]
  refine ⟨lines, fun length => plainPart_of_texts ?_⟩
  have whole : ∀ event ∈ others, event.breaks = 0 := sum_breaks_eq_zero.mp (by omega)
  have split := (splitOn_plainLines whole).symm.trans ((congrArg _ same).trans (splitOn_plainLines unbroken))
  exact List.append_cancel_right split

theorem plain_lines_unforged_nested :
    ([⟨7, .info, "0 INFO  a", ∅⟩, ⟨0, .warn, "", ∅⟩].flatMap Encoding.line.encode).splitOn Command.newline =
        [⟨7, .info, "0 INFO  a", ∅⟩, ⟨0, .warn, "", ∅⟩].map plainText ++ [[]] ∧
      [⟨0, .info, "a", ∅⟩].flatMap Encoding.line.encode ≠
        [⟨7, .info, "0 INFO  a", ∅⟩, ⟨0, .warn, "", ∅⟩].flatMap Encoding.line.encode := by
  have unbroken : ∀ event ∈ ([⟨7, .info, "0 INFO  a", ∅⟩, ⟨0, .warn, "", ∅⟩] : List Event), event.breaks = 0 := by
    decide
  obtain ⟨split, unforged⟩ := plain_lines_unforged unbroken
  refine ⟨split, fun same => ?_⟩
  obtain ⟨lines, -⟩ := unforged _ same
  exact absurd lines (by decide)

/-- A message with a line break passes for two events. -/
theorem plain_lines_forged :
    [⟨0, .info, "a\n0 INFO  b", ∅⟩].flatMap Encoding.line.encode =
      [⟨0, .info, "a", ∅⟩, ⟨0, .info, "b", ∅⟩].flatMap Encoding.line.encode := by
  decide +kernel

end Event

end KeyedLog
