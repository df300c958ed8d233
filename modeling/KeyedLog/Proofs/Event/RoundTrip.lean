import KeyedLog.Proofs.Command.Lines
import KeyedLog.Proofs.Json.RoundTrip
import KeyedLog.Proofs.Text

/-!
Events that are written as JSON lines are read back as they were, one from each line, whatever characters their messages
and entries hold.
-/

namespace KeyedLog

theorem Entries.insert_of_lt {entries : List (String × String)} {name : String} (behind : ∀ entry ∈ entries, entry.1 < name)
    (value : String) : insert name value entries = entries ++ [(name, value)] := by
  induction entries with
  | nil => rfl
  | cons entry rest ih =>
      have before := behind entry (List.mem_cons_self ..)
      have different : entry.1 ≠ name := by
        intro same
        exact String.lt_irrefl name (same ▸ before)
      rw [insert, if_neg different, if_neg (String.lt_asymm before), List.cons_append,
        ih fun other member => behind other (List.mem_cons_of_mem _ member)]

namespace Event

open Json

theorem gathers_entries (before : Context) (after : List (String × String))
    (sorted : Entries.IsSorted (before.entries ++ after)) :
    Gathers readEntry before (after.map fun entry => (entry.1, string entry.2)) ⟨before.entries ++ after, sorted⟩ := by
  induction after generalizing before with
  | nil =>
      have same : (⟨before.entries ++ [], sorted⟩ : Context) = before := Context.ext (List.append_nil _)
      rw [same]
      exact .nil before
  | cons entry after ih =>
      obtain ⟨name, value⟩ := entry
      have behind : ∀ entry ∈ before.entries, entry.1 < name := by
        intro entry member
        exact (List.pairwise_append.mp sorted).2.2 entry member (name, value) (List.mem_cons_self ..)
      have inserted : (before.insert name value).entries = before.entries ++ [(name, value)] := Entries.insert_of_lt behind value
      have split : (before.insert name value).entries ++ after = before.entries ++ (name, value) :: after := by simp [inserted]
      have rest := ih (before.insert name value) (split ▸ sorted)
      simp only [split] at rest
      refine .cons ?_ rest
      intro rest _
      simp [readEntry, readColon_cons, readString_string, bind, Except.bind, pure, Except.pure]

theorem readContext_object (context : Context) (rest : List Char) :
    readContext (object (context.map fun entry => member entry.1 (string entry.2)) ++ rest) = .ok (context, rest) := by
  have gathered : Gathers readEntry ∅ (context.entries.map fun entry => (entry.1, string entry.2)) context :=
    gathers_entries ∅ context.entries context.sorted
  have items := members_object gathered rest
  rw [List.map_map] at items
  simpa [readContext, object, Context.map, skipSpace_cons (c := '\x7b') rfl, Function.comp_def] using items

theorem readLevel_string (level : Level) (rest : List Char) :
    readLevel (string level.name ++ rest) = .ok (level, rest) := by
  simp [readLevel, string, skipSpace_cons (c := '"') rfl, stringBody_string, levelNamed, Level.ofName?_name, bind,
    Except.bind, pure, Except.pure]

def items (event : Event) : List (String × List Char) := [
  ("timestamp", natural event.timestamp.toNat),
  ("level", string event.level.name),
  ("message", string event.message),
  ("context", object (event.context.map fun entry => member entry.1 (string entry.2)))]

theorem gathers_items (event : Event) :
    Gathers readField {} event.items
      ⟨some event.timestamp, some event.level, some event.message, some event.context⟩ := by
  have timestamp : ∀ rest, Closes rest → readField {} "timestamp" (':' :: (natural event.timestamp.toNat ++ rest)) =
      .ok ({ timestamp := some event.timestamp }, rest) := by
    intro rest closes
    simp [readField, readColon_cons, readWord_natural _ closes, bind, Except.bind, pure, Except.pure]
  have level : ∀ rest, Closes rest →
      readField { timestamp := some event.timestamp } "level" (':' :: (string event.level.name ++ rest)) =
        .ok ({ timestamp := some event.timestamp, level := some event.level }, rest) := by
    intro rest _
    simp [readField, readColon_cons, readLevel_string, bind, Except.bind, pure, Except.pure]
  have message : ∀ rest, Closes rest →
      readField { timestamp := some event.timestamp, level := some event.level } "message"
          (':' :: (string event.message ++ rest)) =
        .ok ({ timestamp := some event.timestamp, level := some event.level, message := some event.message }, rest) := by
    intro rest _
    simp [readField, readColon_cons, readString_string, bind, Except.bind, pure, Except.pure]
  refine .cons timestamp (.cons level (.cons message (.cons ?_ (.nil _))))
  intro rest _
  simp [readField, readColon_cons, readContext_object, bind, Except.bind, pure, Except.pure]

theorem read_jsonChars (event : Event) :
    read (String.ofList event.jsonChars) =
      .ok ⟨some event.timestamp, some event.level, some event.message, some event.context⟩ := by
  have read := members_object (gathers_items event) []
  have chars : event.jsonChars = '\x7b' :: (commaSeparated (event.items.map fun item => member item.1 item.2) ++ ['\x7d']) := rfl
  simp only [Event.read, String.toList_ofList, chars, readDraft, skipSpace_cons (c := '\x7b') rfl, read, bind, Except.bind,
    requireMessage, Option.isSome_some, if_true, pure, Except.pure]
  rfl

theorem isPrinted_jsonChars (event : Event) : IsPrinted event.jsonChars := by
  refine isPrinted_object ?_
  simp only [List.mem_cons, List.not_mem_nil, or_false]
  rintro item (rfl | rfl | rfl | rfl)
  · exact isPrinted_member _ (isPrinted_natural _)
  · exact isPrinted_member _ (isPrinted_string _)
  · exact isPrinted_member _ (isPrinted_string _)
  · refine isPrinted_member _ (isPrinted_object ?_)
    intro entry member
    obtain ⟨pair, -, rfl⟩ := List.mem_map.mp member
    exact isPrinted_member _ (isPrinted_string _)

/-- What an event is written as, without the end of the line. -/
def jsonLine (event : Event) : Bytes :=
  Utf8.encodeChars event.jsonChars

theorem encode_json (event : Event) : Encoding.json.encode event = event.jsonLine ++ [Command.newline] := by
  simp only [Encoding.encode, Encoding.chars, Utf8.encodeChars_append]
  rfl

theorem notMem_jsonLine (event : Event) {c : Char} (control : c.toNat < 0x20) :
    UInt8.ofNat c.val.toNat ∉ event.jsonLine := by
  have small : c.val.toNat < 128 := Nat.lt_trans control (by decide)
  rw [jsonLine, Utf8.mem_encodeChars small]
  intro member
  exact absurd (event.isPrinted_jsonChars c member) (by omega)

theorem newline_notMem_jsonLine (event : Event) : Command.newline ∉ event.jsonLine :=
  event.notMem_jsonLine (c := '\n') (by decide)

theorem eventOn?_of_body {event : Event} {line : Bytes} (text : Command.body line = event.jsonLine) (now : UInt64) :
    Command.eventOn? now line = some event := by
  have shown : Text.isBlank (String.ofList event.jsonChars) = false := by
    simp only [Text.isBlank, String.toList_ofList]
    rfl
  simp [Command.eventOn?, text, jsonLine, Utf8.decode?_encodeChars, Command.readLine?, shown, read_jsonChars,
    Draft.complete]

theorem body_jsonLine (event : Event) : Command.body event.jsonLine = event.jsonLine := by
  have other : event.jsonLine.getLast? ≠ some Command.newline :=
    fun last => event.newline_notMem_jsonLine (List.mem_of_getLast? last)
  rw [Command.body, if_neg other]

theorem body_encode_json (event : Event) : Command.body (Encoding.json.encode event) = event.jsonLine := by
  have other : event.jsonLine.getLast? ≠ some Command.carriageReturn :=
    fun last => event.notMem_jsonLine (c := '\r') (by decide) (List.mem_of_getLast? last)
  simp [encode_json, Command.body, other]

theorem splitOn_jsonLines (events : List Event) :
    (events.flatMap Encoding.json.encode).splitOn Command.newline = events.map jsonLine ++ [[]] := by
  induction events with
  | nil => rfl
  | cons event rest ih =>
      rw [List.flatMap_cons, encode_json, List.append_assoc, List.singleton_append,
        List.splitOn_append_cons_self_of_not_mem event.newline_notMem_jsonLine, ih, List.map_cons, List.cons_append]

/-- Each event is on a line of its own, from which it is read back, and what is read is written as it was. -/
theorem jsonLines_roundTrip (events : List Event) (now : UInt64) :
    ∃ lines : List Bytes, (events.flatMap Encoding.json.encode).splitOn Command.newline = lines ++ [[]] ∧
      lines.length = events.length ∧ lines.map (Command.eventOn? now) = events.map some ∧
      (Command.lines (events.flatMap Encoding.json.encode)).map (Command.eventOn? now) = events.map some ∧
      (lines.filterMap (Command.eventOn? now)).flatMap Encoding.json.encode = events.flatMap Encoding.json.encode := by
  have alone : (events.map jsonLine).map (Command.eventOn? now) = events.map some := by
    rw [List.map_map]
    refine List.map_congr_left fun event _ => ?_
    rw [Function.comp_apply, eventOn?_of_body event.body_jsonLine]
  have ended : (Command.lines (events.flatMap Encoding.json.encode)).map (Command.eventOn? now) = events.map some := by
    have lines : Command.lines (events.flatMap Encoding.json.encode) = events.map Encoding.json.encode := by
      simp [Command.lines_eq_splitOn, splitOn_jsonLines, encode_json]
    rw [lines, List.map_map]
    refine List.map_congr_left fun event _ => ?_
    rw [Function.comp_apply, eventOn?_of_body event.body_encode_json]
  refine ⟨events.map jsonLine, splitOn_jsonLines events, List.length_map _, alone, ended, ?_⟩
  have again : (events.map jsonLine).filterMap (Command.eventOn? now) = events := by
    calc (events.map jsonLine).filterMap (Command.eventOn? now)
        = ((events.map jsonLine).map (Command.eventOn? now)).filterMap id := by
          simp only [List.filterMap_map, Function.comp_def, id_eq]
      _ = (events.map some).filterMap id := by rw [alone]
      _ = events := by simp [List.filterMap_map]
  rw [again]

theorem jsonLines_roundTrip_control :
    ∃ lines : List Bytes,
      ([⟨18446744073709551615, .warn, "a\nb\"\\\x00\x1f", .ofList [("", "\r"), ("k\t", "ä😀")]⟩, ⟨0, .trace, "", ∅⟩].flatMap
          Encoding.json.encode).splitOn Command.newline = lines ++ [[]] ∧
      lines.length = 2 ∧
      lines.map (Command.eventOn? 7) =
        [some ⟨18446744073709551615, .warn, "a\nb\"\\\x00\x1f", .ofList [("", "\r"), ("k\t", "ä😀")]⟩,
          some ⟨0, .trace, "", ∅⟩] := by
  obtain ⟨lines, split, length, read, -⟩ := jsonLines_roundTrip
    [⟨18446744073709551615, .warn, "a\nb\"\\\x00\x1f", .ofList [("", "\r"), ("k\t", "ä😀")]⟩, ⟨0, .trace, "", ∅⟩] 7
  exact ⟨lines, split, length, read⟩

end Event

end KeyedLog
