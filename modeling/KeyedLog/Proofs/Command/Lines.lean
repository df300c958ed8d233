import KeyedLog.Command.Run
import Mathlib.Data.List.TakeWhile

/-!
What the lines of an input do. All lines up to the first that is no text count, each on its own: those that hold an event
have it dispatched, and the others are as if they were not there.
-/

namespace KeyedLog

def Service.dispatchAll (service : Service) (events : List Event) : Service :=
  events.foldl (fun service event => (service.dispatch event).2) service

namespace Command

def eventOn? (now : UInt64) (line : Bytes) : Option Event :=
  (Utf8.decode? (body line)).bind (readLine? now)

def isText (line : Bytes) : Bool :=
  (Utf8.decode? (body line)).isSome

/-- The lines of an input up to the first that is no text. -/
def readable (input : Bytes) : List Bytes :=
  (lines input).takeWhile isText

def events (now : UInt64) (input : Bytes) : List Event :=
  (readable input).filterMap (eventOn? now)

theorem lines_eq_splitOn (input : Bytes) :
    lines input = (input.splitOn newline).dropLast.map (· ++ [newline]) ++
      (input.splitOn newline).getLast?.toList.filter (· ≠ []) := by
  induction input with
  | nil => rfl
  | cons byte rest ih =>
      rw [lines, List.splitOn_cons_eq_if_modifyHead]
      obtain ⟨piece, pieces, split⟩ := List.exists_cons_of_ne_nil (List.splitOn_ne_nil newline rest)
      rw [split] at ih ⊢
      by_cases ends : byte = newline
      · simp [ends, ih]
      · cases pieces with
        | nil => by_cases empty : piece = [] <;> simp [ends, ih, empty]
        | cons next pieces => simp [ends, ih]

theorem takeLines_cons (service : Service) (now : UInt64) (line : Bytes) (rest : List Bytes) :
    takeLines service now (line :: rest) =
      match takeLine? service now line with
      | some service => takeLines service now rest
      | none => service := by
  cases taken : takeLine? service now line <;> simp [takeLines, takeFrom, taken]

theorem takeLines_eq (service : Service) (now : UInt64) (lines : List Bytes) :
    takeLines service now lines = service.dispatchAll ((lines.takeWhile isText).filterMap (eventOn? now)) := by
  induction lines generalizing service with
  | nil => rfl
  | cons line rest ih =>
      cases text : Utf8.decode? (body line) with
      | none => simp [takeLines_cons, takeLine?, isText, text, Service.dispatchAll]
      | some chars =>
          have one : isText line = true := by simp [isText, text]
          have here : eventOn? now line = readLine? now chars := by simp [eventOn?, text]
          rw [List.takeWhile_cons_of_pos one, takeLines_cons, takeLine?, text, Option.map_some]
          cases found : readLine? now chars with
          | none => simp [takeText, found, here, ih]
          | some event => simp [takeText, found, here, ih, Service.dispatchAll]

end Command

theorem Service.starts {config : Config} {surroundings : Surroundings} (valid : config.validate = .ok ())
    (background : surroundings.hasBackground = true)
    (store : config.remote.enabled = true → surroundings.store.isSome)
    (fits : config.remote.enabled = true → config.remote.maxConcurrentFlushes.toNat ≤ Executor.maxLimit) :
    ∃ service, Service.start config surroundings = .ok service := by
  have parts : ∃ parts, remoteParts config surroundings.store = .ok parts := by
    unfold remoteParts
    by_cases enabled : config.remote.enabled = true
    · obtain ⟨store, given⟩ := Option.isSome_iff_exists.mp (store enabled)
      simp [enabled, given, Executor.new?, fits enabled]
    · simp [enabled]
  obtain ⟨⟨executor, objects⟩, parts⟩ := parts
  simp [start, valid, background, parts, Except.mapError, bind, Except.bind, pure, Except.pure]

namespace Command

/-- Only the lines that hold events count, up to the first that is no text; the run ends in order in any case. -/
theorem run_dispatches_lines (program : String) {arguments : List String} {environment : Environment} {files : FileTree}
    (now : UInt64) {options : Options} {config : Config} (understood : Options.parse arguments = .ok options)
    (configured : findConfig options environment files = .ok config) (valid : config.validate = .ok ())
    (fits : config.remote.enabled = true → config.remote.maxConcurrentFlushes.toNat ≤ Executor.maxLimit)
    (input : Bytes) :
    ∃ service, startService config files now.toNat = .ok service ∧
      (run program arguments environment files now input).exitCode = 0 ∧
      (run program arguments environment files now input).output =
        (service.dispatchAll (events now input)).shutdown.2.engine.world.console.written ∧
      (run program arguments environment files now input).files =
        (service.dispatchAll (events now input)).shutdown.2.engine.world.files ∧
      ((∀ line ∈ lines input, isText line) → events now input = (lines input).filterMap (eventOn? now)) := by
  obtain ⟨service, started⟩ : ∃ service, startService config files now.toNat = .ok service :=
    Service.starts valid rfl (fun enabled => by simp [enabled]) fits
  have prepared : prepare options environment files now.toNat = .ok service := by
    simp [prepare, configured, started, Except.mapError, bind, Except.bind]
  have outcome : run program arguments environment files now input =
      .ofService (service.dispatchAll (events now input)).shutdown.2 := by
    simp only [run, understood, prepared, finish, takeLines_eq, events, readable]
  rw [outcome]
  refine ⟨service, started, rfl, rfl, rfl, ?_⟩
  intro text
  rw [events, readable, List.takeWhile_eq_self_iff.mpr text]

def mixedInput : Bytes :=
  Encoding.json.encode ⟨1, .info, "first", ∅⟩ ++ Utf8.encode "\n  \n[1,\n\x7b\"message\":2\x7d\n" ++
    Encoding.json.encode ⟨2, .info, "second", ∅⟩ ++ [0xff, 0xfe, newline] ++
    Encoding.json.encode ⟨3, .info, "third", ∅⟩

theorem run_dispatches_lines_mixed :
    events 0 mixedInput = [⟨1, .info, "first", ∅⟩, ⟨2, .info, "second", ∅⟩] ∧
      ∃ service, startService {} (.empty []) 0 = .ok service ∧
        (run "keyedlog" [] [] (.empty []) 0 mixedInput).exitCode = 0 ∧
        (run "keyedlog" [] [] (.empty []) 0 mixedInput).output =
          (service.dispatchAll (events 0 mixedInput)).shutdown.2.engine.world.console.written ∧
        (run "keyedlog" [] [] (.empty []) 0 mixedInput).files =
          (service.dispatchAll (events 0 mixedInput)).shutdown.2.engine.world.files := by
  have understood : Options.parse [] = .ok {} := rfl
  have configured : findConfig {} [] (.empty []) = .ok {} := by decide +kernel
  obtain ⟨service, started, exit, output, files, -⟩ :=
    run_dispatches_lines "keyedlog" 0 understood configured (by decide +kernel) (by decide) mixedInput
  exact ⟨by decide +kernel, service, started, exit, output, files⟩

/-- A line that is no text ends the input, and an event on a later line is lost. -/
theorem run_ends_at_line_without_text :
    ∃ service, startService {} (.empty []) 0 = .ok service ∧
      (run "keyedlog" [] [] (.empty []) 0 mixedInput).output ≠
        (service.dispatchAll ((lines mixedInput).filterMap (eventOn? 0))).shutdown.2.engine.world.console.written := by
  refine ⟨_, rfl, ?_⟩
  decide +kernel

end Command

end KeyedLog
