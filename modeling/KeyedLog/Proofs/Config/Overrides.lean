import KeyedLog.Config.Load
import KeyedLog.Proofs.Config.Validation

/-!
What the environment does to a configuration. The settings whose variables are set are replaced, up to the first whose
variable cannot be read, and nothing else changes. A configuration is loaded if its file can be read and is a document of the
right form, all variables that are set can be read, and the result is valid.
-/

namespace KeyedLog

namespace Config

namespace Setting

@[reducible] def Value : Setting → Type
  | level => Level
  | idleTimeout => UInt64
  | maxFileSize => ByteSize
  | maxArchiveWindows => UInt32
  | shutdownGrace => UInt64

def read : (setting : Setting) → String → Except String setting.Value
  | level, word => (Level.parse word).mapError Level.Unknown.message
  | idleTimeout, word => (Natural.parseWord64 word).mapError Natural.Fault.message
  | maxFileSize, word => (ByteSize.parse word).mapError ByteSize.Fault.message
  | maxArchiveWindows, word => (Natural.parseWord32 word).mapError Natural.Fault.message
  | shutdownGrace, word => (Natural.parseWord64 word).mapError Natural.Fault.message

def earlier : Setting → List Setting
  | level => []
  | idleTimeout => [level]
  | maxFileSize => [level, idleTimeout]
  | maxArchiveWindows => [level, idleTimeout, maxFileSize]
  | shutdownGrace => [level, idleTimeout, maxFileSize, maxArchiveWindows]

end Setting

abbrev Values : Type :=
  (setting : Setting) → Option setting.Value

namespace Values

def none : Values := fun _ => .none

def single (setting : Setting) (value : setting.Value) : Values :=
  Function.update none setting (some value)

def only (values : Values) (settings : List Setting) : Values :=
  fun setting => if setting ∈ settings then values setting else .none

def merge (first second : Values) : Values :=
  fun setting => (second setting).or (first setting)

end Values

/-- The configuration with the settings replaced for which there are values. -/
def overlay (config : Config) (values : Values) : Config :=
  { config with
    rootLevel := (values .level).getD config.rootLevel
    localFiles := { config.localFiles with
      maxFileSize := (values .maxFileSize).getD config.localFiles.maxFileSize
      maxArchiveWindows := (values .maxArchiveWindows).getD config.localFiles.maxArchiveWindows }
    router := { config.router with
      idleTimeoutMinutes := (values .idleTimeout).getD config.router.idleTimeoutMinutes }
    lifecycle := { config.lifecycle with
      shutdownGraceSecs := (values .shutdownGrace).getD config.lifecycle.shutdownGraceSecs } }

end Config

namespace Environment

open Config (Setting BadVariable)

def word? (environment : Environment) (setting : Setting) : Option String :=
  ((environment.get? setting.variableName).map Text.trim).filter (· ≠ "")

/-- The variable of a setting can be read, or it is not set. -/
def IsReadable (environment : Environment) (setting : Setting) : Prop :=
  ∀ word, environment.word? setting = some word → ∃ value, setting.read word = .ok value

structure IsFirstBad (environment : Environment) (bad : BadVariable) : Prop where
  word : environment.word? bad.setting = some bad.value
  unread : bad.setting.read bad.value = .error bad.reason
  first : ∀ setting ∈ bad.setting.earlier, environment.IsReadable setting

def values (environment : Environment) : Config.Values :=
  fun setting => (environment.word? setting).bind fun word => (setting.read word).toOption

theorem setting?_eq_word? (environment : Environment) (setting : Setting) :
    environment.setting? setting.variableName = environment.word? setting := by
  rw [setting?, word?]
  cases environment.get? setting.variableName with
  | none => rfl
  | some value =>
      rw [Option.map_some]
      by_cases blank : Text.isBlank value = true
      · have nothing := (Text.trim_eq_empty_iff value).mpr blank
        rw [nothing]
        exact if_pos blank
      · have something := mt (Text.trim_eq_empty_iff value).mp blank
        rw [Option.filter_some, if_pos (decide_eq_true something)]
        exact if_neg blank

end Environment

namespace Config

theorem overlay_none (config : Config) : config.overlay .none = config := rfl

theorem overlay_overlay (config : Config) (first second : Values) :
    (config.overlay first).overlay second = config.overlay (first.merge second) := by
  simp [overlay, Values.merge, Option.getD_or]

theorem Values.merge_self (values : Values) : values.merge values = values :=
  funext fun _ => Option.or_self

theorem assign_eq (setting : Setting) (word : String) (config : Config) :
    setting.assign word config = (setting.read word).map fun value => config.overlay (.single setting value) := by
  cases setting with
  | level => rw [Setting.assign, Setting.read]; cases Level.parse word <;> rfl
  | idleTimeout => rw [Setting.assign, Setting.read]; cases Natural.parseWord64 word <;> rfl
  | maxFileSize => rw [Setting.assign, Setting.read]; cases ByteSize.parse word <;> rfl
  | maxArchiveWindows => rw [Setting.assign, Setting.read]; cases Natural.parseWord32 word <;> rfl
  | shutdownGrace => rw [Setting.assign, Setting.read]; cases Natural.parseWord64 word <;> rfl

theorem earlier_of_settings {setting : Setting} {front back : List Setting} (split : Setting.all = front ++ setting :: back) :
    setting.earlier = front := by
  have distinct : Setting.all.Nodup := by decide
  have order : Setting.all.takeWhile (· ≠ setting) = setting.earlier := by
    cases setting <;> decide
  rw [split] at distinct
  rw [← order, split, takeWhile_ne_of_nodup distinct]

theorem settings_total (one two : Setting) : one = two ∨ one ∈ two.earlier ∨ two ∈ one.earlier := by
  cases one <;> cases two <;> decide

theorem mem_settings (setting : Setting) : setting ∈ Setting.all := by
  cases setting <;> decide

variable {environment : Environment}

section Only

variable {setting : Setting} {front : List Setting}

theorem Values.only_nil (values : Values) : values.only [] = .none := by
  funext setting
  simp [only, none]

theorem Values.only_all (values : Values) : values.only Setting.all = values := by
  funext setting
  exact if_pos (mem_settings setting)

theorem Values.only_of_unset {values : Values} (unset : values setting = .none) :
    values.only (front ++ [setting]) = values.only front := by
  funext other
  by_cases same : other = setting
  · subst same
    simp [only, unset]
  · simp [only, same]

theorem Values.merge_only {values : Values} {value : setting.Value} (set : values setting = some value) :
    (values.only front).merge (.single setting value) = values.only (front ++ [setting]) := by
  funext other
  by_cases same : other = setting
  · subst same
    simp [merge, single, only, set]
  · simp [merge, single, none, only, same]

end Only

theorem overrideSettings_cons_readable {config : Config} {setting : Setting} {front rest : List Setting}
    (readable : environment.IsReadable setting) :
    overrideSettings environment (setting :: rest) (config.overlay (environment.values.only front)) =
      overrideSettings environment rest (config.overlay (environment.values.only (front ++ [setting]))) := by
  rw [overrideSettings, environment.setting?_eq_word?]
  cases said : environment.word? setting with
  | none =>
      have unset : environment.values setting = .none := by simp [Environment.values, said]
      rw [Values.only_of_unset unset]
  | some word =>
      obtain ⟨value, read⟩ := readable word said
      have set : environment.values setting = some value := by simp [Environment.values, said, read, Except.toOption]
      simp only [assign_eq, read, Except.map, overlay_overlay, Values.merge_only set]

theorem overrideSettings_cons_bad {setting : Setting} {word reason : String}
    (said : environment.word? setting = some word) (unread : setting.read word = .error reason) (rest : List Setting)
    (config : Config) :
    overrideSettings environment (setting :: rest) config = (config, .error ⟨setting, word, reason⟩) := by
  rw [overrideSettings, environment.setting?_eq_word?, said]
  simp only [assign_eq, unread, Except.map]

theorem overrideSettings_cases (environment : Environment) (config : Config) (front rest : List Setting) :
    (∀ setting ∈ rest, environment.IsReadable setting) ∧
        overrideSettings environment rest (config.overlay (environment.values.only front)) =
          (config.overlay (environment.values.only (front ++ rest)), .ok ()) ∨
      ∃ before bad after, rest = before ++ BadVariable.setting bad :: after ∧
        (∀ setting ∈ before, environment.IsReadable setting) ∧ environment.word? bad.setting = some bad.value ∧
        bad.setting.read bad.value = .error bad.reason ∧
        overrideSettings environment rest (config.overlay (environment.values.only front)) =
          (config.overlay (environment.values.only (front ++ before)), .error bad) := by
  -- The settings in front have been overridden already, which is why the overlay is part of what is shown.
  induction rest generalizing front with
  | nil => exact .inl ⟨by simp, by rw [overrideSettings, List.append_nil]⟩
  | cons setting rest ih =>
      by_cases readable : environment.IsReadable setting
      · rw [overrideSettings_cons_readable readable]
        obtain ⟨others, done⟩ | ⟨before, bad, after, rfl, others, word, unread, done⟩ := ih (front ++ [setting])
        · exact .inl ⟨List.forall_mem_cons.mpr ⟨readable, others⟩, by simpa using done⟩
        · refine .inr ⟨setting :: before, bad, after, rfl, List.forall_mem_cons.mpr ⟨readable, others⟩, word, unread, ?_⟩
          simpa using done
      · obtain ⟨word, said, unread⟩ : ∃ word, environment.word? setting = some word ∧
            ¬ ∃ value, setting.read word = .ok value := by
          simpa only [Environment.IsReadable, not_forall, exists_prop] using readable
        cases read : setting.read word with
        | ok value => exact absurd ⟨value, read⟩ unread
        | error reason =>
            refine .inr ⟨[], ⟨setting, word, reason⟩, rest, rfl, List.forall_mem_nil _, said, read, ?_⟩
            rw [List.append_nil]
            exact overrideSettings_cons_bad said read rest _

theorem override_cases (environment : Environment) (config : Config) :
    (∀ setting, environment.IsReadable setting) ∧
        config.override environment = (config.overlay environment.values, .ok ()) ∨
      ∃ bad, environment.IsFirstBad bad ∧
        config.override environment = (config.overlay (environment.values.only bad.setting.earlier), .error bad) := by
  have cases := overrideSettings_cases environment config [] Setting.all
  rw [Values.only_nil, overlay_none, List.nil_append, Values.only_all] at cases
  obtain ⟨readable, done⟩ | ⟨before, bad, after, split, readable, word, unread, done⟩ := cases
  · exact .inl ⟨fun setting => readable setting (mem_settings setting), done⟩
  · have earlier := earlier_of_settings split
    rw [List.nil_append, ← earlier] at done
    exact .inr ⟨bad, ⟨word, unread, earlier ▸ readable⟩, done⟩

end Config

namespace Environment.IsFirstBad

open Config (BadVariable)

variable {environment : Environment} {bad one two : BadVariable}

theorem not_isReadable (first : environment.IsFirstBad bad) : ¬ environment.IsReadable bad.setting := by
  intro readable
  obtain ⟨value, read⟩ := readable _ first.word
  exact absurd (first.unread.symm.trans read) (by simp)

theorem unique (first : environment.IsFirstBad one) (second : environment.IsFirstBad two) : one = two := by
  have same : one.setting = two.setting := by
    rcases Config.settings_total one.setting two.setting with same | before | behind
    · exact same
    · exact absurd (second.first _ before) first.not_isReadable
    · exact absurd (first.first _ behind) second.not_isReadable
  obtain ⟨setting, value, reason⟩ := one
  obtain ⟨_, other, cause⟩ := two
  obtain rfl : setting = _ := same
  obtain rfl : value = other := Option.some.inj (first.word.symm.trans second.word)
  obtain rfl : reason = cause := Except.error.inj (first.unread.symm.trans second.unread)
  rfl

end Environment.IsFirstBad

namespace Config

variable {environment : Environment} {config result : Config}

theorem override_eq_ok_iff : config.override environment = (result, .ok ()) ↔
    (∀ setting, environment.IsReadable setting) ∧ result = config.overlay environment.values := by
  obtain ⟨readable, done⟩ | ⟨bad, first, done⟩ := override_cases environment config
  · rw [done, Prod.mk.injEq, eq_comm]
    exact ⟨fun same => ⟨readable, same.1⟩, fun same => ⟨same.2, rfl⟩⟩
  · rw [done]
    exact iff_of_false (by simp) fun all => first.not_isReadable (all.1 bad.setting)

theorem override_eq_error_iff {bad : BadVariable} : config.override environment = (result, .error bad) ↔
    environment.IsFirstBad bad ∧ result = config.overlay (environment.values.only bad.setting.earlier) := by
  obtain ⟨readable, done⟩ | ⟨other, first, done⟩ := override_cases environment config
  · rw [done]
    exact iff_of_false (by simp) fun all => all.1.not_isReadable (readable bad.setting)
  · rw [done, Prod.mk.injEq, Except.error.injEq]
    constructor
    · rintro ⟨rfl, rfl⟩
      exact ⟨first, rfl⟩
    · rintro ⟨again, rfl⟩
      obtain rfl := first.unique again
      exact ⟨rfl, rfl⟩

theorem override_override (environment : Environment) (config : Config) :
    (config.override environment).1.override environment = config.override environment := by
  obtain ⟨readable, done⟩ | ⟨bad, first, done⟩ := override_cases environment config
  · rw [done, override_eq_ok_iff, overlay_overlay, Values.merge_self]
    exact ⟨readable, rfl⟩
  · rw [done, override_eq_error_iff, overlay_overlay, Values.merge_self]
    exact ⟨first, rfl⟩

/-- What loading a configuration comes to. The first stage that fails decides: reading the file, understanding it, laying the
environment over it, or validating the result. -/
inductive Loads (files : FileTree) (path : String) (environment : Environment) : Except LoadFault Config → Prop
  | unreadable {cause : IoFault} {after : FileTree} (read : Files.readText path files = .error cause after) :
      Loads files path environment (.error (.unreadable path cause))
  | malformed {text : String} {after : FileTree} (read : Files.readText path files = .ok text after)
      (unformed : ofDocument? text = none) : Loads files path environment (.error .malformed)
  | badVariable {text : String} {after : FileTree} {config : Config} {bad : BadVariable}
      (read : Files.readText path files = .ok text after) (formed : ofDocument? text = some config)
      (first : environment.IsFirstBad bad) : Loads files path environment (.error (.badVariable bad))
  | invalid {text : String} {after : FileTree} {config : Config} {violations : List Violation}
      (read : Files.readText path files = .ok text after) (formed : ofDocument? text = some config)
      (readable : ∀ setting, environment.IsReadable setting)
      (refused : (config.overlay environment.values).validate = .error violations) :
      Loads files path environment (.error (.invalid violations))
  | loaded {text : String} {after : FileTree} {config : Config}
      (read : Files.readText path files = .ok text after) (formed : ofDocument? text = some config)
      (readable : ∀ setting, environment.IsReadable setting)
      (accepted : (config.overlay environment.values).validate = .ok ()) :
      Loads files path environment (.ok (config.overlay environment.values))

theorem complete_of_readable (readable : ∀ setting, environment.IsReadable setting) (config : Config) :
    config.complete environment =
      ((config.overlay environment.values).validate.mapError .invalid).map fun _ => config.overlay environment.values := by
  simp only [complete, override_eq_ok_iff.mpr ⟨readable, rfl⟩]
  cases (config.overlay environment.values).validate <;> rfl

theorem complete_of_bad {bad : BadVariable} (first : environment.IsFirstBad bad) (config : Config) :
    config.complete environment = .error (.badVariable bad) := by
  rw [complete, override_eq_error_iff.mpr ⟨first, rfl⟩]

theorem loads_load (files : FileTree) (path : String) (environment : Environment) :
    Loads files path environment (load files path environment) := by
  unfold load
  split
  next cause after read => exact .unreadable read
  next text after read =>
    split
    next unformed => exact .malformed read unformed
    next config formed =>
      obtain ⟨readable, -⟩ | ⟨bad, first, -⟩ := override_cases environment config
      · rw [complete_of_readable readable]
        cases checked : (config.overlay environment.values).validate with
        | error violations => exact .invalid read formed readable checked
        | ok => exact .loaded read formed readable checked
      · rw [complete_of_bad first]
        exact .badVariable read formed first

theorem Loads.load_eq {files : FileTree} {path : String} {outcome : Except LoadFault Config}
    (loads : Loads files path environment outcome) : load files path environment = outcome := by
  cases loads with
  | unreadable read => rw [load, read]
  | malformed read unformed => simp only [load, read, unformed]
  | badVariable read formed first => simp only [load, read, formed, complete_of_bad first]
  | invalid read formed readable refused =>
      simp only [load, read, formed, complete_of_readable readable, refused, Except.mapError, Except.map]
  | loaded read formed readable accepted =>
      simp only [load, read, formed, complete_of_readable readable, accepted, Except.mapError, Except.map]

/-- If all variables that are set can be read, then overriding succeeds, and the result is the configuration with their values
laid over it. Otherwise it fails with the first that cannot be read, and the values of those before it are taken. Either way,
doing it again changes nothing. Loading succeeds if the values of the environment, laid over what the file says, make a valid
configuration, and fails with the fault of the first stage that fails. -/
theorem environment_is_laid_over (environment : Environment) :
    (∀ config result : Config, config.override environment = (result, .ok ()) ↔
      (∀ setting, environment.IsReadable setting) ∧ result = config.overlay environment.values) ∧
    (∀ (config result : Config) (bad : BadVariable), config.override environment = (result, .error bad) ↔
      environment.IsFirstBad bad ∧ result = config.overlay (environment.values.only bad.setting.earlier)) ∧
    (∀ config : Config, (config.override environment).1.override environment = config.override environment) ∧
    ∀ files path outcome, load files path environment = outcome ↔ Loads files path environment outcome :=
  ⟨fun _ _ => override_eq_ok_iff, fun _ _ _ => override_eq_error_iff, override_override environment,
    fun files path _ => ⟨fun same => same ▸ loads_load files path environment, Loads.load_eq⟩⟩

end Config

end KeyedLog
