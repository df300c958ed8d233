import KeyedLog.Config.Validation
import KeyedLog.Proofs.Text

/-!
What validation finds. The rules do not depend on each other: every rule that a configuration breaks is reported, once and in the
place of its field, and nothing else is.
-/

namespace KeyedLog

def Destination.earlier (destination : Destination) : List Destination :=
  all.takeWhile (· ≠ destination)

namespace Config

def Breaks (config : Config) : Violation → Prop
  | .idleTimeout => config.router.idleTimeoutMinutes = 0
  | .reapInterval => config.router.reapIntervalSecs = some 0
  | .maxFileSize => config.localFiles.maxFileSize.bytes = 0
  | .maxArchiveWindows => 20 < config.localFiles.maxArchiveWindows
  | .fileName => Text.trim config.localFiles.fileName = "" ∨ '/' ∈ config.localFiles.fileName.toList ∨
      '\\' ∈ config.localFiles.fileName.toList
  | .blankRoute destination => Text.trim (config.routes.key destination) = ""
  | .sharedRoute destination key => key = config.routes.key destination ∧ Text.trim key ≠ "" ∧
      ∃ other ∈ destination.earlier, config.routes.key other = key
  | .flushInterval => config.remote.flushIntervalSecs = 0
  | .maxConcurrentFlushes => config.remote.maxConcurrentFlushes = 0
  | .maxAttempts => config.remote.retry.maxAttempts = 0
  | .delayOrder => config.remote.retry.maxDelayMs < config.remote.retry.baseDelayMs
  | .shutdownGrace => config.lifecycle.shutdownGraceSecs = 0
  | .storageRoot => config.remote.enabled = true ∧ Text.trim config.storage.rootDir = ""

structure IsValid (config : Config) : Prop where
  idleTimeout : 0 < config.router.idleTimeoutMinutes
  reapInterval : ∀ seconds, config.router.reapIntervalSecs = some seconds → 0 < seconds
  maxFileSize : 0 < config.localFiles.maxFileSize.bytes
  maxArchiveWindows : config.localFiles.maxArchiveWindows ≤ 20
  fileName : Text.trim config.localFiles.fileName ≠ ""
  plain : '/' ∉ config.localFiles.fileName.toList ∧ '\\' ∉ config.localFiles.fileName.toList
  routes : ∀ destination, Text.trim (config.routes.key destination) ≠ ""
  distinct : ∀ one two, config.routes.key one = config.routes.key two → one = two
  flushInterval : 0 < config.remote.flushIntervalSecs
  maxConcurrentFlushes : 0 < config.remote.maxConcurrentFlushes
  maxAttempts : 0 < config.remote.retry.maxAttempts
  delayOrder : config.remote.retry.baseDelayMs ≤ config.remote.retry.maxDelayMs
  shutdownGrace : 0 < config.lifecycle.shutdownGraceSecs
  storageRoot : config.remote.enabled = true → Text.trim config.storage.rootDir ≠ ""

def fieldOrder : List String :=
  ["router.idle_timeout_minutes", "router.reap_interval_secs", "local.max_file_size", "local.max_archive_windows",
    "local.file_name", "routes.local_application", "routes.local_job", "routes.cloud_application", "routes.cloud_job",
    "remote.flush_interval_secs", "remote.max_concurrent_flushes", "remote.retry.max_attempts",
    "remote.retry.base_delay_ms", "lifecycle.shutdown_grace_secs", "storage.root_dir"]

theorem mem_broken {violation rule : Violation} {holds : Bool} :
    violation ∈ broken rule holds ↔ violation = rule ∧ holds = false := by
  cases holds <;> simp [broken]

theorem fields_broken (rule : Violation) (holds : Bool) : ((broken rule holds).map Violation.field).Sublist [rule.field] := by
  cases holds <;> simp [broken]

theorem isPlainFileName_eq_false {name : String} :
    isPlainFileName name = false ↔ Text.trim name = "" ∨ '/' ∈ name.toList ∨ '\\' ∈ name.toList := by
  rw [Text.trim_eq_empty_iff]
  simp only [isPlainFileName, Bool.and_eq_false_iff, Bool.not_eq_false', List.any_eq_true, Bool.or_eq_true, beq_iff_eq]
  refine or_congr_right ⟨?_, ?_⟩
  · rintro ⟨c, member, rfl | rfl⟩
    · exact .inl member
    · exact .inr member
  · rintro (slash | backslash)
    · exact ⟨_, slash, .inl rfl⟩
    · exact ⟨_, backslash, .inr rfl⟩

section Routes

variable {routes : Routes} {earlier : List String} {violation : Violation}

theorem mem_routeViolation {destination : Destination} {key : String} :
    violation ∈ routeViolation earlier destination key ↔
      violation = .blankRoute destination ∧ Text.trim key = "" ∨
        violation = .sharedRoute destination key ∧ Text.trim key ≠ "" ∧ key ∈ earlier := by
  rw [routeViolation, ne_eq, Text.trim_eq_empty_iff]
  split
  next blank => simp [blank]
  next busy => split <;> simp_all

theorem fields_routeViolation (destination : Destination) (key : String) :
    ((routeViolation earlier destination key).map Violation.field).Sublist ["routes." ++ destination.field] := by
  unfold routeViolation
  split
  · exact List.Sublist.refl _
  · split
    · exact List.Sublist.refl _
    · exact List.nil_sublist _

/-- The keys that are compared with are those of the destinations in front, but for the blank ones. -/
theorem mem_routeViolations {destinations : List Destination} :
    violation ∈ routeViolations routes earlier destinations ↔
      ∃ front destination back, destinations = front ++ destination :: back ∧
        (violation = .blankRoute destination ∧ Text.trim (routes.key destination) = "" ∨
          violation = .sharedRoute destination (routes.key destination) ∧ Text.trim (routes.key destination) ≠ "" ∧
            (routes.key destination ∈ earlier ∨ ∃ other ∈ front, routes.key other = routes.key destination)) := by
  induction destinations generalizing earlier with
  | nil => simp [routeViolations]
  | cons first rest ih =>
      rw [routeViolations, List.mem_append, mem_routeViolation, ih]
      -- Blank keys are not compared with, but a key that is not blank equals none of them.
      have known : ∀ key, Text.trim key ≠ "" →
          (key ∈ (if Text.isBlank (routes.key first) then earlier else routes.key first :: earlier) ↔
            key ∈ earlier ∨ routes.key first = key) := by
        intro key busy
        rw [ne_eq, Text.trim_eq_empty_iff] at busy
        split
        next blank =>
          refine ⟨.inl, fun found => found.elim id fun same => absurd (same ▸ blank) busy⟩
        next => rw [List.mem_cons, or_comm, eq_comm]
      constructor
      · rintro (here | ⟨front, destination, back, rfl, found⟩)
        · refine ⟨[], first, rest, rfl, here.imp_right fun ⟨shared, busy, member⟩ => ⟨shared, busy, .inl member⟩⟩
        · refine ⟨first :: front, destination, back, rfl, found.imp_right ?_⟩
          rintro ⟨shared, busy, member | ⟨other, inside, same⟩⟩
          · refine ⟨shared, busy, ((known _ busy).mp member).imp_right fun same => ⟨first, List.mem_cons_self, same⟩⟩
          · exact ⟨shared, busy, .inr ⟨other, List.mem_cons_of_mem _ inside, same⟩⟩
      · rintro ⟨front, destination, back, split, found⟩
        cases front with
        | nil =>
            obtain ⟨rfl, rfl⟩ := List.cons.inj split
            exact .inl (found.imp_right fun ⟨shared, busy, member⟩ => ⟨shared, busy, by simpa using member⟩)
        | cons other front =>
            obtain ⟨rfl, rfl⟩ := List.cons.inj split
            refine .inr ⟨front, destination, back, rfl, found.imp_right ?_⟩
            rintro ⟨shared, busy, member | ⟨same, inside, equal⟩⟩
            · exact ⟨shared, busy, .inl ((known _ busy).mpr (.inl member))⟩
            · rcases List.mem_cons.mp inside with rfl | later
              · exact ⟨shared, busy, .inl ((known _ busy).mpr (.inr equal))⟩
              · exact ⟨shared, busy, .inr ⟨same, later, equal⟩⟩

theorem fields_routeViolations (routes : Routes) (earlier : List String) (destinations : List Destination) :
    ((routeViolations routes earlier destinations).map Violation.field).Sublist
      (destinations.map fun destination => "routes." ++ destination.field) := by
  induction destinations generalizing earlier with
  | nil => exact List.Sublist.refl _
  | cons first rest ih =>
      rw [routeViolations, List.map_append, List.map_cons]
      exact (fields_routeViolation first _).append (ih _)

end Routes

variable {config : Config} {violation : Violation}

theorem takeWhile_ne_of_nodup {α : Type} [DecidableEq α] {front back : List α} {entry : α}
    (distinct : (front ++ entry :: back).Nodup) : (front ++ entry :: back).takeWhile (· ≠ entry) = front := by
  have apart : ∀ other ∈ front, decide (other ≠ entry) = true := by
    intro other member
    rw [decide_eq_true_eq]
    rintro rfl
    exact (List.nodup_append.mp distinct).2.2 _ member _ List.mem_cons_self rfl
  rw [List.takeWhile_append_of_pos apart, List.takeWhile_cons_of_neg (by simp), List.append_nil]

theorem earlier_of_all {front back : List Destination} {destination : Destination}
    (split : Destination.all = front ++ destination :: back) : destination.earlier = front := by
  have distinct : Destination.all.Nodup := by decide
  rw [split] at distinct
  rw [Destination.earlier, split, takeWhile_ne_of_nodup distinct]

theorem mem_routeViolations_all {routes : Routes} :
    violation ∈ routeViolations routes [] Destination.all ↔
      ∃ destination, violation = .blankRoute destination ∧ Text.trim (routes.key destination) = "" ∨
        violation = .sharedRoute destination (routes.key destination) ∧ Text.trim (routes.key destination) ≠ "" ∧
          ∃ other ∈ destination.earlier, routes.key other = routes.key destination := by
  rw [mem_routeViolations]
  constructor
  · rintro ⟨front, destination, back, split, found⟩
    rw [← earlier_of_all split] at found
    exact ⟨destination, by simpa using found⟩
  · rintro ⟨destination, found⟩
    obtain ⟨front, back, split⟩ := List.append_of_mem (by cases destination <;> decide : destination ∈ Destination.all)
    rw [earlier_of_all split] at found
    exact ⟨front, destination, back, split, by simpa using found⟩

theorem mem_violations : violation ∈ config.violations ↔ config.Breaks violation := by
  simp only [violations, List.mem_append, mem_broken, mem_routeViolations_all]
  cases violation with
  | maxArchiveWindows =>
      show _ ↔ maxArchiveWindows < config.localFiles.maxArchiveWindows
      simp
  | fileName => simp [Breaks, isPlainFileName_eq_false]
  | sharedRoute destination key =>
      simp only [Breaks, reduceCtorEq, Violation.sharedRoute.injEq, false_and, false_or, or_false]
      constructor
      · rintro ⟨_, ⟨rfl, rfl⟩, busy, shared⟩
        exact ⟨rfl, busy, shared⟩
      · rintro ⟨rfl, busy, shared⟩
        exact ⟨destination, ⟨rfl, rfl⟩, busy, shared⟩
  | _ => simp [Breaks, Text.trim_eq_empty_iff]

theorem fieldOrder_eq : fieldOrder =
    [Violation.idleTimeout.field] ++ [Violation.reapInterval.field] ++ [Violation.maxFileSize.field] ++
      [Violation.maxArchiveWindows.field] ++ [Violation.fileName.field] ++
      (Destination.all.map fun destination => "routes." ++ destination.field) ++ [Violation.flushInterval.field] ++
      [Violation.maxConcurrentFlushes.field] ++ [Violation.maxAttempts.field] ++ [Violation.delayOrder.field] ++
      [Violation.shutdownGrace.field] ++ [Violation.storageRoot.field] := by
  decide

theorem fields_violations (config : Config) : (config.violations.map Violation.field).Sublist fieldOrder := by
  rw [fieldOrder_eq]
  simp only [violations, List.map_append]
  repeat' apply List.Sublist.append
  any_goals exact fields_broken _ _
  exact fields_routeViolations _ _ _

theorem nodup_fieldOrder : fieldOrder.Nodup := by
  decide

theorem earlier_total (one two : Destination) : one = two ∨ one ∈ two.earlier ∨ two ∈ one.earlier := by
  cases one <;> cases two <;> decide

theorem isValid_iff : config.IsValid ↔ ∀ violation, ¬ config.Breaks violation := by
  constructor
  · intro valid violation broken
    cases violation with
    | idleTimeout => exact absurd broken (UInt64.pos_iff_ne_zero.mp valid.idleTimeout)
    | reapInterval => exact absurd (valid.reapInterval 0 broken) (by decide)
    | maxFileSize => exact absurd broken (UInt64.pos_iff_ne_zero.mp valid.maxFileSize)
    | maxArchiveWindows => exact absurd broken (UInt32.not_lt.mpr valid.maxArchiveWindows)
    | fileName =>
        rcases broken with nothing | slash | backslash
        · exact valid.fileName nothing
        · exact valid.plain.1 slash
        · exact valid.plain.2 backslash
    | blankRoute destination => exact valid.routes destination broken
    | sharedRoute destination key =>
        obtain ⟨rfl, -, other, earlier, same⟩ := broken
        obtain rfl := valid.distinct other destination same
        exact absurd earlier (by cases other <;> decide)
    | flushInterval => exact absurd broken (UInt64.pos_iff_ne_zero.mp valid.flushInterval)
    | maxConcurrentFlushes => exact absurd broken (UInt64.pos_iff_ne_zero.mp valid.maxConcurrentFlushes)
    | maxAttempts => exact absurd broken (UInt32.pos_iff_ne_zero.mp valid.maxAttempts)
    | delayOrder => exact absurd broken (UInt64.not_lt.mpr valid.delayOrder)
    | shutdownGrace => exact absurd broken (UInt64.pos_iff_ne_zero.mp valid.shutdownGrace)
    | storageRoot => exact valid.storageRoot broken.1 broken.2
  · intro kept
    have distinct : ∀ one two, config.routes.key one = config.routes.key two → one ∉ two.earlier := fun one two same earlier =>
      kept (.sharedRoute two _) ⟨rfl, kept (.blankRoute two), one, earlier, same⟩
    exact {
      idleTimeout := UInt64.pos_iff_ne_zero.mpr (kept .idleTimeout)
      reapInterval := by
        intro seconds given
        refine UInt64.pos_iff_ne_zero.mpr ?_
        rintro rfl
        exact kept .reapInterval given
      maxFileSize := UInt64.pos_iff_ne_zero.mpr (kept .maxFileSize)
      maxArchiveWindows := UInt32.not_lt.mp (kept .maxArchiveWindows)
      fileName := fun nothing => kept .fileName (.inl nothing)
      plain := ⟨fun slash => kept .fileName (.inr (.inl slash)), fun backslash => kept .fileName (.inr (.inr backslash))⟩
      routes := fun destination => kept (.blankRoute destination)
      distinct := fun one two same => (earlier_total one two).resolve_right
        (not_or.mpr ⟨distinct one two same, distinct two one same.symm⟩)
      flushInterval := UInt64.pos_iff_ne_zero.mpr (kept .flushInterval)
      maxConcurrentFlushes := UInt64.pos_iff_ne_zero.mpr (kept .maxConcurrentFlushes)
      maxAttempts := UInt32.pos_iff_ne_zero.mpr (kept .maxAttempts)
      delayOrder := UInt64.not_lt.mp (kept .delayOrder)
      shutdownGrace := UInt64.pos_iff_ne_zero.mpr (kept .shutdownGrace)
      storageRoot := fun enabled nothing => kept .storageRoot ⟨enabled, nothing⟩ }

theorem isValid_iff_violations : config.IsValid ↔ config.violations = [] := by
  simp only [isValid_iff, List.eq_nil_iff_forall_not_mem, mem_violations]

theorem validate_eq (config : Config) :
    config.IsValid ∧ config.validate = .ok () ∨ ¬ config.IsValid ∧ config.validate = .error config.violations := by
  rw [isValid_iff_violations, validate]
  split
  next none => exact .inl ⟨List.isEmpty_iff.mp none, rfl⟩
  next some => exact .inr ⟨mt List.isEmpty_iff.mpr some, rfl⟩

theorem validate_eq_ok_iff : config.validate = .ok () ↔ config.IsValid := by
  rcases config.validate_eq with ⟨valid, accepted⟩ | ⟨invalid, refused⟩
  · exact iff_of_true accepted valid
  · exact iff_of_false (by simp [refused]) invalid

theorem field_injective {one two : Destination} (same : "routes." ++ one.field = "routes." ++ two.field) : one = two := by
  revert same
  cases one <;> cases two <;> decide

theorem field_eq_route_iff {destination : Destination} :
    violation.field = "routes." ++ destination.field ↔
      violation = .blankRoute destination ∨ ∃ key, violation = .sharedRoute destination key := by
  constructor
  · intro same
    cases violation with
    | blankRoute other => exact .inl (by rw [field_injective same])
    | sharedRoute other key => exact .inr ⟨key, by rw [field_injective same]⟩
    | _ =>
        exfalso
        revert same
        cases destination <;> decide
  · rintro (rfl | ⟨key, rfl⟩) <;> rfl

theorem route_mem_fields {destination : Destination} :
    "routes." ++ destination.field ∈ config.violations.map Violation.field ↔
      Text.trim (config.routes.key destination) = "" ∨
        ∃ other ∈ destination.earlier, Text.trim (config.routes.key other) ≠ "" ∧
          config.routes.key other = config.routes.key destination := by
  simp only [List.mem_map, mem_violations, field_eq_route_iff]
  constructor
  · rintro ⟨_, broken, rfl | ⟨key, rfl⟩⟩
    · exact .inl broken
    · obtain ⟨rfl, busy, other, earlier, same⟩ := broken
      exact .inr ⟨other, earlier, same ▸ busy, same⟩
  · rintro (blank | ⟨other, earlier, busy, same⟩)
    · exact ⟨.blankRoute destination, blank, .inl rfl⟩
    · exact ⟨.sharedRoute destination (config.routes.key destination), ⟨rfl, same ▸ busy, other, earlier, same⟩,
        .inr ⟨_, rfl⟩⟩

/-- Validation accepts a configuration exactly if it keeps all rules. Otherwise it reports every rule that is broken and no other,
the fields in one order for all configurations and none of them twice. A route is reported exactly if it is blank or is that of
an earlier destination and not blank, and then for one reason only. -/
theorem validation_is_precise (config : Config) :
    (config.validate = .ok () ↔ config.IsValid) ∧
    (¬ config.IsValid → ∃ errors, config.validate = .error errors ∧
      (∀ violation, violation ∈ errors ↔ config.Breaks violation) ∧
      (errors.map Violation.field).Sublist fieldOrder ∧ (errors.map Violation.field).Nodup ∧
      ∀ destination,
        ("routes." ++ destination.field ∈ errors.map Violation.field ↔
          Text.trim (config.routes.key destination) = "" ∨
            ∃ other ∈ destination.earlier, Text.trim (config.routes.key other) ≠ "" ∧
              config.routes.key other = config.routes.key destination) ∧
        ∀ key, ¬ (.blankRoute destination ∈ errors ∧ .sharedRoute destination key ∈ errors)) := by
  refine ⟨validate_eq_ok_iff, fun invalid => ?_⟩
  obtain ⟨valid, -⟩ | ⟨-, refused⟩ := config.validate_eq
  · exact absurd valid invalid
  refine ⟨config.violations, refused, fun _ => mem_violations, fields_violations config,
    (fields_violations config).nodup nodup_fieldOrder, fun destination => ⟨route_mem_fields, ?_⟩⟩
  rintro key ⟨blank, shared⟩
  obtain ⟨rfl, busy, -⟩ := mem_violations.mp shared
  exact busy (mem_violations.mp blank)

end Config

end KeyedLog
