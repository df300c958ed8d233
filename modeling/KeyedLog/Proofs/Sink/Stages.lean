import KeyedLog.Proofs.Files.Opening
import KeyedLog.Sink.Rotating

/-!
A write of a sink whose file rotates, as a list of steps. Each of them is one operation on files, or one change of the
sink. A write that fails breaks off in one of its steps: the steps before it were taken, those behind it were not.
-/

namespace KeyedLog

namespace RotatingSink

def perform : List (Action Unit) → Action Unit
  | [] => pure ()
  | step :: rest => step >>= fun _ => perform rest

def shifting (base : String) : (count : Nat) → List (Action Unit)
  | 0 => []
  | count + 1 => onFiles (Rotation.shiftSlot base (count + 1)) :: shifting base count

def promotion (base : String) : Action Unit :=
  onFiles ((Files.rename (Archive.stagingPath base) (Archive.slotPath base 1)).at (Archive.stagingPath base))

def archiving (base : String) (maxArchives : Nat) : List (Action Unit) :=
  if maxArchives > 0 then
    let last := Archive.slotPath base maxArchives
    [onFiles (Rotation.stage base), onFiles ((Files.removeIfExists last).at last)] ++
      (shifting base (maxArchives - 1) ++ [promotion base])
  else []

def reopening (base : String) : Action Unit := do
  let (handle, _) ← onFiles (Files.touch base)
  update ({ · with handle := some handle, size := 0 })

def renewal (base : String) : List (Action Unit) :=
  [update ({ · with handle := none }), onFiles ((Files.removeIfExists base).at base), reopening base]

def resumption : Action Unit := do
  let _ ← currentHandle
  return ()

def entry (base : String) (bytes : Bytes) : Action Unit := do
  let handle ← currentHandle
  onFiles ((Files.append handle bytes).at base)
  update fun sink => { sink with size := sink.size + bytes.length }

/-- The steps of a rotation up to the one that gives something up: the last archive, or the file itself if no archives are
kept. -/
def onset (base : String) (maxArchives : Nat) : List (Action Unit) :=
  if maxArchives > 0 then
    let last := Archive.slotPath base maxArchives
    [onFiles (Rotation.stage base), onFiles ((Files.removeIfExists last).at last)]
  else [update ({ · with handle := none }), onFiles ((Files.removeIfExists base).at base)]

def completion (base : String) (maxArchives : Nat) : List (Action Unit) :=
  if maxArchives > 0 then shifting base (maxArchives - 1) ++ [promotion base] ++ renewal base
  else [reopening base]

def steps (sink : RotatingSink) (event : Event) : List (Action Unit) :=
  (if sink.mustRotate (sink.encode event).length then
    onset sink.path sink.policy.maxArchives ++ completion sink.path sink.policy.maxArchives
  else []) ++ [resumption, entry sink.path (sink.encode event)]

def succeeds (action : Action Unit) (state : RotatingSink × FileTree) : Bool :=
  (action.run' state).isSome

theorem succeeds_of_ok {action : Action Unit} {state final : RotatingSink × FileTree} (done : action state = .ok () final) :
    succeeds action state = true := by
  delta succeeds EStateM.run' EStateM.run
  rw [done]
  rfl

theorem succeeds_of_error {action : Action Unit} {fault : SinkFault} {state final : RotatingSink × FileTree}
    (failed : action state = .error fault final) : succeeds action state = false := by
  delta succeeds EStateM.run' EStateM.run
  rw [failed]
  rfl

theorem ok_of_succeeds {action : Action Unit} {state : RotatingSink × FileTree} (done : succeeds action state = true) :
    action state = .ok () (stateAfter action state) := by
  cases result : action state with
  | ok value final => exact congrArg _ (stateAfter_of_ok result).symm
  | error fault final => cases (succeeds_of_error result).symm.trans done

def evicts (sink : RotatingSink) (event : Event) (files : FileTree) : Bool :=
  sink.mustRotate (sink.encode event).length &&
    succeeds (perform (onset sink.path sink.policy.maxArchives)) (sink, files)

def evictsWithin (sink : RotatingSink) (event : Event) (count : Nat) : Bool :=
  sink.mustRotate (sink.encode event).length && (onset sink.path sink.policy.maxArchives).length ≤ count

theorem perform_append (first second : List (Action Unit)) :
    perform (first ++ second) = perform first >>= fun _ => perform second := by
  induction first with
  | nil => rfl
  | cons step rest ih =>
      rw [List.cons_append, perform, perform, bind_assoc, ih]

theorem perform_singleton (step : Action Unit) : perform [step] = step :=
  bind_pure_unit

theorem onFiles_of_ok {α : Type} {action : SinkFileAction α} {value : α} {before after : FileTree}
    (done : action before = .ok value after) (sink : RotatingSink) :
    onFiles action (sink, before) = .ok value (sink, after) := by
  rw [onFiles, done]

theorem onFiles_of_error {α : Type} {action : SinkFileAction α} {fault : SinkFault} {before after : FileTree}
    (failed : action before = .error fault after) (sink : RotatingSink) :
    onFiles action (sink, before) = .error fault (sink, after) := by
  rw [onFiles, failed]

theorem onFiles_bind {α β : Type} (first : SinkFileAction α) (next : α → SinkFileAction β) :
    onFiles (first >>= next) = onFiles first >>= fun value => onFiles (next value) := by
  funext ⟨sink, files⟩
  cases done : first files with
  | ok value after => rw [bind_of_ok (onFiles_of_ok done sink), onFiles, onFiles, bind_of_ok done]
  | error fault after => rw [bind_of_error (onFiles_of_error done sink), onFiles, bind_of_error done]

theorem onFiles_shiftSlots (base : String) (count : Nat) :
    onFiles (Rotation.shiftSlots base count) = perform (shifting base count) := by
  induction count with
  | zero => rfl
  | succ count ih =>
      rw [Rotation.shiftSlots, onFiles_bind, shifting, perform, ih]

theorem onFiles_archive (base : String) (maxArchives : Nat) :
    onFiles (Rotation.archive base maxArchives) = perform (archiving base maxArchives) := by
  unfold Rotation.archive archiving
  split
  · rw [onFiles_bind, perform_append, perform_append, perform_singleton]
    rw [perform, perform_singleton, bind_assoc]
    simp only [onFiles_bind, onFiles_shiftSlots]
    rfl
  · rfl

section CurrentHandle

variable {sink : RotatingSink} {files after : FileTree}

theorem currentHandle_of_some {held : FileHandle} (handle : sink.handle = some held) (files : FileTree) :
    currentHandle (sink, files) = .ok held (sink, files) := by
  unfold currentHandle
  rw [bind_get]
  simp only [handle]
  rfl

theorem currentHandle_of_touched {opened : FileHandle × Nat} (handle : sink.handle = none)
    (touched : Files.touch sink.path files = .ok opened after) :
    currentHandle (sink, files) = .ok opened.1 ({ sink with handle := some opened.1, size := opened.2 }, after) := by
  unfold currentHandle
  rw [bind_get]
  simp only [handle]
  rw [bind_of_ok (onFiles_of_ok touched sink)]
  rfl

theorem currentHandle_of_error {fault : SinkFault} (handle : sink.handle = none)
    (failed : Files.touch sink.path files = .error fault after) :
    currentHandle (sink, files) = .error fault (sink, after) := by
  unfold currentHandle
  rw [bind_get]
  simp only [handle]
  exact bind_of_error (onFiles_of_error failed sink)

theorem currentHandle_again {α : Type} (next : FileHandle → Action α) :
    (resumption >>= fun _ => currentHandle >>= next) = currentHandle >>= next := by
  have resumed {state after : RotatingSink × FileTree} {handle : FileHandle}
      (open' : currentHandle state = .ok handle after) : resumption state = .ok () after := bind_of_ok open'
  funext ⟨sink, files⟩
  cases handle : sink.handle with
  | some held => rw [bind_of_ok (resumed (currentHandle_of_some handle files))]
  | none =>
      cases touched : Files.touch sink.path files with
      | error fault after =>
          have failed := currentHandle_of_error handle touched
          have broken : resumption (sink, files) = .error fault (sink, after) := bind_of_error failed
          rw [bind_of_error broken, bind_of_error failed]
      | ok opened after =>
          have done := currentHandle_of_touched handle touched
          rw [bind_of_ok (resumed done), bind_of_ok done, bind_of_ok (currentHandle_of_some rfl after)]

end CurrentHandle

theorem bind_congr_at {α β : Type} {first second : Action α} {state : RotatingSink × FileTree}
    (same : first state = second state) (next : α → Action β) : (first >>= next) state = (second >>= next) state := by
  cases result : second state with
  | ok value after => rw [bind_of_ok (same.trans result), bind_of_ok result]
  | error fault after => rw [bind_of_error (same.trans result), bind_of_error result]

theorem archiving_append_renewal (base : String) (maxArchives : Nat) :
    archiving base maxArchives ++ renewal base = onset base maxArchives ++ completion base maxArchives := by
  unfold archiving onset completion
  split
  · simp only [List.append_assoc]
  · rfl

theorem rotate_eq_perform (sink : RotatingSink) (files : FileTree) :
    rotate (sink, files) = perform (onset sink.path sink.policy.maxArchives ++
      completion sink.path sink.policy.maxArchives) (sink, files) := by
  unfold rotate
  rw [bind_get, ← archiving_append_renewal]
  dsimp only
  rw [onFiles_archive, perform_append, renewal, perform, perform, perform_singleton]
  rfl

theorem write_eq_perform {sink : RotatingSink} (running : sink.stopped = false) (event : Event) (files : FileTree) :
    write event (sink, files) = perform (sink.steps event) (sink, files) := by
  unfold write steps
  rw [bind_get]
  dsimp only
  rw [running]
  have entered : (currentHandle >>= fun handle => do
      onFiles ((Files.append handle (sink.encode event)).at sink.path)
      update fun other => { other with size := other.size + (sink.encode event).length }) =
      perform [resumption, entry sink.path (sink.encode event)] := by
    rw [perform, perform_singleton, entry, currentHandle_again]
  cases sink.mustRotate (sink.encode event).length with
  | true =>
      simp only [if_true]
      rw [perform_append, ← entered]
      exact bind_congr_at (rotate_eq_perform sink files) _
  | false =>
      simp only [Bool.false_eq_true, if_false, List.nil_append]
      rw [← entered]

variable {harmless : FileTree → FileTree → Prop} {weak strong before between after : RotatingSink × FileTree → Prop}
  {first second : List (Action Unit)} {state final : RotatingSink × FileTree}

/-- So many steps succeed, and the next one breaks off. What it leaves behind is harmless. -/
def Breaks (harmless : FileTree → FileTree → Prop) (steps : List (Action Unit)) (count : Nat)
    (state final : RotatingSink × FileTree) : Prop :=
  count < steps.length ∧ ∃ files, perform (steps.take count) state = .ok () (final.1, files) ∧ harmless files final.2

/-- The steps lead from `before` to `after`, and wherever they end too soon, `weak` holds still. -/
def Secures (harmless : FileTree → FileTree → Prop) (weak before : RotatingSink × FileTree → Prop)
    (steps : List (Action Unit)) (after : RotatingSink × FileTree → Prop) : Prop :=
  ∀ state, before state →
    (∀ final, perform steps state = .ok () final → after final) ∧
    (∀ fault final, perform steps state = .error fault final → weak final) ∧
    ∀ count final, Breaks harmless steps count state final → weak final

theorem Secures.nil (implies : ∀ state, before state → after state) : Secures harmless weak before [] after := by
  intro state holds
  refine ⟨fun final done => ?_, fun fault final failed => ?_, fun count final breaks => ?_⟩
  · cases done
    exact implies state holds
  · cases failed
  · exact absurd breaks.1 (Nat.not_lt_zero _)

theorem Secures.step {step : Action Unit} (stable : ∀ sink before after, weak (sink, before) → harmless before after →
      weak (sink, after))
    (weakens : ∀ state, before state → weak state)
    (succeeds : ∀ state final, before state → step state = .ok () final → after final)
    (fails : ∀ state fault final, before state → step state = .error fault final →
      final.1 = state.1 ∧ harmless state.2 final.2) : Secures harmless weak before [step] after := by
  intro state holds
  rw [perform_singleton]
  refine ⟨fun final done => succeeds state final holds done, fun fault final failed => ?_, fun count final breaks => ?_⟩
  · obtain ⟨same, left⟩ := fails state fault final holds failed
    obtain ⟨sink, files⟩ := final
    obtain rfl : sink = state.1 := same
    exact stable state.1 state.2 files (weakens state holds) left
  · obtain ⟨more, files, done, left⟩ := breaks
    obtain rfl : count = 0 := Nat.lt_one_iff.mp more
    cases done
    exact stable final.1 files final.2 (weakens _ holds) left

theorem perform_cases (first second : List (Action Unit)) (state : RotatingSink × FileTree) :
    (∃ middle, perform first state = .ok () middle ∧ perform (first ++ second) state = perform second middle) ∨
      ∃ fault final, perform first state = .error fault final ∧ perform (first ++ second) state = .error fault final := by
  rw [perform_append]
  cases performed : perform first state with
  | ok value middle => exact .inl ⟨middle, rfl, bind_of_ok performed⟩
  | error fault final => exact .inr ⟨fault, final, rfl, bind_of_error performed⟩

theorem Breaks.of_append {count : Nat} (breaks : Breaks harmless (first ++ second) count state final) :
    count < first.length ∧ Breaks harmless first count state final ∨ first.length ≤ count ∧
      ∃ middle, perform first state = .ok () middle ∧ Breaks harmless second (count - first.length) middle final := by
  obtain ⟨more, files, done, left⟩ := breaks
  rcases Nat.lt_or_ge count first.length with inside | beyond
  · rw [List.take_append_of_le_length (Nat.le_of_lt inside)] at done
    exact .inl ⟨inside, inside, files, done, left⟩
  · rw [List.take_append, List.take_of_length_le beyond] at done
    rw [List.length_append] at more
    rcases perform_cases first (second.take (count - first.length)) state with ⟨middle, one, same⟩ | ⟨fault, last, -, failed⟩
    · exact .inr ⟨beyond, middle, one, by omega, files, same.symm.trans done, left⟩
    · cases failed.symm.trans done

theorem Secures.split (one : Secures harmless weak before first between)
    (two : Secures harmless strong between second after) (holds : before state) :
    (∀ final, perform (first ++ second) state = .ok () final → succeeds (perform first) state = true ∧ after final) ∧
    (∀ fault final, perform (first ++ second) state = .error fault final →
      if succeeds (perform first) state then strong final else weak final) ∧
    ∀ count final, Breaks harmless (first ++ second) count state final →
      if first.length ≤ count then strong final else weak final := by
  obtain ⟨reaches, fails, broken⟩ := one state holds
  refine ⟨fun final done => ?_, fun fault final failed => ?_, fun count final breaks => ?_⟩
  · rcases perform_cases first second state with ⟨middle, performed, same⟩ | ⟨fault, last, -, same⟩
    · exact ⟨succeeds_of_ok performed, (two middle (reaches middle performed)).1 final (same.symm.trans done)⟩
    · cases same.symm.trans done
  · rcases perform_cases first second state with ⟨middle, performed, same⟩ | ⟨cause, last, performed, same⟩
    · rw [if_pos (succeeds_of_ok performed)]
      exact (two middle (reaches middle performed)).2.1 fault final (same.symm.trans failed)
    · rw [if_neg (Bool.eq_false_iff.mp (succeeds_of_error performed))]
      cases same.symm.trans failed
      exact fails _ _ performed
  · rcases breaks.of_append with ⟨inside, breaks⟩ | ⟨beyond, middle, performed, breaks⟩
    · rw [if_neg (Nat.not_le_of_lt inside)]
      exact broken count final breaks
    · rw [if_pos beyond]
      exact (two middle (reaches middle performed)).2.2 _ final breaks

theorem Secures.append (one : Secures harmless weak before first between)
    (two : Secures harmless weak between second after) : Secures harmless weak before (first ++ second) after := by
  intro state holds
  obtain ⟨reaches, fails, broken⟩ := one.split two holds
  simp only [ite_self] at fails broken
  exact ⟨fun final done => (reaches final done).2, fails, broken⟩

end RotatingSink

end KeyedLog
