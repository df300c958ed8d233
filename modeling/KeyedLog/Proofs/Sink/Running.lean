import KeyedLog.Proofs.Remote.Ledger
import KeyedLog.Proofs.Sink.Edits
import KeyedLog.Router

/-!
Which sinks are running. A sink that was just made runs until it is stopped, writing to it neither stops nor starts
anything, and as long as it runs it never answers that it was stopped.
-/

namespace KeyedLog

def SinkFault.IsIo : SinkFault → Prop
  | io .. => True
  | _ => False

def ThrowsIo {σ α : Type} (action : EStateM SinkFault σ α) : Prop :=
  ∀ before fault after, action before = .error fault after → fault.IsIo

section ThrowsIo

variable {σ α β : Type}

theorem throwsIo_pure (value : α) : ThrowsIo (pure value : EStateM SinkFault σ α) := by
  intro before fault after failed
  simp at failed

theorem throwsIo_get : ThrowsIo (get : EStateM SinkFault σ σ) := by
  intro before fault after failed
  have succeeds : (get : EStateM SinkFault σ σ) before = .ok before before := rfl
  rw [succeeds] at failed
  cases failed

theorem throwsIo_bind {action : EStateM SinkFault σ α} {next : α → EStateM SinkFault σ β} (first : ThrowsIo action)
    (second : ∀ value, ThrowsIo (next value)) : ThrowsIo (action >>= next) := by
  intro before fault after failed
  cases result : action before with
  | error cause middle =>
      rw [bind_of_error result] at failed
      cases failed
      exact first _ _ _ result
  | ok value middle =>
      rw [bind_of_ok result] at failed
      exact second value _ _ _ failed

theorem throwsIo_ite {condition : Prop} [Decidable condition] {first second : EStateM SinkFault σ α}
    (one : ThrowsIo first) (two : ThrowsIo second) : ThrowsIo (if condition then first else second) := by
  split
  · exact one
  · exact two

theorem throwsIo_at (action : FileAction α) (path : String) : ThrowsIo (action.at path) := by
  intro before fault after failed
  unfold FileAction.at at failed
  split at failed
  · simp at failed
  · cases failed
    trivial

end ThrowsIo

theorem Files.touch_throwsIo (path : String) : ThrowsIo (touch path) := by
  have opened := throwsIo_at (openForWriting path) path
  unfold touch
  cases Path.parent? path with
  | none => exact opened
  | some parent => exact throwsIo_ite (throwsIo_bind (throwsIo_at _ _) fun _ => opened) opened

namespace Rotation

theorem stage_throwsIo (base : String) : ThrowsIo (stage base) := by
  intro before fault after failed
  unfold stage at failed
  split at failed
  · simp at failed
  · dsimp only at failed
    split at failed <;>
      · cases failed
        trivial

theorem shiftSlots_throwsIo (base : String) (count : Nat) : ThrowsIo (shiftSlots base count) := by
  induction count with
  | zero => exact throwsIo_pure _
  | succ count ih =>
      refine throwsIo_bind ?_ fun _ => ih
      exact throwsIo_bind throwsIo_get fun _ => throwsIo_ite (throwsIo_at _ _) (throwsIo_pure _)

theorem archive_throwsIo (base : String) (archives : Nat) : ThrowsIo (archive base archives) := by
  refine throwsIo_ite ?_ (throwsIo_pure _)
  refine throwsIo_bind (stage_throwsIo base) fun _ => throwsIo_bind (throwsIo_at _ _) fun _ => ?_
  exact throwsIo_bind (shiftSlots_throwsIo base _) fun _ => throwsIo_at _ _

end Rotation

namespace RotatingSink

theorem onFiles_throwsIo {α : Type} {action : SinkFileAction α} (throws : ThrowsIo action) : ThrowsIo (onFiles action) := by
  intro before fault after failed
  unfold onFiles at failed
  dsimp only at failed
  split at failed
  · simp at failed
  next result =>
    cases failed
    exact throws _ _ _ result

theorem update_throwsIo (change : RotatingSink → RotatingSink) : ThrowsIo (update change) := by
  intro before fault after failed
  simp [update] at failed

theorem rotate_throwsIo : ThrowsIo rotate := by
  refine throwsIo_bind throwsIo_get fun state => ?_
  refine throwsIo_bind (onFiles_throwsIo (Rotation.archive_throwsIo _ _)) fun _ => ?_
  refine throwsIo_bind (update_throwsIo _) fun _ => throwsIo_bind (onFiles_throwsIo (throwsIo_at _ _)) fun _ => ?_
  exact throwsIo_bind (onFiles_throwsIo (Files.touch_throwsIo _)) fun _ => update_throwsIo _

theorem currentHandle_throwsIo : ThrowsIo currentHandle := by
  refine throwsIo_bind throwsIo_get fun state => ?_
  obtain ⟨sink, files⟩ := state
  dsimp only
  cases sink.handle with
  | some handle => exact throwsIo_pure _
  | none =>
      refine throwsIo_bind (onFiles_throwsIo (Files.touch_throwsIo _)) fun _ => ?_
      exact throwsIo_bind (update_throwsIo _) fun _ => throwsIo_pure _

theorem write_fault {sink : RotatingSink} {files : FileTree} {event : Event} {fault : SinkFault}
    {after : RotatingSink × FileTree} (failed : write event (sink, files) = .error fault after)
    (running : sink.stopped = false) : fault.IsIo := by
  have append : ThrowsIo (do
      let handle ← currentHandle
      onFiles ((Files.append handle (sink.encode event)).at sink.path)
      update fun other => { other with size := other.size + (sink.encode event).length }) := by
    refine throwsIo_bind currentHandle_throwsIo fun _ => ?_
    exact throwsIo_bind (onFiles_throwsIo (throwsIo_at _ _)) fun _ => update_throwsIo _
  unfold write at failed
  rw [bind_get] at failed
  dsimp only at failed
  rw [running, if_neg Bool.false_ne_true] at failed
  exact throwsIo_ite (throwsIo_bind rotate_throwsIo fun _ => append) append _ _ _ failed

end RotatingSink

theorem ConsoleSink.stop_stopped (sink : ConsoleSink) (stream : OutputStream) : (sink.stop stream).1.stopped = true := by
  unfold stop
  split
  · assumption
  · rfl

theorem FileSink.stop_stopped (sink : FileSink) : sink.stop.stopped = true := by
  unfold stop
  split
  · assumption
  · rfl

theorem RotatingSink.stop_stopped (sink : RotatingSink) : sink.stop.stopped = true := by
  unfold stop
  split
  · assumption
  · rfl

theorem RemoteSink.stop_stopped (sink : RemoteSink) (schedule : UploadSchedule) :
    (sink.stop schedule).1.stopped = true := by
  unfold stop
  split
  · assumption
  · rfl

theorem RecordingSink.stop_stopped (sink : RecordingSink) (records : List Record) :
    (sink.stop records).1.stopped = true := by
  unfold stop
  split
  · assumption
  · rfl

namespace Sink

def isRunning : Sink → Bool
  | console sink => !sink.stopped
  | file sink => !sink.stopped && sink.handle.isSome
  | rotating sink => !sink.stopped
  | remote sink => !sink.stopped
  | recording sink => !sink.stopped

def isStopped : Sink → Bool
  | console sink => sink.stopped
  | file sink => sink.stopped
  | rotating sink => sink.stopped
  | remote sink => sink.stopped
  | recording sink => sink.stopped

end Sink

namespace World

def isRunning (world : World) (id : SinkId) : Bool :=
  (world.sinks[id]?).any Sink.isRunning

structure KeepsStates (before after : World) : Prop where
  length : before.sinks.length ≤ after.sinks.length
  running : ∀ {id : SinkId}, id < before.sinks.length → after.isRunning id = before.isRunning id
  stopped : ∀ {id : SinkId}, id < before.sinks.length → after.isStopped id = before.isStopped id

/-- Sinks may be added, and these run or are stopped as before. -/
structure Spares (before after : World) (ids : List SinkId) : Prop where
  length : before.sinks.length ≤ after.sinks.length
  running : ∀ id ∈ ids, after.isRunning id = before.isRunning id
  stopped : ∀ id ∈ ids, after.isStopped id = before.isStopped id

structure Adds (before after : World) (id : SinkId) : Prop extends before.KeepsStates after where
  fresh : before.sinks.length ≤ id
  bound : id < after.sinks.length

structure Makes (before after : World) (id : SinkId) : Prop extends before.Adds after id where
  runs : after.isRunning id = true

def Yields (before : World) : Except SinkFault SinkId → World → Prop
  | .ok id, after => before.Makes after id
  | .error _, after => before.KeepsStates after

variable {world before after : World} {id other : SinkId}

theorem isStopped_eq (world : World) (id : SinkId) : world.isStopped id = (world.sinks[id]?).any Sink.isStopped := by
  unfold isStopped
  cases world.sinks[id]? with
  | none => rfl
  | some sink => cases sink <;> rfl

theorem isRunning_congr (same : after.sinks[id]? = before.sinks[id]?) : after.isRunning id = before.isRunning id := by
  rw [isRunning, isRunning, same]

theorem isStopped_congr (same : after.sinks[id]? = before.sinks[id]?) : after.isStopped id = before.isStopped id := by
  rw [isStopped_eq, isStopped_eq, same]

theorem KeepsStates.refl (world : World) : world.KeepsStates world :=
  ⟨Nat.le_refl _, fun _ => rfl, fun _ => rfl⟩

theorem KeepsStates.trans {first second third : World} (one : first.KeepsStates second) (two : second.KeepsStates third) :
    first.KeepsStates third where
  length := Nat.le_trans one.length two.length
  running bound := (two.running (Nat.lt_of_lt_of_le bound one.length)).trans (one.running bound)
  stopped bound := (two.stopped (Nat.lt_of_lt_of_le bound one.length)).trans (one.stopped bound)

theorem KeepsStates.spares (keeps : before.KeepsStates after) {ids : List SinkId}
    (known : ∀ id ∈ ids, id < before.sinks.length) : before.Spares after ids where
  length := keeps.length
  running id member := keeps.running (known id member)
  stopped id member := keeps.stopped (known id member)

theorem keepsStates_of_sinks (sinks : after.sinks = before.sinks) : before.KeepsStates after where
  length := Nat.le_of_eq (congrArg List.length sinks.symm)
  running _ := isRunning_congr (by rw [sinks])
  stopped _ := isStopped_congr (by rw [sinks])

theorem keepsStates_setSink {old new : Sink} (present : world.sinks[id]? = some old)
    (running : new.isRunning = old.isRunning) (stopped : new.isStopped = old.isStopped) :
    world.KeepsStates (world.setSink id new) := by
  have changed := world.setSink_same present new
  refine ⟨Nat.le_of_eq List.length_set.symm, ?_, ?_⟩
  · intro other _
    by_cases here : id = other
    · subst other
      rw [isRunning, isRunning, changed, present, Option.any_some, Option.any_some, running]
    · exact isRunning_congr (world.setSink_other here new)
  · intro other _
    by_cases here : id = other
    · subst other
      rw [isStopped_eq, isStopped_eq, changed, present, Option.any_some, Option.any_some, stopped]
    · exact isStopped_congr (world.setSink_other here new)

theorem makes_addSink (world : World) {sink : Sink} (runs : sink.isRunning = true) :
    world.Makes (world.addSink sink).2 (world.addSink sink).1 := by
  have old : ∀ {other}, other < world.sinks.length → (world.addSink sink).2.sinks[other]? = world.sinks[other]? :=
    fun bound => List.getElem?_append_left bound
  have keeps : world.KeepsStates (world.addSink sink).2 :=
    ⟨by simp [addSink], fun bound => isRunning_congr (old bound), fun bound => isStopped_congr (old bound)⟩
  refine ⟨⟨keeps, Nat.le_refl _, ?_⟩, ?_⟩
  · simp [addSink]
  · simpa [isRunning, addSink] using runs

theorem Makes.from_sinks (makes : world.Makes after id) (same : world.sinks = before.sinks) : before.Makes after id where
  toKeepsStates := (keepsStates_of_sinks same).trans makes.toKeepsStates
  fresh := same ▸ makes.fresh
  bound := makes.bound
  runs := makes.runs

theorem makes_addRemote (world : World) (name baseId : String) (type : DocumentType) (retry : RetryPolicy)
    (encode : Event → Bytes) :
    world.Makes (world.addRemote name baseId type retry encode).2 (world.addRemote name baseId type retry encode).1 := by
  have made : ∀ (middle : World) (sink : RemoteSink), middle.sinks = world.sinks → sink.stopped = false →
      world.Makes (middle.addSink (.remote sink)).2 (middle.addSink (.remote sink)).1 := by
    intro middle sink same running
    exact (makes_addSink middle (by simp [Sink.isRunning, running])).from_sinks same
  exact made _ _ rfl rfl

theorem write_keepsStates (world : World) (id : SinkId) (event : Event) : world.KeepsStates (world.write id event).2 := by
  unfold write
  split
  · exact .refl world
  · exact keepsStates_of_sinks rfl
  · split <;> exact keepsStates_of_sinks rfl
  next sink present =>
    have keeps := RotatingSink.write_rest event (sink, world.files)
    have becomes : ∀ changed files, changed.stopped = sink.stopped →
        world.KeepsStates ((world.setFiles files).setSink id (.rotating changed)) := by
      intro changed files same
      refine (keepsStates_of_sinks (world.setFiles_sinks files)).trans (keepsStates_setSink present ?_ ?_)
      · rw [Sink.isRunning, Sink.isRunning, same]
      · exact same
    split
    next result =>
      rw [stateAfter_of_ok result] at keeps
      exact becomes _ _ keeps.stopped
    next result =>
      rw [stateAfter_of_error result] at keeps
      exact becomes _ _ keeps.stopped
  · exact keepsStates_of_sinks rfl
  · exact keepsStates_of_sinks rfl

theorem write_not_stopped (runs : world.isRunning id = true) (event : Event) (name : String) :
    (world.write id event).1 ≠ .error (.stopped name) := by
  intro refused
  unfold isRunning at runs
  unfold write at refused
  cases present : world.sinks[id]? with
  | none => simp [present] at runs
  | some sink =>
      simp only [present, Option.any_some] at runs refused
      cases sink with
      | console sink =>
          have open' : sink.stopped = false := by simpa [Sink.isRunning] using runs
          simp only [ConsoleSink.write, open', Bool.false_eq_true, if_false] at refused
          generalize (world.console.write (sink.encode event)).1 = answer at refused
          cases answer <;> simp [Except.mapError] at refused
      | file sink =>
          have opened : sink.handle.isSome = true := by
            simp only [Sink.isRunning, Bool.and_eq_true] at runs
            exact runs.2
          obtain ⟨handle, there⟩ := Option.isSome_iff_exists.mp opened
          have throws := throwsIo_at (Files.append handle (sink.encode event)) sink.path
          simp only [FileSink.write, there] at refused
          split at refused
          · simp at refused
          next result =>
            cases refused
            exact throws _ _ _ result
      | rotating sink =>
          have open' : sink.stopped = false := by simpa [Sink.isRunning] using runs
          dsimp only at refused
          split at refused
          · simp at refused
          next result =>
            cases refused
            exact RotatingSink.write_fault result open'
      | remote sink =>
          have open' : sink.stopped = false := by simpa [Sink.isRunning] using runs
          simp [RemoteSink.write, open'] at refused
      | recording sink =>
          have open' : sink.stopped = false := by simpa [Sink.isRunning] using runs
          simp only [RecordingSink.write, open', Bool.false_eq_true, if_false] at refused
          split at refused <;> simp_all

theorem stop_isStopped (bound : id < world.sinks.length) : (world.stop id).isStopped id = true := by
  have present := List.getElem?_eq_getElem bound
  generalize world.sinks[id] = sink at present
  have becomes : ∀ (next : World) (new : Sink), next.sinks = world.sinks → new.isStopped = true →
      (next.setSink id new).isStopped id = true := by
    intro next new same stopped
    rw [isStopped_eq, next.setSink_same (same ▸ present), Option.any_some, stopped]
  unfold stop
  rw [present]
  cases sink with
  | console sink => exact becomes { world with console := (sink.stop world.console).2 } _ rfl (sink.stop_stopped _)
  | file sink => exact becomes world _ rfl sink.stop_stopped
  | rotating sink => exact becomes world _ rfl sink.stop_stopped
  | remote sink => exact becomes { world with uploads := (sink.stop world.uploads).2 } _ rfl (sink.stop_stopped _)
  | recording sink => exact becomes { world with records := (sink.stop world.records).2 } _ rfl (sink.stop_stopped _)

theorem stop_isStopped_other (world : World) (different : id ≠ other) :
    (world.stop id).isStopped other = world.isStopped other :=
  isStopped_congr (world.stop_other different)

end World

namespace Factory

theorem adopt_yields {σ : Type} (world : World) (wrap : σ → Sink) (result : EStateM.Result SinkFault FileTree σ)
    (runs : ∀ sink files, result = .ok sink files → (wrap sink).isRunning = true) :
    world.Yields (adopt world wrap result).1 (adopt world wrap result).2 := by
  cases result with
  | ok sink files => exact (World.makes_addSink (world.setFiles files) (runs sink files rfl)).from_sinks rfl
  | error fault files => exact World.keepsStates_of_sinks rfl

theorem openAt_rotating {name path : String} {policy : RollingPolicy} {encode : Event → Bytes} {before after : FileTree}
    {sink : RotatingSink} (opened : RotatingSink.openAt name path policy encode before = .ok sink after) :
    (Sink.rotating sink).isRunning = true := by
  obtain ⟨handle, size, -, rfl⟩ := RotatingSink.openAt_eq_ok.mp opened
  rfl

theorem openAt_file {name path : String} {encode : Event → Bytes} {before after : FileTree} {sink : FileSink}
    (opened : FileSink.openAt name path encode before = .ok sink after) : (Sink.file sink).isRunning = true := by
  obtain ⟨handle, size, -, rfl⟩ := FileSink.openAt_eq_ok.mp opened
  rfl

theorem create_yields (router key : String) (factory : Factory) (world : World) :
    world.Yields (create router key (factory, world)).1 (create router key (factory, world)).2.2 := by
  cases factory with
  | localApplication fileName policy encode =>
      simp only [create]
      exact adopt_yields world .rotating _ fun _ _ opened => openAt_rotating opened
  | localJob fileName encode =>
      simp only [create]
      exact adopt_yields world .file _ fun _ _ opened => openAt_file opened
  | cloud type retry encode =>
      simp only [create]
      cases StorageKey.base key with
      | error fault => exact World.KeepsStates.refl world
      | ok base => exact world.makes_addRemote _ base type retry encode
  | recording factory =>
      simp only [create, createRecording]
      split
      · exact World.KeepsStates.refl world
      · split
        · exact World.KeepsStates.refl world
        · exact World.makes_addSink world rfl

end Factory

end KeyedLog
