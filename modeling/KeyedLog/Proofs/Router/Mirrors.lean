import KeyedLog.Proofs.Sink.Alike
import KeyedLog.Proofs.Sink.Ownership

/-!
Two worlds that look the same to somebody. Some sinks of the one are his, and each has a mate in the other that does the
same; what somebody else does with sinks of his own does not matter.
-/

namespace KeyedLog

open FileTree

theorem OutputStream.write_writeFault (stream : OutputStream) (bytes : Bytes) :
    (stream.write bytes).2.writeFault = stream.writeFault := by
  unfold write
  split <;> rfl

namespace ConsoleSink

variable (sink : ConsoleSink) (event : Event)

theorem write_writeFault (stream : OutputStream) : (sink.write event stream).2.writeFault = stream.writeFault := by
  unfold write
  split
  · rfl
  · exact OutputStream.write_writeFault _ _

theorem write_answer {one two : OutputStream} (same : two.writeFault = one.writeFault) :
    (sink.write event two).1 = (sink.write event one).1 := by
  unfold write OutputStream.write
  rw [same]
  split
  · rfl
  · cases one.writeFault <;> rfl

end ConsoleSink

theorem RecordingSink.write_answer (sink : RecordingSink) (event : Event) (one two : List Record) :
    (sink.write event two).1 = (sink.write event one).1 := by
  unfold write
  split
  · rfl
  · split <;> rfl

namespace World

structure IsSeparate (world : World) : Prop where
  bound : ∀ {id : SinkId} {sink : RemoteSink}, world.remote? id = some sink →
    sink.buffer < world.uploads.work.buffers.length
  single : ∀ {first second : SinkId} {one two : RemoteSink}, world.remote? first = some one →
    world.remote? second = some two → one.buffer = two.buffer → first = second

structure Confined (scope : Scope) (mine : SinkId → Prop) (before after : World) : Prop where
  files : FileTree.Confined scope before.files after.files
  instant : after.instant = before.instant
  faulty : after.console.writeFault = before.console.writeFault
  sinkCount : before.sinks.length ≤ after.sinks.length
  sinks : ∀ id < before.sinks.length, ¬ mine id → after.sinks[id]? = before.sinks[id]?
  remotes : ∀ id < before.sinks.length, after.remote? id = before.remote? id
  bufferCount : before.uploads.work.buffers.length ≤ after.uploads.work.buffers.length
  buffers : ∀ target < before.uploads.work.buffers.length,
    (∀ id sink, mine id → before.remote? id = some sink → sink.buffer ≠ target) →
      after.uploads.work.buffers[target]? = before.uploads.work.buffers[target]?
  fresh : ∀ id sink, before.sinks.length ≤ id → after.remote? id = some sink →
    before.uploads.work.buffers.length ≤ sink.buffer
  separate : before.IsSeparate → after.IsSeparate

/-- The sinks do the same in both worlds, as far as he can tell. -/
inductive SameSink (scope : Scope) (world twin : World) : Sink → Sink → Prop where
  | console (sink : ConsoleSink) : SameSink scope world twin (.console sink) (.console sink)
  | file {sink : FileSink} {handle : Option FileHandle} (same : SameHandle scope world.files twin.files sink.handle handle) :
      SameSink scope world twin (.file sink) (.file { sink with handle })
  | rotating {sink other : RotatingSink} (pairs : RotatingSink.Pairs scope (sink, world.files) (other, twin.files)) :
      SameSink scope world twin (.rotating sink) (.rotating other)
  | remote {sink other : RemoteSink} {buffer mate : RemoteBuffer} (encode : other.encode = sink.encode)
      (stopped : other.stopped = sink.stopped) (here : sink.buffer? world.uploads = some buffer)
      (there : other.buffer? twin.uploads = some mate) (name : mate.name = buffer.name)
      (pending : mate.pending = buffer.pending) : SameSink scope world twin (.remote sink) (.remote other)
  | recording (sink : RecordingSink) : SameSink scope world twin (.recording sink) (.recording sink)

def Matches (scope : Scope) (world twin : World) (id mate : SinkId) : Prop :=
  ∃ sink other, world.sinks[id]? = some sink ∧ twin.sinks[mate]? = some other ∧ SameSink scope world twin sink other

/-- The worlds look the same to him: each sink of his has a mate of its own. -/
structure Mirrors (scope : Scope) (mine : SinkId → Prop) (mate : SinkId → SinkId) (world twin : World) : Prop where
  twins : Twins scope world.files twin.files
  instant : twin.instant = world.instant
  faulty : twin.console.writeFault = world.console.writeFault
  matched : ∀ id, mine id → Matches scope world twin id (mate id)
  single : ∀ id other, mine id → mine other → mate id = mate other → id = other
  separate : world.IsSeparate
  separateTwin : twin.IsSeparate

variable {scope theirs : Scope} {mine touched touchedTwin : SinkId → Prop} {mate : SinkId → SinkId}
  {world twin before after afterTwin : World} {sink other : Sink} {id : SinkId}

namespace Confined

theorem trans {first second third : World} (one : Confined scope mine first second) (two : Confined scope mine second third)
    : Confined scope mine first third := by
  refine ⟨one.files.trans two.files, two.instant.trans one.instant, two.faulty.trans one.faulty,
    Nat.le_trans one.sinkCount two.sinkCount, ?_, ?_, Nat.le_trans one.bufferCount two.bufferCount, ?_, ?_,
    fun separate => two.separate (one.separate separate)⟩
  · intro id bound other
    rw [two.sinks id (Nat.lt_of_lt_of_le bound one.sinkCount) other, one.sinks id bound other]
  · intro id bound
    rw [two.remotes id (Nat.lt_of_lt_of_le bound one.sinkCount), one.remotes id bound]
  · intro target bound apart
    rw [two.buffers target (Nat.lt_of_lt_of_le bound one.bufferCount) ?_, one.buffers target bound apart]
    intro id sink his present
    by_cases old : id < first.sinks.length
    · exact apart id sink his ((one.remotes id old).symm.trans present)
    · exact Nat.ne_of_gt (Nat.lt_of_lt_of_le bound (one.fresh id sink (Nat.le_of_not_lt old) present))
  · intro id sink new present
    by_cases old : id < second.sinks.length
    · exact one.fresh id sink new ((two.remotes id old).symm.trans present)
    · exact Nat.le_trans one.bufferCount (two.fresh id sink (Nat.le_of_not_lt old) present)

theorem mono {wide : Scope} (confined : Confined scope touched before after)
    (files : FileTree.Confined scope before.files after.files → FileTree.Confined wide before.files after.files)
    (weaken : ∀ id < before.sinks.length, touched id → mine id) : Confined wide mine before after := by
  refine ⟨files confined.files, confined.instant, confined.faulty, confined.sinkCount, ?_, confined.remotes,
    confined.bufferCount, ?_, confined.fresh, confined.separate⟩
  · exact fun id bound other => confined.sinks id bound fun his => other (weaken id bound his)
  · intro target bound apart
    exact confined.buffers target bound fun id sink his present =>
      apart id sink (weaken id (lt_of_remote? present) his) present

theorem refl (world : World) : Confined scope mine world world :=
  ⟨.refl _, rfl, rfl, Nat.le_refl _, fun _ _ _ => rfl, fun _ _ => rfl, Nat.le_refl _, fun _ _ _ => rfl,
    fun _ _ new present => absurd (lt_of_remote? present) (Nat.not_lt.mpr new), fun separate => separate⟩

end Confined

theorem IsSeparate.congr (separate : before.IsSeparate) (remotes : ∀ id, after.remote? id = before.remote? id)
    (count : before.uploads.work.buffers.length ≤ after.uploads.work.buffers.length) : after.IsSeparate := by
  refine ⟨?_, ?_⟩
  · intro id sink present
    exact Nat.lt_of_lt_of_le (separate.bound ((remotes id).symm.trans present)) count
  · intro first second one two present presentToo
    exact separate.single ((remotes first).symm.trans present) ((remotes second).symm.trans presentToo)

theorem confined_of_remotes (files : FileTree.Confined scope before.files after.files)
    (instant : after.instant = before.instant) (faulty : after.console.writeFault = before.console.writeFault)
    (sinkCount : after.sinks.length = before.sinks.length)
    (sinks : ∀ id, ¬ mine id → after.sinks[id]? = before.sinks[id]?) (remotes : ∀ id, after.remote? id = before.remote? id)
    (bufferCount : after.uploads.work.buffers.length = before.uploads.work.buffers.length)
    (buffers : ∀ target, (∀ id sink, mine id → before.remote? id = some sink → sink.buffer ≠ target) →
      after.uploads.work.buffers[target]? = before.uploads.work.buffers[target]?) : Confined scope mine before after := by
  refine ⟨files, instant, faulty, Nat.le_of_eq sinkCount.symm, fun id _ => sinks id, fun id _ => remotes id,
    Nat.le_of_eq bufferCount.symm, fun target _ => buffers target, ?_, ?_⟩
  · intro id sink new present
    rw [remotes] at present
    exact absurd (lt_of_remote? present) (Nat.not_lt.mpr new)
  · exact fun separate => separate.congr remotes (Nat.le_of_eq bufferCount.symm)

theorem SameSink.mono (same : SameSink scope world twin sink other) (twins : Twins scope after.files afterTwin.files)
    (home : after.files.workingDirectory = world.files.workingDirectory)
    (meets : ∀ id mate, Meets scope world.files twin.files id mate → Meets scope after.files afterTwin.files id mate)
    (buffer : ∀ remote, sink = .remote remote → remote.buffer? after.uploads = remote.buffer? world.uploads)
    (bufferTwin : ∀ remote, other = .remote remote → remote.buffer? afterTwin.uploads = remote.buffer? twin.uploads) :
    SameSink scope after afterTwin sink other := by
  have opened : ∀ {handle mate : Option FileHandle}, SameHandle scope world.files twin.files handle mate →
      SameHandle scope after.files afterTwin.files handle mate := by
    intro handle mate same
    cases same with
    | none => exact .none
    | some both => exact .some (meets _ _ both)
  cases same with
  | console sink => exact .console sink
  | file same => exact .file (opened same)
  | rotating pairs => exact .rotating ⟨⟨twins, pairs.seats.hosts.congr home⟩, pairs.rest, opened pairs.handle⟩
  | remote encode stopped here there name pending =>
      exact .remote encode stopped ((buffer _ rfl).trans here) ((bufferTwin _ rfl).trans there) name pending
  | recording sink => exact .recording sink

theorem Matches.bound {partner : SinkId} (matched : Matches scope world twin id partner) :
    id < world.sinks.length ∧ partner < twin.sinks.length := by
  obtain ⟨sink, other, here, there, -⟩ := matched
  exact ⟨(List.getElem?_eq_some_iff.mp here).1, (List.getElem?_eq_some_iff.mp there).1⟩

namespace Mirrors

theorem fewer {his : SinkId → Prop} (mirrors : Mirrors scope mine mate world twin)
    (fewer : ∀ id, his id → mine id) : World.Mirrors scope his mate world twin :=
  ⟨mirrors.twins, mirrors.instant, mirrors.faulty, fun id its => mirrors.matched id (fewer id its),
    fun one two its itsToo => mirrors.single one two (fewer one its) (fewer two itsToo), mirrors.separate, mirrors.separateTwin⟩

theorem advance (mirrors : Mirrors scope mine mate world twin)
    (steps : Steps scope world.files twin.files after.files afterTwin.files)
    (changes : Confined scope touched world after) (changesTwin : Confined scope touchedTwin twin afterTwin)
    (others : ∀ id, mine id → ¬ touched id → ¬ touchedTwin (mate id))
    (here : ∀ id, mine id → touched id → Matches scope after afterTwin id (mate id)) :
    Mirrors scope mine mate after afterTwin := by
  refine ⟨steps.twins, ?_, ?_, ?_, mirrors.single, changes.separate mirrors.separate,
    changesTwin.separate mirrors.separateTwin⟩
  · rw [changes.instant, changesTwin.instant, mirrors.instant]
  · rw [changes.faulty, changesTwin.faulty, mirrors.faulty]
  · intro id his
    by_cases touches : touched id
    · exact here id his touches
    · have matched := mirrors.matched id his
      obtain ⟨bound, boundTwin⟩ := matched.bound
      obtain ⟨sink, other, stands, standsTwin, same⟩ := matched
      refine ⟨sink, other, (changes.sinks id bound touches).trans stands,
        (changesTwin.sinks _ boundTwin (others id his touches)).trans standsTwin, ?_⟩
      refine same.mono steps.twins steps.changes.home steps.meets ?_ ?_
      · rintro remote rfl
        have present := remote?_eq.mpr stands
        refine changes.buffers _ (mirrors.separate.bound present) ?_
        intro another sink its there equal
        exact touches (mirrors.separate.single there present equal ▸ its)
      · rintro remote rfl
        have present := remote?_eq.mpr standsTwin
        refine changesTwin.buffers _ (mirrors.separateTwin.bound present) ?_
        intro another sink its there equal
        exact others id his touches (mirrors.separateTwin.single there present equal ▸ its)

theorem wait (mirrors : Mirrors scope mine mate world twin) (instant : Millis) :
    Mirrors scope mine mate { world with instant } { twin with instant } := by
  refine ⟨mirrors.twins, rfl, mirrors.faulty, ?_, mirrors.single, ⟨mirrors.separate.bound, mirrors.separate.single⟩,
    ⟨mirrors.separateTwin.bound, mirrors.separateTwin.single⟩⟩
  intro id his
  obtain ⟨sink, other, stands, standsTwin, same⟩ := mirrors.matched id his
  exact ⟨sink, other, stands, standsTwin, same.mono mirrors.twins rfl (fun _ _ meets => meets) (fun _ _ => rfl) fun _ _ => rfl⟩

theorem frame (mirrors : Mirrors scope mine mate world twin) (confined : Confined theirs touched world after)
    (others : ∀ id, mine id → ¬ touched id) (isApart : scope.IsApart world.files theirs) :
    Mirrors scope mine mate after twin := by
  have twins := mirrors.twins.frame confined.files isApart
  refine ⟨twins, mirrors.instant.trans confined.instant.symm, mirrors.faulty.trans confined.faulty.symm, ?_, mirrors.single,
    confined.separate mirrors.separate, mirrors.separateTwin⟩
  intro id his
  obtain ⟨bound, -⟩ := (mirrors.matched id his).bound
  obtain ⟨sink, other, stands, standsTwin, same⟩ := mirrors.matched id his
  refine ⟨sink, other, (confined.sinks id bound (others id his)).trans stands, standsTwin, ?_⟩
  refine same.mono twins confined.files.home (fun _ _ meets => meets.frame confined.files twins.sound isApart) ?_ ?_
  · rintro remote rfl
    have present := remote?_eq.mpr stands
    refine confined.buffers _ (mirrors.separate.bound present) ?_
    intro another sink its there equal
    exact others id his (mirrors.separate.single there present equal ▸ its)
  · exact fun _ _ => rfl

end Mirrors

section Writing

theorem confined_setFiles {files : FileTree} (changes : FileTree.Confined scope world.files files) :
    Confined scope mine world (world.setFiles files) :=
  confined_of_remotes changes rfl rfl rfl (fun _ _ => rfl) (fun _ => rfl) rfl fun _ _ => rfl

theorem confined_rotating {sink new : RotatingSink} {files : FileTree} (stands : world.sinks[id]? = some (.rotating sink))
    (changes : FileTree.Confined scope world.files files) :
    Confined scope (· = id) world ((world.setFiles files).setSink id (.rotating new)) := by
  refine confined_of_remotes changes rfl rfl List.length_set ?_ ?_ rfl fun _ _ => rfl
  · exact fun other different => setSink_other (world.setFiles files) (Ne.symm different) _
  · intro other
    rw [setSink_remote? (world.setFiles files) stands]
    split
    next same => rw [same, remote?, stands]
    next => rfl

theorem confined_console {stream : OutputStream} (faulty : stream.writeFault = world.console.writeFault) :
    Confined scope mine world { world with console := stream } :=
  confined_of_remotes (.refl _) rfl faulty rfl (fun _ _ => rfl) (fun _ => rfl) rfl fun _ _ => rfl

theorem confined_records {records : List Record} : Confined scope mine world { world with records } :=
  confined_of_remotes (.refl _) rfl rfl rfl (fun _ _ => rfl) (fun _ => rfl) rfl fun _ _ => rfl

theorem confined_buffer {sink : RemoteSink} (present : world.remote? id = some sink) (change : RemoteBuffer → RemoteBuffer) :
    Confined scope (· = id) world { world with uploads := sink.modifyBuffer change world.uploads } := by
  refine confined_of_remotes (.refl _) rfl rfl rfl (fun _ _ => rfl) (fun _ => rfl) (List.length_modify ..) ?_
  intro target apart
  exact List.getElem?_modify_ne _ _ (apart id sink rfl present)

theorem buffer?_modifyBuffer {sink : RemoteSink} {schedule : UploadSchedule} {buffer : RemoteBuffer}
    (here : sink.buffer? schedule = some buffer) (change : RemoteBuffer → RemoteBuffer) :
    sink.buffer? (sink.modifyBuffer change schedule) = some (change buffer) := by
  show (schedule.work.buffers.modify sink.buffer change)[sink.buffer]? = some (change buffer)
  rw [List.getElem?_modify_eq, show schedule.work.buffers[sink.buffer]? = some buffer from here]
  rfl

theorem Mirrors.write (mirrors : Mirrors scope mine mate world twin) (his : mine id) (event : Event) :
    (twin.write (mate id) event).1 = (world.write id event).1 ∧
      Mirrors scope mine mate (world.write id event).2 (twin.write (mate id) event).2 ∧
      Confined scope (· = id) world (world.write id event).2 ∧
      Confined scope (· = mate id) twin (twin.write (mate id) event).2 := by
  have others : ∀ other, mine other → other ≠ id → mate other ≠ mate id :=
    fun other its different same => different (mirrors.single other id its his same)
  have advance : ∀ {after afterTwin : World}, Steps scope world.files twin.files after.files afterTwin.files →
      Confined scope (· = id) world after → Confined scope (· = mate id) twin afterTwin →
      Matches scope after afterTwin id (mate id) →
        Mirrors scope mine mate after afterTwin ∧ Confined scope (· = id) world after ∧
          Confined scope (· = mate id) twin afterTwin :=
    fun steps changes changesTwin here =>
      ⟨mirrors.advance steps changes changesTwin others fun _ _ same => same ▸ here, changes, changesTwin⟩
  have still : Steps scope world.files twin.files world.files twin.files := .refl mirrors.twins
  obtain ⟨sink, other, stands, standsTwin, same⟩ := mirrors.matched id his
  unfold World.write
  rw [stands, standsTwin]
  cases same with
  | console sink =>
      exact ⟨sink.write_answer event mirrors.faulty, advance still (confined_console (sink.write_writeFault event _))
        (confined_console (sink.write_writeFault event _)) ⟨_, _, stands, standsTwin, .console sink⟩⟩
  | @file sink handle same =>
      dsimp only
      rcases (FileSink.write_alike mirrors.twins same event).cases_run with ⟨_, _, after, afterTwin, one, two, steps, -⟩ |
        ⟨fault, after, afterTwin, one, two, steps⟩
      · rw [one, two]
        exact ⟨rfl, advance steps (confined_setFiles steps.changes) (confined_setFiles steps.changesTwin)
          ⟨_, _, stands, standsTwin, .file (same.later steps)⟩⟩
      · rw [one, two]
        exact ⟨rfl, advance steps (confined_setFiles steps.changes) (confined_setFiles steps.changesTwin)
          ⟨_, _, stands, standsTwin, .file (same.later steps)⟩⟩
  | rotating pairs =>
      dsimp only
      rcases (RotatingSink.write_alike pairs event).cases_run with ⟨_, _, after, afterTwin, one, two, goes, -⟩ |
        ⟨fault, after, afterTwin, one, two, goes⟩
      · rw [one, two]
        exact ⟨rfl, advance goes.steps (confined_rotating stands goes.steps.changes)
          (confined_rotating standsTwin goes.steps.changesTwin)
          ⟨_, _, setSink_same _ stands _, setSink_same _ standsTwin _, .rotating goes.pairs⟩⟩
      · rw [one, two]
        exact ⟨rfl, advance goes.steps (confined_rotating stands goes.steps.changes)
          (confined_rotating standsTwin goes.steps.changesTwin)
          ⟨_, _, setSink_same _ stands _, setSink_same _ standsTwin _, .rotating goes.pairs⟩⟩
  | @remote sink other buffer partner encode stopped here there name pending =>
      have present := remote?_eq.mpr stands
      have presentTwin := remote?_eq.mpr standsTwin
      dsimp only
      unfold RemoteSink.write
      rw [stopped, encode]
      by_cases stops : sink.stopped = true
      · have names : other.name twin.uploads = sink.name world.uploads := by
          rw [RemoteSink.name, RemoteSink.name, here, there]
          exact name
        rw [if_pos stops, if_pos stops, names]
        exact ⟨rfl, mirrors, .refl _, .refl _⟩
      · rw [if_neg stops, if_neg stops]
        exact ⟨rfl, advance still (confined_buffer present _) (confined_buffer presentTwin _)
          ⟨_, _, stands, standsTwin, .remote encode stopped (buffer?_modifyBuffer here _) (buffer?_modifyBuffer there _) name
            (congrArg (· ++ [sink.encode event]) pending)⟩⟩
  | recording sink =>
      exact ⟨sink.write_answer event _ _, advance still confined_records confined_records
        ⟨_, _, stands, standsTwin, .recording sink⟩⟩

end Writing

end World

end KeyedLog
