import KeyedLog.Proofs.Router.Mirrors

/-!
Making a sink in two worlds that look the same to somebody. If the files of a key are his, the sink is made in both worlds
or in neither, and each of the two is the other's mate from then on.
-/

namespace KeyedLog

open FileTree

namespace Factory

def paths (factory : Factory) (key : String) : List String :=
  match factory with
  | .localApplication fileName policy _ =>
    key :: Path.join key fileName :: policy.archivePaths (Path.join key fileName)
  | .localJob fileName _ => [key, Path.join key fileName]
  | .cloud .. | .recording _ => []

def archives (factory : Factory) (key : String) : List String :=
  match factory with
  | .localApplication fileName policy _ => policy.archivePaths (Path.join key fileName)
  | .localJob .. | .cloud .. | .recording _ => []

end Factory

/-- Whatever has to do with a key is his, and the working directory is not inside of an archive. -/
structure Scope.Provides (scope : Scope) (tree : FileTree) (factory : Factory) (key : String) : Prop where
  claims : ∀ path ∈ factory.paths key, scope.Claims tree path
  home : ∀ archive ∈ factory.archives key, ¬ tree.place archive <+: tree.workingDirectory

theorem Scope.Provides.congr {scope : Scope} {tree later : FileTree} {factory : Factory} {key : String}
    (provides : scope.Provides tree factory key) (home : later.workingDirectory = tree.workingDirectory) : scope.Provides later factory key := by
  refine ⟨fun path member => (provides.claims path member).congr home, ?_⟩
  intro archive member
  rw [place_congr home, home]
  exact provides.home archive member

theorem Scope.Provides.create {scope : Scope} {tree : FileTree} {factory : Factory} {key : String}
    (provides : scope.Provides tree factory key) (router other : String) (world : World) :
    scope.Provides tree (Factory.create router other (factory, world)).2.1 key := by
  cases factory with
  | localApplication fileName policy encode => exact provides
  | localJob fileName encode => exact provides
  | cloud type retry encode =>
      simp only [Factory.create]
      split <;> exact provides
  | recording factory => exact ⟨provides.claims, provides.home⟩

namespace World

structure Gains (scope : Scope) (sink : Sink) (before after : World) : Prop where
  files : FileTree.Confined scope before.files after.files
  instant : after.instant = before.instant
  faulty : after.console.writeFault = before.console.writeFault
  sinks : after.sinks = before.sinks ++ [sink]
  buffers : ∃ more, after.uploads.work.buffers = before.uploads.work.buffers ++ more
  remote : ∀ remote, sink = .remote remote → remote.buffer = before.uploads.work.buffers.length ∧
    remote.buffer < after.uploads.work.buffers.length

variable {scope : Scope} {mine : SinkId → Prop} {mate : SinkId → SinkId} {world twin before after afterTwin : World}
  {sink other : Sink} {key : String} {factory : Factory}

namespace Gains

theorem old (gains : Gains scope sink before after) {id : SinkId} (bound : id < before.sinks.length) :
    after.sinks[id]? = before.sinks[id]? := by
  rw [gains.sinks, List.getElem?_append_left bound]

theorem new (gains : Gains scope sink before after) : after.sinks[before.sinks.length]? = some sink := by
  rw [gains.sinks, List.getElem?_concat_length]

theorem oldBuffer (gains : Gains scope sink before after) {target : TargetId}
    (bound : target < before.uploads.work.buffers.length) :
    after.uploads.work.buffers[target]? = before.uploads.work.buffers[target]? := by
  obtain ⟨more, buffers⟩ := gains.buffers
  rw [buffers, List.getElem?_append_left bound]

theorem length (gains : Gains scope sink before after) : after.sinks.length = before.sinks.length + 1 := by
  rw [gains.sinks, List.length_append, List.length_singleton]

theorem old_or_new (gains : Gains scope sink before after) {id : SinkId} {remote : RemoteSink}
    (present : after.remote? id = some remote) :
    before.remote? id = some remote ∨ id = before.sinks.length ∧ sink = .remote remote := by
  have bound := lt_of_remote? present
  rw [gains.length, Nat.lt_succ_iff_lt_or_eq] at bound
  rcases bound with old | rfl
  · exact .inl ((remote?_congr (gains.old old)).symm.trans present)
  · exact .inr ⟨rfl, Option.some.inj (gains.new.symm.trans (remote?_eq.mp present))⟩

theorem separate (gains : Gains scope sink before after) (separate : before.IsSeparate) : after.IsSeparate := by
  have count : before.uploads.work.buffers.length ≤ after.uploads.work.buffers.length := by
    obtain ⟨more, buffers⟩ := gains.buffers
    rw [buffers, List.length_append]
    exact Nat.le_add_right _ _
  refine ⟨?_, ?_⟩
  · intro id remote present
    rcases gains.old_or_new present with old | ⟨-, new⟩
    · exact Nat.lt_of_lt_of_le (separate.bound old) count
    · exact (gains.remote remote new).2
  · intro first second one two present presentToo same
    rcases gains.old_or_new present with old | ⟨rfl, new⟩ <;>
      rcases gains.old_or_new presentToo with oldToo | ⟨rfl, newToo⟩
    · exact separate.single old oldToo same
    · exact absurd (same.trans (gains.remote two newToo).1) (Nat.ne_of_lt (separate.bound old))
    · exact absurd (same.symm.trans (gains.remote one new).1) (Nat.ne_of_lt (separate.bound oldToo))
    · rfl

theorem confined (gains : Gains scope sink before after) : Confined scope mine before after := by
  obtain ⟨more, buffers⟩ := gains.buffers
  refine ⟨gains.files, gains.instant, gains.faulty, by rw [gains.length]; exact Nat.le_succ _, fun id bound _ => gains.old bound,
    fun id bound => remote?_congr (gains.old bound), ?_, fun target bound _ => gains.oldBuffer bound, ?_, gains.separate⟩
  · rw [buffers, List.length_append]
    exact Nat.le_add_right _ _
  · intro id remote new present
    rcases gains.old_or_new present with old | ⟨-, made⟩
    · exact absurd (lt_of_remote? old) (Nat.not_lt.mpr new)
    · exact Nat.le_of_eq (gains.remote remote made).1.symm

end Gains

theorem Mirrors.gain (mirrors : Mirrors scope mine mate world twin)
    (steps : Steps scope world.files twin.files after.files afterTwin.files) (gains : Gains scope sink world after)
    (gainsTwin : Gains scope other twin afterTwin) (same : SameSink scope after afterTwin sink other) :
    Mirrors scope (fun id => mine id ∨ id = world.sinks.length)
      (Function.update mate world.sinks.length twin.sinks.length) after afterTwin := by
  have bound : ∀ id, mine id → id < world.sinks.length ∧ mate id < twin.sinks.length :=
    fun id his => (mirrors.matched id his).bound
  have old : ∀ id, mine id → Function.update mate world.sinks.length twin.sinks.length id = mate id :=
    fun id his => Function.update_of_ne (Nat.ne_of_lt (bound id his).1) ..
  have changes : Confined scope (fun _ => False) world after := gains.confined
  have changesTwin : Confined scope (fun _ => False) twin afterTwin := gainsTwin.confined
  have kept := mirrors.advance steps changes changesTwin (fun _ _ _ => id) fun _ _ none => none.elim
  refine ⟨kept.twins, kept.instant, kept.faulty, ?_, ?_, kept.separate, kept.separateTwin⟩
  · rintro id (his | rfl)
    · rw [old id his]
      exact kept.matched id his
    · rw [Function.update_self]
      exact ⟨sink, other, gains.new, gainsTwin.new, same⟩
  · rintro one two (his | rfl) (hisToo | rfl) equal
    · rw [old one his, old two hisToo] at equal
      exact mirrors.single one two his hisToo equal
    · rw [old one his, Function.update_self] at equal
      exact absurd equal (Nat.ne_of_lt (bound one his).2)
    · rw [old two hisToo, Function.update_self] at equal
      exact absurd equal.symm (Nat.ne_of_lt (bound two hisToo).2)
    · rfl

/-- What making a sink comes to in two worlds: it is made in both or in neither. -/
inductive Creates (scope : Scope) (mine : SinkId → Prop) (mate : SinkId → SinkId) (world twin : World) :
    Except SinkFault SinkId × World → Except SinkFault SinkId × World → Prop where
  | failed {fault : SinkFault} {after afterTwin : World} (mirrors : Mirrors scope mine mate after afterTwin)
      (changes : Confined scope (fun _ => False) world after) (changesTwin : Confined scope (fun _ => False) twin afterTwin) :
      Creates scope mine mate world twin (.error fault, after) (.error fault, afterTwin)
  | made {after afterTwin : World}
      (mirrors : Mirrors scope (fun id => mine id ∨ id = world.sinks.length)
        (Function.update mate world.sinks.length twin.sinks.length) after afterTwin)
      (changes : Confined scope (fun _ => False) world after) (changesTwin : Confined scope (fun _ => False) twin afterTwin)
      (count : after.sinks.length = world.sinks.length + 1) (countTwin : afterTwin.sinks.length = twin.sinks.length + 1) :
      Creates scope mine mate world twin (.ok world.sinks.length, after) (.ok twin.sinks.length, afterTwin)

theorem creates_of_gains (mirrors : Mirrors scope mine mate world twin)
    (steps : Steps scope world.files twin.files after.files afterTwin.files) (gains : Gains scope sink world after)
    (gainsTwin : Gains scope other twin afterTwin) (same : SameSink scope after afterTwin sink other) :
    Creates scope mine mate world twin (.ok world.sinks.length, after) (.ok twin.sinks.length, afterTwin) :=
  .made (mirrors.gain steps gains gainsTwin same) gains.confined gainsTwin.confined gains.length gainsTwin.length

theorem Mirrors.setFiles {files filesTwin : FileTree} (mirrors : Mirrors scope mine mate world twin)
    (steps : Steps scope world.files twin.files files filesTwin) :
    Mirrors scope mine mate (world.setFiles files) (twin.setFiles filesTwin) := by
  have changes : Confined scope (fun _ => False) world (world.setFiles files) := confined_setFiles steps.changes
  have changesTwin : Confined scope (fun _ => False) twin (twin.setFiles filesTwin) := confined_setFiles steps.changesTwin
  exact mirrors.advance steps changes changesTwin (fun _ _ _ => id) fun _ _ none => none.elim

theorem gains_addSink {files : FileTree} (changes : FileTree.Confined scope world.files files)
    (isLocal : ∀ remote, sink ≠ .remote remote) : Gains scope sink world ((world.setFiles files).addSink sink).2 :=
  ⟨changes, rfl, rfl, rfl, ⟨[], (List.append_nil _).symm⟩, fun remote same => absurd same (isLocal remote)⟩

theorem gains_addRemote (world : World) (name baseId : String) (type : DocumentType) (retry : RetryPolicy)
    (encode : Event → Bytes) : ∃ registration,
      Gains scope (.remote { encode, buffer := world.uploads.work.buffers.length, registration }) world
        (world.addRemote name baseId type retry encode).2 := by
  refine ⟨_, .refl _, rfl, rfl, rfl, ⟨_, rfl⟩, ?_⟩
  rintro remote same
  obtain rfl := Sink.remote.inj same
  refine ⟨rfl, ?_⟩
  show _ < (world.uploads.work.buffers ++ [_]).length
  rw [List.length_append]
  exact Nat.lt_succ_self _

end World

namespace Factory

variable {scope : Scope} {mine : SinkId → Prop} {mate : SinkId → SinkId} {world twin : World} {key : String}
  {factory : Factory}

theorem adopt_creates {σ : Type} (wrap : σ → Sink) {one two : EStateM.Result SinkFault FileTree σ}
    {values : σ → σ → FileTree → FileTree → Prop} (mirrors : World.Mirrors scope mine mate world twin)
    (alike : Alike scope world.files twin.files values one two)
    (same : ∀ sink other (after afterTwin : World), values sink other after.files afterTwin.files →
      World.SameSink scope after afterTwin (wrap sink) (wrap other))
    (isLocal : ∀ sink remote, wrap sink ≠ .remote remote) :
    World.Creates scope mine mate world twin ((adopt world wrap one).1, (adopt world wrap one).2)
      ((adopt twin wrap two).1, (adopt twin wrap two).2) := by
  cases alike with
  | ok steps equal =>
      exact World.creates_of_gains mirrors steps (World.gains_addSink steps.changes (isLocal _))
        (World.gains_addSink steps.changesTwin (isLocal _)) (same _ _ _ _ equal)
  | error steps =>
      exact .failed (mirrors.setFiles steps) (World.confined_setFiles steps.changes)
        (World.confined_setFiles steps.changesTwin)

theorem create_creates (mirrors : World.Mirrors scope mine mate world twin) (provides : scope.Provides world.files factory key)
    (router : String) :
    (create router key (factory, twin)).2.1 = (create router key (factory, world)).2.1 ∧
      World.Creates scope mine mate world twin
        ((create router key (factory, world)).1, (create router key (factory, world)).2.2)
        ((create router key (factory, twin)).1, (create router key (factory, twin)).2.2) := by
  cases factory with
  | localApplication fileName policy encode =>
      have alike := RotatingSink.openAt_alike mirrors.twins
        (fun beside member => provides.claims beside (List.mem_cons_of_mem _ member)) provides.home (key ++ "-local") encode
      have made := adopt_creates .rotating mirrors alike (fun _ _ _ _ pairs => .rotating pairs) fun _ _ => by simp
      simp only [create]
      exact ⟨trivial, made⟩
  | localJob fileName encode =>
      have keyed := provides.claims key (List.mem_cons_self ..)
      have same : FileSink.jobLogPath twin.files key fileName = FileSink.jobLogPath world.files key fileName := by
        rw [FileSink.jobLogPath, FileSink.jobLogPath, mirrors.twins.isDirectory keyed]
      have claims : scope.Claims world.files (FileSink.jobLogPath world.files key fileName) := by
        unfold FileSink.jobLogPath
        split
        · exact provides.claims _ (List.mem_cons_of_mem _ (List.mem_singleton.mpr rfl))
        · exact keyed
      have alike := FileSink.openAt_alike mirrors.twins claims (key ++ "-local") encode
      have made := adopt_creates .file mirrors alike (fun _ _ _ _ opened => by
        obtain ⟨handle, rfl, same⟩ := opened
        exact .file same) fun _ _ => by simp
      simp only [create, same]
      exact ⟨trivial, made⟩
  | cloud type retry encode =>
      simp only [create]
      cases StorageKey.base key with
      | error fault => exact ⟨rfl, .failed mirrors (.refl world) (.refl twin)⟩
      | ok base =>
          obtain ⟨registration, gains⟩ := World.gains_addRemote world (router ++ "-" ++ key) base type retry encode
          obtain ⟨registrationTwin, gainsTwin⟩ := World.gains_addRemote twin (router ++ "-" ++ key) base type retry encode
          have stands : ∀ world : World, ∃ buffer : RemoteBuffer, buffer.name = router ++ "-" ++ key ∧ buffer.pending = [] ∧
              (world.addRemote (router ++ "-" ++ key) base type retry encode).2.uploads.work.buffers[
                world.uploads.work.buffers.length]? = some buffer :=
            fun world => ⟨_, rfl, rfl, List.getElem?_concat_length ..⟩
          obtain ⟨buffer, name, pending, here⟩ := stands world
          obtain ⟨partner, nameTwin, pendingTwin, there⟩ := stands twin
          exact ⟨rfl, World.creates_of_gains mirrors (.refl mirrors.twins) gains gainsTwin
            (.remote rfl rfl here there (nameTwin.trans name.symm) (pendingTwin.trans pending.symm))⟩
  | recording factory =>
      simp only [create, createRecording]
      refine ⟨trivial, ?_⟩
      split
      · exact .failed mirrors (.refl world) (.refl twin)
      · split
        · exact .failed mirrors (.refl world) (.refl twin)
        · have gains : ∀ (world : World) (sink : RecordingSink),
              World.Gains scope (.recording sink) world (world.addSink (.recording sink)).2 :=
            fun world sink => World.gains_addSink (.refl world.files) fun _ => by simp
          exact World.creates_of_gains mirrors (.refl mirrors.twins) (gains world _) (gains twin _) (.recording _)

theorem create_mirrors (mirrors : World.Mirrors scope mine mate world twin) (provides : scope.Provides world.files factory key)
    (router : String) :
    (∃ fault kind after afterTwin, create router key (factory, world) = (.error fault, kind, after) ∧
        create router key (factory, twin) = (.error fault, kind, afterTwin) ∧
        World.Mirrors scope mine mate after afterTwin ∧ World.Confined scope (fun _ => False) world after ∧
        World.Confined scope (fun _ => False) twin afterTwin) ∨
      ∃ kind after afterTwin, create router key (factory, world) = (.ok world.sinks.length, kind, after) ∧
        create router key (factory, twin) = (.ok twin.sinks.length, kind, afterTwin) ∧
        World.Mirrors scope (fun id => mine id ∨ id = world.sinks.length)
          (Function.update mate world.sinks.length twin.sinks.length) after afterTwin ∧
        World.Confined scope (fun _ => False) world after ∧ World.Confined scope (fun _ => False) twin afterTwin ∧
        after.sinks.length = world.sinks.length + 1 ∧ afterTwin.sinks.length = twin.sinks.length + 1 := by
  obtain ⟨same, creates⟩ := create_creates mirrors provides router
  generalize create router key (factory, world) = made at same creates
  generalize create router key (factory, twin) = madeTwin at same creates
  obtain ⟨answer, kind, after⟩ := made
  obtain ⟨answerTwin, kindTwin, afterTwin⟩ := madeTwin
  dsimp only at same creates
  subst same
  cases creates with
  | failed mirrors changes changesTwin => exact .inl ⟨_, _, _, _, rfl, rfl, mirrors, changes, changesTwin⟩
  | made mirrors changes changesTwin count countTwin =>
      exact .inr ⟨_, _, _, rfl, rfl, mirrors, changes, changesTwin, count, countTwin⟩

end Factory

end KeyedLog
