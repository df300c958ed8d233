import KeyedLog.Proofs.Files.Edits
import KeyedLog.Proofs.Files.Numbers
import KeyedLog.Sink.File
import KeyedLog.Sink.Rotating

/-!
What a sink whose file rotates does to the files. It makes its file and the staging file, moves what stands in a slot to the
next and the staging file to the first, and changes nothing else but what it takes away or writes to. Whatever sinks do with
files, and whether they succeed or not, no two names come to stand for one file.
-/

namespace KeyedLog

open FileTree

variable {own shifts : Location → Prop}

def RollingPolicy.archivePaths (policy : RollingPolicy) (base : String) : List String :=
  if policy.maxArchives = 0 then []
  else Archive.stagingPath base :: (List.range policy.maxArchives).map fun slot => Archive.slotPath base (slot + 1)

theorem RollingPolicy.stagingPath_mem (policy : RollingPolicy) (path : String) (some : 0 < policy.maxArchives) :
    Archive.stagingPath path ∈ policy.archivePaths path := by
  rw [archivePaths, if_neg (by omega)]
  exact List.mem_cons_self ..

theorem RollingPolicy.slotPath_mem (policy : RollingPolicy) (path : String) {slot : Nat} (positive : 0 < slot)
    (bound : slot ≤ policy.maxArchives) : Archive.slotPath path slot ∈ policy.archivePaths path := by
  rw [archivePaths, if_neg (by omega)]
  refine List.mem_cons_of_mem _ (List.mem_map.mpr ⟨slot - 1, List.mem_range.mpr (by omega), ?_⟩)
  rw [Nat.sub_add_cancel positive]

/-- A sink with this path may make its files and take them away, and move its archives. -/
structure RollingPolicy.Allows (policy : RollingPolicy) (own shifts : Location → Prop) (tree : FileTree) (base : String) :
    Prop where
  file : own (tree.place base)
  archives : ∀ archive ∈ policy.archivePaths base, own (tree.place archive) ∧ shifts (tree.place archive)

namespace RollingPolicy

variable {policy : RollingPolicy} {tree before middle after : FileTree} {base : String}

theorem Allows.congr (allows : policy.Allows own shifts before base)
    (home : after.workingDirectory = before.workingDirectory) : policy.Allows own shifts after base := by
  refine ⟨by rw [place_congr home]; exact allows.file, ?_⟩
  intro archive member
  rw [place_congr home]
  exact allows.archives archive member

/-- The tree has changed as a sink with this path may change it. -/
def Edits (policy : RollingPolicy) (own shifts : Location → Prop) (base : String)
    (before after : FileTree) : Prop :=
  policy.Allows own shifts before base → FileTree.Edits own shifts before after

theorem Edits.refl (tree : FileTree) : policy.Edits own shifts base tree tree :=
  fun _ => .refl

theorem Edits.trans (one : policy.Edits own shifts base before middle) (two : policy.Edits own shifts base middle after) :
    policy.Edits own shifts base before after :=
  fun allows => (one allows).trans (two (allows.congr (one allows).home))

end RollingPolicy

namespace Rotation

variable {policy : RollingPolicy} {base : String}

theorem compress_edits (source target : String) (tree : FileTree) (inside : own (tree.place target)) :
    FileTree.Edits own shifts tree (stateAfter (compress source target) tree) := by
  unfold compress
  refine Files.edits_bind (by rw [Files.openForReading_state]) ?_
  intro node after opened
  have same : after = tree := (stateAfter_of_ok opened).symm.trans (Files.openForReading_state source tree)
  refine Files.edits_bind (Files.create_edits target after (same ▸ inside)) ?_
  intro handle later _
  refine Files.edits_bind (by cases node <;> exact .refl) ?_
  exact fun content last _ => Files.append_edits handle _ last

theorem stage_edits (base : String) (tree : FileTree) (inside : own (tree.place (Archive.stagingPath base))) :
    FileTree.Edits own shifts tree (stateAfter (stage base) tree) := by
  have compressed : FileTree.Edits own shifts tree (stateAfter (compress base (Archive.stagingPath base)) tree) :=
    compress_edits base (Archive.stagingPath base) tree inside
  unfold stage
  cases result : compress base (Archive.stagingPath base) tree with
  | ok value after =>
      rw [stateAfter_of_ok result] at compressed
      simpa only [stateAfter, result] using compressed
  | error cause after =>
      rw [stateAfter_of_error result] at compressed
      have removed : FileTree.Edits own shifts after (stateAfter (Files.removeFile (Archive.stagingPath base)) after) :=
        Files.removeFile_edits (Archive.stagingPath base) after (by rwa [place_congr compressed.home])
      cases cleared : Files.removeFile (Archive.stagingPath base) after with
      | ok value later =>
          rw [stateAfter_of_ok cleared] at removed
          simpa only [stateAfter, result, cleared] using compressed.trans removed
      | error fault later =>
          rw [stateAfter_of_error cleared] at removed
          simpa only [stateAfter, result, cleared] using compressed.trans removed

theorem shiftSlots_edits {count : Nat} (bound : count < policy.maxArchives) (tree : FileTree) :
    policy.Edits own shifts base tree (stateAfter (shiftSlots base count) tree) := by
  induction count generalizing tree with
  | zero => exact RollingPolicy.Edits.refl tree
  | succ count ih =>
      unfold shiftSlots
      refine stateAfter_bind (policy.Edits own shifts base) RollingPolicy.Edits.trans ?_ fun _ after _ => ih (by omega) after
      unfold shiftSlot
      rw [stateAfter_get]
      refine stateAfter_ite _ ?_ (RollingPolicy.Edits.refl tree)
      rw [Files.stateAfter_at]
      intro allows
      obtain ⟨-, source⟩ := allows.archives _ (policy.slotPath_mem base (Nat.succ_pos count) (Nat.le_of_lt bound))
      obtain ⟨inside, target⟩ := allows.archives _ (policy.slotPath_mem base (Nat.succ_pos (count + 1)) bound)
      exact Files.rename_edits _ _ tree source target inside

theorem archive_edits (base : String) (policy : RollingPolicy) (tree : FileTree) :
    policy.Edits own shifts base tree (stateAfter (archive base policy.maxArchives) tree) := by
  unfold archive
  by_cases some : policy.maxArchives > 0
  · rw [if_pos some]
    refine stateAfter_bind (policy.Edits own shifts base) RollingPolicy.Edits.trans ?_ ?_
    · exact fun allows => stage_edits base tree (allows.archives _ (policy.stagingPath_mem base some)).1
    intro _ staged _
    refine stateAfter_bind (policy.Edits own shifts base) RollingPolicy.Edits.trans ?_ ?_
    · rw [Files.stateAfter_at]
      exact fun allows => Files.removeIfExists_edits _ staged
        (allows.archives _ (policy.slotPath_mem base some (Nat.le_refl _))).1
    intro _ cleared _
    refine stateAfter_bind (policy.Edits own shifts base) RollingPolicy.Edits.trans (shiftSlots_edits (by omega) cleared) ?_
    intro _ moved _
    rw [Files.stateAfter_at]
    intro allows
    obtain ⟨-, source⟩ := allows.archives _ (policy.stagingPath_mem base some)
    obtain ⟨inside, target⟩ := allows.archives _ (policy.slotPath_mem base Nat.one_pos some)
    exact Files.rename_edits _ _ moved source target inside
  · rw [if_neg some]
    exact RollingPolicy.Edits.refl tree

end Rotation

namespace RotatingSink

def KeepsRest (before after : RotatingSink × FileTree) : Prop :=
  after.1 = { before.1 with handle := after.1.handle, size := after.1.size }

theorem KeepsRest.trans {first second third : RotatingSink × FileTree} (one : KeepsRest first second)
    (two : KeepsRest second third) : KeepsRest first third := by
  unfold KeepsRest
  rw [two, one]

theorem KeepsRest.stopped {before after : RotatingSink × FileTree} (keeps : KeepsRest before after) :
    after.1.stopped = before.1.stopped := by
  rw [keeps]

theorem KeepsRest.path {before after : RotatingSink × FileTree} (keeps : KeepsRest before after) :
    after.1.path = before.1.path := by
  rw [keeps]

theorem KeepsRest.policy {before after : RotatingSink × FileTree} (keeps : KeepsRest before after) :
    after.1.policy = before.1.policy := by
  rw [keeps]

theorem KeepsRest.encode {before after : RotatingSink × FileTree} (keeps : KeepsRest before after) :
    after.1.encode = before.1.encode := by
  rw [keeps]

theorem onFiles_rest {α : Type} (action : SinkFileAction α) (state : RotatingSink × FileTree) :
    KeepsRest state (stateAfter (onFiles action) state) := by
  obtain ⟨sink, files⟩ := state
  simp only [stateAfter, onFiles, KeepsRest]
  cases action files <;> rfl

def Edits (own shifts : Location → Prop) (before after : RotatingSink × FileTree) : Prop :=
  KeepsRest before after ∧ before.1.policy.Edits own shifts before.1.path before.2 after.2

theorem Edits.trans {first second third : RotatingSink × FileTree} (one : Edits own shifts first second)
    (two : Edits own shifts second third) : Edits own shifts first third := by
  refine ⟨one.1.trans two.1, one.2.trans ?_⟩
  have later := two.2
  rwa [one.1.policy, one.1.path] at later

theorem onFiles_edits {α : Type} {action : SinkFileAction α} {state : RotatingSink × FileTree}
    (edits : state.1.policy.Edits own shifts state.1.path state.2 (stateAfter action state.2)) :
    Edits own shifts state (stateAfter (onFiles action) state) := by
  refine ⟨onFiles_rest action state, ?_⟩
  have same : (stateAfter (onFiles action) state).2 = stateAfter action state.2 := by
    simp only [stateAfter, onFiles]
    cases action state.2 <;> rfl
  rwa [same]

theorem update_edits (change : RotatingSink → RotatingSink) (state : RotatingSink × FileTree)
    (rest : KeepsRest state (change state.1, state.2)) : Edits own shifts state (stateAfter (update change) state) :=
  ⟨rest, RollingPolicy.Edits.refl state.2⟩

theorem reopen_edits {α : Type} {next : FileHandle × Nat → Action α} (state : RotatingSink × FileTree)
    (rest : ∀ opened after, Edits own shifts after (stateAfter (next opened) after)) :
    Edits own shifts state (stateAfter (onFiles (Files.touch state.1.path) >>= next) state) := by
  refine stateAfter_bind (Edits own shifts) Edits.trans (onFiles_edits fun allows => ?_) fun opened after _ => rest opened after
  exact Files.touch_edits state.1.path state.2 allows.file

theorem rotate_edits (state : RotatingSink × FileTree) : Edits own shifts state (stateAfter rotate state) := by
  obtain ⟨sink, tree⟩ := state
  unfold rotate
  rw [stateAfter_get]
  refine stateAfter_bind (Edits own shifts) Edits.trans (onFiles_edits (Rotation.archive_edits sink.path sink.policy tree)) ?_
  intro _ archived done
  have path : archived.1.path = sink.path := (stateAfter_of_ok done ▸ onFiles_rest _ (sink, tree)).path
  refine stateAfter_bind (Edits own shifts) Edits.trans (update_edits _ archived rfl) ?_
  rintro _ closed ⟨⟩
  refine stateAfter_bind (Edits own shifts) Edits.trans (onFiles_edits fun allows => ?_) ?_
  · rw [Files.stateAfter_at, ← path]
    exact Files.removeIfExists_edits _ _ allows.file
  intro _ removed gone
  rw [← path, ← (stateAfter_of_ok gone ▸ onFiles_rest _ _ : KeepsRest _ removed).path]
  exact reopen_edits removed fun _ after => update_edits _ after rfl

theorem currentHandle_edits (state : RotatingSink × FileTree) : Edits own shifts state (stateAfter currentHandle state) := by
  unfold currentHandle
  rw [stateAfter_get]
  dsimp only
  cases state.1.handle with
  | some handle => exact update_edits id state rfl
  | none =>
      refine reopen_edits state fun opened after => ?_
      exact stateAfter_bind (Edits own shifts) Edits.trans (update_edits _ after rfl) fun _ last _ =>
        update_edits id last rfl

theorem write_edits (event : Event) (state : RotatingSink × FileTree) :
    Edits own shifts state (stateAfter (write event) state) := by
  obtain ⟨sink, tree⟩ := state
  unfold write
  rw [stateAfter_get]
  dsimp only
  have appended : ∀ state, Edits own shifts state (stateAfter (do
      let handle ← currentHandle
      onFiles ((Files.append handle (sink.encode event)).at sink.path)
      update fun other => { other with size := other.size + (sink.encode event).length }) state) := by
    intro state
    refine stateAfter_bind (Edits own shifts) Edits.trans (currentHandle_edits state) ?_
    intro handle opened _
    refine stateAfter_bind (Edits own shifts) Edits.trans (onFiles_edits fun _ => ?_) ?_
    · rw [Files.stateAfter_at]
      exact Files.append_edits handle _ opened.2
    · exact fun _ written _ => update_edits _ written rfl
  refine stateAfter_ite _ (update_edits id _ rfl) (stateAfter_ite _ ?_ (appended _))
  exact stateAfter_bind (Edits own shifts) Edits.trans (rotate_edits _) fun _ rotated _ => appended rotated

theorem write_rest (event : Event) (state : RotatingSink × FileTree) : KeepsRest state (stateAfter (write event) state) :=
  have edits : Edits Anywhere Anywhere state (stateAfter (write event) state) := write_edits event state
  edits.1

end RotatingSink

theorem Files.touch_numbers (path : String) (tree : FileTree) : tree.KeepsNumbers (stateAfter (touch path) tree) :=
  Edits.numbers (touch_edits path tree trivial : Edits Anywhere Anywhere tree _)

namespace RotatingSink

theorem openAt_numbers (name path : String) (policy : RollingPolicy) (encode : Event → Bytes) (tree : FileTree) :
    tree.KeepsNumbers (stateAfter (openAt name path policy encode) tree) := by
  unfold openAt
  exact stateAfter_bind KeepsNumbers KeepsNumbers.trans (Files.touch_numbers path tree) fun _ after _ =>
    KeepsNumbers.refl after

theorem write_numbers (event : Event) (state : RotatingSink × FileTree) :
    state.2.KeepsNumbers (stateAfter (write event) state).2 :=
  have allows : state.1.policy.Allows Anywhere Anywhere state.2 state.1.path := ⟨trivial, fun _ _ => ⟨trivial, trivial⟩⟩
  FileTree.Edits.numbers ((write_edits event state).2 allows)

end RotatingSink

namespace FileSink

theorem openAt_numbers (name path : String) (encode : Event → Bytes) (tree : FileTree) :
    tree.KeepsNumbers (stateAfter (openAt name path encode) tree) := by
  unfold openAt
  exact stateAfter_bind KeepsNumbers KeepsNumbers.trans (Files.touch_numbers path tree) fun _ after _ =>
    KeepsNumbers.refl after

theorem write_numbers (sink : FileSink) (event : Event) (tree : FileTree) :
    tree.KeepsNumbers (stateAfter (sink.write event) tree) := by
  unfold write
  cases sink.handle with
  | none => exact KeepsNumbers.refl tree
  | some handle =>
      dsimp only
      rw [Files.stateAfter_at]
      exact Edits.numbers (Files.append_edits handle _ tree : Edits Anywhere Anywhere tree _)

end FileSink

end KeyedLog
