import KeyedLog.Proofs.Files.Descent
import KeyedLog.Proofs.Sink.Edits

/-!
What sinks do to the places of files. A rotation renames what stands in the slots of the archives and nothing else, and
a sink opens no file but the one that its path names.
-/

namespace KeyedLog

open FileTree

variable {region : Location → Prop}

namespace Files

theorem touch_descends (path : String) (tree : FileTree) : Descends region tree (stateAfter (touch path) tree) :=
  Edits.descends (touch_edits path tree trivial)

theorem touch_acquires {path : String} {tree after : FileTree} {opened : FileHandle × Nat} (numbered : tree.IsNumbered)
    (done : touch path tree = .ok opened after) :
    Acquires region (tree.place path) opened.1.id tree after := by
  have descends : Descends region tree (stateAfter (touch path) tree) := touch_descends path tree
  have keeps := touch_numbers path tree
  rw [stateAfter_of_ok done] at descends keeps
  obtain ⟨parent, name, content, names, stands⟩ := touch_names done
  have member := mem_of_node? stands
  rw [← names.place, place_congr keeps.home] at member
  have numbers := keeps.numbered numbered
  refine ⟨numbers.given member, fun location other there => numbers.place_unique there member, ?_⟩
  intro old
  obtain ⟨source, before, there, origin⟩ := descends.files _ _ _ member old
  exact ⟨source, before, there, origin⟩

end Files

namespace Rotation

def Covers (region : Location → Prop) (tree : FileTree) (policy : RollingPolicy) (base : String) : Prop :=
  ∀ path ∈ policy.archivePaths base, ∀ location, tree.place path <+: location → region location

theorem Covers.congr {before after : FileTree} {policy : RollingPolicy} {base : String}
    (covers : Covers region before policy base) (home : after.workingDirectory = before.workingDirectory) :
    Covers region after policy base := by
  intro path member location below
  rw [place_congr home] at below
  exact covers path member location below

theorem Covers.allows {policy : RollingPolicy} {base : String} {tree : FileTree} (covers : Covers region tree policy base) :
    policy.Allows Anywhere (Below region) tree base :=
  ⟨trivial, fun archive member => ⟨trivial, covers archive member⟩⟩

end Rotation

namespace RotatingSink

structure IsSited (region : Location → Prop) (state : RotatingSink × FileTree) : Prop where
  numbered : state.2.IsNumbered
  outside : ¬ region (state.2.place state.1.path)
  covers : Rotation.Covers region state.2 state.1.policy state.1.path

/-- Files that were there are renamed in the region only, and a file that the sink has opened is the one that its path
names. -/
structure Moves (region : Location → Prop) (before after : RotatingSink × FileTree) : Prop where
  path : after.1.path = before.1.path
  policy : after.1.policy = before.1.policy
  numbers : before.2.KeepsNumbers after.2
  files : Descends region before.2 after.2
  handle : ∀ handle, after.1.handle = some handle → before.1.handle = some handle ∨
    Acquires region (before.2.place before.1.path) handle.id before.2 after.2

def MovesAt (region : Location → Prop) (path : String) (before after : RotatingSink × FileTree) : Prop :=
  before.1.path = path → IsSited region before → Moves region before after

variable {path : String} {sink : RotatingSink} {tree : FileTree}

theorem IsSited.moves {before after : RotatingSink × FileTree} (sited : IsSited region before)
    (moves : Moves region before after) : IsSited region after := by
  refine ⟨moves.numbers.numbered sited.numbered, ?_, ?_⟩
  · rw [moves.path, place_congr moves.files.home]
    exact sited.outside
  · rw [moves.path, moves.policy]
    exact sited.covers.congr moves.files.home

theorem MovesAt.refl (state : RotatingSink × FileTree) : MovesAt region path state state :=
  fun _ _ => ⟨rfl, rfl, .refl _, .refl _, fun _ same => .inl same⟩

theorem MovesAt.trans {first second third : RotatingSink × FileTree} (one : MovesAt region path first second)
    (two : MovesAt region path second third) : MovesAt region path first third := by
  intro here sited
  have one := one here sited
  have two := two (one.path.trans here) (sited.moves one)
  refine ⟨two.path.trans one.path, two.policy.trans one.policy, one.numbers.trans two.numbers, one.files.trans two.files,
    ?_⟩
  intro handle same
  rcases two.handle handle same with earlier | acquired
  · rcases one.handle handle earlier with start | acquired
    · exact .inl start
    · exact .inr (acquired.later sited.outside two.files)
  · rw [one.path, place_congr one.files.home] at acquired
    exact .inr (acquired.earlier one.files)

theorem MovesAt.at {before after : RotatingSink × FileTree} (own : MovesAt region before.1.path before after)
    (path : String) : MovesAt region path before after :=
  fun _ sited => own rfl sited

theorem stateAfter_onFiles {α : Type} (action : SinkFileAction α) (state : RotatingSink × FileTree) :
    stateAfter (onFiles action) state = (state.1, stateAfter action state.2) := by
  obtain ⟨sink, tree⟩ := state
  simp only [stateAfter, onFiles]
  cases action tree <;> rfl

theorem onFiles_moves {α : Type} {action : SinkFileAction α} {state : RotatingSink × FileTree}
    (edits : IsSited region state → FileTree.Edits Anywhere (Below region) state.2 (stateAfter action state.2)) :
    MovesAt region path state (stateAfter (onFiles action) state) := by
  intro _ sited
  rw [stateAfter_onFiles]
  have edits := edits sited
  exact ⟨rfl, rfl, FileTree.Edits.numbers edits, FileTree.Edits.descends edits, fun _ same => .inl same⟩

theorem update_moves {change : RotatingSink → RotatingSink} (state : RotatingSink × FileTree)
    (path' : (change state.1).path = state.1.path) (policy : (change state.1).policy = state.1.policy)
    (handle : ∀ handle, (change state.1).handle = some handle → state.1.handle = some handle) :
    MovesAt region path state (stateAfter (update change) state) :=
  fun _ _ => ⟨path', policy, .refl _, .refl _, fun other same => .inl (handle other same)⟩

theorem reopen_moves {α : Type} (next : FileHandle × Nat → Action α) (size : Nat → Nat)
    (rest : ∀ opened state, stateAfter (next opened) state =
      ({ state.1 with handle := some opened.1, size := size opened.2 }, state.2))
    (state : RotatingSink × FileTree) :
    MovesAt region path state (stateAfter (onFiles (Files.touch path) >>= next) state) := by
  rintro rfl sited
  obtain ⟨sink, tree⟩ := state
  have numbers := Files.touch_numbers sink.path tree
  have files : Descends region tree (stateAfter (Files.touch sink.path) tree) := Files.touch_descends sink.path tree
  cases touched : Files.touch sink.path tree with
  | error fault after =>
      rw [stateAfter_of_error touched] at numbers files
      have failed : onFiles (Files.touch sink.path) (sink, tree) = .error fault (sink, after) := by rw [onFiles, touched]
      rw [stateAfter_of_error (bind_of_error failed)]
      exact ⟨rfl, rfl, numbers, files, fun _ same => .inl same⟩
  | ok opened after =>
      rw [stateAfter_of_ok touched] at numbers files
      have done : onFiles (Files.touch sink.path) (sink, tree) = .ok opened (sink, after) := by rw [onFiles, touched]
      rw [stateAfter, bind_of_ok done, ← stateAfter, rest]
      refine ⟨rfl, rfl, numbers, files, ?_⟩
      intro handle same
      cases same
      exact .inr (Files.touch_acquires sited.numbered touched)

theorem rotate_moves (state : RotatingSink × FileTree) : MovesAt region state.1.path state (stateAfter rotate state) := by
  obtain ⟨sink, tree⟩ := state
  unfold rotate
  rw [stateAfter_get]
  refine stateAfter_bind (MovesAt region sink.path) MovesAt.trans
    (onFiles_moves fun sited => Rotation.archive_edits _ _ tree sited.covers.allows) ?_
  intro _ archived _
  refine stateAfter_bind (MovesAt region sink.path) MovesAt.trans (update_moves archived rfl rfl (by simp)) ?_
  intro _ closed _
  refine stateAfter_bind (MovesAt region sink.path) MovesAt.trans
    (onFiles_moves fun _ => ?_) ?_
  · rw [Files.stateAfter_at]
    exact Files.removeIfExists_edits _ closed.2 trivial
  intro _ removed _
  exact reopen_moves _ (fun _ => 0) (fun _ _ => rfl) removed

theorem currentHandle_moves (state : RotatingSink × FileTree) :
    MovesAt region state.1.path state (stateAfter currentHandle state) := by
  unfold currentHandle
  rw [stateAfter_get]
  dsimp only
  cases state.1.handle with
  | some handle => exact MovesAt.refl state
  | none => exact reopen_moves _ (fun size => size) (fun _ _ => rfl) state

theorem write_moves (event : Event) (state : RotatingSink × FileTree) :
    MovesAt region state.1.path state (stateAfter (write event) state) := by
  obtain ⟨sink, tree⟩ := state
  unfold write
  rw [stateAfter_get]
  dsimp only
  have appended : ∀ state, MovesAt region sink.path state (stateAfter (do
      let handle ← currentHandle
      onFiles ((Files.append handle (sink.encode event)).at sink.path)
      update fun other => { other with size := other.size + (sink.encode event).length }) state) := by
    intro state
    refine stateAfter_bind (MovesAt region sink.path) MovesAt.trans ((currentHandle_moves state).at sink.path) ?_
    intro handle opened _
    refine stateAfter_bind (MovesAt region sink.path) MovesAt.trans
      (onFiles_moves fun _ => ?_) ?_
    · rw [Files.stateAfter_at]
      exact Files.append_edits handle _ opened.2
    · exact fun _ written _ => update_moves written rfl rfl fun _ same => same
  refine stateAfter_ite _ (MovesAt.refl _) (stateAfter_ite _ ?_ (appended _))
  exact stateAfter_bind (MovesAt region sink.path) MovesAt.trans (rotate_moves _) fun _ rotated _ => appended rotated

end RotatingSink

namespace FileSink

theorem write_descends (sink : FileSink) (event : Event) (tree : FileTree) :
    Descends region tree (stateAfter (sink.write event) tree) := by
  unfold write
  cases sink.handle with
  | none => exact Descends.refl tree
  | some handle =>
      dsimp only
      rw [Files.stateAfter_at]
      exact FileTree.Edits.descends (Files.append_edits handle _ tree)

end FileSink

end KeyedLog
