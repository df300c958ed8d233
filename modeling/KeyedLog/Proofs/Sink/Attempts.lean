import KeyedLog.Proofs.Sink.Turns

/-!
Attempts to write to a file that rotates. Whether an attempt succeeds, fails or breaks off in the middle of a rotation, all
that was accepted before is kept but for what the rotation evicts; after a success the new event is kept, too.
-/

namespace KeyedLog

namespace RotatingSink

variable {site : Site} {origin : FileTree} {model : RotatingSink} {accepted : List (Nat × Event)} {turns waiting : Nat}
  {also : Shelves → RotatingSink × FileTree → Prop} {before after : RotatingSink × FileTree → Prop}

def InTurn (site : Site) (model : RotatingSink) (home : Location) (accepted : List (Nat × Event)) (turns waiting : Nat)
    (also : Shelves → RotatingSink × FileTree → Prop) (state : RotatingSink × FileTree) : Prop :=
  ∃ evicted shelves, site.Bears model home shelves state ∧
    Shelved model.policy.maxArchives turns waiting accepted evicted shelves ∧ also shelves state

def Kept (site : Site) (model : RotatingSink) (home : Location) (accepted : List (Nat × Event)) (turns : Nat) :
    RotatingSink × FileTree → Prop :=
  InTurn site model home accepted turns 0 fun _ _ => True

abbrev Harmless (site : Site) (model : RotatingSink) : FileTree → FileTree → Prop :=
  FileTree.Retains site.path (model.policy.slotPaths site.path)

def IsStaged (site : Site) (model : RotatingSink) (shelves : Shelves) (state : RotatingSink × FileTree) : Prop :=
  shelves 0 ≠ [] → ∃ id content, state.2.node? site.staging = some (.file id (Gzip.encode content)) ∧
    Laid ((shelves 0).map fun entry => model.encode entry.2) content

/-- Nothing is on this shelf any more, or else the directory of the file is not found, so that nothing more is moved. -/
def IsFree (site : Site) (number : Nat) (shelves : Shelves) (state : RotatingSink × FileTree) : Prop :=
  shelves number = [] ∨ ¬state.2.Leads site.parentPath site.directory

theorem InTurn.kept {home : Location} {state : RotatingSink × FileTree}
    (inTurn : InTurn site model home accepted turns waiting also state) : Kept site model home accepted turns state := by
  obtain ⟨evicted, shelves, bears, shelved, -⟩ := inTurn
  exact ⟨evicted, shelves, bears, shelved.mono (Nat.zero_le _), trivial⟩

theorem Kept.model_eq {home : Location} {sink : RotatingSink} {tree : FileTree}
    (kept : Kept site model home accepted turns (sink, tree)) :
    sink = { model with handle := sink.handle, size := sink.size } := by
  obtain ⟨evicted, shelves, bears, -⟩ := kept
  exact bears.sink

theorem Kept.retains (stands : site.IsIn origin) (proper : site.IsProper) {sink : RotatingSink} {before after : FileTree}
    (kept : Kept site model origin.workingDirectory accepted turns (sink, before))
    (retains : Harmless site model before after) :
    Kept site model origin.workingDirectory accepted turns (sink, after) := by
  obtain ⟨evicted, shelves, bears, shelved, -⟩ := kept
  exact ⟨evicted, shelves, bears.retains stands proper retains, shelved, trivial⟩

theorem secures_onFiles (stands : site.IsIn origin) (proper : site.IsProper) {action : SinkFileAction Unit}
    (weakens : ∀ state, before state → Kept site model origin.workingDirectory accepted turns state)
    (succeeds : ∀ sink tree final, before (sink, tree) → action tree = .ok () final → after (sink, final))
    (fails : ∀ sink tree fault final, before (sink, tree) → action tree = .error fault final →
      Harmless site model tree final) :
    Secures (Harmless site model) (Kept site model origin.workingDirectory accepted turns) before [onFiles action]
      after := by
  refine Secures.step (fun sink before after => Kept.retains stands proper) weakens ?_ ?_
  · rintro ⟨sink, tree⟩ final holds done
    cases result : action tree with
    | ok value last =>
        cases (onFiles_of_ok result sink).symm.trans done
        exact succeeds sink tree last holds result
    | error fault last => cases (onFiles_of_error result sink).symm.trans done
  · rintro ⟨sink, tree⟩ fault final holds failed
    cases result : action tree with
    | ok value last => cases (onFiles_of_ok result sink).symm.trans failed
    | error cause last =>
        cases (onFiles_of_error result sink).symm.trans failed
        exact ⟨rfl, fails sink tree fault last holds result⟩

theorem harmless_refl (tree : FileTree) : Harmless site model tree tree :=
  FileTree.retains_of_guards (.refl tree : FileTree.Guards FileTree.Anywhere tree tree) trivial fun _ _ => trivial

theorem harmless_touch {tree final : FileTree} {fault : SinkFault}
    (failed : Files.touch site.path tree = .error fault final) : Harmless site model tree final := by
  have guards : FileTree.Guards FileTree.Anywhere tree (stateAfter (Files.touch site.path) tree) :=
    Files.touch_guards site.path tree
  rw [stateAfter_of_error failed] at guards
  exact FileTree.retains_of_guards guards trivial fun _ _ => trivial

theorem harmless_removal {path : String} {tree final : FileTree} {fault : SinkFault}
    (failed : ((Files.removeIfExists path).at path) tree = .error fault final) : Harmless site model tree final := by
  rcases Files.removeIfExists_outcome path tree with ⟨cause, result⟩ | ⟨last, removed, -⟩
  · cases (Files.at_of_error result path).symm.trans failed
    exact harmless_refl tree
  · cases (Files.at_of_ok removed path).symm.trans failed

theorem guards_removal {path : String} {tree final : FileTree}
    (done : ((Files.removeIfExists path).at path) tree = .ok () final) :
    FileTree.Guards (· ≠ tree.place path) tree final := by
  rcases Files.removeIfExists_outcome path tree with ⟨fault, failed⟩ | ⟨last, removed, guards⟩
  · cases (Files.at_of_error failed path).symm.trans done
  · cases (Files.at_of_ok removed path).symm.trans done
    exact guards

theorem harmless_rename {source target : String} {tree final : FileTree} {fault : SinkFault}
    (failed : ((Files.rename source target).at source) tree = .error fault final) : Harmless site model tree final := by
  rcases Files.rename_outcome source target tree with ⟨cause, result⟩ | ⟨-, -, ⟨-, moved⟩ | moved⟩
  · cases (Files.at_of_error result source).symm.trans failed
    exact harmless_refl tree
  · cases (Files.at_of_ok moved source).symm.trans failed
  · cases (Files.at_of_ok moved source).symm.trans failed

theorem moved_of_rename {source target : String} {tree final : FileTree}
    (done : ((Files.rename source target).at source) tree = .ok () final) (apart : tree.place source ≠ tree.place target) :
    Files.Reaches tree source ∧ Files.Reaches tree target ∧
      final = (tree.detach (tree.place target)).move (tree.place source) (tree.place target) := by
  rcases Files.rename_outcome source target tree with ⟨fault, failed⟩ | ⟨reaches, reachesGoal, ⟨same, -⟩ | moved⟩
  · cases (Files.at_of_error failed source).symm.trans done
  · exact absurd same apart
  · cases (Files.at_of_ok moved source).symm.trans done
    exact ⟨reaches, reachesGoal, rfl⟩

theorem IsFree.of_missing {home : Location} {shelves : Shelves} {sink : RotatingSink} {tree : FileTree} {number : Nat}
    (proper : site.IsProper) (bears : site.Bears model home shelves (sink, tree)) (positive : 0 < number)
    (inside : number ≤ model.policy.maxArchives) (missing : ¬tree.holds (Archive.slotPath site.path number) = true) :
    IsFree site number shelves (sink, tree) := by
  by_contra busy
  obtain ⟨some, found⟩ := not_or.mp busy
  have leads := not_not.mp found
  have fits := bears.fits number inside positive some
  have names := leads.names (Archive.isName_slotName proper.named number) fits.1 fits.2
  obtain ⟨id, content, there, -⟩ := bears.shelved number inside some
  obtain ⟨count, rfl⟩ := Nat.exists_eq_succ_of_ne_zero (Nat.ne_of_gt positive)
  refine missing ?_
  rw [proper.slots, Files.holds_eq names]
  exact Option.isSome_iff_exists.mpr ⟨_, there⟩

section Rotation

variable (accepted turns) (stands : site.IsIn origin) (proper : site.IsProper)

include stands proper

theorem secures_stage :
    Secures (Harmless site model) (Kept site model origin.workingDirectory accepted turns)
      (Kept site model origin.workingDirectory accepted turns) [onFiles (Rotation.stage site.path)]
      (InTurn site model origin.workingDirectory accepted turns 0 (IsStaged site model)) := by
  refine secures_onFiles stands proper (fun _ kept => kept) ?_ ?_
  · rintro sink tree final ⟨evicted, shelves, bears, shelved, -⟩ done
    obtain ⟨base, -, staging⟩ := stands.place_spot proper bears.home 0
    rcases Rotation.stage_outcome site.path bears.numbered with
      ⟨fault, last, failed, -⟩ | ⟨last, id, number, content, staged, guards, there, copy⟩
    · cases failed.symm.trans done
    · cases staged.symm.trans done
      dsimp only at base staging there copy guards
      rw [base] at there
      rw [staging] at copy guards
      refine ⟨evicted, shelves, bears.guards guards (fun number _ _ => ⟨site.spot_ne_staging number, rfl⟩)
        (.inr (site.spot_ne_staging 0)), shelved, fun some => ?_⟩
      obtain ⟨held, old, same, laid⟩ := bears.shelved 0 (Nat.zero_le _) some
      obtain ⟨rfl, rfl⟩ := FileNode.file.inj (Option.some.inj (there.symm.trans same))
      exact ⟨number, content, copy, laid⟩
  · rintro sink tree fault final ⟨evicted, shelves, bears, shelved, -⟩ failed
    -- All that a failed compression may have changed is the staging file, which is neither the file nor an archive.
    have places := stands.place_spot proper bears.home
    rcases Rotation.stage_outcome site.path bears.numbered with
      ⟨cause, last, result, guards⟩ | ⟨last, id, number, content, staged, -⟩
    · cases result.symm.trans failed
      dsimp only at places guards
      rw [(places 0).2.2] at guards
      refine FileTree.retains_of_guards guards ?_ fun archive member => ?_
      · rw [(places 0).1]
        exact site.spot_ne_staging 0
      · obtain ⟨slot, -, rfl⟩ := List.mem_map.mp member
        rw [(places (slot + 1)).2.1]
        exact site.spot_ne_staging (slot + 1)
    · cases staged.symm.trans failed

theorem secures_eviction (some : 0 < model.policy.maxArchives) :
    Secures (Harmless site model) (Kept site model origin.workingDirectory accepted turns)
      (InTurn site model origin.workingDirectory accepted turns 0 (IsStaged site model))
      [onFiles ((Files.removeIfExists (Archive.slotPath site.path model.policy.maxArchives)).at
        (Archive.slotPath site.path model.policy.maxArchives))]
      (InTurn site model origin.workingDirectory accepted (turns + 1) (model.policy.maxArchives + 1) fun shelves state =>
        IsStaged site model shelves state ∧ IsFree site model.policy.maxArchives shelves state) := by
  refine secures_onFiles stands proper (fun _ inTurn => inTurn.kept) ?_
    fun sink tree fault final _ failed => harmless_removal failed
  rintro sink tree final ⟨evicted, shelves, bears, shelved, staged⟩ done
  have guards := guards_removal done
  rw [(stands.place_spot proper bears.home model.policy.maxArchives).2.1] at guards
  have lowest : shelves.clear model.policy.maxArchives 0 = shelves 0 := Shelves.clear_of_ne (Nat.ne_of_lt some)
  refine ⟨_, shelves.clear model.policy.maxArchives,
    bears.guards guards (fun number _ kept => ?_) (.inr (site.spot_ne_slot (Nat.ne_of_lt some))),
    shelved.begin.evict (Nat.lt_succ_self _), fun kept => ?_, .inl (Shelves.clear_self ..)⟩
  · have different : number ≠ model.policy.maxArchives := by
      rintro rfl
      exact kept (Shelves.clear_self ..)
    exact ⟨site.spot_ne_slot different, Shelves.clear_of_ne different⟩
  · rw [lowest] at kept ⊢
    obtain ⟨id, content, copy, laid⟩ := staged kept
    exact ⟨id, content, guards.files _ _ _ (site.staging_ne_slot _) copy, laid⟩

theorem inTurn_of_shift {number : Nat} (positive : 0 < number) (inside : number < model.policy.maxArchives)
    {sink : RotatingSink} {tree final : FileTree}
    (inTurn : InTurn site model origin.workingDirectory accepted turns (number + 2) (fun shelves state =>
      IsStaged site model shelves state ∧ IsFree site (number + 1) shelves state) (sink, tree))
    (done : (Files.rename (Archive.slotPath site.path number) (Archive.slotPath site.path (number + 1))).at
      (Archive.slotPath site.path number) tree = .ok () final) :
    InTurn site model origin.workingDirectory accepted turns (number + 1) (fun shelves state =>
      IsStaged site model shelves state ∧ IsFree site number shelves state) (sink, final) := by
  obtain ⟨evicted, shelves, bears, shelved, staged, free⟩ := inTurn
  have named (number : Nat) := Archive.isName_slotName proper.named number
  have place (number : Nat) := (stands.place_spot proper bears.home number).2.1
  dsimp only at place
  have apart : tree.place (Archive.slotPath site.path number) ≠ tree.place (Archive.slotPath site.path (number + 1)) := by
    rw [place, place]
    exact fun same => absurd (site.slot_injective same) (by omega)
  obtain ⟨reaches, reachesGoal, rfl⟩ := moved_of_rename done apart
  rw [place, place]
  rw [proper.slots] at reaches reachesGoal
  obtain ⟨-, leads⟩ := stands.fits_of_reaches bears.home (named number) reaches
  obtain ⟨fits, -⟩ := stands.fits_of_reaches bears.home (named (number + 1)) reachesGoal
  -- The directory is found, so the shelf above is empty, and nothing is lost by the move.
  have above : shelves (number + 1) = [] := free.resolve_right fun lost => lost leads
  have lowest : shelves.raise number 0 = shelves 0 := Shelves.raise_of_ne (by omega) (by omega)
  refine ⟨evicted, shelves.raise number, bears.raise (by simp [Site.slot]) (fun other => site.slot_not_prefix_spot)
    (site.slot_not_prefix_base number) fits (fun some => ?_), shelved.raise above inside (by omega), fun some => ?_,
    .inl (Shelves.raise_self ..)⟩
  · obtain ⟨id, content, there, laid⟩ := bears.shelved number (Nat.le_of_lt inside) some
    obtain ⟨count, rfl⟩ := Nat.exists_eq_succ_of_ne_zero (Nat.ne_of_gt positive)
    exact ⟨id, content, there, laid⟩
  · rw [lowest] at some ⊢
    obtain ⟨id, content, copy, laid⟩ := staged some
    exact ⟨id, content, (FileTree.node?_moved_other (by simp [Site.slot]) (site.slot_not_prefix_staging _)
      (site.slot_not_prefix_staging _)).trans copy, laid⟩

theorem secures_shift {number : Nat} (positive : 0 < number) (inside : number < model.policy.maxArchives) :
    Secures (Harmless site model) (Kept site model origin.workingDirectory accepted turns)
      (InTurn site model origin.workingDirectory accepted turns (number + 2) fun shelves state =>
        IsStaged site model shelves state ∧ IsFree site (number + 1) shelves state)
      [onFiles (Rotation.shiftSlot site.path number)]
      (InTurn site model origin.workingDirectory accepted turns (number + 1) fun shelves state =>
        IsStaged site model shelves state ∧ IsFree site number shelves state) := by
  have unfolded : ∀ tree, Rotation.shiftSlot site.path number tree =
      (if tree.holds (Archive.slotPath site.path number) = true then
        (Files.rename (Archive.slotPath site.path number) (Archive.slotPath site.path (number + 1))).at
          (Archive.slotPath site.path number)
      else pure ()) tree := fun _ => rfl
  refine secures_onFiles stands proper (fun _ inTurn => inTurn.kept) ?_ ?_
  · rintro sink tree final inTurn done
    rw [unfolded] at done
    split at done
    next => exact inTurn_of_shift accepted turns stands proper positive inside inTurn done
    next missing =>
      cases done
      obtain ⟨evicted, shelves, bears, shelved, staged, -⟩ := inTurn
      exact ⟨evicted, shelves, bears, shelved.mono (by omega), staged,
        .of_missing proper bears positive (Nat.le_of_lt inside) missing⟩
  · rintro sink tree fault final - failed
    rw [unfolded] at failed
    split at failed
    next => exact harmless_rename failed
    next => cases failed

theorem secures_shifting {count : Nat} (inside : count < model.policy.maxArchives) :
    Secures (Harmless site model) (Kept site model origin.workingDirectory accepted turns)
      (InTurn site model origin.workingDirectory accepted turns (count + 2) fun shelves state =>
        IsStaged site model shelves state ∧ IsFree site (count + 1) shelves state)
      (shifting site.path count)
      (InTurn site model origin.workingDirectory accepted turns 2 fun shelves state =>
        IsStaged site model shelves state ∧ IsFree site 1 shelves state) := by
  induction count with
  | zero => exact Secures.nil fun _ holds => holds
  | succ count ih =>
      exact (secures_shift accepted turns stands proper (Nat.succ_pos count) inside).append (ih (Nat.lt_of_succ_lt inside))

theorem secures_promotion (some : 0 < model.policy.maxArchives) :
    Secures (Harmless site model) (Kept site model origin.workingDirectory accepted turns)
      (InTurn site model origin.workingDirectory accepted turns 2 fun shelves state =>
        IsStaged site model shelves state ∧ IsFree site 1 shelves state)
      [promotion site.path]
      (InTurn site model origin.workingDirectory accepted turns 1 fun shelves _ => shelves 0 = []) := by
  refine secures_onFiles stands proper (fun _ inTurn => inTurn.kept) ?_
    fun sink tree fault final _ failed => harmless_rename failed
  rintro sink tree final ⟨evicted, shelves, bears, shelved, staged, free⟩ done
  obtain ⟨-, goal, source⟩ := stands.place_spot proper bears.home 1
  dsimp only at goal source
  have apart : tree.place (Archive.stagingPath site.path) ≠ tree.place (Archive.slotPath site.path 1) := by
    rw [goal, source]
    exact site.staging_ne_slot 1
  obtain ⟨-, reaches, rfl⟩ := moved_of_rename done apart
  rw [goal, source]
  rw [proper.slots] at reaches
  obtain ⟨fits, leads⟩ := stands.fits_of_reaches bears.home (Archive.isName_slotName proper.named 1) reaches
  have above : shelves 1 = [] := free.resolve_right fun lost => lost leads
  exact ⟨evicted, shelves.raise 0, bears.raise (by simp [Site.staging])
    (fun other _ => site.staging_not_prefix_spot other) (site.staging_not_prefix_spot 0) fits staged,
    shelved.raise above some (by omega), Shelves.raise_self ..⟩

theorem bears_touched {sink : RotatingSink} {tree final : FileTree} {opened : FileHandle × Nat} {shelves : Shelves}
    (bears : site.Bears model origin.workingDirectory shelves (sink, tree))
    (touched : Files.touch site.path tree = .ok opened final) (size : Nat) :
    site.Bears model origin.workingDirectory shelves ({ sink with handle := some opened.1, size }, final) := by
  have guards : FileTree.Guards FileTree.Anywhere tree (stateAfter (Files.touch site.path) tree) :=
    Files.touch_guards site.path tree
  rw [stateAfter_of_ok touched] at guards
  have kept := bears.guards guards (fun _ _ _ => ⟨trivial, rfl⟩) (.inr trivial)
  refine kept.withHandle size fun handle same => ?_
  cases same
  obtain ⟨content, there⟩ := Files.touch_stands touched
  rw [(stands.place_spot proper bears.home 0).1] at there
  exact ⟨content, there⟩

theorem secures_closing (given : Shelves → Prop) :
    Secures (Harmless site model) (Kept site model origin.workingDirectory accepted turns)
      (InTurn site model origin.workingDirectory accepted turns waiting fun shelves _ => given shelves)
      [update ({ · with handle := none })]
      (InTurn site model origin.workingDirectory accepted turns waiting fun shelves state =>
        given shelves ∧ state.1.handle = none) := by
  refine Secures.step (fun sink before after => Kept.retains stands proper) (fun _ inTurn => inTurn.kept) ?_ ?_
  · rintro ⟨sink, tree⟩ final ⟨evicted, shelves, bears, shelved, done⟩ updated
    cases updated
    exact ⟨evicted, shelves, bears.withHandle sink.size nofun, shelved, done, rfl⟩
  · rintro ⟨sink, tree⟩ fault final - failed
    cases failed

theorem secures_removal :
    Secures (Harmless site model) (Kept site model origin.workingDirectory accepted turns)
      (InTurn site model origin.workingDirectory accepted turns waiting fun shelves state =>
        shelves 0 = [] ∧ state.1.handle = none)
      [onFiles ((Files.removeIfExists site.path).at site.path)]
      (Kept site model origin.workingDirectory accepted turns) := by
  refine secures_onFiles stands proper (fun _ inTurn => inTurn.kept) ?_
    fun sink tree fault final _ failed => harmless_removal failed
  rintro sink tree final ⟨evicted, shelves, bears, shelved, empty, closed⟩ done
  have guards := guards_removal done
  rw [(stands.place_spot proper bears.home 0).1] at guards
  refine ⟨evicted, shelves, bears.guards guards (fun number _ some => ⟨?_, rfl⟩) (.inl closed),
    shelved.mono (Nat.zero_le _), trivial⟩
  cases number with
  | zero => exact absurd empty some
  | succ number => exact site.slot_ne_base _

theorem secures_discarding (zero : model.policy.maxArchives = 0) :
    Secures (Harmless site model) (Kept site model origin.workingDirectory accepted turns)
      (InTurn site model origin.workingDirectory accepted turns 0 fun _ state => True ∧ state.1.handle = none)
      [onFiles ((Files.removeIfExists site.path).at site.path)]
      (Kept site model origin.workingDirectory accepted (turns + 1)) := by
  refine secures_onFiles stands proper (fun _ inTurn => inTurn.kept) ?_
    fun sink tree fault final _ failed => harmless_removal failed
  rintro sink tree final ⟨evicted, shelves, bears, shelved, -, closed⟩ done
  have guards := guards_removal done
  rw [(stands.place_spot proper bears.home 0).1] at guards
  refine ⟨_, shelves.clear model.policy.maxArchives,
    bears.guards guards (fun number bound some => ?_) (.inl closed),
    (shelved.begin.evict (Nat.lt_succ_self _)).mono (Nat.zero_le _), trivial⟩
  obtain rfl : number = model.policy.maxArchives := by omega
  exact absurd (Shelves.clear_self ..) some

theorem secures_reopening :
    Secures (Harmless site model) (Kept site model origin.workingDirectory accepted turns)
      (Kept site model origin.workingDirectory accepted turns) [reopening site.path]
      (Kept site model origin.workingDirectory accepted turns) := by
  refine Secures.step (fun sink before after => Kept.retains stands proper) (fun _ kept => kept) ?_ ?_
  · rintro ⟨sink, tree⟩ final ⟨evicted, shelves, bears, shelved, -⟩ done
    cases touched : Files.touch site.path tree with
    | error fault last => cases (bind_of_error (onFiles_of_error touched sink)).symm.trans done
    | ok opened last =>
        cases (bind_of_ok (onFiles_of_ok touched sink)).symm.trans done
        exact ⟨evicted, shelves, bears_touched stands proper bears touched 0, shelved, trivial⟩
  · rintro ⟨sink, tree⟩ fault final - failed
    cases touched : Files.touch site.path tree with
    | error cause last =>
        cases (bind_of_error (onFiles_of_error touched sink)).symm.trans failed
        exact ⟨rfl, harmless_touch touched⟩
    | ok opened last => cases (bind_of_ok (onFiles_of_ok touched sink)).symm.trans failed

theorem secures_renewal :
    Secures (Harmless site model) (Kept site model origin.workingDirectory accepted turns)
      (InTurn site model origin.workingDirectory accepted turns waiting fun shelves _ => shelves 0 = [])
      (renewal site.path) (Kept site model origin.workingDirectory accepted turns) :=
  (secures_closing accepted turns stands proper (· 0 = [])).append
    ((secures_removal accepted turns stands proper).append (secures_reopening accepted turns stands proper))

theorem secures_rotation :
    ∃ between, Secures (Harmless site model) (Kept site model origin.workingDirectory accepted turns)
        (Kept site model origin.workingDirectory accepted turns) (onset site.path model.policy.maxArchives) between ∧
      Secures (Harmless site model) (Kept site model origin.workingDirectory accepted (turns + 1)) between
        (completion site.path model.policy.maxArchives)
        (Kept site model origin.workingDirectory accepted (turns + 1)) := by
  unfold onset completion
  rcases Nat.eq_zero_or_pos model.policy.maxArchives with zero | some
  · rw [if_neg (Nat.not_lt_of_le (Nat.le_of_eq zero)), if_neg (Nat.not_lt_of_le (Nat.le_of_eq zero))]
    exact ⟨_, (secures_closing accepted turns stands proper fun _ => True).append
      (secures_discarding accepted turns stands proper zero), secures_reopening accepted (turns + 1) stands proper⟩
  · have below : model.policy.maxArchives - 1 + 1 = model.policy.maxArchives := Nat.sub_add_cancel some
    have shifted := secures_shifting accepted (turns + 1) stands proper (Nat.sub_lt some Nat.one_pos)
    rw [show model.policy.maxArchives - 1 + 2 = model.policy.maxArchives + 1 by omega, below] at shifted
    rw [if_pos some, if_pos some]
    exact ⟨_, (secures_stage accepted turns stands proper).append (secures_eviction accepted turns stands proper some),
      (shifted.append (secures_promotion accepted (turns + 1) stands proper some)).append
        (secures_renewal accepted (turns + 1) stands proper)⟩

theorem secures_resumption (path : model.path = site.path) :
    Secures (Harmless site model) (Kept site model origin.workingDirectory accepted turns)
      (Kept site model origin.workingDirectory accepted turns) [resumption]
      fun state => Kept site model origin.workingDirectory accepted turns state ∧ state.1.handle ≠ none := by
  refine Secures.step (fun sink before after => Kept.retains stands proper) (fun _ kept => kept) ?_ ?_
  · rintro ⟨sink, tree⟩ final ⟨evicted, shelves, bears, shelved, -⟩ done
    have same : sink.path = site.path := (congrArg (·.path) bears.sink).trans path
    cases handle : sink.handle with
    | some held =>
        cases (bind_of_ok (currentHandle_of_some handle tree)).symm.trans done
        exact ⟨⟨evicted, shelves, bears, shelved, trivial⟩, by rw [handle]; nofun⟩
    | none =>
        cases touched : Files.touch sink.path tree with
        | error fault last => cases (bind_of_error (currentHandle_of_error handle touched)).symm.trans done
        | ok opened last =>
            cases (bind_of_ok (currentHandle_of_touched handle touched)).symm.trans done
            rw [same] at touched
            exact ⟨⟨evicted, shelves, bears_touched stands proper bears touched opened.2, shelved, trivial⟩, nofun⟩
  · rintro ⟨sink, tree⟩ fault final ⟨evicted, shelves, bears, shelved, -⟩ failed
    have same : sink.path = site.path := (congrArg (·.path) bears.sink).trans path
    cases handle : sink.handle with
    | some held => cases (bind_of_ok (currentHandle_of_some handle tree)).symm.trans failed
    | none =>
        cases touched : Files.touch sink.path tree with
        | error cause last =>
            cases (bind_of_error (currentHandle_of_error handle touched)).symm.trans failed
            rw [same] at touched
            exact ⟨rfl, harmless_touch touched⟩
        | ok opened last => cases (bind_of_ok (currentHandle_of_touched handle touched)).symm.trans failed

theorem secures_entry (event : Event) :
    Secures (Harmless site model) (Kept site model origin.workingDirectory accepted turns)
      (fun state => Kept site model origin.workingDirectory accepted turns state ∧ state.1.handle ≠ none)
      [entry site.path (model.encode event)]
      (Kept site model origin.workingDirectory (accepted ++ [(turns, event)]) turns) := by
  refine Secures.step (fun sink before after => Kept.retains stands proper) (fun _ kept => kept.1) ?_ ?_
  · rintro ⟨sink, tree⟩ final ⟨⟨evicted, shelves, bears, shelved, -⟩, opened⟩ done
    obtain ⟨handle, same⟩ := Option.ne_none_iff_exists'.mp opened
    cases (bind_of_ok (currentHandle_of_some same tree)).symm.trans done
    exact ⟨evicted, _, bears.add same turns _ event, shelved.add event, trivial⟩
  · rintro ⟨sink, tree⟩ fault final ⟨-, opened⟩ failed
    obtain ⟨handle, same⟩ := Option.ne_none_iff_exists'.mp opened
    cases (bind_of_ok (currentHandle_of_some same tree)).symm.trans failed

/-- One attempt, whether it succeeds, fails or breaks off. Only a rotation of which the onset succeeds begins a new turn. -/
theorem attempt_outcome {sink : RotatingSink} {tree : FileTree}
    (kept : Kept site model origin.workingDirectory accepted turns (sink, tree)) (path : model.path = site.path)
    (event : Event) :
    (∀ final, perform (sink.steps event) (sink, tree) = .ok () final →
      Kept site model origin.workingDirectory (accepted ++ [(turns + (sink.evicts event tree).toNat, event)])
        (turns + (sink.evicts event tree).toNat) final) ∧
    (∀ fault final, perform (sink.steps event) (sink, tree) = .error fault final →
      Kept site model origin.workingDirectory accepted (turns + (sink.evicts event tree).toNat) final) ∧
    ∀ count final, Breaks (Harmless site model) (sink.steps event) count (sink, tree) final →
      Kept site model origin.workingDirectory accepted (turns + (sink.evictsWithin event count).toNat) final := by
  have entered (now : Nat) := (secures_resumption accepted now stands proper path).append
    (secures_entry accepted now stands proper event)
  have samePath : sink.path = site.path := (congrArg (·.path) kept.model_eq).trans path
  have samePolicy : sink.policy = model.policy := congrArg (·.policy) kept.model_eq
  have sameEncoding : sink.encode = model.encode := congrArg (·.encode) kept.model_eq
  unfold steps evicts evictsWithin
  rw [samePath, samePolicy, sameEncoding]
  -- Without a rotation there is only the entry; with one it depends on how far it came in which turn the event is.
  cases sink.mustRotate (model.encode event).length with
  | false => exact entered turns _ kept
  | true =>
      obtain ⟨between, onset, completion⟩ := secures_rotation accepted turns stands proper
      obtain ⟨reaches, fails, breaks⟩ := onset.split (completion.append (entered (turns + 1))) kept
      simp only [if_true, List.append_assoc, Bool.true_and] at reaches fails breaks ⊢
      refine ⟨fun final done => ?_, fun fault final failed => ?_, fun count final broken => ?_⟩
      · obtain ⟨taken, holds⟩ := reaches final done
        rw [taken]
        exact holds
      · have holds := fails fault final failed
        split at holds
        next taken => rwa [taken]
        next untaken => rwa [Bool.eq_false_iff.mpr untaken]
      · have holds := breaks count final broken
        split at holds
        next beyond => rwa [decide_eq_true beyond]
        next inside => rwa [decide_eq_false inside]

end Rotation

end RotatingSink

end KeyedLog
