import KeyedLog.Proofs.Files.Appending
import KeyedLog.Proofs.Sink.Edits
import KeyedLog.Proofs.Sink.Retention

/-!
How operations on files end, in any tree. One that fails has done nothing, or has made directories and files where nothing
was; one that succeeds leaves all files alone but those at the places that its paths name.
-/

namespace KeyedLog

namespace FileTree

variable {tree : FileTree} {source goal location : Location} {id : FileId} {content : Bytes}

/-- Files at these places are where they were, and hold what they held. -/
structure Guards (guarded : Location → Prop) (before after : FileTree) : Prop where
  home : after.workingDirectory = before.workingDirectory
  numbered : before.IsNumbered → after.IsNumbered
  files : ∀ location id content, guarded location → before.node? location = some (.file id content) →
    after.node? location = some (.file id content)

variable {guarded fewer : Location → Prop}

theorem Guards.refl (tree : FileTree) : Guards guarded tree tree :=
  ⟨rfl, fun numbered => numbered, fun _ _ _ _ stands => stands⟩

theorem Guards.trans {first second third : FileTree} (one : Guards guarded first second)
    (two : Guards guarded second third) : Guards guarded first third :=
  ⟨two.home.trans one.home, fun numbered => two.numbered (one.numbered numbered), fun location id content inside stands =>
    two.files location id content inside (one.files location id content inside stands)⟩

theorem guards_of_appends {before after : FileTree} (appends : Appends [] before after) (keeps : before.KeepsNumbers after) :
    Guards guarded before after :=
  ⟨appends.home, keeps.numbered, fun location id content _ stands => by simpa using appends.file stands⟩

theorem guards_detach (tree : FileTree) (below : location ≠ []) : Guards (· ≠ location) tree (tree.detach location) := by
  refine ⟨rfl, fun numbered => ?_, fun place id content elsewhere stands => ?_⟩
  · exact (keepsNumbers_of_sublist (ids_detach tree location) rfl rfl).numbered numbered
  · rw [node?_detach tree below, Function.update_of_ne elsewhere]
    exact stands

theorem IsNumbered.location_unique (numbered : tree.IsNumbered) {first second : Location} {one two : Bytes}
    (atFirst : tree.node? first = some (.file id one)) (atSecond : tree.node? second = some (.file id two)) :
    first = second :=
  numbered.place_unique (mem_of_node? atFirst) (mem_of_node? atSecond)

theorem node?_rewritten (stands : tree.node? location = some (.file id content)) (change : Bytes → Bytes) :
    (tree.modifyContent id change).node? location = some (.file id (change content)) := by
  rw [node?_modifyContent, stands, Option.map_some, FileNode.rewrite, if_pos rfl]

theorem guards_modifyContent (numbered : tree.IsNumbered) (stands : tree.node? location = some (.file id content))
    (change : Bytes → Bytes) : Guards (· ≠ location) tree (tree.modifyContent id change) := by
  refine ⟨rfl, (keepsNumbers_modifyContent tree id change).numbered, fun place other kept elsewhere there => ?_⟩
  have different : other ≠ id := by
    rintro rfl
    exact elsewhere (numbered.location_unique there stands)
  rw [node?_modifyContent, there, Option.map_some, FileNode.rewrite, if_neg different]

theorem lookup_moved_goal {nodes : List (Location × FileNode)}
    (free : ∀ entry ∈ nodes, entry.1 ≠ goal) :
    List.lookup goal (nodes.map fun entry =>
      if source.isPrefixOf entry.1 then (goal ++ entry.1.drop source.length, entry.2) else entry) =
      List.lookup source nodes := by
  induction nodes with
  | nil => rfl
  | cons entry rest ih =>
      obtain ⟨location, node⟩ := entry
      have elsewhere := free (location, node) (List.mem_cons_self ..)
      have ih := ih fun other member => free other (List.mem_cons_of_mem _ member)
      rw [List.map_cons, lookup_entry]
      dsimp only
      by_cases inside : source <+: location
      · obtain ⟨below, rfl⟩ := inside
        rw [if_pos (List.isPrefixOf_iff_prefix.mpr (List.prefix_append ..)), List.drop_left, lookup_entry, ih]
        by_cases here : below = []
        · simp [here]
        · simp [here]
      · have apart : source ≠ location := fun same => inside (same ▸ List.prefix_rfl)
        have stays : ¬source.isPrefixOf location = true := by rwa [List.isPrefixOf_iff_prefix]
        rw [if_neg stays, lookup_entry, if_neg (Ne.symm elsewhere), if_neg apart, ih]

theorem lookup_moved_other (apart : ¬goal <+: location) (outside : ¬source <+: location)
    (nodes : List (Location × FileNode)) :
    List.lookup location (nodes.map fun entry =>
      if source.isPrefixOf entry.1 then (goal ++ entry.1.drop source.length, entry.2) else entry) =
      List.lookup location nodes := by
  induction nodes with
  | nil => rfl
  | cons entry rest ih =>
      obtain ⟨place, node⟩ := entry
      rw [List.map_cons, lookup_entry]
      dsimp only
      by_cases inside : source <+: place
      · have left : location ≠ goal ++ place.drop source.length := fun same => apart (same ▸ List.prefix_append ..)
        have other : location ≠ place := fun same => outside (same ▸ inside)
        rw [if_pos (List.isPrefixOf_iff_prefix.mpr inside), lookup_entry, if_neg left, if_neg other, ih]
      · have stays : ¬source.isPrefixOf place = true := by rwa [List.isPrefixOf_iff_prefix]
        rw [if_neg stays, lookup_entry, ih]

theorem node?_moved_goal (below : source ≠ []) (goalBelow : goal ≠ []) (outside : ¬source <+: goal) :
    ((tree.detach goal).move source goal).node? goal = tree.node? source := by
  have free : ∀ entry ∈ (tree.detach goal).nodes, entry.1 ≠ goal := by
    intro entry member
    simpa using (List.mem_filter.mp member).2
  have different : source ≠ goal := fun same => outside (same ▸ List.prefix_rfl)
  rw [node?_of_ne_root _ goalBelow, move, lookup_moved_goal free, ← node?_of_ne_root _ below,
    node?_detach tree goalBelow, Function.update_of_ne different]

theorem node?_moved_other (goalBelow : goal ≠ []) (apart : ¬goal <+: location) (outside : ¬source <+: location) :
    ((tree.detach goal).move source goal).node? location = tree.node? location := by
  by_cases root : location = []
  · subst root
    rfl
  · have elsewhere : location ≠ goal := fun same => apart (same ▸ List.prefix_rfl)
    rw [node?_of_ne_root _ root, move, lookup_moved_other apart outside, ← node?_of_ne_root _ root,
      node?_detach tree goalBelow, Function.update_of_ne elsewhere]

theorem isNumbered_moved (numbered : tree.IsNumbered) (source goal : Location) :
    ((tree.detach goal).move source goal).IsNumbered := by
  have ids : ((tree.detach goal).move source goal).ids.Sublist tree.ids := by
    rw [ids_move]
    exact ids_detach tree goal
  exact (keepsNumbers_of_sublist ids rfl rfl).numbered numbered

end FileTree

namespace Files

open FileTree

variable {tree after : FileTree} {path source target : String} {guarded : Location → Prop}

def Reaches (tree : FileTree) (path : String) : Prop :=
  ∃ parent name asDirectory, tree.slot path = .ok ⟨parent, some name, asDirectory⟩ ∧
    FileTree.step parent name = .ok (tree.place path)

theorem reaches_of_ok {slot : Slot} {name : String} {location : Location} (found : tree.slot path = .ok slot)
    (named : slot.name = some name) (next : FileTree.step slot.parent name = .ok location) :
    Reaches tree path ∧ tree.place path = location := by
  have same := place_of_slot found named next
  obtain ⟨parent, _, asDirectory⟩ := slot
  subst named
  exact ⟨⟨parent, name, asDirectory, found, same ▸ next⟩, same⟩

theorem Reaches.below (reaches : Reaches tree path) : tree.place path ≠ [] := by
  obtain ⟨parent, name, asDirectory, found, next⟩ := reaches
  obtain ⟨-, -, -, -, ordinary, down, -⟩ := slot_ok found
  rw [(step_ordinary_ok ordinary down next).1]
  simp

theorem place_outcome {slot : Slot} (found : tree.slot path = .ok slot) (otherwise : IoFault) :
    (∃ fault, place slot otherwise tree = .error fault tree) ∨
      Reaches tree path ∧ place slot otherwise tree = .ok (tree.place path) tree := by
  have same := place_state slot otherwise tree
  cases placed : place slot otherwise tree with
  | error fault after =>
      rw [stateAfter_of_error placed] at same
      exact .inl ⟨fault, by rw [same]⟩
  | ok location after =>
      obtain ⟨rfl, name, named, step⟩ := place_ok placed
      obtain ⟨reaches, rfl⟩ := reaches_of_ok found named step
      exact .inr ⟨reaches, rfl⟩

theorem run_at_place {α : Type} (path : String) (otherwise : IoFault) (next : Slot → Location → FileAction α)
    (tree : FileTree) :
    (∃ fault, (look (·.slot path) >>= fun slot => place slot otherwise >>= next slot) tree = .error fault tree) ∨
      Reaches tree path ∧ ∃ slot, (look (·.slot path) >>= fun slot => place slot otherwise >>= next slot) tree =
        next slot (tree.place path) tree := by
  cases found : tree.slot path with
  | error fault => exact .inl ⟨fault, bind_of_error (look_of_error found)⟩
  | ok slot =>
      rw [bind_of_ok (look_of_ok found)]
      rcases place_outcome found otherwise with ⟨fault, failed⟩ | ⟨reaches, placed⟩
      · exact .inl ⟨fault, bind_of_error failed⟩
      · exact .inr ⟨reaches, slot, bind_of_ok placed⟩

theorem removeFile_outcome (path : String) (tree : FileTree) :
    (∃ fault, removeFile path tree = .error fault tree) ∨
      tree.place path ≠ [] ∧ removeFile path tree = .ok () (tree.detach (tree.place path)) := by
  unfold removeFile
  refine (run_at_place path .isDirectory _ tree).elim .inl ?_
  rintro ⟨reaches, slot, same⟩
  rw [same, bind_get]
  cases stands : tree.node? (tree.place path) with
  | none => exact .inl ⟨.notFound, rfl⟩
  | some node =>
      cases node with
      | directory => exact .inl ⟨.isDirectory, rfl⟩
      | file id content =>
          cases slash : slot.asDirectory with
          | true => exact .inl ⟨.notDirectory, rfl⟩
          | false => exact .inr ⟨reaches.below, rfl⟩

theorem removeIfExists_outcome (path : String) (tree : FileTree) :
    (∃ fault, removeIfExists path tree = .error fault tree) ∨
      ∃ after, removeIfExists path tree = .ok () after ∧ Guards (· ≠ tree.place path) tree after := by
  rcases removeFile_outcome path tree with ⟨fault, failed⟩ | ⟨below, done⟩
  · have caught : removeIfExists path tree = (if fault = .notFound then pure () else throw fault : FileAction Unit) tree :=
      tryCatch_of_error failed
    by_cases missing : fault = .notFound
    · rw [if_pos missing] at caught
      exact .inr ⟨tree, caught, .refl tree⟩
    · rw [if_neg missing] at caught
      exact .inl ⟨fault, caught⟩
  · exact .inr ⟨_, tryCatch_of_ok done, guards_detach tree below⟩

/-- What is renamed goes to its new place, and stays where it is if that fails. -/
theorem rename_outcome (source target : String) (tree : FileTree) :
    (∃ fault, rename source target tree = .error fault tree) ∨
      Reaches tree source ∧ Reaches tree target ∧
        (tree.place source = tree.place target ∧ rename source target tree = .ok () tree ∨
          rename source target tree =
            .ok () ((tree.detach (tree.place target)).move (tree.place source) (tree.place target))) := by
  unfold rename
  cases found : tree.slot source with
  | error fault => exact .inl ⟨fault, bind_of_error (look_of_error found)⟩
  | ok fromSlot =>
      rw [bind_of_ok (look_of_ok found)]
      cases foundGoal : tree.slot target with
      | error fault => exact .inl ⟨fault, bind_of_error (look_of_error foundGoal)⟩
      | ok toSlot =>
          rw [bind_of_ok (look_of_ok foundGoal)]
          rcases place_outcome found .invalidArgument with ⟨fault, failed⟩ | ⟨reaches, placed⟩
          · exact .inl ⟨fault, bind_of_error failed⟩
          rw [bind_of_ok placed]
          rcases place_outcome foundGoal .invalidArgument with ⟨fault, failed⟩ | ⟨reachesGoal, placedGoal⟩
          · exact .inl ⟨fault, bind_of_error failed⟩
          rw [bind_of_ok placedGoal, bind_get]
          refine (or_congr_right (and_iff_right reaches)).mpr ((or_congr_right (and_iff_right reachesGoal)).mpr ?_)
          generalize tree.node? (tree.place source) = there
          generalize tree.node? (tree.place target) = goal
          match there, goal with
          | none, _ => exact .inl ⟨_, rfl⟩
          | some (.file ..), some .directory => exact .inl ⟨_, rfl⟩
          | some .directory, some (.file ..) => exact .inl ⟨_, rfl⟩
          | some (.file ..), none
          | some (.file ..), some (.file ..)
          | some .directory, none
          | some .directory, some .directory =>
            dsimp only
            split
            · exact .inl ⟨_, rfl⟩
            · split
              next same => exact .inr (.inl ⟨same, rfl⟩)
              next =>
                split
                · exact .inl ⟨_, rfl⟩
                · split
                  · exact .inl ⟨_, rfl⟩
                  · exact .inr (.inr rfl)

theorem openForWriting_guards (path : String) (tree : FileTree) :
    Guards guarded tree (stateAfter (openForWriting path) tree) :=
  guards_of_appends (openForWriting_appends path tree)
    (Edits.numbers (openForWriting_edits path tree trivial : Edits Anywhere Anywhere tree _))

theorem touch_guards (path : String) (tree : FileTree) : Guards guarded tree (stateAfter (touch path) tree) :=
  guards_of_appends (touch_appends path tree) (touch_numbers path tree)

theorem touch_stands {opened : FileHandle × Nat} (done : touch path tree = .ok opened after) :
    ∃ content, after.node? (tree.place path) = some (.file opened.1.id content) := by
  obtain ⟨parent, name, content, names, stands⟩ := touch_names done
  have guards : Guards Anywhere tree (stateAfter (touch path) tree) := touch_guards path tree
  rw [stateAfter_of_ok done] at guards
  rw [← names.place, place_congr guards.home] at stands
  exact ⟨content, stands⟩

theorem create_outcome (path : String) (numbered : tree.IsNumbered) :
    (∃ fault, create path tree = .error fault tree) ∨
      ∃ handle after, create path tree = .ok handle after ∧ Guards (· ≠ tree.place path) tree after ∧
        after.node? (tree.place path) = some (.file handle.id []) := by
  unfold create
  cases opening : openForWriting path tree with
  | error fault after =>
      obtain rfl := openForWriting_error opening
      exact .inl ⟨fault, bind_of_error opening⟩
  | ok opened after =>
      have guards : Guards (· ≠ tree.place path) tree (stateAfter (openForWriting path) tree) :=
        openForWriting_guards path tree
      rw [stateAfter_of_ok opening] at guards
      have stands : ∃ content, after.node? (tree.place path) = some (.file opened.1.id content) := by
        obtain ⟨parent, name, names, ⟨content, stands, -, rfl⟩ | ⟨free, rfl, rfl⟩⟩ := openForWriting_ok opening
        · exact ⟨content, names.place ▸ stands⟩
        · refine ⟨[], ?_⟩
          rw [names.place]
          exact (congrFun (node?_attach tree free _) _).trans (Function.update_self ..)
      obtain ⟨content, stands⟩ := stands
      exact .inr ⟨opened.1, _, bind_of_ok opening,
        guards.trans (guards_modifyContent (guards.numbered numbered) stands _), node?_rewritten stands _⟩

end Files

namespace Rotation

open FileTree

variable {tree : FileTree}

/-- A file is compressed as a whole, or what is left is at the target. -/
theorem compress_outcome (source target : String) (numbered : tree.IsNumbered) :
    (∃ fault after, compress source target tree = .error fault after ∧ Guards (· ≠ tree.place target) tree after) ∨
      ∃ after id number content, compress source target tree = .ok () after ∧
        Guards (· ≠ tree.place target) tree after ∧ tree.node? (tree.place source) = some (.file id content) ∧
        after.node? (tree.place target) = some (.file number (Gzip.encode content)) := by
  unfold compress
  have same := Files.openForReading_state source tree
  cases opening : Files.openForReading source tree with
  | error fault after =>
      rw [stateAfter_of_error opening] at same
      exact .inl ⟨fault, after, bind_of_error opening, by rw [same]; exact .refl tree⟩
  | ok node after =>
      rw [stateAfter_of_ok opening] at same
      subst same
      rw [bind_of_ok opening]
      rcases Files.create_outcome target numbered with ⟨fault, failed⟩ | ⟨handle, made, done, guards, stands⟩
      · exact .inl ⟨fault, _, bind_of_error failed, .refl _⟩
      rw [bind_of_ok done]
      cases node with
      | directory => exact .inl ⟨_, made, rfl, guards⟩
      | file id content =>
          refine .inr ⟨_, id, handle.id, content, rfl,
            guards.trans (guards_modifyContent (guards.numbered numbered) stands _), ?_, node?_rewritten stands _⟩
          unfold Files.openForReading at opening
          cases found : after.find source with
          | error fault =>
              rw [bind_of_error (Files.look_of_error found)] at opening
              simp at opening
          | ok result =>
              rw [bind_of_ok (Files.look_of_ok found)] at opening
              obtain ⟨location, node⟩ := result
              obtain rfl : node = .file id content := by simpa using opening
              rw [place_of_find found]
              exact node?_of_find found

theorem stage_outcome (base : String) (numbered : tree.IsNumbered) :
    (∃ fault after, stage base tree = .error fault after ∧
        Guards (· ≠ tree.place (Archive.stagingPath base)) tree after) ∨
      ∃ after id number content, stage base tree = .ok () after ∧
        Guards (· ≠ tree.place (Archive.stagingPath base)) tree after ∧
        tree.node? (tree.place base) = some (.file id content) ∧
        after.node? (tree.place (Archive.stagingPath base)) = some (.file number (Gzip.encode content)) := by
  unfold stage
  rcases compress_outcome base (Archive.stagingPath base) numbered with
    ⟨fault, after, failed, guards⟩ | ⟨after, id, number, content, done, result⟩
  · rw [failed]
    rcases Files.removeFile_outcome (Archive.stagingPath base) after with ⟨other, kept⟩ | ⟨below, gone⟩
    · exact .inl ⟨.io (Archive.stagingPath base) fault, after, by simp only [kept], guards⟩
    · have cleared := guards_detach after below
      rw [place_congr guards.home] at cleared gone
      exact .inl ⟨.io (Archive.stagingPath base) fault, _, by simp only [gone], guards.trans cleared⟩
  · rw [done]
    exact .inr ⟨after, id, number, content, rfl, result⟩

end Rotation

end KeyedLog
