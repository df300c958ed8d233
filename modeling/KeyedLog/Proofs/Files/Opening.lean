import KeyedLog.Proofs.Files.Actions
import KeyedLog.Sink.File
import KeyedLog.Sink.Rotating

/-!
Opening a file for a sink. Directories that are missing are made, the file is made if it is missing, and nothing else
changes.
-/

namespace KeyedLog

def stateAfter {ε σ α : Type} (action : EStateM ε σ α) (before : σ) : σ :=
  match action before with
  | .ok _ after => after
  | .error _ after => after

section EStateM

variable {ε σ α β : Type} {before : σ}

theorem stateAfter_of_ok {action : EStateM ε σ α} {value : α} {after : σ} (done : action before = .ok value after) :
    stateAfter action before = after := by
  rw [stateAfter, done]

theorem stateAfter_of_error {action : EStateM ε σ α} {fault : ε} {after : σ}
    (failed : action before = .error fault after) : stateAfter action before = after := by
  rw [stateAfter, failed]

theorem error_of_fails (action : EStateM ε σ α) (before : σ)
    (fails : (match action before with | .ok .. => false | .error .. => true) = true) :
    ∃ fault, action before = .error fault (stateAfter action before) := by
  unfold stateAfter
  cases result : action before with
  | ok value after => simp [result] at fails
  | error fault after => exact ⟨fault, rfl⟩

theorem stateAfter_bind (relation : σ → σ → Prop)
    (trans : ∀ {first second third}, relation first second → relation second third → relation first third)
    {action : EStateM ε σ α} {next : α → EStateM ε σ β} (first : relation before (stateAfter action before))
    (second : ∀ value after, action before = .ok value after → relation after (stateAfter (next value) after)) :
    relation before (stateAfter (action >>= next) before) := by
  cases result : action before with
  | ok value after =>
      rw [stateAfter_of_ok result] at first
      have later := second value after result
      rw [stateAfter, bind_of_ok result]
      exact trans first later
  | error fault after =>
      rw [stateAfter_of_error result] at first
      rw [stateAfter_of_error (bind_of_error result)]
      exact first

theorem stateAfter_tryCatch (relation : σ → σ → Prop)
    (trans : ∀ {first second third}, relation first second → relation second third → relation first third)
    {action : EStateM ε σ α} {handle : ε → EStateM ε σ α} (first : relation before (stateAfter action before))
    (second : ∀ fault after, action before = .error fault after → relation after (stateAfter (handle fault) after)) :
    relation before (stateAfter (tryCatch action handle) before) := by
  cases result : action before with
  | ok value after =>
      rw [stateAfter_of_ok result] at first
      rw [stateAfter_of_ok (tryCatch_of_ok result)]
      exact first
  | error fault after =>
      rw [stateAfter_of_error result] at first
      have later := second fault after result
      rw [stateAfter, tryCatch_of_error result]
      exact trans first later

theorem stateAfter_ite (relation : σ → σ → Prop) {condition : Prop} [Decidable condition] {first second : EStateM ε σ α}
    (one : relation before (stateAfter first before)) (two : relation before (stateAfter second before)) :
    relation before (stateAfter (if condition then first else second) before) := by
  split
  · exact one
  · exact two

theorem stateAfter_get (next : σ → EStateM ε σ α) : stateAfter (get >>= next) before = stateAfter (next before) before := rfl

end EStateM

namespace FileTree

/-- Directories have been made where nothing was, and nothing else has changed. -/
structure Grows (before after : FileTree) : Prop where
  home : after.workingDirectory = before.workingDirectory
  kept : ∀ location node, before.node? location = some node → after.node? location = some node
  new : ∀ location, before.node? location = none →
    after.node? location = none ∨ after.node? location = some .directory
  sound : before.IsSound → after.IsSound

theorem Grows.refl (tree : FileTree) : tree.Grows tree :=
  ⟨rfl, fun _ _ stands => stands, fun _ free => .inl free, fun sound => sound⟩

theorem Grows.trans {first second third : FileTree} (one : first.Grows second) (two : second.Grows third) :
    first.Grows third := by
  refine ⟨two.home.trans one.home, ?_, ?_, fun sound => two.sound (one.sound sound)⟩
  · exact fun location node stands => two.kept location node (one.kept location node stands)
  · intro location free
    rcases one.new location free with still | made
    · exact two.new location still
    · exact .inr (two.kept location _ made)

theorem Grows.node?_file {before after : FileTree} (grows : before.Grows after) (location : Location) (id : FileId)
    (content : Bytes) :
    after.node? location = some (.file id content) ↔ before.node? location = some (.file id content) := by
  refine ⟨?_, grows.kept location _⟩
  intro stands
  cases there : before.node? location with
  | none =>
      rcases grows.new location there with still | made
      · simp [still] at stands
      · simp [made] at stands
  | some node =>
      rw [grows.kept location node there] at stands
      exact stands

end FileTree

namespace Files

open FileTree

variable {tree : FileTree} {path : String} {parent : Location} {name : String} {id : FileId} {content : Bytes}

theorem look_state {α : Type} (see : FileTree → Except IoFault α) (tree : FileTree) :
    stateAfter (look see) tree = tree := by
  cases seen : see tree with
  | ok value => exact stateAfter_of_ok (look_of_ok seen)
  | error fault => exact stateAfter_of_error (look_of_error seen)

theorem place_state (slot : Slot) (otherwise : IoFault) (tree : FileTree) :
    stateAfter (place slot otherwise) tree = tree := by
  unfold place
  cases slot.name with
  | none => rfl
  | some name =>
      dsimp only
      cases FileTree.step slot.parent name <;> rfl

theorem makeDirectory_grows (path : String) (tree : FileTree) : tree.Grows (stateAfter (makeDirectory path) tree) := by
  unfold makeDirectory
  refine stateAfter_bind Grows Grows.trans (by rw [look_state]; exact Grows.refl _) ?_
  intro slot after looked
  refine stateAfter_bind Grows Grows.trans (by rw [place_state]; exact Grows.refl _) ?_
  intro location later placed
  rw [stateAfter, bind_get]
  cases free : later.node? location with
  | some node => exact Grows.refl _
  | none =>
      obtain ⟨found, rfl⟩ := look_ok looked
      obtain ⟨rfl, name, named, next⟩ := place_ok placed
      obtain ⟨parent, _, asDirectory⟩ := slot
      subst named
      obtain ⟨-, -, -, -, ordinary, down, before, -, way⟩ := slot_ok found
      obtain ⟨rfl, -⟩ := step_ordinary_ok ordinary down next
      have nodes := node?_attach later free .directory
      refine ⟨rfl, ?_, ?_, ?_⟩
      · intro place node stands
        have elsewhere : place ≠ parent ++ [name] := by
          rintro rfl
          simp [free] at stands
        show (later.attach _ _).node? place = _
        rw [nodes, Function.update_of_ne elsewhere]
        exact stands
      · intro place still
        show (later.attach _ _).node? place = _ ∨ (later.attach _ _).node? place = _
        rw [nodes]
        by_cases same : place = parent ++ [name]
        · rw [same, Function.update_self]
          exact .inr rfl
        · rw [Function.update_of_ne same]
          exact .inl still
      · intro sound
        have above := follow_directory (origin_directory sound path.toList) way
        exact (sound.attach_directory above free).sound

theorem ensureDirectory_keeps (relation : FileTree → FileTree → Prop) (same : ∀ tree, relation tree tree)
    (trans : ∀ {first second third}, relation first second → relation second third → relation first third)
    (one : ∀ path tree, relation tree (stateAfter (makeDirectory path) tree)) (path : String) (tree : FileTree) :
    relation tree (stateAfter (ensureDirectory path) tree) := by
  unfold ensureDirectory
  refine stateAfter_tryCatch relation trans (one path tree) ?_
  intro fault after _
  rw [stateAfter, bind_get]
  by_cases there : after.isDirectory path = true
  · rw [if_pos there]
    exact same after
  · rw [if_neg there]
    exact same after

theorem makeDirectories_keeps (relation : FileTree → FileTree → Prop) (same : ∀ tree, relation tree tree)
    (trans : ∀ {first second third}, relation first second → relation second third → relation first third)
    (one : ∀ path tree, relation tree (stateAfter (makeDirectory path) tree)) (path : String) (tree : FileTree) :
    relation tree (stateAfter (makeDirectories path) tree) := by
  unfold makeDirectories
  generalize path.length + 1 = fuel
  -- The directories above are made first, by the same function with less fuel.
  induction fuel generalizing path tree with
  | zero => exact same tree
  | succ fuel ih =>
      unfold makeDirectoriesFrom
      split
      · exact same tree
      · refine stateAfter_bind relation trans ?_ ?_
        · refine stateAfter_tryCatch relation trans ?_ ?_
          · exact stateAfter_bind relation trans (one path tree) fun _ after _ => same after
          · intro fault after _
            split
            · exact same after
            · rw [stateAfter, bind_get]
              by_cases there : after.isDirectory path = true
              · rw [if_pos there]
                exact same after
              · rw [if_neg there]
                exact same after
        · intro missing after _
          split
          · cases Path.parent? path with
            | none => exact same after
            | some parent =>
                exact stateAfter_bind relation trans (ih parent after) fun _ later _ =>
                  ensureDirectory_keeps relation same trans one path later
          · exact same after

theorem makeDirectories_grows (path : String) (tree : FileTree) :
    tree.Grows (stateAfter (makeDirectories path) tree) :=
  makeDirectories_keeps Grows Grows.refl Grows.trans makeDirectory_grows path tree

theorem at_of_ok {α : Type} {action : FileAction α} {value : α} {after : FileTree}
    (done : action tree = .ok value after) (path : String) : (action.at path) tree = .ok value after := by
  rw [FileAction.at, done]

theorem at_of_error {α : Type} {action : FileAction α} {cause : IoFault} {after : FileTree}
    (failed : action tree = .error cause after) (path : String) :
    (action.at path) tree = .error (.io path cause) after := by
  rw [FileAction.at, failed]

theorem at_ok {α : Type} {action : FileAction α} {path : String} {value : α} {after : FileTree}
    (done : (action.at path) tree = .ok value after) : action tree = .ok value after := by
  unfold FileAction.at at done
  cases result : action tree with
  | ok other later => simpa [result] using done
  | error cause later => simp [result] at done

theorem stateAfter_at {α : Type} (action : FileAction α) (path : String) (tree : FileTree) :
    stateAfter (action.at path) tree = stateAfter action tree := by
  unfold stateAfter FileAction.at
  cases action tree <;> rfl

theorem openForWriting_ok {opened : FileHandle × Nat} {after : FileTree}
    (done : openForWriting path tree = .ok opened after) :
    ∃ parent name, tree.Names path parent name ∧
      ((∃ content, tree.node? (parent ++ [name]) = some (.file opened.1.id content) ∧
          opened.2 = content.length ∧ after = tree) ∨
        (tree.node? (parent ++ [name]) = none ∧ opened = (⟨tree.nextId⟩, 0) ∧
          after = { tree.attach (parent ++ [name]) (.file tree.nextId []) with nextId := tree.nextId + 1 })) := by
  unfold openForWriting at done
  cases looked : look (·.slot path) tree with
  | error fault later => rw [bind_of_error looked] at done; simp at done
  | ok slot later =>
      obtain ⟨found, rfl⟩ := look_ok looked
      rw [bind_of_ok looked] at done
      obtain ⟨parent, named, asDirectory⟩ := slot
      cases asDirectory with
      | true => cases (show EStateM.Result.error IoFault.isDirectory later = .ok opened after from done)
      | false =>
          simp only [Bool.false_eq_true, if_false] at done
          cases placed : place ⟨parent, named, false⟩ .isDirectory later with
          | error fault state => rw [bind_of_error placed] at done; simp at done
          | ok location state =>
              obtain ⟨rfl, name, rfl, next⟩ := place_ok placed
              rw [bind_of_ok placed, bind_get] at done
              obtain ⟨-, -, -, -, ordinary, down, -⟩ := slot_ok found
              obtain ⟨rfl, short⟩ := step_ordinary_ok ordinary down next
              refine ⟨parent, name, ⟨found, short⟩, ?_⟩
              cases stands : state.node? (parent ++ [name]) with
              | none =>
                  simp only [stands] at done
                  cases done
                  exact .inr ⟨rfl, rfl, rfl⟩
              | some node =>
                  cases node with
                  | directory => simp [stands] at done
                  | file id content =>
                      simp only [stands, pure_run, EStateM.Result.ok.injEq] at done
                      obtain ⟨rfl, rfl⟩ := done
                      exact .inl ⟨content, rfl, rfl, rfl⟩

theorem openForWriting_error {fault : IoFault} {after : FileTree}
    (failed : openForWriting path tree = .error fault after) : after = tree := by
  unfold openForWriting at failed
  cases looked : look (·.slot path) tree with
  | error cause later =>
      rw [bind_of_error looked] at failed
      have same := look_state (·.slot path) tree
      rw [stateAfter_of_error looked] at same
      cases failed
      exact same
  | ok slot later =>
      obtain ⟨-, rfl⟩ := look_ok looked
      rw [bind_of_ok looked] at failed
      cases asDirectory : slot.asDirectory with
      | true =>
          rw [asDirectory] at failed
          cases failed
          rfl
      | false =>
          simp only [asDirectory, Bool.false_eq_true, if_false] at failed
          have same := place_state slot .isDirectory later
          cases placed : place slot .isDirectory later with
          | error cause last =>
              rw [bind_of_error placed] at failed
              rw [stateAfter_of_error placed] at same
              cases failed
              exact same
          | ok location last =>
              rw [stateAfter_of_ok placed] at same
              rw [bind_of_ok placed, bind_get, same] at failed
              cases stands : later.node? location with
              | none =>
                  simp only [stands] at failed
                  cases failed
              | some node =>
                  cases node with
                  | directory =>
                      simp only [stands] at failed
                      cases failed
                      rfl
                  | file id content => simp [stands] at failed

/-- Opening the file at a place changes nothing but that place, apart from directories that are made. -/
structure Opens (before after : FileTree) (location : Location) : Prop where
  home : after.workingDirectory = before.workingDirectory
  kept : ∀ place node, before.node? place = some node → after.node? place = some node
  new : ∀ place id content, after.node? place = some (.file id content) →
    before.node? place = some (.file id content) ∨
      before.node? place = none ∧ place = location ∧ content = []

theorem touch_of_leads {parentPath : List Char} {directory : Location} (sound : tree.IsSound)
    (above : Path.parent? path = some (String.ofList parentPath)) (leads : tree.Leads parentPath directory) :
    touch path tree = (openForWriting path).at path tree := by
  unfold touch
  simp only [above]
  by_cases nothing : parentPath = []
  · subst nothing
    rfl
  · have nonempty : String.ofList parentPath ≠ "" := by
      intro same
      exact nothing (String.ofList_inj.mp (same.trans rfl))
    have some : (String.ofList parentPath).isEmpty = false := by simpa using nonempty
    have made := makeDirectories_of_find nonempty (leads.find sound nothing)
    simp only [some, Bool.not_false, if_true]
    exact bind_of_ok (at_of_ok made _)

theorem touch_of_names {directoryPath : String} (above : Path.parent? path = some directoryPath)
    (names : tree.Names directoryPath parent name) (free : tree.node? (parent ++ [name]) = none) :
    touch path tree = (openForWriting path).at path (tree.attach (parent ++ [name]) .directory) := by
  obtain ⟨-, nonempty, -⟩ := slot_ok names.slot
  have some : directoryPath.isEmpty = false := by
    rw [Bool.eq_false_iff]
    intro empty
    exact nonempty (by rw [String.isEmpty_iff.mp empty]; rfl)
  unfold touch
  simp only [above, some, Bool.not_false, if_true]
  exact bind_of_ok (at_of_ok (makeDirectories_of_names names free) _)

theorem touch_after_making {opened : FileHandle × Nat} {after : FileTree} (done : touch path tree = .ok opened after) :
    ∃ made, (made = tree ∨ ∃ above, made = stateAfter (makeDirectories above) tree) ∧
      openForWriting path made = .ok opened after := by
  unfold touch at done
  cases above : Path.parent? path with
  | none =>
      simp only [above] at done
      exact ⟨tree, .inl rfl, at_ok done⟩
  | some parent =>
      simp only [above] at done
      by_cases nothing : parent.isEmpty = true
      · simp only [nothing, Bool.not_true, Bool.false_eq_true, if_false] at done
        exact ⟨tree, .inl rfl, at_ok done⟩
      · simp only [nothing, Bool.not_false, if_true] at done
        cases made : (makeDirectories parent).at parent tree with
        | error fault later =>
            rw [bind_of_error made] at done
            simp at done
        | ok value later =>
            rw [bind_of_ok made] at done
            exact ⟨later, .inr ⟨parent, (stateAfter_of_ok (at_ok made)).symm⟩, at_ok done⟩

theorem touch_names {opened : FileHandle × Nat} {after : FileTree} (done : touch path tree = .ok opened after) :
    ∃ parent name content, after.Names path parent name ∧
      after.node? (parent ++ [name]) = some (.file opened.1.id content) := by
  obtain ⟨made, -, opening⟩ := touch_after_making done
  obtain ⟨parent, name, names, ⟨content, stands, -, rfl⟩ | ⟨free, rfl, rfl⟩⟩ := openForWriting_ok opening
  · exact ⟨parent, name, content, names, stands⟩
  · have nodes := node?_attach made free (.file made.nextId [])
    have kept : made.KeepsDirectories
        { made.attach (parent ++ [name]) (.file made.nextId []) with nextId := made.nextId + 1 } := by
      refine ⟨rfl, ?_⟩
      intro place stands
      have elsewhere : place ≠ parent ++ [name] := by
        rintro rfl
        simp [free] at stands
      exact (congrFun nodes place).trans ((Function.update_of_ne elsewhere ..).trans stands)
    exact ⟨parent, name, [], names.mono kept, (congrFun nodes _).trans (Function.update_self ..)⟩

theorem touch_ok {opened : FileHandle × Nat} {after : FileTree} (sound : tree.IsSound)
    (done : touch path tree = .ok opened after) :
    after.IsSound ∧ ∃ parent name content, after.Names path parent name ∧
      after.node? (parent ++ [name]) = some (.file opened.1.id content) ∧ opened.2 = content.length ∧
      Opens tree after (parent ++ [name]) := by
  obtain ⟨made, origin, opening⟩ := touch_after_making done
  have grows : tree.Grows made := by
    rcases origin with rfl | ⟨above, rfl⟩
    · exact Grows.refl made
    · exact makeDirectories_grows above tree
  have soundMade := grows.sound sound
  obtain ⟨parent, name, names, ⟨content, stands, size, rfl⟩ | ⟨free, rfl, rfl⟩⟩ := openForWriting_ok opening
  · refine ⟨soundMade, parent, name, content, names, stands, size, grows.home, grows.kept, ?_⟩
    intro place id other found
    exact .inl ((grows.node?_file place id other).mp found)
  · have became := soundMade.attach_file (names.directory soundMade) free
    refine ⟨became.sound, parent, name, [], ?_, ?_, rfl, became.home.trans grows.home, ?_, ?_⟩
    · exact names.mono (became.keeps_update (fun _ stands => stands) (by simp [free]))
    · rw [became.nodes, Function.update_self]
    · intro place node found
      have elsewhere : place ≠ parent ++ [name] := by
        rintro rfl
        rw [grows.kept _ _ found] at free
        exact absurd free (by simp)
      rw [became.nodes, Function.update_of_ne elsewhere]
      exact grows.kept place node found
    · intro place id other found
      rw [became.nodes] at found
      by_cases here : place = parent ++ [name]
      · subst here
        rw [Function.update_self] at found
        cases found
        refine .inr ⟨?_, rfl, rfl⟩
        cases there : tree.node? (parent ++ [name]) with
        | none => rfl
        | some node =>
            rw [grows.kept _ _ there] at free
            exact absurd free (by simp)
      · rw [Function.update_of_ne here] at found
        exact .inl ((grows.node?_file place id other).mp found)

end Files

namespace RotatingSink

variable {name path : String} {policy : RollingPolicy} {encode : Event → Bytes} {before after : FileTree} {sink : RotatingSink}

theorem openAt_eq (name path : String) (policy : RollingPolicy) (encode : Event → Bytes) :
    openAt name path policy encode = Files.touch path >>= fun opened =>
      pure { name, path, policy, encode, handle := some opened.1, size := opened.2 } := rfl

theorem openAt_eq_ok : openAt name path policy encode before = .ok sink after ↔
    ∃ handle size, Files.touch path before = .ok (handle, size) after ∧
      sink = { name, path, policy, encode, handle := some handle, size } := by
  rw [openAt_eq]
  cases touched : Files.touch path before with
  | error fault last => simp [bind_of_error touched]
  | ok opened last =>
      rw [bind_of_ok touched]
      constructor
      · intro done
        obtain ⟨rfl, rfl⟩ : _ = sink ∧ last = after := by simpa using done
        exact ⟨opened.1, opened.2, rfl, rfl⟩
      · rintro ⟨handle, size, ⟨⟩, rfl⟩
        rfl

end RotatingSink

namespace FileSink

variable {name path : String} {encode : Event → Bytes} {before after : FileTree} {sink : FileSink}

theorem openAt_eq (name path : String) (encode : Event → Bytes) :
    openAt name path encode = Files.touch path >>= fun opened =>
      pure { name, path, encode, handle := some opened.1 } := rfl

theorem openAt_eq_ok : openAt name path encode before = .ok sink after ↔
    ∃ handle size, Files.touch path before = .ok (handle, size) after ∧ sink = { name, path, encode, handle := some handle } := by
  rw [openAt_eq]
  cases touched : Files.touch path before with
  | error fault last => simp [bind_of_error touched]
  | ok opened last =>
      rw [bind_of_ok touched]
      constructor
      · intro done
        obtain ⟨rfl, rfl⟩ : _ = sink ∧ last = after := by simpa using done
        exact ⟨opened.1, opened.2, rfl, rfl⟩
      · rintro ⟨handle, size, ⟨⟩, rfl⟩
        rfl

end FileSink

end KeyedLog
