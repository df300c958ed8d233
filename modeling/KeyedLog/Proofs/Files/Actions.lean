import KeyedLog.Files.Operations
import KeyedLog.Proofs.Files.Routes

/-!
What operations on files do to the places that their paths name: each changes the places it is about and nothing else.
-/

namespace KeyedLog

section EStateM

variable {ε σ α β : Type} {before after : σ}

theorem bind_of_ok {action : EStateM ε σ α} {next : α → EStateM ε σ β} {value : α}
    (done : action before = .ok value after) : (action >>= next) before = next value after := by
  simp only [bind, EStateM.bind, done]

theorem bind_of_error {action : EStateM ε σ α} {next : α → EStateM ε σ β} {fault : ε}
    (failed : action before = .error fault after) : (action >>= next) before = .error fault after := by
  simp only [bind, EStateM.bind, failed]

theorem tryCatch_of_ok {action : EStateM ε σ α} {handle : ε → EStateM ε σ α} {value : α}
    (done : action before = .ok value after) : tryCatch action handle before = .ok value after := by
  simp only [tryCatch, tryCatchThe, MonadExceptOf.tryCatch, EStateM.tryCatch, done]

theorem tryCatch_of_error {action : EStateM ε σ α} {handle : ε → EStateM ε σ α} {fault : ε}
    (failed : action before = .error fault after) : tryCatch action handle before = handle fault after := by
  simp only [tryCatch, tryCatchThe, MonadExceptOf.tryCatch, EStateM.tryCatch, failed]
  rfl

theorem bind_get (next : σ → EStateM ε σ β) : (get >>= next) before = next before before := rfl

@[simp] theorem pure_run (value : α) : (pure value : EStateM ε σ α) before = .ok value before := rfl

@[simp] theorem throw_run (fault : ε) : (throw fault : EStateM ε σ α) before = .error fault before := rfl

@[simp] theorem set_run (state : σ) : (set state : EStateM ε σ PUnit) before = .ok ⟨⟩ state := rfl

@[simp] theorem modify_run (change : σ → σ) : (modify change : EStateM ε σ PUnit) before = .ok ⟨⟩ (change before) := rfl

end EStateM

namespace Files

open FileTree

variable {tree : FileTree} {path : String} {parent : Location} {name : String} {id : FileId} {content : Bytes}

theorem look_of_ok {α : Type} {see : FileTree → Except IoFault α} {value : α} (seen : see tree = .ok value) :
    look see tree = .ok value tree := by
  rw [look, bind_get]
  simp [seen]

theorem look_of_error {α : Type} {see : FileTree → Except IoFault α} {fault : IoFault} (failed : see tree = .error fault) :
    look see tree = .error fault tree := by
  rw [look, bind_get]
  simp [failed]

theorem place_of_names (names : tree.Names path parent name) (asDirectory : Bool) (otherwise : IoFault) :
    place ⟨parent, some name, asDirectory⟩ otherwise tree = .ok (parent ++ [name]) tree := by
  simp [place, names.step]

theorem look_ok {α : Type} {see : FileTree → Except IoFault α} {value : α} {after : FileTree}
    (looked : look see tree = .ok value after) : see tree = .ok value ∧ after = tree := by
  cases seen : see tree with
  | error fault =>
      rw [look_of_error seen] at looked
      simp at looked
  | ok other =>
      rw [look_of_ok seen] at looked
      cases looked
      exact ⟨rfl, rfl⟩

theorem place_ok {slot : Slot} {otherwise : IoFault} {location : Location} {after : FileTree}
    (placed : place slot otherwise tree = .ok location after) :
    after = tree ∧ ∃ name, slot.name = some name ∧ FileTree.step slot.parent name = .ok location := by
  unfold place at placed
  cases named : slot.name with
  | none => simp [named] at placed
  | some name =>
      simp only [named] at placed
      cases next : FileTree.step slot.parent name with
      | error fault => simp [next] at placed
      | ok place =>
          simp only [next, pure_run, EStateM.Result.ok.injEq] at placed
          obtain ⟨rfl, rfl⟩ := placed
          exact ⟨rfl, name, rfl, next⟩

/-- Where no name of a file leads because something is too long. -/
def Blocked (tree : FileTree) (path : String) : Prop :=
  tree.slot path = .error .nameTooLong ∨
    ∃ parent name asDirectory, tree.slot path = .ok ⟨parent, some name, asDirectory⟩ ∧
      FileTree.step parent name = .error .nameTooLong

theorem find_of_blocked (blocked : Blocked tree path) : ∃ fault, tree.find path = .error fault := by
  unfold Blocked FileTree.slot at blocked
  unfold FileTree.find
  cases ready : tree.route path with
  | error fault => exact ⟨fault, rfl⟩
  | ok route =>
      simp only [ready, bind, Except.bind] at blocked ⊢
      cases last : route.steps.getLast? with
      | none => simp [last, pure, Except.pure] at blocked
      | some final =>
          simp only [last] at blocked ⊢
          cases way : tree.follow route.start route.steps.dropLast with
          | error fault => exact ⟨fault, rfl⟩
          | ok above =>
              simp only [way] at blocked ⊢
              rcases blocked with failed | ⟨parent, name, asDirectory, found, tooLong⟩
              · split at failed <;> simp [pure, Except.pure] at failed
              · split at found
                · simp [pure, Except.pure] at found
                · simp only [pure, Except.pure, Except.ok.injEq, Slot.mk.injEq, Option.some.injEq] at found
                  obtain ⟨rfl, rfl, -⟩ := found
                  exact ⟨.nameTooLong, by simp only [tooLong]⟩

theorem openForReading_eq (names : tree.Names path parent name) :
    openForReading path tree = match tree.node? (parent ++ [name]) with
      | none => .error .notFound tree
      | some node => .ok node tree := by
  have found := names.find
  unfold openForReading
  cases stands : tree.node? (parent ++ [name]) with
  | none =>
      rw [stands] at found
      exact bind_of_error (look_of_error found)
  | some node =>
      rw [stands] at found
      rw [bind_of_ok (look_of_ok found)]
      rfl

theorem holds_eq (names : tree.Names path parent name) :
    tree.holds path = (tree.node? (parent ++ [name])).isSome := by
  rw [holds, names.find]
  cases tree.node? (parent ++ [name]) <;> rfl

theorem openForWriting_file (names : tree.Names path parent name)
    (stands : tree.node? (parent ++ [name]) = some (.file id content)) :
    openForWriting path tree = .ok (⟨id⟩, content.length) tree := by
  unfold openForWriting
  rw [bind_of_ok (look_of_ok names.slot)]
  simp only [Bool.false_eq_true, if_false]
  rw [bind_of_ok (place_of_names names false .isDirectory), bind_get]
  simp [stands]

theorem openForWriting_new (names : tree.Names path parent name) (free : tree.node? (parent ++ [name]) = none) :
    openForWriting path tree = .ok (⟨tree.nextId⟩, 0)
      { tree.attach (parent ++ [name]) (.file tree.nextId []) with nextId := tree.nextId + 1 } := by
  unfold openForWriting
  rw [bind_of_ok (look_of_ok names.slot)]
  simp only [Bool.false_eq_true, if_false]
  rw [bind_of_ok (place_of_names names false .isDirectory), bind_get]
  simp only [free]
  rfl

theorem create_ok (sound : tree.IsSound) (names : tree.Names path parent name)
    (free : tree.node? (parent ++ [name]) ≠ some .directory) :
    ∃ id after, create path tree = .ok ⟨id⟩ after ∧
      tree.Becomes after (Function.update tree.node? (parent ++ [name]) (some (.file id []))) := by
  have above := names.directory sound
  cases stands : tree.node? (parent ++ [name]) with
  | none =>
      have became := sound.attach_file above stands
      have opened := openForWriting_new names stands
      have emptied := became.sound.modifyContent (by rw [became.nodes, Function.update_self]) fun _ => []
      refine ⟨tree.nextId, _, ?_, ?_, emptied.home.trans became.home, emptied.sound⟩
      · unfold create
        rw [bind_of_ok opened]
        rfl
      · rw [emptied.nodes, became.nodes, Function.update_idem]
  | some node =>
      cases node with
      | directory => exact absurd stands free
      | file id content =>
          have emptied := sound.modifyContent stands fun _ => []
          refine ⟨id, _, ?_, emptied⟩
          unfold create
          rw [bind_of_ok (openForWriting_file names stands)]
          rfl

theorem create_of_blocked (blocked : Blocked tree path) : ∃ fault, create path tree = .error fault tree := by
  unfold create openForWriting
  rcases blocked with failed | ⟨parent, name, asDirectory, found, tooLong⟩
  · refine ⟨.nameTooLong, ?_⟩
    rw [bind_of_error (bind_of_error (look_of_error failed))]
  · have placed : place ⟨parent, some name, asDirectory⟩ .isDirectory tree = .error .nameTooLong tree := by
      simp [place, tooLong]
    cases asDirectory with
    | true =>
        refine ⟨.isDirectory, bind_of_error ?_⟩
        rw [bind_of_ok (look_of_ok found)]
        exact bind_of_error rfl
    | false =>
        refine ⟨.nameTooLong, bind_of_error ?_⟩
        rw [bind_of_ok (look_of_ok found)]
        simp only [Bool.false_eq_true, if_false]
        exact bind_of_error placed

theorem create_of_directory (names : tree.Names path parent name) (there : tree.node? (parent ++ [name]) = some .directory) :
    create path tree = .error .isDirectory tree := by
  unfold create openForWriting
  refine bind_of_error ?_
  rw [bind_of_ok (look_of_ok names.slot)]
  simp only [Bool.false_eq_true, if_false]
  rw [bind_of_ok (place_of_names names false .isDirectory), bind_get]
  simp [there]

theorem append_ok (sound : tree.IsSound) {location : Location} (stands : tree.node? location = some (.file id content))
    (bytes : Bytes) :
    ∃ after, append ⟨id⟩ bytes tree = .ok () after ∧
      tree.Becomes after (Function.update tree.node? location (some (.file id (content ++ bytes)))) :=
  ⟨_, rfl, sound.modifyContent stands (· ++ bytes)⟩

theorem removeFile_ok (sound : tree.IsSound) (names : tree.Names path parent name)
    (stands : tree.node? (parent ++ [name]) = some (.file id content)) :
    ∃ after, removeFile path tree = .ok () after ∧
      tree.Becomes after (Function.update tree.node? (parent ++ [name]) none) := by
  refine ⟨_, ?_, sound.detach stands⟩
  unfold removeFile
  rw [bind_of_ok (look_of_ok names.slot), bind_of_ok (place_of_names names false .isDirectory), bind_get]
  simp [stands]

theorem removeFile_missing (names : tree.Names path parent name) (free : tree.node? (parent ++ [name]) = none) :
    removeFile path tree = .error .notFound tree := by
  unfold removeFile
  rw [bind_of_ok (look_of_ok names.slot), bind_of_ok (place_of_names names false .isDirectory), bind_get]
  simp [free]

theorem removeFile_of_directory (names : tree.Names path parent name)
    (there : tree.node? (parent ++ [name]) = some .directory) : removeFile path tree = .error .isDirectory tree := by
  unfold removeFile
  rw [bind_of_ok (look_of_ok names.slot), bind_of_ok (place_of_names names false .isDirectory), bind_get]
  simp [there]

theorem removeFile_of_blocked (blocked : Blocked tree path) : removeFile path tree = .error .nameTooLong tree := by
  unfold removeFile
  rcases blocked with failed | ⟨parent, name, asDirectory, found, tooLong⟩
  · exact bind_of_error (look_of_error failed)
  · rw [bind_of_ok (look_of_ok found)]
    apply bind_of_error
    simp [place, tooLong]

theorem removeIfExists_ok (sound : tree.IsSound) (names : tree.Names path parent name)
    (free : tree.node? (parent ++ [name]) ≠ some .directory) :
    ∃ after, removeIfExists path tree = .ok () after ∧
      tree.Becomes after (Function.update tree.node? (parent ++ [name]) none) := by
  unfold removeIfExists
  cases stands : tree.node? (parent ++ [name]) with
  | none =>
      have missing := removeFile_missing names stands
      refine ⟨tree, ?_, ?_, rfl, sound⟩
      · rw [tryCatch_of_error missing]
        simp
      · rw [← stands, Function.update_eq_self]
  | some node =>
      cases node with
      | directory => exact absurd stands free
      | file id content =>
          obtain ⟨after, done, became⟩ := removeFile_ok sound names stands
          exact ⟨after, tryCatch_of_ok done, became⟩

theorem removeIfExists_of_directory (names : tree.Names path parent name)
    (there : tree.node? (parent ++ [name]) = some .directory) : removeIfExists path tree = .error .isDirectory tree := by
  rw [removeIfExists, tryCatch_of_error (removeFile_of_directory names there)]
  simp

theorem removeIfExists_of_blocked (blocked : Blocked tree path) :
    removeIfExists path tree = .error .nameTooLong tree := by
  rw [removeIfExists, tryCatch_of_error (removeFile_of_blocked blocked)]
  simp

theorem rename_ok {target goalName : String} {goalParent : Location} (sound : tree.IsSound)
    (names : tree.Names path parent name) (goal : tree.Names target goalParent goalName)
    (stands : tree.node? (parent ++ [name]) = some (.file id content))
    (replaced : tree.node? (goalParent ++ [goalName]) ≠ some .directory)
    (different : goalParent ++ [goalName] ≠ parent ++ [name]) :
    ∃ after, rename path target tree = .ok () after ∧
      tree.Becomes after (Function.update (Function.update tree.node? (parent ++ [name]) none)
        (goalParent ++ [goalName]) (some (.file id content))) := by
  refine ⟨_, ?_, sound.move stands (goal.directory sound) replaced different⟩
  have bare := sound.isBare replaced
  unfold rename
  rw [bind_of_ok (look_of_ok names.slot), bind_of_ok (look_of_ok goal.slot),
    bind_of_ok (place_of_names names false .invalidArgument), bind_of_ok (place_of_names goal false .invalidArgument), bind_get]
  cases there : tree.node? (goalParent ++ [goalName]) with
  | none =>
      simp [stands, different.symm, FileNode.isDirectory]
  | some node =>
      cases node with
      | directory => exact absurd there replaced
      | file other kept =>
          simp [stands, different.symm, bare, FileNode.isDirectory]

theorem makeDirectory_of_find {directory : Location} (found : tree.find path = .ok (directory, .directory)) :
    makeDirectory path tree = .error .alreadyExists tree := by
  unfold FileTree.find at found
  unfold makeDirectory
  -- Making a directory goes the way that finding one has gone, up to the last name.
  cases ready : tree.route path with
  | error fault => simp [ready, bind, Except.bind] at found
  | ok route =>
      simp only [ready, bind, Except.bind] at found
      cases last : route.steps.getLast? with
      | none =>
          have slot : tree.slot path = .ok ⟨route.start, none, true⟩ := by
            simp [FileTree.slot, ready, last, bind, Except.bind, pure, Except.pure]
          rw [bind_of_ok (look_of_ok slot)]
          exact bind_of_error rfl
      | some final =>
          simp only [last] at found
          cases way : tree.follow route.start route.steps.dropLast with
          | error fault => simp [way] at found
          | ok above =>
              simp only [way] at found
              cases next : FileTree.step above final with
              | error fault => simp [next] at found
              | ok place =>
                  simp only [next] at found
                  have stands : tree.node? place = some .directory := by
                    cases there : tree.node? place with
                    | none => simp [there] at found
                    | some node =>
                        cases node with
                        | directory => rfl
                        | file id content =>
                            rw [there] at found
                            cases asDirectory : route.asDirectory <;> simp [asDirectory, pure, Except.pure] at found
                  by_cases special : final = "." ∨ final = ".."
                  · have slot : tree.slot path = .ok ⟨above, none, true⟩ := by
                      simp [FileTree.slot, ready, last, way, special, bind, Except.bind, pure, Except.pure]
                    rw [bind_of_ok (look_of_ok slot)]
                    exact bind_of_error rfl
                  · have slot : tree.slot path = .ok ⟨above, some final, route.asDirectory⟩ := by
                      simp [FileTree.slot, ready, last, way, special, bind, Except.bind, pure, Except.pure]
                    have placed : Files.place ⟨above, some final, route.asDirectory⟩ .alreadyExists tree =
                        .ok place tree := by simp [Files.place, next]
                    rw [bind_of_ok (look_of_ok slot), bind_of_ok placed, bind_get]
                    simp [stands]

theorem makeDirectories_of_find {directory : Location} (nonempty : path ≠ "")
    (found : tree.find path = .ok (directory, .directory)) : makeDirectories path tree = .ok () tree := by
  have there : tree.isDirectory path = true := by simp [FileTree.isDirectory, found]
  have some : path.isEmpty = false := by simpa using nonempty
  unfold makeDirectories makeDirectoriesFrom
  simp only [some, Bool.false_eq_true, if_false]
  have failed := makeDirectory_of_find found
  refine (bind_of_ok (?_ : _ = EStateM.Result.ok false tree)).trans rfl
  refine (tryCatch_of_error (bind_of_error failed)).trans ?_
  simp [bind_get, there]

theorem makeDirectory_of_names (names : tree.Names path parent name) (free : tree.node? (parent ++ [name]) = none) :
    makeDirectory path tree = .ok () (tree.attach (parent ++ [name]) .directory) := by
  unfold makeDirectory
  rw [bind_of_ok (look_of_ok names.slot), bind_of_ok (place_of_names names false .alreadyExists), bind_get]
  simp only [free]
  rfl

theorem makeDirectories_of_names (names : tree.Names path parent name) (free : tree.node? (parent ++ [name]) = none) :
    makeDirectories path tree = .ok () (tree.attach (parent ++ [name]) .directory) := by
  obtain ⟨-, nonempty, -⟩ := slot_ok names.slot
  have some : path.isEmpty = false := by
    rw [Bool.eq_false_iff]
    intro empty
    exact nonempty (by rw [String.isEmpty_iff.mp empty]; rfl)
  have made := makeDirectory_of_names names free
  unfold makeDirectories makeDirectoriesFrom
  simp only [some, Bool.false_eq_true, if_false]
  refine (bind_of_ok (?_ : _ = EStateM.Result.ok false (tree.attach (parent ++ [name]) .directory))).trans rfl
  exact tryCatch_of_ok (bind_of_ok made)

end Files

end KeyedLog
