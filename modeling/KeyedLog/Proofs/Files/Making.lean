import KeyedLog.Proofs.Files.TwinRoutes
import KeyedLog.Proofs.Files.Opening

/-!
How directories are made. Making a directory and those above it comes to making those above it first and then the
directory itself, unless the way there is barred by a file.
-/

namespace KeyedLog

open FileTree

namespace FileTree

variable {tree : FileTree} {path : String} {parent : Location} {name : String} {asDirectory : Bool} {fault : IoFault}

theorem route_ne_notFound (nonempty : path ≠ "") : tree.route path ≠ .error .notFound := by
  have some : path.toList.isEmpty = false := by simpa using nonempty
  unfold route
  dsimp only
  split
  · simp
  · simp only [some, Bool.false_eq_true, if_false]
    split <;> simp

theorem slot_eq (tree : FileTree) (path : String) :
    tree.slot path = tree.route path >>= fun route =>
      match route.steps.getLast? with
      | none => .ok ⟨route.start, none, true⟩
      | some name => tree.follow route.start route.steps.dropLast >>= fun parent =>
        if name = "." ∨ name = ".." then .ok ⟨parent, none, true⟩ else .ok ⟨parent, some name, route.asDirectory⟩ := rfl

theorem slot_eq_of_follow_error {route : Route} {fault : IoFault} (ready : tree.route path = .ok route)
    (failed : tree.follow (tree.origin path.toList) (pathNames path).dropLast = .error fault) :
    tree.slot path = .error fault := by
  obtain rfl : route = ⟨tree.origin path.toList, pathNames path, _⟩ := (route_ok ready).2.2.2
  rw [slot_eq, ready]
  simp only [bind, Except.bind, failed]
  cases last : (pathNames path).getLast? with
  | some name => rfl
  | none =>
      rw [List.getLast?_eq_none_iff.mp last] at failed
      simp [FileTree.follow] at failed

theorem find_of_slot_error (failed : tree.slot path = .error fault) : tree.find path = .error fault := by
  rw [slot_eq] at failed
  unfold find
  cases ready : tree.route path with
  | error cause =>
      rw [ready] at failed
      exact congrArg Except.error (Except.error.inj failed)
  | ok route =>
      rw [ready] at failed
      simp only [bind, Except.bind] at failed ⊢
      cases last : route.steps.getLast? with
      | none => simp [last] at failed
      | some name =>
          simp only [last] at failed ⊢
          cases way : tree.follow route.start route.steps.dropLast with
          | error cause =>
              rw [way] at failed
              exact congrArg Except.error (Except.error.inj failed)
          | ok parent =>
              rw [way] at failed
              dsimp only at failed
              split at failed <;> simp at failed

theorem find_of_slot (found : tree.slot path = .ok ⟨parent, some name, asDirectory⟩) :
    tree.find path = step parent name >>= fun location =>
      match tree.node? location with
      | none => .error .notFound
      | some (.file id content) => if asDirectory then .error .notDirectory else .ok (location, .file id content)
      | some .directory => .ok (location, .directory) := by
  rw [slot_eq] at found
  unfold find
  obtain ⟨route, ready, found⟩ := bind_eq_ok.mp found
  rw [ready]
  simp only [bind, Except.bind]
  cases last : route.steps.getLast? with
  | none => simp [last] at found
  | some final =>
      simp only [last] at found ⊢
      obtain ⟨above, way, found⟩ := bind_eq_ok.mp found
      rw [way]
      split at found
      · simp at found
      · simp only [Except.ok.injEq, Slot.mk.injEq, Option.some.injEq] at found
        obtain ⟨rfl, rfl, rfl⟩ := found
        rfl

theorem isDirectory_of_slot (sound : tree.IsSound) (found : tree.slot path = .ok ⟨parent, none, asDirectory⟩) :
    tree.isDirectory path = true := by
  suffices there : ∃ location, tree.find path = .ok (location, .directory) by
    obtain ⟨location, led⟩ := there
    simp [isDirectory, led]
  rw [slot_eq] at found
  obtain ⟨route, ready, found⟩ := bind_eq_ok.mp found
  have shape := (route_ok ready).2.2.2
  cases last : route.steps.getLast? with
  | none => exact ⟨route.start, find_eq_ok.mpr ⟨route, ready, .inl ⟨last, rfl, rfl⟩⟩⟩
  | some final =>
      simp only [last] at found
      obtain ⟨above, way, found⟩ := bind_eq_ok.mp found
      have stands : tree.node? above = some .directory :=
        follow_directory (by rw [shape]; exact origin_directory sound path.toList) way
      split at found
      next special =>
        have higher := sound.directory_dropLast stands
        rcases special with dot | up
        · exact ⟨above, find_eq_ok.mpr ⟨route, ready, .inr ⟨final, above, last, way, by simp [step, dot], stands,
            fun _ => rfl⟩⟩⟩
        · exact ⟨above.dropLast, find_eq_ok.mpr ⟨route, ready, .inr ⟨final, above, last, way, by simp [step, up], higher,
            fun _ => rfl⟩⟩⟩
      · simp at found

end FileTree

namespace Files

variable {tree after : FileTree} {path above : String} {parent : Location} {name : String} {asDirectory : Bool}
  {fault : IoFault}

theorem makeDirectory_of_slot_error (failed : tree.slot path = .error fault) :
    makeDirectory path tree = .error fault tree := by
  unfold makeDirectory
  exact bind_of_error (look_of_error failed)

theorem makeDirectory_of_slot_none (found : tree.slot path = .ok ⟨parent, none, asDirectory⟩) :
    makeDirectory path tree = .error .alreadyExists tree := by
  unfold makeDirectory
  rw [bind_of_ok (look_of_ok found)]
  exact bind_of_error rfl

theorem makeDirectory_of_slot (found : tree.slot path = .ok ⟨parent, some name, asDirectory⟩) :
    makeDirectory path tree = match FileTree.step parent name with
      | .error fault => .error fault tree
      | .ok location =>
        match tree.node? location with
        | none => .ok () (tree.attach location .directory)
        | some _ => .error .alreadyExists tree := by
  unfold makeDirectory
  rw [bind_of_ok (look_of_ok found)]
  cases next : FileTree.step parent name with
  | error fault =>
      have failed : place ⟨parent, some name, asDirectory⟩ .alreadyExists tree = .error fault tree := by simp [place, next]
      exact bind_of_error failed
  | ok location =>
      have placed : place ⟨parent, some name, asDirectory⟩ .alreadyExists tree = .ok location tree := by simp [place, next]
      rw [bind_of_ok placed, bind_get]
      dsimp only
      cases tree.node? location <;> rfl

theorem ensureDirectory_eq (sound : tree.IsSound) (path : String) :
    ensureDirectory path tree = match tree.slot path with
      | .error fault => .error fault tree
      | .ok ⟨_, none, _⟩ => .ok () tree
      | .ok ⟨parent, some name, _⟩ =>
        match FileTree.step parent name with
        | .error fault => .error fault tree
        | .ok location =>
          match tree.node? location with
          | none => .ok () (tree.attach location .directory)
          | some .directory => .ok () tree
          | some (.file ..) => .error .alreadyExists tree := by
  have failing : ∀ fault, makeDirectory path tree = .error fault tree →
      ensureDirectory path tree = if tree.isDirectory path = true then .ok () tree else .error fault tree := by
    intro fault failed
    unfold ensureDirectory
    rw [tryCatch_of_error failed, bind_get]
    split <;> rfl
  cases found : tree.slot path with
  | error fault =>
      rw [failing fault (makeDirectory_of_slot_error found)]
      simp [isDirectory, find_of_slot_error found]
  | ok slot =>
      obtain ⟨parent, named, asDirectory⟩ := slot
      cases named with
      | none =>
          rw [failing _ (makeDirectory_of_slot_none found), isDirectory_of_slot sound found]
          rfl
      | some name =>
          have made := makeDirectory_of_slot found
          have led := find_of_slot found
          cases next : FileTree.step parent name with
          | error fault =>
              simp only [next] at made
              rw [next] at led
              rw [failing fault made]
              simp [isDirectory, led, next, bind, Except.bind]
          | ok location =>
              simp only [next] at made
              rw [next] at led
              cases stands : tree.node? location with
              | none =>
                  simp only [stands] at made
                  simp only [next, stands]
                  exact tryCatch_of_ok made
              | some node =>
                  simp only [stands] at made
                  rw [failing _ made]
                  cases node with
                  | directory => simp [isDirectory, led, next, bind, Except.bind, stands]
                  | file id content => cases asDirectory <;> simp [isDirectory, led, next, bind, Except.bind, stands]

def makeBelow (fuel : Nat) (above path : String) : FileAction Unit := do
  makeDirectoriesFrom fuel above
  ensureDirectory path

theorem makeDirectoriesFrom_of_empty (fuel : Nat) : makeDirectoriesFrom (fuel + 1) "" tree = .ok () tree := by
  unfold makeDirectoriesFrom
  rfl

theorem makeDirectoriesFrom_of_slot (nonempty : path ≠ "")
    (there : tree.slot path ≠ .error .notFound) (fuel : Nat) :
    makeDirectoriesFrom (fuel + 1) path tree = ensureDirectory path tree := by
  have some : path.isEmpty = false := by simpa using nonempty
  -- What is above is made only after a failure that says that something is missing, and this one does not say so.
  have missing : ∀ after, makeDirectory path tree ≠ .error .notFound after := by
    intro after failed
    cases found : tree.slot path with
    | error fault =>
        rw [makeDirectory_of_slot_error found, EStateM.Result.error.injEq] at failed
        exact there (failed.1 ▸ found)
    | ok slot =>
        obtain ⟨parent, named, asDirectory⟩ := slot
        cases named with
        | none =>
            rw [makeDirectory_of_slot_none found] at failed
            simp at failed
        | some name =>
            rw [makeDirectory_of_slot found] at failed
            obtain ⟨-, -, -, -, ordinary, down, -⟩ := slot_ok found
            rw [step_ordinary ordinary down] at failed
            split at failed
            next fault long =>
              split at long
              · cases long
                simp at failed
              · simp at long
            next => split at failed <;> simp at failed
  unfold makeDirectoriesFrom
  simp only [some, Bool.false_eq_true, if_false]
  unfold ensureDirectory
  cases made : makeDirectory path tree with
  | ok value after =>
      rw [tryCatch_of_ok made]
      refine (bind_of_ok (?_ : _ = EStateM.Result.ok false after)).trans rfl
      exact tryCatch_of_ok (bind_of_ok made)
  | error fault after =>
      have other : fault ≠ .notFound := by
        rintro rfl
        exact missing after made
      rw [tryCatch_of_error made]
      refine Eq.trans ?_ (?_ : (if after.isDirectory path = true then EStateM.Result.ok () after else .error fault after) = _)
      · cases directory : after.isDirectory path with
        | true =>
            rw [bind_of_ok (?_ : _ = EStateM.Result.ok false after)]
            · rfl
            · refine (tryCatch_of_error (bind_of_error made)).trans ?_
              simp [other, bind_get, directory]
        | false =>
            refine bind_of_error ((tryCatch_of_error (bind_of_error made)).trans ?_)
            simp [other, bind_get, directory]
      · rw [bind_get]
        cases after.isDirectory path <;> rfl

/-- A directory that is missing is made after the one above it, if its path has one above. -/
theorem makeDirectoriesFrom_of_missing (missing : tree.slot path = .error .notFound) (nonempty : path ≠ "") (fuel : Nat) :
    makeDirectoriesFrom (fuel + 1) path tree =
      match Path.parent? path with
      | none => .error (.other "failed to create whole tree") tree
      | some above => makeBelow fuel above path tree := by
  have some : path.isEmpty = false := by simpa using nonempty
  have made := makeDirectory_of_slot_error missing
  unfold makeDirectoriesFrom
  simp only [some, Bool.false_eq_true, if_false]
  refine (bind_of_ok (?_ : _ = EStateM.Result.ok true tree)).trans ?_
  · exact (tryCatch_of_error (bind_of_error made)).trans rfl
  · simp only [if_true]
    cases Path.parent? path <;> rfl

end Files

end KeyedLog
