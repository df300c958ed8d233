import KeyedLog.Proofs.Files.MakingAlike

/-!
What is missing, in two trees that look the same to somebody. Even if only one of them has the directories on the way,
what he asks for is missing in both, for the same reason.
-/

namespace KeyedLog

open FileTree

namespace FileTree

variable {scope : Scope} {tree twin : FileTree} {start parent location : Location} {names : List String} {path name : String}
  {fault : IoFault} {asDirectory : Bool}

structure IsFilePath (path : String) : Prop where
  loose : path.toList.getLast? ≠ some '/'
  named : ∃ before name, Path.steps path.toList = before ++ [name] ∧ Path.IsName name
  short : ∀ name ∈ pathNames path, (Utf8.encode name).length ≤ maxNameLength

theorem IsFilePath.shape (file : IsFilePath path) : ∃ before name, pathNames path = before ++ [name] ∧ name ≠ "." ∧ name ≠ ".." := by
  obtain ⟨before, name, steps, named⟩ := file.named
  refine ⟨before.map String.ofList, String.ofList name, by rw [pathNames, steps, List.map_append, List.map_singleton], ?_, ?_⟩
  · exact fun same => named.ordinary (String.ofList_inj.mp same)
  · exact fun same => named.down (String.ofList_inj.mp same)

theorem IsFilePath.slot (file : IsFilePath path) {route : Route} (ready : tree.route path = .ok route)
    (way : tree.follow (tree.origin path.toList) (pathNames path).dropLast = .ok parent) :
    ∃ before name, pathNames path = before ++ [name] ∧ tree.slot path = .ok ⟨parent, some name, false⟩ := by
  obtain ⟨before, name, names, ordinary, down⟩ := file.shape
  obtain rfl : route = ⟨tree.origin path.toList, pathNames path, _⟩ := (route_ok ready).2.2.2
  refine ⟨before, name, names, ?_⟩
  rw [slot_eq, ready]
  simp only [bind, Except.bind, way]
  simp [names, ordinary, down, file.loose]

theorem short_of_follow (way : tree.follow start names = .ok location) :
    ∀ name ∈ names, (Utf8.encode name).length ≤ maxNameLength := by
  induction names generalizing start with
  | nil => simp
  | cons first rest ih =>
      obtain ⟨place, next, -, further⟩ := follow_cons_ok.mp way
      intro name member
      rcases List.mem_cons.mp member with rfl | later
      · by_cases dot : name = "."
        · subst dot
          decide
        · by_cases up : name = ".."
          · subst up
            decide
          · rw [step_ordinary dot up] at next
            by_contra long
            simp [Nat.lt_of_not_le long] at next
      · exact ih further name later

theorem step_of_short (short : (Utf8.encode name).length ≤ maxNameLength) (start : Location) :
    step start name = .ok (descend start name) := by
  unfold step descend
  rw [if_neg (Nat.not_lt.mpr short)]
  split
  · rfl
  · split <;> rfl

theorem follow_error_of_short (short : ∀ name ∈ names, (Utf8.encode name).length ≤ maxNameLength)
    (failed : tree.follow start names = .error fault) : fault = .notFound ∨ fault = .notDirectory := by
  induction names generalizing start with
  | nil => simp [FileTree.follow] at failed
  | cons name rest ih =>
      rw [List.forall_mem_cons] at short
      simp only [FileTree.follow, step_of_short short.1, bind, Except.bind] at failed
      split at failed
      · exact .inl (Except.error.inj failed).symm
      · exact ih short.2 failed
      · exact .inr (Except.error.inj failed).symm

/-- There is nothing where the path leads, for this reason. -/
structure Lacks (tree : FileTree) (path : String) (fault : IoFault) : Prop where
  find : tree.find path = .error fault
  remove : Files.removeFile path tree = .error fault tree

theorem lacks_of_slot_error (failed : tree.slot path = .error fault) : tree.Lacks path fault := by
  refine ⟨find_of_slot_error failed, ?_⟩
  unfold Files.removeFile
  exact bind_of_error (Files.look_of_error failed)

theorem lacks_of_free (found : tree.slot path = .ok ⟨parent, some name, asDirectory⟩)
    (next : step parent name = .ok location) (free : tree.node? location = none) : tree.Lacks path .notFound := by
  refine ⟨?_, ?_⟩
  · rw [find_of_slot found, next]
    simp only [bind, Except.bind, free]
  · unfold Files.removeFile
    rw [bind_of_ok (Files.look_of_ok found)]
    rw [bind_of_ok (show Files.place _ _ tree = .ok location tree by simp [Files.place, next])]
    rw [bind_get, free]
    rfl

theorem Twins.free_of_misses {upper lower : List String} (twins : Twins scope tree twin) (claims : scope.Claims tree path)
    (shape : pathNames path = upper ++ lower ++ [name]) (down : name ≠ "..")
    (misses : Misses tree twin (tree.origin path.toList) upper lower) : tree.node? (tree.place path) = none := by
  obtain ⟨rest, below⟩ := descend_below (lower ++ [name]) (upper.foldl descend (tree.origin path.toList))
    (by simp [misses.onward, Ne.symm down])
  rw [← sight?_none, ← twins.own _ claims.own, sight?_none, place_eq, shape, List.append_assoc, List.foldl_append, below]
  exact misses.free_below twins.soundTwin rest

theorem Twins.agrees_or_lacks (twins : Twins scope tree twin) (claims : scope.Claims tree path) (file : IsFilePath path) :
    Agrees tree twin path ∨ ∃ fault, tree.Lacks path fault ∧ twin.Lacks path fault := by
  obtain ⟨before, name, names, -, down⟩ := file.shape
  cases ready : tree.route path with
  | error fault =>
      have failed : ∀ {tree : FileTree}, tree.route path = .error fault → tree.slot path = .error fault := by
        intro tree ready
        rw [slot_eq, ready]
        rfl
      exact .inr ⟨fault, lacks_of_slot_error (failed ready),
        lacks_of_slot_error (failed ((route_congr twins.home path).trans ready))⟩
  | ok route =>
      have passes := claims.passes
      rw [names] at passes
      rcases twins.follow passes.front with same | ⟨upper, lower, shape, misses⟩
      · left
        rw [Agrees, names, List.dropLast_concat]
        exact same
      · have front : (pathNames path).dropLast = upper ++ lower := by rw [names, List.dropLast_concat, shape]
        have readyTwin := (route_congr twins.home path).trans ready
        refine .inr ⟨.notFound, ?_, ?_⟩
        -- In the first tree the way may fail earlier, or go on to the directory of the file, which is not there then.
        · have free := twins.free_of_misses claims (shape ▸ names) down misses
          cases way : tree.follow (tree.origin path.toList) (pathNames path).dropLast with
          | error fault =>
              have kind := follow_error_of_short (fun name member => file.short name (List.dropLast_subset _ member)) way
              have other : fault ≠ .notDirectory := by
                rintro rfl
                rw [front] at way
                exact misses.follow_ne twins.soundTwin twins (shape ▸ passes.front) way
              obtain rfl := kind.resolve_right other
              exact lacks_of_slot_error (slot_eq_of_follow_error ready way)
          | ok parent =>
              obtain ⟨_, last, shape, found⟩ := file.slot ready way
              have next := step_of_short (file.short last (by simp [shape])) parent
              refine lacks_of_free found next ?_
              rw [← place_of_slot found rfl next]
              exact free
        · refine lacks_of_slot_error (slot_eq_of_follow_error readyTwin ?_)
          rw [origin_congr twins.home, front]
          exact misses.failedAll

theorem Twins.find_file (twins : Twins scope tree twin) (claims : scope.Claims tree path) (file : IsFilePath path) :
    (∃ fault, tree.find path = .error fault ∧ twin.find path = .error fault) ∨
      Agrees tree twin path ∧ ∃ place node placeTwin nodeTwin, tree.find path = .ok (place, node) ∧
        twin.find path = .ok (placeTwin, nodeTwin) ∧ nodeTwin.sight = node.sight := by
  rcases twins.agrees_or_lacks claims file with agrees | ⟨fault, lacks, lacksTwin⟩
  · exact (twins.find claims agrees).imp_right fun found => ⟨agrees, found⟩
  · exact .inl ⟨fault, lacks.find, lacksTwin.find⟩

end FileTree

namespace Files

variable {scope : Scope} {tree twin : FileTree} {path : String}

theorem isFilePath_of_touch {opened : FileHandle × Nat} {after : FileTree} (sound : tree.IsSound)
    (done : touch path tree = .ok opened after) : IsFilePath path := by
  obtain ⟨sound, parent, name, content, names, -⟩ := touch_ok sound done
  obtain ⟨-, -, -, ending, -, -, before, steps, way⟩ := slot_ok names.slot
  obtain ⟨-, -, -, -, named, -⟩ := Leads.of_slot sound names.slot
  refine ⟨by simpa using ending.symm, ⟨before, name.toList, steps, named⟩, ?_⟩
  rw [pathNames, steps, List.map_append, List.map_singleton, String.ofList_toList, List.forall_mem_append]
  exact ⟨short_of_follow way, by simpa using names.short⟩

theorem removeFileOrNot_alike (twins : Twins scope tree twin) (claims : scope.Claims tree path) (file : IsFilePath path) :
    Alike scope tree twin Whatever (removeIfExists path tree) (removeIfExists path twin) := by
  rcases twins.agrees_or_lacks claims file with agrees | ⟨fault, lacks, lacksTwin⟩
  · exact removeIfExists_alike twins claims agrees
  · unfold removeIfExists
    rw [tryCatch_of_error lacks.remove, tryCatch_of_error lacksTwin.remove]
    split
    · exact .refl_ok twins trivial
    · exact .refl_error twins fault

theorem removeFile_of_free (free : tree.node? (tree.place path) = none) : stateAfter (removeFile path) tree = tree := by
  unfold removeFile
  cases found : tree.slot path with
  | error fault => rw [stateAfter_of_error (bind_of_error (look_of_error found))]
  | ok slot =>
      obtain ⟨parent, named, asDirectory⟩ := slot
      cases named with
      | none => rw [stateAfter, bind_of_ok (look_of_ok found)]; rfl
      | some name =>
          rw [stateAfter, bind_of_ok (look_of_ok found)]
          cases next : FileTree.step parent name with
          | error fault => simp [place, next, bind, EStateM.bind]
          | ok location =>
              rw [place_of_slot found rfl next] at free
              rw [bind_of_ok (show place _ _ tree = .ok location tree by simp [place, next]), bind_get, free]
              rfl

theorem removeFile_steps {before : List String} {name : String} (twins : Twins scope tree twin)
    (claims : scope.Claims tree path) (names : pathNames path = before ++ [name]) (down : name ≠ "..") :
    Steps scope tree twin (stateAfter (removeFile path) tree) (stateAfter (removeFile path) twin) := by
  have passes := claims.passes
  rw [names] at passes
  rcases twins.follow passes.front with same | ⟨upper, lower, rfl, misses⟩
  · have agrees : Agrees tree twin path := by
      rw [Agrees, names, List.dropLast_concat]
      exact same
    rcases (removeFile_alike twins claims agrees).cases_run with ⟨_, _, after, afterTwin, one, two, steps, -⟩ |
      ⟨fault, after, afterTwin, one, two, steps⟩
    · rw [stateAfter_of_ok one, stateAfter_of_ok two]
      exact steps
    · rw [stateAfter_of_error one, stateAfter_of_error two]
      exact steps
  · have free := twins.free_of_misses claims names down misses
    have freeTwin : twin.node? (twin.place path) = none := by
      rw [place_congr twins.home, ← sight?_none, twins.own _ claims.own, sight?_none]
      exact free
    rw [removeFile_of_free free, removeFile_of_free freeTwin]
    exact .refl twins

end Files

end KeyedLog
