import KeyedLog.Proofs.Files.Alike

/-!
Making directories and opening files, in two trees that look the same to somebody. A directory that somebody else has made
in the one tree already is made in the other when it is needed, and nobody notices a difference.
-/

namespace KeyedLog

open FileTree

namespace Files

variable {scope : Scope} {tree twin after : FileTree} {path above : String}

theorem ensureDirectory_alike (twins : Twins scope tree twin)
    (passes : scope.Passes (tree.origin path.toList) (pathNames path)) (agrees : Agrees tree twin path) :
    Alike scope tree twin Whatever (ensureDirectory path tree) (ensureDirectory path twin) := by
  have same := twins.slot agrees
  rw [ensureDirectory_eq twins.sound, ensureDirectory_eq twins.soundTwin, same]
  cases found : tree.slot path with
  | error fault => exact .refl_error twins fault
  | ok target =>
      obtain ⟨parent, named, asDirectory⟩ := target
      cases named with
      | none => exact .refl_ok twins trivial
      | some name =>
          dsimp only
          cases next : FileTree.step parent name with
          | error fault => exact .refl_error twins fault
          | ok location =>
              obtain ⟨rfl, directory, directoryTwin, sees, -⟩ := twins.located agrees passes found rfl next
              -- A directory may be there in the first tree and missing in the second. Then it is made in the second
              -- only.
              rcases twins.sees sees with seen | ⟨there, free⟩
              · rcases node?_of_sight? seen with ⟨free, freeTwin⟩ | ⟨there, thereTwin⟩ |
                  ⟨id, other, content, here, hereTwin⟩
                · simp only [free, freeTwin]
                  exact .ok (twins.attach_directory sees directory directoryTwin free freeTwin) trivial
                · simp only [there, thereTwin]
                  exact .refl_ok twins trivial
                · simp only [here, hereTwin]
                  exact .refl_error twins _
              · simp only [there, free]
                exact .ok (twins.attach_missing sees directoryTwin there free) trivial

theorem ensureDirectory_of_find {location : Location} (found : tree.find path = .ok (location, .directory)) :
    ensureDirectory path tree = .ok () tree := by
  have there : tree.isDirectory path = true := by simp [FileTree.isDirectory, found]
  unfold ensureDirectory
  rw [tryCatch_of_error (makeDirectory_of_find found), bind_get]
  simp [there]

theorem ensureDirectory_follows (made : ensureDirectory path tree = .ok () after) :
    ∃ place, after.follow (after.origin path.toList) (pathNames path) = .ok place := by
  unfold ensureDirectory at made
  cases found : tree.slot path with
  | error fault =>
      rw [tryCatch_of_error (makeDirectory_of_slot_error found), bind_get] at made
      simp [FileTree.isDirectory, find_of_slot_error found] at made
  | ok target =>
      obtain ⟨parent, named, asDirectory⟩ := target
      have there : ∀ fault, makeDirectory path tree = .error fault tree →
          ∃ place, after.follow (after.origin path.toList) (pathNames path) = .ok place := by
        intro fault failed
        rw [tryCatch_of_error failed, bind_get] at made
        split at made
        next directory =>
          cases made
          exact ((isDirectory_iff tree path).mp directory).2
        next => simp at made
      cases named with
      | none => exact there _ (makeDirectory_of_slot_none found)
      | some name =>
          have result := makeDirectory_of_slot found
          cases next : FileTree.step parent name with
          | error fault =>
              simp only [next] at result
              exact there fault result
          | ok location =>
              simp only [next] at result
              cases free : tree.node? location with
              | some node =>
                  simp only [free] at result
                  exact there _ result
              | none =>
                  simp only [free] at result
                  rw [tryCatch_of_ok result] at made
                  cases made
                  obtain ⟨-, -, -, -, -, -, before, steps, way⟩ := slot_ok found
                  have nodes := node?_attach tree free .directory
                  have kept : tree.KeepsDirectories (tree.attach location .directory) := by
                    refine ⟨rfl, fun place stands => ?_⟩
                    have elsewhere : place ≠ location := by
                      rintro rfl
                      simp [free] at stands
                    rw [nodes, Function.update_of_ne elsewhere, stands]
                  refine ⟨location, ?_⟩
                  rw [pathNames, steps, List.map_append, List.map_singleton, String.ofList_toList]
                  refine follow_concat_ok.mpr ⟨parent, follow_mono kept way, next, ?_⟩
                  rw [nodes, Function.update_self]

theorem makeDirectoriesFrom_follows {fuel : Nat} (made : makeDirectoriesFrom (fuel + 1) path tree = .ok () after) :
    ∃ place, after.follow (after.origin path.toList) (pathNames path) = .ok place := by
  by_cases empty : path = ""
  · subst empty
    exact ⟨_, rfl⟩
  · by_cases missing : tree.slot path = .error .notFound
    · rw [makeDirectoriesFrom_of_missing missing empty] at made
      cases parent : Path.parent? path with
      | none => simp [parent] at made
      | some above =>
          simp only [parent] at made
          unfold makeBelow at made
          cases first : makeDirectoriesFrom fuel above tree with
          | error fault middle =>
              rw [bind_of_error first] at made
              simp at made
          | ok value middle =>
              rw [bind_of_ok first] at made
              exact ensureDirectory_follows made
    · rw [makeDirectoriesFrom_of_slot empty missing] at made
      exact ensureDirectory_follows made

theorem route_above {above : String} {route : Route} (isAbove : Path.IsAbove above path) (nonempty : above ≠ "")
    (ready : tree.route path = .ok route) : ∃ route, tree.route above = .ok route := by
  obtain ⟨clean, -, short, -⟩ := route_ok ready
  obtain ⟨rest, split⟩ := isAbove.start
  have cleanAbove : '\x00' ∉ above.toList := fun inside => clean (split ▸ List.mem_append_left rest inside)
  have shortAbove : (Utf8.encodeChars above.toList).length < maxPathLength := by
    rw [← split, Utf8.encodeChars_append, List.length_append] at short
    omega
  have shape := route_of_short tree cleanAbove (by simpa using nonempty)
  rw [if_pos shortAbove, String.ofList_toList] at shape
  exact ⟨_, shape⟩

theorem slot_ne_of_follow_ok {place : Location} (nonempty : path ≠ "")
    (way : tree.follow (tree.origin path.toList) (pathNames path).dropLast = .ok place) :
    tree.slot path ≠ .error .notFound := by
  intro failed
  rw [slot_eq] at failed
  cases ready : tree.route path with
  | error fault =>
      rw [ready] at failed
      obtain rfl : fault = .notFound := Except.error.inj failed
      exact route_ne_notFound nonempty ready
  | ok route =>
      obtain rfl : route = ⟨tree.origin path.toList, pathNames path, _⟩ := (route_ok ready).2.2.2
      rw [ready] at failed
      simp only [bind, Except.bind, way] at failed
      split at failed
      · simp at failed
      · split at failed <;> simp at failed

theorem makeDirectoriesFrom_of_follow {place : Location} {route : Route} (ready : path ≠ "" → tree.route path = .ok route)
    (way : tree.follow (tree.origin path.toList) (pathNames path) = .ok place) (fuel : Nat) :
    makeDirectoriesFrom (fuel + 1) path tree = .ok () tree := by
  by_cases empty : path = ""
  · subst empty
    exact makeDirectoriesFrom_of_empty fuel
  · have directory := (isDirectory_iff tree path).mpr ⟨⟨_, ready empty⟩, place, way⟩
    unfold FileTree.isDirectory at directory
    split at directory
    next location led =>
      have there : tree.slot path ≠ .error .notFound := by
        intro failed
        rw [find_of_slot_error failed] at led
        simp at led
      rw [makeDirectoriesFrom_of_slot empty there, ensureDirectory_of_find led]
    next => simp at directory

theorem ensureDirectory_of_follow_error {route : Route} {fault : IoFault} (sound : tree.IsSound)
    (ready : tree.route path = .ok route)
    (failed : tree.follow (tree.origin path.toList) (pathNames path) = .error fault) (there : fault ≠ .notFound)
    (free : fault ≠ .notDirectory) :
    tree.slot path ≠ .error .notFound ∧ ensureDirectory path tree = .error fault tree := by
  -- The last name is tried only if the way before it can be gone. Where it cannot, the fault is that of the way.
  rcases List.eq_nil_or_concat (pathNames path) with none | ⟨initial, last, names⟩
  · rw [none] at failed
    simp [FileTree.follow] at failed
  · rw [List.concat_eq_append] at names
    have front : (pathNames path).dropLast = initial := by rw [names, List.dropLast_concat]
    rw [names, follow_append] at failed
    rw [ensureDirectory_eq sound]
    cases way : tree.follow (tree.origin path.toList) initial with
    | error cause =>
        rw [way] at failed
        obtain rfl : cause = fault := Except.error.inj failed
        rw [slot_eq_of_follow_error ready (front ▸ way)]
        exact ⟨by simpa using there, rfl⟩
    | ok parent =>
        rw [way] at failed
        simp only [bind, Except.bind, FileTree.follow] at failed
        cases next : FileTree.step parent last with
        | ok place =>
            simp only [next] at failed
            split at failed
            · exact absurd (Except.error.inj failed).symm there
            · simp at failed
            · exact absurd (Except.error.inj failed).symm free
        | error cause =>
            simp only [next] at failed
            obtain rfl : cause = fault := Except.error.inj failed
            have special : ¬ (last = "." ∨ last = "..") := by
              rintro (rfl | rfl) <;> simp [FileTree.step] at next
            obtain rfl : route = ⟨tree.origin path.toList, pathNames path, _⟩ := (route_ok ready).2.2.2
            have found : tree.slot path = .ok ⟨parent, some last, path.toList.getLast? = some '/'⟩ := by
              rw [slot_eq, ready]
              simp [bind, Except.bind, names, way, special]
            rw [found]
            simp only [next]
            exact ⟨by simp, trivial⟩

theorem pathNames_of_steps_dots {above : String} {name : List Char} {one two : Nat}
    (steps : Path.steps path.toList =
      Path.steps above.toList ++ List.replicate one ['.'] ++ [name] ++ List.replicate two ['.']) :
    pathNames path = pathNames above ++ List.replicate one "." ++ [String.ofList name] ++ List.replicate two "." := by
  rw [pathNames, steps, List.map_append, List.map_append, List.map_append, List.map_replicate, List.map_replicate]
  rfl

theorem pathNames_of_steps {above : String} {name : List Char} {count : Nat}
    (steps : Path.steps path.toList = Path.steps above.toList ++ List.replicate count ['.'] ++ [name]) :
    pathNames path = pathNames above ++ List.replicate count "." ++ [String.ofList name] := by
  have dots : Path.steps path.toList =
      Path.steps above.toList ++ List.replicate count ['.'] ++ [name] ++ List.replicate 0 ['.'] := by simpa using steps
  simpa using pathNames_of_steps_dots dots

theorem dropLast_of_steps {above : String} {name : List Char} {count : Nat}
    (steps : Path.steps path.toList = Path.steps above.toList ++ List.replicate count ['.'] ++ [name]) :
    (pathNames path).dropLast = pathNames above ++ List.replicate count "." := by
  rw [pathNames_of_steps steps, List.dropLast_concat]

/-- Unless a file bars the way, making a directory and those above it comes to making those above it first. -/
theorem makeDirectoriesFrom_eq {above : String} {route : Route} {name : List Char} {count fuel : Nat}
    (sound : tree.IsSound) (ready : tree.route path = .ok route) (isAbove : Path.IsAbove above path)
    (steps : Path.steps path.toList = Path.steps above.toList ++ List.replicate count ['.'] ++ [name])
    (free : tree.follow (tree.origin path.toList) (pathNames path).dropLast ≠ .error .notDirectory)
    (enough : above.length < fuel) :
    makeDirectoriesFrom (fuel + 1) path tree = makeBelow fuel above path tree := by
  obtain ⟨fuel, rfl⟩ := Nat.exists_eq_add_of_lt (Nat.zero_lt_of_lt enough)
  rw [Nat.zero_add]
  have nonempty : path ≠ "" := by
    rintro rfl
    have shorter := isAbove.shorter
    simp at shorter
  have names := dropLast_of_steps steps
  have origin : tree.origin above.toList = tree.origin path.toList := by
    simp only [FileTree.origin, isAbove.root]
  rw [names] at free
  cases way : tree.follow (tree.origin path.toList) (pathNames above ++ List.replicate count ".") with
  | ok place =>
      have wayAbove := way
      rw [follow_append, bind_eq_ok] at wayAbove
      obtain ⟨upper, wayAbove, -⟩ := wayAbove
      rw [← origin] at wayAbove
      have made : makeDirectoriesFrom (fuel + 1) above tree = .ok () tree := by
        by_cases empty : above = ""
        · subst empty
          exact makeDirectoriesFrom_of_empty fuel
        · obtain ⟨_, readyAbove⟩ := route_above isAbove empty ready
          exact makeDirectoriesFrom_of_follow (fun _ => readyAbove) wayAbove fuel
      rw [makeDirectoriesFrom_of_slot nonempty (slot_ne_of_follow_ok nonempty (names ▸ way)), makeBelow, bind_of_ok made]
  | error fault =>
      have failed := slot_eq_of_follow_error ready (names ▸ way)
      by_cases missing : fault = .notFound
      · subst missing
        rw [makeDirectoriesFrom_of_missing failed nonempty, isAbove.parent]
      · have other : fault ≠ .notDirectory := by
          rintro rfl
          exact free way
        have failedAbove : tree.follow (tree.origin above.toList) (pathNames above) = .error fault := by
          rw [origin]
          cases upper : tree.follow (tree.origin path.toList) (pathNames above) with
          | error cause =>
              rw [follow_error upper] at way
              exact way
          | ok place =>
              have stands := follow_directory (origin_directory sound path.toList) upper
              rw [follow_append, upper] at way
              exact absurd ((follow_dots stands count).symm.trans way) (by simp)
        have nonemptyAbove : above ≠ "" := by
          rintro rfl
          exact absurd failedAbove (by simp [pathNames, Path.steps, Text.split, FileTree.follow])
        obtain ⟨_, readyAbove⟩ := route_above isAbove nonemptyAbove ready
        obtain ⟨there, barred⟩ := ensureDirectory_of_follow_error sound readyAbove failedAbove missing other
        have all : tree.follow (tree.origin path.toList) (pathNames path) = .error fault := by
          rw [pathNames_of_steps steps]
          exact follow_error way _
        rw [makeDirectoriesFrom_of_slot nonempty (by simpa [failed] using missing),
          (ensureDirectory_of_follow_error sound ready all missing other).2, makeBelow]
        refine (bind_of_error ?_).symm
        rw [makeDirectoriesFrom_of_slot nonemptyAbove there, barred]

theorem origin_above {above : String} (isAbove : Path.IsAbove above path) :
    tree.origin above.toList = tree.origin path.toList := by
  simp only [FileTree.origin, isAbove.root]

theorem agrees_of_made {above : String} {one : Nat} {place : Location} (twins : Twins scope tree twin)
    (passes : scope.Passes (tree.origin path.toList) (pathNames path)) (origin : tree.origin above.toList = tree.origin path.toList)
    (names : (pathNames path).dropLast = pathNames above ++ List.replicate one ".")
    (made : twin.follow (twin.origin above.toList) (pathNames above) = .ok place) : Agrees tree twin path := by
  have begins := origin_directory twins.soundTwin above.toList
  have stands := follow_directory begins made
  have way : twin.follow (tree.origin path.toList) (pathNames path).dropLast = .ok place := by
    rw [origin_congr twins.home, origin] at made
    rw [names, follow_append, made]
    exact follow_dots stands one
  have front : scope.Passes (tree.origin path.toList) (pathNames path).dropLast := by
    rcases List.eq_nil_or_concat (pathNames path) with none | ⟨initial, last, shape⟩
    · rw [none]
      trivial
    · rw [shape, List.concat_eq_append] at passes
      rw [shape, List.concat_eq_append, List.dropLast_concat]
      exact passes.front
  rw [Agrees, way, twins.follow_of_ok front way]

theorem makeBelow_alike {above : String} {name : List Char} {count fuel : Nat}
    (passes : scope.Passes (tree.origin path.toList) (pathNames path)) (isAbove : Path.IsAbove above path)
    (steps : Path.steps path.toList = Path.steps above.toList ++ List.replicate count ['.'] ++ [name])
    (first : Alike scope tree twin Whatever (makeDirectoriesFrom (fuel + 1) above tree)
      (makeDirectoriesFrom (fuel + 1) above twin)) :
    Alike scope tree twin Whatever (makeBelow (fuel + 1) above path tree) (makeBelow (fuel + 1) above path twin) := by
  have names := dropLast_of_steps steps
  refine first.bind_steps ?_
  intro _ _ after afterTwin _ made _ steps
  obtain ⟨place, way⟩ := makeDirectoriesFrom_follows made
  have passes : scope.Passes (after.origin path.toList) (pathNames path) := by
    rw [origin_congr steps.changes.home]
    exact passes
  exact ensureDirectory_alike steps.twins passes (agrees_of_made steps.twins passes (origin_above isAbove) names way)

theorem makeDirectoriesFrom_agrees {fuel : Nat} (twins : Twins scope tree twin)
    (passes : scope.Passes (tree.origin path.toList) (pathNames path)) (nonempty : path ≠ "") (agrees : Agrees tree twin path)
    (below : ∀ above, Path.parent? path = some above →
      Alike scope tree twin Whatever (makeBelow fuel above path tree) (makeBelow fuel above path twin)) :
    Alike scope tree twin Whatever (makeDirectoriesFrom (fuel + 1) path tree) (makeDirectoriesFrom (fuel + 1) path twin) := by
  have same := twins.slot agrees
  by_cases missing : tree.slot path = .error .notFound
  · rw [makeDirectoriesFrom_of_missing missing nonempty, makeDirectoriesFrom_of_missing (same.trans missing) nonempty]
    cases parent : Path.parent? path with
    | none => exact .refl_error twins _
    | some above => exact below above parent
  · rw [makeDirectoriesFrom_of_slot nonempty missing, makeDirectoriesFrom_of_slot nonempty (same ▸ missing)]
    exact ensureDirectory_alike twins passes agrees

theorem makeDirectoriesFrom_refused {fault : IoFault} (fuel : Nat) (twins : Twins scope tree twin) (nonempty : path ≠ "")
    (refused : tree.route path = .error fault) :
    Alike scope tree twin Whatever (makeDirectoriesFrom (fuel + 1) path tree) (makeDirectoriesFrom (fuel + 1) path twin) := by
  have there : fault ≠ .notFound := fun same => route_ne_notFound nonempty (same ▸ refused)
  have failed : ∀ {tree : FileTree}, tree.route path = .error fault → tree.slot path = .error fault := by
    intro tree ready
    rw [slot_eq, ready]
    rfl
  have failedTwin := failed ((route_congr twins.home path).trans refused)
  rw [makeDirectoriesFrom_of_slot nonempty (by simpa [failed refused] using there),
    makeDirectoriesFrom_of_slot nonempty (by simpa [failedTwin] using there), ensureDirectory_eq twins.sound,
    ensureDirectory_eq twins.soundTwin, failed refused, failedTwin]
  exact .refl_error twins fault

theorem makeDirectoriesFrom_alike {fuel : Nat} (twins : Twins scope tree twin) (tidy : Path.IsTidy path.toList)
    (enough : path.length < fuel) (passes : scope.Passes (tree.origin path.toList) (pathNames path)) :
    Alike scope tree twin Whatever (makeDirectoriesFrom fuel path tree) (makeDirectoriesFrom fuel path twin) := by
  -- One path above another, each is made after those above it, which the induction makes alike.
  induction fuel generalizing path with
  | zero => exact absurd enough (Nat.not_lt_zero _)
  | succ fuel ih =>
      by_cases empty : path = ""
      · subst empty
        rw [makeDirectoriesFrom_of_empty, makeDirectoriesFrom_of_empty]
        exact .refl_ok twins trivial
      rcases tidy.above with idle | ⟨above, name, count, isAbove, steps⟩
      · have none : (pathNames path).dropLast = [] := by
          rcases idle with idle | idle <;> rw [pathNames, idle] <;> rfl
        have there : tree.slot path ≠ .error .notFound := slot_ne_of_follow_ok empty (by rw [none]; rfl)
        have agrees : Agrees tree twin path := by rw [Agrees, none]; rfl
        rw [makeDirectoriesFrom_of_slot empty there, makeDirectoriesFrom_of_slot empty (twins.slot agrees ▸ there)]
        exact ensureDirectory_alike twins passes agrees
      · have enoughAbove : above.length < fuel := Nat.lt_of_lt_of_le isAbove.shorter (Nat.le_of_lt_succ enough)
        have passesFront : scope.Passes (tree.origin path.toList) (pathNames path).dropLast := by
          rw [pathNames_of_steps steps] at passes
          rw [dropLast_of_steps steps]
          exact passes.front
        have passesAbove : scope.Passes (tree.origin above.toList) (pathNames above) := by
          rw [dropLast_of_steps steps] at passesFront
          rw [origin_above isAbove]
          exact passesFront.front
        have first := ih isAbove.tidy enoughAbove passesAbove
        obtain ⟨fuel, rfl⟩ := Nat.exists_eq_add_of_lt (Nat.zero_lt_of_lt enoughAbove)
        rw [Nat.zero_add] at *
        have both := makeBelow_alike passes isAbove steps first
        cases ready : tree.route path with
        | error fault => exact makeDirectoriesFrom_refused _ twins empty ready
        | ok route =>
            rcases twins.follow passesFront with same | ⟨upper, lower, shape, misses⟩
            · refine makeDirectoriesFrom_agrees twins passes empty same fun other parent => ?_
              rw [Option.some.inj (parent.symm.trans isAbove.parent)]
              exact both
            · -- The way is missing in the second tree, and the first may have come as far as it likes.
              rw [shape] at passesFront
              have free := misses.follow_ne twins.soundTwin twins passesFront
              rw [← shape] at free
              have missing : twin.slot path = .error .notFound := by
                refine slot_eq_of_follow_error ((route_congr twins.home path).trans ready) ?_
                rw [origin_congr twins.home, shape]
                exact misses.failedAll
              rw [makeDirectoriesFrom_eq twins.sound ready isAbove steps free enoughAbove,
                makeDirectoriesFrom_of_missing missing empty, isAbove.parent]
              exact both

theorem agrees_of_claims {above : String} {name : List Char} {one two : Nat} {place : Location}
    (twins : Twins scope tree twin) (claims : scope.Claims tree path)
    (origin : tree.origin above.toList = tree.origin path.toList)
    (steps : Path.steps path.toList =
      Path.steps above.toList ++ List.replicate one ['.'] ++ [name] ++ List.replicate two ['.'])
    (made : twin.follow (twin.origin above.toList) (pathNames above) = .ok place) : Agrees tree twin path := by
  have names := pathNames_of_steps_dots steps
  cases two with
  | zero =>
      rw [List.replicate_zero, List.append_nil] at names
      exact agrees_of_made twins claims.passes origin (by rw [names, List.dropLast_concat]) made
  | succ two =>
      have own := claims.own
      rw [place_eq, names, List.foldl_append, descend_dots] at own
      have front : (pathNames path).dropLast =
          pathNames above ++ List.replicate one "." ++ [String.ofList name] ++ List.replicate two "." := by
        rw [names, List.replicate_succ', ← List.append_assoc, List.dropLast_concat]
      have passes := claims.passes
      rw [names, List.replicate_succ', ← List.append_assoc] at passes
      rw [Agrees, front]
      refine twins.follow_paved passes.front ?_
      have begins := origin_directory twins.soundTwin above.toList
      have way : twin.follow (tree.origin path.toList) (pathNames above ++ List.replicate one ".") = .ok place := by
        rw [origin_congr twins.home, origin] at made
        rw [follow_append, made]
        refine follow_dots (follow_directory ?_ made) one
        rw [← origin, ← origin_congr twins.home]
        exact begins
      rw [List.foldl_append] at own
      have named : scope.Paves twin ((pathNames above ++ List.replicate one ".").foldl descend (tree.origin path.toList))
          [String.ofList name] := ⟨.inl own, trivial⟩
      refine ((Scope.paves_of_follow way).append named).append ?_
      rw [List.foldl_append]
      exact Scope.paves_dots own two

theorem agrees_of_idle {count : Nat} (twins : Twins scope tree twin)
    (steps : Path.steps path.toList = List.replicate count ['.']) : Agrees tree twin path := by
  have names : (pathNames path).dropLast = List.replicate (count - 1) "." := by
    rw [pathNames, steps, List.map_replicate, List.dropLast_replicate]
  have begins := origin_directory twins.soundTwin path.toList
  rw [origin_congr twins.home] at begins
  rw [Agrees, names, follow_dots begins, follow_dots (origin_directory twins.sound path.toList)]

theorem touch_alike (twins : Twins scope tree twin) (claims : scope.Claims tree path) :
    Alike scope tree twin (SameOpened scope) (touch path tree) (touch path twin) := by
  have opened : Agrees tree twin path → Alike scope tree twin (SameOpened scope)
      ((openForWriting path).at path tree) ((openForWriting path).at path twin) :=
    fun agrees => (openForWriting_alike twins claims agrees).at_path path
  rcases Path.above_or_idle path with ⟨count, idle, parent⟩ | ⟨above, name, one, two, isAbove, -, steps⟩
  · unfold touch
    rcases parent with none | some
    · simp only [none]
      exact opened (agrees_of_idle twins idle)
    · simp only [some]
      exact opened (agrees_of_idle twins idle)
  · unfold touch
    simp only [isAbove.parent]
    by_cases empty : above = ""
    · subst empty
      exact opened (agrees_of_claims twins claims (origin_above isAbove) steps rfl)
    · have nonempty : above.isEmpty = false := by simpa using empty
      have passesAbove : scope.Passes (tree.origin above.toList) (pathNames above) := by
        have passes := claims.passes
        rw [pathNames_of_steps_dots steps, List.append_assoc, List.append_assoc] at passes
        rw [origin_above isAbove]
        exact passes.front
      have made := makeDirectoriesFrom_alike twins isAbove.tidy (Nat.lt_succ_self _) passesAbove
      simp only [nonempty, Bool.not_false, if_true]
      refine (made.at_path above).bind_steps ?_
      intro _ _ after afterTwin _ done _ changed
      obtain ⟨place, way⟩ := makeDirectoriesFrom_follows (at_ok done)
      have claims := claims.congr changed.changes.home
      have origin : after.origin above.toList = after.origin path.toList := origin_above isAbove
      exact (openForWriting_alike changed.twins claims (agrees_of_claims changed.twins claims origin steps way)).at_path path

end Files

end KeyedLog
