import KeyedLog.Proofs.Files.Making
import KeyedLog.Proofs.Path.Parents

/-!
Operations on what is somebody's own, in two trees that look the same to him: they end alike and leave the trees alike.
-/

namespace KeyedLog

open FileTree

/-- Two computations end alike: both fail for the same reason, or both succeed with values that belong together. -/
inductive Parallel {ε σ α : Type} (states : σ → σ → Prop) (values : α → α → σ → σ → Prop) :
    EStateM.Result ε σ α → EStateM.Result ε σ α → Prop where
  | ok {value other : α} {after afterTwin : σ} (reached : states after afterTwin)
      (same : values value other after afterTwin) : Parallel states values (.ok value after) (.ok other afterTwin)
  | error {fault : ε} {after afterTwin : σ} (reached : states after afterTwin) :
      Parallel states values (.error fault after) (.error fault afterTwin)

namespace Parallel

variable {ε σ α β : Type} {states states' : σ → σ → Prop} {values : α → α → σ → σ → Prop} {results : β → β → σ → σ → Prop}
  {before beforeTwin : σ} {first second : EStateM ε σ α}

theorem mono {one two : EStateM.Result ε σ α} (parallel : Parallel states values one two)
    (weaken : ∀ after afterTwin, states after afterTwin → states' after afterTwin) : Parallel states' values one two := by
  cases parallel with
  | ok reached same => exact .ok (weaken _ _ reached) same
  | error reached => exact .error (weaken _ _ reached)

theorem cases_run (parallel : Parallel states values (first before) (second beforeTwin)) :
    (∃ value other after afterTwin, first before = .ok value after ∧ second beforeTwin = .ok other afterTwin ∧
        states after afterTwin ∧ values value other after afterTwin) ∨
      ∃ fault after afterTwin, first before = .error fault after ∧ second beforeTwin = .error fault afterTwin ∧
        states after afterTwin := by
  generalize one : first before = result at parallel
  generalize two : second beforeTwin = resultTwin at parallel
  cases parallel with
  | ok reached same => exact .inl ⟨_, _, _, _, rfl, rfl, reached, same⟩
  | error reached => exact .inr ⟨_, _, _, rfl, rfl, reached⟩

theorem bind {next other : α → EStateM ε σ β} (begins : Parallel states values (first before) (second beforeTwin))
    (stays : ∀ after afterTwin, states after afterTwin → states' after afterTwin)
    (goesOn : ∀ value another after afterTwin, first before = .ok value after → second beforeTwin = .ok another afterTwin →
      states after afterTwin → values value another after afterTwin →
        Parallel states' results (next value after) (other another afterTwin)) :
    Parallel states' results ((first >>= next) before) ((second >>= other) beforeTwin) := by
  rcases begins.cases_run with ⟨value, another, after, afterTwin, one, two, reached, same⟩ |
    ⟨fault, after, afterTwin, one, two, reached⟩
  · rw [bind_of_ok one, bind_of_ok two]
    exact goesOn value another after afterTwin one two reached same
  · rw [bind_of_error one, bind_of_error two]
    exact .error (stays _ _ reached)

end Parallel

/-- Two computations end alike, and the trees have changed alike. -/
abbrev Alike {ε α : Type} (scope : Scope) (tree twin : FileTree) (values : α → α → FileTree → FileTree → Prop) :
    EStateM.Result ε FileTree α → EStateM.Result ε FileTree α → Prop :=
  Parallel (Steps scope tree twin) values

namespace Alike

variable {ε α β : Type} {scope : Scope} {tree twin middle middleTwin : FileTree}
  {values : α → α → FileTree → FileTree → Prop} {results : β → β → FileTree → FileTree → Prop}
  {one two : EStateM.Result ε FileTree α}

theorem later (steps : Steps scope tree twin middle middleTwin) (alike : Alike scope middle middleTwin values one two) :
    Alike scope tree twin values one two :=
  Parallel.mono alike fun _ _ further => steps.trans further

theorem refl_ok (twins : Twins scope tree twin) {value other : α} (same : values value other tree twin) :
    Alike (ε := ε) scope tree twin values (.ok value tree) (.ok other twin) :=
  .ok (.refl twins) same

theorem refl_error (twins : Twins scope tree twin) (fault : ε) :
    Alike scope tree twin values (.error fault tree) (.error fault twin) :=
  .error (.refl twins)

theorem bind_steps {first second : EStateM ε FileTree α} {next other : α → EStateM ε FileTree β}
    (begins : Alike scope tree twin values (first tree) (second twin))
    (goesOn : ∀ value another after afterTwin, first tree = .ok value after → second twin = .ok another afterTwin →
      values value another after afterTwin → Steps scope tree twin after afterTwin →
        Alike scope after afterTwin results (next value after) (other another afterTwin)) :
    Alike scope tree twin results ((first >>= next) tree) ((second >>= other) twin) :=
  Parallel.bind begins (fun _ _ steps => steps) fun value another after afterTwin one two steps same =>
    (goesOn value another after afterTwin one two same steps).later steps

theorem bind {first second : EStateM ε FileTree α} {next other : α → EStateM ε FileTree β}
    (begins : Alike scope tree twin values (first tree) (second twin))
    (goesOn : ∀ value another after afterTwin, values value another after afterTwin → Twins scope after afterTwin →
      Alike scope after afterTwin results (next value after) (other another afterTwin)) :
    Alike scope tree twin results ((first >>= next) tree) ((second >>= other) twin) :=
  begins.bind_steps fun value another after afterTwin _ _ same steps => goesOn value another after afterTwin same steps.twins

theorem tryCatch {first second : EStateM ε FileTree α} {handle : ε → EStateM ε FileTree α}
    (begins : Alike scope tree twin values (first tree) (second twin))
    (goesOn : ∀ fault after afterTwin, Twins scope after afterTwin →
      Alike scope after afterTwin values (handle fault after) (handle fault afterTwin)) :
    Alike scope tree twin values (tryCatch first handle tree) (tryCatch second handle twin) := by
  rcases begins.cases_run with ⟨value, another, after, afterTwin, one, two, steps, same⟩ |
    ⟨fault, after, afterTwin, one, two, steps⟩
  · rw [tryCatch_of_ok one, tryCatch_of_ok two]
    exact .ok steps same
  · rw [tryCatch_of_error one, tryCatch_of_error two]
    exact (goesOn fault after afterTwin steps.twins).later steps

theorem at_path {first second : FileAction α} (alike : Alike scope tree twin values (first tree) (second twin))
    (path : String) : Alike scope tree twin values ((first.at path) tree) ((second.at path) twin) := by
  rcases alike.cases_run with ⟨value, another, after, afterTwin, one, two, steps, same⟩ |
    ⟨fault, after, afterTwin, one, two, steps⟩
  · rw [FileAction.at, FileAction.at, one, two]
    exact .ok steps same
  · rw [FileAction.at, FileAction.at, one, two]
    exact .error steps

end Alike

abbrev Whatever {α : Type} : α → α → FileTree → FileTree → Prop :=
  fun _ _ _ _ => True

/-- Whoever follows the path comes by his places only, and what it names is his. -/
structure Scope.Claims (scope : Scope) (tree : FileTree) (path : String) : Prop where
  passes : scope.Passes (tree.origin path.toList) (pathNames path)
  own : scope.own (tree.place path)

theorem FileTree.origin_congr {tree after : FileTree} (home : after.workingDirectory = tree.workingDirectory)
    (path : List Char) : after.origin path = tree.origin path := by
  rw [origin, origin, home]

theorem Scope.Claims.congr {scope : Scope} {tree after : FileTree} {path : String} (claims : scope.Claims tree path)
    (home : after.workingDirectory = tree.workingDirectory) : scope.Claims after path := by
  refine ⟨?_, ?_⟩
  · rw [origin_congr home]
    exact claims.passes
  · rw [place_congr home]
    exact claims.own

namespace FileTree

variable {scope : Scope} {tree twin after : FileTree} {path : String} {target : Slot} {name : String} {location : Location}

def Agrees (tree twin : FileTree) (path : String) : Prop :=
  twin.follow (tree.origin path.toList) (pathNames path).dropLast =
    tree.follow (tree.origin path.toList) (pathNames path).dropLast

theorem Twins.slot (twins : Twins scope tree twin) (agrees : Agrees tree twin path) : twin.slot path = tree.slot path := by
  rw [slot_eq, slot_eq, route_congr twins.home]
  cases ready : tree.route path with
  | error fault => rfl
  | ok route =>
      obtain rfl : route = ⟨tree.origin path.toList, pathNames path, _⟩ := (route_ok ready).2.2.2
      simp only [bind, Except.bind, show twin.follow _ _ = tree.follow _ _ from agrees]

theorem Twins.located (twins : Twins scope tree twin) (agrees : Agrees tree twin path)
    (passes : scope.Passes (tree.origin path.toList) (pathNames path)) (found : tree.slot path = .ok target)
    (named : target.name = some name) (next : step target.parent name = .ok location) :
    location = target.parent ++ [name] ∧ tree.node? target.parent = some .directory ∧
      twin.node? target.parent = some .directory ∧ scope.Sees location ∧
      (scope.Claims tree path → scope.own location) := by
  have placed := place_of_slot found named next
  obtain ⟨parent, _, asDirectory⟩ := target
  subst named
  obtain ⟨-, -, -, -, ordinary, down, before, steps, way⟩ := slot_ok found
  have names : pathNames path = before.map String.ofList ++ [name] := by
    rw [pathNames, steps, List.map_append, List.map_singleton, String.ofList_toList]
  obtain ⟨here, -⟩ := step_ordinary_ok ordinary down next
  have wayTwin : twin.follow (tree.origin path.toList) (before.map String.ofList) = .ok parent := by
    rw [Agrees, names, List.dropLast_concat] at agrees
    rw [agrees, way]
  have begins := origin_directory twins.soundTwin path.toList
  rw [origin_congr twins.home] at begins
  refine ⟨here, follow_directory (origin_directory twins.sound path.toList) way, follow_directory begins wayTwin, ?_, ?_⟩
  · rw [names] at passes
    have last := passes.back.1
    rw [← follow_place way, ← step_descend next] at last
    exact last
  · intro claims
    rw [← placed]
    exact claims.own

theorem Twins.find (twins : Twins scope tree twin) (claims : scope.Claims tree path) (agrees : Agrees tree twin path) :
    (∃ fault, tree.find path = .error fault ∧ twin.find path = .error fault) ∨
      ∃ place node placeTwin nodeTwin, tree.find path = .ok (place, node) ∧ twin.find path = .ok (placeTwin, nodeTwin) ∧
        nodeTwin.sight = node.sight := by
  have same := twins.slot agrees
  cases found : tree.slot path with
  | error fault => exact .inl ⟨fault, find_of_slot_error found, find_of_slot_error (same.trans found)⟩
  | ok target =>
      obtain ⟨parent, named, asDirectory⟩ := target
      cases named with
      | none =>
          right
          have always : ∀ {tree : FileTree}, tree.IsSound → tree.slot path = .ok ⟨parent, none, asDirectory⟩ →
              ∃ place, tree.find path = .ok (place, .directory) := by
            intro tree sound found
            have there := isDirectory_of_slot sound found
            unfold isDirectory at there
            split at there
            next place led => exact ⟨place, led⟩
            next => simp at there
          obtain ⟨place, led⟩ := always twins.sound found
          obtain ⟨placeTwin, ledTwin⟩ := always twins.soundTwin (same.trans found)
          exact ⟨place, _, placeTwin, _, led, ledTwin, rfl⟩
      | some name =>
          rw [find_of_slot found, find_of_slot (same.trans found)]
          cases next : step parent name with
          | error fault => exact .inl ⟨fault, rfl, rfl⟩
          | ok location =>
              obtain ⟨-, -, -, -, own⟩ := twins.located agrees claims.passes found rfl next
              simp only [bind, Except.bind]
              rcases node?_of_sight? (twins.own _ (own claims)) with ⟨free, freeTwin⟩ | ⟨there, thereTwin⟩ |
                ⟨id, other, content, here, hereTwin⟩
              · rw [free, freeTwin]
                exact .inl ⟨_, rfl, rfl⟩
              · rw [there, thereTwin]
                exact .inr ⟨_, _, _, _, rfl, rfl, rfl⟩
              · rw [here, hereTwin]
                cases asDirectory with
                | true => exact .inl ⟨_, rfl, rfl⟩
                | false => exact .inr ⟨_, _, _, _, rfl, rfl, rfl⟩

theorem Twins.holds (twins : Twins scope tree twin) (claims : scope.Claims tree path) (agrees : Agrees tree twin path) :
    twin.holds path = tree.holds path := by
  unfold FileTree.holds
  rcases twins.find claims agrees with ⟨fault, failed, failedTwin⟩ | ⟨place, node, placeTwin, nodeTwin, led, ledTwin, -⟩
  · rw [failed, failedTwin]
  · rw [led, ledTwin]

theorem follow_concat_ok {start place : Location} {names : List String} :
    tree.follow start (names ++ [name]) = .ok place ↔ ∃ parent, tree.follow start names = .ok parent ∧
      step parent name = .ok place ∧ tree.node? place = some .directory := by
  rw [follow_append, bind_eq_ok]
  refine exists_congr fun parent => and_congr_right fun _ => ?_
  rw [follow_cons_ok]
  constructor
  · rintro ⟨next, stepped, stands, further⟩
    obtain rfl := Except.ok.inj further
    exact ⟨stepped, stands⟩
  · rintro ⟨stepped, stands⟩
    exact ⟨place, stepped, stands, rfl⟩

theorem isDirectory_iff (tree : FileTree) (path : String) :
    tree.isDirectory path = true ↔ (∃ route, tree.route path = .ok route) ∧
      ∃ place, tree.follow (tree.origin path.toList) (pathNames path) = .ok place := by
  have found : tree.isDirectory path = true ↔ ∃ place, tree.find path = .ok (place, .directory) := by
    unfold isDirectory
    split
    next place led => simp [led]
    next other => simpa using fun place led => other place led
  rw [found]
  constructor
  · rintro ⟨place, led⟩
    obtain ⟨route, ready, shape⟩ := find_eq_ok.mp led
    obtain rfl : route = ⟨tree.origin path.toList, pathNames path, _⟩ := (route_ok ready).2.2.2
    refine ⟨⟨_, ready⟩, ?_⟩
    rcases shape with ⟨none, -, -⟩ | ⟨name, parent, last, way, next, stands, -⟩
    · rw [show pathNames path = [] from List.getLast?_eq_none_iff.mp none]
      exact ⟨_, rfl⟩
    · obtain ⟨initial, names⟩ := List.getLast?_eq_some_iff.mp last
      dsimp only at names way
      rw [names] at way ⊢
      rw [List.dropLast_concat] at way
      exact ⟨place, follow_concat_ok.mpr ⟨parent, way, next, stands⟩⟩
  · rintro ⟨⟨route, ready⟩, place, way⟩
    obtain rfl : route = ⟨tree.origin path.toList, pathNames path, _⟩ := (route_ok ready).2.2.2
    rcases List.eq_nil_or_concat (pathNames path) with none | ⟨initial, name, names⟩
    · exact ⟨_, find_eq_ok.mpr ⟨_, ready, .inl ⟨by simp [none], rfl, rfl⟩⟩⟩
    · rw [List.concat_eq_append] at names
      rw [names] at way
      obtain ⟨parent, above, next, stands⟩ := follow_concat_ok.mp way
      refine ⟨place, find_eq_ok.mpr ⟨_, ready, .inr ⟨name, parent, ?_, ?_, next, stands, fun _ => rfl⟩⟩⟩
      · simp [names]
      · simpa [names] using above

theorem Twins.isDirectory (twins : Twins scope tree twin) (claims : scope.Claims tree path) :
    twin.isDirectory path = tree.isDirectory path := by
  rw [Bool.eq_iff_iff, isDirectory_iff, isDirectory_iff, route_congr twins.home, origin_congr twins.home]
  refine and_congr_right fun _ => ?_
  rcases twins.follow claims.passes with same | ⟨upper, lower, names, misses⟩
  · rw [same]
  · -- What is missing above the place is missing at the place as well, and so it is not there in the first tree.
    have free : tree.node? (tree.place path) = none := by
      rw [← sight?_none, ← twins.own _ claims.own, sight?_none, place_eq, names]
      exact misses.free_end twins.soundTwin
    constructor
    · rintro ⟨place, way⟩
      rw [names, misses.failedAll] at way
      simp at way
    · rintro ⟨place, way⟩
      have stands := follow_directory (origin_directory twins.sound path.toList) way
      rw [follow_place way, ← place_eq, free] at stands
      simp at stands

end FileTree

namespace Files

variable {scope : Scope} {tree twin : FileTree} {path : String}

theorem look_alike {α : Type} {see : FileTree → Except IoFault α} (twins : Twins scope tree twin)
    (same : see twin = see tree) :
    Alike scope tree twin (fun value other after afterTwin =>
      value = other ∧ tree = after ∧ twin = afterTwin ∧ see tree = .ok value) (look see tree) (look see twin) := by
  cases seen : see tree with
  | ok value =>
      rw [look_of_ok seen, look_of_ok (same.trans seen)]
      exact .refl_ok twins ⟨rfl, rfl, rfl, rfl⟩
  | error fault =>
      rw [look_of_error seen, look_of_error (same.trans seen)]
      exact .refl_error twins fault

theorem place_alike (twins : Twins scope tree twin) (slot : Slot) (otherwise : IoFault) :
    Alike scope tree twin (fun value other after afterTwin => value = other ∧ tree = after ∧ twin = afterTwin ∧
      ∃ name, slot.name = some name ∧ FileTree.step slot.parent name = .ok value)
      (place slot otherwise tree) (place slot otherwise twin) := by
  unfold place
  cases named : slot.name with
  | none => exact .refl_error twins otherwise
  | some name =>
      dsimp only
      cases next : FileTree.step slot.parent name with
      | error fault => exact .refl_error twins fault
      | ok location => exact .refl_ok twins ⟨rfl, rfl, rfl, name, rfl, next⟩

def SameOpened (scope : Scope) (opened other : FileHandle × Nat) (after afterTwin : FileTree) : Prop :=
  Meets scope after afterTwin opened.1.id other.1.id ∧ other.2 = opened.2

theorem openForWriting_alike (twins : Twins scope tree twin) (claims : scope.Claims tree path)
    (agrees : Agrees tree twin path) :
    Alike scope tree twin (SameOpened scope) (openForWriting path tree) (openForWriting path twin) := by
  unfold openForWriting
  refine (look_alike twins (twins.slot agrees)).bind ?_
  rintro slot _ _ _ ⟨rfl, rfl, rfl, found⟩ -
  cases slot.asDirectory with
  | true => exact .refl_error twins _
  | false =>
      simp only [Bool.false_eq_true, if_false]
      refine (place_alike twins slot _).bind ?_
      rintro location _ _ _ ⟨rfl, rfl, rfl, name, named, next⟩ -
      obtain ⟨rfl, above, aboveTwin, -, own⟩ := twins.located agrees claims.passes found named next
      rw [bind_get, bind_get]
      rcases node?_of_sight? (twins.own _ (own claims)) with ⟨free, freeTwin⟩ | ⟨there, thereTwin⟩ |
        ⟨id, other, content, here, hereTwin⟩
      · obtain ⟨steps, meets⟩ := twins.attach_file (own claims) above aboveTwin free freeTwin
        simp only [free, freeTwin]
        exact .ok steps ⟨meets, rfl⟩
      · simp only [there, thereTwin]
        exact .refl_error twins _
      · simp only [here, hereTwin]
        exact .refl_ok twins ⟨twins.meet (own claims) ⟨content, here⟩ ⟨content, hereTwin⟩, rfl⟩

theorem create_alike (twins : Twins scope tree twin) (claims : scope.Claims tree path) (agrees : Agrees tree twin path) :
    Alike scope tree twin (fun handle other after afterTwin => Meets scope after afterTwin handle.id other.id)
      (create path tree) (create path twin) := by
  unfold create
  refine (openForWriting_alike twins claims agrees).bind ?_
  rintro ⟨handle, size⟩ ⟨other, same⟩ after afterTwin ⟨meets, -⟩ twins
  have steps := twins.rewrite meets fun _ => []
  exact .ok steps (steps.meets _ _ meets)

theorem append_alike {handle other : FileHandle} (twins : Twins scope tree twin)
    (meets : Meets scope tree twin handle.id other.id) (bytes : Bytes) :
    Alike scope tree twin Whatever (append handle bytes tree) (append other bytes twin) :=
  .ok (twins.rewrite meets (· ++ bytes)) trivial

theorem relocates_detach (sound : tree.IsSound) {location : Location} {id : FileId} {content : Bytes}
    (own : scope.own location) (stands : tree.node? location = some (.file id content)) :
    Relocates scope (fun place => if place = location then none else some place) tree (tree.detach location) := by
  have became := sound.detach stands
  refine ⟨?_, rfl, rfl, became.sound, ?_, ?_⟩
  · intro place
    rw [became.nodes]
    by_cases here : place = location
    · subst here
      simp
    · simp [here]
  · intro place outside
    have elsewhere : place ≠ location := by
      rintro rfl
      exact outside own
    simp [elsewhere]
  · intro place source owned came
    by_cases here : place = location
    · simp [here] at came
    · simp only [here, if_false, Option.some.injEq] at came
      exact came ▸ owned

theorem removeFile_alike (twins : Twins scope tree twin) (claims : scope.Claims tree path) (agrees : Agrees tree twin path) :
    Alike scope tree twin Whatever (removeFile path tree) (removeFile path twin) := by
  unfold removeFile
  refine (look_alike twins (twins.slot agrees)).bind ?_
  rintro slot _ _ _ ⟨rfl, rfl, rfl, found⟩ -
  refine (place_alike twins slot _).bind ?_
  rintro location _ _ _ ⟨rfl, rfl, rfl, name, named, next⟩ -
  obtain ⟨-, -, -, -, own⟩ := twins.located agrees claims.passes found named next
  rw [bind_get, bind_get]
  rcases node?_of_sight? (twins.own _ (own claims)) with ⟨free, freeTwin⟩ | ⟨there, thereTwin⟩ |
    ⟨id, other, content, here, hereTwin⟩
  · simp only [free, freeTwin]
    exact .refl_error twins _
  · simp only [there, thereTwin]
    exact .refl_error twins _
  · simp only [here, hereTwin]
    cases slot.asDirectory with
    | true => exact .refl_error twins _
    | false =>
        exact .ok (twins.relocate (relocates_detach twins.sound (own claims) here)
          (relocates_detach twins.soundTwin (own claims) hereTwin)) trivial

theorem removeIfExists_alike (twins : Twins scope tree twin) (claims : scope.Claims tree path)
    (agrees : Agrees tree twin path) :
    Alike scope tree twin Whatever (removeIfExists path tree) (removeIfExists path twin) := by
  unfold removeIfExists
  refine (removeFile_alike twins claims agrees).tryCatch ?_
  intro fault after afterTwin twins
  split
  · exact .refl_ok twins trivial
  · exact .refl_error twins fault

theorem relocate_alike {source goal parent : Location} {name : String} {node other : FileNode}
    (twins : Twins scope tree twin) (shape : goal = parent ++ [name]) (ownSource : scope.own source)
    (ownGoal : scope.own goal) (above : tree.node? parent = some .directory) (aboveTwin : twin.node? parent = some .directory)
    (stands : tree.node? source = some node) (standsTwin : twin.node? source = some other)
    (bare : tree.isBare goal = true) (bareTwin : twin.isBare goal = true)
    (replaces : tree.node? goal = some .directory → node = .directory)
    (replacesTwin : twin.node? goal = some .directory → other = .directory) (different : source ≠ goal)
    (outside : ¬ source <+: goal) (home : ¬ source <+: tree.workingDirectory) :
    Steps scope tree twin ((tree.detach goal).move source goal) ((twin.detach goal).move source goal) := by
  -- What is moved does not stand below the goal, where nothing stands.
  have apart : ¬ goal <+: source := by
    rintro ⟨rest, below⟩
    have deeper : rest ≠ [] := by
      rintro rfl
      exact different (by rw [← below, List.append_nil])
    rw [← below, (isBare_iff tree goal).mp bare rest deeper] at stands
    simp at stands
  have below : source ≠ [] := by
    rintro rfl
    exact outside (List.nil_prefix ..)
  have beneath : goal ≠ [] := by simp [shape]
  have relocates : ∀ {tree : FileTree}, tree.isBare goal = true →
      ((tree.detach goal).move source goal).IsSound →
      Relocates scope (relocated source goal) tree ((tree.detach goal).move source goal) := by
    intro tree bare sound
    refine ⟨node?_relocate tree below beneath bare apart outside, rfl, rfl, sound, ?_, ?_⟩
    · intro location foreign
      have notGoal : ¬ goal <+: location := by
        rintro ⟨rest, rfl⟩
        exact foreign (scope.below ownGoal rest)
      have notSource : ¬ source <+: location := by
        rintro ⟨rest, rfl⟩
        exact foreign (scope.below ownSource rest)
      rw [relocated, if_neg notGoal, if_neg notSource]
    · intro location origin own came
      unfold relocated at came
      split at came
      · rw [← Option.some.inj came]
        exact scope.below ownSource _
      · split at came
        · simp at came
        · exact Option.some.inj came ▸ own
  subst shape
  exact twins.relocate (relocates bare (twins.sound.relocate stands above bare replaces apart outside home))
    (relocates bareTwin (twins.soundTwin.relocate standsTwin aboveTwin bareTwin replacesTwin apart outside
      (twins.home ▸ home)))

theorem isBare_alike {location : Location} (twins : Twins scope tree twin) (own : scope.own location) :
    twin.isBare location = tree.isBare location := by
  rw [Bool.eq_iff_iff, isBare_iff, isBare_iff]
  refine forall_congr' fun rest => imp_congr_right fun _ => ?_
  rw [← sight?_none, ← sight?_none, twins.own _ (scope.below own rest)]

def takePlace (asDirectory : Bool) (source goal : Location) (moved : FileNode) (there : Option FileNode)
    (tree : FileTree) : FileAction Unit := do
  if asDirectory && !moved.isDirectory then throw .notDirectory
  if source = goal then return
  if moved.isDirectory && source.isPrefixOf goal then throw .invalidArgument
  if there.isSome && !tree.isBare goal then throw .notEmpty
  set ((tree.detach goal).move source goal)

theorem takePlace_alike {source goal : Location} {moved movedTwin : FileNode} {there thereTwin : Option FileNode}
    (twins : Twins scope tree twin) (asDirectory : Bool) (kind : movedTwin.isDirectory = moved.isDirectory)
    (replaced : thereTwin.isSome = there.isSome) (bare : twin.isBare goal = tree.isBare goal)
    (moves : source ≠ goal → (moved.isDirectory = true → ¬ source <+: goal) →
      (there.isSome = true → tree.isBare goal = true) →
        Steps scope tree twin ((tree.detach goal).move source goal) ((twin.detach goal).move source goal)) :
    Alike scope tree twin Whatever (takePlace asDirectory source goal moved there tree tree)
      (takePlace asDirectory source goal movedTwin thereTwin twin twin) := by
  unfold takePlace
  rw [kind, replaced, bare]
  -- The tests before the move come to the same in both trees, as they look at nothing but what is alike.
  by_cases slash : (asDirectory && !moved.isDirectory) = true
  · simp only [slash, if_true]
    exact .refl_error twins _
  by_cases same : source = goal
  · simp only [slash, same, if_true]
    exact .refl_ok twins trivial
  by_cases inside : (moved.isDirectory && source.isPrefixOf goal) = true
  · simp only [slash, same, inside, if_true, if_false]
    exact .refl_error twins _
  by_cases full : (there.isSome && !tree.isBare goal) = true
  · simp only [slash, same, inside, full, if_true, if_false]
    exact .refl_error twins _
  · simp only [slash, same, inside, full, if_false]
    refine .ok (moves same ?_ ?_) trivial
    · intro directory below
      exact inside (by rw [directory, List.isPrefixOf_iff_prefix.mpr below]; rfl)
    · intro some
      by_contra occupied
      exact full (by rw [some, Bool.eq_false_iff.mpr occupied]; rfl)

theorem rename_alike {target : String} (twins : Twins scope tree twin) (claims : scope.Claims tree path)
    (agrees : Agrees tree twin path) (claimsTarget : scope.Claims tree target) (agreesTarget : Agrees tree twin target)
    (home : ¬ tree.place path <+: tree.workingDirectory) :
    Alike scope tree twin Whatever (rename path target tree) (rename path target twin) := by
  unfold rename
  refine (look_alike twins (twins.slot agrees)).bind ?_
  rintro fromSlot _ _ _ ⟨rfl, rfl, rfl, foundSource⟩ -
  refine (look_alike twins (twins.slot agreesTarget)).bind ?_
  rintro toSlot _ _ _ ⟨rfl, rfl, rfl, foundGoal⟩ -
  refine (place_alike twins fromSlot _).bind ?_
  rintro source _ _ _ ⟨rfl, rfl, rfl, name, named, next⟩ -
  refine (place_alike twins toSlot _).bind ?_
  rintro goal _ _ _ ⟨rfl, rfl, rfl, goalName, goalNamed, goalNext⟩ -
  obtain ⟨-, -, -, -, own⟩ := twins.located agrees claims.passes foundSource named next
  obtain ⟨shape, above, aboveTwin, -, ownGoal⟩ :=
    twins.located agreesTarget claimsTarget.passes foundGoal goalNamed goalNext
  have own := own claims
  have ownGoal := ownGoal claimsTarget
  rw [place_of_slot foundSource named next] at home
  have bareTwin := isBare_alike twins ownGoal
  rw [bind_get, bind_get]
  rcases node?_of_sight? (twins.own _ own) with ⟨free, freeTwin⟩ | ⟨there, thereTwin⟩ |
    ⟨id, other, content, here, hereTwin⟩
  · simp only [free, freeTwin]
    exact .refl_error twins _
  · have moves := fun different bare outside => relocate_alike twins shape own ownGoal above aboveTwin there thereTwin bare
      (bareTwin.trans bare) (fun _ => rfl) (fun _ => rfl) different outside home
    rcases node?_of_sight? (twins.own _ ownGoal) with ⟨free, freeTwin⟩ | ⟨old, oldTwin⟩ |
      ⟨id, other, content, here, hereTwin⟩
    · simp only [there, thereTwin, free, freeTwin]
      refine takePlace_alike twins _ rfl rfl bareTwin fun different outside _ => ?_
      exact moves different (twins.sound.isBare (by simp [free])) (outside rfl)
    · simp only [there, thereTwin, old, oldTwin]
      exact takePlace_alike twins _ rfl rfl bareTwin fun different outside bare => moves different (bare rfl) (outside rfl)
    · simp only [there, thereTwin, here, hereTwin]
      exact .refl_error twins _
  · have moves : tree.node? goal ≠ some .directory → twin.node? goal ≠ some .directory → source ≠ goal →
        Steps scope tree twin ((tree.detach goal).move source goal) ((twin.detach goal).move source goal) := by
      intro file fileTwin different
      have outside : ¬ source <+: goal := by
        rw [shape] at different ⊢
        exact twins.sound.not_prefix_of_file (by simp [here]) above (Ne.symm different)
      exact relocate_alike twins shape own ownGoal above aboveTwin here hereTwin (twins.sound.isBare file)
        (twins.soundTwin.isBare fileTwin) (fun directory => absurd directory file)
        (fun directory => absurd directory fileTwin) different outside home
    rcases node?_of_sight? (twins.own _ ownGoal) with ⟨free, freeTwin⟩ | ⟨old, oldTwin⟩ |
      ⟨oldId, oldOther, oldContent, old, oldTwin⟩
    · simp only [here, hereTwin, free, freeTwin]
      exact takePlace_alike twins _ rfl rfl bareTwin fun different _ _ =>
        moves (by simp [free]) (by simp [freeTwin]) different
    · simp only [here, hereTwin, old, oldTwin]
      exact .refl_error twins _
    · simp only [here, hereTwin, old, oldTwin]
      exact takePlace_alike twins _ rfl rfl bareTwin fun different _ _ =>
        moves (by simp [old]) (by simp [oldTwin]) different

end Files

end KeyedLog
