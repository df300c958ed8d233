import KeyedLog.Proofs.Files.Lacking

/-!
Ways that no file bars. The directories on such a way can be made as far as they are missing, and no others are made.
-/

namespace KeyedLog

namespace FileTree

variable {tree after : FileTree} {path name : String} {start parent place : Location} {names upper lower : List String}

structure Clear (tree : FileTree) (start : Location) (names : List String) : Prop where
  short : ∀ name ∈ names, (Utf8.encode name).length ≤ maxNameLength
  free : ∀ location ∈ passed start names, ∀ id content, tree.node? location ≠ some (.file id content)

/-- Directories have been made at some of these places, and nothing else has changed. -/
structure Makes (before after : FileTree) (places : List Location) : Prop where
  grows : before.Grows after
  only : ∀ location, before.node? location = none → after.node? location = none ∨ location ∈ places

theorem Makes.refl (tree : FileTree) (places : List Location) : tree.Makes tree places :=
  ⟨Grows.refl tree, fun _ free => .inl free⟩

theorem Makes.trans {first second third : FileTree} {places more : List Location} (one : first.Makes second places)
    (two : second.Makes third more) : first.Makes third (places ++ more) := by
  refine ⟨one.grows.trans two.grows, ?_⟩
  intro location free
  rcases one.only location free with still | made
  · exact (two.only location still).imp_right (List.mem_append_right _)
  · exact .inr (List.mem_append_left _ made)

theorem Makes.mono {before after : FileTree} {places more : List Location} (makes : before.Makes after places)
    (subset : places ⊆ more) : before.Makes after more :=
  ⟨makes.grows, fun location free => (makes.only location free).imp_right fun made => subset made⟩

theorem Makes.of_stands {before after : FileTree} {places : List Location} (makes : before.Makes after places)
    {location : Location} {node : FileNode} (stands : after.node? location = some node) :
    before.node? location = some node ∨ location ∈ places := by
  cases there : before.node? location with
  | none => exact .inr ((makes.only location there).resolve_left (by simp [stands]))
  | some old => exact .inl ((makes.grows.kept location old there).symm.trans stands)

theorem Grows.keepsDirectories {before after : FileTree} (grows : before.Grows after) : before.KeepsDirectories after :=
  ⟨grows.home, fun location stands => grows.kept location _ stands⟩

theorem passed_append (start : Location) (upper lower : List String) :
    passed start (upper ++ lower) = passed start upper ++ passed (upper.foldl descend start) lower := by
  induction upper generalizing start with
  | nil => rfl
  | cons name rest ih => simp only [List.cons_append, passed, List.foldl_cons, ih]

theorem mem_passed_down (onward : ∀ name ∈ names, name ≠ "." ∧ name ≠ "..") {location : Location} :
    location ∈ passed start names ↔ ∃ rest, rest ≠ [] ∧ rest <+: names ∧ location = start ++ rest := by
  induction names generalizing start with
  | nil => simp [passed]
  | cons name names ih =>
      obtain ⟨ordinary, down⟩ := onward name List.mem_cons_self
      have next : descend start name = start ++ [name] := by simp [descend, ordinary, down]
      rw [passed, next, List.mem_cons, ih fun other member => onward other (List.mem_cons_of_mem _ member)]
      constructor
      · rintro (rfl | ⟨rest, -, front, rfl⟩)
        · exact ⟨[name], by simp, by simp, rfl⟩
        · exact ⟨name :: rest, by simp, by simpa using front, by simp⟩
      · rintro ⟨rest, real, front, rfl⟩
        cases rest with
        | nil => exact absurd rfl real
        | cons first rest =>
            obtain ⟨rfl, below⟩ := List.cons_prefix_cons.mp front
            by_cases last : rest = []
            · exact .inl (by rw [last])
            · exact .inr ⟨rest, last, below, by simp⟩

namespace Clear

theorem front (clear : tree.Clear start (upper ++ lower)) : tree.Clear start upper := by
  refine ⟨fun name member => clear.short name (List.mem_append_left _ member), ?_⟩
  intro location member
  exact clear.free location (by rw [passed_append]; exact List.mem_append_left _ member)

theorem grows (clear : tree.Clear start names) (grows : tree.Grows after) : after.Clear start names := by
  refine ⟨clear.short, ?_⟩
  intro location member id content stands
  exact clear.free location member id content ((grows.node?_file location id content).mp stands)

theorem follow_ne (clear : tree.Clear start names) : tree.follow start names ≠ .error .notDirectory := by
  induction names generalizing start with
  | nil => simp [follow]
  | cons name rest ih =>
      have later : tree.Clear (descend start name) rest :=
        ⟨fun other member => clear.short other (List.mem_cons_of_mem _ member),
          fun location member => clear.free location (List.mem_cons_of_mem _ member)⟩
      simp only [follow, step_of_short (clear.short name List.mem_cons_self), bind, Except.bind]
      split
      · simp
      · exact ih later
      next id content stands => exact absurd stands (clear.free _ List.mem_cons_self id content)

end Clear

theorem slot_of_way {route : Route} (ready : tree.route path = .ok route) (split : pathNames path = names ++ [name])
    (way : tree.follow (tree.origin path.toList) names = .ok parent) :
    tree.slot path = if name = "." ∨ name = ".." then .ok ⟨parent, none, true⟩
      else .ok ⟨parent, some name, decide (path.toList.getLast? = some '/')⟩ := by
  obtain rfl : route = ⟨tree.origin path.toList, pathNames path, _⟩ := (route_ok ready).2.2.2
  rw [slot_eq, ready]
  simp only [bind, Except.bind, split, List.getLast?_concat, List.dropLast_concat, way]

end FileTree

namespace Files

open FileTree

variable {tree : FileTree} {path name : String} {parent : Location} {names : List String} {route : Route}

theorem ensureDirectory_of_way (sound : tree.IsSound) (ready : tree.route path = .ok route)
    (split : pathNames path = names ++ [name]) (way : tree.follow (tree.origin path.toList) names = .ok parent)
    (short : (Utf8.encode name).length ≤ maxNameLength)
    (free : ∀ id content, tree.node? (descend parent name) ≠ some (.file id content)) :
    ∃ after, ensureDirectory path tree = .ok () after ∧
      after.follow (tree.origin path.toList) (pathNames path) = .ok (descend parent name) ∧
      tree.Makes after [descend parent name] := by
  have stands := follow_directory (origin_directory sound path.toList) way
  have next := step_of_short short parent
  have there : tree.node? (descend parent name) = some .directory →
      tree.follow (tree.origin path.toList) (pathNames path) = .ok (descend parent name) := by
    intro directory
    rw [split]
    exact follow_concat_ok.mpr ⟨parent, way, next, directory⟩
  have made := ensureDirectory_eq sound path
  rw [slot_of_way ready split way] at made
  by_cases special : name = "." ∨ name = ".."
  · rw [if_pos special] at made
    refine ⟨tree, made, there ?_, .refl tree _⟩
    rcases special with rfl | rfl
    · exact stands
    · exact sound.directory_dropLast stands
  · rw [if_neg special] at made
    simp only [next] at made
    cases found : tree.node? (descend parent name) with
    | some node =>
        cases node with
        | directory =>
            simp only [found] at made
            exact ⟨tree, made, there found, .refl tree _⟩
        | file id content => exact absurd found (free id content)
    | none =>
        simp only [found] at made
        have nodes := node?_attach tree found .directory
        have grows := ensureDirectory_keeps Grows Grows.refl Grows.trans makeDirectory_grows path tree
        rw [stateAfter_of_ok made] at grows
        refine ⟨_, made, ?_, grows, ?_⟩
        · rw [split]
          refine follow_concat_ok.mpr ⟨parent, follow_mono grows.keepsDirectories way, next, ?_⟩
          rw [nodes, Function.update_self]
        · intro location missing
          by_cases here : location = descend parent name
          · exact .inr (List.mem_singleton.mpr here)
          · rw [nodes, Function.update_of_ne here]
            exact .inl missing

theorem makeDirectoriesFrom_of_clear {fuel : Nat} (sound : tree.IsSound) (tidy : Path.IsTidy path.toList)
    (ready : path ≠ "" → ∃ route, tree.route path = .ok route)
    (clear : tree.Clear (tree.origin path.toList) (pathNames path)) (enough : path.length < fuel) :
    ∃ after, makeDirectoriesFrom fuel path tree = .ok () after ∧
      after.follow (tree.origin path.toList) (pathNames path) = .ok (tree.place path) ∧
      tree.Makes after (passed (tree.origin path.toList) (pathNames path)) := by
  -- Each path above has one name less, and is tidy again.
  induction fuel generalizing path with
  | zero => exact absurd enough (Nat.not_lt_zero _)
  | succ fuel ih =>
      rcases tidy.above with idle | ⟨above, name, count, isAbove, steps⟩
      · have way : tree.follow (tree.origin path.toList) (pathNames path) = .ok (tree.origin path.toList) := by
          have begins := origin_directory sound path.toList
          rcases idle with idle | idle <;> rw [pathNames, idle]
          · rfl
          · exact follow_dots begins 1
        refine ⟨tree, ?_, ?_, .refl tree _⟩
        · by_cases empty : path = ""
          · subst empty
            exact makeDirectoriesFrom_of_empty fuel
          · obtain ⟨route, ready⟩ := ready empty
            exact makeDirectoriesFrom_of_follow (fun _ => ready) way fuel
        · rw [way, place_eq, ← follow_place way]
      · have nonempty : path ≠ "" := by
          rintro rfl
          simpa using isAbove.shorter
        obtain ⟨route, ready⟩ := ready nonempty
        have names := pathNames_of_steps steps
        have origin : tree.origin above.toList = tree.origin path.toList := origin_above isAbove
        have clearWhole := clear
        rw [names] at clear
        have enoughAbove : above.length < fuel := Nat.lt_of_lt_of_le isAbove.shorter (Nat.le_of_lt_succ enough)
        obtain ⟨middle, made, way, makes⟩ := ih isAbove.tidy (fun real => route_above isAbove real ready)
          (by rw [origin]; exact clear.front.front) enoughAbove
        rw [origin] at way makes
        have home := makes.grows.home
        have originMiddle : middle.origin path.toList = tree.origin path.toList := by simp only [FileTree.origin, home]
        have soundMiddle := makes.grows.sound sound
        have stands := follow_directory (originMiddle ▸ origin_directory soundMiddle path.toList) way
        have wayDots : middle.follow (middle.origin path.toList) (pathNames above ++ List.replicate count ".") =
            .ok (tree.place above) := by
          rw [originMiddle, follow_append, way]
          exact follow_dots stands count
        have last : String.ofList name ∈ pathNames path := by rw [names]; simp
        have passes : descend (tree.place above) (String.ofList name) ∈
            passed (tree.origin path.toList) (pathNames path) := by
          rw [names, passed_append, List.foldl_append, ← origin, ← place_eq, descend_dots]
          exact List.mem_append_right _ List.mem_cons_self
        obtain ⟨after, done, arrived, makesLast⟩ := ensureDirectory_of_way soundMiddle
          ((route_congr home path).trans ready) names wayDots (clearWhole.short _ last)
          ((clearWhole.grows makes.grows).free _ passes)
        rw [originMiddle] at arrived
        refine ⟨after, ?_, ?_, ?_⟩
        · have free : tree.follow (tree.origin path.toList) (pathNames path).dropLast ≠ .error .notDirectory := by
            rw [dropLast_of_steps steps]
            exact clear.front.follow_ne
          rw [makeDirectoriesFrom_eq sound ready isAbove steps free enoughAbove, makeBelow, bind_of_ok made]
          exact done
        · rw [arrived, place_eq tree path, ← follow_place arrived]
        · refine (makes.trans makesLast).mono ?_
          intro location member
          rcases List.mem_append.mp member with upper | here
          · rw [names, passed_append, passed_append]
            exact List.mem_append_left _ (List.mem_append_left _ upper)
          · rw [List.mem_singleton.mp here]
            exact passes

theorem makeDirectories_of_clear (sound : tree.IsSound) (tidy : Path.IsTidy path.toList)
    (ready : path ≠ "" → ∃ route, tree.route path = .ok route)
    (clear : tree.Clear (tree.origin path.toList) (pathNames path)) :
    ∃ after, makeDirectories path tree = .ok () after ∧
      after.follow (tree.origin path.toList) (pathNames path) = .ok (tree.place path) ∧
      tree.Makes after (passed (tree.origin path.toList) (pathNames path)) :=
  makeDirectoriesFrom_of_clear sound tidy ready clear (Nat.lt_succ_self _)

end Files

end KeyedLog
