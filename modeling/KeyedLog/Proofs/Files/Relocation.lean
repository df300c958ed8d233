import KeyedLog.Proofs.Files.Actions

/-!
Moving directories. Whatever is moved takes all that stands below it along, and a sound tree stays sound unless the
working directory is moved away.
-/

namespace KeyedLog

namespace FileTree

variable {tree : FileTree} {source goal parent location : Location} {name : String}

theorem mem_nodes_of_node? {node : FileNode} (below : location ≠ []) (stands : tree.node? location = some node) :
    (location, node) ∈ tree.nodes := by
  rw [node?_of_ne_root tree below, List.lookup_eq_some_iff] at stands
  obtain ⟨front, back, shape, -⟩ := stands
  rw [shape]
  exact List.mem_append_right _ (List.mem_cons_self ..)

theorem isBare_iff (tree : FileTree) (location : Location) :
    tree.isBare location = true ↔ ∀ rest, rest ≠ [] → tree.node? (location ++ rest) = none := by
  rw [isBare, List.all_eq_true]
  constructor
  · intro bare rest deeper
    cases stands : tree.node? (location ++ rest) with
    | none => rfl
    | some node =>
        have entry := bare _ (mem_nodes_of_node? (by simp [deeper]) stands)
        have inside : location.isPrefixOf (location ++ rest) = true :=
          List.isPrefixOf_iff_prefix.mpr (List.prefix_append ..)
        simp [deeper, inside] at entry
  · intro bare entry member
    by_cases beneath : location <+: entry.1
    · obtain ⟨rest, below⟩ := beneath
      by_cases deeper : rest = []
      · subst deeper
        rw [List.append_nil] at below
        simp [below]
      · obtain ⟨node, stands⟩ := node?_of_mem member (by rw [← below]; simp [deeper])
        rw [← below, bare rest deeper] at stands
        simp at stands
    · have apart : location.isPrefixOf entry.1 = false := by
        rw [Bool.eq_false_iff, ne_eq, List.isPrefixOf_iff_prefix]
        exact beneath
      simp [apart]

def relocated (source goal location : Location) : Option Location :=
  if goal <+: location then some (source ++ location.drop goal.length)
  else if source <+: location then none
  else some location

theorem relocated_arrived (source goal rest : Location) : relocated source goal (goal ++ rest) = some (source ++ rest) := by
  rw [relocated, if_pos (List.prefix_append ..), List.drop_left]

theorem relocated_left (apart : ¬ goal <+: location) (inside : source <+: location) : relocated source goal location = none := by
  rw [relocated, if_neg apart, if_pos inside]

theorem relocated_other (apart : ¬ goal <+: location) (outside : ¬ source <+: location) :
    relocated source goal location = some location := by
  rw [relocated, if_neg apart, if_neg outside]

theorem relocated_injective {first second : Location} {origin : Location}
    (one : relocated source goal first = some origin) (two : relocated source goal second = some origin) :
    first = second := by
  -- Both have come along with what was moved, or both have stayed. What was moved has left nothing behind.
  unfold relocated at one two
  split at one
  next below =>
    obtain ⟨rest, rfl⟩ := below
    rw [List.drop_left] at one
    split at two
    next below =>
      obtain ⟨other, rfl⟩ := below
      rw [List.drop_left] at two
      rw [List.append_cancel_left (Option.some.inj (one.trans two.symm))]
    next =>
      split at two
      · simp at two
      next outside =>
        rw [Option.some.inj two, ← Option.some.inj one] at outside
        exact absurd (List.prefix_append ..) outside
  next =>
    split at one
    · simp at one
    next outside =>
      split at two
      next below =>
        rw [Option.some.inj one, ← Option.some.inj two] at outside
        exact absurd (List.prefix_append ..) outside
      next =>
        split at two
        · simp at two
        · exact Option.some.inj (one.trans two.symm)

theorem relocated_snoc {upper origin : Location} {last : String} (outside : ¬ source <+: parent ++ [name])
    (came : relocated source (parent ++ [name]) (upper ++ [last]) = some origin) :
    upper = parent ∧ relocated source (parent ++ [name]) upper = some upper ∨
      ∃ above, relocated source (parent ++ [name]) upper = some above ∧ origin = above ++ [last] := by
  by_cases inside : parent ++ [name] <+: upper ++ [last]
  · obtain ⟨rest, shape⟩ := inside
    rw [← shape, relocated_arrived, Option.some.injEq] at came
    subst came
    cases rest using List.reverseRecOn with
    | nil =>
        rw [List.append_nil] at shape ⊢
        obtain ⟨rfl, -⟩ := List.append_inj' shape rfl
        refine .inl ⟨rfl, relocated_other ?_ fun inside => outside (inside.trans (List.prefix_append ..))⟩
        intro inside
        have length := inside.length_le
        rw [List.length_append, List.length_singleton] at length
        omega
    | append_singleton rest final =>
        rw [← List.append_assoc] at shape
        obtain ⟨rfl, same⟩ := List.append_inj' shape rfl
        exact .inr ⟨source ++ rest, relocated_arrived source _ rest, by rw [← same, List.append_assoc]⟩
  · by_cases moved : source <+: upper ++ [last]
    · rw [relocated_left inside moved] at came
      simp at came
    · rw [relocated_other inside moved, Option.some.injEq] at came
      refine .inr ⟨upper, relocated_other (fun below => inside ?_) fun below => moved ?_, came.symm⟩
      · exact below.trans (List.prefix_append ..)
      · exact below.trans (List.prefix_append ..)

theorem node?_relocate (tree : FileTree) (below : source ≠ []) (beneath : goal ≠ []) (bare : tree.isBare goal = true)
    (apart : ¬ goal <+: source) (outside : ¬ source <+: goal) (location : Location) :
    ((tree.detach goal).move source goal).node? location = (relocated source goal location).bind tree.node? := by
  have bare := (isBare_iff tree goal).mp bare
  have free := not_prefix_of_detached bare
  have kept : ∀ place, place ≠ [] → place ≠ goal →
      List.lookup place (tree.detach goal).nodes = tree.node? place := by
    intro place nonempty other
    rw [← node?_of_ne_root (tree.detach goal) nonempty, node?_detach tree beneath, Function.update_of_ne other]
  by_cases root : location = []
  · subst root
    have goalRoot : ¬ goal <+: [] := by simpa using beneath
    have sourceRoot : ¬ source <+: [] := by simpa using below
    simp [relocated, goalRoot, sourceRoot]
  · rw [node?_of_ne_root _ root, FileTree.move, lookup_move _ free, relocated]
    -- A place is at or below the goal, at or below the source, or neither.
    by_cases arrived : goal <+: location
    · have elsewhere : source ++ location.drop goal.length ≠ goal := by
        intro same
        exact outside (same ▸ List.prefix_append ..)
      rw [if_pos arrived, if_pos arrived, kept _ (by simp [below]) elsewhere, Option.bind_some]
    · rw [if_neg arrived, if_neg arrived]
      by_cases left : source <+: location
      · rw [if_pos left, if_pos left, Option.bind_none]
      · rw [if_neg left, if_neg left, Option.bind_some]
        refine kept location root ?_
        rintro rfl
        exact arrived List.prefix_rfl

namespace IsSound

theorem not_prefix_of_file (sound : tree.IsSound) (other : tree.node? source ≠ some .directory)
    (above : tree.node? parent = some .directory) (different : parent ++ [name] ≠ source) :
    ¬ source <+: parent ++ [name] := by
  rintro ⟨rest, shape⟩
  cases rest using List.reverseRecOn with
  | nil => exact different (by rw [← shape, List.append_nil])
  | append_singleton rest last =>
      rw [← List.append_assoc] at shape
      obtain ⟨inside, -⟩ := List.append_inj' shape rfl
      rw [← inside] at above
      by_cases direct : rest = []
      · rw [direct, List.append_nil] at above
        exact other above
      · rw [sound.none_below other direct] at above
        simp at above

theorem relocate (sound : tree.IsSound) {node : FileNode} (stands : tree.node? source = some node)
    (above : tree.node? parent = some .directory) (bare : tree.isBare (parent ++ [name]) = true)
    (replaces : tree.node? (parent ++ [name]) = some .directory → node = .directory)
    (apart : ¬ parent ++ [name] <+: source) (outside : ¬ source <+: parent ++ [name])
    (home : ¬ source <+: tree.workingDirectory) :
    ((tree.detach (parent ++ [name])).move source (parent ++ [name])).IsSound := by
  have below : source ≠ [] := by
    rintro rfl
    exact outside (List.nil_prefix ..)
  have nodes := node?_relocate tree below (by simp) bare apart outside
  have origin : ∀ {place node}, ((tree.detach (parent ++ [name])).move source (parent ++ [name])).node? place = some node →
      ∃ earlier, relocated source (parent ++ [name]) place = some earlier ∧ tree.node? earlier = some node := by
    intro place node found
    rw [nodes] at found
    exact Option.bind_eq_some_iff.mp found
  constructor
  case parents =>
    intro upper last node found
    obtain ⟨earlier, came, there⟩ := origin found
    rw [nodes]
    rcases relocated_snoc outside came with ⟨rfl, stays⟩ | ⟨place, cameAbove, rfl⟩
    · rw [stays, Option.bind_some]
      exact above
    · rw [cameAbove, Option.bind_some]
      exact sound.parents place last node there
  case single =>
    intro id first second before after atFirst atSecond
    obtain ⟨one, cameFirst, oldFirst⟩ := origin atFirst
    obtain ⟨two, cameSecond, oldSecond⟩ := origin atSecond
    obtain rfl := sound.single id one two before after oldFirst oldSecond
    exact relocated_injective cameFirst cameSecond
  case fresh =>
    intro id place content found
    obtain ⟨earlier, -, there⟩ := origin found
    exact sound.fresh id earlier content there
  case home =>
    rw [nodes]
    show (relocated source (parent ++ [name]) tree.workingDirectory).bind tree.node? = some .directory
    unfold relocated
    split
    next inside =>
      obtain ⟨rest, shape⟩ := inside
      have stays := sound.home
      rw [← shape] at stays
      have direct : rest = [] := by
        by_contra deeper
        rw [(isBare_iff tree _).mp bare rest deeper] at stays
        simp at stays
      subst direct
      rw [List.append_nil] at stays shape
      rw [← shape, List.drop_length, List.append_nil, Option.bind_some, stands, replaces stays]
    next => exact sound.home

theorem rewrite (sound : tree.IsSound) (id : FileId) (change : Bytes → Bytes) : (tree.modifyContent id change).IsSound := by
  have directory : ∀ {place}, (tree.modifyContent id change).node? place = some .directory ↔
      tree.node? place = some .directory := by
    intro place
    rw [node?_modifyContent]
    cases tree.node? place with
    | none => simp
    | some node =>
        cases node with
        | directory => simp [FileNode.rewrite]
        | file other content =>
            simp only [Option.map_some, FileNode.rewrite]
            split <;> simp
  have file : ∀ {place number content}, (tree.modifyContent id change).node? place = some (.file number content) →
      ∃ before, tree.node? place = some (.file number before) := by
    intro place number content found
    rw [node?_modifyContent] at found
    obtain ⟨node, stands, rewritten⟩ := Option.map_eq_some_iff.mp found
    cases node with
    | directory => simp [FileNode.rewrite] at rewritten
    | file other before =>
        have same : other = number := by
          simp only [FileNode.rewrite] at rewritten
          split at rewritten <;> exact (FileNode.file.inj rewritten).1
        exact ⟨before, same ▸ stands⟩
  constructor
  case parents =>
    intro parent name node found
    refine directory.mpr ?_
    rw [node?_modifyContent] at found
    obtain ⟨before, stands, -⟩ := Option.map_eq_some_iff.mp found
    exact sound.parents parent name before stands
  case single =>
    intro number first second before after atFirst atSecond
    obtain ⟨one, oldFirst⟩ := file atFirst
    obtain ⟨two, oldSecond⟩ := file atSecond
    exact sound.single number first second one two oldFirst oldSecond
  case fresh =>
    intro number place content found
    obtain ⟨before, stands⟩ := file found
    exact sound.fresh number place before stands
  case home =>
    exact directory.mpr sound.home

end IsSound

end FileTree

namespace Files

open FileTree

variable {tree : FileTree} {path target name goalName : String} {parent goalParent : Location} {node : FileNode}

/-- Whatever is renamed to where nothing is takes all that stands below it along. -/
theorem rename_relocates (sound : tree.IsSound) (names : tree.Names path parent name)
    (goal : tree.Names target goalParent goalName) (stands : tree.node? (parent ++ [name]) = some node)
    (free : tree.node? (goalParent ++ [goalName]) = none) (outside : ¬ parent ++ [name] <+: goalParent ++ [goalName])
    (home : ¬ parent ++ [name] <+: tree.workingDirectory) :
    ∃ after, rename path target tree = .ok () after ∧ after.workingDirectory = tree.workingDirectory ∧ after.IsSound ∧
      ∀ location, after.node? location =
        (relocated (parent ++ [name]) (goalParent ++ [goalName]) location).bind tree.node? := by
  have bare := sound.isBare (by simp [free] : tree.node? (goalParent ++ [goalName]) ≠ some .directory)
  have apart : ¬ goalParent ++ [goalName] <+: parent ++ [name] := by
    rintro ⟨rest, below⟩
    by_cases direct : rest = []
    · rw [direct, List.append_nil] at below
      exact outside (below ▸ List.prefix_rfl)
    · rw [← below, (isBare_iff tree _).mp bare rest direct] at stands
      simp at stands
  refine ⟨(tree.detach (goalParent ++ [goalName])).move (parent ++ [name]) (goalParent ++ [goalName]), ?_, rfl,
    sound.relocate stands (goal.directory sound) bare (by simp [free]) apart outside home,
    node?_relocate tree (by simp) (by simp) bare apart outside⟩
  have different : parent ++ [name] ≠ goalParent ++ [goalName] := fun same => outside (same ▸ List.prefix_rfl)
  have inside : (parent ++ [name]).isPrefixOf (goalParent ++ [goalName]) = false := by
    rw [Bool.eq_false_iff, ne_eq, List.isPrefixOf_iff_prefix]
    exact outside
  unfold rename
  rw [bind_of_ok (look_of_ok names.slot), bind_of_ok (look_of_ok goal.slot),
    bind_of_ok (place_of_names names false .invalidArgument), bind_of_ok (place_of_names goal false .invalidArgument), bind_get]
  cases node <;> simp [stands, free, different, inside]

end Files

end KeyedLog
