import KeyedLog.Files.Tree
import Mathlib.Data.List.Induction
import Mathlib.Logic.Function.Basic

/-!
What changes in a tree of files, place by place. A sound tree has directories above everything and a number of its
own for every file.
-/

namespace KeyedLog

def FileNode.rewrite (id : FileId) (change : Bytes → Bytes) : FileNode → FileNode
  | directory => directory
  | file other content => if other = id then file other (change content) else file other content

namespace FileTree

structure IsSound (tree : FileTree) : Prop where
  parents : ∀ parent name node, tree.node? (parent ++ [name]) = some node → tree.node? parent = some .directory
  single : ∀ id first second before after, tree.node? first = some (.file id before) →
    tree.node? second = some (.file id after) → first = second
  fresh : ∀ id location content, tree.node? location = some (.file id content) → id < tree.nextId
  home : tree.node? tree.workingDirectory = some .directory

/-- A tree has become another, in which the places hold this. -/
structure Becomes (before after : FileTree) (nodes : Location → Option FileNode) : Prop where
  nodes : after.node? = nodes
  home : after.workingDirectory = before.workingDirectory
  sound : after.IsSound

@[simp] theorem node?_root (tree : FileTree) : tree.node? [] = some .directory := rfl

theorem node?_of_ne_root (tree : FileTree) {location : Location} (below : location ≠ []) :
    tree.node? location = List.lookup location tree.nodes := by
  simp [node?, below]

theorem ne_root_of_ne_directory {tree : FileTree} {location : Location} {node : Option FileNode}
    (stands : tree.node? location = node) (other : node ≠ some .directory) : location ≠ [] := by
  rintro rfl
  exact other stands.symm

theorem lookup_entry (place location : Location) (node : FileNode) (rest : List (Location × FileNode)) :
    List.lookup place ((location, node) :: rest) = if place = location then some node else List.lookup place rest := by
  by_cases here : place = location
  · simp [here]
  · have different : (place == location) = false := by simpa using here
    simp [List.lookup_cons, different, here]

theorem node?_attach (tree : FileTree) {location : Location} (free : tree.node? location = none) (node : FileNode) :
    (tree.attach location node).node? = Function.update tree.node? location (some node) := by
  have below := ne_root_of_ne_directory free (by simp)
  rw [node?_of_ne_root tree below] at free
  funext place
  by_cases root : place = []
  · subst root
    simp [Function.update_of_ne (Ne.symm below)]
  · rw [node?_of_ne_root _ root]
    by_cases same : place = location
    · subst same
      simp [attach, List.lookup_append, free]
    · rw [Function.update_of_ne same, node?_of_ne_root tree root]
      simp [attach, List.lookup_append, lookup_entry, same]

theorem lookup_filter (keeps : Location → Bool) (place : Location) (nodes : List (Location × FileNode)) :
    List.lookup place (nodes.filter fun entry => keeps entry.1) = if keeps place then List.lookup place nodes else none := by
  induction nodes with
  | nil => simp
  | cons entry rest ih =>
      obtain ⟨other, node⟩ := entry
      by_cases here : place = other
      · subst here
        by_cases kept : keeps place = true
        · simp [kept]
        · simpa [kept] using ih
      · by_cases kept : keeps other = true
        · simpa [kept, lookup_entry, here] using ih
        · simpa [kept, lookup_entry, here] using ih

theorem node?_detach (tree : FileTree) {location : Location} (below : location ≠ []) :
    (tree.detach location).node? = Function.update tree.node? location none := by
  funext place
  by_cases root : place = []
  · subst root
    simp [Function.update_of_ne (Ne.symm below)]
  · rw [node?_of_ne_root _ root, detach, lookup_filter (· != location)]
    by_cases same : place = location
    · simp [same]
    · simp [same, node?_of_ne_root tree root]

theorem lookup_modifyContent (id : FileId) (change : Bytes → Bytes) (place : Location)
    (nodes : List (Location × FileNode)) :
    List.lookup place (nodes.map fun entry =>
      match entry.2 with
      | .file other content => if other = id then (entry.1, FileNode.file id (change content)) else entry
      | .directory => entry) = (List.lookup place nodes).map (FileNode.rewrite id change) := by
  induction nodes with
  | nil => rfl
  | cons entry rest ih =>
      obtain ⟨location, node⟩ := entry
      cases node with
      | directory =>
          by_cases here : place = location
          · simp [here, FileNode.rewrite]
          · simpa [here, lookup_entry] using ih
      | file other content =>
          by_cases named : other = id <;> by_cases here : place = location
          · simp [named, here, FileNode.rewrite]
          · simpa [named, here, lookup_entry] using ih
          · simp [named, here, FileNode.rewrite]
          · simpa [named, here, lookup_entry] using ih

theorem node?_modifyContent (tree : FileTree) (id : FileId) (change : Bytes → Bytes) (place : Location) :
    (tree.modifyContent id change).node? place = (tree.node? place).map (FileNode.rewrite id change) := by
  by_cases root : place = []
  · subst root
    rfl
  · rw [node?_of_ne_root _ root, node?_of_ne_root _ root]
    exact lookup_modifyContent id change place tree.nodes

theorem lookup_move {source target place : Location} (nodes : List (Location × FileNode))
    (free : ∀ entry ∈ nodes, ¬ target <+: entry.1) :
    List.lookup place (nodes.map fun entry =>
      if source.isPrefixOf entry.1 then (target ++ entry.1.drop source.length, entry.2) else entry) =
      if target <+: place then List.lookup (source ++ place.drop target.length) nodes
      else if source <+: place then none else List.lookup place nodes := by
  induction nodes with
  | nil => simp
  | cons entry rest ih =>
      obtain ⟨location, node⟩ := entry
      have outside := free (location, node) (List.mem_cons_self ..)
      have rest := ih fun other member => free other (List.mem_cons_of_mem _ member)
      rw [List.map_cons]
      -- An entry that has moved is found at its new place, and an entry that has not is found where it was.
      by_cases moved : source <+: location
      · obtain ⟨below, rfl⟩ := moved
        by_cases arrived : target <+: place
        · obtain ⟨deeper, rfl⟩ := arrived
          by_cases same : deeper = below
          · simp [same]
          · simpa [lookup_entry, same] using rest
        · have elsewhere : place ≠ target ++ below := by
            rintro rfl
            exact arrived (List.prefix_append ..)
          by_cases left : source <+: place
          · simpa [lookup_entry, elsewhere, arrived, left] using rest
          · have other : place ≠ source ++ below := by
              rintro rfl
              exact left (List.prefix_append ..)
            simpa [lookup_entry, elsewhere, arrived, left, other] using rest
      · by_cases arrived : target <+: place
        · have elsewhere : place ≠ location := by
            rintro rfl
            exact outside arrived
          obtain ⟨deeper, rfl⟩ := arrived
          have other : source ++ deeper ≠ location := by
            rintro rfl
            exact moved (List.prefix_append ..)
          simpa [lookup_entry, moved, elsewhere, other] using rest
        · by_cases here : place = location
          · simp [here, moved, outside]
          · by_cases left : source <+: place
            · simpa [lookup_entry, moved, arrived, here, left] using rest
            · simpa [lookup_entry, moved, arrived, here, left] using rest

theorem node?_of_mem {tree : FileTree} {entry : Location × FileNode} (member : entry ∈ tree.nodes)
    (below : entry.1 ≠ []) : ∃ node, tree.node? entry.1 = some node := by
  rw [node?_of_ne_root _ below]
  cases found : List.lookup entry.1 tree.nodes with
  | some node => exact ⟨node, rfl⟩
  | none =>
      rw [List.lookup_eq_none_iff] at found
      exact absurd (found entry member) (by simp)

theorem lookup_directories (place : Location) (places : List Location) :
    List.lookup place (places.map fun location => (location, FileNode.directory)) =
      if place ∈ places then some .directory else none := by
  induction places with
  | nil => simp
  | cons first rest ih =>
      rw [List.map_cons, lookup_entry, ih]
      by_cases here : place = first <;> simp [here]

theorem node?_empty (home place : Location) :
    (empty home).node? place = if place <+: home then some .directory else none := by
  by_cases root : place = []
  · subst root
    simp
  · have places : (empty home).nodes =
        ((List.range home.length).map fun count => home.take (count + 1)).map fun location =>
          (location, FileNode.directory) := by
      simp [empty]
    rw [node?_of_ne_root _ root, places, lookup_directories]
    congr 1
    rw [List.mem_map, eq_iff_iff]
    constructor
    · rintro ⟨count, -, rfl⟩
      exact List.take_prefix ..
    · intro start
      have nonempty := List.length_pos_iff.mpr root
      have bound := start.length_le
      refine ⟨place.length - 1, List.mem_range.mpr (by omega), ?_⟩
      rw [Nat.sub_add_cancel nonempty]
      exact (List.prefix_iff_eq_take.mp start).symm

theorem isSound_empty (home : Location) : (empty home).IsSound := by
  constructor
  case parents =>
    intro parent name node stands
    rw [node?_empty] at stands ⊢
    split at stands
    next below =>
      rw [if_pos ((List.prefix_append parent [name]).trans below)]
    next => simp at stands
  case single =>
    intro id first second before after stands
    rw [node?_empty] at stands
    split at stands <;> simp at stands
  case fresh =>
    intro id location content stands
    rw [node?_empty] at stands
    split at stands <;> simp at stands
  case home =>
    rw [node?_empty]
    exact if_pos List.prefix_rfl

theorem not_prefix_of_detached {tree : FileTree} {goal : Location}
    (bare : ∀ rest, rest ≠ [] → tree.node? (goal ++ rest) = none) :
    ∀ entry ∈ (tree.detach goal).nodes, ¬ goal <+: entry.1 := by
  rintro entry member ⟨rest, shape⟩
  have other : entry.1 ≠ goal := by simpa using (List.mem_filter.mp member).2
  have deeper : rest ≠ [] := by
    rintro rfl
    exact other (by rw [← shape, List.append_nil])
  obtain ⟨node, stands⟩ := node?_of_mem (List.mem_filter.mp member).1 (by rw [← shape]; simp [deeper])
  rw [← shape, bare rest deeper] at stands
  simp at stands

namespace IsSound

variable {tree after : FileTree} {location goal : Location} {id : FileId} {content : Bytes}

theorem none_below (sound : tree.IsSound) (other : tree.node? location ≠ some .directory) {rest : List String}
    (deeper : rest ≠ []) : tree.node? (location ++ rest) = none := by
  induction rest using List.reverseRecOn with
  | nil => exact absurd rfl deeper
  | append_singleton rest name ih =>
      cases stands : tree.node? (location ++ (rest ++ [name])) with
      | none => rfl
      | some node =>
          have parent := sound.parents (location ++ rest) name node (by rw [List.append_assoc]; exact stands)
          by_cases direct : rest = []
          · subst direct
            exact absurd (by simpa using parent) other
          · rw [ih direct] at parent
            exact absurd parent (by simp)

theorem none_under (sound : tree.IsSound) (free : tree.node? location = none) (rest : List String) :
    tree.node? (location ++ rest) = none := by
  by_cases direct : rest = []
  · simpa [direct] using free
  · exact sound.none_below (by simp [free]) direct

theorem directory_dropLast (sound : tree.IsSound) (stands : tree.node? location = some .directory) :
    tree.node? location.dropLast = some .directory := by
  rcases List.eq_nil_or_concat location with rfl | ⟨parent, name, rfl⟩
  · rfl
  · rw [List.concat_eq_append, List.dropLast_concat]
    exact sound.parents parent name _ (by rwa [List.concat_eq_append] at stands)

theorem update (sound : tree.IsSound) {node : Option FileNode}
    (nodes : after.node? = Function.update tree.node? location node)
    (home : after.workingDirectory = tree.workingDirectory) (next : tree.nextId ≤ after.nextId)
    (free : tree.node? location ≠ some .directory)
    (parent : ∀ parent name, location = parent ++ [name] → node ≠ none → tree.node? parent = some .directory)
    (own : ∀ id content, node = some (.file id content) → id < after.nextId ∧
      ∀ place other, tree.node? place = some (.file id other) → place = location) :
    after.IsSound := by
  constructor
  case parents =>
    intro above name below stands
    have directory : tree.node? above = some .directory := by
      by_cases here : above ++ [name] = location
      · rw [nodes, here, Function.update_self] at stands
        exact parent above name here.symm (by simp [stands])
      · rw [nodes, Function.update_of_ne here] at stands
        exact sound.parents above name below stands
    have elsewhere : above ≠ location := fun same => free (same ▸ directory)
    rw [nodes, Function.update_of_ne elsewhere]
    exact directory
  case single =>
    intro id first second before later atFirst atSecond
    rw [nodes] at atFirst atSecond
    -- Of two places of one file at most one has changed, and what is put there has no other place.
    by_cases one : first = location <;> by_cases two : second = location
    · rw [one, two]
    · subst one
      rw [Function.update_self] at atFirst
      rw [Function.update_of_ne two] at atSecond
      exact ((own id before atFirst).2 second later atSecond).symm
    · subst two
      rw [Function.update_self] at atSecond
      rw [Function.update_of_ne one] at atFirst
      exact (own id later atSecond).2 first before atFirst
    · rw [Function.update_of_ne one] at atFirst
      rw [Function.update_of_ne two] at atSecond
      exact sound.single id first second before later atFirst atSecond
  case fresh =>
    intro id place content stands
    rw [nodes] at stands
    by_cases here : place = location
    · subst here
      rw [Function.update_self] at stands
      exact (own id content stands).1
    · rw [Function.update_of_ne here] at stands
      exact Nat.lt_of_lt_of_le (sound.fresh id place content stands) next
  case home =>
    have elsewhere : tree.workingDirectory ≠ location := fun same => free (same ▸ sound.home)
    rw [home, nodes, Function.update_of_ne elsewhere]
    exact sound.home

theorem attach_directory (sound : tree.IsSound) {parent : Location} {name : String}
    (above : tree.node? parent = some .directory) (free : tree.node? (parent ++ [name]) = none) :
    tree.Becomes (tree.attach (parent ++ [name]) .directory)
      (Function.update tree.node? (parent ++ [name]) (some .directory)) := by
  have nodes := node?_attach tree free .directory
  refine ⟨nodes, rfl, sound.update nodes rfl (Nat.le_refl _) (by simp [free]) ?_ (by simp)⟩
  intro other last same _
  rw [← (List.append_inj' same rfl).1]
  exact above

theorem attach_file (sound : tree.IsSound) {parent : Location} {name : String}
    (above : tree.node? parent = some .directory) (free : tree.node? (parent ++ [name]) = none) :
    tree.Becomes { tree.attach (parent ++ [name]) (.file tree.nextId []) with nextId := tree.nextId + 1 }
      (Function.update tree.node? (parent ++ [name]) (some (.file tree.nextId []))) := by
  have nodes := node?_attach tree free (.file tree.nextId [])
  refine ⟨nodes, rfl, sound.update nodes rfl (Nat.le_succ _) (by simp [free]) ?_ ?_⟩
  · intro other last same _
    rw [← (List.append_inj' same rfl).1]
    exact above
  · intro id content new
    cases new
    refine ⟨Nat.lt_succ_self _, ?_⟩
    intro place content stands
    exact absurd (sound.fresh _ place content stands) (Nat.lt_irrefl _)

theorem detach (sound : tree.IsSound) (stands : tree.node? location = some (.file id content)) :
    tree.Becomes (tree.detach location) (Function.update tree.node? location none) := by
  have nodes := node?_detach tree (ne_root_of_ne_directory stands (by simp))
  exact ⟨nodes, rfl, sound.update nodes rfl (Nat.le_refl _) (by simp [stands]) (by simp) (by simp)⟩

theorem modifyContent (sound : tree.IsSound) (stands : tree.node? location = some (.file id content))
    (change : Bytes → Bytes) :
    tree.Becomes (tree.modifyContent id change)
      (Function.update tree.node? location (some (.file id (change content)))) := by
  have nodes : (tree.modifyContent id change).node? =
      Function.update tree.node? location (some (.file id (change content))) := by
    funext place
    rw [node?_modifyContent]
    by_cases here : place = location
    · subst here
      simp [stands, FileNode.rewrite]
    · rw [Function.update_of_ne here]
      cases other : tree.node? place with
      | none => rfl
      | some node =>
          cases node with
          | directory => rfl
          | file number kept =>
              have different : number ≠ id := by
                rintro rfl
                exact here (sound.single number place location kept content other stands)
              simp [FileNode.rewrite, different]
  refine ⟨nodes, rfl, sound.update nodes rfl (Nat.le_refl _) (by simp [stands]) ?_ ?_⟩
  · intro parent name same _
    subst same
    exact sound.parents parent name _ stands
  · intro number written new
    cases new
    refine ⟨sound.fresh id location content stands, ?_⟩
    intro place other found
    exact sound.single id place location other content found stands

theorem isBare (sound : tree.IsSound) (other : tree.node? location ≠ some .directory) :
    tree.isBare location = true := by
  rw [FileTree.isBare, List.all_eq_true]
  intro entry member
  by_cases beneath : location <+: entry.1
  · by_cases here : entry.1 = location
    · simp [here]
    · obtain ⟨rest, below⟩ := beneath
      have deeper : rest ≠ [] := by
        rintro rfl
        exact here (by simpa using below.symm)
      have nothing := sound.none_below other deeper
      have stands := node?_of_mem member (by rw [← below]; simp [deeper])
      rw [below] at nothing
      simp [nothing] at stands
  · have apart : location.isPrefixOf entry.1 = false := by
      rw [Bool.eq_false_iff, ne_eq, List.isPrefixOf_iff_prefix]
      exact beneath
    simp [apart]

theorem node?_move (sound : tree.IsSound) (stands : tree.node? location = some (.file id content))
    (replaced : tree.node? goal ≠ some .directory) (different : goal ≠ location) :
    ((tree.detach goal).move location goal).node? =
      Function.update (Function.update tree.node? location none) goal (some (.file id content)) := by
  have below := ne_root_of_ne_directory stands (by simp)
  have belowGoal := ne_root_of_ne_directory rfl replaced
  have detached := node?_detach tree belowGoal
  have free := not_prefix_of_detached fun _ deeper => sound.none_below replaced deeper
  have beneath : ∀ rest, rest ≠ [] → tree.node? (location ++ rest) = none := fun rest deeper =>
    sound.none_below (by simp [stands]) deeper
  funext place
  by_cases root : place = []
  · subst root
    simp [Function.update_of_ne (Ne.symm below), Function.update_of_ne (Ne.symm belowGoal)]
  · rw [node?_of_ne_root _ root, FileTree.move, lookup_move _ free]
    by_cases arrived : goal <+: place
    · obtain ⟨rest, rfl⟩ := arrived
      have source : location ++ rest ≠ [] := by simp [below]
      simp only [List.prefix_append, if_true, List.drop_left]
      rw [← node?_of_ne_root (tree.detach goal) source, detached]
      by_cases direct : rest = []
      · subst direct
        simp [Function.update_of_ne (Ne.symm different), stands]
      · have before : Function.update tree.node? goal none (location ++ rest) = none := by
          by_cases same : location ++ rest = goal
          · rw [same, Function.update_self]
          · rw [Function.update_of_ne same]
            exact beneath rest direct
        rw [before, Function.update_of_ne (by simpa using direct)]
        by_cases same : goal ++ rest = location
        · rw [same, Function.update_self]
        · rw [Function.update_of_ne same]
          exact (sound.none_below replaced direct).symm
    · have elsewhere : place ≠ goal := by
        rintro rfl
        exact arrived List.prefix_rfl
      simp only [arrived, if_false]
      rw [Function.update_of_ne elsewhere]
      by_cases left : location <+: place
      · obtain ⟨rest, rfl⟩ := left
        simp only [List.prefix_append, if_true]
        by_cases direct : rest = []
        · simp [direct]
        · rw [Function.update_of_ne (by simpa using direct)]
          exact (beneath rest direct).symm
      · have other : place ≠ location := by
          rintro rfl
          exact left List.prefix_rfl
        simp only [left, if_false]
        rw [← node?_of_ne_root (tree.detach goal) root, detached, Function.update_of_ne elsewhere,
          Function.update_of_ne other]

theorem move (sound : tree.IsSound) {parent : Location} {name : String}
    (stands : tree.node? location = some (.file id content)) (above : tree.node? parent = some .directory)
    (replaced : tree.node? (parent ++ [name]) ≠ some .directory) (different : parent ++ [name] ≠ location) :
    tree.Becomes ((tree.detach (parent ++ [name])).move location (parent ++ [name]))
      (Function.update (Function.update tree.node? location none) (parent ++ [name]) (some (.file id content))) := by
  have nodes := sound.node?_move stands replaced different
  have gone := sound.detach stands
  refine ⟨nodes, rfl, ?_⟩
  have stepwise := nodes
  rw [← gone.nodes] at stepwise
  refine gone.sound.update stepwise rfl (Nat.le_refl _) ?_ ?_ ?_
  · rw [gone.nodes, Function.update_of_ne different]
    exact replaced
  · intro other last same _
    rw [← (List.append_inj' same rfl).1, gone.nodes, Function.update_of_ne]
    · exact above
    · rintro rfl
      rw [stands] at above
      exact absurd above (by simp)
  · intro number kept moved
    cases moved
    refine ⟨sound.fresh id location content stands, ?_⟩
    intro place other found
    rw [gone.nodes] at found
    by_cases here : place = location
    · rw [here, Function.update_self] at found
      exact absurd found (by simp)
    · rw [Function.update_of_ne here] at found
      exact absurd (sound.single id place location other content found stands) here

end IsSound

end FileTree

end KeyedLog
