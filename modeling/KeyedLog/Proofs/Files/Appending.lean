import KeyedLog.Proofs.Files.Numbers

/-!
Files that only grow. As long as directories and files are made and files are appended to, and nothing else is done,
everything stays where it is, and a file holds what it held at first and then what was appended to it.
-/

namespace KeyedLog

/-- What was appended to files, the first in front. -/
abbrev Additions := List (FileId × Bytes)

namespace Additions

def ofFile (additions : Additions) (id : FileId) : Bytes :=
  (additions.filter (·.1 == id)).flatMap (·.2)

@[simp] theorem ofFile_nil (id : FileId) : ofFile [] id = [] := rfl

@[simp] theorem ofFile_append (first second : Additions) (id : FileId) :
    ofFile (first ++ second) id = first.ofFile id ++ second.ofFile id := by
  simp [ofFile]

theorem ofFile_singleton (number id : FileId) (bytes : Bytes) :
    ofFile [(number, bytes)] id = if number = id then bytes else [] := by
  by_cases same : number = id <;> simp [ofFile, same]

theorem ofFile_of_fresh {additions : Additions} {bound id : FileId} (given : ∀ entry ∈ additions, entry.1 < bound)
    (fresh : bound ≤ id) : additions.ofFile id = [] := by
  have none : additions.filter (·.1 == id) = [] := by
    rw [List.filter_eq_nil_iff]
    intro entry member same
    exact absurd (given entry member) (by rw [beq_iff_eq.mp same]; exact Nat.not_lt.mpr fresh)
  rw [ofFile, none]
  rfl

end Additions

namespace FileNode

def extend (additions : Additions) : FileNode → FileNode
  | directory => directory
  | file id content => file id (content ++ additions.ofFile id)

@[simp] theorem extend_nil (node : FileNode) : node.extend [] = node := by
  cases node <;> simp [extend]

theorem extend_append (first second : Additions) (node : FileNode) :
    node.extend (first ++ second) = (node.extend first).extend second := by
  cases node <;> simp [extend]

theorem file_of_extend {additions : Additions} {node : FileNode} {id : FileId} {content : Bytes}
    (grown : node.extend additions = file id content) :
    ∃ old, node = file id old ∧ content = old ++ additions.ofFile id := by
  cases node with
  | directory => simp [extend] at grown
  | file number old =>
      obtain ⟨rfl, rfl⟩ : number = id ∧ old ++ additions.ofFile number = content := by simpa [extend] using grown
      exact ⟨old, rfl, rfl⟩

end FileNode

namespace FileTree

def IsFresh (tree : FileTree) : Prop :=
  ∀ id location content, tree.node? location = some (.file id content) → id < tree.nextId

def contentAt (tree : FileTree) (location : Location) : Bytes :=
  match tree.node? location with
  | some (.file _ content) => content
  | _ => []

/-- Files have been appended to, and directories and files have been made where nothing was. -/
structure Appends (additions : Additions) (before after : FileTree) : Prop where
  home : after.workingDirectory = before.workingDirectory
  next : before.nextId ≤ after.nextId
  kept : ∀ location node, before.node? location = some node → after.node? location = some (node.extend additions)
  new : ∀ location id content, before.node? location = none → after.node? location = some (.file id content) →
    before.nextId ≤ id ∧ id < after.nextId ∧ content = additions.ofFile id
  given : ∀ entry ∈ additions, entry.1 < after.nextId

variable {before after tree : FileTree} {additions : Additions} {location : Location} {node : FileNode} {id : FileId}
  {content : Bytes} {path : String}

theorem isFresh_of_ids (fresh : ∀ id ∈ tree.ids, id < tree.nextId) : tree.IsFresh := by
  intro id location content stands
  exact fresh id (List.mem_filterMap.mpr ⟨_, mem_of_node? stands, rfl⟩)

theorem Appends.refl (tree : FileTree) : Appends [] tree tree where
  home := rfl
  next := Nat.le_refl _
  kept location node stands := by rw [FileNode.extend_nil, stands]
  new location id content free stands := by simp [free] at stands
  given entry member := by simp at member

theorem Appends.origin (appends : Appends additions before after)
    (stands : after.node? location = some (.file id content)) :
    before.node? location = none ∧ before.nextId ≤ id ∧ id < after.nextId ∧ content = additions.ofFile id ∨
      ∃ old, before.node? location = some (.file id old) ∧ content = old ++ additions.ofFile id := by
  cases there : before.node? location with
  | none => exact .inl ⟨rfl, appends.new location id content there stands⟩
  | some node =>
      have grown := appends.kept location node there
      rw [stands] at grown
      obtain ⟨old, rfl, same⟩ := FileNode.file_of_extend (Option.some.inj grown).symm
      exact .inr ⟨old, rfl, same⟩

theorem Appends.trans {first second third : FileTree} {earlier later : Additions} (one : Appends earlier first second)
    (two : Appends later second third) : Appends (earlier ++ later) first third := by
  refine ⟨two.home.trans one.home, Nat.le_trans one.next two.next, ?_, ?_, ?_⟩
  · intro location node stands
    rw [FileNode.extend_append]
    exact two.kept location _ (one.kept location node stands)
  · intro location id content free stands
    rcases two.origin stands with ⟨-, lower, upper, rfl⟩ | ⟨old, there, rfl⟩
    · refine ⟨Nat.le_trans one.next lower, upper, ?_⟩
      rw [Additions.ofFile_append, Additions.ofFile_of_fresh one.given lower, List.nil_append]
    · obtain ⟨lower, upper, rfl⟩ := one.new location id old free there
      exact ⟨lower, Nat.lt_of_lt_of_le upper two.next, (Additions.ofFile_append ..).symm⟩
  · intro entry member
    rcases List.mem_append.mp member with old | new
    · exact Nat.lt_of_lt_of_le (one.given entry old) two.next
    · exact two.given entry new

theorem Appends.directory (appends : Appends additions before after) (stands : before.node? location = some .directory) :
    after.node? location = some .directory :=
  appends.kept location .directory stands

theorem Appends.file (appends : Appends additions before after)
    (stands : before.node? location = some (.file id content)) :
    after.node? location = some (.file id (content ++ additions.ofFile id)) :=
  appends.kept location _ stands

theorem Appends.keepsDirectories (appends : Appends additions before after) : before.KeepsDirectories after :=
  ⟨appends.home, fun _ stands => appends.directory stands⟩

theorem Appends.isFresh (appends : Appends additions before after) (fresh : before.IsFresh) : after.IsFresh := by
  intro id location content stands
  rcases appends.origin stands with ⟨-, -, upper, -⟩ | ⟨old, there, -⟩
  · exact upper
  · exact Nat.lt_of_lt_of_le (fresh id location old there) appends.next

theorem Appends.contentAt (appends : Appends additions before after)
    (stands : after.node? location = some (.file id content)) :
    content = before.contentAt location ++ additions.ofFile id := by
  rcases appends.origin stands with ⟨free, -, -, rfl⟩ | ⟨old, there, rfl⟩
  · simp [FileTree.contentAt, free]
  · simp [FileTree.contentAt, there]

theorem Appends.find (appends : Appends additions before after) (found : before.find path = .ok (location, node)) :
    after.find path = .ok (location, node.extend additions) := by
  rw [find_eq_ok] at found ⊢
  rw [route_congr appends.home]
  obtain ⟨route, ready, ⟨last, start, directory⟩ | ⟨name, parent, last, way, next, stands, ending⟩⟩ := found
  · subst directory
    exact ⟨route, ready, .inl ⟨last, start, rfl⟩⟩
  · refine ⟨route, ready, .inr ⟨name, parent, last, follow_mono appends.keepsDirectories way, next,
      appends.kept location node stands, ?_⟩⟩
    intro slash
    rw [ending slash]
    rfl

theorem Appends.isDirectory (appends : Appends additions before after) (found : before.isDirectory path = true) :
    after.isDirectory path = true := by
  unfold FileTree.isDirectory at found
  split at found
  next there => simp [FileTree.isDirectory, appends.find there, FileNode.extend]
  next => simp at found

theorem Grows.appends (grows : before.Grows after) (next : before.nextId ≤ after.nextId) : Appends [] before after where
  home := grows.home
  next := next
  kept location node stands := by rw [FileNode.extend_nil, grows.kept location node stands]
  new location id content free stands := by
    rcases grows.new location free with still | made
    · simp [still] at stands
    · simp [made] at stands
  given entry member := by simp at member

theorem appends_file (tree : FileTree) {location : Location} (free : tree.node? location = none) :
    Appends [] tree { tree.attach location (.file tree.nextId []) with nextId := tree.nextId + 1 } := by
  have nodes : ({ tree.attach location (.file tree.nextId []) with nextId := tree.nextId + 1 } : FileTree).node? =
      Function.update tree.node? location (some (.file tree.nextId [])) := node?_attach tree free _
  refine ⟨rfl, Nat.le_succ _, ?_, ?_, by simp⟩
  · intro place node stands
    have elsewhere : place ≠ location := by
      rintro rfl
      simp [free] at stands
    rw [nodes, Function.update_of_ne elsewhere, FileNode.extend_nil, stands]
  · intro place id content empty stands
    rw [nodes] at stands
    by_cases here : place = location
    · rw [here, Function.update_self] at stands
      cases stands
      exact ⟨Nat.le_refl _, Nat.lt_succ_self _, rfl⟩
    · rw [Function.update_of_ne here, empty] at stands
      simp at stands

theorem appends_append (tree : FileTree) {id : FileId} (given : id < tree.nextId) (bytes : Bytes) :
    Appends [(id, bytes)] tree (tree.append id bytes) := by
  refine ⟨rfl, Nat.le_refl _, ?_, ?_, ?_⟩
  · intro location node stands
    rw [FileTree.append, node?_modifyContent, stands, Option.map_some]
    cases node with
    | directory => rfl
    | file number content =>
        by_cases same : id = number
        · simp [FileNode.rewrite, FileNode.extend, Additions.ofFile_singleton, same]
        · simp [FileNode.rewrite, FileNode.extend, Additions.ofFile_singleton, same, Ne.symm same]
  · intro location number content free stands
    rw [FileTree.append, node?_modifyContent, free] at stands
    simp at stands
  · intro entry member
    rw [List.mem_singleton.mp member]
    exact given

end FileTree

namespace Files

open FileTree

variable {tree : FileTree} {path : String}

theorem makeDirectory_nextId (path : String) (tree : FileTree) :
    tree.nextId ≤ (stateAfter (makeDirectory path) tree).nextId := by
  let ascends (first second : FileTree) : Prop := first.nextId ≤ second.nextId
  show ascends tree (stateAfter (makeDirectory path) tree)
  unfold makeDirectory
  refine stateAfter_bind ascends Nat.le_trans (Nat.le_of_eq (by rw [look_state])) ?_
  intro slot after _
  refine stateAfter_bind ascends Nat.le_trans (Nat.le_of_eq (by rw [place_state])) ?_
  intro location later _
  rw [stateAfter, bind_get]
  cases later.node? location <;> exact Nat.le_refl _

theorem makeDirectories_appends (path : String) (tree : FileTree) :
    Appends [] tree (stateAfter (makeDirectories path) tree) :=
  makeDirectories_keeps (Appends []) Appends.refl Appends.trans
    (fun path tree => (makeDirectory_grows path tree).appends (makeDirectory_nextId path tree)) path tree

theorem openForWriting_appends (path : String) (tree : FileTree) :
    Appends [] tree (stateAfter (openForWriting path) tree) := by
  unfold openForWriting
  refine stateAfter_bind (Appends []) Appends.trans (by rw [look_state]; exact Appends.refl _) ?_
  intro slot after _
  cases slot.asDirectory with
  | true => exact Appends.refl _
  | false =>
      simp only [Bool.false_eq_true, if_false]
      refine stateAfter_bind (Appends []) Appends.trans (by rw [place_state]; exact Appends.refl _) ?_
      intro location last _
      rw [stateAfter, bind_get]
      cases free : last.node? location with
      | none => exact appends_file last free
      | some node => cases node <;> exact Appends.refl _

theorem touch_appends (path : String) (tree : FileTree) : Appends [] tree (stateAfter (touch path) tree) := by
  have opened : ∀ tree, Appends [] tree (stateAfter ((openForWriting path).at path) tree) := by
    intro tree
    rw [stateAfter_at]
    exact openForWriting_appends path tree
  unfold touch
  cases Path.parent? path with
  | none => exact opened tree
  | some parent =>
      dsimp only
      refine stateAfter_ite _ ?_ (opened tree)
      refine stateAfter_bind (Appends []) Appends.trans ?_ fun _ after _ => opened after
      rw [stateAfter_at]
      exact makeDirectories_appends parent tree

theorem touch_find {opened : FileHandle × Nat} {after : FileTree} (done : touch path tree = .ok opened after) :
    ∃ location content, after.find path = .ok (location, .file opened.1.id content) := by
  obtain ⟨parent, name, content, names, stands⟩ := touch_names done
  refine ⟨parent ++ [name], content, ?_⟩
  rw [names.find, stands]

end Files

end KeyedLog
