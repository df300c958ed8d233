import KeyedLog.Proofs.Files.Edits
import Mathlib.Data.List.Nodup

/-!
No two names stand for one file. Every action on files keeps this, whether it fails or not, and none changes the working
directory.
-/

namespace KeyedLog

def FileNode.id? : FileNode → Option FileId
  | directory => none
  | file id _ => some id

namespace FileTree

def ids (tree : FileTree) : List FileId :=
  tree.nodes.filterMap fun entry => entry.2.id?

structure IsNumbered (tree : FileTree) : Prop where
  single : tree.ids.Nodup
  fresh : ∀ id ∈ tree.ids, id < tree.nextId

variable {tree : FileTree}

theorem ids_attach (tree : FileTree) (location : Location) (node : FileNode) :
    (tree.attach location node).ids = tree.ids ++ node.id?.toList := by
  cases node <;> simp [ids, attach, FileNode.id?]

theorem ids_detach (tree : FileTree) (location : Location) : (tree.detach location).ids.Sublist tree.ids :=
  List.Sublist.filterMap _ List.filter_sublist

theorem ids_move (tree : FileTree) (source target : Location) : (tree.move source target).ids = tree.ids := by
  simp only [ids, move, List.filterMap_map]
  congr 1
  funext entry
  simp only [Function.comp_apply]
  split <;> rfl

theorem ids_modifyContent (tree : FileTree) (id : FileId) (change : Bytes → Bytes) :
    (tree.modifyContent id change).ids = tree.ids := by
  simp only [ids, modifyContent, List.filterMap_map]
  congr 1
  funext entry
  obtain ⟨location, node⟩ := entry
  cases node with
  | directory => rfl
  | file other content =>
      by_cases same : other = id
      · subst same
        simp [FileNode.id?]
      · simp [same]

theorem isNumbered_empty (home : Location) : (empty home).IsNumbered := by
  have none : (empty home).ids = [] := by
    simp [ids, empty, FileNode.id?]
  exact ⟨by simp [none], by simp [none]⟩

theorem mem_of_node? {location : Location} {id : FileId} {content : Bytes}
    (stands : tree.node? location = some (.file id content)) : (location, .file id content) ∈ tree.nodes := by
  rw [node?_of_ne_root tree (ne_root_of_ne_directory stands (by simp)), List.lookup_eq_some_iff] at stands
  obtain ⟨front, back, shape, -⟩ := stands
  rw [shape]
  exact List.mem_append_right _ (List.mem_cons_self ..)

theorem IsNumbered.place_unique (numbered : tree.IsNumbered) {first second : Location} {id : FileId} {one two : Bytes}
    (atFirst : (first, .file id one) ∈ tree.nodes) (atSecond : (second, .file id two) ∈ tree.nodes) :
    first = second := by
  obtain ⟨front, back, shape⟩ := List.append_of_mem atFirst
  have member : (second, FileNode.file id two) ∈ front ++ (first, .file id one) :: back := shape ▸ atSecond
  have single := numbered.single
  have split : tree.ids = front.filterMap (fun entry => entry.2.id?) ++ id :: back.filterMap (fun entry => entry.2.id?) := by
    rw [ids, shape, List.filterMap_append]
    rfl
  rw [split, List.nodup_append, List.nodup_cons] at single
  obtain ⟨-, ⟨notBehind, -⟩, apart⟩ := single
  rcases List.mem_append.mp member with before | after
  · exact absurd rfl (apart id (List.mem_filterMap.mpr ⟨_, before, rfl⟩) id (List.mem_cons_self ..))
  · rcases List.mem_cons.mp after with same | behind
    · exact (Prod.mk.inj same).1.symm
    · have again : id ∈ back.filterMap fun entry => entry.2.id? := List.mem_filterMap.mpr ⟨_, behind, rfl⟩
      exact absurd again notBehind

theorem IsNumbered.given (numbered : tree.IsNumbered) {location : Location} {id : FileId} {content : Bytes}
    (member : (location, .file id content) ∈ tree.nodes) : id < tree.nextId :=
  numbered.fresh id (List.mem_filterMap.mpr ⟨_, member, rfl⟩)

/-- Numbers stay in order, and the working directory is the same. -/
structure KeepsNumbers (before after : FileTree) : Prop where
  numbered : before.IsNumbered → after.IsNumbered
  home : after.workingDirectory = before.workingDirectory

theorem KeepsNumbers.refl (tree : FileTree) : tree.KeepsNumbers tree :=
  ⟨fun numbered => numbered, rfl⟩

theorem KeepsNumbers.trans {first second third : FileTree} (one : first.KeepsNumbers second)
    (two : second.KeepsNumbers third) : first.KeepsNumbers third :=
  ⟨fun numbered => two.numbered (one.numbered numbered), two.home.trans one.home⟩

theorem keepsNumbers_of_sublist {after : FileTree} (ids : after.ids.Sublist tree.ids) (next : after.nextId = tree.nextId)
    (home : after.workingDirectory = tree.workingDirectory) : tree.KeepsNumbers after := by
  refine ⟨?_, home⟩
  intro numbered
  refine ⟨ids.nodup numbered.single, ?_⟩
  intro id member
  rw [next]
  exact numbered.fresh id (ids.subset member)

theorem keepsNumbers_directory (tree : FileTree) (location : Location) :
    tree.KeepsNumbers (tree.attach location .directory) :=
  keepsNumbers_of_sublist (by rw [ids_attach]; simp [FileNode.id?]) rfl rfl

theorem keepsNumbers_modifyContent (tree : FileTree) (id : FileId) (change : Bytes → Bytes) :
    tree.KeepsNumbers (tree.modifyContent id change) :=
  keepsNumbers_of_sublist (by rw [ids_modifyContent]) rfl rfl

theorem keepsNumbers_file (tree : FileTree) (location : Location) :
    tree.KeepsNumbers { tree.attach location (.file tree.nextId []) with nextId := tree.nextId + 1 } := by
  have ids : ({ tree.attach location (.file tree.nextId []) with nextId := tree.nextId + 1 } : FileTree).ids =
      tree.ids ++ [tree.nextId] := ids_attach tree location (.file tree.nextId [])
  refine ⟨?_, rfl⟩
  intro numbered
  refine ⟨?_, ?_⟩
  · rw [ids, List.nodup_append]
    refine ⟨numbered.single, List.nodup_singleton _, ?_⟩
    intro id member other new
    rw [List.mem_singleton.mp new]
    exact Nat.ne_of_lt (numbered.fresh id member)
  · intro id member
    rw [ids] at member
    show id < tree.nextId + 1
    rcases List.mem_append.mp member with old | new
    · exact Nat.lt_succ_of_lt (numbered.fresh id old)
    · rw [List.mem_singleton.mp new]
      exact Nat.lt_succ_self _

theorem Edit.numbers {own shifts : Location → Prop} {before after : FileTree} (edit : Edit own shifts before after) :
    before.KeepsNumbers after := by
  cases edit with
  | directory location => exact keepsNumbers_directory before location
  | file _ => exact keepsNumbers_file before _
  | detach _ => exact keepsNumbers_of_sublist (ids_detach before _) rfl rfl
  | rewrite id change => exact keepsNumbers_modifyContent before id change
  | move _ _ => exact keepsNumbers_of_sublist (by rw [ids_move]) rfl rfl

theorem Edits.numbers {own shifts : Location → Prop} {before after : FileTree} (edits : Edits own shifts before after) :
    before.KeepsNumbers after := by
  induction edits with
  | refl => exact KeepsNumbers.refl before
  | tail _ edit ih => exact ih.trans edit.numbers

end FileTree

end KeyedLog
