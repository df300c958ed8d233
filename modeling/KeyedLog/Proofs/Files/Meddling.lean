import KeyedLog.Proofs.Files.Edits
import KeyedLog.Proofs.Files.Relocation

/-!
What others do to the files meanwhile. Whatever they take away, make or write, a sound tree stays sound, the working directory
stays where it is, and no number that a file had is given again.
-/

namespace KeyedLog

namespace FileTree

variable {tree : FileTree} {location place : Location}

theorem node?_detachAll (tree : FileTree) (location place : Location) :
    (tree.detachAll location).node? place =
      if location <+: place ∧ ¬ place <+: tree.workingDirectory then none else tree.node? place := by
  by_cases root : place = []
  · subst root
    simp
  · have kept : (!location.isPrefixOf place || place.isPrefixOf tree.workingDirectory) = true ↔
        ¬ (location <+: place ∧ ¬ place <+: tree.workingDirectory) := by
      simp only [Bool.or_eq_true, Bool.not_eq_true', Bool.eq_false_iff, ne_eq, List.isPrefixOf_iff_prefix]
      tauto
    rw [node?_of_ne_root _ root, node?_of_ne_root _ root, detachAll, lookup_filter
      (fun place => !location.isPrefixOf place || place.isPrefixOf tree.workingDirectory)]
    by_cases gone : location <+: place ∧ ¬ place <+: tree.workingDirectory
    · rw [if_pos gone, if_neg (fun still => kept.mp still gone)]
    · rw [if_neg gone, if_pos (kept.mpr gone)]

theorem IsSound.detachAll (sound : tree.IsSound) (location : Location) : (tree.detachAll location).IsSound := by
  have old : ∀ {place node}, (tree.detachAll location).node? place = some node → tree.node? place = some node := by
    intro place node stands
    rw [node?_detachAll] at stands
    split at stands
    · simp at stands
    · exact stands
  constructor
  case parents =>
    intro parent name node stands
    have before := sound.parents parent name node (old stands)
    rw [node?_detachAll] at stands ⊢
    split at stands
    next => simp at stands
    next kept =>
      rw [if_neg, before]
      rintro ⟨below, apart⟩
      exact kept ⟨below.trans (List.prefix_append ..), fun home => apart ((List.prefix_append ..).trans home)⟩
  case single =>
    exact fun id first second before after one two => sound.single id first second before after (old one) (old two)
  case fresh =>
    exact fun id place content stands => sound.fresh id place content (old stands)
  case home =>
    show (tree.detachAll location).node? tree.workingDirectory = _
    rw [node?_detachAll, if_neg (fun gone => gone.2 List.prefix_rfl)]
    exact sound.home

/-- What is sound is sound still, and what was known of the numbers and of the working directory is true still. -/
structure Endures (before after : FileTree) : Prop where
  home : after.workingDirectory = before.workingDirectory
  next : before.nextId ≤ after.nextId
  sound : before.IsSound → after.IsSound

theorem Endures.refl (tree : FileTree) : tree.Endures tree :=
  ⟨rfl, Nat.le_refl _, fun sound => sound⟩

theorem Endures.trans {first second third : FileTree} (one : first.Endures second) (two : second.Endures third) :
    first.Endures third :=
  ⟨two.home.trans one.home, Nat.le_trans one.next two.next, fun sound => two.sound (one.sound sound)⟩

theorem Edits.next {own shifts : Location → Prop} {before after : FileTree} (edits : Edits own shifts before after) :
    before.nextId ≤ after.nextId := by
  induction edits with
  | refl => exact Nat.le_refl _
  | tail _ edit ih => cases edit <;> first | exact ih | exact Nat.le_succ_of_le ih

theorem endures_rewrite (tree : FileTree) (id : FileId) (change : Bytes → Bytes) :
    tree.Endures (tree.modifyContent id change) :=
  ⟨rfl, Nat.le_refl _, fun sound => sound.rewrite id change⟩

end FileTree

namespace Files

open FileTree

theorem removeTree_endures (path : String) (tree : FileTree) : tree.Endures (stateAfter (removeTree path) tree) := by
  unfold removeTree
  rw [stateAfter_get]
  split
  · exact .refl tree
  · exact ⟨rfl, Nat.le_refl _, fun sound => sound.detachAll _⟩

theorem makeDirectory_endures (path : String) (tree : FileTree) : tree.Endures (stateAfter (makeDirectory path) tree) := by
  have grows := makeDirectory_grows path tree
  refine ⟨grows.home, ?_, grows.sound⟩
  have edits : Edits Anywhere Anywhere tree (stateAfter (makeDirectory path) tree) := makeDirectory_edits path tree
  exact edits.next

theorem openForWriting_endures (path : String) (tree : FileTree) : tree.Endures (stateAfter (openForWriting path) tree) := by
  cases result : openForWriting path tree with
  | error fault after =>
      rw [stateAfter_of_error result, openForWriting_error result]
      exact .refl tree
  | ok opened after =>
      rw [stateAfter_of_ok result]
      obtain ⟨parent, name, names, ⟨content, -, -, rfl⟩ | ⟨free, -, rfl⟩⟩ := openForWriting_ok result
      · exact .refl _
      · exact ⟨rfl, Nat.le_succ _, fun sound => (sound.attach_file (names.directory sound) free).sound⟩

theorem writeAll_endures (path : String) (bytes : Bytes) (tree : FileTree) :
    tree.Endures (stateAfter (writeAll path bytes) tree) := by
  unfold writeAll create
  refine stateAfter_bind Endures Endures.trans ?_ fun handle after _ => endures_rewrite after handle.id (· ++ bytes)
  exact stateAfter_bind Endures Endures.trans (openForWriting_endures path tree) fun opened after _ =>
    endures_rewrite after opened.1.id fun _ => []

end Files

inductive Meddling where
  | remove (path : String)
  | makeDirectory (path : String)
  | write (path : String) (bytes : Bytes)

def Meddling.act : Meddling → FileAction Unit
  | remove path => Files.removeTree path
  | makeDirectory path => Files.makeDirectory path
  | write path bytes => Files.writeAll path bytes

def Meddling.apply (meddling : Meddling) (tree : FileTree) : FileTree :=
  stateAfter meddling.act tree

theorem Meddling.endures (meddling : Meddling) (tree : FileTree) : tree.Endures (meddling.apply tree) := by
  cases meddling with
  | remove path => exact Files.removeTree_endures path tree
  | makeDirectory path => exact Files.makeDirectory_endures path tree
  | write path bytes => exact Files.writeAll_endures path bytes tree

end KeyedLog
