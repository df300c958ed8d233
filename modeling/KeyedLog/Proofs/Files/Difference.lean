import KeyedLog.Proofs.Files.Alike
import KeyedLog.Proofs.Files.Meddling

/-!
Two trees that are the same but for one place, where a file stands in the first and no directory in the second. Paths lead to
the same places in both, so what others take away or make in the one they take away or make in the other.
-/

namespace KeyedLog

namespace FileTree

/-- The trees are the same, but for a file that the first has at a place. -/
structure SameBut (spot : Location) (tree twin : FileTree) : Prop where
  sound : tree.IsSound
  soundTwin : twin.IsSound
  home : twin.workingDirectory = tree.workingDirectory
  others : ∀ location, location ≠ spot → twin.node? location = tree.node? location
  spot : twin.node? spot = tree.node? spot ∨
    (∃ id content, tree.node? spot = some (.file id content)) ∧ twin.node? spot ≠ some .directory

variable {spot location : Location} {tree twin after : FileTree} {path : String} {node : FileNode}

theorem SameBut.refl (sound : tree.IsSound) : SameBut spot tree tree :=
  ⟨sound, sound, rfl, fun _ _ => rfl, .inl rfl⟩

theorem SameBut.directory_iff (same : SameBut spot tree twin) :
    twin.node? location = some .directory ↔ tree.node? location = some .directory := by
  by_cases here : location = spot
  · subst here
    rcases same.spot with equal | ⟨⟨id, content, file⟩, other⟩
    · rw [equal]
    · simp [file, other]
  · rw [same.others location here]

theorem SameBut.keeps (same : SameBut spot tree twin) : tree.KeepsDirectories twin :=
  ⟨same.home, fun _ => same.directory_iff.mpr⟩

theorem SameBut.keepsTwin (same : SameBut spot tree twin) : twin.KeepsDirectories tree :=
  ⟨same.home.symm, fun _ => same.directory_iff.mp⟩

theorem SameBut.node? (same : SameBut spot tree twin)
    (apart : location ≠ spot ∨ ∀ id content, tree.node? location ≠ some (.file id content)) :
    twin.node? location = tree.node? location := by
  by_cases here : location = spot
  · subst here
    rcases same.spot with equal | ⟨⟨id, content, file⟩, -⟩
    · exact equal
    · exact absurd file (apart.resolve_left (fun other => other rfl) id content)
  · exact same.others location here

theorem find_kept {before after : FileTree} (kept : before.KeepsDirectories after) {other : FileNode}
    (found : before.find path = .ok (location, node)) (stands : after.node? location = some other)
    (kind : node = .directory → other = .directory) : after.find path = .ok (location, other) := by
  obtain ⟨route, ready, shape⟩ := find_eq_ok.mp found
  refine find_eq_ok.mpr ⟨route, (route_congr kept.home path).trans ready, ?_⟩
  rcases shape with ⟨none, start, directory⟩ | ⟨name, parent, last, way, next, -, ending⟩
  · exact .inl ⟨none, start, (kind directory.symm).symm⟩
  · exact .inr ⟨name, parent, last, follow_mono kept way, next, stands, fun slash => kind (ending slash)⟩

theorem node?_of_find_ok (sound : tree.IsSound) (found : tree.find path = .ok (location, node)) :
    tree.node? location = some node := by
  obtain ⟨route, ready, ⟨-, start, directory⟩ | ⟨name, parent, -, -, -, stands, -⟩⟩ := find_eq_ok.mp found
  · obtain rfl := (route_ok ready).2.2.2
    rw [← directory, ← start]
    exact origin_directory sound path.toList
  · exact stands

theorem SameBut.find (same : SameBut spot tree twin) (apart : location ≠ spot ∨ node = .directory)
    (found : tree.find path = .ok (location, node)) : twin.find path = .ok (location, node) := by
  have stands := node?_of_find_ok same.sound found
  refine find_kept same.keeps found ?_ fun directory => directory
  rw [same.node? (apart.imp_right fun directory => by simp [stands, directory]), stands]

theorem SameBut.findTwin (same : SameBut spot tree twin) (apart : location ≠ spot ∨ node = .directory)
    (found : twin.find path = .ok (location, node)) : tree.find path = .ok (location, node) := by
  have stands := node?_of_find_ok same.soundTwin found
  refine find_kept same.keepsTwin found ?_ fun directory => directory
  rcases apart with other | rfl
  · rw [← same.others location other, stands]
  · exact same.directory_iff.mp stands

theorem SameBut.find_spot (same : SameBut spot tree twin) {id : FileId} {content : Bytes}
    (found : twin.find path = .ok (spot, .file id content)) : ∃ node, tree.find path = .ok (spot, node) := by
  have file : ∃ other kept, tree.node? spot = some (.file other kept) := by
    rcases same.spot with equal | ⟨file, -⟩
    · exact ⟨id, content, equal ▸ node?_of_find found⟩
    · exact file
  obtain ⟨other, kept, there⟩ := file
  exact ⟨_, find_kept same.keepsTwin found there (by simp)⟩

theorem SameBut.free_of_error (same : SameBut spot tree twin) {id : FileId} {content : Bytes} {fault : IoFault}
    (found : tree.find path = .ok (spot, .file id content)) (failed : twin.find path = .error fault) :
    twin.node? spot = none := by
  cases there : twin.node? spot with
  | none => rfl
  | some node =>
      rw [find_kept same.keeps found there (by simp)] at failed
      simp at failed

theorem SameBut.detachAll (same : SameBut spot tree twin) (location : Location) :
    SameBut spot (tree.detachAll location) (twin.detachAll location) := by
  have nodes : ∀ place, twin.node? place = tree.node? place →
      (twin.detachAll location).node? place = (tree.detachAll location).node? place := by
    intro place equal
    rw [node?_detachAll, node?_detachAll, same.home, equal]
  refine ⟨same.sound.detachAll location, same.soundTwin.detachAll location, same.home, ?_, ?_⟩
  · exact fun place other => nodes place (same.others place other)
  · rcases same.spot with equal | ⟨⟨id, content, file⟩, other⟩
    · exact .inl (nodes spot equal)
    · by_cases gone : location <+: spot ∧ ¬ spot <+: tree.workingDirectory
      · left
        rw [node?_detachAll, node?_detachAll, same.home, if_pos gone, if_pos gone]
      · right
        rw [node?_detachAll, node?_detachAll, same.home, if_neg gone, if_neg gone]
        exact ⟨⟨id, content, file⟩, other⟩

theorem SameBut.detachSpot (same : SameBut spot tree twin) {id : FileId} {content : Bytes}
    (file : tree.node? spot = some (.file id content)) (free : twin.node? spot = none) :
    SameBut spot (tree.detachAll spot) twin := by
  have outside : ¬ spot <+: tree.workingDirectory := by
    rintro ⟨rest, below⟩
    have home := same.sound.home
    rw [← below] at home
    by_cases direct : rest = []
    · rw [direct, List.append_nil, file] at home
      simp at home
    · rw [same.sound.none_below (by simp [file]) direct] at home
      simp at home
  have gone : (tree.detachAll spot).node? spot = none := by
    rw [node?_detachAll, if_pos ⟨List.prefix_rfl, outside⟩]
  refine ⟨same.sound.detachAll spot, same.soundTwin, same.home, ?_, .inl (free.trans gone.symm)⟩
  intro place other
  rw [same.others place other, node?_detachAll]
  split
  next below =>
    obtain ⟨⟨rest, rfl⟩, -⟩ := below
    exact same.sound.none_below (by simp [file]) fun direct => other (by rw [direct, List.append_nil])
  next => rfl

theorem SameBut.slot (same : SameBut spot tree twin) {parent : Location} {name : String} {asDirectory : Bool}
    (found : tree.slot path = .ok ⟨parent, some name, asDirectory⟩) :
    twin.slot path = .ok ⟨parent, some name, asDirectory⟩ :=
  slot_kept (same.keeps.way path) found

theorem SameBut.attach (same : SameBut spot tree twin) {new : FileTree} {node : Option FileNode}
    (home : after.workingDirectory = tree.workingDirectory) (homeTwin : new.workingDirectory = twin.workingDirectory)
    (sound : after.IsSound) (soundTwin : new.IsSound) (nodes : after.node? = Function.update tree.node? location node)
    (nodesTwin : new.node? = Function.update twin.node? location node) : SameBut spot after new := by
  have kept : ∀ place, (place ≠ location → twin.node? place = tree.node? place) → new.node? place = after.node? place := by
    intro place equal
    rw [nodes, nodesTwin]
    by_cases here : place = location
    · rw [here, Function.update_self, Function.update_self]
    · rw [Function.update_of_ne here, Function.update_of_ne here, equal here]
  refine ⟨sound, soundTwin, homeTwin.trans (same.home.trans home.symm), ?_, ?_⟩
  · exact fun place other => kept place fun _ => same.others place other
  · by_cases here : spot = location
    · exact .inl (kept spot fun elsewhere => absurd here elsewhere)
    · rcases same.spot with equal | ⟨⟨id, content, file⟩, other⟩
      · exact .inl (kept spot fun _ => equal)
      · right
        rw [nodes, nodesTwin, Function.update_of_ne here, Function.update_of_ne here]
        exact ⟨⟨id, content, file⟩, other⟩

end FileTree

namespace Files

open FileTree

variable {spot : Location} {tree twin after : FileTree}

theorem removeTree_sameBut (same : SameBut spot tree twin) (path : String) :
    SameBut spot (stateAfter (removeTree path) tree) (stateAfter (removeTree path) twin) := by
  unfold removeTree
  rw [stateAfter_get, stateAfter_get]
  cases found : tree.find path with
  | ok result =>
      obtain ⟨location, node⟩ := result
      -- Anything but the file that the second tree may lack is found there as well.
      by_cases apart : location ≠ spot ∨ node = .directory
      · rw [same.find apart found]
        exact same.detachAll location
      · simp only [not_or, not_not] at apart
        obtain ⟨rfl, file⟩ := apart
        cases node with
        | directory => exact absurd rfl file
        | file id content =>
            have there := node?_of_find found
            cases foundTwin : twin.find path with
            | ok resultTwin =>
                obtain ⟨place, other⟩ := resultTwin
                by_cases elsewhere : place ≠ location ∨ other = .directory
                · rw [same.findTwin elsewhere foundTwin] at found
                  obtain ⟨rfl, rfl⟩ := Prod.mk.inj (Except.ok.inj found)
                  exact same.detachAll place
                · simp only [not_or, not_not] at elsewhere
                  obtain ⟨rfl, -⟩ := elsewhere
                  exact same.detachAll place
            | error fault => exact same.detachSpot there (same.free_of_error found foundTwin)
  | error fault =>
      cases foundTwin : twin.find path with
      | error other => exact same
      | ok result =>
          obtain ⟨place, node⟩ := result
          exfalso
          by_cases elsewhere : place ≠ spot ∨ node = .directory
          · rw [same.findTwin elsewhere foundTwin] at found
            simp at found
          · simp only [not_or, not_not] at elsewhere
            obtain ⟨rfl, file⟩ := elsewhere
            cases node with
            | directory => exact absurd rfl file
            | file id content =>
                obtain ⟨other, there⟩ := same.find_spot foundTwin
                rw [there] at found
                simp at found

theorem makeDirectory_sameBut (same : SameBut spot tree twin) {path : String} (made : makeDirectory path tree = .ok () after) :
    SameBut spot after (stateAfter (makeDirectory path) twin) := by
  have grows := makeDirectory_grows path tree
  have growsTwin := makeDirectory_grows path twin
  rw [stateAfter_of_ok made] at grows
  cases found : tree.slot path with
  | error fault =>
      rw [makeDirectory_of_slot_error found] at made
      simp at made
  | ok slot =>
      obtain ⟨parent, named, asDirectory⟩ := slot
      cases named with
      | none =>
          rw [makeDirectory_of_slot_none found] at made
          simp at made
      | some name =>
          rw [makeDirectory_of_slot found] at made
          rw [stateAfter, makeDirectory_of_slot (same.slot found)] at growsTwin ⊢
          cases next : FileTree.step parent name with
          | error fault => simp [next] at made
          | ok location =>
              simp only [next] at made growsTwin ⊢
              cases free : tree.node? location with
              | some node => simp [free] at made
              | none =>
                  have freeTwin : twin.node? location = none := (same.node? (.inr (by simp [free]))).trans free
                  simp only [free, EStateM.Result.ok.injEq, true_and] at made
                  simp only [freeTwin] at growsTwin ⊢
                  subst made
                  exact same.attach rfl rfl (grows.sound same.sound) (growsTwin.sound same.soundTwin)
                    (node?_attach tree free .directory) (node?_attach twin freeTwin .directory)

end Files

end KeyedLog
