import KeyedLog.Proofs.Files.Difference
import KeyedLog.Proofs.Sink.Recovery

/-!
Rotations that fail. As long as the way to the file is not in one of its archives, a write that fails has changed nothing but
the staging file, and once it succeeds all is as if it had not failed before.
-/

namespace KeyedLog

open FileTree

/-- Neither the working directory nor the way to the file is in a slot from which an archive may be moved. For a path that is
not absolute the working directory is a fixed place here: a directory that is moved does not take it along, as it would in an
operating system. So nothing is said of trees in which it would have to move. -/
def RollingPolicy.Spares (policy : RollingPolicy) (tree : FileTree) (path : String) : Prop :=
  ∀ number, 1 ≤ number → number < policy.maxArchives →
    ∀ location ∈ tree.workingDirectory :: tree.way path, ¬ tree.place (Archive.slotPath path number) <+: location

/-- Something keeps archives from being made: a name that is too long, or a directory in the place of the staging file or of
the last archive. -/
def RollingPolicy.IsObstructed (policy : RollingPolicy) (tree : FileTree) (path : String) : Prop :=
  0 < policy.maxArchives ∧ ∃ beside ∈ [Archive.stagingPath path, Archive.slotPath path policy.maxArchives],
    ¬ IsShort beside ∨ tree.isDirectory beside = true

theorem RollingPolicy.Spares.congr {policy : RollingPolicy} {before after : FileTree} {path : String}
    (spares : policy.Spares before path) (home : after.workingDirectory = before.workingDirectory) : policy.Spares after path := by
  intro number positive bound
  have way : after.way path = before.way path := by simp only [FileTree.way, origin_congr home]
  rw [place_congr home, home, way]
  exact spares number positive bound

namespace Site

variable {site : Site} {tree : FileTree}

theorem IsIn.spares (stands : site.IsIn tree) (proper : site.IsProper) {policy : RollingPolicy}
    (spares : policy.Spares tree site.path) : site.Spares policy.maxArchives tree := by
  have outside : ∀ number, 1 ≤ number → number < policy.maxArchives →
      ∀ location ∈ tree.workingDirectory :: tree.way site.path, ¬ site.slot number <+: location := by
    intro number positive bound
    rw [← stands.place_slot proper]
    exact spares number positive bound
  exact ⟨fun number positive bound => outside number positive bound _ (List.mem_cons_self ..),
    fun number positive bound location member => outside number positive bound location (List.mem_cons_of_mem _ member)⟩

theorem IsIn.isObstructed (stands : site.IsIn tree) (proper : site.IsProper) {policy : RollingPolicy}
    (obstacle : ¬ Rotation.IsFree site policy.maxArchives tree) : policy.IsObstructed tree site.path := by
  have seen : ∀ {sibling}, Path.IsName sibling → (site.Fits sibling → tree.node? (site.directory ++ [String.ofList sibling]) =
      some .directory) → ¬ IsShort (String.ofList (Path.lead site.parentPath ++ sibling)) ∨
        tree.isDirectory (String.ofList (Path.lead site.parentPath ++ sibling)) = true := by
    intro sibling named there
    by_cases fits : site.Fits sibling
    · right
      rw [isDirectory, (stands.namesSibling named fits).find, there fits]
    · exact .inl fun short => fits (fits_of_isShort named short)
  have positive : 0 < policy.maxArchives := by
    by_contra none
    exact obstacle ⟨fun some => absurd some none, fun some => absurd some none, fun some => absurd some none⟩
  refine ⟨positive, ?_⟩
  rw [proper.staging, proper.slots]
  by_contra clear
  simp only [List.mem_cons, List.not_mem_nil, or_false, exists_eq_or_imp, exists_eq_left, not_or] at clear
  obtain ⟨staging, last⟩ := clear
  have stagingFits : ¬ (site.Fits (Archive.stagingName site.name) → tree.node? site.staging = some .directory) := fun there =>
    (seen (Archive.isName_stagingName proper.named) there).elim staging.1 staging.2
  have lastFits : ¬ (site.Fits (Archive.slotName site.name policy.maxArchives) →
      tree.node? (site.slot policy.maxArchives) = some .directory) := fun there =>
    (seen (Archive.isName_slotName proper.named _) there).elim last.1 last.2
  simp only [Classical.not_imp] at stagingFits lastFits
  exact obstacle ⟨fun _ => ⟨stagingFits.1, lastFits.1⟩, fun _ => stagingFits.2, fun _ => lastFits.2⟩

end Site

theorem FileTree.names_of_find {tree : FileTree} {path : String} {location : Location} {id : FileId} {content : Bytes}
    (sound : tree.IsSound) (found : tree.find path = .ok (location, .file id content)) :
    ∃ parent name, tree.Names path parent name ∧ location = parent ++ [name] := by
  obtain ⟨route, ready, ⟨-, -, directory⟩ | ⟨name, parent, last, way, next, stands, ending⟩⟩ := find_eq_ok.mp found
  · simp at directory
  obtain rfl := (route_ok ready).2.2.2
  have above := follow_directory (origin_directory sound path.toList) way
  have ordinary : name ≠ "." := by
    rintro rfl
    obtain rfl : parent = location := by simpa [step] using next
    simp [above] at stands
  have down : name ≠ ".." := by
    rintro rfl
    obtain rfl : parent.dropLast = location := by simpa [step] using next
    have upper := sound.directory_dropLast above
    simp [upper] at stands
  obtain ⟨here, short⟩ := step_ordinary_ok ordinary down next
  refine ⟨parent, name, ⟨?_, short⟩, here⟩
  have loose : ¬ path.toList.getLast? = some '/' := fun slash => by simpa using ending (by simpa using slash)
  dsimp only at last way
  rw [slot, ready]
  simp only [bind, Except.bind, last, way, ordinary, down, or_self, if_false, pure, Except.pure, loose, decide_false]

namespace Rotation

variable {site : Site} {tree twin archived archivedTwin after : FileTree} {content : Bytes} {archives : Nat}

theorem isFree_sameBut (same : SameBut site.staging tree twin) : IsFree site archives twin ↔ IsFree site archives tree := by
  have moved : ∀ {one two : FileTree}, (∀ {location}, one.node? location = some .directory ↔ two.node? location = some .directory) →
      IsFree site archives one → IsFree site archives two := fun alike free =>
    ⟨free.room, fun some there => free.staging some (alike.mpr there), fun some there => free.last some (alike.mpr there)⟩
  exact ⟨moved same.directory_iff, moved same.directory_iff.symm⟩

theorem Stalled.sameBut (stalled : Stalled site content tree after) (same : SameBut site.staging tree twin) :
    SameBut site.staging after twin := by
  refine ⟨stalled.sound, same.soundTwin, same.home.trans stalled.home.symm, ?_, ?_⟩
  · intro location other
    rcases stalled.nodes with nodes | ⟨-, id, nodes⟩
    · rw [nodes, same.others location other]
    · rw [nodes, Function.update_of_ne other, same.others location other]
  · rcases stalled.nodes with nodes | ⟨clear, id, nodes⟩
    · rw [nodes]
      exact same.spot
    · rw [nodes, Function.update_self]
      exact .inr ⟨⟨_, _, rfl⟩, fun there => clear (same.directory_iff.mp there)⟩

theorem Archived.sight?_twin (result : Archived site archives content tree archived)
    (resultTwin : Archived site archives content twin archivedTwin) (same : SameBut site.staging tree twin) {location : Location}
    (other : location ≠ site.staging) : archivedTwin.sight? location = archived.sight? location := by
  by_cases outside : ∀ number, 1 ≤ number → number ≤ archives → ¬ site.slot number <+: location
  · refine sight?_congr ?_
    rw [resultTwin.others location (fun _ => other) outside, result.others location (fun _ => other) outside,
      same.others location other]
  · simp only [not_forall, not_not] at outside
    obtain ⟨number, positive, bound, rest, rfl⟩ := outside
    obtain ⟨lower, rfl⟩ := Nat.exists_eq_add_of_le' positive
    by_cases first : lower = 0
    · subst first
      by_cases direct : rest = []
      · simp only [direct, List.append_nil, Nat.zero_add, result.first (by omega), resultTwin.first (by omega)]
      · have nothing : ∀ {before after : FileTree}, Archived site archives content before after →
            after.sight? (site.slot 1 ++ rest) = none := by
          intro before after result
          obtain ⟨id, file⟩ := sight?_file (result.first (by omega))
          rw [sight?_none]
          exact result.stands.sound.none_below (by simp [file]) direct
        rw [Nat.zero_add, nothing result, nothing resultTwin]
    · refine sight?_congr ?_
      rw [result.slots lower (by omega) (by omega), resultTwin.slots lower (by omega) (by omega),
        same.others _ (site.slot_append_ne_staging lower rest)]

end Rotation

namespace RotatingSink

variable {site : Site} {sink : RotatingSink} {tree twin : FileTree} {id : FileId} {content : Bytes} {event : Event}

/-- The path of a sink leads to a file, and the sink has this file open. -/
def OwnsFile (sink : RotatingSink) (tree : FileTree) : Prop :=
  ∃ location id content, tree.find sink.path = .ok (location, .file id content) ∧ sink.handle = some ⟨id⟩

instance : Decidable (sink.OwnsFile tree) :=
  decidable_of_iff ((match tree.find sink.path with
    | .ok (_, .file id _) => decide (sink.handle = some ⟨id⟩)
    | _ => false) = true) (by
      unfold OwnsFile
      split
      next location id content found => simp [found]
      next other =>
        refine iff_of_false (by simp) ?_
        rintro ⟨location, id, content, found, -⟩
        exact other location id content found)

theorem write_of_obstacle (proper : site.IsProper) (stands : site.IsIn tree) (path : sink.path = site.path)
    (base : tree.node? site.base = some (.file id content)) (running : sink.stopped = false)
    (full : sink.mustRotate (sink.encode event).length = true) (obstacle : ¬ Rotation.IsFree site sink.policy.maxArchives tree) :
    ∃ fault after, write event (sink, tree) = .error fault (sink, after) ∧ Rotation.Stalled site content tree after := by
  obtain ⟨fault, after, failed, stalled⟩ := Rotation.archive_of_obstacle proper stands base obstacle
  rw [← path] at failed
  have rotated : rotate (sink, tree) = .error fault (sink, after) := by
    unfold rotate
    rw [bind_get]
    exact bind_of_error (onFiles_of_error failed sink)
  refine ⟨fault, after, ?_, stalled⟩
  rw [write_eq]
  simp only [running, full, Bool.false_eq_true, if_false, if_true]
  exact bind_of_error rotated

theorem write_of_free (proper : site.IsProper) (stands : site.IsIn tree) (path : sink.path = site.path)
    (spares : site.Spares sink.policy.maxArchives tree) (base : tree.node? site.base = some (.file id content))
    (running : sink.stopped = false) (full : sink.mustRotate (sink.encode event).length = true)
    (free : Rotation.IsFree site sink.policy.maxArchives tree) :
    ∃ number archived after, write event (sink, tree) =
        .ok () ({ sink with handle := some ⟨number⟩, size := 0 + (sink.encode event).length }, after) ∧
      Rotation.Archived site sink.policy.maxArchives content tree archived ∧
      after.node? = Function.update archived.node? site.base (some (.file number (sink.encode event))) := by
  obtain ⟨archived, done, result⟩ := Rotation.archive_ok proper stands spares free base
  obtain ⟨number, renewed, rotated, became, inRenewed⟩ := rotate_of_archive proper path done result.stands
    (by simp [result.base base])
  have new : renewed.node? site.base = some (.file number []) := by rw [became.nodes, Function.update_self]
  obtain ⟨after, written, -, -, nodes⟩ := append_base inRenewed new (sink.encode event)
  rw [List.nil_append, became.nodes, Function.update_idem] at nodes
  exact ⟨number, archived, after, write_of_rotate event running full rotated written, result, nodes⟩

theorem sited_of_find {location : Location} (sound : tree.IsSound) (found : tree.find sink.path = .ok (location, .file id content)) :
    ∃ site : Site, site.path = sink.path ∧ site.IsProper ∧ site.IsIn tree ∧ tree.node? site.base = some (.file id content) := by
  obtain ⟨parent, name, names, rfl⟩ := names_of_find sound found
  obtain ⟨site, path, directory, fileName, proper, stands⟩ := Site.exists_of_names sound names
  refine ⟨site, path, proper, stands, ?_⟩
  rw [Site.base, directory, fileName, String.ofList_toList]
  exact node?_of_find found

theorem stalled_of_write_error {fault : SinkFault} {after : RotatingSink × FileTree} (proper : site.IsProper)
    (stands : site.IsIn tree) (path : sink.path = site.path) (spares : site.Spares sink.policy.maxArchives tree)
    (base : tree.node? site.base = some (.file id content)) (opened : sink.handle = some ⟨id⟩)
    (failed : write event (sink, tree) = .error fault after) :
    after.1 = sink ∧ Rotation.Stalled site content tree after.2 ∧
      (sink.stopped = true ∨ ¬ Rotation.IsFree site sink.policy.maxArchives tree) := by
  cases running : sink.stopped with
  | true =>
      rw [write_eq] at failed
      simp only [running, if_true] at failed
      cases failed
      exact ⟨rfl, .refl stands.sound, .inl rfl⟩
  | false =>
      by_cases full : sink.mustRotate (sink.encode event).length = true
      · by_cases free : Rotation.IsFree site sink.policy.maxArchives tree
        · obtain ⟨_, _, _, done, -⟩ := write_of_free proper stands path spares base running full free
          rw [done] at failed
          simp at failed
        · obtain ⟨_, later, refused, stalled⟩ := write_of_obstacle proper stands path base running full free
          rw [refused] at failed
          cases failed
          exact ⟨rfl, stalled, .inr free⟩
      · obtain ⟨later, appended, -⟩ := append_base stands base (sink.encode event)
        rw [write_of_fits event running (by simpa using full) opened appended] at failed
        simp at failed

/-- Two states in which a sink has written the event look the same, but for the staging file, and the sink knows the same size.
If the file was archived there is no staging file. Otherwise what stands in its place stays. -/
structure WrittenAlike (spot : Location) (archived : Prop) (before : FileTree) (after afterTwin : RotatingSink × FileTree) :
    Prop where
  size : after.1.size = afterTwin.1.size
  sights : ∀ location, location ≠ spot → after.2.sight? location = afterTwin.2.sight? location
  staging : archived → after.2.node? spot = none
  untouched : ¬ archived → after.2.node? spot = before.node? spot

theorem write_twin_of_free (proper : site.IsProper) (stands : site.IsIn tree) (path : sink.path = site.path)
    (spares : site.Spares sink.policy.maxArchives tree) (base : tree.node? site.base = some (.file id content))
    (running : sink.stopped = false) (full : sink.mustRotate (sink.encode event).length = true)
    (free : Rotation.IsFree site sink.policy.maxArchives tree) (same : SameBut site.staging tree twin) :
    ∃ after afterTwin, write event (sink, tree) = .ok () after ∧ write event (sink, twin) = .ok () afterTwin ∧
      WrittenAlike site.staging (sink.mustRotate (sink.encode event).length = true ∧ 0 < sink.policy.maxArchives) tree after
        afterTwin := by
  have baseTwin : twin.node? site.base = some (.file id content) := by rw [same.others _ site.staging_ne_base.symm, base]
  obtain ⟨number, archived, after, done, result, nodes⟩ := write_of_free proper stands path spares base running full free
  obtain ⟨other, archivedTwin, afterTwin, doneTwin, resultTwin, nodesTwin⟩ := write_of_free proper
    (stands.mono same.keeps same.soundTwin) path (spares.congr same.home) baseTwin running full ((Rotation.isFree_sameBut same).mpr free)
  refine ⟨_, _, done, doneTwin, ?_⟩
  constructor
  case size => rfl
  case sights =>
    intro location apart
    simp only [sight?, nodes, nodesTwin]
    by_cases here : location = site.base
    · rw [here, Function.update_self, Function.update_self]
      rfl
    · rw [Function.update_of_ne here, Function.update_of_ne here]
      exact (result.sight?_twin resultTwin same apart).symm
  case staging =>
    rintro ⟨-, some⟩
    simp only [nodes]
    rw [Function.update_of_ne site.staging_ne_base, result.staging some]
  case untouched =>
    intro plain
    have none : ¬ 0 < sink.policy.maxArchives := fun some => plain ⟨full, some⟩
    simp only [nodes]
    rw [Function.update_of_ne site.staging_ne_base]
    exact result.others _ (fun some => absurd some none) fun number _ _ => site.slot_not_prefix_staging number

theorem write_twin_of_fits (stands : site.IsIn tree) (base : tree.node? site.base = some (.file id content))
    (opened : sink.handle = some ⟨id⟩) (running : sink.stopped = false)
    (fits : sink.mustRotate (sink.encode event).length = false) (same : SameBut site.staging tree twin) :
    ∃ after afterTwin, write event (sink, tree) = .ok () after ∧ write event (sink, twin) = .ok () afterTwin ∧
      WrittenAlike site.staging (sink.mustRotate (sink.encode event).length = true ∧ 0 < sink.policy.maxArchives) tree after
        afterTwin := by
  have baseTwin : twin.node? site.base = some (.file id content) := by rw [same.others _ site.staging_ne_base.symm, base]
  obtain ⟨after, appended, -, -, nodes⟩ := append_base stands base (sink.encode event)
  obtain ⟨afterTwin, appendedTwin, -, -, nodesTwin⟩ :=
    append_base (stands.mono same.keeps same.soundTwin) baseTwin (sink.encode event)
  refine ⟨_, _, write_of_fits event running fits opened appended, write_of_fits event running fits opened appendedTwin, ?_⟩
  constructor
  case size => rfl
  case sights =>
    intro location apart
    simp only [sight?, nodes, nodesTwin]
    by_cases here : location = site.base
    · rw [here, Function.update_self, Function.update_self]
    · rw [Function.update_of_ne here, Function.update_of_ne here, same.others location apart]
  case staging => exact fun archived => absurd archived.1 (by simp [fits])
  case untouched =>
    intro _
    simp only [nodes]
    rw [Function.update_of_ne site.staging_ne_base]

theorem write_twin (proper : site.IsProper) (stands : site.IsIn tree) (path : sink.path = site.path)
    (spares : site.Spares sink.policy.maxArchives tree) (base : tree.node? site.base = some (.file id content))
    (opened : sink.handle = some ⟨id⟩) (same : SameBut site.staging tree twin) (event : Event) :
    (sink.stopped = true ∨ ¬ Rotation.IsFree site sink.policy.maxArchives tree) ∧
        (∃ fault after, write event (sink, tree) = .error fault after) ∧
        (∃ fault after, write event (sink, twin) = .error fault after) ∨
      ∃ after afterTwin, write event (sink, tree) = .ok () after ∧ write event (sink, twin) = .ok () afterTwin ∧
        WrittenAlike site.staging (sink.mustRotate (sink.encode event).length = true ∧ 0 < sink.policy.maxArchives) tree after
          afterTwin := by
  cases running : sink.stopped with
  | true =>
      have refused : ∀ tree, write event (sink, tree) = .error (.stopped sink.name) (sink, tree) := by
        intro tree
        rw [write_eq]
        simp only [running, if_true]
      exact .inl ⟨.inl rfl, ⟨_, _, refused tree⟩, ⟨_, _, refused twin⟩⟩
  | false =>
      by_cases full : sink.mustRotate (sink.encode event).length = true
      · by_cases free : Rotation.IsFree site sink.policy.maxArchives tree
        · exact .inr (write_twin_of_free proper stands path spares base running full free same)
        · have inTwin := stands.mono same.keeps same.soundTwin
          have baseTwin : twin.node? site.base = some (.file id content) := by
            rw [same.others _ site.staging_ne_base.symm, base]
          obtain ⟨fault, after, failed, -⟩ := write_of_obstacle proper stands path base running full free
          obtain ⟨other, afterTwin, failedTwin, -⟩ := write_of_obstacle proper inTwin path baseTwin running full
            (mt (Rotation.isFree_sameBut same).mp free)
          exact .inl ⟨.inr free, ⟨_, _, failed⟩, ⟨_, _, failedTwin⟩⟩
      · exact .inr (write_twin_of_fits stands base opened running (by simpa using full) same)

/-- What has become of a sink and its files in the course of failed writes, and what would have become of them without these.
Meanwhile others take things away, and put directories where nothing is. -/
inductive Struggles (start : RotatingSink × FileTree) : RotatingSink × FileTree → RotatingSink × FileTree → Prop where
  | start : Struggles start start start
  | fails {state twin after : RotatingSink × FileTree} {event : Event} {fault : SinkFault} (earlier : Struggles start state twin)
      (owns : state.1.OwnsFile state.2) (failed : write event state = .error fault after) : Struggles start after twin
  | remove {state twin : RotatingSink × FileTree} (earlier : Struggles start state twin) (path : String) :
      Struggles start (state.1, stateAfter (Files.removeTree path) state.2) (twin.1, stateAfter (Files.removeTree path) twin.2)
  | makeDirectory {state twin : RotatingSink × FileTree} {path : String} {after : FileTree} (earlier : Struggles start state twin)
      (made : Files.makeDirectory path state.2 = .ok () after) :
      Struggles start (state.1, after) (twin.1, stateAfter (Files.makeDirectory path) twin.2)

structure Unharmed (start state twin : RotatingSink × FileTree) : Prop where
  sink : state.1 = start.1
  sinkTwin : twin.1 = start.1
  home : state.2.workingDirectory = start.2.workingDirectory
  files : SameBut (start.2.place (Archive.stagingPath start.1.path)) state.2 twin.2

theorem Struggles.unharmed {start state twin : RotatingSink × FileTree} (sound : start.2.IsSound)
    (spares : start.1.policy.Spares start.2 start.1.path) (struggles : Struggles start state twin) : Unharmed start state twin := by
  -- Only the staging file differs after each failure, and what is taken away or made is so in both trees.
  induction struggles with
  | start => exact ⟨rfl, rfl, rfl, .refl sound⟩
  | @fails state twin after event fault _ owns failed ih =>
      obtain ⟨sink, tree⟩ := state
      obtain ⟨rfl, sinkTwin, home, files⟩ := ih
      obtain ⟨location, id, content, found, opened⟩ := owns
      obtain ⟨site, path, proper, stands, base⟩ := sited_of_find files.sound found
      have spares := stands.spares proper (by rw [path]; exact spares.congr home)
      obtain ⟨same, stalled, -⟩ := stalled_of_write_error proper stands path.symm spares base opened failed
      have staging : start.2.place (Archive.stagingPath start.1.path) = site.staging := by
        rw [← place_congr home, ← path, stands.place_staging proper]
      refine ⟨same, sinkTwin, stalled.home.trans home, ?_⟩
      rw [staging] at files ⊢
      exact stalled.sameBut files
  | remove _ path ih =>
      obtain ⟨sink, sinkTwin, home, files⟩ := ih
      exact ⟨sink, sinkTwin, (Files.removeTree_endures path _).home.trans home, Files.removeTree_sameBut files path⟩
  | @makeDirectory state twin path after _ made ih =>
      obtain ⟨sink, sinkTwin, home, files⟩ := ih
      have endures := Files.makeDirectory_endures path state.2
      rw [stateAfter_of_ok made] at endures
      exact ⟨sink, sinkTwin, endures.home.trans home, Files.makeDirectory_sameBut files made⟩

end RotatingSink

/-- Whatever stands at the archives and at the staging file, and however long their names are: as long as the path of a sink
leads to the file that it has open, and the way there is in no archive that may be moved, a write that fails leaves the sink
and the files as they were, except that the staging file may hold what the file holds, compressed.

However many writes fail like this, while others take obstacles away or put some up, the next write fails only if there is an
obstacle still, and has the effect that it would have had without the failed ones. Where it archives the file it leaves no staging
file, and otherwise it leaves what stands there alone. -/
theorem failed_writes_change_nothing {sink : RotatingSink} {tree : FileTree} (sound : tree.IsSound)
    (spares : sink.policy.Spares tree sink.path) :
    (∀ location id content event fault after, tree.find sink.path = .ok (location, .file id content) → sink.handle = some ⟨id⟩ →
      RotatingSink.write event (sink, tree) = .error fault after →
        after.1 = sink ∧
        (∀ place, place ≠ tree.place (Archive.stagingPath sink.path) → after.2.node? place = tree.node? place) ∧
        (after.2.sight? (tree.place (Archive.stagingPath sink.path)) = tree.sight? (tree.place (Archive.stagingPath sink.path)) ∨
          after.2.sight? (tree.place (Archive.stagingPath sink.path)) = some (.file (Gzip.encode content)))) ∧
    ∀ state twin, RotatingSink.Struggles (sink, tree) state twin → state.1.OwnsFile state.2 → ∀ event,
      (state.1.stopped = true ∨ sink.policy.IsObstructed state.2 sink.path) ∧
          (∃ fault after, RotatingSink.write event state = .error fault after) ∧
          (∃ fault after, RotatingSink.write event twin = .error fault after) ∨
        ∃ after afterTwin, RotatingSink.write event state = .ok () after ∧ RotatingSink.write event twin = .ok () afterTwin ∧
          RotatingSink.WrittenAlike (tree.place (Archive.stagingPath sink.path))
            (sink.mustRotate (sink.encode event).length = true ∧ 0 < sink.policy.maxArchives) state.2 after afterTwin := by
  refine ⟨?_, ?_⟩
  · intro location id content event fault after found opened failed
    obtain ⟨site, path, proper, stands, base⟩ := RotatingSink.sited_of_find sound found
    have spares := stands.spares proper (by rw [path]; exact spares)
    obtain ⟨same, stalled, -⟩ := RotatingSink.stalled_of_write_error proper stands path.symm spares base opened failed
    have staging : tree.place (Archive.stagingPath sink.path) = site.staging := by rw [← path, stands.place_staging proper]
    rw [staging]
    refine ⟨same, fun place other => ?_, ?_⟩
    · rcases stalled.nodes with nodes | ⟨-, number, nodes⟩
      · rw [nodes]
      · rw [nodes, Function.update_of_ne other]
    · rcases stalled.nodes with nodes | ⟨-, number, nodes⟩
      · exact .inl (by rw [sight?, nodes]; rfl)
      · exact .inr (by rw [sight?, nodes, Function.update_self]; rfl)
  · intro state twin struggles owns event
    obtain ⟨same, sameTwin, home, files⟩ := struggles.unharmed sound spares
    obtain ⟨last, after⟩ := state
    obtain ⟨lastTwin, afterTwin⟩ := twin
    obtain rfl : sink = last := same.symm
    obtain rfl : sink = lastTwin := sameTwin.symm
    obtain ⟨location, id, content, found, opened⟩ := owns
    obtain ⟨site, path, proper, stands, base⟩ := RotatingSink.sited_of_find files.sound found
    have spares := stands.spares proper (by rw [path]; exact spares.congr home)
    have staging : tree.place (Archive.stagingPath sink.path) = site.staging := by
      rw [← place_congr home, ← path, stands.place_staging proper]
    rw [staging] at files ⊢
    refine (RotatingSink.write_twin proper stands path.symm spares base opened files event).imp_left ?_
    rintro ⟨stopped | obstacle, failed⟩
    · exact ⟨.inl stopped, failed⟩
    · refine ⟨.inr ?_, failed⟩
      rw [← path]
      exact stands.isObstructed proper obstacle

theorem failed_writes_change_nothing_once :
    let files : FileTree := (empty ["home"]).attach (["home"] ++ ["app.1.log.gz"]) .directory
    ∃ (start : FileTree) (sink : RotatingSink), files.IsSound ∧
      RotatingSink.openAt "app" "app.log" ⟨5, 1⟩ Encoding.line.encode files = .ok sink start ∧
      let state := stateAfter (RotatingSink.write (.new 1 .info "one")) (sink, start)
      let failed := stateAfter (RotatingSink.write (.new 2 .info "two")) state
      state.2.IsSound ∧ state.1.policy.Spares state.2 state.1.path ∧
      (∃ fault, RotatingSink.write (.new 2 .info "two") state = .error fault failed) ∧
        ∃ after afterTwin,
          RotatingSink.write (.new 3 .info "three") (failed.1, stateAfter (Files.removeTree "app.1.log.gz") failed.2) =
            .ok () after ∧
          RotatingSink.write (.new 3 .info "three") (state.1, stateAfter (Files.removeTree "app.1.log.gz") state.2) =
            .ok () afterTwin ∧
          after.1.size = afterTwin.1.size ∧ after.2.node? ["home", "app.1.log.gz.tmp"] = none := by
  intro files
  have sound : files.IsSound := ((isSound_empty ["home"]).attach_directory rfl rfl).sound
  refine ⟨_, _, sound, rfl, ?_⟩
  have sane := (RotatingSink.isSane_of_openAt sound (by decide +kernel)
    (show RotatingSink.openAt "app" "app.log" ⟨5, 1⟩ Encoding.line.encode files = .ok _ _ from rfl)).1.write (.new 1 .info "one")
  intro state failed
  have spares : state.1.policy.Spares state.2 state.1.path := fun number positive bound =>
    absurd bound (Nat.not_lt.mpr positive)
  have owns : state.1.OwnsFile state.2 := by decide +kernel
  obtain ⟨fault, fails⟩ : ∃ fault, RotatingSink.write (.new 2 .info "two") state = .error fault failed :=
    error_of_fails (RotatingSink.write (.new 2 .info "two")) state (by decide +kernel)
  refine ⟨sane.sound, spares, ⟨fault, fails⟩, ?_⟩
  have ownsStill : failed.1.OwnsFile (stateAfter (Files.removeTree "app.1.log.gz") failed.2) := by decide +kernel
  have clear : ¬ (failed.1.stopped = true ∨
      state.1.policy.IsObstructed (stateAfter (Files.removeTree "app.1.log.gz") failed.2) state.1.path) := by
    simp only [RollingPolicy.IsObstructed, IsShort]
    decide +kernel
  have full : state.1.mustRotate (state.1.encode (.new 3 .info "three")).length = true ∧ 0 < state.1.policy.maxArchives := by
    decide +kernel
  have staging : state.2.place (Archive.stagingPath state.1.path) = ["home", "app.1.log.gz.tmp"] := by decide +kernel
  have sound : state.2.IsSound := sane.sound
  -- From here on only what was evaluated is needed; the states themselves would be evaluated again.
  clear_value failed state
  have struggles : RotatingSink.Struggles (state.1, state.2)
      (failed.1, stateAfter (Files.removeTree "app.1.log.gz") failed.2)
      (state.1, stateAfter (Files.removeTree "app.1.log.gz") state.2) := .remove (.fails .start owns fails) "app.1.log.gz"
  obtain ⟨after, afterTwin, done, doneTwin, alike⟩ := ((@failed_writes_change_nothing state.1 state.2 sound spares).2 _ _
    struggles ownsStill (.new 3 .info "three")).resolve_left fun stuck => clear stuck.1
  exact ⟨after, afterTwin, done, doneTwin, alike.size, staging ▸ alike.staging full⟩

/-- A sink whose file is reached by way of its first archive moves this archive and does not find its file any more. -/
theorem rotation_cuts_its_way :
    let files : FileTree := (empty ["home"]).attach (["home"] ++ ["app.1.log.gz"]) .directory
    ∃ (start : FileTree) (sink : RotatingSink), files.IsSound ∧
      RotatingSink.openAt "app" "app.1.log.gz/../app.log" ⟨5, 2⟩ Encoding.line.encode files = .ok sink start ∧
      let state := stateAfter (RotatingSink.write (.new 1 .info "one")) (sink, start)
      let failed := stateAfter (RotatingSink.write (.new 2 .info "two")) state
      state.1.OwnsFile state.2 ∧ (∃ fault, RotatingSink.write (.new 2 .info "two") state = .error fault failed) ∧
        state.2.node? ["home", "app.1.log.gz"] = some .directory ∧ failed.2.node? ["home", "app.1.log.gz"] = none ∧
        failed.2.node? ["home", "app.2.log.gz"] = some .directory := by
  intro files
  refine ⟨_, _, ((isSound_empty ["home"]).attach_directory rfl rfl).sound, rfl,
    ?_, error_of_fails _ _ ?_, ?_, ?_, ?_⟩ <;> decide +kernel

end KeyedLog
