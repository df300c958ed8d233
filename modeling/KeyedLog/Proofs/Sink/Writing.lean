import KeyedLog.Proofs.Sink.Rotation
import KeyedLog.Proofs.Sink.Segments
import KeyedLog.Proofs.Sink.Stages

/-!
One write of a sink whose file rotates: the file and its archives go from the segments of what was written before to
the segments with one more entry.
-/

namespace KeyedLog

open FileTree

namespace Site

/-- The file holds this, and the archive slots that are in use hold that. -/
structure Holds (site : Site) (archives : Nat) (tree : FileTree) (current : Bytes) (slots : Nat → Option Bytes) :
    Prop where
  stands : site.IsIn tree
  base : tree.sight? site.base = some (.file current)
  slots : ∀ number, 1 ≤ number → number ≤ archives → site.Fits (Archive.slotName site.name number) →
    tree.sight? (site.slot number) = (slots number).map .file
  staging : site.Fits (Archive.stagingName site.name) → tree.node? site.staging = none

structure Serves (site : Site) (sink : RotatingSink) (tree : FileTree) (current : Bytes) : Prop where
  path : sink.path = site.path
  running : sink.stopped = false
  size : sink.size = current.length
  handle : ∃ id, sink.handle = some ⟨id⟩ ∧ tree.node? site.base = some (.file id current)

/-- Nothing has changed but what has to do with the file. -/
structure Leaves (site : Site) (archives : Nat) (before after : FileTree) : Prop where
  home : after.workingDirectory = before.workingDirectory
  others : ∀ location, ¬ site.Owns archives location → after.node? location = before.node? location

theorem Leaves.refl (site : Site) (archives : Nat) (tree : FileTree) : site.Leaves archives tree tree :=
  ⟨rfl, fun _ _ => rfl⟩

theorem Leaves.trans {site : Site} {archives : Nat} {first second third : FileTree}
    (one : site.Leaves archives first second) (two : site.Leaves archives second third) :
    site.Leaves archives first third :=
  ⟨two.home.trans one.home, fun location outside => (two.others location outside).trans (one.others location outside)⟩

theorem Holds.filed {site : Site} {archives : Nat} {tree : FileTree} {current : Bytes} {slots : Nat → Option Bytes}
    (holds : site.Holds archives tree current slots) (room : site.HasRoom archives) :
    Rotation.HasFiles site archives tree := by
  intro number positive bound
  have fits := (room (by omega)).2.mono (Archive.length_slotName_mono site.name bound)
  rw [ne_eq, ← sight?_directory, holds.slots number positive bound fits]
  cases slots number <;> simp

end Site

namespace RotatingSink

variable {site : Site} {sink : RotatingSink} {tree : FileTree} {id : FileId} {content : Bytes}

structure Rotated (site : Site) (archives : Nat) (content : Bytes) (before after : FileTree) : Prop where
  home : after.workingDirectory = before.workingDirectory
  stands : site.IsIn after
  first : 0 < archives → after.sight? (site.slot 1) = some (.file (Gzip.encode content))
  slots : ∀ number, 1 ≤ number → number < archives →
    after.node? (site.slot (number + 1)) = before.node? (site.slot number)
  staging : before.node? site.staging = none → after.node? site.staging = none
  others : ∀ location, ¬ site.Owns archives location → after.node? location = before.node? location

theorem rotate_of_archive {archived : FileTree} (proper : site.IsProper) (path : sink.path = site.path)
    (done : Rotation.archive site.path sink.policy.maxArchives tree = .ok () archived) (stands : site.IsIn archived)
    (free : archived.node? site.base ≠ some .directory) :
    ∃ number after, rotate (sink, tree) = .ok () ({ sink with handle := some ⟨number⟩, size := 0 }, after) ∧
      archived.Becomes after (Function.update archived.node? site.base (some (.file number []))) ∧ site.IsIn after := by
  obtain ⟨removed, removal, gone⟩ := Files.removeIfExists_ok stands.sound stands.names free
  have inRemoved := stands.mono (gone.keeps free) gone.sound
  have missing : removed.node? site.base = none := by
    rw [gone.nodes]
    exact Function.update_self ..
  have opened := Files.openForWriting_new inRemoved.names missing
  have made := gone.sound.attach_file (inRemoved.names.directory gone.sound) missing
  have touched := (Files.touch_of_leads gone.sound proper.parent inRemoved.leads).trans (Files.at_of_ok opened site.path)
  obtain ⟨after, shape⟩ : ∃ after, after = { removed.attach (site.directory ++ [String.ofList site.name])
      (.file removed.nextId []) with nextId := removed.nextId + 1 } := ⟨_, rfl⟩
  rw [← shape] at touched made
  refine ⟨removed.nextId, after, ?_, gone.again made, inRemoved.mono (made.keeps (by
    rw [show site.directory ++ [String.ofList site.name] = site.base from rfl, missing]
    simp)) made.sound⟩
  unfold rotate
  rw [bind_get]
  simp only [path]
  rw [bind_of_ok (onFiles_of_ok done sink)]
  refine (bind_of_ok rfl).trans ?_
  rw [bind_of_ok (onFiles_of_ok (Files.at_of_ok removal site.path) _)]
  rw [bind_of_ok (onFiles_of_ok touched _), ← path]
  rfl

theorem rotate_ok (proper : site.IsProper) (stands : site.IsIn tree) (path : sink.path = site.path)
    (room : site.HasRoom sink.policy.maxArchives) (filed : Rotation.HasFiles site sink.policy.maxArchives tree)
    (base : tree.node? site.base = some (.file id content))
    (clear : 0 < sink.policy.maxArchives → tree.node? site.staging ≠ some .directory) :
    ∃ number after, rotate (sink, tree) = .ok () ({ sink with handle := some ⟨number⟩, size := 0 }, after) ∧
      Rotated site sink.policy.maxArchives content tree after ∧ after.node? site.base = some (.file number []) := by
  obtain ⟨archived, done, result⟩ := Rotation.archive_ok proper stands (filed.spares stands)
    ⟨room, clear, fun some => filed _ some (Nat.le_refl _)⟩ base
  have baseArchived := result.base base
  obtain ⟨number, after, rotated, became, inAfter⟩ := rotate_of_archive proper path done result.stands
    (by simp [baseArchived])
  have nodes := became.nodes
  refine ⟨number, after, rotated, ⟨became.home.trans result.home, inAfter, ?_, ?_, ?_, ?_⟩, by rw [nodes, Function.update_self]⟩
  · intro positive
    rw [sight?, nodes, Function.update_of_ne (site.slot_ne_base 1)]
    exact result.first positive
  · intro number positive bound
    rw [nodes, Function.update_of_ne (site.slot_ne_base _)]
    simpa using result.slots number positive bound []
  · intro absent
    rw [nodes, Function.update_of_ne site.staging_ne_base]
    by_cases positive : 0 < sink.policy.maxArchives
    · exact result.staging positive
    · rw [result.others _ (fun some => absurd some positive), absent]
      intro number one bound
      omega
  · intro location outside
    rw [nodes, Function.update_of_ne fun same => outside (.inl same), result.others_of_files stands.sound filed]
    · exact fun positive same => outside (.inr (.inl ⟨positive, same⟩))
    · exact fun number positive bound same => outside (.inr (.inr ⟨number, positive, bound, same⟩))

theorem mustRotate_iff {segments : Segments} (serves : site.Serves sink tree segments.current) (length : Nat) :
    sink.mustRotate length = true ↔ segments.endsBefore sink.policy.maxFileSize length := by
  simp only [mustRotate, Segments.endsBefore, serves.size, Bool.and_eq_true, decide_eq_true_eq]

theorem append_base (stands : site.IsIn tree) (base : tree.node? site.base = some (.file id content)) (bytes : Bytes) :
    ∃ after, Files.append ⟨id⟩ bytes tree = .ok () after ∧ site.IsIn after ∧
      after.workingDirectory = tree.workingDirectory ∧
      after.node? = Function.update tree.node? site.base (some (.file id (content ++ bytes))) := by
  obtain ⟨after, done, became⟩ := Files.append_ok stands.sound base bytes
  exact ⟨after, done, stands.mono (became.keeps (by simp [base])) became.sound, became.home, became.nodes⟩

theorem write_of_fits (event : Event) (running : sink.stopped = false)
    (fits : sink.mustRotate (sink.encode event).length = false) (handle : sink.handle = some ⟨id⟩) {after : FileTree}
    (appended : Files.append ⟨id⟩ (sink.encode event) tree = .ok () after) :
    write event (sink, tree) = .ok () ({ sink with size := sink.size + (sink.encode event).length }, after) := by
  have current : currentHandle (sink, tree) = .ok ⟨id⟩ (sink, tree) := by
    rw [currentHandle, bind_get]
    simp [handle]
  obtain ⟨name, path, policy, encode, opened, size, stopped⟩ := sink
  cases running
  unfold write
  rw [bind_get]
  simp only [fits, Bool.false_eq_true, if_false]
  rw [bind_of_ok current, bind_of_ok (onFiles_of_ok (Files.at_of_ok appended path) _)]
  rfl

theorem write_of_rotate (event : Event) (running : sink.stopped = false)
    (full : sink.mustRotate (sink.encode event).length = true) {after appended : FileTree}
    (rotated : rotate (sink, tree) = .ok () ({ sink with handle := some ⟨id⟩, size := 0 }, after))
    (written : Files.append ⟨id⟩ (sink.encode event) after = .ok () appended) :
    write event (sink, tree) =
      .ok () ({ sink with handle := some ⟨id⟩, size := 0 + (sink.encode event).length }, appended) := by
  obtain ⟨name, path, policy, encode, opened, size, stopped⟩ := sink
  cases running
  unfold write
  rw [bind_get]
  simp only [full, Bool.false_eq_true, if_false, if_true]
  rw [bind_of_ok rotated]
  refine (bind_of_ok rfl).trans ?_
  rw [bind_of_ok (onFiles_of_ok (Files.at_of_ok written path) _)]
  rfl

theorem holds_of_fits {segments : Segments} {before : Nat → Option Bytes} {bytes : Bytes} {limit archives : Nat} {after : FileTree}
    (holds : site.Holds archives tree segments.current (segments.slots before)) (same : ¬ segments.endsBefore limit bytes.length)
    (stands : site.IsIn after)
    (nodes : after.node? = Function.update tree.node? site.base (some (.file id (segments.current ++ bytes)))) :
    site.Holds archives after (segments.add limit bytes).current ((segments.add limit bytes).slots before) := by
  constructor
  case stands => exact stands
  case base =>
    rw [sight?, nodes, Function.update_self, Segments.add_of_not_ends same]
    rfl
  case slots =>
    intro number positive bound fits
    rw [Segments.slots_of_not_ends same, ← holds.slots number positive bound fits, sight?, nodes,
      Function.update_of_ne (site.slot_ne_base number)]
    rfl
  case staging =>
    intro fits
    rw [nodes, Function.update_of_ne site.staging_ne_base]
    exact holds.staging fits

theorem holds_of_rotated {segments : Segments} {before : Nat → Option Bytes} {bytes : Bytes} {limit archives : Nat}
    {rotated after : FileTree} (holds : site.Holds archives tree segments.current (segments.slots before))
    (ends : segments.endsBefore limit bytes.length) (result : Rotated site archives segments.current tree rotated)
    (stands : site.IsIn after) (nodes : after.node? = Function.update rotated.node? site.base (some (.file id bytes))) :
    site.Holds archives after (segments.add limit bytes).current ((segments.add limit bytes).slots before) := by
  constructor
  case stands => exact stands
  case base =>
    rw [sight?, nodes, Function.update_self, Segments.add_of_ends ends]
    rfl
  case slots =>
    intro number positive bound fits
    obtain ⟨number, rfl⟩ := Nat.exists_eq_succ_of_ne_zero (Nat.ne_of_gt positive)
    have elsewhere : after.sight? (site.slot (number + 1)) = rotated.sight? (site.slot (number + 1)) := by
      rw [sight?, nodes, Function.update_of_ne (site.slot_ne_base _)]
      rfl
    rw [Segments.slots_of_ends ends before number, elsewhere]
    by_cases first : number = 0
    · subst first
      simpa using result.first (by omega)
    · have lower := fits.mono (Archive.length_slotName_mono site.name (Nat.le_succ number))
      rw [if_neg first, ← holds.slots number (by omega) (by omega) lower, sight?, result.slots number (by omega) (by omega)]
      rfl
  case staging =>
    intro fits
    rw [nodes, Function.update_of_ne site.staging_ne_base]
    exact result.staging (holds.staging fits)

theorem write_ok {segments : Segments} {before : Nat → Option Bytes} (event : Event) (proper : site.IsProper)
    (holds : site.Holds sink.policy.maxArchives tree segments.current (segments.slots before))
    (serves : site.Serves sink tree segments.current)
    (room : segments.endsBefore sink.policy.maxFileSize (sink.encode event).length →
      site.HasRoom sink.policy.maxArchives) :
    ∃ size handle after, write event (sink, tree) = .ok () ({ sink with handle, size }, after) ∧
      site.Holds sink.policy.maxArchives after (segments.add sink.policy.maxFileSize (sink.encode event)).current
        ((segments.add sink.policy.maxFileSize (sink.encode event)).slots before) ∧
      site.Serves { sink with handle, size } after
        (segments.add sink.policy.maxFileSize (sink.encode event)).current ∧
      site.Leaves sink.policy.maxArchives tree after := by
  obtain ⟨id, opened, base⟩ := serves.handle
  have full := mustRotate_iff serves (sink.encode event).length
  by_cases ends : segments.endsBefore sink.policy.maxFileSize (sink.encode event).length
  · obtain ⟨number, rotated, done, result, new⟩ := rotate_ok proper holds.stands serves.path (room ends)
      (holds.filed (room ends)) base (fun positive => by simp [holds.staging (room ends positive).1])
    obtain ⟨after, written, stands, home, nodes⟩ := append_base result.stands new (sink.encode event)
    rw [List.nil_append] at nodes
    refine ⟨_, _, after, write_of_rotate event serves.running (full.mpr ends) done written,
      holds_of_rotated holds ends result stands nodes, ⟨serves.path, serves.running, ?_, number, rfl, ?_⟩,
      home.trans result.home, ?_⟩
    · rw [Segments.add_of_ends ends, Nat.zero_add]
    · rw [nodes, Function.update_self, Segments.add_of_ends ends]
    · intro location outside
      rw [nodes, Function.update_of_ne fun same => outside (.inl same)]
      exact result.others location outside
  · obtain ⟨after, written, stands, home, nodes⟩ := append_base holds.stands base (sink.encode event)
    have fits : sink.mustRotate (sink.encode event).length = false := by
      rw [Bool.eq_false_iff]
      exact fun must => ends (full.mp must)
    refine ⟨_, sink.handle, after, write_of_fits event serves.running fits opened written,
      holds_of_fits holds ends stands nodes, ⟨serves.path, serves.running, ?_, id, opened, ?_⟩, home, ?_⟩
    · rw [Segments.add_of_not_ends ends, List.length_append, ← serves.size]
    · rw [nodes, Function.update_self, Segments.add_of_not_ends ends]
    · intro location outside
      rw [nodes, Function.update_of_ne fun same => outside (.inl same)]

theorem room_of_write {segments : Segments} {before : Nat → Option Bytes} {event : Event} (proper : site.IsProper)
    (holds : site.Holds sink.policy.maxArchives tree segments.current (segments.slots before))
    (serves : site.Serves sink tree segments.current) {after : RotatingSink × FileTree}
    (done : write event (sink, tree) = .ok () after)
    (ends : segments.endsBefore sink.policy.maxFileSize (sink.encode event).length) :
    site.HasRoom sink.policy.maxArchives := by
  by_contra narrow
  obtain ⟨id, opened, base⟩ := serves.handle
  have full := (mustRotate_iff serves (sink.encode event).length).mpr ends
  obtain ⟨fault, failed, archived, -⟩ := Rotation.archive_of_obstacle proper holds.stands base fun free => narrow free.room
  rw [← serves.path] at archived
  have rotated : rotate (sink, tree) = .error fault (sink, failed) := by
    unfold rotate
    rw [bind_get]
    exact bind_of_error (onFiles_of_error archived sink)
  unfold write at done
  rw [bind_get] at done
  simp only [serves.running, full, Bool.false_eq_true, if_false, if_true] at done
  rw [bind_of_error rotated] at done
  simp at done

end RotatingSink

end KeyedLog
