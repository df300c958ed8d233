import KeyedLog.Proofs.Sink.Edits
import KeyedLog.Proofs.Sink.Site
import Mathlib.Data.List.Nodup
import Mathlib.Data.List.Perm.Subperm

/-!
How many archives are kept. A rotation moves an archive to a slot up to the limit only, so as long as none stood above the
limit when the sink was opened, none ever does.
-/

namespace KeyedLog

open FileTree

namespace FileTree

def HoldsFileAt (tree : FileTree) (location : Location) : Prop :=
  ∃ id content, (location, .file id content) ∈ tree.nodes

variable {own shifts : Location → Prop} {before after : FileTree} {location : Location} {path : String}

theorem Edit.holdsFileAt_iff (outside : ¬ own location) (apart : ∀ place, shifts place → ¬ place <+: location)
    (edit : Edit own shifts before after) : after.HoldsFileAt location ↔ before.HoldsFileAt location := by
  refine exists_congr fun id => ?_
  cases edit with
  | directory place => simp [attach]
  | file inside =>
      have elsewhere : location ≠ _ := fun same => outside (same ▸ inside)
      simp [attach, elsewhere]
  | detach inside =>
      have elsewhere : location ≠ _ := fun same => outside (same ▸ inside)
      simp [FileTree.detach, elsewhere]
  | rewrite number change =>
      constructor
      · rintro ⟨content, stands⟩
        obtain ⟨⟨place, node⟩, member, changed⟩ := List.mem_map.mp stands
        cases node with
        | directory => simp at changed
        | file other kept =>
            refine ⟨kept, ?_⟩
            dsimp only at changed
            split at changed
            next same =>
              cases changed
              exact same ▸ member
            next =>
              cases changed
              exact member
      · rintro ⟨content, stands⟩
        refine ⟨if id = number then change content else content, List.mem_map.mpr ⟨_, stands, ?_⟩⟩
        by_cases same : id = number <;> simp [same]
  | move start goal =>
      refine exists_congr fun content => ?_
      constructor
      · intro stands
        obtain ⟨⟨place, node⟩, member, changed⟩ := List.mem_map.mp stands
        dsimp only at changed
        split at changed
        next => exact absurd ((Prod.mk.inj changed).1 ▸ List.prefix_append ..) (apart _ goal)
        next => exact changed ▸ member
      · intro stands
        have stays := apart _ start
        rw [← List.isPrefixOf_iff_prefix] at stays
        exact List.mem_map.mpr ⟨_, stands, if_neg stays⟩

theorem Edits.holdsFileAt_iff (outside : ¬ own location) (apart : ∀ place, shifts place → ¬ place <+: location)
    (edits : Edits own shifts before after) : after.HoldsFileAt location ↔ before.HoldsFileAt location := by
  induction edits with
  | refl => rfl
  | tail _ edit ih => exact (edit.holdsFileAt_iff outside apart).trans ih

theorem holdsFileAt_of_node? {tree : FileTree} {id : FileId} {content : Bytes}
    (stands : tree.node? location = some (.file id content)) : tree.HoldsFileAt location := by
  have below := ne_root_of_ne_directory stands (by simp)
  rw [node?_of_ne_root tree below, List.lookup_eq_some_iff] at stands
  obtain ⟨front, back, shape, -⟩ := stands
  exact ⟨id, content, by rw [shape]; exact List.mem_append_right _ (List.mem_cons_self ..)⟩

theorem place_of_find {tree : FileTree} {id : FileId} {content : Bytes}
    (found : tree.find path = .ok (location, .file id content)) : tree.place path = location := by
  obtain ⟨route, ready, ⟨-, -, directory⟩ | ⟨name, parent, last, way, next, -, -⟩⟩ := find_eq_ok.mp found
  · simp at directory
  · obtain rfl := (route_ok ready).2.2.2
    obtain ⟨initial, steps⟩ := List.getLast?_eq_some_iff.mp last
    dsimp only at steps way
    rw [steps, List.dropLast_concat] at way
    rw [place, steps, List.foldl_append, ← follow_place way, step_descend next]
    rfl

theorem holdsFileAt_of_seen {tree : FileTree} {content : Bytes} (seen : tree.seen? path = some (.file content)) :
    tree.HoldsFileAt (tree.place path) := by
  unfold seen? at seen
  cases found : tree.find path with
  | error fault => simp [found] at seen
  | ok result =>
      obtain ⟨location, node⟩ := result
      cases node with
      | directory => simp [found, FileNode.sight] at seen
      | file id other =>
          rw [place_of_find found]
          exact holdsFileAt_of_node? (node?_of_find found)

end FileTree

namespace Site

variable {site : Site} {tree : FileTree}

theorem not_prefix_slot {archives number : Nat} (above : archives < number) {own : Location} (owns : site.Owns archives own) :
    ¬ own <+: site.slot number := by
  intro below
  have whole : ∀ name, own = site.directory ++ [name] → own = site.slot number := by
    rintro name rfl
    exact below.eq_of_length (by simp [slot])
  rcases owns with base | ⟨-, staging⟩ | ⟨other, -, bound, slot⟩
  · exact site.slot_ne_base number ((whole _ base).symm.trans base)
  · exact site.staging_ne_slot number (staging.symm.trans (whole _ staging))
  · have same := site.slot_injective (slot.symm.trans (whole _ slot))
    omega

theorem IsIn.allows (stands : site.IsIn tree) (proper : site.IsProper) (policy : RollingPolicy) :
    policy.Allows (site.Owns policy.maxArchives) (site.Owns policy.maxArchives) tree site.path := by
  refine ⟨.inl stands.names.place, ?_⟩
  intro archive member
  have owns : site.Owns policy.maxArchives (tree.place archive) := by
    unfold RollingPolicy.archivePaths at member
    split at member
    · simp at member
    next some =>
      rcases List.mem_cons.mp member with rfl | slot
      · exact .inr (.inl ⟨Nat.pos_of_ne_zero some, stands.place_staging proper⟩)
      · obtain ⟨count, inside, rfl⟩ := List.mem_map.mp slot
        exact .inr (.inr ⟨count + 1, Nat.succ_pos count, List.mem_range.mp inside, stands.place_slot proper _⟩)
  exact ⟨owns, owns⟩

end Site

namespace RotatingSink

def writeEach (events : List Event) (state : RotatingSink × FileTree) : RotatingSink × FileTree :=
  events.foldl (fun state event => stateAfter (write event) state) state

theorem writeEach_edits {own shifts : Location → Prop} (events : List Event) (state : RotatingSink × FileTree) :
    Edits own shifts state (writeEach events state) := by
  induction events generalizing state with
  | nil => exact update_edits id state rfl
  | cons event rest ih => exact (write_edits event state).trans (ih _)

theorem edits_of_openAt {name path : String} {policy : RollingPolicy} {encode : Event → Bytes} {files start : FileTree}
    {sink : RotatingSink} (sound : files.IsSound) (opened : openAt name path policy encode files = .ok sink start) :
    ∃ site : Site, site.path = path ∧ site.IsProper ∧ site.IsIn start ∧ start.workingDirectory = files.workingDirectory ∧
      ∀ events, FileTree.Edits (site.Owns policy.maxArchives) (site.Owns policy.maxArchives) files
        (writeEach events (sink, start)).2 := by
  obtain ⟨handle, size, touched, rfl⟩ := openAt_eq_ok.mp opened
  obtain ⟨soundStart, directory, fileName, content, names, -, -, opens⟩ := Files.touch_ok sound touched
  obtain ⟨site, rfl, -, -, proper, stands⟩ := Site.exists_of_names soundStart names
  have allows := stands.allows proper policy
  have opening : FileTree.Edits (site.Owns policy.maxArchives) (site.Owns policy.maxArchives) files
      (stateAfter (Files.touch site.path) files) :=
    Files.touch_edits site.path files (place_congr opens.home site.path ▸ allows.file)
  rw [stateAfter_of_ok touched] at opening
  exact ⟨site, rfl, proper, stands, opens.home, fun events => opening.trans ((writeEach_edits events (_, start)).2 allows)⟩

end RotatingSink

theorem length_le_of_bounded {numbers : List Nat} {limit : Nat} (distinct : numbers.Nodup)
    (bounded : ∀ number ∈ numbers, 0 < number ∧ number ≤ limit) : numbers.length ≤ limit := by
  have inside : numbers ⊆ List.range' 1 limit := by
    intro number member
    have := bounded number member
    exact List.mem_range'_1.mpr (by omega)
  simpa using (List.subperm_of_subset distinct inside).length_le

/-- Whatever stands in the directory when a sink is opened, and whatever is written to it, the archives above the limit are
those that stood there already. So if there were none, there are never more archives than the limit. -/
theorem retention_is_bounded {name path : String} {policy : RollingPolicy} {encode : Event → Bytes} {files start : FileTree}
    {sink : RotatingSink} (sound : files.IsSound)
    (opened : RotatingSink.openAt name path policy encode files = .ok sink start) (events : List Event) :
    let final := (RotatingSink.writeEach events (sink, start)).2
    (∀ number, policy.maxArchives < number →
      (final.HoldsFileAt (final.place (Archive.slotPath path number)) ↔
        files.HoldsFileAt (files.place (Archive.slotPath path number)))) ∧
    ((∀ number, policy.maxArchives < number → ¬ files.HoldsFileAt (files.place (Archive.slotPath path number))) →
      (∀ number content, policy.maxArchives < number →
        final.seen? (Archive.slotPath path number) ≠ some (.file content)) ∧
      ∀ numbers : List Nat, numbers.Nodup →
        (∀ number ∈ numbers, 0 < number ∧ ∃ content, final.seen? (Archive.slotPath path number) = some (.file content)) →
          numbers.length ≤ policy.maxArchives) := by
  intro final
  obtain ⟨site, rfl, proper, stands, home, edits⟩ := RotatingSink.edits_of_openAt sound opened
  have edits : FileTree.Edits (site.Owns policy.maxArchives) (site.Owns policy.maxArchives) files final := edits events
  have place : ∀ number, files.place (Archive.slotPath site.path number) = site.slot number := fun number =>
    (place_congr home _).symm.trans (stands.place_slot proper number)
  -- An archive above the bound is neither written nor moved, by any of the edits.
  have same : ∀ number, policy.maxArchives < number →
      (final.HoldsFileAt (final.place (Archive.slotPath site.path number)) ↔
        files.HoldsFileAt (files.place (Archive.slotPath site.path number))) := by
    intro number above
    rw [place_congr edits.home, place]
    exact Edits.holdsFileAt_iff (fun owns => Site.not_prefix_slot above owns (List.prefix_refl _)) (fun own owns =>
      Site.not_prefix_slot above owns) edits
  refine ⟨same, fun none_above => ?_⟩
  have unseen : ∀ number content, policy.maxArchives < number →
      final.seen? (Archive.slotPath site.path number) ≠ some (.file content) := fun number content above seen =>
    none_above number above ((same number above).mp (holdsFileAt_of_seen seen))
  refine ⟨unseen, fun numbers distinct held => length_le_of_bounded distinct fun number member => ?_⟩
  obtain ⟨positive, content, seen⟩ := held number member
  exact ⟨positive, Nat.le_of_not_lt fun above => unseen number content above seen⟩

theorem retention_is_bounded_twice :
    ∃ (start : FileTree) (sink : RotatingSink), (empty ["home"]).IsSound ∧
      RotatingSink.openAt "app" "app.log" ⟨5, 1⟩ Encoding.line.encode (empty ["home"]) = .ok sink start ∧
      let events := [.new 1 .info "one", .new 2 .info "two", .new 3 .info "three"]
      let final := (RotatingSink.writeEach events (sink, start)).2
      final.seen? "app.log" = some (.file (Utf8.encode "3 INFO  three\n")) ∧
      (final.seen? "app.1.log.gz").isSome ∧
      ∀ number content, 1 < number → final.seen? (Archive.slotPath "app.log" number) ≠ some (.file content) := by
  refine ⟨_, _, isSound_empty ["home"], rfl, by decide +kernel, by decide +kernel, ?_⟩
  have kept := retention_is_bounded (isSound_empty ["home"]) (show RotatingSink.openAt "app" "app.log" ⟨5, 1⟩
    Encoding.line.encode (empty ["home"]) = .ok _ _ from rfl)
      [.new 1 .info "one", .new 2 .info "two", .new 3 .info "three"]
  refine (kept.2 ?_).1
  rintro number - ⟨id, content, listed⟩
  simp [empty] at listed

/-- An archive that was left above the limit stays there, and there are more archives than the limit. -/
theorem archives_exceed_limit :
    let files : FileTree :=
      { nodes := [(["home"], .directory), (["home", "app.2.log.gz"], .file 0 [])], nextId := 1, workingDirectory := ["home"] }
    ∃ (start : FileTree) (sink : RotatingSink), files.IsSound ∧
      RotatingSink.openAt "app" "app.log" ⟨5, 1⟩ Encoding.line.encode files = .ok sink start ∧
      let final := (RotatingSink.writeEach [.new 1 .info "one", .new 2 .info "two"] (sink, start)).2
      final.seen? "app.log" = some (.file (Utf8.encode "2 INFO  two\n")) ∧
      final.seen? "app.1.log.gz" = some (.file (Gzip.encode (Utf8.encode "1 INFO  one\n"))) ∧
      final.seen? "app.2.log.gz" = some (.file []) := by
  intro files
  have free : (empty ["home"]).node? (["home"] ++ ["app.2.log.gz"]) = none := rfl
  have sound : files.IsSound := ((isSound_empty ["home"]).attach_file rfl free).sound
  refine ⟨_, _, sound, rfl, by decide +kernel, by decide +kernel, by decide +kernel⟩

end KeyedLog
