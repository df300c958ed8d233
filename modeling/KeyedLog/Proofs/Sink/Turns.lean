import KeyedLog.Proofs.Sink.Outcomes
import KeyedLog.Proofs.Sink.Shelves
import KeyedLog.Proofs.Sink.Stages

/-!
What becomes of accepted events while a file rotates, even if a rotation breaks off anywhere. Each step of a rotation leaves
every event where it was or moves it to the next slot, and only what was in the last slot is given up.
-/

namespace KeyedLog

/-- What is kept at these paths is not lost. The file at the first path may have been appended to, and those at the other
paths are as they were. -/
structure FileTree.Retains (base : String) (archives : List String) (before after : FileTree) : Prop where
  home : after.workingDirectory = before.workingDirectory
  numbered : before.IsNumbered → after.IsNumbered
  file : ∀ id content, before.node? (before.place base) = some (.file id content) →
    ∃ more, after.node? (before.place base) = some (.file id (content ++ more))
  archives : ∀ archive ∈ archives, ∀ id content, before.node? (before.place archive) = some (.file id content) →
    after.node? (before.place archive) = some (.file id content)

theorem FileTree.retains_of_guards {guarded : Location → Prop} {before after : FileTree} {base : String}
    {archives : List String} (guards : Guards guarded before after) (inside : guarded (before.place base))
    (others : ∀ archive ∈ archives, guarded (before.place archive)) : before.Retains base archives after :=
  ⟨guards.home, guards.numbered, fun id content stands =>
      ⟨[], by rw [List.append_nil]; exact guards.files _ _ _ inside stands⟩,
    fun archive member _ _ stands => guards.files _ _ _ (others archive member) stands⟩

def RollingPolicy.slotPaths (policy : RollingPolicy) (base : String) : List String :=
  (List.range policy.maxArchives).map fun slot => Archive.slotPath base (slot + 1)

namespace Site

def spot (site : Site) : Nat → Location
  | 0 => site.base
  | number + 1 => site.slot (number + 1)

def pack : Nat → Bytes → Bytes
  | 0, content => content
  | _ + 1, content => Gzip.encode content

variable {site : Site} {origin tree : FileTree} {sibling : List Char}

theorem staging_not_prefix_spot (site : Site) (number : Nat) : ¬site.staging <+: site.spot number := by
  cases number with
  | zero =>
      rw [spot, ← List.append_nil site.base, staging, base, prefix_sibling]
      exact fun same => Archive.stagingName_ne _ (String.ofList_inj.mp same)
  | succ number =>
      rw [spot, ← List.append_nil (site.slot _), staging, slot, prefix_sibling]
      exact fun same => Archive.stagingName_ne_slotName _ _ (String.ofList_inj.mp same)

theorem slot_not_prefix_spot (site : Site) {number other : Nat} (different : other ≠ number) :
    ¬site.slot number <+: site.spot other := by
  cases other with
  | zero => exact site.slot_not_prefix_base number
  | succ other => exact site.slot_not_prefix_slot different.symm

theorem spot_ne_slot (site : Site) {number other : Nat} (different : other ≠ number) :
    site.spot other ≠ site.slot number :=
  fun same => site.slot_not_prefix_spot different (same ▸ List.prefix_rfl)

theorem spot_ne_staging (site : Site) (number : Nat) : site.spot number ≠ site.staging :=
  fun same => site.staging_not_prefix_spot number (same ▸ List.prefix_rfl)

theorem IsIn.fits_of_reaches (stands : site.IsIn origin) (home : tree.workingDirectory = origin.workingDirectory)
    (named : Path.IsName sibling) (reaches : Files.Reaches tree (String.ofList (Path.lead site.parentPath ++ sibling))) :
    site.Fits sibling ∧ tree.Leads site.parentPath site.directory := by
  obtain ⟨parent, name, asDirectory, found, next⟩ := reaches
  obtain ⟨-, -, short, -, ordinary, down, before, steps, way⟩ := FileTree.slot_ok found
  rw [String.toList_ofList] at short steps way
  rw [Path.steps_lead site.parentPath named.nonempty named.whole] at steps
  obtain ⟨rfl, last⟩ := List.append_inj' steps rfl
  have same : String.ofList sibling = name := by
    rw [List.singleton_inj.mp last, String.ofList_toList]
  have start : tree.origin (Path.lead site.parentPath ++ sibling) = origin.origin site.parentPath := by
    simp only [FileTree.origin, Path.head?_lead site.parentPath named.nonempty named.whole, home]
  have ready : tree.origin site.parentPath = origin.origin site.parentPath := by simp only [FileTree.origin, home]
  rw [start] at way
  have arrived : parent = site.directory :=
    (FileTree.follow_place way).trans (FileTree.follow_place stands.leads.way).symm
  refine ⟨⟨short, ?_⟩, stands.leads.clean, stands.leads.short, ?_⟩
  · have fits := (FileTree.step_ordinary_ok ordinary down next).2
    rwa [← same, Utf8.encode, String.toList_ofList] at fits
  · rw [ready, way, arrived]

theorem IsIn.place_spot (stands : site.IsIn origin) (proper : site.IsProper)
    (home : tree.workingDirectory = origin.workingDirectory) (number : Nat) :
    tree.place site.path = site.base ∧ tree.place (Archive.slotPath site.path number) = site.slot number ∧
      tree.place (Archive.stagingPath site.path) = site.staging := by
  rw [FileTree.place_congr home, FileTree.place_congr home, FileTree.place_congr home]
  exact ⟨stands.names.place, stands.place_slot proper number, stands.place_staging proper⟩

/-- The entries of each shelf are in its file, and the sink has no other file open than the lowest of them. The sink is
`model` apart from that. -/
structure Bears (site : Site) (model : RotatingSink) (home : Location) (shelves : Shelves)
    (state : RotatingSink × FileTree) : Prop where
  sink : state.1 = { model with handle := state.1.handle, size := state.1.size }
  home : state.2.workingDirectory = home
  numbered : state.2.IsNumbered
  handle : ∀ handle, state.1.handle = some handle →
    ∃ content, state.2.node? site.base = some (.file handle.id content)
  fits : ∀ number ≤ model.policy.maxArchives, 0 < number → shelves number ≠ [] →
    site.Fits (Archive.slotName site.name number)
  shelved : ∀ number ≤ model.policy.maxArchives, shelves number ≠ [] →
    ∃ id content, state.2.node? (site.spot number) = some (.file id (pack number content)) ∧
      Laid ((shelves number).map fun entry => model.encode entry.2) content

namespace Bears

variable {model sink : RotatingSink} {home : Location} {shelves fewer : Shelves} {before after : FileTree}
  {guarded : Location → Prop} {number : Nat}

theorem guards (bears : site.Bears model home shelves (sink, before)) (guards : FileTree.Guards guarded before after)
    (kept : ∀ number ≤ model.policy.maxArchives, fewer number ≠ [] →
      guarded (site.spot number) ∧ fewer number = shelves number)
    (base : sink.handle = none ∨ guarded site.base) : site.Bears model home fewer (sink, after) := by
  refine ⟨bears.sink, guards.home.trans bears.home, guards.numbered bears.numbered, fun handle opened => ?_,
    fun number bound positive some => ?_, fun number bound some => ?_⟩
  · rcases base with none | inside
    · cases none.symm.trans opened
    · obtain ⟨content, stands⟩ := bears.handle handle opened
      exact ⟨content, guards.files _ _ _ inside stands⟩
  · exact bears.fits number bound positive ((kept number bound some).2 ▸ some)
  · obtain ⟨inside, same⟩ := kept number bound some
    rw [same] at some ⊢
    obtain ⟨id, content, stands, laid⟩ := bears.shelved number bound some
    exact ⟨id, content, guards.files _ _ _ inside stands, laid⟩

theorem retains (stands : site.IsIn origin) (proper : site.IsProper)
    (bears : site.Bears model origin.workingDirectory shelves (sink, before))
    (retains : before.Retains site.path (model.policy.slotPaths site.path) after) :
    site.Bears model origin.workingDirectory shelves (sink, after) := by
  have places := stands.place_spot proper bears.home
  have file : ∀ id content, before.node? site.base = some (.file id content) →
      ∃ more, after.node? site.base = some (.file id (content ++ more)) := (places 0).1 ▸ retains.file
  refine ⟨bears.sink, retains.home.trans bears.home, retains.numbered bears.numbered, fun handle opened => ?_, bears.fits,
    fun number bound some => ?_⟩
  · obtain ⟨content, there⟩ := bears.handle handle opened
    obtain ⟨more, kept⟩ := file _ _ there
    exact ⟨_, kept⟩
  · obtain ⟨id, content, there, laid⟩ := bears.shelved number bound some
    cases number with
    | zero =>
        obtain ⟨more, kept⟩ := file _ _ there
        exact ⟨id, content ++ more, kept, laid.append more⟩
    | succ number =>
        have member : Archive.slotPath site.path (number + 1) ∈ model.policy.slotPaths site.path :=
          List.mem_map.mpr ⟨number, List.mem_range.mpr bound, rfl⟩
        have kept := retains.archives _ member id (Gzip.encode content)
        rw [(places (number + 1)).2.1] at kept
        exact ⟨id, content, kept there, laid⟩

theorem withHandle (bears : site.Bears model home shelves (sink, tree)) {handle : Option FileHandle} (size : Nat)
    (holds : ∀ opened, handle = some opened → ∃ content, tree.node? site.base = some (.file opened.id content)) :
    site.Bears model home shelves ({ sink with handle, size }, tree) := by
  refine ⟨?_, bears.home, bears.numbered, holds, bears.fits, bears.shelved⟩
  have same := bears.sink
  dsimp only at same ⊢
  rw [same]

theorem raise (bears : site.Bears model home shelves (sink, tree)) {source : Location} (below : source ≠ [])
    (apart : ∀ other, other ≠ number → ¬source <+: site.spot other) (base : ¬source <+: site.base)
    (fits : site.Fits (Archive.slotName site.name (number + 1)))
    (holds : shelves number ≠ [] → ∃ id content, tree.node? source = some (.file id (Gzip.encode content)) ∧
      Laid ((shelves number).map fun entry => model.encode entry.2) content) :
    site.Bears model home (shelves.raise number)
      (sink, (tree.detach (site.slot (number + 1))).move source (site.slot (number + 1))) := by
  -- The shelf that was moved is empty, the one above it holds its entries, and the others are as before.
  have goal : site.slot (number + 1) ≠ [] := by simp [slot]
  refine ⟨bears.sink, bears.home, FileTree.isNumbered_moved bears.numbered _ _, fun handle opened => ?_,
    fun count bound positive some => ?_, fun count bound some => ?_⟩
  · obtain ⟨content, there⟩ := bears.handle handle opened
    exact ⟨content, (FileTree.node?_moved_other goal (site.slot_not_prefix_base _) base).trans there⟩
  · by_cases above : count = number + 1
    · exact above ▸ fits
    · by_cases here : count = number
      · rw [here, Shelves.raise_self] at some
        exact absurd rfl some
      · rw [Shelves.raise_of_ne here above] at some
        exact bears.fits count bound positive some
  · by_cases above : count = number + 1
    · subst above
      rw [Shelves.raise_above] at some ⊢
      obtain ⟨id, content, there, laid⟩ := holds some
      exact ⟨id, content, (FileTree.node?_moved_goal below goal (apart (number + 1) (by omega))).trans there, laid⟩
    · by_cases here : count = number
      · rw [here, Shelves.raise_self] at some
        exact absurd rfl some
      · rw [Shelves.raise_of_ne here above] at some ⊢
        obtain ⟨id, content, there, laid⟩ := bears.shelved count bound some
        exact ⟨id, content,
          (FileTree.node?_moved_other goal (site.slot_not_prefix_spot above) (apart count here)).trans there, laid⟩

theorem add (bears : site.Bears model home shelves (sink, tree)) {handle : FileHandle} (opened : sink.handle = some handle)
    (turn size : Nat) (event : Event) :
    site.Bears model home (shelves.add (turn, event))
      ({ sink with size }, tree.append handle.id (model.encode event)) := by
  obtain ⟨content, there⟩ := bears.handle handle opened
  have guards := FileTree.guards_modifyContent bears.numbered there (· ++ model.encode event)
  have grown : (tree.append handle.id (model.encode event)).node? site.base =
      some (.file handle.id (content ++ model.encode event)) := FileTree.node?_rewritten there _
  refine ⟨?_, guards.home.trans bears.home, guards.numbered bears.numbered, fun other same => ?_,
    fun number bound positive some => ?_, fun number bound some => ?_⟩
  · have same := bears.sink
    dsimp only at same ⊢
    rw [same]
  · obtain rfl := Option.some.inj (opened.symm.trans same)
    exact ⟨_, grown⟩
  · rw [Shelves.add_of_ne _ (Nat.pos_iff_ne_zero.mp positive)] at some
    exact bears.fits number bound positive some
  · cases number with
    | zero =>
        refine ⟨handle.id, content ++ model.encode event, grown, ?_⟩
        rw [Shelves.add_zero, List.map_append, List.map_singleton]
        refine Laid.concat ?_ _
        by_cases none : shelves 0 = []
        · rw [none]
          trivial
        · obtain ⟨id, before, stands, laid⟩ := bears.shelved 0 bound none
          obtain ⟨rfl, rfl⟩ := FileNode.file.inj (Option.some.inj (there.symm.trans stands))
          exact laid
    | succ number =>
        rw [Shelves.add_of_ne _ (Nat.succ_ne_zero number)] at some ⊢
        obtain ⟨id, before, stands, laid⟩ := bears.shelved (number + 1) bound some
        exact ⟨id, before, guards.files _ _ _ (site.slot_ne_base _) stands, laid⟩

end Bears

end Site

end KeyedLog
