import KeyedLog.Proofs.Dispatcher.Company

/-!
The places that a recipient has to do with: those of its keys and of its open files, and those that its paths pass. As
long as two recipients are apart there, each of them is one of a company.
-/

namespace KeyedLog

open FileTree

namespace FileTree

def turned : Location → List String → List Location
  | _, [] => []
  | location, name :: rest =>
    (if ".." ∈ rest then [descend location name] else []) ++ turned (descend location name) rest

def placesOf (tree : FileTree) (id : FileId) : List Location :=
  (tree.nodes.filter fun entry => entry.2.id? = some id).map (·.1)

theorem turned_subset (start : Location) (names : List String) : turned start names ⊆ passed start names := by
  induction names generalizing start with
  | nil => simp [turned]
  | cons name rest ih =>
      intro location member
      rcases List.mem_append.mp member with here | later
      · split at here
        · exact List.mem_singleton.mp here ▸ List.mem_cons_self ..
        · simp at here
      · exact List.mem_cons_of_mem _ (ih _ later)

theorem placesOf_of_bears {tree : FileTree} {id : FileId} {location : Location} (bears : tree.Bears id location) :
    location ∈ tree.placesOf id := by
  obtain ⟨content, stands⟩ := bears
  refine List.mem_map.mpr ⟨(location, .file id content), List.mem_filter.mpr ⟨mem_of_node? stands, ?_⟩, rfl⟩
  simp [FileNode.id?]

end FileTree

/-- The places that somebody has to do with, listed. -/
structure Territory where
  roots : List Location
  ways : List Location
  /-- His paths turn back behind these. -/
  turns : List Location
  passed : turns ⊆ ways

namespace Territory

def Owns (territory : Territory) (location : Location) : Prop :=
  ∃ root ∈ territory.roots, root <+: location

def scope (territory : Territory) : Scope where
  own := territory.Owns
  ways location := location ∈ territory.ways
  turns location := location ∈ territory.turns
  below := fun ⟨root, member, above⟩ _ => ⟨root, member, above.trans (List.prefix_append ..)⟩

def ofPaths (tree : FileTree) (paths : List String) (places : List Location) : Territory where
  roots := paths.map tree.place ++ places
  ways := paths.flatMap fun path => FileTree.passed (tree.origin path.toList) (pathNames path)
  turns := paths.flatMap fun path => FileTree.turned (tree.origin path.toList) (pathNames path)
  passed location member := by
    obtain ⟨path, its, here⟩ := List.mem_flatMap.mp member
    exact List.mem_flatMap.mpr ⟨path, its, turned_subset _ _ here⟩

/-- Nothing of his is at or above what the other owns or passes, and where a path of his turns back there is something
already if the other passes there. -/
structure IsApart (tree : FileTree) (mine theirs : Territory) : Prop where
  roots : ∀ root ∈ mine.roots, ∀ other ∈ theirs.roots, ¬ root <+: other
  ways : ∀ root ∈ mine.roots, ∀ way ∈ theirs.ways, ¬ root <+: way
  turns : ∀ turn ∈ mine.turns, turn ∈ theirs.ways → tree.node? turn ≠ none

instance (tree : FileTree) (mine theirs : Territory) : Decidable (IsApart tree mine theirs) :=
  decidable_of_iff
    ((∀ root ∈ mine.roots, ∀ other ∈ theirs.roots, ¬ root <+: other) ∧
      (∀ root ∈ mine.roots, ∀ way ∈ theirs.ways, ¬ root <+: way) ∧
      ∀ turn ∈ mine.turns, turn ∈ theirs.ways → tree.node? turn ≠ none)
    ⟨fun ⟨roots, ways, turns⟩ => ⟨roots, ways, turns⟩, fun ⟨roots, ways, turns⟩ => ⟨roots, ways, turns⟩⟩

abbrev AreApart (tree : FileTree) (one two : Territory) : Prop :=
  IsApart tree one two ∧ IsApart tree two one

variable {tree : FileTree} {mine theirs : Territory}

theorem AreApart.isApart (areApart : AreApart tree mine theirs) : mine.scope.IsApart tree theirs.scope := by
  obtain ⟨here, there⟩ := areApart
  refine ⟨?_, ?_, ?_⟩
  · rintro location (⟨root, member, above⟩ | way) ⟨other, memberToo, aboveToo⟩
    · rcases List.prefix_or_prefix_of_prefix above aboveToo with first | second
      · exact here.roots root member other memberToo first
      · exact there.roots other memberToo root member second
    · exact there.ways other memberToo location way aboveToo
  · rintro location ⟨root, member, above⟩ way
    exact here.ways root member location way above
  · exact fun location turn => ⟨.inr (mine.passed turn), here.turns location turn⟩

theorem AreApart.scopes (areApart : AreApart tree mine theirs) : mine.scope.AreApart tree theirs.scope :=
  ⟨areApart.isApart, AreApart.isApart ⟨areApart.2, areApart.1⟩⟩

theorem passes_of_subset {territory : Territory} {start : Location} {names : List String}
    (ways : FileTree.passed start names ⊆ territory.ways) (turns : FileTree.turned start names ⊆ territory.turns) :
    territory.scope.Passes start names := by
  induction names generalizing start with
  | nil => trivial
  | cons name rest ih =>
      refine ⟨.inr (ways (List.mem_cons_self ..)), fun back => .inr (turns ?_), ih ?_ ?_⟩
      · exact List.mem_append_left _ (by simp [back])
      · exact fun location member => ways (List.mem_cons_of_mem _ member)
      · exact fun location member => turns (List.mem_append_right _ member)

theorem claims_of_mem {paths : List String} {places : List Location} {path : String} (member : path ∈ paths) :
    (ofPaths tree paths places).scope.Claims tree path := by
  refine ⟨passes_of_subset ?_ ?_, tree.place path, List.mem_append_left _ (List.mem_map_of_mem member), List.prefix_refl _⟩
  · exact fun location here => List.mem_flatMap.mpr ⟨path, member, here⟩
  · exact fun location here => List.mem_flatMap.mpr ⟨path, member, here⟩

end Territory

def Sink.paths : Sink → List String
  | rotating sink => sink.path :: sink.policy.archivePaths sink.path
  | _ => []

structure Sink.IsFit (tree : FileTree) (sink : Sink) : Prop where
  given : ∀ file, sink.openFile? = some file → file < tree.nextId
  rotates : ∀ rotating, sink = .rotating rotating → IsFilePath rotating.path

namespace World

def pathsOf (world : World) (id : SinkId) : List String :=
  world.sinks[id]?.elim [] Sink.paths

def openPlaces (world : World) (id : SinkId) : List Location :=
  (world.openFile? id).elim [] world.files.placesOf

variable {scope : Scope} {world : World} {id : SinkId} {sink : Sink}

theorem matches_self (sound : world.files.IsSound) (separate : world.IsSeparate) (stands : world.sinks[id]? = some sink)
    (fit : sink.IsFit world.files) (claims : ∀ path ∈ sink.paths, scope.Claims world.files path)
    (home : ∀ archive ∈ sink.archivePaths, ¬ world.files.place archive <+: world.files.workingDirectory)
    (opened : ∀ file, sink.openFile? = some file → ∀ location, world.files.Bears file location → scope.own location) :
    Matches scope world world id id := by
  have twins : Twins scope world.files world.files :=
    ⟨sound, sound, rfl, fun _ _ => rfl, fun _ _ => rfl, fun _ _ => .inl rfl⟩
  have same : ∀ handle : Option FileHandle, sink.openFile? = handle.map (·.id) →
      SameHandle scope world.files world.files handle handle := by
    rintro (_ | handle) holds
    · exact .none
    · have given := fit.given handle.id holds
      have own := opened handle.id holds
      exact .some ⟨given, given, fun location bears => ⟨own location bears, bears⟩, fun location bears => ⟨own location bears, bears⟩⟩
  refine ⟨sink, sink, stands, stands, ?_⟩
  cases sink with
  | console sink => exact .console sink
  | file sink => exact .file (same sink.handle rfl)
  | rotating sink => exact .rotating ⟨⟨twins, fit.rotates sink rfl, claims, home⟩, rfl, same sink.handle rfl⟩
  | remote sink =>
      have bound := separate.bound (remote?_eq.mpr stands)
      exact .remote rfl rfl (List.getElem?_eq_getElem bound) (List.getElem?_eq_getElem bound) rfl rfl
  | recording sink => exact .recording sink

end World

end KeyedLog
