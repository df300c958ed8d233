import KeyedLog.Proofs.Files.Relocation
import KeyedLog.Proofs.Sink.Site

/-!
Two trees that look the same to somebody. What he owns is alike in both, and so is what his paths pass, except that in
the one tree somebody else may have made directories already that are missing in the other. Each change of what he owns,
made in both trees, leaves them alike; and what somebody else changes of his own does not matter.
-/

namespace KeyedLog

/-- The places that somebody has to do with. -/
structure Scope where
  own : Location → Prop
  /-- A path of his passes there. He may make the directory. -/
  ways : Location → Prop
  /-- A path of his passes there and turns back later on. -/
  turns : Location → Prop
  below : ∀ {location : Location}, own location → ∀ rest, own (location ++ rest)

def Scope.Sees (scope : Scope) (location : Location) : Prop :=
  scope.own location ∨ scope.ways location

structure Scope.IsApart (tree : FileTree) (mine theirs : Scope) : Prop where
  apart : ∀ location, mine.Sees location → ¬ theirs.own location
  closed : ∀ location, mine.own location → ¬ theirs.ways location
  turned : ∀ location, mine.turns location → mine.Sees location ∧ (theirs.ways location → tree.node? location ≠ none)

namespace FileTree

def Bears (tree : FileTree) (id : FileId) (location : Location) : Prop :=
  ∃ content, tree.node? location = some (.file id content)

/-- What is his looks the same in both trees. A directory on his way may be there in the first and missing in the second,
unless a path turns back behind it. -/
structure Twins (scope : Scope) (tree twin : FileTree) : Prop where
  sound : tree.IsSound
  soundTwin : twin.IsSound
  home : twin.workingDirectory = tree.workingDirectory
  own : ∀ location, scope.own location → twin.sight? location = tree.sight? location
  turns : ∀ location, scope.turns location → twin.sight? location = tree.sight? location
  ways : ∀ location, scope.ways location → twin.sight? location = tree.sight? location ∨
    tree.node? location = some .directory ∧ twin.node? location = none

structure Meets (scope : Scope) (tree twin : FileTree) (id other : FileId) : Prop where
  given : id < tree.nextId
  givenTwin : other < twin.nextId
  inside : ∀ location, tree.Bears id location → scope.own location ∧ twin.Bears other location
  insideTwin : ∀ location, twin.Bears other location → scope.own location ∧ tree.Bears id location

structure Confined (scope : Scope) (before after : FileTree) : Prop where
  home : after.workingDirectory = before.workingDirectory
  next : before.nextId ≤ after.nextId
  sound : before.IsSound → after.IsSound
  outside : ∀ location, ¬ scope.own location → after.node? location = before.node? location ∨
    scope.ways location ∧ before.node? location = none ∧ after.node? location = some .directory
  known : ∀ id location, after.Bears id location → id < before.nextId → ∃ source, before.Bears id source

structure Steps (scope : Scope) (tree twin after afterTwin : FileTree) : Prop where
  twins : Twins scope after afterTwin
  changes : Confined scope tree after
  changesTwin : Confined scope twin afterTwin
  meets : ∀ id other, Meets scope tree twin id other → Meets scope after afterTwin id other

variable {scope mine theirs : Scope} {tree twin after afterTwin before : FileTree} {location parent : Location}
  {name : String} {id other : FileId}

theorem Confined.refl (tree : FileTree) : Confined scope tree tree :=
  ⟨rfl, Nat.le_refl _, fun sound => sound, fun _ _ => .inl rfl, fun _ location bears _ => ⟨location, bears⟩⟩

theorem Confined.trans {first second third : FileTree} (one : Confined scope first second)
    (two : Confined scope second third) : Confined scope first third := by
  refine ⟨two.home.trans one.home, Nat.le_trans one.next two.next, fun sound => two.sound (one.sound sound), ?_, ?_⟩
  · intro location outside
    rcases one.outside location outside with same | ⟨way, free, made⟩
    · rcases two.outside location outside with still | ⟨way, free, made⟩
      · exact .inl (still.trans same)
      · exact .inr ⟨way, same ▸ free, made⟩
    · rcases two.outside location outside with still | ⟨-, missing, -⟩
      · exact .inr ⟨way, free, still.trans made⟩
      · rw [made] at missing
        simp at missing
  · intro id location bears old
    obtain ⟨middle, there⟩ := two.known id location bears (Nat.lt_of_lt_of_le old one.next)
    exact one.known id middle there old

theorem Steps.refl (twins : Twins scope tree twin) : Steps scope tree twin tree twin :=
  ⟨twins, .refl tree, .refl twin, fun _ _ meets => meets⟩

theorem Steps.trans {middle middleTwin : FileTree} (one : Steps scope tree twin middle middleTwin)
    (two : Steps scope middle middleTwin after afterTwin) : Steps scope tree twin after afterTwin :=
  ⟨two.twins, one.changes.trans two.changes, one.changesTwin.trans two.changesTwin, fun id other meets =>
    two.meets id other (one.meets id other meets)⟩

theorem sight?_none : tree.sight? location = none ↔ tree.node? location = none :=
  Option.map_eq_none_iff

theorem node?_of_sight? (same : twin.sight? location = tree.sight? location) :
    tree.node? location = none ∧ twin.node? location = none ∨
      tree.node? location = some .directory ∧ twin.node? location = some .directory ∨
      ∃ id other content, tree.node? location = some (.file id content) ∧
        twin.node? location = some (.file other content) := by
  cases stands : tree.node? location with
  | none => exact .inl ⟨rfl, sight?_none.mp (same.trans (sight?_none.mpr stands))⟩
  | some node =>
      cases node with
      | directory => exact .inr (.inl ⟨rfl, sight?_directory.mp (same.trans (sight?_directory.mpr stands))⟩)
      | file id content =>
          have seen : tree.sight? location = some (.file content) := by
            rw [sight?, stands]
            rfl
          obtain ⟨other, there⟩ := sight?_file (same.trans seen)
          exact .inr (.inr ⟨id, other, content, rfl, there⟩)

theorem sight?_congr (same : after.node? location = tree.node? location) :
    after.sight? location = tree.sight? location :=
  congrArg (Option.map FileNode.sight) same

theorem Twins.sees (twins : Twins scope tree twin) (sees : scope.Sees location) :
    twin.sight? location = tree.sight? location ∨
      tree.node? location = some .directory ∧ twin.node? location = none := by
  rcases sees with own | way
  · exact .inl (twins.own location own)
  · exact twins.ways location way

theorem Twins.meet (twins : Twins scope tree twin) (own : scope.own location) (atTree : tree.Bears id location)
    (atTwin : twin.Bears other location) : Meets scope tree twin id other := by
  obtain ⟨content, here⟩ := atTree
  obtain ⟨kept, there⟩ := atTwin
  refine ⟨twins.sound.fresh _ _ _ here, twins.soundTwin.fresh _ _ _ there, ?_, ?_⟩
  · rintro place ⟨again, found⟩
    obtain rfl := twins.sound.single id place location again content found here
    exact ⟨own, kept, there⟩
  · rintro place ⟨again, found⟩
    obtain rfl := twins.soundTwin.single other place location again kept found there
    exact ⟨own, content, here⟩

section Frame

/-- What somebody else does to what is his changes nothing here. -/
theorem Twins.frame (twins : Twins mine tree twin) (confined : Confined theirs tree after) (isApart : mine.IsApart tree theirs)
    : Twins mine after twin := by
  obtain ⟨apart, closed, turned⟩ := isApart
  have kept : ∀ location, mine.Sees location → (theirs.ways location → tree.node? location ≠ none) →
      after.sight? location = tree.sight? location := by
    intro location sees there
    rcases confined.outside location (apart location sees) with same | ⟨way, free, -⟩
    · exact sight?_congr same
    · exact absurd free (there way)
  refine ⟨confined.sound twins.sound, twins.soundTwin, twins.home.trans confined.home.symm, ?_, ?_, ?_⟩
  · intro location own
    rw [kept location (.inl own) fun way => absurd way (closed location own)]
    exact twins.own location own
  · intro location turn
    obtain ⟨sees, there⟩ := turned location turn
    rw [kept location sees there]
    exact twins.turns location turn
  · intro location way
    rcases confined.outside location (apart location (.inr way)) with same | ⟨-, free, made⟩
    · rw [sight?_congr same, same]
      exact twins.ways location way
    · refine .inr ⟨made, ?_⟩
      rcases twins.ways location way with same | ⟨there, -⟩
      · exact sight?_none.mp (same.trans (sight?_none.mpr free))
      · rw [free] at there
        simp at there

theorem Meets.frame (meets : Meets mine tree twin id other) (confined : Confined theirs tree after) (sound : after.IsSound)
    (isApart : mine.IsApart tree theirs) : Meets mine after twin id other := by
  obtain ⟨apart, closed, -⟩ := isApart
  have kept : ∀ location, mine.own location → after.node? location = tree.node? location := by
    intro location own
    rcases confined.outside location (apart location (.inl own)) with same | ⟨way, -, -⟩
    · exact same
    · exact absurd way (closed location own)
  refine ⟨Nat.lt_of_lt_of_le meets.given confined.next, meets.givenTwin, ?_, ?_⟩
  · intro location bears
    obtain ⟨source, content, there⟩ := confined.known id location bears meets.given
    have own := (meets.inside source ⟨content, there⟩).1
    obtain ⟨now, here⟩ := bears
    obtain rfl := sound.single id location source now content here ((kept source own).trans there)
    exact meets.inside location ⟨content, there⟩
  · intro location bears
    obtain ⟨own, content, there⟩ := meets.insideTwin location bears
    exact ⟨own, content, (kept location own).trans there⟩

end Frame

section Changes

theorem confined_directory (sees : scope.Sees (parent ++ [name])) (free : tree.node? (parent ++ [name]) = none)
    (above : tree.node? parent = some .directory) : Confined scope tree (tree.attach (parent ++ [name]) .directory) := by
  have nodes := node?_attach tree free .directory
  refine ⟨rfl, Nat.le_refl _, fun sound => (sound.attach_directory above free).sound, ?_, ?_⟩
  · intro location outside
    rw [nodes]
    by_cases here : location = parent ++ [name]
    · subst here
      exact .inr ⟨sees.resolve_left outside, free, Function.update_self ..⟩
    · exact .inl (Function.update_of_ne here ..)
  · rintro id location ⟨content, found⟩ _
    rw [nodes] at found
    by_cases here : location = parent ++ [name]
    · subst here
      simp at found
    · rw [Function.update_of_ne here] at found
      exact ⟨location, content, found⟩

theorem bears_directory (free : tree.node? (parent ++ [name]) = none) :
    (tree.attach (parent ++ [name]) .directory).Bears id location ↔ tree.Bears id location := by
  unfold Bears
  rw [node?_attach tree free .directory]
  by_cases here : location = parent ++ [name]
  · subst here
    simp [free]
  · rw [Function.update_of_ne here]

theorem sight?_directory_update (free : tree.node? (parent ++ [name]) = none) (location : Location) :
    (tree.attach (parent ++ [name]) .directory).sight? location =
      if location = parent ++ [name] then some .directory else tree.sight? location := by
  rw [sight?, node?_attach tree free .directory]
  by_cases here : location = parent ++ [name]
  · subst here
    rw [Function.update_self, if_pos rfl]
    rfl
  · rw [Function.update_of_ne here, if_neg here]
    rfl

theorem Twins.attach_directory (twins : Twins scope tree twin) (sees : scope.Sees (parent ++ [name]))
    (above : tree.node? parent = some .directory) (aboveTwin : twin.node? parent = some .directory)
    (free : tree.node? (parent ++ [name]) = none) (freeTwin : twin.node? (parent ++ [name]) = none) :
    Steps scope tree twin (tree.attach (parent ++ [name]) .directory) (twin.attach (parent ++ [name]) .directory) := by
  have made := confined_directory sees free above
  have madeTwin := confined_directory sees freeTwin aboveTwin
  have same : ∀ location, twin.sight? location = tree.sight? location →
      (twin.attach (parent ++ [name]) .directory).sight? location =
        (tree.attach (parent ++ [name]) .directory).sight? location := by
    intro location same
    rw [sight?_directory_update free, sight?_directory_update freeTwin, same]
  refine ⟨⟨made.sound twins.sound, madeTwin.sound twins.soundTwin, twins.home, fun location own =>
    same location (twins.own location own), fun location turn => same location (twins.turns location turn), ?_⟩, made,
    madeTwin, ?_⟩
  · intro location way
    rcases twins.ways location way with alike | ⟨there, missing⟩
    · exact .inl (same location alike)
    · refine .inr ?_
      have elsewhere : location ≠ parent ++ [name] := by
        rintro rfl
        simp [free] at there
      rw [node?_attach tree free, node?_attach twin freeTwin, Function.update_of_ne elsewhere,
        Function.update_of_ne elsewhere]
      exact ⟨there, missing⟩
  · intro id other meets
    refine ⟨meets.given, meets.givenTwin, ?_, ?_⟩
    · intro location bears
      rw [bears_directory freeTwin]
      exact meets.inside location ((bears_directory free).mp bears)
    · intro location bears
      rw [bears_directory free]
      exact meets.insideTwin location ((bears_directory freeTwin).mp bears)

theorem Twins.attach_missing (twins : Twins scope tree twin) (sees : scope.Sees (parent ++ [name]))
    (aboveTwin : twin.node? parent = some .directory) (there : tree.node? (parent ++ [name]) = some .directory)
    (freeTwin : twin.node? (parent ++ [name]) = none) :
    Steps scope tree twin tree (twin.attach (parent ++ [name]) .directory) := by
  have madeTwin := confined_directory sees freeTwin aboveTwin
  have seen := sight?_directory.mpr there
  have missing := sight?_none.mpr freeTwin
  have same : ∀ location, twin.sight? location = tree.sight? location →
      (twin.attach (parent ++ [name]) .directory).sight? location = tree.sight? location := by
    intro location same
    have elsewhere : location ≠ parent ++ [name] := by
      rintro rfl
      simp [seen, missing] at same
    rw [sight?_directory_update freeTwin, if_neg elsewhere, same]
  refine ⟨⟨twins.sound, madeTwin.sound twins.soundTwin, twins.home, fun location own =>
    same location (twins.own location own), fun location turn => same location (twins.turns location turn), ?_⟩, .refl tree,
    madeTwin, ?_⟩
  · intro location way
    by_cases here : location = parent ++ [name]
    · subst here
      rw [sight?_directory_update freeTwin, if_pos rfl, seen]
      exact .inl rfl
    · rw [sight?_directory_update freeTwin, if_neg here, node?_attach twin freeTwin, Function.update_of_ne here]
      exact twins.ways location way
  · intro id other meets
    refine ⟨meets.given, meets.givenTwin, ?_, ?_⟩
    · intro location bears
      rw [bears_directory freeTwin]
      exact meets.inside location bears
    · exact fun location bears => meets.insideTwin location ((bears_directory freeTwin).mp bears)

theorem confined_file (own : scope.own (parent ++ [name])) (sound : tree.IsSound)
    (above : tree.node? parent = some .directory) (free : tree.node? (parent ++ [name]) = none) :
    Confined scope tree { tree.attach (parent ++ [name]) (.file tree.nextId []) with nextId := tree.nextId + 1 } := by
  have became := sound.attach_file above free
  refine ⟨rfl, Nat.le_succ _, fun _ => became.sound, ?_, ?_⟩
  · intro location outside
    have elsewhere : location ≠ parent ++ [name] := by
      rintro rfl
      exact outside own
    rw [became.nodes, Function.update_of_ne elsewhere]
    exact .inl rfl
  · rintro id location ⟨content, found⟩ old
    rw [became.nodes] at found
    by_cases here : location = parent ++ [name]
    · subst here
      rw [Function.update_self] at found
      cases found
      exact absurd old (Nat.lt_irrefl _)
    · rw [Function.update_of_ne here] at found
      exact ⟨location, content, found⟩

theorem bears_file {place : Location} {content : Bytes} (free : tree.node? place = none)
    (nodes : after.node? = Function.update tree.node? place (some (.file tree.nextId content))) (old : id < tree.nextId) :
    after.Bears id location ↔ tree.Bears id location := by
  unfold Bears
  rw [nodes]
  by_cases here : location = place
  · subst here
    simp [free, Nat.ne_of_gt old]
  · rw [Function.update_of_ne here]

theorem Twins.attach_file (twins : Twins scope tree twin) (own : scope.own (parent ++ [name]))
    (above : tree.node? parent = some .directory) (aboveTwin : twin.node? parent = some .directory)
    (free : tree.node? (parent ++ [name]) = none) (freeTwin : twin.node? (parent ++ [name]) = none) :
    Steps scope tree twin { tree.attach (parent ++ [name]) (.file tree.nextId []) with nextId := tree.nextId + 1 }
        { twin.attach (parent ++ [name]) (.file twin.nextId []) with nextId := twin.nextId + 1 } ∧
      Meets scope { tree.attach (parent ++ [name]) (.file tree.nextId []) with nextId := tree.nextId + 1 }
        { twin.attach (parent ++ [name]) (.file twin.nextId []) with nextId := twin.nextId + 1 } tree.nextId twin.nextId := by
  have made := confined_file own twins.sound above free
  have madeTwin := confined_file own twins.soundTwin aboveTwin freeTwin
  have nodes := (twins.sound.attach_file above free).nodes
  have nodesTwin := (twins.soundTwin.attach_file aboveTwin freeTwin).nodes
  -- The trees with the new file have names here, so that they stay in one piece when they are rewritten with.
  obtain ⟨after, final⟩ : ∃ after, after = { tree.attach (parent ++ [name]) (.file tree.nextId []) with
    nextId := tree.nextId + 1 } := ⟨_, rfl⟩
  obtain ⟨afterTwin, finalTwin⟩ : ∃ after, after = { twin.attach (parent ++ [name]) (.file twin.nextId []) with
    nextId := twin.nextId + 1 } := ⟨_, rfl⟩
  rw [← final] at made nodes ⊢
  rw [← finalTwin] at madeTwin nodesTwin ⊢
  have same : ∀ location, twin.sight? location = tree.sight? location → afterTwin.sight? location = after.sight? location := by
    intro location same
    rw [sight?, sight?, nodes, nodesTwin]
    by_cases here : location = parent ++ [name]
    · subst here
      rw [Function.update_self, Function.update_self]
      rfl
    · rw [Function.update_of_ne here, Function.update_of_ne here]
      exact same
  have twins' : Twins scope after afterTwin := by
    refine ⟨made.sound twins.sound, madeTwin.sound twins.soundTwin, (madeTwin.home.trans twins.home).trans made.home.symm,
      fun location own => same location (twins.own location own), fun location turn => same location (twins.turns location turn),
      ?_⟩
    intro location way
    rcases twins.ways location way with alike | ⟨there, missing⟩
    · exact .inl (same location alike)
    · have elsewhere : location ≠ parent ++ [name] := by
        rintro rfl
        simp [free] at there
      rw [nodes, nodesTwin, Function.update_of_ne elsewhere, Function.update_of_ne elsewhere]
      exact .inr ⟨there, missing⟩
  refine ⟨⟨twins', made, madeTwin, ?_⟩, ?_⟩
  · intro id other meets
    refine ⟨Nat.lt_of_lt_of_le meets.given made.next, Nat.lt_of_lt_of_le meets.givenTwin madeTwin.next, ?_, ?_⟩
    · intro location found
      rw [bears_file freeTwin nodesTwin meets.givenTwin]
      exact meets.inside location ((bears_file free nodes meets.given).mp found)
    · intro location found
      rw [bears_file free nodes meets.given]
      exact meets.insideTwin location ((bears_file freeTwin nodesTwin meets.givenTwin).mp found)
  · refine twins'.meet own ⟨[], ?_⟩ ⟨[], ?_⟩
    · rw [nodes, Function.update_self]
    · rw [nodesTwin, Function.update_self]

theorem bears_rewrite (change : Bytes → Bytes) {number : FileId} :
    (tree.modifyContent id change).Bears number location ↔ tree.Bears number location := by
  unfold Bears
  rw [node?_modifyContent]
  cases tree.node? location with
  | none => simp
  | some node =>
      cases node with
      | directory => simp [FileNode.rewrite]
      | file other content =>
          simp only [Option.map_some, FileNode.rewrite]
          split <;> simp

theorem confined_rewrite (inside : ∀ location, tree.Bears id location → scope.own location) (change : Bytes → Bytes) :
    Confined scope tree (tree.modifyContent id change) := by
  refine ⟨rfl, Nat.le_refl _, fun sound => sound.rewrite id change, ?_, ?_⟩
  · intro location outside
    refine .inl ?_
    rw [node?_modifyContent]
    cases stands : tree.node? location with
    | none => rfl
    | some node =>
        cases node with
        | directory => rfl
        | file other content =>
            have different : other ≠ id := by
              rintro rfl
              exact outside (inside location ⟨content, stands⟩)
            simp [FileNode.rewrite, different]
  · intro number location bears _
    exact ⟨location, (bears_rewrite change).mp bears⟩

theorem Twins.rewrite (twins : Twins scope tree twin) (meets : Meets scope tree twin id other) (change : Bytes → Bytes) :
    Steps scope tree twin (tree.modifyContent id change) (twin.modifyContent other change) := by
  have made := confined_rewrite (fun location bears => (meets.inside location bears).1) change
  have madeTwin := confined_rewrite (fun location bears => (meets.insideTwin location bears).1) change
  have same : ∀ location, twin.sight? location = tree.sight? location →
      (twin.modifyContent other change).sight? location = (tree.modifyContent id change).sight? location := by
    intro location same
    rw [sight?, sight?, node?_modifyContent, node?_modifyContent]
    rcases node?_of_sight? same with ⟨free, freeTwin⟩ | ⟨there, thereTwin⟩ | ⟨one, two, content, here, hereTwin⟩
    · rw [free, freeTwin]
      rfl
    · rw [there, thereTwin]
      rfl
    · rw [here, hereTwin]
      have together : one = id ↔ two = other := by
        constructor
        · rintro rfl
          obtain ⟨kept, found⟩ := (meets.inside location ⟨content, here⟩).2
          rw [hereTwin] at found
          exact (FileNode.file.inj (Option.some.inj found)).1
        · rintro rfl
          obtain ⟨kept, found⟩ := (meets.insideTwin location ⟨content, hereTwin⟩).2
          rw [here] at found
          exact (FileNode.file.inj (Option.some.inj found)).1
      by_cases changed : one = id
      · simp [FileNode.rewrite, FileNode.sight, changed, together.mp changed]
      · have changedTwin : two ≠ other := fun equal => changed (together.mpr equal)
        simp [FileNode.rewrite, FileNode.sight, changed, changedTwin]
  refine ⟨⟨made.sound twins.sound, madeTwin.sound twins.soundTwin, twins.home, fun location own =>
    same location (twins.own location own), fun location turn => same location (twins.turns location turn), ?_⟩, made,
    madeTwin, ?_⟩
  · intro location way
    rcases twins.ways location way with alike | ⟨there, missing⟩
    · exact .inl (same location alike)
    · rw [node?_modifyContent, node?_modifyContent, there, missing]
      exact .inr ⟨rfl, rfl⟩
  · intro one two meets
    refine ⟨meets.given, meets.givenTwin, ?_, ?_⟩
    · intro location bears
      rw [bears_rewrite]
      exact meets.inside location ((bears_rewrite change).mp bears)
    · intro location bears
      rw [bears_rewrite]
      exact meets.insideTwin location ((bears_rewrite change).mp bears)

structure Relocates (scope : Scope) (source? : Location → Option Location) (before after : FileTree) : Prop where
  nodes : ∀ location, after.node? location = (source? location).bind before.node?
  home : after.workingDirectory = before.workingDirectory
  next : after.nextId = before.nextId
  sound : after.IsSound
  outside : ∀ location, ¬ scope.own location → source? location = some location
  inside : ∀ location source, scope.own location → source? location = some source → scope.own source

variable {source? : Location → Option Location}

theorem Relocates.confined (relocates : Relocates scope source? before after) : Confined scope before after := by
  refine ⟨relocates.home, Nat.le_of_eq relocates.next.symm, fun _ => relocates.sound, ?_, ?_⟩
  · intro location outside
    rw [relocates.nodes, relocates.outside location outside]
    exact .inl rfl
  · rintro id location ⟨content, found⟩ _
    rw [relocates.nodes] at found
    obtain ⟨source, -, there⟩ := Option.bind_eq_some_iff.mp found
    exact ⟨source, content, there⟩

theorem Relocates.bears (relocates : Relocates scope source? before after) :
    after.Bears id location ↔ ∃ source, source? location = some source ∧ before.Bears id source := by
  unfold Bears
  rw [relocates.nodes]
  constructor
  · rintro ⟨content, found⟩
    obtain ⟨source, came, there⟩ := Option.bind_eq_some_iff.mp found
    exact ⟨source, came, content, there⟩
  · rintro ⟨source, came, content, there⟩
    exact ⟨content, by rw [came, Option.bind_some, there]⟩

theorem Relocates.meets_inside (relocates : Relocates scope source? before after) (found : after.Bears id location)
    (held : ∀ place, before.Bears id place → scope.own place) :
    ∃ source, source? location = some source ∧ before.Bears id source ∧ scope.own location := by
  obtain ⟨source, came, there⟩ := relocates.bears.mp found
  refine ⟨source, came, there, ?_⟩
  by_contra outside
  rw [relocates.outside location outside, Option.some.injEq] at came
  subst came
  exact outside (held _ there)

theorem Twins.relocate (twins : Twins scope tree twin) (relocates : Relocates scope source? tree after)
    (relocatesTwin : Relocates scope source? twin afterTwin) : Steps scope tree twin after afterTwin := by
  have outside : ∀ location, ¬ scope.own location →
      after.node? location = tree.node? location ∧ afterTwin.node? location = twin.node? location := by
    intro location outside
    rw [relocates.nodes, relocatesTwin.nodes, relocates.outside location outside]
    exact ⟨rfl, rfl⟩
  have inside : ∀ location, scope.own location → afterTwin.sight? location = after.sight? location := by
    intro location own
    rw [sight?, sight?, relocates.nodes, relocatesTwin.nodes]
    cases came : source? location with
    | none => rfl
    | some source => exact twins.own source (relocates.inside location source own came)
  -- What is his has come from places that were alike, and nothing else has moved.
  have same : ∀ location, twin.sight? location = tree.sight? location → afterTwin.sight? location = after.sight? location := by
    intro location same
    by_cases own : scope.own location
    · exact inside location own
    · obtain ⟨kept, keptTwin⟩ := outside location own
      rw [sight?_congr kept, sight?_congr keptTwin, same]
  refine ⟨⟨relocates.sound, relocatesTwin.sound, ?_, inside, fun location turn => same location (twins.turns location turn),
    ?_⟩, relocates.confined, relocatesTwin.confined, ?_⟩
  · rw [relocates.home, relocatesTwin.home, twins.home]
  · intro location way
    by_cases own : scope.own location
    · exact .inl (inside location own)
    · obtain ⟨kept, keptTwin⟩ := outside location own
      rw [kept, keptTwin, sight?_congr kept, sight?_congr keptTwin]
      exact twins.ways location way
  · intro id other meets
    refine ⟨relocates.next ▸ meets.given, relocatesTwin.next ▸ meets.givenTwin, ?_, ?_⟩
    · intro location found
      obtain ⟨source, came, there, own⟩ := relocates.meets_inside found fun place bears => (meets.inside place bears).1
      exact ⟨own, relocatesTwin.bears.mpr ⟨source, came, (meets.inside source there).2⟩⟩
    · intro location found
      obtain ⟨source, came, there, own⟩ :=
        relocatesTwin.meets_inside found fun place bears => (meets.insideTwin place bears).1
      exact ⟨own, relocates.bears.mpr ⟨source, came, (meets.insideTwin source there).2⟩⟩

end Changes

end FileTree

namespace Scope

variable {scope mine theirs : Scope} {tree after : FileTree}

theorem IsApart.later (isApart : mine.IsApart tree theirs) (confined : FileTree.Confined scope tree after)
    (free : ∀ location, mine.Sees location → theirs.ways location → ¬ scope.own location) : mine.IsApart after theirs := by
  refine ⟨isApart.apart, isApart.closed, ?_⟩
  intro location turn
  obtain ⟨sees, there⟩ := isApart.turned location turn
  refine ⟨sees, ?_⟩
  intro way
  rcases confined.outside location (free location sees way) with same | ⟨-, -, made⟩
  · rw [same]
    exact there way
  · simp [made]

end Scope

end KeyedLog
