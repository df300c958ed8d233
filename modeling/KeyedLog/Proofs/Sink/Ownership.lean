import KeyedLog.Proofs.Sink.Descent
import KeyedLog.Proofs.Sink.Running

/-!
To whom local files belong. As long as no sink has a path at or below an archive of another, an open file is at the place
that the path of its sink names, and sinks whose paths name different places have different files.
-/

namespace KeyedLog

open FileTree

namespace Sink

def path? : Sink → Option String
  | file sink => some sink.path
  | rotating sink => some sink.path
  | _ => none

def openFile? : Sink → Option FileId
  | file sink => sink.handle.map (·.id)
  | rotating sink => sink.handle.map (·.id)
  | _ => none

def archivePaths : Sink → List String
  | rotating sink => sink.policy.archivePaths sink.path
  | _ => []

end Sink

namespace World

def path? (world : World) (id : SinkId) : Option String :=
  world.sinks[id]?.bind Sink.path?

def openFile? (world : World) (id : SinkId) : Option FileId :=
  world.sinks[id]?.bind Sink.openFile?

def archivePaths (world : World) (id : SinkId) : List String :=
  world.sinks[id]?.elim [] Sink.archivePaths

structure IsSited (region : Location → Prop) (world : World) : Prop where
  outside : ∀ id path, world.path? id = some path → ¬ region (world.files.place path)
  covers : ∀ id, ∀ path ∈ world.archivePaths id, ∀ location, world.files.place path <+: location → region location

/-- The open file of a sink is where its path leads, or it has no name any more; and sinks share an open file only if
their paths lead to the same place. -/
structure Owns (world : World) : Prop where
  numbered : world.files.IsNumbered
  given : ∀ id file, world.openFile? id = some file → file < world.files.nextId
  placed : ∀ id path file, world.path? id = some path → world.openFile? id = some file →
    ∀ location content, (location, .file file content) ∈ world.files.nodes → location = world.files.place path
  shared : ∀ one two first second file, world.path? one = some first → world.path? two = some second →
    world.openFile? one = some file → world.openFile? two = some file → world.files.place first = world.files.place second

structure KeepsPaths (before after : World) : Prop where
  home : after.files.workingDirectory = before.files.workingDirectory
  paths : ∀ id path, before.path? id = some path → after.path? id = some path
  archives : ∀ id, before.archivePaths id ⊆ after.archivePaths id

/-- Files that were there are renamed in the region only, and no sink has opened a file but one that has this path. -/
structure Advances (region : Location → Prop) (path : String) (before after : World) : Prop where
  numbers : before.files.KeepsNumbers after.files
  files : Descends region before.files after.files
  opened : ∀ id file, after.openFile? id = some file → before.openFile? id = some file ∨
    after.path? id = some path ∧ Acquires region (before.files.place path) file before.files after.files

variable {region : Location → Prop} {world before after : World} {path : String} {id : SinkId}

theorem path?_of_openFile? {file : FileId} (holds : world.openFile? id = some file) : ∃ path, world.path? id = some path := by
  obtain ⟨sink, stands, holds⟩ := Option.bind_eq_some_iff.mp holds
  rw [path?, stands]
  cases sink <;> simp [Sink.openFile?, Sink.path?] at holds ⊢

theorem KeepsPaths.trans {first second third : World} (one : first.KeepsPaths second) (two : second.KeepsPaths third) :
    first.KeepsPaths third :=
  ⟨two.home.trans one.home, fun id path named => two.paths id path (one.paths id path named),
    fun id => List.Subset.trans (one.archives id) (two.archives id)⟩

theorem KeepsPaths.place (keeps : before.KeepsPaths after) (path : String) :
    after.files.place path = before.files.place path :=
  place_congr keeps.home path

theorem IsSited.earlier (sited : after.IsSited region) (keeps : before.KeepsPaths after) : before.IsSited region := by
  refine ⟨?_, ?_⟩
  · intro id path named
    rw [← keeps.place]
    exact sited.outside id path (keeps.paths id path named)
  · intro id path member
    rw [← keeps.place]
    exact sited.covers id path (keeps.archives id member)

theorem Owns.advance (owns : before.Owns) (sited : before.IsSited region) (keeps : before.KeepsPaths after)
    (advances : before.Advances region path after) : after.Owns := by
  have stays : ∀ id named file, before.path? id = some named → before.openFile? id = some file →
      ∀ goal source content, (source, .file file content) ∈ before.files.nodes → source = goal ∨ region source →
        goal = before.files.place named := by
    intro id named file has held goal source content start origin
    have here := owns.placed id named file has held source content start
    rcases origin with rfl | inside
    · exact here
    · exact absurd (here ▸ inside) (sited.outside id named has)
  have same : ∀ id named other, before.path? id = some named → after.path? id = some other → named = other := by
    intro id named other has later
    exact Option.some.inj ((keeps.paths id named has).symm.trans later)
  -- If it is opened once more, it is by a sink whose path names the same place.
  have met : ∀ id named file, before.path? id = some named → before.openFile? id = some file →
      Acquires region (before.files.place path) file before.files after.files →
        before.files.place named = before.files.place path := by
    intro id named file has held acquires
    obtain ⟨source, content, start, origin⟩ := acquires.known (owns.given id file held)
    exact (stays id named file has held _ source content start origin).symm
  refine ⟨advances.numbers.numbered owns.numbered, ?_, ?_, ?_⟩
  · intro id file holds
    rcases advances.opened id file holds with held | ⟨-, acquires⟩
    · exact Nat.lt_of_lt_of_le (owns.given id file held) advances.files.next
    · exact acquires.given
  · intro id named file has holds location content member
    rw [keeps.place]
    rcases advances.opened id file holds with held | ⟨acting, acquires⟩
    · obtain ⟨old, there⟩ := path?_of_openFile? held
      obtain rfl := same id old named there has
      obtain ⟨source, kept, start, origin⟩ := advances.files.files location file content member (owns.given id file held)
      exact stays id old file there held location source kept start origin
    · obtain rfl := Option.some.inj (has.symm.trans acting)
      exact acquires.placed location content member
  · intro one two first second file hasOne hasTwo holdsOne holdsTwo
    rw [keeps.place, keeps.place]
    rcases advances.opened one file holdsOne with held | ⟨acting, acquires⟩ <;>
      rcases advances.opened two file holdsTwo with held' | ⟨acting', acquires'⟩
    · obtain ⟨old, there⟩ := path?_of_openFile? held
      obtain ⟨old', there'⟩ := path?_of_openFile? held'
      obtain rfl := same one old first there hasOne
      obtain rfl := same two old' second there' hasTwo
      exact owns.shared one two old old' file there there' held held'
    · obtain ⟨old, there⟩ := path?_of_openFile? held
      obtain rfl := same one old first there hasOne
      obtain rfl := Option.some.inj (hasTwo.symm.trans acting')
      exact met one old file there held acquires'
    · obtain ⟨old', there'⟩ := path?_of_openFile? held'
      obtain rfl := same two old' second there' hasTwo
      obtain rfl := Option.some.inj (hasOne.symm.trans acting)
      exact (met two old' file there' held' acquires).symm
    · rw [Option.some.inj (hasOne.symm.trans acting), Option.some.inj (hasTwo.symm.trans acting')]

theorem keepsPaths_of_sinks (sinks : after.sinks = before.sinks)
    (home : after.files.workingDirectory = before.files.workingDirectory) : before.KeepsPaths after := by
  refine ⟨home, ?_, ?_⟩
  · intro id path named
    rwa [World.path?, sinks]
  · intro id path member
    rwa [World.archivePaths, sinks]

theorem advances_of_sinks (sinks : after.sinks = before.sinks) (numbers : before.files.KeepsNumbers after.files)
    (files : Descends region before.files after.files) (path : String) : before.Advances region path after := by
  refine ⟨numbers, files, ?_⟩
  intro id file holds
  rw [openFile?, sinks] at holds
  exact .inl holds

theorem keepsPaths_setSink {old new : Sink} (present : world.sinks[id]? = some old) (path : new.path? = old.path?)
    (archives : new.archivePaths = old.archivePaths) : world.KeepsPaths (world.setSink id new) := by
  have changed := world.setSink_same present new
  refine ⟨rfl, ?_, ?_⟩
  · intro other named has
    by_cases here : id = other
    · subst other
      rw [World.path?, present] at has
      rw [World.path?, changed, Option.bind_some, path]
      exact has
    · rwa [World.path?, world.setSink_other here]
  · intro other
    by_cases here : id = other
    · subst other
      rw [World.archivePaths, World.archivePaths, changed, present, Option.elim_some, Option.elim_some, archives]
      exact List.Subset.refl _
    · rw [World.archivePaths, World.archivePaths, world.setSink_other here]
      exact List.Subset.refl _

theorem advances_setSink {old new : Sink} (present : world.sinks[id]? = some old) (named : new.path? = some path)
    (opened : ∀ file, new.openFile? = some file → old.openFile? = some file ∨
      Acquires region (before.files.place path) file before.files world.files)
    (sinks : world.sinks = before.sinks) (numbers : before.files.KeepsNumbers world.files)
    (files : Descends region before.files world.files) : before.Advances region path (world.setSink id new) := by
  have changed := world.setSink_same present new
  refine ⟨numbers, files, ?_⟩
  intro other file holds
  by_cases here : id = other
  · subst other
    rw [openFile?, changed, Option.bind_some] at holds
    rw [openFile?, ← sinks, present, Option.bind_some, World.path?, changed, Option.bind_some]
    exact (opened file holds).imp (fun old => old) fun acquires => ⟨named, acquires⟩
  · rw [openFile?, world.setSink_other here, sinks] at holds
    exact .inl holds

theorem write_cases (world : World) (id : SinkId) (event : Event) :
    (world.write id event).2.files = world.files ∧ (world.write id event).2.sinks = world.sinks ∨
      (∃ sink, world.sinks[id]? = some (.file sink) ∧
        (world.write id event).2 = world.setFiles (stateAfter (sink.write event) world.files)) ∨
      ∃ sink state, world.sinks[id]? = some (.rotating sink) ∧
        state = stateAfter (RotatingSink.write event) (sink, world.files) ∧
        (world.write id event).2 = (world.setFiles state.2).setSink id (.rotating state.1) := by
  unfold write
  split
  · exact .inl ⟨rfl, rfl⟩
  · exact .inl ⟨rfl, rfl⟩
  next sink present =>
    refine .inr (.inl ⟨sink, present, ?_⟩)
    split
    next result => rw [stateAfter_of_ok result]
    next result => rw [stateAfter_of_error result]
  next sink present =>
    refine .inr (.inr ⟨sink, _, present, rfl, ?_⟩)
    split
    next result => rw [stateAfter_of_ok result]
    next result => rw [stateAfter_of_error result]
  next sink _ =>
    refine .inl ⟨?_, rfl⟩
    unfold RemoteSink.write
    dsimp only
    split <;> rfl
  · exact .inl ⟨rfl, rfl⟩

theorem write_keepsPaths (world : World) (id : SinkId) (event : Event) : world.KeepsPaths (world.write id event).2 := by
  rcases world.write_cases id event with ⟨files, sinks⟩ | ⟨sink, -, same⟩ | ⟨sink, state, present, reached, same⟩
  · exact keepsPaths_of_sinks sinks (by rw [files])
  · rw [same]
    exact keepsPaths_of_sinks rfl (sink.write_numbers event world.files).home
  · have numbers := RotatingSink.write_numbers event (sink, world.files)
    have rest := RotatingSink.write_rest event (sink, world.files)
    rw [← reached] at numbers rest
    rw [same]
    refine (keepsPaths_of_sinks (world.setFiles_sinks state.2) numbers.home).trans (keepsPaths_setSink present ?_ ?_)
    · exact congrArg some rest.path
    · rw [Sink.archivePaths, rest.path, rest.policy]
      rfl

theorem write_advances (sited : world.IsSited region) (numbered : world.files.IsNumbered) (id : SinkId) (event : Event) :
    ∃ path, world.Advances region path (world.write id event).2 := by
  rcases world.write_cases id event with ⟨files, sinks⟩ | ⟨sink, -, same⟩ | ⟨sink, state, present, reached, same⟩
  · exact ⟨"", advances_of_sinks sinks (files ▸ .refl _) (files ▸ .refl _) ""⟩
  · rw [same]
    exact ⟨"", advances_of_sinks (world.setFiles_sinks _) (sink.write_numbers event world.files)
      (sink.write_descends event world.files) ""⟩
  · have rest := RotatingSink.write_rest event (sink, world.files)
    have moves : RotatingSink.Moves region (sink, world.files) (stateAfter (RotatingSink.write event) (sink, world.files)) := by
      refine RotatingSink.write_moves event (sink, world.files) rfl ⟨numbered, ?_, ?_⟩
      · exact sited.outside id sink.path (by rw [World.path?, present]; rfl)
      · exact fun path member => sited.covers id path (by rw [World.archivePaths, present]; exact member)
    rw [← reached] at rest moves
    rw [same]
    refine ⟨sink.path, advances_setSink present (congrArg some rest.path) ?_ rfl moves.numbers moves.files⟩
    intro file holds
    obtain ⟨handle, stands, rfl⟩ := Option.map_eq_some_iff.mp holds
    rcases moves.handle handle stands with old | acquires
    · exact .inl (congrArg (Option.map FileHandle.id) old)
    · exact .inr acquires

theorem stop_cases (world : World) (id : SinkId) :
    (world.stop id).sinks = world.sinks ∨
      ∃ old new, world.sinks[id]? = some old ∧ (world.stop id).sinks = (world.setSink id new).sinks ∧
        new.path? = old.path? ∧ new.archivePaths = old.archivePaths ∧
        ∀ file, new.openFile? = some file → old.openFile? = some file := by
  unfold stop
  split
  · exact .inl rfl
  next sink present => exact .inr ⟨_, _, present, rfl, rfl, rfl, fun _ holds => holds⟩
  next sink present =>
    refine .inr ⟨_, _, present, rfl, ?_⟩
    unfold FileSink.stop
    split
    · exact ⟨rfl, rfl, fun _ holds => holds⟩
    · exact ⟨rfl, rfl, by simp [Sink.openFile?]⟩
  next sink present =>
    refine .inr ⟨_, _, present, rfl, ?_⟩
    unfold RotatingSink.stop
    split
    · exact ⟨rfl, rfl, fun _ holds => holds⟩
    · exact ⟨rfl, rfl, by simp [Sink.openFile?]⟩
  next sink present => exact .inr ⟨_, _, present, rfl, rfl, rfl, fun _ holds => holds⟩
  next sink present => exact .inr ⟨_, _, present, rfl, rfl, rfl, fun _ holds => holds⟩

theorem stop_keepsPaths (world : World) (id : SinkId) : world.KeepsPaths (world.stop id) := by
  have files := world.stop_files id
  rcases world.stop_cases id with sinks | ⟨old, new, present, sinks, path, archives, -⟩
  · exact keepsPaths_of_sinks sinks (by rw [files])
  · exact (keepsPaths_setSink present path archives).trans (keepsPaths_of_sinks sinks (by rw [files]; rfl))

theorem stop_advances (world : World) (id : SinkId) (path : String) : world.Advances region path (world.stop id) := by
  have files := world.stop_files id
  refine ⟨files ▸ .refl _, files ▸ .refl _, ?_⟩
  intro other file holds
  rcases world.stop_cases id with sinks | ⟨old, new, present, sinks, -, -, closed⟩
  · rw [openFile?, sinks] at holds
    exact .inl holds
  · rw [openFile?, sinks] at holds
    by_cases here : id = other
    · subst other
      rw [world.setSink_same present, Option.bind_some] at holds
      rw [openFile?, present, Option.bind_some]
      exact .inl (closed file holds)
    · rw [world.setSink_other here] at holds
      exact .inl holds

theorem keepsPaths_append {sinks : List Sink} (added : after.sinks = before.sinks ++ sinks)
    (home : after.files.workingDirectory = before.files.workingDirectory) : before.KeepsPaths after := by
  have old : ∀ id : SinkId, before.sinks[id]?.isSome → after.sinks[id]? = before.sinks[id]? := by
    intro id stands
    rw [added, List.getElem?_append_left (by simpa using stands)]
  refine ⟨home, ?_, ?_⟩
  · intro id path named
    obtain ⟨sink, stands, path⟩ := Option.bind_eq_some_iff.mp named
    rw [World.path?, old id (by rw [stands]; rfl)]
    exact named
  · intro id path member
    cases stands : before.sinks[id]? with
    | none => simp [World.archivePaths, stands] at member
    | some sink =>
        rw [World.archivePaths, old id (by rw [stands]; rfl)]
        exact member

theorem advances_append {sinks : List Sink} (added : after.sinks = before.sinks ++ sinks)
    (numbers : before.files.KeepsNumbers after.files) (files : Descends region before.files after.files)
    (opened : ∀ sink ∈ sinks, ∀ file, sink.openFile? = some file → sink.path? = some path ∧
      Acquires region (before.files.place path) file before.files after.files) : before.Advances region path after := by
  refine ⟨numbers, files, ?_⟩
  intro id file holds
  obtain ⟨sink, stands, opens⟩ := Option.bind_eq_some_iff.mp holds
  rw [World.path?, stands, Option.bind_some, openFile?]
  rw [added, List.getElem?_append] at stands
  split at stands
  · rw [stands]
    exact .inl opens
  · exact .inr (opened sink (List.mem_of_getElem? stands) file opens)

end World

namespace Factory

variable {region : Location → Prop} {before after : World}

theorem adopt_cases {σ : Type} (world : World) (wrap : σ → Sink) {action : SinkFileAction σ} {path : String}
    (make : FileHandle × Nat → σ) (opens : action = Files.touch path >>= fun opened => pure (make opened))
    (named : ∀ opened, (wrap (make opened)).path? = some path)
    (holds : ∀ opened, (wrap (make opened)).openFile? = some opened.1.id) :
    ∃ made, (adopt world wrap (action world.files)).2.sinks = world.sinks ++ made ∧
      (adopt world wrap (action world.files)).2.files = stateAfter (Files.touch path) world.files ∧
      ∀ sink ∈ made, ∃ opened, Files.touch path world.files =
          .ok opened (adopt world wrap (action world.files)).2.files ∧
        sink.path? = some path ∧ sink.openFile? = some opened.1.id := by
  subst opens
  cases touched : Files.touch path world.files with
  | error fault files =>
      rw [bind_of_error touched, stateAfter_of_error touched]
      exact ⟨[], (List.append_nil _).symm, rfl, by simp⟩
  | ok opened files =>
      rw [bind_of_ok touched, stateAfter_of_ok touched]
      refine ⟨[wrap (make opened)], rfl, rfl, ?_⟩
      intro sink member
      rw [List.mem_singleton.mp member]
      exact ⟨opened, rfl, named opened, holds opened⟩

theorem create_cases (factory : Factory) (router key : String) (world : World) :
    ∃ made, (create router key (factory, world)).2.2.sinks = world.sinks ++ made ∧
      ((create router key (factory, world)).2.2.files = world.files ∧ (∀ sink ∈ made, sink.openFile? = none) ∨
        ∃ path, (create router key (factory, world)).2.2.files = stateAfter (Files.touch path) world.files ∧
          ∀ sink ∈ made, ∃ opened, Files.touch path world.files =
              .ok opened (create router key (factory, world)).2.2.files ∧
            sink.path? = some path ∧ sink.openFile? = some opened.1.id) := by
  cases factory with
  | localApplication fileName policy encode =>
      obtain ⟨made, sinks, files, opened⟩ :=
        adopt_cases world .rotating _ (RotatingSink.openAt_eq (key ++ "-local") (Path.join key fileName) policy encode)
          (fun _ => rfl) (fun _ => rfl)
      simp only [create]
      exact ⟨made, sinks, .inr ⟨_, files, opened⟩⟩
  | localJob fileName encode =>
      obtain ⟨made, sinks, files, opened⟩ :=
        adopt_cases world .file _
          (FileSink.openAt_eq (key ++ "-local") (FileSink.jobLogPath world.files key fileName) encode)
          (fun _ => rfl) (fun _ => rfl)
      simp only [create]
      exact ⟨made, sinks, .inr ⟨_, files, opened⟩⟩
  | cloud type retry encode =>
      simp only [create]
      split
      · exact ⟨[], (List.append_nil _).symm, .inl ⟨rfl, by simp⟩⟩
      · exact ⟨[_], rfl, .inl ⟨rfl, by simp [Sink.openFile?]⟩⟩
  | recording factory =>
      simp only [create, createRecording]
      split
      · exact ⟨[], (List.append_nil _).symm, .inl ⟨rfl, by simp⟩⟩
      · split
        · exact ⟨[], (List.append_nil _).symm, .inl ⟨rfl, by simp⟩⟩
        · exact ⟨[_], rfl, .inl ⟨rfl, by simp [Sink.openFile?]⟩⟩

theorem create_keepsPaths (factory : Factory) (router key : String) (world : World) :
    world.KeepsPaths (create router key (factory, world)).2.2 := by
  obtain ⟨made, sinks, ⟨files, -⟩ | ⟨path, files, -⟩⟩ := create_cases factory router key world
  · exact World.keepsPaths_append sinks (by rw [files])
  · exact World.keepsPaths_append sinks (by rw [files]; exact (Files.touch_numbers path world.files).home)

theorem create_advances (factory : Factory) (router key : String) {world : World} (numbered : world.files.IsNumbered) :
    ∃ path, world.Advances region path (create router key (factory, world)).2.2 := by
  obtain ⟨made, sinks, ⟨files, none⟩ | ⟨path, files, opened⟩⟩ := create_cases factory router key world
  · refine ⟨"", World.advances_append sinks (files ▸ .refl _) (files ▸ .refl _) ?_⟩
    intro sink member file holds
    rw [none sink member] at holds
    simp at holds
  · refine ⟨path, World.advances_append sinks ?_ ?_ ?_⟩
    · exact files ▸ Files.touch_numbers path world.files
    · exact files ▸ Files.touch_descends path world.files
    · intro sink member file holds
      obtain ⟨handle, touched, named, has⟩ := opened sink member
      obtain rfl := Option.some.inj (has.symm.trans holds)
      exact ⟨named, Files.touch_acquires numbered touched⟩

end Factory

end KeyedLog
