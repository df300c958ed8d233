import KeyedLog.Proofs.Files.Meddling
import KeyedLog.Proofs.Sink.Alike
import KeyedLog.Proofs.Sink.Writing

/-!
What a sink whose file rotates does after others have meddled with its files. Once the directory is there and no directory
stands in the way, every write succeeds, except one that has to archive a file that is gone.
-/

namespace KeyedLog

open FileTree

def Scope.everything : Scope where
  own _ := True
  ways _ := True
  turns _ := True
  below _ _ := trivial

theorem Scope.everything_claims (tree : FileTree) (path : String) : Scope.everything.Claims tree path := by
  have passes : ∀ (names : List String) (start : Location), Scope.everything.Passes start names := by
    intro names
    induction names with
    | nil => exact fun _ => trivial
    | cons name rest ih => exact fun start => ⟨.inl trivial, fun _ => .inl trivial, ih _⟩
  exact ⟨passes _ _, trivial⟩

namespace FileTree

variable {tree : FileTree} {path : String}

theorem IsSound.twins (sound : tree.IsSound) (scope : Scope) : Twins scope tree tree :=
  ⟨sound, sound, rfl, fun _ _ => rfl, fun _ _ => rfl, fun _ _ => .inl rfl⟩

def HasParent (tree : FileTree) (path : String) : Prop :=
  ∀ parent, Path.parent? path = some parent → parent = "" ∨ tree.isDirectory parent = true

def IsShort (path : String) : Prop :=
  (Utf8.encode path).length < maxPathLength ∧ ∀ name ∈ pathNames path, (Utf8.encode name).length ≤ maxNameLength

theorem IsFilePath.names (file : IsFilePath path) (sound : tree.IsSound) {route : Route} (ready : tree.route path = .ok route)
    (above : tree.HasParent path) : ∃ parent name, tree.Names path parent name := by
  obtain ⟨before, name, steps, named⟩ := file.named
  obtain ⟨parent, above?, -, -, ⟨count, idle⟩, head, -⟩ := Path.withFileName_of_steps steps named.ordinary named.down
  have origin : tree.origin parent = tree.origin path.toList := by simp only [origin, head]
  have upper : ∃ place, tree.follow (tree.origin path.toList) ((Path.steps parent).map String.ofList) = .ok place := by
    rcases above _ above? with nothing | there
    · obtain rfl : parent = [] := String.ofList_inj.mp (nothing.trans rfl)
      exact ⟨_, rfl⟩
    · obtain ⟨-, place, way⟩ := (isDirectory_iff tree _).mp there
      rw [pathNames, String.toList_ofList, origin] at way
      exact ⟨place, way⟩
  obtain ⟨place, way⟩ := upper
  have stands := follow_directory (origin_directory sound path.toList) way
  have whole : tree.follow (tree.origin path.toList) (pathNames path).dropLast = .ok place := by
    rw [pathNames, steps, List.map_append, List.map_singleton, List.dropLast_concat, idle, List.map_append, List.map_replicate,
      follow_append, way]
    exact follow_dots stands count
  obtain ⟨front, last, names, slot⟩ := file.slot ready whole
  exact ⟨place, last, slot, file.short last (by simp [names])⟩

end FileTree

namespace Site

variable {site : Site} {tree : FileTree}

theorem fits_of_isShort {sibling : List Char} (named : Path.IsName sibling)
    (short : IsShort (String.ofList (Path.lead site.parentPath ++ sibling))) : site.Fits sibling := by
  obtain ⟨whole, names⟩ := short
  refine ⟨by simpa [Utf8.encode] using whole, ?_⟩
  have last := names (String.ofList sibling) (by
    rw [pathNames, String.toList_ofList, Path.steps_lead site.parentPath named.nonempty named.whole]
    simp)
  simpa [Utf8.encode] using last

theorem IsProper.hasRoom (proper : site.IsProper) {policy : RollingPolicy}
    (short : ∀ archive ∈ policy.archivePaths site.path, IsShort archive) : site.HasRoom policy.maxArchives := by
  intro positive
  have staging := short _ (policy.stagingPath_mem site.path positive)
  have last := short _ (policy.slotPath_mem site.path positive (Nat.le_refl _))
  rw [proper.staging] at staging
  rw [proper.slots] at last
  exact ⟨fits_of_isShort (Archive.isName_stagingName proper.named) staging,
    fits_of_isShort (Archive.isName_slotName proper.named _) last⟩

/-- No directory stands at the file, at an archive or at the staging file. -/
structure IsClear (site : Site) (archives : Nat) (tree : FileTree) : Prop where
  base : tree.node? site.base ≠ some .directory
  staging : 0 < archives → tree.node? site.staging ≠ some .directory
  slots : Rotation.HasFiles site archives tree

theorem IsIn.isClear (stands : site.IsIn tree) (proper : site.IsProper) {policy : RollingPolicy}
    (room : site.HasRoom policy.maxArchives)
    (clear : ∀ beside ∈ site.path :: policy.archivePaths site.path, tree.isDirectory beside = false) :
    site.IsClear policy.maxArchives tree := by
  have free : ∀ {path name}, tree.Names path site.directory name → tree.isDirectory path = false →
      tree.node? (site.directory ++ [name]) ≠ some .directory := by
    intro path name names other there
    rw [isDirectory, names.find, there] at other
    simp at other
  refine ⟨free stands.names (clear _ (List.mem_cons_self ..)), ?_, ?_⟩
  · intro positive
    have names := stands.namesSibling (Archive.isName_stagingName proper.named) (room positive).1
    rw [← proper.staging] at names
    exact free names (clear _ (List.mem_cons_of_mem _ (policy.stagingPath_mem site.path positive)))
  · intro number positive bound
    have fits := (room (by omega)).2.mono (Archive.length_slotName_mono site.name bound)
    have names := stands.namesSibling (Archive.isName_slotName proper.named number) fits
    rw [← proper.slots] at names
    exact free names (clear _ (List.mem_cons_of_mem _ (policy.slotPath_mem site.path positive bound)))

end Site

namespace Rotation

variable {site : Site} {tree : FileTree}

theorem stage_of_missing (stands : site.IsIn tree) (missing : tree.node? site.base = none) :
    stage site.path tree = .error (.io (Archive.stagingPath site.path) .notFound)
      (stateAfter (Files.removeFile (Archive.stagingPath site.path)) tree) := by
  have opened := Files.openForReading_eq stands.names
  rw [show site.directory ++ [String.ofList site.name] = site.base from rfl, missing] at opened
  have failed : compress site.path (Archive.stagingPath site.path) tree = .error .notFound tree := bind_of_error opened
  simp only [stage, failed, stateAfter]
  cases Files.removeFile (Archive.stagingPath site.path) tree <;> rfl

end Rotation

namespace RotatingSink

variable {site : Site} {sink : RotatingSink} {tree : FileTree} {state : RotatingSink × FileTree}

theorem touch_of_clear (proper : site.IsProper) (stands : site.IsIn tree) (free : tree.node? site.base ≠ some .directory) :
    ∃ opened after, Files.touch site.path tree = .ok opened after := by
  have touched := Files.touch_of_leads stands.sound proper.parent stands.leads
  cases there : tree.node? site.base with
  | none => exact ⟨_, _, touched.trans (Files.at_of_ok (Files.openForWriting_new stands.names there) _)⟩
  | some node =>
      cases node with
      | directory => exact absurd there free
      | file id content => exact ⟨_, _, touched.trans (Files.at_of_ok (Files.openForWriting_file stands.names there) _)⟩

theorem add_of_handle {handle : FileHandle} (opened : sink.handle = some handle) (path : String) (bytes : Bytes) :
    ∃ after, add path bytes (sink, tree) = .ok () after := by
  have current : currentHandle (sink, tree) = .ok handle (sink, tree) := by
    rw [currentHandle, bind_get]
    simp [opened]
  unfold add
  rw [bind_of_ok current]
  exact ⟨_, rfl⟩

theorem add_of_clear (proper : site.IsProper) (stands : site.IsIn tree) (path : sink.path = site.path)
    (free : tree.node? site.base ≠ some .directory) (bytes : Bytes) : ∃ after, add site.path bytes (sink, tree) = .ok () after := by
  cases opened : sink.handle with
  | some handle => exact add_of_handle opened site.path bytes
  | none =>
      obtain ⟨⟨handle, size⟩, after, touched⟩ := touch_of_clear proper stands free
      rw [← path] at touched
      have current : currentHandle (sink, tree) = .ok handle ({ sink with handle := some handle, size }, after) := by
        rw [currentHandle, bind_get]
        simp only [opened]
        rw [bind_of_ok (onFiles_of_ok touched sink)]
        rfl
      unfold add
      rw [bind_of_ok current]
      exact ⟨_, rfl⟩

theorem rotate_of_clear (proper : site.IsProper) (stands : site.IsIn tree) (path : sink.path = site.path)
    (room : site.HasRoom sink.policy.maxArchives) (clear : site.IsClear sink.policy.maxArchives tree)
    (there : 0 < sink.policy.maxArchives → tree.node? site.base ≠ none) :
    ∃ handle after, rotate (sink, tree) = .ok () ({ sink with handle := some handle, size := 0 }, after) := by
  by_cases some : 0 < sink.policy.maxArchives
  · cases base : tree.node? site.base with
    | none => exact absurd base (there some)
    | some node =>
        cases node with
        | directory => exact absurd base clear.base
        | file id content =>
            obtain ⟨number, after, done, -⟩ := rotate_ok proper stands path room clear.slots base clear.staging
            exact ⟨⟨number⟩, after, done⟩
  · have nothing : Rotation.archive site.path sink.policy.maxArchives tree = .ok () tree := by
      rw [Rotation.archive, if_neg some]
      rfl
    obtain ⟨number, after, done, -⟩ := rotate_of_archive proper path nothing stands clear.base
    exact ⟨⟨number⟩, after, done⟩

theorem write_of_clear (proper : site.IsProper) (stands : site.IsIn tree) (path : sink.path = site.path)
    (running : sink.stopped = false) (room : site.HasRoom sink.policy.maxArchives)
    (clear : site.IsClear sink.policy.maxArchives tree) (event : Event)
    (there : sink.mustRotate (sink.encode event).length = true → 0 < sink.policy.maxArchives → tree.node? site.base ≠ none) :
    ∃ after, write event (sink, tree) = .ok () after := by
  rw [write_eq]
  simp only [running, Bool.false_eq_true, if_false]
  by_cases full : sink.mustRotate (sink.encode event).length = true
  · obtain ⟨handle, after, done⟩ := rotate_of_clear proper stands path room clear (there full)
    simp only [full, if_true]
    rw [bind_of_ok done]
    exact add_of_handle rfl _ _
  · rw [if_neg full, path]
    exact add_of_clear proper stands path clear.base _

theorem write_of_missing (stands : site.IsIn tree) (path : sink.path = site.path) (running : sink.stopped = false)
    (event : Event) (full : sink.mustRotate (sink.encode event).length = true) (some : 0 < sink.policy.maxArchives)
    (missing : tree.node? site.base = none) :
    write event (sink, tree) = .error (.io (Archive.stagingPath site.path) .notFound)
      (sink, stateAfter (Files.removeFile (Archive.stagingPath site.path)) tree) := by
  have failed : rotate (sink, tree) = .error (.io (Archive.stagingPath site.path) .notFound)
      (sink, stateAfter (Files.removeFile (Archive.stagingPath site.path)) tree) := by
    unfold rotate
    rw [bind_get]
    refine bind_of_error (onFiles_of_error ?_ sink)
    simp only [path]
    rw [Rotation.archive, if_pos some]
    exact bind_of_error (Rotation.stage_of_missing stands missing)
  rw [write_eq]
  simp only [running, full, Bool.false_eq_true, if_false, if_true]
  exact bind_of_error failed

/-- What a sink can rely on, whatever others have done: its paths are what they were, and its open file is a file. -/
structure IsSane (state : RotatingSink × FileTree) : Prop where
  sound : state.2.IsSound
  file : IsFilePath state.1.path
  ready : ∃ route, state.2.route state.1.path = .ok route
  home : ∀ archive ∈ state.1.policy.archivePaths state.1.path, ¬ state.2.place archive <+: state.2.workingDirectory
  handle : ∀ handle, state.1.handle = some handle → handle.id < state.2.nextId

theorem IsSane.pairs (sane : IsSane state) : Pairs Scope.everything state state := by
  refine ⟨⟨sane.sound.twins _, sane.file, fun beside _ => Scope.everything_claims _ beside, sane.home⟩, rfl, ?_⟩
  cases opened : state.1.handle with
  | none => exact .none
  | some handle =>
      have given := sane.handle handle opened
      exact .some ⟨given, given, fun _ bears => ⟨trivial, bears⟩, fun _ bears => ⟨trivial, bears⟩⟩

theorem IsSane.write (sane : IsSane state) (event : Event) : IsSane (stateAfter (write event) state) := by
  have later : ∀ after afterTwin, Proceeds Scope.everything state state after afterTwin → IsSane after := by
    intro after afterTwin proceeds
    have home := proceeds.steps.changes.home
    have hosts := proceeds.pairs.seats.hosts
    refine ⟨proceeds.steps.twins.sound, hosts.file, ?_, hosts.home, ?_⟩
    · rw [route_congr home, proceeds.keeps.path]
      exact sane.ready
    · intro handle opened
      have same := proceeds.pairs.handle
      rw [opened] at same
      generalize afterTwin.1.handle = other at same
      cases same with
      | some meets => exact meets.given
  rcases (write_alike sane.pairs event).cases_run with ⟨_, _, after, afterTwin, done, -, proceeds, -⟩ |
    ⟨fault, after, afterTwin, failed, -, proceeds⟩
  · rw [stateAfter_of_ok done]
    exact later after afterTwin proceeds
  · rw [stateAfter_of_error failed]
    exact later after afterTwin proceeds

theorem IsSane.endures {after : FileTree} (sane : IsSane (sink, tree)) (endures : tree.Endures after) : IsSane (sink, after) := by
  obtain ⟨sound, file, ready, home, handle⟩ := sane
  refine ⟨endures.sound sound, file, ?_, ?_, fun opened held => Nat.lt_of_lt_of_le (handle opened held) endures.next⟩
  · simpa only [route_congr endures.home] using ready
  · simpa only [place_congr endures.home, endures.home] using home

theorem isSane_of_openAt {name path : String} {policy : RollingPolicy} {encode : Event → Bytes} {files start : FileTree}
    (sound : files.IsSound) (home : ∀ archive ∈ policy.archivePaths path, ¬ files.place archive <+: files.workingDirectory)
    (opened : openAt name path policy encode files = .ok sink start) :
    IsSane (sink, start) ∧ sink = { name, path, policy, encode, handle := sink.handle, size := sink.size } := by
  obtain ⟨held, size, touched, rfl⟩ := openAt_eq_ok.mp opened
  obtain ⟨soundStart, parent, fileName, content, names, stands, -, opens⟩ := Files.touch_ok sound touched
  refine ⟨⟨soundStart, Files.isFilePath_of_touch sound touched, ?_, ?_, ?_⟩, rfl⟩
  · obtain ⟨route, ready, -⟩ := bind_eq_ok.mp names.slot
    exact ⟨route, ready⟩
  · simpa only [place_congr opens.home, opens.home] using home
  · rintro handle ⟨⟩
    exact soundStart.fresh _ _ _ stands

/-- Something that happens to a sink or to its files. -/
inductive Incident where
  | write (event : Event)
  | others (meddling : Meddling)

def Incident.apply (incident : Incident) (state : RotatingSink × FileTree) : RotatingSink × FileTree :=
  match incident with
  | write event => stateAfter (RotatingSink.write event) state
  | others meddling => (state.1, meddling.apply state.2)

def undergo (incidents : List Incident) (state : RotatingSink × FileTree) : RotatingSink × FileTree :=
  incidents.foldl (fun state incident => incident.apply state) state

theorem incident_rest (incident : Incident) (state : RotatingSink × FileTree) : KeepsRest state (incident.apply state) := by
  cases incident with
  | write event => exact write_rest event state
  | others meddling => rfl

theorem IsSane.apply (sane : IsSane state) (incident : Incident) : IsSane (incident.apply state) := by
  cases incident with
  | write event => exact sane.write event
  | others meddling => exact sane.endures (meddling.endures state.2)

theorem IsSane.undergo (sane : IsSane state) (incidents : List Incident) :
    IsSane (undergo incidents state) ∧ KeepsRest state (RotatingSink.undergo incidents state) := by
  induction incidents generalizing state with
  | nil => exact ⟨sane, rfl⟩
  | cons incident rest ih =>
      obtain ⟨later, keeps⟩ := ih (sane.apply incident)
      exact ⟨later, (incident_rest incident state).trans keeps⟩

theorem IsSane.sited (sane : IsSane state) (above : state.2.HasParent state.1.path) :
    ∃ site : Site, site.path = state.1.path ∧ site.IsProper ∧ site.IsIn state.2 := by
  obtain ⟨route, ready⟩ := sane.ready
  obtain ⟨parent, name, names⟩ := sane.file.names sane.sound ready above
  obtain ⟨site, path, -, -, proper, stands⟩ := Site.exists_of_names sane.sound names
  exact ⟨site, path, proper, stands⟩

theorem write_refused {fault : SinkFault} (running : state.1.stopped = false) (failed : rotate state = .error fault state)
    (full : ∀ length, state.1.mustRotate length = true) (events : List Event) (event : Event) :
    write event (undergo (events.map .write) state) = .error fault (undergo (events.map .write) state) := by
  have refused : ∀ event, write event state = .error fault state := by
    intro event
    rw [write_eq]
    simp only [running, full, Bool.false_eq_true, if_false, if_true]
    exact bind_of_error failed
  have stays : undergo (events.map .write) state = state := by
    induction events with
    | nil => rfl
    | cons first rest ih =>
        show undergo (rest.map .write) (stateAfter (write first) state) = state
        rw [stateAfter_of_error (refused first)]
        exact ih
  rw [stays]
  exact refused event

theorem holds_after_cleaning {site : Site} {tree : FileTree} (proper : site.IsProper) (stands : site.IsIn tree)
    (fits : site.Fits (Archive.stagingName site.name)) (missing : tree.node? site.base = none)
    (clear : tree.node? site.staging ≠ some .directory) :
    (stateAfter (Files.removeFile (Archive.stagingPath site.path)) tree).holds site.path = false := by
  have names := stands.namesSibling (Archive.isName_stagingName proper.named) fits
  rw [← proper.staging] at names
  have gone : ∀ {after}, site.IsIn after → after.node? site.base = none → after.holds site.path = false := by
    intro after stands missing
    rw [Files.holds_eq stands.names]
    exact congrArg Option.isSome missing
  cases there : tree.node? site.staging with
  | none =>
      rw [stateAfter_of_error (Files.removeFile_missing names there)]
      exact gone stands missing
  | some node =>
      cases node with
      | directory => exact absurd there clear
      | file id content =>
          obtain ⟨after, removed, became⟩ := Files.removeFile_ok stands.sound names there
          rw [stateAfter_of_ok removed]
          refine gone (stands.mono (became.keeps clear) became.sound) ?_
          rw [became.nodes]
          exact (Function.update_of_ne site.staging_ne_base.symm ..).trans missing

end RotatingSink

/-- Whatever has been written to a sink, and whatever others have done to the files meanwhile: once the directory is there and
no directory stands at the file, the staging file or an archive, a write succeeds, unless the file has been taken away and
would have to be archived first. Then nothing is written, and the file is still missing for the next write.

The archives have paths that are short enough, and the working directory is not inside of one. -/
theorem write_recovers {name path : String} {policy : RollingPolicy} {encode : Event → Bytes} {files start : FileTree}
    {sink : RotatingSink} (sound : files.IsSound)
    (home : ∀ archive ∈ policy.archivePaths path, ¬ files.place archive <+: files.workingDirectory)
    (short : ∀ archive ∈ policy.archivePaths path, IsShort archive)
    (opened : RotatingSink.openAt name path policy encode files = .ok sink start) (incidents : List RotatingSink.Incident)
    (event : Event) :
    let state := RotatingSink.undergo incidents (sink, start)
    state.2.HasParent path → (∀ beside ∈ path :: policy.archivePaths path, state.2.isDirectory beside = false) →
      ((state.1.mustRotate (encode event).length = true → 0 < policy.maxArchives → state.2.holds path = true) →
        ∃ after, RotatingSink.write event state = .ok () after) ∧
      (state.1.mustRotate (encode event).length = true → 0 < policy.maxArchives → state.2.holds path = false →
        ∃ after, RotatingSink.write event state = .error (.io (Archive.stagingPath path) .notFound) (state.1, after) ∧
          after.holds path = false) := by
  intro state above clear
  obtain ⟨sane, shape⟩ := RotatingSink.isSane_of_openAt sound home opened
  obtain ⟨sane, keeps⟩ : RotatingSink.IsSane state ∧ RotatingSink.KeepsRest (sink, start) state := sane.undergo incidents
  obtain ⟨last, tree⟩ := state
  have path? : last.path = path := by rw [keeps.path, shape]
  have policy? : last.policy = policy := by rw [keeps.policy, shape]
  have encode? : last.encode = encode := by rw [keeps.encode, shape]
  have running : last.stopped = false := by rw [keeps.stopped, shape]
  subst path? policy? encode?
  obtain ⟨site, path, proper, stands⟩ := sane.sited above
  dsimp only at path
  rw [← path] at short clear ⊢
  have room := proper.hasRoom short
  have free := stands.isClear proper room clear
  have holds : tree.holds site.path = (tree.node? site.base).isSome := Files.holds_eq stands.names
  refine ⟨fun there => ?_, fun full some missing => ?_⟩
  · refine RotatingSink.write_of_clear proper stands path.symm running room free event fun full some => ?_
    have stays := there full some
    rw [holds] at stays
    exact Option.ne_none_iff_isSome.mpr stays
  · have missing : tree.node? site.base = none := by simpa [holds] using missing
    refine ⟨_, RotatingSink.write_of_missing stands path.symm running event full some missing, ?_⟩
    exact RotatingSink.holds_after_cleaning proper stands (room some).1 missing (free.staging some)

theorem write_recovers_from_directory :
    ∃ (start : FileTree) (sink : RotatingSink), (empty ["home"]).IsSound ∧
      RotatingSink.openAt "app" "app.log" ⟨5, 1⟩ Encoding.line.encode (empty ["home"]) = .ok sink start ∧
      let incidents : List RotatingSink.Incident := [.write (.new 1 .info "one"), .others (.makeDirectory "app.1.log.gz"),
        .write (.new 2 .info "two"), .others (.remove "app.1.log.gz")]
      let state := RotatingSink.undergo incidents (sink, start)
      state.2.seen? "app.log" = some (.file (Utf8.encode "1 INFO  one\n")) ∧
        ∃ after, RotatingSink.write (.new 3 .info "three") state = .ok () after := by
  refine ⟨_, _, isSound_empty ["home"], rfl, by decide +kernel, ?_⟩
  refine (write_recovers (isSound_empty ["home"]) (by decide +kernel) (by simp only [IsShort]; decide +kernel)
    (show RotatingSink.openAt "app" "app.log" ⟨5, 1⟩ Encoding.line.encode (empty ["home"]) = .ok _ _ from rfl)
    [.write (.new 1 .info "one"), .others (.makeDirectory "app.1.log.gz"), .write (.new 2 .info "two"),
      .others (.remove "app.1.log.gz")] (.new 3 .info "three") ?_ (by decide +kernel)).1 fun _ _ => by decide +kernel
  rintro parent ⟨⟩
  exact .inl rfl

/-- Once the file is taken away, no write succeeds any more. -/
theorem sink_stays_wedged :
    ∃ (start : FileTree) (sink : RotatingSink),
      RotatingSink.openAt "app" "app.log" ⟨5, 1⟩ Encoding.line.encode (empty ["home"]) = .ok sink start ∧
      let state := RotatingSink.undergo [.write (.new 1 .info "one"), .others (.remove "app.log")] (sink, start)
      state.2.HasParent "app.log" ∧
        (∀ beside ∈ ["app.log", "app.1.log.gz.tmp", "app.1.log.gz"], state.2.isDirectory beside = false) ∧
        ∀ (events : List Event) (event : Event),
          let later := RotatingSink.undergo (events.map .write) state
          RotatingSink.write event later = .error (.io "app.1.log.gz.tmp" .notFound) later := by
  refine ⟨_, _, rfl, ?_, by decide +kernel, ?_⟩
  · rintro parent ⟨⟩
    exact .inl rfl
  refine RotatingSink.write_refused rfl rfl fun length => ?_
  show (_ && decide (12 + length > 5)) = true
  simp only [Bool.and_eq_true, decide_eq_true_eq]
  exact ⟨by decide +kernel, by omega⟩

end KeyedLog
