import KeyedLog.Proofs.Archive.Names
import KeyedLog.Proofs.Files.Lacking
import KeyedLog.Proofs.Sink.Descent
import KeyedLog.Proofs.Sink.Running

/-!
Sinks in two trees that look the same to somebody. A sink whose files are his does the same in both, whether it succeeds
or fails.
-/

namespace KeyedLog

open FileTree

/-- A file, its archives and its staging file are his, and the working directory is not inside of an archive. -/
structure Scope.Hosts (scope : Scope) (policy : RollingPolicy) (tree : FileTree) (path : String) : Prop where
  file : IsFilePath path
  claims : ∀ beside ∈ path :: policy.archivePaths path, scope.Claims tree beside
  home : ∀ archive ∈ policy.archivePaths path, ¬ tree.place archive <+: tree.workingDirectory

variable {scope : Scope} {policy : RollingPolicy} {tree twin after afterTwin : FileTree} {path beside : String}

theorem Scope.Hosts.congr (hosts : scope.Hosts policy tree path) (home : after.workingDirectory = tree.workingDirectory) :
    scope.Hosts policy after path := by
  refine ⟨hosts.file, fun beside member => (hosts.claims beside member).congr home, ?_⟩
  intro archive member
  rw [place_congr home, home]
  exact hosts.home archive member

namespace FileTree

theorem IsFilePath.archive (file : IsFilePath path) (member : beside ∈ policy.archivePaths path) :
    ∃ front count name, (pathNames path).dropLast = front ++ List.replicate count "." ∧ pathNames beside = front ++ [name] ∧
      name ≠ ".." ∧ ∀ tree : FileTree, tree.origin beside.toList = tree.origin path.toList := by
  obtain ⟨before, name, steps, named⟩ := file.named
  obtain ⟨parent, -, last, -, ⟨count, idle⟩, head, siblings⟩ := Path.withFileName_of_steps steps named.ordinary named.down
  have slots : ∀ slot, Archive.slotPath path slot = String.ofList (Path.lead parent ++ Archive.slotName name slot) := by
    intro slot
    rw [Archive.slotPath, last, Option.getD_some, String.toList_ofList]
    exact siblings _ (Archive.isName_slotName named slot).whole
  obtain ⟨sibling, proper, rfl⟩ : ∃ sibling, Path.IsName sibling ∧ beside = String.ofList (Path.lead parent ++ sibling) := by
    unfold RollingPolicy.archivePaths at member
    split at member
    · simp at member
    · rcases List.mem_cons.mp member with rfl | slot
      · refine ⟨_, Archive.isName_stagingName named, String.toList_inj.mp ?_⟩
        simp [Archive.stagingPath, slots 1, Archive.stagingName, String.toList_append]
      · obtain ⟨slot, -, rfl⟩ := List.mem_map.mp slot
        exact ⟨_, Archive.isName_slotName named _, slots _⟩
  refine ⟨(Path.steps parent).map String.ofList, count, String.ofList sibling, ?_, ?_, ?_, ?_⟩
  · rw [pathNames, steps, List.map_append, List.map_singleton, List.dropLast_concat, idle, List.map_append, List.map_replicate]
  · rw [pathNames, String.toList_ofList, Path.steps_lead parent proper.nonempty proper.whole, List.map_append,
      List.map_singleton]
  · exact fun same => proper.down (String.ofList_inj.mp same)
  · intro tree
    simp only [origin, String.toList_ofList, Path.head?_lead parent proper.nonempty proper.whole, head]

structure Seats (scope : Scope) (policy : RollingPolicy) (path : String) (tree twin : FileTree) : Prop where
  twins : Twins scope tree twin
  hosts : scope.Hosts policy tree path

structure Reaches (scope : Scope) (policy : RollingPolicy) (path : String) (tree twin : FileTree) : Prop
    extends Seats scope policy path tree twin where
  paves : ∀ beside ∈ path :: policy.archivePaths path,
    scope.Paves twin (tree.origin beside.toList) (pathNames beside).dropLast

theorem Seats.later (seats : Seats scope policy path tree twin) (steps : Steps scope tree twin after afterTwin) :
    Seats scope policy path after afterTwin :=
  ⟨steps.twins, seats.hosts.congr steps.changes.home⟩

theorem Seats.claims (seats : Seats scope policy path tree twin) (member : beside ∈ path :: policy.archivePaths path) :
    scope.Claims tree beside :=
  seats.hosts.claims beside member

theorem Reaches.later (reaches : Reaches scope policy path tree twin) (steps : Steps scope tree twin after afterTwin) :
    Reaches scope policy path after afterTwin := by
  refine ⟨reaches.toSeats.later steps, ?_⟩
  intro beside member
  rw [origin_congr steps.changes.home]
  exact (reaches.paves beside member).confined steps.changesTwin

theorem Reaches.agrees (reaches : Reaches scope policy path tree twin) (member : beside ∈ path :: policy.archivePaths path) :
    Agrees tree twin beside := by
  have paves := reaches.paves beside member
  have passes := (reaches.claims member).passes
  rcases List.eq_nil_or_concat (pathNames beside) with none | ⟨initial, last, names⟩
  · rw [Agrees, none]
    rfl
  · rw [List.concat_eq_append] at names
    rw [names, List.dropLast_concat] at paves
    rw [names] at passes
    rw [Agrees, names, List.dropLast_concat]
    exact reaches.twins.follow_paved passes.front paves

theorem Seats.reaches {location : Location} {node : FileNode} (seats : Seats scope policy path tree twin)
    (found : twin.find path = .ok (location, node)) : Reaches scope policy path tree twin := by
  obtain ⟨route, ready, shape⟩ := find_eq_ok.mp found
  obtain rfl : route = ⟨twin.origin path.toList, pathNames path, _⟩ := (route_ok ready).2.2.2
  have way : ∃ parent, twin.follow (twin.origin path.toList) (pathNames path).dropLast = .ok parent := by
    rcases shape with ⟨none, -, -⟩ | ⟨-, parent, -, way, -⟩
    · rw [show pathNames path = [] from List.getLast?_eq_none_iff.mp none]
      exact ⟨_, rfl⟩
    · exact ⟨parent, way⟩
  obtain ⟨parent, way⟩ := way
  rw [origin_congr seats.twins.home] at way
  have paves : scope.Paves twin (tree.origin path.toList) (pathNames path).dropLast := Scope.paves_of_follow way
  refine ⟨seats, ?_⟩
  intro beside member
  rcases List.mem_cons.mp member with rfl | archive
  · exact paves
  · obtain ⟨front, count, name, names, shape, -, origin⟩ := seats.hosts.file.archive archive
    rw [origin, shape, List.dropLast_concat]
    rw [names] at paves
    exact paves.front

end FileTree

namespace Rotation

theorem openForReading_of_error {fault : IoFault} (failed : tree.find path = .error fault) :
    Files.openForReading path tree = .error fault tree := by
  unfold Files.openForReading
  exact bind_of_error (Files.look_of_error failed)

theorem openForReading_of_find {location : Location} {node : FileNode} (found : tree.find path = .ok (location, node)) :
    Files.openForReading path tree = .ok node tree := by
  unfold Files.openForReading
  rw [bind_of_ok (Files.look_of_ok found)]
  rfl

theorem content_alike {node other : FileNode} (twins : Twins scope tree twin) (same : other.sight = node.sight) :
    Alike scope tree twin (fun content another _ _ => content = another) (Files.content node tree)
      (Files.content other twin) := by
  cases node with
  | directory =>
      cases other with
      | directory => exact .refl_error twins _
      | file id content => simp [FileNode.sight] at same
  | file id content =>
      cases other with
      | directory => simp [FileNode.sight] at same
      | file number kept =>
          obtain rfl : kept = content := by simpa [FileNode.sight] using same
          exact .refl_ok twins rfl

theorem compress_alike (seats : Seats scope policy path tree twin) (some : 0 < policy.maxArchives) :
    Alike scope tree twin (fun _ _ after afterTwin => Reaches scope policy path after afterTwin)
      (compress path (Archive.stagingPath path) tree) (compress path (Archive.stagingPath path) twin) := by
  have base := List.mem_cons_self (a := path) (l := policy.archivePaths path)
  have staging := List.mem_cons_of_mem path (policy.stagingPath_mem path some)
  unfold compress
  rcases seats.twins.find_file (seats.claims base) seats.hosts.file with ⟨fault, failed, failedTwin⟩ |
    ⟨agrees, place, node, placeTwin, nodeTwin, led, ledTwin, same⟩
  · rw [bind_of_error (openForReading_of_error failed), bind_of_error (openForReading_of_error failedTwin)]
    exact .refl_error seats.twins fault
  · have reaches := seats.reaches ledTwin
    rw [bind_of_ok (openForReading_of_find led), bind_of_ok (openForReading_of_find ledTwin)]
    refine (Files.create_alike reaches.twins (reaches.claims staging) (reaches.agrees staging)).bind_steps ?_
    intro handle another created createdTwin _ _ meets steps
    have reaches := reaches.later steps
    refine (content_alike steps.twins same).bind_steps ?_
    rintro bytes _ read readTwin _ _ rfl more
    have reaches := reaches.later more
    have steps := more.twins.rewrite (more.meets _ _ meets) (· ++ Gzip.encode bytes)
    exact .ok steps (reaches.later steps)

theorem stage_alike (seats : Seats scope policy path tree twin) (some : 0 < policy.maxArchives) :
    Alike scope tree twin (fun _ _ after afterTwin => Reaches scope policy path after afterTwin)
      (stage path tree) (stage path twin) := by
  have staging := policy.stagingPath_mem path some
  unfold stage
  rcases (compress_alike seats some).cases_run with ⟨_, _, after, afterTwin, one, two, steps, reaches⟩ |
    ⟨fault, after, afterTwin, one, two, steps⟩
  · rw [one, two]
    exact .ok steps reaches
  · obtain ⟨front, -, name, -, names, down, -⟩ := seats.hosts.file.archive staging
    have claims := (seats.later steps).claims (List.mem_cons_of_mem path staging)
    have removed := Files.removeFile_steps steps.twins claims names down
    rw [one, two]
    dsimp only
    cases gone : Files.removeFile (Archive.stagingPath path) after <;>
      cases goneTwin : Files.removeFile (Archive.stagingPath path) afterTwin <;>
      simp only [stateAfter, gone, goneTwin] at removed <;> exact .error (steps.trans removed)

theorem shiftSlots_alike {count : Nat} (reaches : Reaches scope policy path tree twin) (below : count < policy.maxArchives) :
    Alike scope tree twin Whatever (shiftSlots path count tree) (shiftSlots path count twin) := by
  induction count generalizing tree twin with
  | zero => exact .refl_ok reaches.twins trivial
  | succ count ih =>
      have slot := policy.slotPath_mem path (Nat.succ_pos count) (Nat.le_of_lt below)
      have next := policy.slotPath_mem path (Nat.succ_pos (count + 1)) below
      have source := List.mem_cons_of_mem path slot
      have target := List.mem_cons_of_mem path next
      unfold shiftSlots
      have shifted : Alike scope tree twin Whatever (shiftSlot path (count + 1) tree) (shiftSlot path (count + 1) twin) := by
        unfold shiftSlot
        rw [bind_get, bind_get, reaches.twins.holds (reaches.claims source) (reaches.agrees source)]
        cases tree.holds (Archive.slotPath path (count + 1)) with
        | false => exact .refl_ok reaches.twins trivial
        | true =>
            exact (Files.rename_alike reaches.twins (reaches.claims source) (reaches.agrees source) (reaches.claims target)
              (reaches.agrees target) (reaches.hosts.home _ slot)).at_path _
      exact shifted.bind_steps fun _ _ _ _ _ _ _ steps => ih (reaches.later steps) (Nat.lt_of_succ_lt below)

theorem archive_alike (seats : Seats scope policy path tree twin) :
    Alike scope tree twin Whatever (archive path policy.maxArchives tree) (archive path policy.maxArchives twin) := by
  unfold archive
  by_cases some : policy.maxArchives > 0
  · have staging := policy.stagingPath_mem path some
    have first := List.mem_cons_of_mem path (policy.slotPath_mem path Nat.zero_lt_one some)
    have last := List.mem_cons_of_mem path (policy.slotPath_mem path some (Nat.le_refl _))
    rw [if_pos some]
    refine (stage_alike seats some).bind_steps ?_
    intro _ _ staged stagedTwin _ _ reaches _
    refine ((Files.removeIfExists_alike reaches.twins (reaches.claims last) (reaches.agrees last)).at_path _).bind_steps ?_
    intro _ _ cleared clearedTwin _ _ _ steps
    have reaches := reaches.later steps
    refine (shiftSlots_alike reaches (Nat.sub_lt some Nat.zero_lt_one)).bind_steps ?_
    intro _ _ moved movedTwin _ _ _ steps
    have reaches := reaches.later steps
    have source := List.mem_cons_of_mem path staging
    exact (Files.rename_alike reaches.twins (reaches.claims source) (reaches.agrees source) (reaches.claims first)
      (reaches.agrees first) (reaches.hosts.home _ staging)).at_path _
  · rw [if_neg some]
    exact .refl_ok seats.twins trivial

end Rotation

inductive SameHandle (scope : Scope) (tree twin : FileTree) : Option FileHandle → Option FileHandle → Prop where
  | none : SameHandle scope tree twin none none
  | some {handle other : FileHandle} (meets : Meets scope tree twin handle.id other.id) :
      SameHandle scope tree twin (some handle) (some other)

theorem SameHandle.later {handle other : Option FileHandle} (same : SameHandle scope tree twin handle other)
    (steps : Steps scope tree twin after afterTwin) : SameHandle scope after afterTwin handle other := by
  cases same with
  | none => exact .none
  | some meets => exact .some (steps.meets _ _ meets)

theorem FileSink.openAt_alike (twins : Twins scope tree twin) (claims : scope.Claims tree path) (name : String)
    (encode : Event → Bytes) :
    Alike scope tree twin (fun sink other after afterTwin => ∃ handle, other = { sink with handle } ∧
      SameHandle scope after afterTwin sink.handle handle) (openAt name path encode tree) (openAt name path encode twin) := by
  rw [openAt_eq]
  refine (Files.touch_alike twins claims).bind_steps ?_
  rintro ⟨handle, size⟩ ⟨other, _⟩ after afterTwin _ _ ⟨meets, -⟩ steps
  exact .refl_ok steps.twins ⟨_, rfl, .some meets⟩

theorem FileSink.write_alike {sink : FileSink} {handle : Option FileHandle} (twins : Twins scope tree twin)
    (same : SameHandle scope tree twin sink.handle handle) (event : Event) :
    Alike scope tree twin Whatever (sink.write event tree) (write { sink with handle } event twin) := by
  obtain ⟨name, path, encode, opened, stopped⟩ := sink
  cases same with
  | none => exact .refl_error twins _
  | some meets => exact (Files.append_alike twins meets _).at_path path

namespace RotatingSink

/-- A state of a sink with the trees around it, in two trees: the sink is the same but for the number of its open file,
which is one of his, and so is all that is about its path. -/
structure Pairs (scope : Scope) (state twin : RotatingSink × FileTree) : Prop where
  seats : Seats scope state.1.policy state.1.path state.2 twin.2
  rest : twin.1 = { state.1 with handle := twin.1.handle }
  handle : SameHandle scope state.2 twin.2 state.1.handle twin.1.handle

structure Proceeds (scope : Scope) (state twin after afterTwin : RotatingSink × FileTree) : Prop where
  steps : Steps scope state.2 twin.2 after.2 afterTwin.2
  pairs : Pairs scope after afterTwin
  keeps : KeepsRest state after

variable {state stateTwin next nextTwin : RotatingSink × FileTree} {α β : Type}
  {values : α → α → RotatingSink × FileTree → RotatingSink × FileTree → Prop}
  {results : β → β → RotatingSink × FileTree → RotatingSink × FileTree → Prop}

theorem Proceeds.refl (pairs : Pairs scope state stateTwin) : Proceeds scope state stateTwin state stateTwin :=
  ⟨.refl pairs.seats.twins, pairs, rfl⟩

theorem Proceeds.trans {last lastTwin : RotatingSink × FileTree} (one : Proceeds scope state stateTwin next nextTwin)
    (two : Proceeds scope next nextTwin last lastTwin) : Proceeds scope state stateTwin last lastTwin :=
  ⟨one.steps.trans two.steps, two.pairs, one.keeps.trans two.keeps⟩

abbrev ProceedsAlike (scope : Scope) (state stateTwin : RotatingSink × FileTree)
    (values : α → α → RotatingSink × FileTree → RotatingSink × FileTree → Prop) :
    EStateM.Result SinkFault (RotatingSink × FileTree) α → EStateM.Result SinkFault (RotatingSink × FileTree) α → Prop :=
  Parallel (Proceeds scope state stateTwin) values

theorem Proceeds.seats (proceeds : Proceeds scope state stateTwin next nextTwin) :
    Seats scope state.1.policy state.1.path next.2 nextTwin.2 := by
  have seats := proceeds.pairs.seats
  rwa [proceeds.keeps.policy, proceeds.keeps.path] at seats

theorem ProceedsAlike.bind {first second : Action α} {goOn other : α → Action β}
    (begins : ProceedsAlike scope state stateTwin values (first state) (second stateTwin))
    (goesOn : ∀ value another after afterTwin, values value another after afterTwin →
      Proceeds scope state stateTwin after afterTwin →
        ProceedsAlike scope after afterTwin results (goOn value after) (other another afterTwin)) :
    ProceedsAlike scope state stateTwin results ((first >>= goOn) state) ((second >>= other) stateTwin) :=
  Parallel.bind begins (fun _ _ proceeds => proceeds) fun value another after afterTwin _ _ proceeds same =>
    (goesOn value another after afterTwin same proceeds).mono fun _ _ => proceeds.trans

theorem onFiles_alike {action other : SinkFileAction α} {opened : α → α → FileTree → FileTree → Prop}
    (pairs : Pairs scope state stateTwin) (alike : Alike scope state.2 stateTwin.2 opened (action state.2) (other stateTwin.2)) :
    ProceedsAlike scope state stateTwin (fun value another after afterTwin => opened value another after.2 afterTwin.2)
      (onFiles action state) (onFiles other stateTwin) := by
  obtain ⟨sink, tree⟩ := state
  obtain ⟨sinkTwin, twin⟩ := stateTwin
  have proceeds : ∀ after afterTwin, Steps scope tree twin after afterTwin →
      Proceeds scope (sink, tree) (sinkTwin, twin) (sink, after) (sinkTwin, afterTwin) := fun after afterTwin steps =>
    ⟨steps, ⟨pairs.seats.later steps, pairs.rest, pairs.handle.later steps⟩, rfl⟩
  unfold onFiles
  rcases alike.cases_run with ⟨value, another, after, afterTwin, one, two, steps, same⟩ |
    ⟨fault, after, afterTwin, one, two, steps⟩
  · dsimp only at one two ⊢
    rw [one, two]
    exact .ok (proceeds after afterTwin steps) same
  · dsimp only at one two ⊢
    rw [one, two]
    exact .error (proceeds after afterTwin steps)

theorem update_alike {handle other : Option FileHandle} {change changeTwin : RotatingSink → RotatingSink} (size : Nat)
    (pairs : Pairs scope state stateTwin) (same : SameHandle scope state.2 stateTwin.2 handle other)
    (becomes : change state.1 = { state.1 with handle, size })
    (becomesTwin : changeTwin stateTwin.1 = { stateTwin.1 with handle := other, size }) :
    ProceedsAlike scope state stateTwin (fun _ _ _ _ => True) (update change state) (update changeTwin stateTwin) := by
  refine .ok ⟨.refl pairs.seats.twins, ⟨?_, ?_, ?_⟩, ?_⟩ trivial
  · dsimp only
    rw [becomes]
    exact pairs.seats
  · dsimp only
    rw [becomesTwin, becomes, pairs.rest]
  · dsimp only
    rw [becomesTwin, becomes]
    exact same
  · rw [KeepsRest]
    dsimp only
    rw [becomes]

theorem rotate_alike (pairs : Pairs scope state stateTwin) :
    ProceedsAlike scope state stateTwin (fun _ _ _ _ => True) (rotate state) (rotate stateTwin) := by
  have path : stateTwin.1.path = state.1.path := by rw [pairs.rest]
  have policy : stateTwin.1.policy = state.1.policy := by rw [pairs.rest]
  unfold rotate
  rw [bind_get, bind_get]
  dsimp only
  rw [path, policy]
  refine (onFiles_alike pairs (Rotation.archive_alike pairs.seats)).bind ?_
  intro _ _ archived archivedTwin _ one
  refine (update_alike archived.1.size one.pairs .none rfl ?_).bind ?_
  · rw [one.pairs.rest]
  intro _ _ closed closedTwin _ two
  have seats := (one.trans two).seats
  have base := List.mem_cons_self (a := state.1.path) (l := state.1.policy.archivePaths state.1.path)
  refine (onFiles_alike two.pairs
    ((Files.removeFileOrNot_alike seats.twins (seats.claims base) seats.hosts.file).at_path _)).bind ?_
  intro _ _ removed removedTwin _ three
  have seats := ((one.trans two).trans three).seats
  refine (onFiles_alike three.pairs (Files.touch_alike seats.twins (seats.claims base))).bind ?_
  rintro ⟨handle, size⟩ ⟨other, _⟩ opened openedTwin ⟨meets, -⟩ four
  exact update_alike 0 four.pairs (.some meets) rfl rfl

theorem currentHandle_alike (pairs : Pairs scope state stateTwin) :
    ProceedsAlike scope state stateTwin (fun handle other after afterTwin => Meets scope after.2 afterTwin.2 handle.id other.id)
      (currentHandle state) (currentHandle stateTwin) := by
  have path : stateTwin.1.path = state.1.path := by rw [pairs.rest]
  have handle := pairs.handle
  unfold currentHandle
  rw [bind_get, bind_get]
  dsimp only
  rw [path]
  cases one : state.1.handle with
  | some held =>
      cases two : stateTwin.1.handle with
      | none =>
          rw [one, two] at handle
          cases handle
      | some heldTwin =>
          rw [one, two] at handle
          cases handle with
          | some meets => exact .ok (.refl pairs) meets
  | none =>
      cases two : stateTwin.1.handle with
      | some heldTwin =>
          rw [one, two] at handle
          cases handle
      | none =>
          have base := List.mem_cons_self (a := state.1.path) (l := state.1.policy.archivePaths state.1.path)
          refine (onFiles_alike pairs (Files.touch_alike pairs.seats.twins (pairs.seats.claims base))).bind ?_
          rintro ⟨opened, _⟩ ⟨other, size⟩ after afterTwin ⟨meets, rfl⟩ touched
          refine (update_alike size touched.pairs (.some meets) rfl rfl).bind ?_
          intro _ _ last lastTwin _ updated
          exact .ok (.refl updated.pairs) (updated.steps.meets _ _ meets)

def add (path : String) (bytes : Bytes) : Action Unit := do
  let handle ← currentHandle
  onFiles ((Files.append handle bytes).at path)
  update fun sink => { sink with size := sink.size + bytes.length }

theorem write_eq (event : Event) (state : RotatingSink × FileTree) :
    write event state =
      if state.1.stopped then .error (.stopped state.1.name) state
      else if state.1.mustRotate (state.1.encode event).length then
        (rotate >>= fun _ => add state.1.path (state.1.encode event)) state
      else add state.1.path (state.1.encode event) state := by
  unfold write
  rw [bind_get]
  dsimp only
  by_cases stopped : state.1.stopped = true
  · rw [if_pos stopped, if_pos stopped]
    rfl
  · rw [if_neg stopped, if_neg stopped]
    by_cases full : state.1.mustRotate (state.1.encode event).length = true
    · rw [if_pos full, if_pos full]
      rfl
    · rw [if_neg full, if_neg full]
      rfl

theorem add_alike (pairs : Pairs scope state stateTwin) (path : String) (bytes : Bytes) :
    ProceedsAlike scope state stateTwin (fun _ _ _ _ => True) (add path bytes state) (add path bytes stateTwin) := by
  refine (currentHandle_alike pairs).bind ?_
  intro held heldTwin after afterTwin meets one
  refine (onFiles_alike one.pairs ((Files.append_alike one.pairs.seats.twins meets _).at_path _)).bind ?_
  intro _ _ written writtenTwin _ two
  refine update_alike (written.1.size + bytes.length) two.pairs two.pairs.handle rfl ?_
  rw [two.pairs.rest]

theorem write_alike (pairs : Pairs scope state stateTwin) (event : Event) :
    ProceedsAlike scope state stateTwin (fun _ _ _ _ => True) (write event state) (write event stateTwin) := by
  have same : stateTwin.1.stopped = state.1.stopped ∧ stateTwin.1.name = state.1.name ∧
      stateTwin.1.path = state.1.path ∧ stateTwin.1.encode = state.1.encode ∧
      stateTwin.1.mustRotate = state.1.mustRotate := by
    rw [pairs.rest]
    exact ⟨rfl, rfl, rfl, rfl, rfl⟩
  obtain ⟨stopped, name, path, encode, full⟩ := same
  rw [write_eq, write_eq, stopped, name, path, encode, full]
  split
  · exact .error (.refl pairs)
  · split
    · exact (rotate_alike pairs).bind fun _ _ _ _ _ rotated => add_alike rotated.pairs _ _
    · exact add_alike pairs _ _

theorem openAt_alike (twins : Twins scope tree twin)
    (claims : ∀ beside ∈ path :: policy.archivePaths path, scope.Claims tree beside)
    (home : ∀ archive ∈ policy.archivePaths path, ¬ tree.place archive <+: tree.workingDirectory) (name : String)
    (encode : Event → Bytes) :
    Alike scope tree twin (fun sink other after afterTwin => Pairs scope (sink, after) (other, afterTwin))
      (openAt name path policy encode tree) (openAt name path policy encode twin) := by
  rw [openAt_eq]
  refine (Files.touch_alike twins (claims path (List.mem_cons_self ..))).bind_steps ?_
  rintro ⟨handle, _⟩ ⟨other, size⟩ after afterTwin opened _ ⟨meets, rfl⟩ steps
  have hosts : scope.Hosts policy tree path := ⟨Files.isFilePath_of_touch twins.sound opened, claims, home⟩
  exact .refl_ok steps.twins ⟨⟨steps.twins, hosts.congr steps.changes.home⟩, rfl, .some meets⟩

end RotatingSink

end KeyedLog
