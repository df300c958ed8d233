import KeyedLog.Proofs.Sink.Attempts
import KeyedLog.Proofs.Sink.Contract

/-!
Sinks whose file rotates, in use. What they have accepted is in their file and its archives in its order, the oldest archive
first, but for what was evicted by later rotations.
-/

namespace KeyedLog

/-- A sink whose file rotates with all files, and what has been seen of it. -/
structure RotatingUse where
  sink : RotatingSink
  files : FileTree
  /-- How many rotations have given something up, whether they were completed or not. -/
  turns : Nat := 0
  accepted : List (Nat × Event) := []

namespace RotatingSink

variable {site : Site} {origin : FileTree} {model sink : RotatingSink} {accepted : List (Nat × Event)} {turns : Nat}
  {home : Location} {tree : FileTree}

theorem write_of_stopped (stopped : sink.stopped = true) (event : Event) (files : FileTree) :
    write event (sink, files) = .error (.stopped sink.name) (sink, files) := by
  unfold write
  rw [bind_get]
  dsimp only
  rw [stopped]
  rfl

theorem Kept.stop (kept : Kept site model home accepted turns (sink, tree)) :
    Kept site { model with stopped := true } home accepted turns
      ({ sink with stopped := true, handle := none }, tree) := by
  obtain ⟨evicted, shelves, bears, shelved, -⟩ := kept
  refine ⟨evicted, shelves, ⟨?_, bears.home, bears.numbered, nofun, bears.fits, bears.shelved⟩, shelved, trivial⟩
  have same := bears.sink
  dsimp only at same ⊢
  rw [same]

end RotatingSink

namespace RotatingUse

open RotatingSink

def turnsWith (use : RotatingUse) (event : Event) : Nat :=
  use.turns + (!use.sink.stopped && use.sink.evicts event use.files).toNat

/-- How calls end. An attempt may break off in any of its steps, in the middle of a rotation, too. What it leaves behind then
takes nothing out of the file and the archives. -/
inductive Ends : SinkCall → RotatingUse → Except SinkFault Unit → RotatingUse → Prop where
  | written (use : RotatingUse) (event : Event) {sink : RotatingSink} {files : FileTree}
      (done : write event (use.sink, use.files) = .ok () (sink, files)) :
      Ends (.write event) use (.ok ())
        { sink, files, turns := use.turnsWith event, accepted := use.accepted ++ [(use.turnsWith event, event)] }
  | refused (use : RotatingUse) (event : Event) {sink : RotatingSink} {files : FileTree} {fault : SinkFault}
      (failed : write event (use.sink, use.files) = .error fault (sink, files)) :
      Ends (.write event) use (.error fault) { use with sink, files, turns := use.turnsWith event }
  | broken (use : RotatingUse) (event : Event) (count : Nat) {sink : RotatingSink} {files : FileTree}
      (running : use.sink.stopped = false)
      (breaks : Breaks (FileTree.Retains use.sink.path (use.sink.policy.slotPaths use.sink.path)) (use.sink.steps event)
        count (use.sink, use.files) (sink, files)) (path : String) (cause : IoFault) :
      Ends (.write event) use (.error (.io path cause))
        { use with sink, files, turns := use.turns + (use.sink.evictsWithin event count).toNat }
  | flushed (use : RotatingUse) (answer : Except SinkFault Unit) : Ends .flush use answer use
  | stopped (use : RotatingUse) : Ends .stop use (.ok ()) { use with sink := use.sink.stop }

def usage : SinkUsage RotatingUse where
  Ends := Ends
  Meanwhile before after := ∃ files, after = { before with files } ∧
    before.files.Retains before.sink.path (before.sink.policy.slotPaths before.sink.path) files
  isStopped use := use.sink.stopped

def shelfPath (path : String) : (shelf : Nat) → String
  | 0 => path
  | slot + 1 => Archive.slotPath path (slot + 1)

/-- The events are in the file and the archives, compressed in the latter, but for those after which more rotations came than
archives are kept. Rotations that failed before they gave anything up do not count. -/
def Stored (path : String) (policy : RollingPolicy) (encode : Event → Bytes) (events : List Event) (use : RotatingUse) :
    Prop :=
  use.accepted.map (·.2) = events ∧ ∃ (evicted : List (Nat × Event)) (shelves : Shelves),
    use.accepted = evicted ++ shelves.stacked (policy.maxArchives + 1) ∧
    (∀ entry ∈ evicted, entry.1 + policy.maxArchives < use.turns) ∧
    ∀ shelf ≤ policy.maxArchives, shelves shelf ≠ [] → ∃ id content,
      use.files.node? (use.files.place (shelfPath path shelf)) = some (.file id (Site.pack shelf content)) ∧
      Laid ((shelves shelf).map fun entry => encode entry.2) content

def Closes (before after : RotatingUse) : Prop :=
  after.sink.handle = none ∧ after.files = before.files ∧ after.accepted = before.accepted

def Keeps (site : Site) (model : RotatingSink) (home : Location) (events : List Event) (use : RotatingUse) : Prop :=
  use.accepted.map (·.2) = events ∧
    Kept site { model with stopped := use.sink.stopped } home use.accepted use.turns (use.sink, use.files)

variable {site : Site} {origin : FileTree} {model sink : RotatingSink} {events : List Event} {use : RotatingUse}
  {event : Event} {files : FileTree}

theorem turnsWith_of_stopped (stopped : use.sink.stopped = true) (event : Event) : use.turnsWith event = use.turns := by
  rw [turnsWith, stopped]
  rfl

theorem turnsWith_of_running (running : use.sink.stopped = false) (event : Event) :
    use.turnsWith event = use.turns + (use.sink.evicts event use.files).toNat := by
  rw [turnsWith, running]
  rfl

theorem keeps_openAt {name path : String} {policy : RollingPolicy} {encode : Event → Bytes} {start : FileTree}
    (sound : files.IsSound) (numbered : files.IsNumbered)
    (opened : openAt name path policy encode files = .ok sink start) :
    ∃ site : Site, site.path = path ∧ site.IsProper ∧ site.IsIn start ∧ sink.stopped = false ∧
      Keeps site { name, path, policy, encode, handle := none, size := 0 } start.workingDirectory []
        { sink, files := start } := by
  obtain ⟨site, rfl, proper, stands, home, -⟩ := edits_of_openAt sound opened
  have guards : FileTree.Guards FileTree.Anywhere files (stateAfter (Files.touch site.path) files) :=
    Files.touch_guards site.path files
  obtain ⟨held, size, touched, rfl⟩ := openAt_eq_ok.mp opened
  rw [stateAfter_of_ok touched] at guards
  obtain ⟨content, there⟩ := Files.touch_stands touched
  rw [← FileTree.place_congr home site.path, stands.names.place] at there
  refine ⟨site, rfl, proper, stands, rfl, rfl, [], fun _ => [], ⟨rfl, rfl, guards.numbered numbered,
    fun handle same => ?_, fun _ _ _ some => absurd rfl some, fun _ _ some => absurd rfl some⟩, Shelved.empty _, trivial⟩
  cases same
  exact ⟨content, there⟩

theorem Keeps.stored (stands : site.IsIn origin) (proper : site.IsProper)
    (keeps : Keeps site model origin.workingDirectory events use) :
    Stored site.path model.policy model.encode events use := by
  obtain ⟨same, evicted, shelves, bears, shelved, -⟩ := keeps
  refine ⟨same, evicted, shelves, shelved.kept, shelved.old, fun shelf bound some => ?_⟩
  obtain ⟨id, content, there, laid⟩ := bears.shelved shelf bound some
  have places := stands.place_spot proper bears.home
  cases shelf with
  | zero => exact ⟨id, content, (congrArg use.files.node? (places 0).1).trans there, laid⟩
  | succ slot => exact ⟨id, content, (congrArg use.files.node? (places (slot + 1)).2.1).trans there, laid⟩

theorem keeps_of_kept (model : RotatingSink) {home : Location} {accepted : List (Nat × Event)} {turns : Nat}
    (same : accepted.map (·.2) = events)
    (kept : Kept site { model with stopped := false } home accepted turns (sink, files)) :
    Keeps site model home events { sink, files, turns, accepted } ∧ sink.stopped = false := by
  have running : sink.stopped = false := congrArg (·.stopped) kept.model_eq
  refine ⟨⟨same, ?_⟩, running⟩
  dsimp only
  rw [running]
  exact kept

section Calls

variable (stands : site.IsIn origin) (proper : site.IsProper) (path : model.path = site.path)

include stands proper path

theorem Keeps.attempt (keeps : Keeps site model origin.workingDirectory events use) (running : use.sink.stopped = false)
    (event : Event) :
    (∀ final, write event (use.sink, use.files) = .ok () final →
      Kept site { model with stopped := false } origin.workingDirectory
        (use.accepted ++ [(use.turnsWith event, event)]) (use.turnsWith event) final) ∧
    (∀ fault final, write event (use.sink, use.files) = .error fault final →
      Kept site { model with stopped := false } origin.workingDirectory use.accepted (use.turnsWith event) final) ∧
    ∀ count final, Breaks (Harmless site model) (use.sink.steps event) count (use.sink, use.files) final →
      Kept site { model with stopped := false } origin.workingDirectory use.accepted
        (use.turns + (use.sink.evictsWithin event count).toNat) final := by
  have kept := keeps.2
  rw [running] at kept
  rw [write_eq_perform running, turnsWith_of_running running]
  exact attempt_outcome _ _ stands proper kept path event

theorem isLawful : usage.IsLawful model.name (Keeps site model origin.workingDirectory) Closes where
  answers call use := by
    cases call with
    | write event =>
        cases result : write event (use.sink, use.files) with
        | ok value after => exact ⟨_, _, .written use event result⟩
        | error fault after => exact ⟨_, _, .refused use event result⟩
    | flush => exact ⟨_, _, .flushed use (.ok ())⟩
    | stop => exact ⟨_, _, .stopped use⟩
  meanwhile := by
    rintro events use _ ⟨same, kept⟩ ⟨files, rfl, retains⟩
    rw [kept.model_eq] at retains
    dsimp only at retains
    rw [path] at retains
    exact ⟨⟨same, kept.retains stands proper retains⟩, rfl⟩
  accepts := by
    rintro events event use after keeps ends
    cases ends with
    | written _ _ done =>
        cases stopped : use.sink.stopped with
        | true => cases (write_of_stopped stopped event use.files).symm.trans done
        | false =>
            have same : (use.accepted ++ [(use.turnsWith event, event)]).map (·.2) = events ++ [event] := by
              rw [List.map_append, keeps.1]
              rfl
            obtain ⟨kept, still⟩ := keeps_of_kept model same ((keeps.attempt stands proper path stopped event).1 _ done)
            exact ⟨kept, stopped, still⟩
  refuses := by
    rintro events event fault use after keeps ends
    have name : use.sink.name = model.name := congrArg (·.name) keeps.2.model_eq
    cases ends with
    | refused _ _ failed =>
        cases stopped : use.sink.stopped with
        | true =>
            cases (write_of_stopped stopped event use.files).symm.trans failed
            rw [turnsWith_of_stopped stopped]
            exact ⟨keeps, rfl, fun _ => ⟨congrArg SinkFault.stopped name, rfl⟩⟩
        | false =>
            obtain ⟨kept, still⟩ := keeps_of_kept model keeps.1
              ((keeps.attempt stands proper path stopped event).2.1 _ _ failed)
            exact ⟨kept, still.trans stopped.symm, fun now => nomatch stopped.symm.trans now⟩
    | broken _ _ _ running breaks =>
        rw [show use.sink.path = site.path from (congrArg (·.path) keeps.2.model_eq).trans path,
          show use.sink.policy = model.policy from congrArg (·.policy) keeps.2.model_eq] at breaks
        obtain ⟨kept, still⟩ := keeps_of_kept model keeps.1
          ((keeps.attempt stands proper path running event).2.2 _ _ breaks)
        exact ⟨kept, still.trans running.symm, fun now => nomatch running.symm.trans now⟩
  flushes := by
    rintro events answer use after keeps ends
    cases ends
    exact ⟨keeps, rfl⟩
  stops := by
    rintro events answer use after keeps ends
    cases ends
    cases stopped : use.sink.stopped with
    | true =>
        have idle : use.sink.stop = use.sink := by rw [stop, if_pos stopped]
        rw [idle]
        exact ⟨keeps, stopped, fun _ => rfl, fun running => nomatch stopped.symm.trans running⟩
    | false =>
        have closed : use.sink.stop = { use.sink with stopped := true, handle := none } := by
          rw [stop, stopped]
          rfl
        rw [closed]
        exact ⟨⟨keeps.1, keeps.2.stop⟩, rfl, fun now => (nomatch stopped.symm.trans now), fun _ => ⟨rfl, rfl, rfl⟩⟩

end Calls

end RotatingUse

end KeyedLog
