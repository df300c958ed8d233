import KeyedLog.Proofs.Archive.Gzip
import KeyedLog.Proofs.Sink.Writing

/-!
Rotation as segmentation. However a sink is written to, stopped and opened again, its file holds the last segment of the
stream of what was written, and its archives hold the segments before it.
-/

namespace KeyedLog

open FileTree

inductive FileUse where
  | write (event : Event)
  | reopen

namespace FileUse

/-- What a use adds to the stream. -/
def added? (encode : Event → Bytes) : FileUse → Option Bytes
  | write event => some (encode event)
  | reopen => none

end FileUse

namespace RotatingSink

def reopen : Action Unit := do
  update stop
  let (sink, _) ← get
  let fresh ← onFiles (openAt sink.name sink.path sink.policy sink.encode)
  update fun _ => fresh

def use : FileUse → Action Unit
  | .write event => write event
  | .reopen => reopen

def useAll : List FileUse → Action Unit
  | [] => pure ()
  | first :: rest => do
    use first
    useAll rest

/-- A sink has written all segments up to here. -/
structure Follows (site : Site) (policy : RollingPolicy) (encode : Event → Bytes) (before : Nat → Option Bytes)
    (segments : Segments) (sink : RotatingSink) (tree : FileTree) : Prop where
  rules : sink.policy = policy
  encoder : sink.encode = encode
  holds : site.Holds policy.maxArchives tree segments.current (segments.slots before)
  serves : site.Serves sink tree segments.current
  room : segments.closed ≠ [] → site.HasRoom policy.maxArchives

variable {site : Site} {policy : RollingPolicy} {encode : Event → Bytes} {before : Nat → Option Bytes}
  {segments : Segments} {sink last : RotatingSink} {tree final : FileTree}

theorem openAt_of_holds (proper : site.IsProper)
    (holds : site.Holds policy.maxArchives tree segments.current (segments.slots before))
    (room : segments.closed ≠ [] → site.HasRoom policy.maxArchives) (name : String) (encode : Event → Bytes) :
    ∃ fresh, openAt name site.path policy encode tree = .ok fresh tree ∧
      Follows site policy encode before segments fresh tree := by
  obtain ⟨id, base⟩ := sight?_file holds.base
  have opened := Files.openForWriting_file holds.stands.names base
  have touched := (Files.touch_of_leads holds.stands.sound proper.parent holds.stands.leads).trans
    (Files.at_of_ok opened site.path)
  let fresh : RotatingSink :=
    { name, path := site.path, policy, encode, handle := some ⟨id⟩, size := segments.current.length }
  exact ⟨fresh, openAt_eq_ok.mpr ⟨_, _, touched, rfl⟩, rfl, rfl, holds, ⟨rfl, rfl, rfl, id, rfl, base⟩, room⟩

theorem Follows.write (proper : site.IsProper) (follows : Follows site policy encode before segments sink tree)
    {event : Event} (done : write event (sink, tree) = .ok () (last, final)) :
    Follows site policy encode before (segments.add policy.maxFileSize (encode event)) last final ∧
      site.Leaves policy.maxArchives tree final := by
  obtain ⟨rfl, rfl, holds, serves, room⟩ := follows
  have ending := fun ends => room_of_write proper holds serves done ends
  obtain ⟨size, handle, after, written, held, served, leaves⟩ := write_ok event proper holds serves ending
  cases done.symm.trans written
  refine ⟨⟨rfl, rfl, held, served, ?_⟩, leaves⟩
  intro some
  by_cases ends : segments.endsBefore sink.policy.maxFileSize (sink.encode event).length
  · exact ending ends
  · rw [Segments.add_of_not_ends ends] at some
    exact room some

theorem Follows.reopen (proper : site.IsProper) (follows : Follows site policy encode before segments sink tree) :
    ∃ fresh, reopen (sink, tree) = .ok () (fresh, tree) ∧
      Follows site policy encode before segments fresh tree := by
  obtain ⟨rfl, rfl, holds, serves, room⟩ := follows
  obtain ⟨fresh, opened, follows⟩ := openAt_of_holds proper holds room sink.name sink.encode
  have stopped : sink.stop = { sink with stopped := true, handle := none } := by
    rw [stop, serves.running]
    rfl
  refine ⟨fresh, ?_, follows⟩
  unfold RotatingSink.reopen
  have closed : update stop (sink, tree) = .ok () ({ sink with stopped := true, handle := none }, tree) :=
    congrArg (fun sink => EStateM.Result.ok () (sink, tree)) stopped
  rw [bind_of_ok closed, bind_get]
  dsimp only
  rw [serves.path, bind_of_ok (onFiles_of_ok opened _)]
  rfl

theorem Follows.use (proper : site.IsProper) (follows : Follows site policy encode before segments sink tree)
    {action : FileUse} (done : use action (sink, tree) = .ok () (last, final)) :
    Follows site policy encode before (segments.addAll policy.maxFileSize (action.added? encode).toList) last final ∧
      site.Leaves policy.maxArchives tree final := by
  cases action with
  | write event => exact follows.write proper done
  | reopen =>
      obtain ⟨fresh, opened, kept⟩ := follows.reopen proper
      cases done.symm.trans opened
      exact ⟨kept, Site.Leaves.refl ..⟩

theorem Follows.useAll (proper : site.IsProper) {uses : List FileUse}
    (follows : Follows site policy encode before segments sink tree)
    (done : useAll uses (sink, tree) = .ok () (last, final)) :
    Follows site policy encode before (segments.addAll policy.maxFileSize (uses.filterMap (·.added? encode)))
        last final ∧
      site.Leaves policy.maxArchives tree final := by
  induction uses generalizing segments sink tree with
  | nil =>
      cases done
      exact ⟨follows, Site.Leaves.refl ..⟩
  | cons action rest ih =>
      rw [RotatingSink.useAll] at done
      cases first : RotatingSink.use action (sink, tree) with
      | error fault state =>
          rw [bind_of_error first] at done
          simp at done
      | ok value state =>
          obtain ⟨next, between⟩ := state
          rw [bind_of_ok first] at done
          obtain ⟨kept, leaves⟩ := follows.use proper first
          obtain ⟨followed, later⟩ := ih kept done
          refine ⟨?_, leaves.trans later⟩
          have entries : segments.addAll policy.maxFileSize ((action :: rest).filterMap (·.added? encode)) =
              (segments.addAll policy.maxFileSize (action.added? encode).toList).addAll policy.maxFileSize
                (rest.filterMap (·.added? encode)) := by
            cases action <;> rfl
          rw [entries]
          exact followed

/-- What an archive slot holds, unless it holds a directory. -/
def contents (site : Site) (tree : FileTree) (number : Nat) : Option Bytes :=
  match tree.sight? (site.slot number) with
  | some (.file content) => some content
  | _ => none

theorem sight?_slot {number : Nat} (filed : tree.sight? (site.slot number) ≠ some .directory) :
    tree.sight? (site.slot number) = (contents site tree number).map .file := by
  unfold contents
  cases seen : tree.sight? (site.slot number) with
  | none => rfl
  | some sight =>
      cases sight with
      | directory => exact absurd seen filed
      | file content => rfl

theorem follows_of_openAt {name path : String} {files start : FileTree} (sound : files.IsSound)
    (opened : openAt name path policy encode files = .ok sink start)
    (filed : ∀ number, 1 ≤ number → number ≤ policy.maxArchives →
      start.seen? (Archive.slotPath path number) ≠ some .directory)
    (clear : start.seen? (Archive.stagingPath path) = none) :
    ∃ site content, site.path = path ∧ site.IsProper ∧ Files.Opens files start site.base ∧
      Follows site policy encode (contents site start) ⟨[], content⟩ sink start := by
  obtain ⟨handle, length, touched, rfl⟩ := openAt_eq_ok.mp opened
  obtain ⟨soundStart, directory, fileName, content, names, base, size, opens⟩ := Files.touch_ok sound touched
  obtain ⟨site, rfl, rfl, nameChars, proper, stands⟩ := Site.exists_of_names soundStart names
  have place : site.base = site.directory ++ [fileName] := by rw [Site.base, nameChars, String.ofList_toList]
  rw [← place] at base opens
  refine ⟨site, content, rfl, proper, opens, rfl, rfl, ⟨stands, ?_, ?_, ?_⟩, ⟨rfl, rfl, size, _, rfl, base⟩, ?_⟩
  · rw [sight?, base]
    rfl
  · intro number positive bound fits
    rw [Segments.slots_fresh _ _ positive]
    apply sight?_slot
    have seen := filed number positive bound
    rwa [proper.slots, stands.seen?_of_fits (Archive.isName_slotName proper.named number) fits] at seen
  · intro fits
    rw [proper.staging, stands.seen?_of_fits (Archive.isName_stagingName proper.named) fits] at clear
    exact Option.map_eq_none_iff.mp clear
  · exact fun some => absurd rfl some

theorem slot_not_owned {number : Nat} (above : policy.maxArchives < number) :
    ¬ site.Owns policy.maxArchives (site.slot number) := by
  rintro (base | ⟨-, staging⟩ | ⟨other, -, bound, same⟩)
  · exact site.slot_ne_base number base
  · exact site.staging_ne_slot number staging.symm
  · have equal := site.slot_injective same
    omega

theorem Follows.seen_base (follows : Follows site policy encode before segments sink tree) :
    tree.seen? site.path = some (.file segments.current) :=
  follows.holds.stands.names.seen?.trans follows.holds.base

theorem Follows.seen_closed (proper : site.IsProper) (follows : Follows site policy encode before segments sink tree)
    {number : Nat} (positive : 1 ≤ number) (bound : number ≤ policy.maxArchives)
    (closed : number ≤ segments.closed.length) :
    ∃ archive, tree.seen? (Archive.slotPath site.path number) = some (.file archive) ∧
      Gzip.decode? archive = segments.closed[number - 1]? := by
  have some : segments.closed ≠ [] := by
    intro none
    rw [none, List.length_nil] at closed
    omega
  have fits := ((follows.room some) (by omega)).2.mono (Archive.length_slotName_mono site.name bound)
  have held := follows.holds.slots number positive bound fits
  have within : number - 1 < segments.closed.length := by omega
  rw [Segments.slots, if_pos closed, List.getElem?_eq_getElem within] at held
  refine ⟨Gzip.encode segments.closed[number - 1], ?_, ?_⟩
  · rw [proper.slots, follows.holds.stands.seen?_of_fits (Archive.isName_slotName proper.named number) fits]
    exact held
  · rw [Gzip.decode?_encode, List.getElem?_eq_getElem within]

theorem Follows.seen_moved {start : FileTree} (proper : site.IsProper) (begun : site.IsIn start)
    (filed : ∀ number, 1 ≤ number → number ≤ policy.maxArchives →
      start.seen? (Archive.slotPath site.path number) ≠ some .directory)
    (follows : Follows site policy encode (contents site start) segments sink tree) {number : Nat}
    (bound : number ≤ policy.maxArchives) (older : segments.closed.length < number) :
    tree.seen? (Archive.slotPath site.path number) =
      start.seen? (Archive.slotPath site.path (number - segments.closed.length)) := by
  have named := Archive.isName_slotName proper.named
  by_cases fits : site.Fits (Archive.slotName site.name number)
  · have lower := fits.mono (Archive.length_slotName_mono site.name (Nat.sub_le number segments.closed.length))
    have held := follows.holds.slots number (by omega) bound fits
    rw [Segments.slots, if_neg (by omega)] at held
    have seen := filed (number - segments.closed.length) (by omega) (by omega)
    rw [proper.slots, begun.seen?_of_fits (named _) lower] at seen
    rw [proper.slots, proper.slots, follows.holds.stands.seen?_of_fits (named _) fits,
      begun.seen?_of_fits (named _) lower]
    exact held.trans (sight?_slot seen).symm
  · have none : segments.closed = [] := by
      by_contra some
      exact fits (((follows.room some) (by omega)).2.mono (Archive.length_slotName_mono site.name bound))
    rw [none, List.length_nil, Nat.sub_zero, proper.slots, follows.holds.stands.seen?_of_large (named _) fits,
      begun.seen?_of_large (named _) fits]

theorem Follows.seen_above {start : FileTree} (proper : site.IsProper) (begun : site.IsIn start)
    (follows : Follows site policy encode before segments sink tree)
    (leaves : site.Leaves policy.maxArchives start tree) {number : Nat} (above : policy.maxArchives < number) :
    tree.seen? (Archive.slotPath site.path number) = start.seen? (Archive.slotPath site.path number) := by
  have named := Archive.isName_slotName proper.named number
  rw [proper.slots]
  by_cases fits : site.Fits (Archive.slotName site.name number)
  · rw [follows.holds.stands.seen?_of_fits named fits, begun.seen?_of_fits named fits]
    exact congrArg (Option.map FileNode.sight) (leaves.others _ (slot_not_owned above))
  · rw [follows.holds.stands.seen?_of_large named fits, begun.seen?_of_large named fits]

theorem Follows.seen_staging (proper : site.IsProper) (follows : Follows site policy encode before segments sink tree) :
    tree.seen? (Archive.stagingPath site.path) = none := by
  have named := Archive.isName_stagingName proper.named
  rw [proper.staging]
  by_cases fits : site.Fits (Archive.stagingName site.name)
  · rw [follows.holds.stands.seen?_of_fits named fits]
    exact congrArg (Option.map FileNode.sight) (follows.holds.staging fits)
  · exact follows.holds.stands.seen?_of_large named fits

end RotatingSink

/-- A sink that is opened where files may stand in the archive slots, and then written to, stopped and opened again
without a fault, cuts the stream of the content it found and of all entries into segments. Its file is the last segment
and its size is known; the slots hold the segments before it, the newest first, and then what they held at the start;
no slot above the last is touched and no staging file is left. Opening makes at most an empty file. -/
theorem rotation_refines_segmentation {name path : String} {policy : RollingPolicy} {encode : Event → Bytes}
    {files start final : FileTree} {sink last : RotatingSink} {uses : List FileUse} (sound : files.IsSound)
    (opened : RotatingSink.openAt name path policy encode files = .ok sink start)
    (filed : ∀ number, 1 ≤ number → number ≤ policy.maxArchives →
      start.seen? (Archive.slotPath path number) ≠ some .directory)
    (clear : start.seen? (Archive.stagingPath path) = none)
    (run : RotatingSink.useAll uses (sink, start) = .ok () (last, final)) :
    ∃ base content segments, Files.Opens files start base ∧
      (∃ id, start.find path = .ok (base, .file id content)) ∧
      segments = Segments.addAll policy.maxFileSize ⟨[], content⟩ (uses.filterMap (·.added? encode)) ∧
      segments.stream = content ++ (uses.filterMap (·.added? encode)).flatten ∧
      final.seen? path = some (.file segments.current) ∧
      last.size = segments.current.length ∧
      (∀ number, 1 ≤ number → number ≤ policy.maxArchives → number ≤ segments.closed.length →
        ∃ archive, final.seen? (Archive.slotPath path number) = some (.file archive) ∧
          Gzip.decode? archive = segments.closed[number - 1]?) ∧
      (∀ number, number ≤ policy.maxArchives → segments.closed.length < number →
        final.seen? (Archive.slotPath path number) =
          start.seen? (Archive.slotPath path (number - segments.closed.length))) ∧
      (∀ number, policy.maxArchives < number →
        final.seen? (Archive.slotPath path number) = start.seen? (Archive.slotPath path number)) ∧
      final.seen? (Archive.stagingPath path) = none ∧
      (∀ entry, (uses.filterMap (·.added? encode)).getLast? = some entry →
        policy.maxFileSize < segments.current.length → segments.current = entry) := by
  obtain ⟨site, content, rfl, proper, opens, begun⟩ := RotatingSink.follows_of_openAt sound opened filed clear
  obtain ⟨follows, leaves⟩ := begun.useAll proper run
  obtain ⟨id, -, base⟩ := begun.serves.handle
  have stands := begun.holds.stands
  have found : start.find site.path = .ok (site.base, .file id content) := by
    rw [stands.names.find, show site.directory ++ [String.ofList site.name] = site.base from rfl, base]
  refine ⟨site.base, content, _, opens, ⟨id, found⟩, rfl, ?_, follows.seen_base, follows.serves.size, ?_, ?_, ?_, ?_, ?_⟩
  · exact Segments.stream_addAll policy.maxFileSize ⟨[], content⟩ _
  · exact fun number => follows.seen_closed proper
  · exact fun number => follows.seen_moved proper stands filed
  · exact fun number => follows.seen_above proper stands leaves
  · exact follows.seen_staging proper
  · exact fun entry ending large => Segments.addAll_oversized ending large

theorem rotation_refines_segmentation_twice :
    ∃ (files start final : FileTree) (sink last : RotatingSink) (uses : List FileUse), files.IsSound ∧
      RotatingSink.openAt "app" "app.log" ⟨5, 2⟩ Encoding.line.encode files = .ok sink start ∧
      RotatingSink.useAll uses (sink, start) = .ok () (last, final) ∧
      (∃ archive, final.seen? "app.2.log.gz" = some (.file archive) ∧
        Gzip.decode? archive = some (Utf8.encode "1 INFO  one\n")) ∧
      final.seen? "app.log" = some (.file (Utf8.encode "3 INFO  three\n")) := by
  let start : FileTree :=
    { nodes := [(["home"], .directory), (["home", "app.log"], .file 0 [])], nextId := 1, workingDirectory := ["home"] }
  let sink : RotatingSink :=
    { name := "app", path := "app.log", policy := ⟨5, 2⟩, encode := Encoding.line.encode, handle := some ⟨0⟩, size := 0 }
  let uses : List FileUse :=
    [.write (.new 1 .info "one"), .reopen, .write (.new 2 .info "two"), .write (.new 3 .info "three")]
  have opened : RotatingSink.openAt "app" "app.log" ⟨5, 2⟩ Encoding.line.encode (.empty ["home"]) =
      .ok sink start := rfl
  have runs : (match RotatingSink.useAll uses (sink, start) with
      | .ok .. => true
      | .error .. => false) = true := by decide +kernel
  obtain ⟨last, final, run⟩ : ∃ last final, RotatingSink.useAll uses (sink, start) = .ok () (last, final) := by
    cases result : RotatingSink.useAll uses (sink, start) with
    | ok value state => exact ⟨state.1, state.2, rfl⟩
    | error fault state => simp [result] at runs
  have filed : ∀ number, 1 ≤ number → number ≤ 2 →
      start.seen? (Archive.slotPath "app.log" number) ≠ some .directory := by
    intro number positive bound
    have cases : number = 1 ∨ number = 2 := by omega
    rcases cases with rfl | rfl <;> decide +kernel
  obtain ⟨base, content, segments, -, ⟨id, found⟩, cut, -, current, -, slots, -⟩ :=
    rotation_refines_segmentation (isSound_empty ["home"]) opened filed rfl run
  have known : start.find "app.log" = .ok (["home", "app.log"], .file 0 []) := rfl
  rw [known] at found
  cases found
  have shape : segments = ⟨[Utf8.encode "2 INFO  two\n", Utf8.encode "1 INFO  one\n"], Utf8.encode "3 INFO  three\n"⟩ := by
    rw [cut]
    decide +kernel
  subst shape
  exact ⟨_, start, final, sink, last, _, isSound_empty ["home"], opened, run,
    slots 2 (by decide) (by decide) (by decide), current⟩

end KeyedLog
