import KeyedLog.Proofs.Files.Appending
import KeyedLog.Proofs.Router.Independence
import Mathlib.Data.List.Forall2

/-!
The files of jobs. Once an event with a key was delivered the key names the same file for ever, and every file holds
what it held at first and then the delivered events whose keys name it, in their order.
-/

namespace KeyedLog

open FileTree

namespace FileSink

/-- The file that a key names at the moment, if it names one. -/
def jobFile? (files : FileTree) (key fileName : String) : Option FileId :=
  match files.find (jobLogPath files key fileName) with
  | .ok (_, .file id _) => some id
  | _ => none

structure Serves (fileName key : String) (number : FileId) (files : FileTree) (sink : FileSink) : Prop where
  name : sink.name = key ++ "-local"
  path : sink.path = jobLogPath files key fileName
  file : jobFile? files key fileName = some number

/-- The sink writes to the file that its key names. -/
structure IsOpen (fileName key : String) (encode : Event → Bytes) (number : FileId) (files : FileTree)
    (sink : FileSink) : Prop where
  serves : sink.Serves fileName key number files
  handle : sink.handle = some ⟨number⟩
  encoder : sink.encode = encode

variable {fileName key : String} {encode : Event → Bytes} {number : FileId} {before after files : FileTree}
  {additions : Additions} {sink : FileSink}

theorem jobFile?_eq_some :
    jobFile? files key fileName = some number ↔
      ∃ location content, files.find (jobLogPath files key fileName) = .ok (location, .file number content) := by
  unfold jobFile?
  constructor
  · intro named
    split at named
    next location id content found =>
      cases named
      exact ⟨location, content, found⟩
    next => simp at named
  · rintro ⟨location, content, found⟩
    simp [found]

theorem jobLogPath_eq {location : Location} {content : Bytes}
    (kept : before.isDirectory key = true → after.isDirectory key = true)
    (found : after.find (jobLogPath before key fileName) = .ok (location, .file number content)) :
    jobLogPath after key fileName = jobLogPath before key fileName := by
  unfold jobLogPath at found ⊢
  cases there : before.isDirectory key with
  | true => rw [kept there]
  | false =>
      simp only [there, Bool.false_eq_true, if_false] at found ⊢
      have file : after.isDirectory key = false := by simp [FileTree.isDirectory, found]
      simp [file]

theorem jobFile?_appends (appends : Appends additions before after) (named : jobFile? before key fileName = some number) :
    jobLogPath after key fileName = jobLogPath before key fileName ∧ jobFile? after key fileName = some number := by
  obtain ⟨location, content, found⟩ := jobFile?_eq_some.mp named
  have again := appends.find found
  have path := jobLogPath_eq appends.isDirectory again
  refine ⟨path, jobFile?_eq_some.mpr ⟨location, content ++ additions.ofFile number, ?_⟩⟩
  rw [path]
  exact again

theorem jobFile?_lt (fresh : files.IsFresh) (named : jobFile? files key fileName = some number) :
    number < files.nextId := by
  obtain ⟨location, content, found⟩ := jobFile?_eq_some.mp named
  exact fresh number location content (node?_of_find found)

theorem Serves.appends (serves : sink.Serves fileName key number before) (appends : Appends additions before after) :
    sink.Serves fileName key number after := by
  obtain ⟨path, file⟩ := jobFile?_appends appends serves.file
  exact ⟨serves.name, serves.path.trans path.symm, file⟩

theorem Serves.stop (serves : sink.Serves fileName key number files) : sink.stop.Serves fileName key number files := by
  unfold FileSink.stop
  split
  · exact serves
  · exact ⟨serves.name, serves.path, serves.file⟩

theorem IsOpen.appends (isOpen : sink.IsOpen fileName key encode number before)
    (appends : Appends additions before after) : sink.IsOpen fileName key encode number after :=
  ⟨isOpen.serves.appends appends, isOpen.handle, isOpen.encoder⟩

theorem openAt_appends (name path : String) (encode : Event → Bytes) (files : FileTree) :
    Appends [] files (stateAfter (openAt name path encode) files) := by
  unfold openAt
  exact stateAfter_bind (Appends []) Appends.trans (Files.touch_appends path files) fun _ after _ => Appends.refl after

theorem openAt_isOpen
    (opened : openAt (key ++ "-local") (jobLogPath before key fileName) encode before = .ok sink after) :
    ∃ number, sink.IsOpen fileName key encode number after := by
  obtain ⟨handle, size, touched, rfl⟩ := openAt_eq_ok.mp opened
  have appends := Files.touch_appends (jobLogPath before key fileName) before
  rw [stateAfter_of_ok touched] at appends
  obtain ⟨location, content, found⟩ := Files.touch_find touched
  have path := jobLogPath_eq appends.isDirectory found
  refine ⟨handle.id, ⟨rfl, path.symm, ?_⟩, rfl, rfl⟩
  rw [jobFile?_eq_some, path]
  exact ⟨location, content, found⟩

theorem IsOpen.write (isOpen : sink.IsOpen fileName key encode number files) (event : Event) :
    sink.write event files = .ok () (files.append number (encode event)) := by
  unfold FileSink.write
  rw [isOpen.handle, isOpen.encoder]
  rfl

end FileSink

namespace World

def HasJobSink (world : World) (fileName key : String) (encode : Event → Bytes) (number : FileId) (id : SinkId) : Prop :=
  ∃ sink, world.sinks[id]? = some (.file sink) ∧ sink.IsOpen fileName key encode number world.files

def ServesJobs (world : World) (fileName : String) (first : SinkId) : Prop :=
  ∀ id sink, first ≤ id → world.sinks[id]? = some sink →
    ∃ key number served, sink = .file served ∧ served.Serves fileName key number world.files

variable {fileName key : String} {encode : Event → Bytes} {number : FileId} {world : World} {files : FileTree}
  {additions : Additions} {id first : SinkId} {sink : FileSink}

theorem HasJobSink.setFiles (has : world.HasJobSink fileName key encode number id)
    (appends : world.files.Appends additions files) : (world.setFiles files).HasJobSink fileName key encode number id := by
  obtain ⟨sink, stands, isOpen⟩ := has
  exact ⟨sink, stands, isOpen.appends appends⟩

theorem ServesJobs.setFiles (serves : world.ServesJobs fileName first) (appends : world.files.Appends additions files) :
    (world.setFiles files).ServesJobs fileName first := by
  intro id sink later stands
  obtain ⟨key, number, served, same, serves⟩ := serves id sink later stands
  exact ⟨key, number, served, same, serves.appends appends⟩

theorem ServesJobs.addSink (serves : world.ServesJobs fileName first)
    (made : sink.Serves fileName key number world.files) : (world.addSink (.file sink)).2.ServesJobs fileName first := by
  intro id other later stands
  rw [World.addSink, List.getElem?_append] at stands
  split at stands
  · exact serves id other later stands
  · rw [List.getElem?_singleton] at stands
    split at stands
    · exact ⟨key, number, sink, (Option.some.inj stands).symm, made⟩
    · simp at stands

theorem ServesJobs.stop (serves : world.ServesJobs fileName first) (id : SinkId) :
    (world.stop id).ServesJobs fileName first := by
  intro other sink later stands
  rw [stop_files]
  by_cases same : id = other
  · subst same
    cases present : world.sinks[id]? with
    | none =>
        rw [World.stop, present] at stands
        exact serves id sink later stands
    | some old =>
        obtain ⟨key, number, served, rfl, serves⟩ := serves id old later present
        have stopped : (world.stop id).sinks[id]? = some (.file served.stop) := by
          rw [World.stop, present]
          exact setSink_same world present _
        rw [stopped] at stands
        cases stands
        exact ⟨key, number, served.stop, rfl, serves.stop⟩
  · rw [stop_other world same] at stands
    exact serves other sink later stands

theorem ServesJobs.stopEach (serves : world.ServesJobs fileName first) (entries : List Registration) :
    (Router.stopEach entries world).ServesJobs fileName first := by
  induction entries generalizing world with
  | nil => exact serves
  | cons entry rest ih => exact ih (serves.stop entry.sink)

end World

namespace Router

def isDelivered : Except RouteFault RouteOutcome → Bool
  | .ok .delivered => true
  | _ => false

def deliveredOf (events : List Event) (outcomes : List (Except RouteFault RouteOutcome)) : List Event :=
  ((events.zip outcomes).filter (isDelivered ·.2)).map (·.1)

def Adds (discriminator : Discriminator) (fileName : String) (encode : Event → Bytes) (files : FileTree) (event : Event)
    (addition : FileId × Bytes) : Prop :=
  FileSink.jobFile? files (discriminator.extract event) fileName = some addition.1 ∧ addition.2 = encode event

/-- Since the start of a router nothing has happened to files but what it has made of the events it has delivered. -/
structure Appending (discriminator : Discriminator) (fileName : String) (encode : Event → Bytes) (start : World)
    (delivered : List Event) (additions : Additions) (router : Router) (world : World) : Prop where
  reads : router.discriminator = discriminator
  factory : router.factory = .localJob fileName encode
  accepting : router.registry.closed = false
  appends : start.files.Appends additions world.files
  fresh : world.files.IsFresh
  adds : List.Forall₂ (Adds discriminator fileName encode world.files) delivered additions
  made : world.ServesJobs fileName start.sinks.length
  live : ∀ entry ∈ router.registry.entries, ∃ number, world.HasJobSink fileName entry.key encode number entry.sink
  apart : router.registry.entries.Pairwise Registration.IsApart

variable {discriminator : Discriminator} {fileName key : String} {encode : Event → Bytes} {start world : World}
  {delivered events : List Event} {additions more : Additions} {router : Router} {files : FileTree}

theorem Adds.appends {before after : FileTree} {event : Event} {addition : FileId × Bytes}
    (appends : before.Appends additions after) (adds : Adds discriminator fileName encode before event addition) :
    Adds discriminator fileName encode after event addition :=
  ⟨(FileSink.jobFile?_appends appends adds.1).2, adds.2⟩

theorem Appending.setFiles (appending : Appending discriminator fileName encode start delivered additions router world)
    (appends : world.files.Appends more files)
    (adds : List.Forall₂ (Adds discriminator fileName encode files) events more) :
    Appending discriminator fileName encode start (delivered ++ events) (additions ++ more) router
      (world.setFiles files) where
  reads := appending.reads
  factory := appending.factory
  accepting := appending.accepting
  appends := appending.appends.trans appends
  fresh := appends.isFresh appending.fresh
  adds := List.rel_append (appending.adds.imp fun _ _ => Adds.appends appends) adds
  made := appending.made.setFiles appends
  live entry member := by
    obtain ⟨number, has⟩ := appending.live entry member
    exact ⟨number, has.setFiles appends⟩
  apart := appending.apart

theorem Appending.touch (appending : Appending discriminator fileName encode start delivered additions router world)
    (key : String) (now : Millis) :
    Appending discriminator fileName encode start delivered additions
      { router with registry := router.registry.touch key now } world :=
  { appending with
    live := by
      intro entry member
      obtain ⟨old, stands, sameKey, sameSink, -⟩ := Registry.mem_touch.mp member
      rw [sameKey, sameSink]
      exact appending.live old stands
    apart := Registry.apart_touch appending.apart key now }

theorem Appending.register (appending : Appending discriminator fileName encode start delivered additions router world)
    (missing : router.registry.find? key = none) {sink : FileSink} {number : FileId}
    (isOpen : sink.IsOpen fileName key encode number world.files) (now : Millis) :
    Appending discriminator fileName encode start delivered additions
      { router with registry := router.registry.register key world.sinks.length now }
      (world.addSink (.file sink)).2 := by
  have bound : ∀ entry ∈ router.registry.entries, entry.sink < world.sinks.length := by
    intro entry member
    obtain ⟨-, sink, stands, -⟩ := appending.live entry member
    exact (List.getElem?_eq_some_iff.mp stands).1
  refine { appending with made := appending.made.addSink isOpen.serves, live := ?_, apart := ?_ }
  · intro entry member
    rcases List.mem_append.mp member with old | new
    · obtain ⟨number, sink, stands, isOpen⟩ := appending.live entry old
      exact ⟨number, sink, (List.getElem?_append_left (bound entry old)).trans stands, isOpen⟩
    · rw [List.mem_singleton.mp new]
      exact ⟨number, sink, List.getElem?_concat_length .., isOpen⟩
  · refine List.pairwise_append.mpr ⟨appending.apart, List.pairwise_singleton .., ?_⟩
    intro entry old last new
    rw [List.mem_singleton.mp new]
    exact ⟨Registry.find?_none missing entry old, Nat.ne_of_lt (bound entry old)⟩

theorem Appending.resolve (appending : Appending discriminator fileName encode start delivered additions router world)
    (key : String) :
    Appending discriminator fileName encode start delivered additions (router.resolve key world).2.1
        (router.resolve key world).2.2 ∧
      ∀ id, (router.resolve key world).1 = .ok id →
        ∃ number, (router.resolve key world).2.2.HasJobSink fileName key encode number id := by
  cases found : router.registry.find? key with
  | some entry =>
      obtain ⟨member, named⟩ := Registry.find?_mem found
      rw [resolve_found appending.accepting found]
      refine ⟨appending.touch key world.instant, ?_⟩
      intro id same
      cases same
      exact named ▸ appending.live entry member
  | none =>
      have opening := FileSink.openAt_appends (key ++ "-local") (FileSink.jobLogPath world.files key fileName) encode
        world.files
      cases opened : FileSink.openAt (key ++ "-local") (FileSink.jobLogPath world.files key fileName) encode
          world.files with
      | error cause files =>
          rw [stateAfter_of_error opened] at opening
          have failed : Factory.create router.name key (router.factory, world) =
              (.error cause, router.factory, world.setFiles files) := by
            simp only [appending.factory, Factory.create, opened, Factory.adopt]
          have kept := appending.setFiles opening (List.Forall₂.nil)
          rw [List.append_nil, List.append_nil] at kept
          rw [resolve_failed appending.accepting found failed]
          exact ⟨kept, by simp⟩
      | ok sink files =>
          rw [stateAfter_of_ok opened] at opening
          have made : Factory.create router.name key (router.factory, world) =
              (.ok world.sinks.length, router.factory, ((world.setFiles files).addSink (.file sink)).2) := by
            simp only [appending.factory, Factory.create, opened, Factory.adopt]
            rfl
          have kept := appending.setFiles opening (List.Forall₂.nil)
          rw [List.append_nil, List.append_nil] at kept
          obtain ⟨number, isOpen⟩ := FileSink.openAt_isOpen opened
          rw [resolve_made appending.accepting found made]
          refine ⟨kept.register found isOpen world.instant, ?_⟩
          intro id same
          cases same
          exact ⟨number, sink, List.getElem?_concat_length .., isOpen⟩

theorem write_of_hasJobSink {number : FileId} {id : SinkId} (has : world.HasJobSink fileName key encode number id)
    (event : Event) : world.write id event = (.ok (), world.setFiles (world.files.append number (encode event))) := by
  obtain ⟨sink, stands, isOpen⟩ := has
  unfold World.write
  simp only [stands, isOpen.write event]

theorem Appending.route (appending : Appending discriminator fileName encode start delivered additions router world)
    (event : Event) :
    ∃ more, Appending discriminator fileName encode start (delivered ++ deliveredOf [event] [(router.route event world).1])
      (additions ++ more) (router.route event world).2.1 (router.route event world).2.2 := by
  cases passes : router.discriminator.passes event with
  | false =>
      rw [route_suppressed passes]
      exact ⟨[], by simpa [deliveredOf, isDelivered] using appending⟩
  | true =>
      obtain ⟨resolved, has⟩ := appending.resolve (router.discriminator.extract event)
      obtain ⟨⟨result, next, opened⟩, resolution⟩ :
        ∃ resolution, router.resolve (router.discriminator.extract event) world = resolution := ⟨_, rfl⟩
      rw [resolution] at resolved has
      cases result with
      | error fault =>
          rw [route_unresolved passes resolution]
          exact ⟨[], by simpa [deliveredOf, isDelivered] using resolved⟩
      | ok id =>
          obtain ⟨number, has⟩ := has id rfl
          simp only [route_resolved passes resolution, write_of_hasJobSink has event]
          obtain ⟨sink, stands, isOpen⟩ := has
          have named := isOpen.serves.file
          have appends := appends_append opened.files (FileSink.jobFile?_lt resolved.fresh named) (encode event)
          refine ⟨[(number, encode event)], resolved.setFiles appends (.cons ⟨?_, rfl⟩ .nil)⟩
          rw [← appending.reads]
          exact (FileSink.jobFile?_appends appends named).2

theorem Appending.reapAt (appending : Appending discriminator fileName encode start delivered additions router world)
    (now : Millis) :
    Appending discriminator fileName encode start delivered additions (router.reapAt now world).2.1
      (router.reapAt now world).2.2 := by
  rw [Router.reapAt, Registry.expire_eq]
  have files := files_stopEach (router.registry.entries.filter (router.registry.isExpired now router.idleTimeout)) world
  constructor
  case reads => exact appending.reads
  case factory => exact appending.factory
  case accepting => exact appending.accepting
  case appends =>
    exact files.symm ▸ appending.appends
  case fresh =>
    exact files.symm ▸ appending.fresh
  case adds =>
    exact files.symm ▸ appending.adds
  case made => exact appending.made.stopEach _
  case live =>
    intro entry member
    obtain ⟨present, kept⟩ := List.mem_filter.mp member
    obtain ⟨number, sink, stands, isOpen⟩ := appending.live entry present
    refine ⟨number, sink, ?_, files.symm ▸ isOpen⟩
    refine (sinks_stopEach ?_ world).trans stands
    intro other gone
    obtain ⟨there, late⟩ := List.mem_filter.mp gone
    refine (appending.apart.forall there present ?_).2
    rintro rfl
    simp [late] at kept
  case apart => exact appending.apart.sublist List.filter_sublist

theorem deliveredOf_append (first second : List Event) (one two : List (Except RouteFault RouteOutcome))
    (same : first.length = one.length) :
    deliveredOf (first ++ second) (one ++ two) = deliveredOf first one ++ deliveredOf second two := by
  rw [deliveredOf, List.zip_append same, List.filter_append, List.map_append]
  rfl

theorem Appending.useAll (appending : Appending discriminator fileName encode start delivered additions router world)
    (uses : List RouterUse) :
    (router.useAll world uses).1.length = (RouterUse.events uses).length ∧
      ∃ more, Appending discriminator fileName encode start
        (delivered ++ deliveredOf (RouterUse.events uses) (router.useAll world uses).1) (additions ++ more)
        (router.useAll world uses).2.1 (router.useAll world uses).2.2 := by
  induction uses generalizing delivered additions router world with
  | nil => exact ⟨rfl, [], by simpa [Router.useAll, deliveredOf, RouterUse.events] using appending⟩
  | cons first rest ih =>
      cases first with
      | reapAt now => exact ih (appending.reapAt now)
      | wait instant =>
          have kept : Appending discriminator fileName encode start delivered additions router { world with instant } :=
            ⟨appending.reads, appending.factory, appending.accepting, appending.appends, appending.fresh, appending.adds,
              appending.made, appending.live, appending.apart⟩
          exact ih kept
      | route event =>
          obtain ⟨more, kept⟩ := appending.route event
          obtain ⟨length, later, final⟩ := ih kept
          refine ⟨congrArg (· + 1) length, more ++ later, ?_⟩
          rw [List.append_assoc, List.append_assoc, ← deliveredOf_append _ _ _ _ rfl] at final
          exact final

theorem ofFile_of_adds (adds : List.Forall₂ (Adds discriminator fileName encode files) events additions) (id : FileId) :
    additions.ofFile id = (events.filter fun event =>
      FileSink.jobFile? files (discriminator.extract event) fileName = some id).flatMap encode := by
  induction adds with
  | nil => rfl
  | @cons event addition events additions first rest ih =>
      obtain ⟨number, bytes⟩ := addition
      obtain ⟨named, rfl⟩ : _ = some number ∧ bytes = encode event := first
      have split : Additions.ofFile ((number, encode event) :: additions) id =
          Additions.ofFile [(number, encode event)] id ++ Additions.ofFile additions id := Additions.ofFile_append [_] _ id
      rw [split, ih, Additions.ofFile_singleton]
      by_cases same : number = id <;> simp [named, same]

theorem jobFile?_of_adds (adds : List.Forall₂ (Adds discriminator fileName encode files) events additions) {event : Event}
    (member : event ∈ events) :
    ∃ id, FileSink.jobFile? files (discriminator.extract event) fileName = some id := by
  have both := adds.imp fun event addition first =>
    (⟨⟨addition.1, first.1⟩, first⟩ :
      (∃ id, FileSink.jobFile? files (discriminator.extract event) fileName = some id) ∧ _)
  exact ((List.forall₂_and_left events additions).mp both).1 event member

theorem useAll_append (router : Router) (world : World) (first second : List RouterUse) :
    router.useAll world (first ++ second) =
      ((router.useAll world first).1 ++
          ((router.useAll world first).2.1.useAll (router.useAll world first).2.2 second).1,
        ((router.useAll world first).2.1.useAll (router.useAll world first).2.2 second).2) := by
  induction first generalizing router world with
  | nil => rfl
  | cons action rest ih =>
      simp only [List.cons_append, Router.useAll, ih, List.append_assoc]

theorem appending_start (factory : router.factory = .localJob fileName encode) (accepting : router.registry.closed = false)
    (none : router.registry.entries = []) (fresh : world.files.IsFresh) :
    Appending router.discriminator fileName encode world [] [] router world where
  reads := rfl
  factory := factory
  accepting := accepting
  appends := Appends.refl world.files
  fresh := fresh
  adds := .nil
  made id sink later stands := by
    have bound := (List.getElem?_eq_some_iff.mp stands).1
    exact absurd bound (Nat.not_lt.mpr later)
  live entry member := by simp [none] at member
  apart := by simp [none]

theorem Appending.later (appending : Appending discriminator fileName encode start delivered additions router world)
    (uses : List RouterUse) : ∃ more, world.files.Appends more (router.useAll world uses).2.2.files := by
  -- The same router as if it had started here, with nothing delivered yet.
  have rebased : Appending discriminator fileName encode world [] [] router world :=
    { appending with
      appends := Appends.refl world.files
      adds := .nil
      made := fun id sink later stands =>
        absurd (List.getElem?_eq_some_iff.mp stands).1 (Nat.not_lt.mpr later) }
  obtain ⟨-, more, final⟩ := rebased.useAll uses
  exact ⟨_, final.appends⟩

end Router

/-- A new router for the files of jobs starts on files of any kind. Whatever events it then routes, and whenever sinks
are let go, each file holds what it held at first and then the delivered events whose keys name it, in their order;
every delivered event has a key that names a file, and whose path and file are the same ever after; nothing else
happens to what was there; and every sink that was made for a key has the path that the key has in the end. -/
theorem job_files_hold_delivered_events {router : Router} {world : World} {fileName : String} {encode : Event → Bytes}
    (uses : List RouterUse) (factory : router.factory = .localJob fileName encode) (unused : router.registry = {})
    (fresh : world.files.IsFresh) :
    ∃ outcomes last final,
      router.useAll world uses = (outcomes, last, final) ∧
      outcomes.length = (RouterUse.events uses).length ∧
      (∀ location id content, final.files.node? location = some (.file id content) →
        content = world.files.contentAt location ++
          ((Router.deliveredOf (RouterUse.events uses) outcomes).filter fun event =>
            FileSink.jobFile? final.files (router.discriminator.extract event) fileName = some id).flatMap encode) ∧
      (∀ earlier, earlier <+: uses → ∀ event ∈ Router.deliveredOf (RouterUse.events earlier) (router.useAll world earlier).1,
        ∃ id,
          FileSink.jobFile? (router.useAll world earlier).2.2.files (router.discriminator.extract event) fileName = some id ∧
          FileSink.jobFile? final.files (router.discriminator.extract event) fileName = some id ∧
          FileSink.jobLogPath final.files (router.discriminator.extract event) fileName =
            FileSink.jobLogPath (router.useAll world earlier).2.2.files (router.discriminator.extract event) fileName) ∧
      (∀ location, world.files.node? location = some .directory → final.files.node? location = some .directory) ∧
      (∀ location id content, world.files.node? location = some (.file id content) →
        ∃ more, final.files.node? location = some (.file id (content ++ more))) ∧
      ∀ id sink, world.sinks.length ≤ id → final.sinks[id]? = some sink →
        ∃ key made, sink = .file made ∧ made.name = key ++ "-local" ∧
          made.path = FileSink.jobLogPath final.files key fileName := by
  have begun := Router.appending_start factory (by rw [unused]) (by rw [unused]) fresh
  obtain ⟨length, additions, ended⟩ := begun.useAll uses
  refine ⟨_, _, _, rfl, length, ?_, ?_, ?_, ?_, ?_⟩
  · intro location id content stands
    rw [ended.appends.contentAt stands, Router.ofFile_of_adds ended.adds]
    rfl
  · rintro earlier ⟨later, rfl⟩ event member
    obtain ⟨-, added, middle⟩ := begun.useAll earlier
    obtain ⟨more, appends⟩ := middle.later later
    obtain ⟨id, named⟩ := Router.jobFile?_of_adds middle.adds member
    rw [Router.useAll_append]
    obtain ⟨path, file⟩ := FileSink.jobFile?_appends appends named
    exact ⟨id, named, file, path⟩
  · exact fun location stands => ended.appends.directory stands
  · exact fun location id content stands => ⟨_, ended.appends.file stands⟩
  · intro id sink later stands
    obtain ⟨key, number, made, same, serves⟩ := ended.made id sink later stands
    exact ⟨key, made, same, serves.name, serves.path⟩

theorem job_files_hold_delivered_events_shared :
    ∃ (router : Router) (world : World) (uses : List RouterUse) (outcomes : List (Except RouteFault RouteOutcome))
        (last : Router) (final : World),
      router.useAll world uses = (outcomes, last, final) ∧
      outcomes = [.ok .delivered, .ok .delivered,
        .error (.creation "local_job" "b.log/c" (.io "b.log" .alreadyExists)),
        .ok .delivered, .ok .delivered, .ok .suppressed] ∧
      world.files.contentAt ["home", "b.log"] = Utf8.encode "0 INFO  zero\n" ∧
      final.files.node? ["home", "b.log"] = some (.file 0 (Utf8.encode "0 INFO  zero\n2 INFO  two\n")) ∧
      final.files.node? ["home", "a", "job.log"] =
        some (.file 1 (Utf8.encode "1 INFO  one\n4 INFO  four\n5 INFO  five\n")) := by
  let router : Router :=
    { name := "local_job", discriminator := ⟨"job"⟩, factory := .localJob "job.log" Encoding.line.encode, idleTimeout := 10 }
  let files : FileTree :=
    { nodes := [(["home"], .directory), (["home", "a"], .directory),
        (["home", "b.log"], .file 0 (Utf8.encode "0 INFO  zero\n"))]
      nextId := 1, workingDirectory := ["home"] }
  let world : World := { uploads := { executor := .idle, work := { files, store := { backend := .memory {} } } } }
  let routed (time : UInt64) (text key : String) : RouterUse := .route ((Event.new time .info text).withEntry "job" key)
  let uses : List RouterUse :=
    [routed 1 "one" "a", routed 2 "two" "b.log", routed 3 "three" "b.log/c", .wait 20, .reapAt 30,
      routed 4 "four" "a/job.log", routed 5 "five" "a", routed 6 "six" " "]
  have fresh : world.files.IsFresh := isFresh_of_ids (show ∀ id ∈ files.ids, id < files.nextId by decide +kernel)
  obtain ⟨outcomes, last, final, run, -, contents, -, -, files, -⟩ :=
    @job_files_hold_delivered_events router world "job.log" Encoding.line.encode uses rfl rfl fresh
  have results : (router.useAll world uses).1 = [.ok .delivered, .ok .delivered,
      .error (.creation "local_job" "b.log/c" (.io "b.log" .alreadyExists)),
      .ok .delivered, .ok .delivered, .ok .suppressed] := by
    decide +kernel
  have made : ((router.useAll world uses).2.2.files.node? ["home", "a", "job.log"]).bind (·.id?) = some 1 := by
    decide +kernel
  have named : ∀ id, id = 0 ∨ id = 1 →
      ((Router.deliveredOf (RouterUse.events uses) (router.useAll world uses).1).filter fun event =>
        FileSink.jobFile? (router.useAll world uses).2.2.files (router.discriminator.extract event) "job.log" =
          some id).flatMap Encoding.line.encode =
        Utf8.encode (if id = 0 then "2 INFO  two\n" else "1 INFO  one\n4 INFO  four\n5 INFO  five\n") := by
    rintro id (rfl | rfl) <;> decide +kernel
  rw [run] at results made named
  refine ⟨router, world, uses, outcomes, last, final, run, results, rfl, ?_, ?_⟩
  · obtain ⟨more, stands⟩ := files ["home", "b.log"] 0 (Utf8.encode "0 INFO  zero\n") rfl
    rw [stands, contents _ _ _ stands, named 0 (.inl rfl)]
    decide +kernel
  · cases stands : final.files.node? ["home", "a", "job.log"] with
    | none => simp [stands] at made
    | some node =>
        cases node with
        | directory => simp [stands, FileNode.id?] at made
        | file id content =>
            obtain rfl : id = 1 := by simpa [stands, FileNode.id?] using made
            rw [contents _ _ _ stands, named 1 (.inr rfl)]
            decide +kernel

end KeyedLog
