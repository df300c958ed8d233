import KeyedLog.Proofs.Router.KeyFiles
import KeyedLog.Proofs.World
import KeyedLog.Router

/-!
Keys do not interfere. Whatever else a router does, the directory of a key holds what one sink would leave there that
is written to with the events of this key alone.
-/

namespace KeyedLog

open FileTree

inductive RouterUse where
  | route (event : Event)
  | reapAt (now : Millis)
  | wait (instant : Millis)

namespace RouterUse

def event? : RouterUse → Option Event
  | route event => some event
  | _ => none

def events (uses : List RouterUse) : List Event :=
  uses.filterMap event?

def isKeyed (discriminator : Discriminator) : RouterUse → Bool
  | route event => discriminator.passes event
  | _ => true

end RouterUse

namespace Discriminator

def eventsOf (discriminator : Discriminator) (key : String) (events : List Event) : List Event :=
  events.filter fun event => discriminator.passes event && discriminator.extract event == key

def outcome (discriminator : Discriminator) (event : Event) : RouteOutcome :=
  if discriminator.passes event then .delivered else .suppressed

end Discriminator

namespace Router

def use (router : Router) (world : World) : RouterUse → List (Except RouteFault RouteOutcome) × Router × World
  | .route event =>
    let (outcome, router, world) := router.route event world
    ([outcome], router, world)
  | .reapAt now =>
    let (_, router, world) := router.reapAt now world
    ([], router, world)
  | .wait instant => ([], router, { world with instant })

def useAll (router : Router) (world : World) :
    List RouterUse → List (Except RouteFault RouteOutcome) × Router × World
  | [] => ([], router, world)
  | first :: rest =>
    let (outcomes, router, world) := router.use world first
    let (later, router, world) := router.useAll world rest
    (outcomes ++ later, router, world)

/-- How far the file of each key has been written. A key without a mark has no file. -/
abbrev Marks := String → Option Segments

def Marks.write (limit : Nat) (marks : Marks) (key : String) (entry : Bytes) : Marks :=
  Function.update marks key (some (((marks key).getD ⟨[], []⟩).add limit entry))

def Marks.after (discriminator : Discriminator) (limit : Nat) (encode : Event → Bytes) (marks : Marks) (event : Event) :
    Marks :=
  if discriminator.passes event then marks.write limit (discriminator.extract event) (encode event) else marks

/-- Below the working directory nothing has changed but the directories of marked keys, which hold what the marks
say. -/
structure Filed (fileName : String) (policy : RollingPolicy) (start : FileTree) (marks : Marks) (tree : FileTree) :
    Prop where
  sound : tree.IsSound
  home : tree.workingDirectory = start.workingDirectory
  keys : ∀ key segments, marks key = some segments → Path.IsEntry key ∧
    (Site.ofKey start.workingDirectory fileName key).Holds policy.maxArchives tree segments.current
      (segments.slots fun _ => none) ∧
    (Site.ofKey start.workingDirectory fileName key).IsAlone policy.maxArchives tree
  others : ∀ location, (∀ key, marks key ≠ none → ¬ start.workingDirectory ++ [key] <+: location) →
    tree.node? location = start.node? location

/-- All live sinks of a router know how far their files have been written, and no two of them share a file. -/
structure Tracks (fileName : String) (policy : RollingPolicy) (encode : Event → Bytes) (start : FileTree)
    (marks : Marks) (router : Router) (world : World) : Prop where
  factory : router.factory = .localApplication fileName policy encode
  accepting : router.registry.closed = false
  filed : Filed fileName policy start marks world.files
  live : ∀ entry ∈ router.registry.entries, ∃ segments sink, marks entry.key = some segments ∧
    world.sinks[entry.sink]? = some (.rotating sink) ∧
    RotatingSink.Follows (.ofKey start.workingDirectory fileName entry.key) policy encode (fun _ => none) segments sink
      world.files
  apart : router.registry.entries.Pairwise Registration.IsApart

variable {fileName key other : String} {policy : RollingPolicy} {encode : Event → Bytes} {start before after : FileTree}
  {marks : Marks} {segments : Segments} {router : Router} {world : World}

theorem not_prefix_of_ne {home : Location} (different : key ≠ other) (rest : List String) :
    ¬ home ++ [key] <+: home ++ [other] ++ rest := by
  rw [List.append_assoc, List.prefix_append_right_inj, List.singleton_append, List.cons_prefix_cons]
  exact fun same => different same.1

structure ChangesKey (start : FileTree) (key : String) (before after : FileTree) : Prop where
  sound : after.IsSound
  home : after.workingDirectory = start.workingDirectory
  same : ∀ location, ¬ start.workingDirectory ++ [key] <+: location → after.node? location = before.node? location

theorem ChangesKey.elsewhere (changes : ChangesKey start key before after) (different : key ≠ other) (rest : List String) :
    after.node? (start.workingDirectory ++ [other] ++ rest) = before.node? (start.workingDirectory ++ [other] ++ rest) :=
  changes.same _ (not_prefix_of_ne different rest)

theorem Filed.isIn_other (filed : Filed fileName policy start marks before) (file : Path.IsEntry fileName)
    (changes : ChangesKey start key before after) (different : key ≠ other) (marked : marks other = some segments) :
    (Site.ofKey start.workingDirectory fileName other).IsIn after := by
  obtain ⟨entry, holds, -⟩ := filed.keys other segments marked
  have there : after.node? (start.workingDirectory ++ [other]) = some .directory := by
    have same := changes.elsewhere different []
    rw [List.append_nil] at same
    rw [same]
    exact holds.stands.leads.stands holds.stands.sound
  rw [← changes.home] at there ⊢
  exact Site.ofKey_isIn entry file changes.sound there

theorem Filed.advance (filed : Filed fileName policy start marks before) (file : Path.IsEntry fileName)
    (changes : ChangesKey start key before after) (entry : Path.IsEntry key)
    (holds : (Site.ofKey start.workingDirectory fileName key).Holds policy.maxArchives after segments.current
      (segments.slots fun _ => none))
    (alone : (Site.ofKey start.workingDirectory fileName key).IsAlone policy.maxArchives after) :
    Filed fileName policy start (Function.update marks key (some segments)) after := by
  refine ⟨changes.sound, changes.home, ?_, ?_⟩
  · intro other written marked
    by_cases same : other = key
    · subst same
      rw [Function.update_self] at marked
      cases marked
      exact ⟨entry, holds, alone⟩
    · rw [Function.update_of_ne same] at marked
      obtain ⟨entry', holds', alone'⟩ := filed.keys other written marked
      have kept := changes.elsewhere (Ne.symm same)
      refine ⟨entry', holds'.frame (filed.isIn_other file changes (Ne.symm same) marked) kept, ?_⟩
      intro rest deeper outside
      exact (kept rest).trans (alone' rest deeper outside)
  · intro location outside
    rw [changes.same location (outside key (by simp))]
    refine filed.others location ?_
    intro other marked
    refine outside other ?_
    by_cases same : other = key
    · subst same
      simp
    · rwa [Function.update_of_ne same]

theorem Filed.unmarked (filed : Filed fileName policy start marks before)
    (empty : ∀ rest, rest ≠ [] → start.node? (start.workingDirectory ++ rest) = none) (unmarked : marks key = none) :
    before.node? (start.workingDirectory ++ [key]) = none := by
  rw [filed.others, empty [key] (by simp)]
  intro other marked inside
  have different : other ≠ key := by
    rintro rfl
    exact marked unmarked
  exact not_prefix_of_ne different [] (by rwa [List.append_nil])

theorem Filed.follows_other (filed : Filed fileName policy start marks before) (file : Path.IsEntry fileName)
    (changes : ChangesKey start key before after) (different : key ≠ other) (marked : marks other = some segments)
    {sink : RotatingSink}
    (follows : RotatingSink.Follows (.ofKey start.workingDirectory fileName other) policy encode (fun _ => none) segments
      sink before) :
    RotatingSink.Follows (.ofKey start.workingDirectory fileName other) policy encode (fun _ => none) segments sink
      after :=
  follows.frame (filed.isIn_other file changes different marked) (changes.elsewhere different)

theorem Tracks.register (tracks : Tracks fileName policy encode start marks router world) (file : Path.IsEntry fileName)
    (missing : router.registry.find? key = none) (changes : ChangesKey start key world.files after) {fresh : RotatingSink}
    (filed : Filed fileName policy start (Function.update marks key (some segments)) after)
    (follows : RotatingSink.Follows (.ofKey start.workingDirectory fileName key) policy encode (fun _ => none) segments
      fresh after) (now : Millis) :
    Tracks fileName policy encode start (Function.update marks key (some segments))
      { router with registry := router.registry.register key world.sinks.length now }
      ((world.setFiles after).addSink (.rotating fresh)).2 := by
  have others := Registry.find?_none missing
  have bound : ∀ entry ∈ router.registry.entries, entry.sink < world.sinks.length := by
    intro entry member
    obtain ⟨-, sink, -, stands, -⟩ := tracks.live entry member
    exact (List.getElem?_eq_some_iff.mp stands).1
  refine ⟨tracks.factory, tracks.accepting, filed, ?_, ?_⟩
  · intro entry member
    rcases List.mem_append.mp member with old | new
    · obtain ⟨written, sink, marked, stands, knows⟩ := tracks.live entry old
      refine ⟨written, sink, ?_, ?_, ?_⟩
      · rw [Function.update_of_ne (others entry old)]
        exact marked
      · exact (List.getElem?_append_left (bound entry old)).trans stands
      · exact tracks.filed.follows_other file changes (Ne.symm (others entry old)) marked knows
    · rw [List.mem_singleton.mp new]
      exact ⟨segments, fresh, Function.update_self .., List.getElem?_concat_length .., follows⟩
  · refine List.pairwise_append.mpr ⟨tracks.apart, List.pairwise_singleton .., ?_⟩
    intro entry old last new
    rw [List.mem_singleton.mp new]
    exact ⟨others entry old, Nat.ne_of_lt (bound entry old)⟩

theorem Tracks.touch (tracks : Tracks fileName policy encode start marks router world) (key : String) (now : Millis) :
    Tracks fileName policy encode start marks { router with registry := router.registry.touch key now } world := by
  refine ⟨tracks.factory, tracks.accepting, tracks.filed, ?_, ?_⟩
  · intro entry member
    obtain ⟨old, stands, sameKey, sameSink, -⟩ := Registry.mem_touch.mp member
    rw [sameKey, sameSink]
    exact tracks.live old stands
  · exact Registry.apart_touch tracks.apart key now

theorem Tracks.write (tracks : Tracks fileName policy encode start marks router world) (file : Path.IsEntry fileName)
    (room : ∀ key, Path.IsEntry key → (Site.ofKey start.workingDirectory fileName key).HasRoom policy.maxArchives)
    {entry : Registration} (member : entry ∈ router.registry.entries) (event : Event) :
    ∃ written, world.write entry.sink event = (.ok (), written) ∧
      Tracks fileName policy encode start (marks.write policy.maxFileSize entry.key (encode event)) router written := by
  obtain ⟨segments, sink, marked, stands, follows⟩ := tracks.live entry member
  obtain ⟨named, -, alone⟩ := tracks.filed.keys _ _ marked
  have proper : (Site.ofKey start.workingDirectory fileName entry.key).IsProper := Site.ofKey_isProper named file
  obtain ⟨last, final, written⟩ := follows.write_ok proper (room _ named) event
  obtain ⟨followed, leaves⟩ := follows.write proper written
  have changes : ChangesKey start entry.key world.files final := by
    refine ⟨followed.holds.stands.sound, leaves.home.trans tracks.filed.home, ?_⟩
    intro location outside
    refine leaves.others location ?_
    intro owns
    obtain ⟨name, rfl⟩ := owns.inside
    exact outside (List.prefix_append ..)
  have marks' : marks.write policy.maxFileSize entry.key (encode event) =
      Function.update marks entry.key (some (segments.add policy.maxFileSize (encode event))) := by
    rw [Marks.write, marked]
    rfl
  refine ⟨(world.setFiles final).setSink entry.sink (.rotating last), ?_, tracks.factory, tracks.accepting, ?_, ?_,
    tracks.apart⟩
  · unfold World.write
    rw [stands]
    simp only [written]
  · rw [marks']
    exact tracks.filed.advance file changes named followed.holds (alone.leaves leaves)
  · intro other present
    rw [marks']
    by_cases same : other = entry
    · rw [same, Function.update_self]
      exact ⟨_, last, rfl, World.setSink_same _ stands _, followed⟩
    · obtain ⟨keys, sinks⟩ := tracks.apart.forall member present (Ne.symm same)
      obtain ⟨segments', sink', marked', stands', follows'⟩ := tracks.live other present
      rw [Function.update_of_ne keys.symm]
      refine ⟨segments', sink', marked', ?_, tracks.filed.follows_other file changes keys marked' follows'⟩
      rw [World.setSink_other _ sinks]
      exact stands'

theorem resolve_missing {fresh : RotatingSink} (factory : router.factory = .localApplication fileName policy encode)
    (accepting : router.registry.closed = false) (missing : router.registry.find? key = none)
    (opened : RotatingSink.openAt (key ++ "-local") (Path.join key fileName) policy encode world.files =
      .ok fresh after) :
    router.resolve key world =
      (.ok world.sinks.length,
        { router with registry := router.registry.register key world.sinks.length world.instant },
        ((world.setFiles after).addSink (.rotating fresh)).2) := by
  have made : Factory.create router.name key (router.factory, world) =
      (.ok world.sinks.length, .localApplication fileName policy encode,
        ((world.setFiles after).addSink (.rotating fresh)).2) := by
    simp only [factory, Factory.create, opened, Factory.adopt]
    rfl
  rw [resolve_made accepting missing made, ← factory]

theorem Tracks.resolve (tracks : Tracks fileName policy encode start marks router world) (file : Path.IsEntry fileName)
    (room : ∀ key, Path.IsEntry key → (Site.ofKey start.workingDirectory fileName key).HasRoom policy.maxArchives)
    (empty : ∀ rest, rest ≠ [] → start.node? (start.workingDirectory ++ rest) = none) (entry : Path.IsEntry key) :
    ∃ marks' registered registry opened,
      router.resolve key world = (.ok registered.sink, { router with registry }, opened) ∧
      registered ∈ registry.entries ∧ registered.key = key ∧
      Tracks fileName policy encode start marks' { router with registry } opened ∧
      ∀ bytes, Marks.write policy.maxFileSize marks' key bytes = marks.write policy.maxFileSize key bytes := by
  -- A key without a sink has a file if it had one before, and its directory is empty if it had none.
  cases found : router.registry.find? key with
  | some old =>
      obtain ⟨member, named⟩ := Registry.find?_mem found
      have resolved : router.resolve key world = _ := resolve_found tracks.accepting found
      refine ⟨marks, { old with lastUsed := max old.lastUsed world.instant }, _, _, resolved, ?_, named,
        tracks.touch key world.instant, fun _ => rfl⟩
      exact Registry.mem_touch.mpr ⟨old, member, rfl, rfl, by simp [named]⟩
  | none =>
      cases marked : marks key with
      | some segments =>
          obtain ⟨-, holds, alone⟩ := tracks.filed.keys key segments marked
          obtain ⟨fresh, opened, follows⟩ := RotatingSink.openAt_of_holds (Site.ofKey_isProper entry file) holds
            (fun _ => room key entry) (key ++ "-local") encode
          have unchanged : Function.update marks key (some segments) = marks := by
            rw [← marked, Function.update_eq_self]
          have changes : ChangesKey start key world.files world.files :=
            ⟨tracks.filed.sound, tracks.filed.home, fun _ _ => rfl⟩
          have tracked := tracks.register file found changes (unchanged.symm ▸ tracks.filed) follows world.instant
          rw [unchanged] at tracked
          exact ⟨marks, ⟨key, world.sinks.length, world.instant⟩, _, _,
            resolve_missing tracks.factory tracks.accepting found opened,
            List.mem_append_right _ (List.mem_singleton_self _), rfl, tracked, fun _ => rfl⟩
      | none =>
          have free := tracks.filed.unmarked empty marked
          rw [← tracks.filed.home] at free
          obtain ⟨fresh, after, opened, follows, alone, home, others⟩ := RotatingSink.openAt_of_none entry file
            tracks.filed.sound free (key ++ "-local") policy encode
          rw [tracks.filed.home] at follows alone home others
          have changes : ChangesKey start key world.files after := ⟨follows.holds.stands.sound, home, others⟩
          have filed := tracks.filed.advance file changes entry follows.holds alone
          refine ⟨_, ⟨key, world.sinks.length, world.instant⟩, _, _,
            resolve_missing tracks.factory tracks.accepting found opened,
            List.mem_append_right _ (List.mem_singleton_self _), rfl,
            tracks.register file found changes filed follows world.instant, ?_⟩
          intro bytes
          simp [Marks.write, marked]

theorem Tracks.route (tracks : Tracks fileName policy encode start marks router world) (file : Path.IsEntry fileName)
    (room : ∀ key, Path.IsEntry key → (Site.ofKey start.workingDirectory fileName key).HasRoom policy.maxArchives)
    (empty : ∀ rest, rest ≠ [] → start.node? (start.workingDirectory ++ rest) = none) {event : Event}
    (passes : router.discriminator.passes event) (entry : Path.IsEntry (router.discriminator.extract event)) :
    ∃ registry written, router.route event world = (.ok .delivered, { router with registry }, written) ∧
      Tracks fileName policy encode start
        (marks.write policy.maxFileSize (router.discriminator.extract event) (encode event)) { router with registry }
        written := by
  obtain ⟨marks', registered, registry, opened, resolved, member, named, tracked, same⟩ :=
    tracks.resolve file room empty entry
  obtain ⟨written, done, follows⟩ := tracked.write file room member event
  rw [named, same] at follows
  refine ⟨registry, written, ?_, follows⟩
  rw [route_resolved passes resolved, done]

theorem files_stopEach (entries : List Registration) (world : World) : (stopEach entries world).files = world.files := by
  induction entries generalizing world with
  | nil => rfl
  | cons entry rest ih => exact (ih _).trans (World.stop_files world entry.sink)

theorem Tracks.reapAt (tracks : Tracks fileName policy encode start marks router world) (now : Millis) :
    ∃ keys registry reaped, router.reapAt now world = (keys, { router with registry }, reaped) ∧
      Tracks fileName policy encode start marks { router with registry } reaped := by
  let expired := router.registry.isExpired now router.idleTimeout
  refine ⟨(router.registry.entries.filter expired).map (·.key),
    { router.registry with entries := router.registry.entries.filter fun entry => !expired entry },
    stopEach (router.registry.entries.filter expired) world, ?_, tracks.factory, tracks.accepting, ?_, ?_,
    tracks.apart.sublist List.filter_sublist⟩
  · rw [Router.reapAt, Registry.expire_eq]
  · rw [files_stopEach]
    exact tracks.filed
  · intro entry member
    obtain ⟨present, kept⟩ := List.mem_filter.mp member
    have different : ∀ other ∈ router.registry.entries.filter expired, other.sink ≠ entry.sink := by
      intro other gone
      obtain ⟨there, late⟩ := List.mem_filter.mp gone
      refine (tracks.apart.forall there present ?_).2
      rintro rfl
      simp [late] at kept
    rw [files_stopEach, sinks_stopEach different]
    exact tracks.live entry present

theorem Tracks.useAll (tracks : Tracks fileName policy encode start marks router world) (file : Path.IsEntry fileName)
    (room : ∀ key, Path.IsEntry key → (Site.ofKey start.workingDirectory fileName key).HasRoom policy.maxArchives)
    (empty : ∀ rest, rest ≠ [] → start.node? (start.workingDirectory ++ rest) = none) {uses : List RouterUse}
    (keys : ∀ event ∈ RouterUse.events uses, router.discriminator.passes event →
      Path.IsEntry (router.discriminator.extract event)) :
    ∃ registry final,
      router.useAll world uses = ((RouterUse.events uses).map fun event => .ok (router.discriminator.outcome event),
        { router with registry }, final) ∧
      Tracks fileName policy encode start
        ((RouterUse.events uses).foldl (Marks.after router.discriminator policy.maxFileSize encode) marks)
        { router with registry } final := by
  induction uses generalizing marks router world with
  | nil => exact ⟨router.registry, world, rfl, tracks⟩
  | cons first rest ih =>
      cases first with
      | reapAt now =>
          obtain ⟨_, registry, reaped, done, kept⟩ := tracks.reapAt now
          obtain ⟨last, final, run, tracked⟩ := ih kept keys
          refine ⟨last, final, ?_, tracked⟩
          simp only [Router.useAll, use, done, run]
          rfl
      | wait instant =>
          have kept : Tracks fileName policy encode start marks router { world with instant } :=
            ⟨tracks.factory, tracks.accepting, tracks.filed, tracks.live, tracks.apart⟩
          obtain ⟨last, final, run, tracked⟩ := ih kept keys
          refine ⟨last, final, ?_, tracked⟩
          simp only [Router.useAll, use, run]
          rfl
      | route event =>
          have later : ∀ event ∈ RouterUse.events rest, router.discriminator.passes event →
              Path.IsEntry (router.discriminator.extract event) :=
            fun event member => keys event (List.mem_cons_of_mem _ member)
          cases passes : router.discriminator.passes event with
          | false =>
              obtain ⟨last, final, run, tracked⟩ := ih tracks later
              refine ⟨last, final, ?_, ?_⟩
              · simp only [Router.useAll, use, route_suppressed passes, run]
                simp [RouterUse.events, RouterUse.event?, Discriminator.outcome, passes]
              · simpa [RouterUse.events, RouterUse.event?, Marks.after, passes] using tracked
          | true =>
              obtain ⟨registry, written, done, kept⟩ :=
                tracks.route file room empty passes (keys event (List.mem_cons_self ..) passes)
              obtain ⟨last, final, run, tracked⟩ := ih kept later
              refine ⟨last, final, ?_, ?_⟩
              · simp only [Router.useAll, use, done, run]
                simp [RouterUse.events, RouterUse.event?, Discriminator.outcome, passes]
              · simpa [RouterUse.events, RouterUse.event?, Marks.after, passes] using tracked

theorem marks_eq (discriminator : Discriminator) (limit : Nat) (encode : Event → Bytes) (marks : Marks)
    (events : List Event) (key : String) :
    events.foldl (Marks.after discriminator limit encode) marks key =
      if discriminator.eventsOf key events = [] then marks key
      else some (((marks key).getD ⟨[], []⟩).addAll limit ((discriminator.eventsOf key events).map encode)) := by
  induction events generalizing marks with
  | nil => rfl
  | cons event rest ih =>
      rw [List.foldl_cons, ih]
      by_cases own : discriminator.passes event = true ∧ discriminator.extract event = key
      · obtain ⟨passes, rfl⟩ := own
        have first : discriminator.eventsOf (discriminator.extract event) (event :: rest) =
            event :: discriminator.eventsOf (discriminator.extract event) rest := by
          simp [Discriminator.eventsOf, passes]
        rw [first, if_neg (List.cons_ne_nil _ _), Marks.after, if_pos passes, Marks.write, Function.update_self]
        split
        next none => simp [none, Segments.addAll]
        next => rfl
      · have others : discriminator.eventsOf key (event :: rest) = discriminator.eventsOf key rest := by
          refine List.filter_cons_of_neg ?_
          simpa using own
        have same : Marks.after discriminator limit encode marks event key = marks key := by
          unfold Marks.after
          split
          next passes => exact Function.update_of_ne (fun named => own ⟨passes, named.symm⟩) ..
          next => rfl
        rw [others, same]

theorem route_discriminator (router : Router) (event : Event) (world : World) :
    (router.route event world).2.1.discriminator = router.discriminator := by
  obtain ⟨registry, factory, same⟩ := router.route_changes event world
  rw [same]

theorem use_discriminator (router : Router) (world : World) (action : RouterUse) :
    (router.use world action).2.1.discriminator = router.discriminator := by
  cases action with
  | route event => exact route_discriminator router event world
  | reapAt now => rfl
  | wait instant => rfl

theorem useAll_keyed (router : Router) (world : World) (uses : List RouterUse) :
    (router.useAll world (uses.filter (·.isKeyed router.discriminator))).2 = (router.useAll world uses).2 := by
  induction uses generalizing router world with
  | nil => rfl
  | cons first rest ih =>
      have next := ih (router.use world first).2.1 (router.use world first).2.2
      rw [use_discriminator] at next
      cases keyed : first.isKeyed router.discriminator with
      | true =>
          rw [List.filter_cons_of_pos (by simpa using keyed)]
          exact next
      | false =>
          rw [List.filter_cons_of_neg (by simpa using keyed)]
          cases first with
          | route event =>
              rw [use, route_suppressed keyed] at next
              rw [Router.useAll, use, route_suppressed keyed]
              exact next
          | reapAt now => simp [RouterUse.isKeyed] at keyed
          | wait instant => simp [RouterUse.isKeyed] at keyed

theorem solo_ok (entry : Path.IsEntry key) (file : Path.IsEntry fileName) (sound : start.IsSound)
    (free : start.node? (start.workingDirectory ++ [key]) = none)
    (room : (Site.ofKey start.workingDirectory fileName key).HasRoom policy.maxArchives) (name : String)
    (encode : Event → Bytes) (events : List Event) :
    ∃ sink opened last final,
      RotatingSink.openAt name (Path.join key fileName) policy encode start = .ok sink opened ∧
      RotatingSink.useAll (events.map .write) (sink, opened) = .ok () (last, final) ∧
      (Site.ofKey start.workingDirectory fileName key).Holds policy.maxArchives final
        (Segments.addAll policy.maxFileSize ⟨[], []⟩ (events.map encode)).current
        ((Segments.addAll policy.maxFileSize ⟨[], []⟩ (events.map encode)).slots fun _ => none) ∧
      (Site.ofKey start.workingDirectory fileName key).IsAlone policy.maxArchives final := by
  have proper : (Site.ofKey start.workingDirectory fileName key).IsProper := Site.ofKey_isProper entry file
  obtain ⟨sink, opened, begun, follows, alone, -, -⟩ :=
    RotatingSink.openAt_of_none entry file sound free name policy encode
  obtain ⟨last, final, run⟩ := follows.writeAll_ok proper room events
  obtain ⟨followed, leaves⟩ := follows.useAll proper run
  have entries : (events.map FileUse.write).filterMap (·.added? encode) = events.map encode := by
    rw [List.filterMap_map]
    exact congrFun List.filterMap_eq_map' events
  rw [entries] at followed
  exact ⟨sink, opened, last, final, begun, run, followed.holds, alone.leaves leaves⟩

end Router

/-- A new router for files of its own makes them in an empty directory. Whatever events it then routes, and whenever
sinks are let go, each event with a key is delivered; the directory of each key holds what one sink leaves there that
writes the events of this key in their order and nothing else; nothing else changes; and events without a key might as
well not have come. -/
theorem keys_do_not_interfere {router : Router} {world : World} {fileName : String} {policy : RollingPolicy}
    {encode : Event → Bytes} (uses : List RouterUse)
    (factory : router.factory = .localApplication fileName policy encode) (fresh : router.registry = {})
    (sound : world.files.IsSound)
    (empty : ∀ rest, rest ≠ [] → world.files.node? (world.files.workingDirectory ++ rest) = none)
    (file : Path.IsEntry fileName)
    (archives : 0 < policy.maxArchives →
      (Utf8.encodeChars (Archive.stagingName fileName.toList)).length ≤ maxNameLength ∧
      (Utf8.encodeChars (Archive.slotName fileName.toList policy.maxArchives)).length ≤ maxNameLength)
    (keys : ∀ event ∈ RouterUse.events uses, router.discriminator.passes event →
      Path.IsEntry (router.discriminator.extract event)) :
    ∃ last final,
      router.useAll world uses =
        ((RouterUse.events uses).map fun event => .ok (router.discriminator.outcome event), last, final) ∧
      (router.useAll world (uses.filter (·.isKeyed router.discriminator))).2 = (last, final) ∧
      (∀ key, router.discriminator.eventsOf key (RouterUse.events uses) ≠ [] →
        ∃ sink opened soloSink solo,
          RotatingSink.openAt (key ++ "-local") (Path.join key fileName) policy encode world.files = .ok sink opened ∧
          RotatingSink.useAll ((router.discriminator.eventsOf key (RouterUse.events uses)).map .write) (sink, opened) =
            .ok () (soloSink, solo) ∧
          ∀ rest, final.files.sight? (world.files.workingDirectory ++ [key] ++ rest) =
            solo.sight? (world.files.workingDirectory ++ [key] ++ rest)) ∧
      ∀ location, (∀ key, router.discriminator.eventsOf key (RouterUse.events uses) ≠ [] →
          ¬ world.files.workingDirectory ++ [key] <+: location) →
        final.files.node? location = world.files.node? location := by
  have room : ∀ key, Path.IsEntry key →
      (Site.ofKey world.files.workingDirectory fileName key).HasRoom policy.maxArchives :=
    fun key entry positive =>
      ⟨Site.ofKey_fits entry (archives positive).1, Site.ofKey_fits entry (archives positive).2⟩
  have begun : Router.Tracks fileName policy encode world.files (fun _ => none) router world := by
    refine ⟨factory, by rw [fresh], ⟨sound, rfl, ?_, fun _ _ => rfl⟩, ?_, by rw [fresh]; exact .nil⟩
    · intro key segments marked
      exact absurd marked (by simp)
    · intro entry member
      rw [fresh] at member
      exact absurd member (by simp)
  obtain ⟨registry, final, run, tracks⟩ := begun.useAll file room empty keys
  have marks := Router.marks_eq router.discriminator policy.maxFileSize encode (fun _ => none) (RouterUse.events uses)
  refine ⟨{ router with registry }, final, run, ?_, ?_, ?_⟩
  · rw [Router.useAll_keyed, run]
  · intro key some
    have marked := marks key
    rw [if_neg some] at marked
    obtain ⟨entry, holds, alone⟩ := tracks.filed.keys key _ marked
    obtain ⟨sink, opened, soloSink, solo, opening, writing, soloHolds, soloAlone⟩ :=
      Router.solo_ok entry file sound (empty [key] (by simp)) (room key entry) (key ++ "-local") encode
        (router.discriminator.eventsOf key (RouterUse.events uses))
    exact ⟨sink, opened, soloSink, solo, opening, writing,
      Site.sight?_eq_of_holds (room key entry) holds soloHolds alone soloAlone⟩
  · intro location outside
    refine tracks.filed.others location ?_
    intro key marked
    refine outside key ?_
    intro none
    rw [marks key, if_pos none] at marked
    exact marked rfl

theorem keys_do_not_interfere_reaped :
    ∃ (router : Router) (world : World) (uses : List RouterUse) (last : Router) (final : World),
      world.files = .empty ["home"] ∧
      router.useAll world uses = ([.ok .delivered, .ok .delivered, .ok .suppressed, .ok .delivered], last, final) ∧
      final.files.sight? ["home", "a", "app.log"] = some (.file (Utf8.encode "3 INFO  three\n")) ∧
      final.files.node? ["home", "c"] = none := by
  let router : Router :=
    { name := "local_application", discriminator := ⟨"app"⟩
      factory := .localApplication "app.log" ⟨15, 1⟩ Encoding.line.encode, idleTimeout := 10 }
  let world : World :=
    { uploads := { executor := .idle, work := { files := .empty ["home"], store := { backend := .memory {} } } } }
  let uses : List RouterUse :=
    [.route ((Event.new 1 .info "one").withEntry "app" "a"), .route ((Event.new 2 .info "two").withEntry "app" "b"),
      .wait 20, .reapAt 30, .route ((Event.new 2 .info "none").withEntry "app" " "),
      .route ((Event.new 3 .info "three").withEntry "app" "a")]
  have entries : ∀ key, key = "a" ∨ key = "b" → Path.IsEntry key := by
    rintro key (rfl | rfl) <;>
      exact ⟨⟨by decide, by decide, by decide, by decide, by decide⟩, by decide⟩
  have named : ∀ event ∈ RouterUse.events uses, router.discriminator.passes event →
      router.discriminator.extract event = "a" ∨ router.discriminator.extract event = "b" := by
    decide +kernel
  have empty : ∀ rest, rest ≠ [] → world.files.node? (["home"] ++ rest) = none := by
    intro rest deeper
    show (FileTree.empty ["home"]).node? _ = none
    rw [node?_empty, if_neg]
    intro inside
    have length := inside.length_le
    rw [List.length_append] at length
    have some := List.length_pos_iff.mpr deeper
    omega
  have file : Path.IsEntry "app.log" := ⟨⟨by decide, by decide, by decide, by decide, by decide⟩, by decide⟩
  obtain ⟨last, final, run, -, solo, others⟩ :=
    @keys_do_not_interfere router world "app.log" ⟨15, 1⟩ Encoding.line.encode uses rfl rfl (isSound_empty ["home"]) empty
      file (fun _ => by decide) fun event member passes => entries _ (named event member passes)
  obtain ⟨sink, opened, soloSink, files, opening, writing, same⟩ := solo "a" (by decide +kernel)
  have left : (match RotatingSink.openAt ("a" ++ "-local") (Path.join "a" "app.log") ⟨15, 1⟩ Encoding.line.encode
      world.files with
    | .error .. => none
    | .ok sink opened =>
      match RotatingSink.useAll ((router.discriminator.eventsOf "a" (RouterUse.events uses)).map .write) (sink, opened) with
      | .error .. => none
      | .ok _ state => state.2.sight? ["home", "a", "app.log"]) = some (.file (Utf8.encode "3 INFO  three\n")) := by
    decide +kernel
  rw [opening] at left
  dsimp only at left
  rw [writing] at left
  have outcomes : (RouterUse.events uses).map router.discriminator.outcome =
      [.delivered, .delivered, .suppressed, .delivered] := by
    decide +kernel
  have results := congrArg (List.map (Except.ok : RouteOutcome → Except RouteFault RouteOutcome)) outcomes
  rw [List.map_map] at results
  refine ⟨router, world, uses, last, final, rfl, ?_, (same ["app.log"]).trans left, ?_⟩
  · exact run.trans (congrArg (fun outcomes => (outcomes, last, final)) results)
  · refine (others ["home", "c"] ?_).trans (empty ["c"] (by simp))
    intro key some inside
    have missing : router.discriminator.eventsOf "c" (RouterUse.events uses) = [] := by decide +kernel
    have inside : ["home"] ++ [key] <+: ["home", "c"] := inside
    have named : key = "c" := by simpa using inside
    rw [named] at some
    exact some missing

end KeyedLog
