import KeyedLog.Proofs.Dispatcher
import KeyedLog.Proofs.Dispatcher.Isolation

/-!
What a dispatcher needs of its world is there after an event and after sinks were stopped if it was there before, unless an
archive takes the working directory along.
-/

namespace KeyedLog

open FileTree

def Scope.everywhere : Scope :=
  ⟨fun _ => True, fun _ => False, fun _ => False, fun _ _ => trivial⟩

theorem Scope.everywhere_claims (tree : FileTree) (path : String) : everywhere.Claims tree path := by
  have passes : ∀ names start, everywhere.Passes start names := by
    intro names
    induction names with
    | nil => exact fun _ => trivial
    | cons name rest ih => exact fun _ => ⟨.inl trivial, fun _ => .inl trivial, ih _⟩
  exact ⟨passes _ _, trivial⟩

theorem Sink.IsFit.later {tree after : FileTree} {sink : Sink} (fit : sink.IsFit tree) (next : tree.nextId ≤ after.nextId) :
    sink.IsFit after :=
  ⟨fun file holds => Nat.lt_of_lt_of_le (fit.given file holds) next, fit.rotates⟩

namespace World

structure IsFit (world : World) : Prop where
  sound : world.files.IsSound
  separate : world.IsSeparate
  sinks : ∀ sink ∈ world.sinks, sink.IsFit world.files

/-- The working directory is not inside of an archive of the sink. -/
def StaysHome (world : World) (id : SinkId) : Prop :=
  ∀ archive ∈ world.archivePaths id, ¬ world.files.place archive <+: world.files.workingDirectory

variable {scope : Scope} {touched : SinkId → Prop} {world twin after : World} {sink other : Sink} {id : SinkId} {key : String}

theorem SameSink.fit (same : SameSink scope world twin sink other) : sink.IsFit world.files := by
  have given : ∀ {handle mate : Option FileHandle}, SameHandle scope world.files twin.files handle mate →
      ∀ file, handle.map (·.id) = some file → file < world.files.nextId := by
    rintro handle mate (_ | meets) file holds
    · simp at holds
    · obtain rfl := Option.some.inj holds
      exact meets.given
  cases same with
  | file same => exact ⟨given same, by simp⟩
  | rotating pairs =>
      refine ⟨given pairs.handle, ?_⟩
      rintro rotating its
      obtain rfl := Sink.rotating.inj its
      exact pairs.seats.hosts.file
  | _ => exact ⟨by simp [Sink.openFile?], by simp⟩

theorem remote?_of_stop {other : SinkId} {remote : RemoteSink} (present : (world.stop id).remote? other = some remote) :
    ∃ before, world.remote? other = some before ∧ before.buffer = remote.buffer := by
  rw [stop_remote?] at present
  split at present
  next same =>
    obtain ⟨before, known, rfl⟩ := Option.map_eq_some_iff.mp present
    exact ⟨before, same ▸ known, rfl⟩
  next => exact ⟨remote, present, rfl⟩

namespace IsFit

theorem change (fit : world.IsFit) (changes : Confined scope touched world after)
    (renewed : ∀ id sink, after.sinks[id]? = some sink → touched id ∨ world.sinks.length ≤ id → sink.IsFit after.files) :
    after.IsFit := by
  refine ⟨changes.files.sound fit.sound, changes.separate fit.separate, ?_⟩
  intro sink member
  obtain ⟨id, stands⟩ := List.mem_iff_getElem?.mp member
  by_cases new : touched id ∨ world.sinks.length ≤ id
  · exact renewed id sink stands new
  · obtain ⟨away, old⟩ := not_or.mp new
    rw [changes.sinks id (Nat.lt_of_not_le old) away] at stands
    exact (fit.sinks sink (List.mem_of_getElem? stands)).later changes.files.next

theorem matched (fit : world.IsFit) (bound : id < world.sinks.length) (home : world.StaysHome id) :
    Matches .everywhere world world id id := by
  have stands : world.sinks[id]? = some world.sinks[id] := List.getElem?_eq_getElem bound
  refine matches_self fit.sound fit.separate stands (fit.sinks _ (List.getElem_mem bound))
    (fun path _ => Scope.everywhere_claims _ path) ?_ fun _ _ _ _ => trivial
  intro archive member
  refine home archive ?_
  rw [archivePaths, stands]
  exact member

theorem write (fit : world.IsFit) (matched : Matches .everywhere world world id id) (event : Event) :
    (world.write id event).2.IsFit ∧ Confined .everywhere (· = id) world (world.write id event).2 := by
  have mirrors : Mirrors .everywhere (· = id) (fun other => other) world world :=
    mirrors_self fit.sound fit.separate fun other its => its ▸ matched
  obtain ⟨-, written, changes, -⟩ := mirrors.write rfl event
  refine ⟨fit.change changes ?_, changes⟩
  rintro other sink stands (rfl | new)
  · obtain ⟨_, _, here, -, same⟩ := written.matched _ rfl
    obtain rfl := Option.some.inj (here.symm.trans stands)
    exact same.fit
  · have bound := (List.getElem?_eq_some_iff.mp stands).1
    rw [world.write_length id event] at bound
    exact absurd bound (Nat.not_lt.mpr new)

theorem create (fit : world.IsFit) {factory : Factory}
    (home : ∀ archive ∈ factory.archives key, ¬ world.files.place archive <+: world.files.workingDirectory)
    {router : String} {answer : Except SinkFault SinkId} {kind : Factory}
    (created : Factory.create router key (factory, world) = (answer, kind, after)) :
    after.IsFit ∧ Confined .everywhere (fun _ => False) world after ∧
      ∀ id, answer = .ok id → id = world.sinks.length ∧ id < after.sinks.length ∧ Matches .everywhere after after id id := by
  have mirrors : Mirrors .everywhere (fun _ => False) (fun other => other) world world :=
    mirrors_self fit.sound fit.separate fun _ none => none.elim
  have provides : Scope.everywhere.Provides world.files factory key :=
    ⟨fun path _ => Scope.everywhere_claims _ path, home⟩
  have length := factory.create_length router key world
  rcases Factory.create_mirrors mirrors provides router with ⟨fault, made, next, -, failed, -, -, changes, -⟩ |
    ⟨made, next, nextTwin, one, two, mirrors, changes, -, count, -⟩
  · cases failed.symm.trans created
    rw [created] at length
    refine ⟨fit.change changes ?_, changes, fun id made => by simp at made⟩
    rintro id sink stands (none | new)
    · exact none.elim
    · have bound := (List.getElem?_eq_some_iff.mp stands).1
      exact absurd (Nat.lt_of_lt_of_eq bound length) (Nat.not_lt.mpr new)
  · cases one.symm.trans created
    obtain rfl : nextTwin = after := congrArg (fun made => made.2.2) (two.symm.trans one)
    have matched := mirrors.matched _ (.inr rfl)
    rw [Function.update_self] at matched
    refine ⟨fit.change changes ?_, changes, ?_⟩
    · rintro id sink stands (none | new)
      · exact none.elim
      · have bound := (List.getElem?_eq_some_iff.mp stands).1
        rw [count] at bound
        obtain rfl : id = world.sinks.length := Nat.le_antisymm (Nat.le_of_lt_succ bound) new
        obtain ⟨_, _, here, -, same⟩ := matched
        obtain rfl := Option.some.inj (here.symm.trans stands)
        exact same.fit
    · rintro id made
      obtain rfl := Except.ok.inj made
      exact ⟨rfl, Nat.lt_of_lt_of_eq (Nat.lt_succ_self _) count.symm, matched⟩

theorem stop (fit : world.IsFit) (id : SinkId) : (world.stop id).IsFit := by
  have files := world.stop_files id
  refine ⟨files ▸ fit.sound, ⟨?_, ?_⟩, ?_⟩
  · intro other remote present
    rw [(world.stop_keepsWork id).work]
    obtain ⟨before, known, same⟩ := remote?_of_stop present
    exact same ▸ fit.separate.bound known
  · intro first second one two present presentToo same
    obtain ⟨before, known, buffer⟩ := remote?_of_stop present
    obtain ⟨beforeToo, knownToo, bufferToo⟩ := remote?_of_stop presentToo
    exact fit.separate.single known knownToo (buffer.trans (same.trans bufferToo.symm))
  · rw [files]
    have replaced : ∀ {new : Sink}, new.IsFit world.files → ∀ sink ∈ world.sinks.set id new, sink.IsFit world.files := by
      intro new its sink member
      rcases List.mem_or_eq_of_mem_set member with old | rfl
      · exact fit.sinks sink old
      · exact its
    unfold World.stop
    split
    · exact fit.sinks
    · exact replaced ⟨by simp [Sink.openFile?], by simp⟩
    next sink stands =>
      refine replaced ⟨?_, by simp⟩
      unfold FileSink.stop
      split
      · exact (fit.sinks _ (List.mem_of_getElem? stands)).given
      · simp [Sink.openFile?]
    next sink stands =>
      unfold RotatingSink.stop
      have before := fit.sinks _ (List.mem_of_getElem? stands)
      split
      · exact replaced before
      · refine replaced ⟨by simp [Sink.openFile?], ?_⟩
        rintro rotating its
        obtain rfl := Sink.rotating.inj its
        exact before.rotates sink rfl
    · exact replaced ⟨by simp [Sink.openFile?], by simp⟩
    · exact replaced ⟨by simp [Sink.openFile?], by simp⟩

theorem stopThese (fit : world.IsFit) (ids : List SinkId) : (world.stopThese ids).IsFit := by
  induction ids generalizing world with
  | nil => exact fit
  | cons id rest ih => exact ih (fit.stop id)

end IsFit

end World

namespace Recipient

variable {recipient after : Recipient} {world next : World} {event : Event}

def StaysHome (event : Event) (world : World) (recipient : Recipient) : Prop :=
  ∀ archive ∈ recipient.archives [event] world, ¬ world.files.place archive <+: world.files.workingDirectory

/-- What it comes to that a recipient is handed an event. -/
structure Serves (recipient : Recipient) (world : World) (after : Recipient) (next : World) : Prop where
  fit : next.IsFit
  changes : World.Confined .everywhere (· ∈ recipient.sinks) world next
  sinks : ∀ id ∈ after.sinks, id ∈ recipient.sinks ∨ world.sinks.length ≤ id ∧ id < next.sinks.length

theorem StaysHome.live (home : recipient.StaysHome event world) {id : SinkId}
    (its : id ∈ recipient.sinksFor (recipient.keys [event])) : world.StaysHome id :=
  fun archive member => home archive (List.mem_append_right _ (List.mem_flatMap.mpr ⟨id, its, member⟩))

theorem StaysHome.made (home : recipient.StaysHome event world) {key archive : String} (known : recipient.key? event = some key)
    (member : archive ∈ recipient.archivesFor key) : ¬ world.files.place archive <+: world.files.workingDirectory := by
  refine home archive (List.mem_append_left _ (List.mem_flatMap.mpr ⟨key, ?_, member⟩))
  simp [keys, known]

theorem sinksFor_subset (keys : List String) (recipient : Recipient) : recipient.sinksFor keys ⊆ recipient.sinks := by
  cases recipient with
  | platform sink => exact fun _ member => member
  | router its => exact List.map_subset _ (List.filter_subset_self _)

theorem StaysHome.later {touched : SinkId → Prop} (home : recipient.StaysHome event world)
    (changes : World.Confined .everywhere touched world next) (bound : ∀ id ∈ recipient.sinks, id < world.sinks.length)
    (apart : ∀ id ∈ recipient.sinks, ¬ touched id) : recipient.StaysHome event next := by
  intro archive member
  rw [place_congr changes.files.home, changes.files.home]
  refine home archive ?_
  have same : ∀ id ∈ recipient.sinks, next.archivePaths id = world.archivePaths id := by
    intro id its
    rw [World.archivePaths, World.archivePaths, changes.sinks id (bound id its) (apart id its)]
  rcases List.mem_append.mp member with made | live
  · exact List.mem_append_left _ made
  · obtain ⟨id, its, holds⟩ := List.mem_flatMap.mp live
    refine List.mem_append_right _ (List.mem_flatMap.mpr ⟨id, its, ?_⟩)
    rw [← same id (sinksFor_subset _ recipient its)]
    exact holds

end Recipient

namespace Router

variable {router : Router} {world : World} {event : Event}

theorem reapAt_subset (router : Router) (now : Millis) (world : World) : (router.reapAt now world).2.1.sinks ⊆ router.sinks :=
  fun _ member => (router.reapAt_sinks now world).mem_iff.mpr (List.mem_append_right _ member)

theorem mem_sinks_register {factory : Factory} {id other : SinkId} {now : Millis} :
    other ∈ ({ router with registry := router.registry.register key id now, factory } : Router).sinks ↔
      other ∈ router.sinks ∨ other = id := by
  simp [sinks, Registry.register]

theorem resolve_serves (fit : world.IsFit) (bound : ∀ id ∈ router.sinks, id < world.sinks.length) (key : String)
    (live : ∀ entry ∈ router.registry.entries, entry.key = key → world.StaysHome entry.sink)
    (made : ∀ archive ∈ router.factory.archives key, ¬ world.files.place archive <+: world.files.workingDirectory) :
    (Recipient.router router).Serves world (.router (router.resolve key world).2.1) (router.resolve key world).2.2 ∧
      ∀ id, (router.resolve key world).1 = .ok id → (id ∈ router.sinks ∨ world.sinks.length ≤ id) ∧
        World.Matches .everywhere (router.resolve key world).2.2 (router.resolve key world).2.2 id id := by
  refine resolve_cases router key world ?_ ?_ ?_ ?_
  · exact fun _ => ⟨⟨fit, .refl world, fun id member => .inl member⟩, fun id done => by simp at done⟩
  · intro entry _ found
    obtain ⟨member, named⟩ := Registry.find?_mem found
    have its : entry.sink ∈ router.sinks := List.mem_map_of_mem member
    refine ⟨⟨fit, .refl world, fun id known => .inl ?_⟩, ?_⟩
    · show id ∈ router.registry.entries.map (·.sink)
      rw [← Registry.sinks_touch router.registry key world.instant]
      exact known
    · intro id done
      obtain rfl := Except.ok.inj done
      exact ⟨.inl its, fit.matched (bound _ its) (live entry member named)⟩
  · intro fault factory next _ _ failed
    obtain ⟨fitNext, changes, -⟩ := fit.create made failed
    exact ⟨⟨fitNext, changes.mono id fun _ _ none => none.elim, fun id member => .inl member⟩, fun id done => by simp at done⟩
  · intro id factory next _ _ created
    obtain ⟨fitNext, changes, answer⟩ := fit.create made created
    obtain ⟨rfl, there, matched⟩ := answer id rfl
    refine ⟨⟨fitNext, changes.mono (fun files => files) fun _ _ none => none.elim, ?_⟩, ?_⟩
    · intro other member
      rcases mem_sinks_register.mp member with old | rfl
      · exact .inl old
      · exact .inr ⟨Nat.le_refl _, there⟩
    · intro other done
      obtain rfl := Except.ok.inj done
      exact ⟨.inr (Nat.le_refl _), matched⟩

theorem route_serves (fit : world.IsFit) (bound : ∀ id ∈ router.sinks, id < world.sinks.length)
    (home : (Recipient.router router).StaysHome event world) :
    (Recipient.router router).Serves world (.router (router.route event world).2.1) (router.route event world).2.2 := by
  have outcome : router.discriminator.passes event = true → _ := fun passes =>
    resolve_serves fit bound (router.discriminator.extract event)
      (fun entry member named => home.live (List.mem_map_of_mem (List.mem_filter.mpr ⟨member, by
        simp [Recipient.keys, Recipient.key?, passes, named]⟩)))
      fun archive member => home.made (if_pos passes) member
  refine route_cases router event world ?_ ?_ ?_
  · exact fun _ => ⟨fit, .refl world, fun id member => .inl member⟩
  · intro fault after next passes resolved
    have serves := (outcome passes).1
    rwa [resolved] at serves
  · intro id after next passes resolved
    obtain ⟨⟨fitNext, changes, sinks⟩, answer⟩ := outcome passes
    rw [resolved] at fitNext changes sinks answer
    obtain ⟨his, matched⟩ := answer id rfl
    obtain ⟨fitLast, written⟩ := fitNext.write matched event
    let renewed (other : SinkId) : Prop := other ∈ router.sinks ∨ world.sinks.length ≤ other
    have first : World.Confined .everywhere renewed world next := changes.mono (fun files => files) fun _ _ known => .inl known
    have second : World.Confined .everywhere renewed next (next.write id event).2 :=
      written.mono (fun files => files) fun _ _ same => same ▸ his
    refine ⟨fitLast, (first.trans second).mono (fun files => files) ?_, ?_⟩
    · exact fun other old known => known.resolve_right (Nat.not_le.mpr old)
    · intro other member
      exact (sinks other member).imp_right fun new => ⟨new.1, by rw [next.write_length id event]; exact new.2⟩

end Router

namespace Recipient

variable {recipient after : Recipient} {recipients others front rest : List Recipient} {world next : World} {event : Event}

theorem deliver_serves (fit : world.IsFit) (bound : ∀ id ∈ recipient.sinks, id < world.sinks.length)
    (home : recipient.StaysHome event world) :
    recipient.Serves world (recipient.deliver event world).2.1 (recipient.deliver event world).2.2 := by
  cases recipient with
  | platform sink =>
      have its : sink ∈ [sink] := List.mem_singleton.mpr rfl
      obtain ⟨written, changes⟩ := fit.write (fit.matched (bound sink its) (home.live its)) event
      have serves : (platform sink).Serves world (.platform sink) (world.write sink event).2 :=
        ⟨written, changes.mono (fun files => files) fun _ _ same => List.mem_singleton.mpr same, fun _ member => .inl member⟩
      simp only [deliver]
      generalize world.write sink event = result at serves
      obtain ⟨answer, next⟩ := result
      cases answer <;> exact serves
  | router its =>
      have serves := Router.route_serves fit bound home
      simp only [deliver]
      generalize its.route event world = result at serves
      obtain ⟨answer, after, next⟩ := result
      cases answer <;> exact serves

/-- The sinks of recipients are there, and no two recipients have one in common. -/
structure AreFit (recipients : List Recipient) (world : World) : Prop where
  fits : world.IsFit
  bound : ∀ recipient ∈ recipients, ∀ id ∈ recipient.sinks, id < world.sinks.length
  disjoint : recipients.Pairwise fun one two => one.sinks.Disjoint two.sinks

namespace AreFit

theorem perm (fit : AreFit recipients world) (perm : recipients.Perm others) : AreFit others world :=
  ⟨fit.fits, fun recipient member => fit.bound recipient (perm.mem_iff.mpr member),
    (perm.pairwise_iff List.disjoint_symm).mp fit.disjoint⟩

theorem replace (fit : AreFit (recipient :: rest) world) (later : next.IsFit) (count : world.sinks.length ≤ next.sinks.length)
    (sinks : ∀ id ∈ after.sinks, id ∈ recipient.sinks ∨ world.sinks.length ≤ id ∧ id < next.sinks.length) :
    AreFit (after :: rest) next := by
  obtain ⟨near, far⟩ := List.pairwise_cons.mp fit.disjoint
  refine ⟨later, ?_, List.pairwise_cons.mpr ⟨?_, far⟩⟩
  · intro other member id its
    rcases List.mem_cons.mp member with rfl | inRest
    · rcases sinks id its with old | ⟨-, new⟩
      · exact Nat.lt_of_lt_of_le (fit.bound recipient (List.mem_cons_self ..) id old) count
      · exact new
    · exact Nat.lt_of_lt_of_le (fit.bound other (List.mem_cons_of_mem _ inRest) id its) count
  · intro other member id his hers
    rcases sinks id his with old | ⟨new, -⟩
    · exact near other member old hers
    · exact Nat.not_le.mpr (fit.bound other (List.mem_cons_of_mem _ member) id hers) new

theorem replace_middle (fit : AreFit (front ++ recipient :: rest) world) (later : next.IsFit)
    (count : world.sinks.length ≤ next.sinks.length)
    (sinks : ∀ id ∈ after.sinks, id ∈ recipient.sinks ∨ world.sinks.length ≤ id ∧ id < next.sinks.length) :
    AreFit (front ++ after :: rest) next :=
  ((fit.perm List.perm_middle).replace later count sinks).perm List.perm_middle.symm

theorem deliverAll (fit : AreFit (front ++ recipients) world)
    (home : ∀ recipient ∈ recipients, recipient.StaysHome event world) :
    AreFit (front ++ (Dispatcher.deliverAll event recipients world).2.1) (Dispatcher.deliverAll event recipients world).2.2 := by
  induction recipients generalizing front world with
  | nil => exact fit
  | cons first rest ih =>
      have bound := fit.bound first (List.mem_append_right _ (List.mem_cons_self ..))
      have serves := deliver_serves fit.fits bound (home first (List.mem_cons_self ..))
      have fitNext := fit.replace_middle serves.fit serves.changes.sinkCount serves.sinks
      rw [List.append_cons] at fitNext
      have near := (List.pairwise_cons.mp (List.pairwise_append.mp fit.disjoint).2.1).1
      have later := ih fitNext fun other member => (home other (List.mem_cons_of_mem _ member)).later serves.changes
        (fit.bound other (List.mem_append_right _ (List.mem_cons_of_mem _ member))) fun id hers his => near other member his hers
      rw [List.append_assoc] at later
      exact later

theorem retire {router left : Router} (fit : AreFit (front ++ .router router :: rest) world) (ids : List SinkId)
    (kept : left.sinks ⊆ router.sinks) : AreFit (front ++ .router left :: rest) (world.stopThese ids) :=
  fit.replace_middle (fit.fits.stopThese ids) (Nat.le_of_eq (World.stopThese_length ids world).symm)
    fun _ member => .inl (kept member)

theorem reapEach {routers : List Router} (fit : AreFit (front ++ routers.map .router) world) (now : Millis) :
    AreFit (front ++ (Dispatcher.reapEach now routers world).2.1.map .router) (Dispatcher.reapEach now routers world).2.2 := by
  induction routers generalizing front world with
  | nil => exact fit
  | cons router rest ih =>
      have reaped := fit.retire (router.idleSinks now) (router.reapAt_subset now world)
      rw [← router.reapAt_world, List.append_cons] at reaped
      have later := ih reaped
      rw [List.append_assoc] at later
      exact later

theorem stopEach {routers : List Router} (fit : AreFit (front ++ routers.map .router) world) :
    AreFit (front ++ (Dispatcher.stopEach routers world).2.1.map .router) (Dispatcher.stopEach routers world).2.2 := by
  induction routers generalizing front world with
  | nil => exact fit
  | cons router rest ih =>
      have stopped : AreFit (front ++ .router (router.stopAll world).2.1 :: rest.map .router) (world.stopThese router.sinks) :=
        fit.retire router.sinks (List.nil_subset _)
      rw [← router.stopAll_world, List.append_cons] at stopped
      have later := ih stopped
      rw [List.append_assoc] at later
      exact later

end AreFit

end Recipient

namespace Dispatcher

variable {dispatcher : Dispatcher} {world : World} {event : Event}

theorem isFit_iff : dispatcher.IsFit world ↔ Recipient.AreFit dispatcher.recipients world :=
  ⟨fun fit => ⟨⟨fit.sound, fit.separate, fit.sinks⟩, fit.bound, fit.disjoint⟩,
    fun fit => ⟨fit.fits.sound, fit.fits.separate, fit.fits.sinks, fit.bound, fit.disjoint⟩⟩

theorem IsFit.dispatch (fit : dispatcher.IsFit world) (home : ∀ recipient ∈ dispatcher.recipients, recipient.StaysHome event world) :
    (dispatcher.dispatch event world).2.1.IsFit (dispatcher.dispatch event world).2.2 := by
  cases accepting : dispatcher.accepting with
  | false =>
      rw [dispatch_closed accepting]
      exact fit
  | true =>
      by_cases low : event.level < dispatcher.minLevel
      · rw [dispatch_low accepting low]
        exact fit
      · obtain ⟨platform, routers, same, recipients⟩ := dispatch_delivers accepting low world
        rw [same, isFit_iff, recipients]
        exact (show Recipient.AreFit ([] ++ dispatcher.recipients) world from isFit_iff.mp fit).deliverAll home

theorem IsFit.reap (fit : dispatcher.IsFit world) : (dispatcher.reap world).2.1.IsFit (dispatcher.reap world).2.2 :=
  isFit_iff.mpr ((isFit_iff.mp fit).reapEach world.instant)

theorem IsFit.stopRouters (fit : dispatcher.IsFit world) :
    (dispatcher.stopRouters world).2.1.IsFit (dispatcher.stopRouters world).2.2 :=
  isFit_iff.mpr (isFit_iff.mp fit).stopEach

theorem IsFit.reapRouter (fit : dispatcher.IsFit world) (name : String) (now : Millis) :
    (dispatcher.onRouter name world fun router world => router.reapAt now world).2.1.IsFit
      (dispatcher.onRouter name world fun router world => router.reapAt now world).2.2 := by
  unfold onRouter
  split
  · exact fit
  next index _ =>
    split
    · exact fit
    next router there =>
      obtain ⟨front, back, around, changed⟩ := set_around there
      have reaped := isFit_iff.mp fit
      rw [recipients, around, List.map_append, List.map_cons, ← List.append_assoc] at reaped
      have later := reaped.retire (router.idleSinks now) (router.reapAt_subset now world)
      rw [← router.reapAt_world] at later
      dsimp only
      rw [isFit_iff, recipients, changed, List.map_append, List.map_cons, ← List.append_assoc]
      exact later

theorem IsFit.later {next : World} {later : Dispatcher} (fit : dispatcher.IsFit world) (fits : next.IsFit)
    (count : world.sinks.length ≤ next.sinks.length) (recipients : later.recipients = dispatcher.recipients) :
    later.IsFit next := by
  rw [isFit_iff, recipients]
  exact ⟨fits, fun recipient member id its => Nat.lt_of_lt_of_le (fit.bound recipient member id its) count, fit.disjoint⟩

end Dispatcher

end KeyedLog
