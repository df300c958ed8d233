import KeyedLog.Proofs.Router.Creation
import KeyedLog.Proofs.Router.Independence
import KeyedLog.Proofs.Router.Stops

/-!
A router in two worlds that look the same to it. It answers alike in both and stays the same, but for the numbers of its
sinks.
-/

namespace KeyedLog

open FileTree

namespace Registry

def renamed (registry : Registry) (mate : SinkId → SinkId) : Registry :=
  { registry with entries := registry.entries.map fun entry => { entry with sink := mate entry.sink } }

variable {registry : Registry} {mate : SinkId → SinkId}

theorem renamed_id (registry : Registry) : registry.renamed id = registry := by
  simp [renamed]

theorem find?_renamed (registry : Registry) (mate : SinkId → SinkId) (key : String) :
    (registry.renamed mate).find? key = (registry.find? key).map fun entry => { entry with sink := mate entry.sink } := by
  rw [find?, find?, renamed, List.find?_map]
  rfl

theorem touch_renamed (registry : Registry) (mate : SinkId → SinkId) (key : String) (now : Millis) :
    (registry.renamed mate).touch key now = (registry.touch key now).renamed mate := by
  simp only [touch, renamed, List.map_map, mk.injEq, and_true]
  refine List.map_congr_left fun entry _ => ?_
  simp only [Function.comp_apply]
  split <;> rfl

theorem register_renamed (registry : Registry) (mate : SinkId → SinkId) (key : String) (id : SinkId) (now : Millis) :
    (registry.renamed mate).register key (mate id) now = (registry.register key id now).renamed mate := by
  simp [register, renamed]

theorem renamed_congr {other : SinkId → SinkId} (same : ∀ entry ∈ registry.entries, other entry.sink = mate entry.sink) :
    registry.renamed other = registry.renamed mate := by
  rw [renamed, renamed, mk.injEq]
  exact ⟨List.map_congr_left fun entry member => by rw [same entry member], rfl, rfl⟩

end Registry

namespace Router

def Tends (keys : String → Prop) (others : SinkId → Prop) (router : Router) (id : SinkId) : Prop :=
  ∃ entry ∈ router.registry.entries, entry.sink = id ∧ (keys entry.key ∨ others id)

/-- The router stands in the one world and its counterpart in the other, and the worlds look the same to both. -/
structure Mirrors (scope : Scope) (keys : String → Prop) (others : SinkId → Prop) (mate : SinkId → SinkId)
    (router solo : Router) (world twin : World) : Prop where
  solo : solo = { router with registry := router.registry.renamed mate }
  worlds : World.Mirrors scope (router.Tends keys others) mate world twin
  bound : ∀ id ∈ router.sinks, id < world.sinks.length ∧ mate id < twin.sinks.length
  idle : ∀ id ∈ router.sinks, ¬ router.Tends keys others id → world.remote? id = none ∧ twin.remote? (mate id) = none
  provides : ∀ key, keys key → scope.Provides world.files router.factory key

variable {scope theirs : Scope} {keys : String → Prop} {others touched : SinkId → Prop} {mate : SinkId → SinkId}
  {router solo after : Router} {world twin next nextTwin : World} {key : String}

structure Proceeds (scope : Scope) (keys : String → Prop) (others : SinkId → Prop) (mate : SinkId → SinkId)
    (router : Router) (world twin : World) (after : Router) (next : World) (solo : Router) (nextTwin : World) : Prop where
  mirrors : Mirrors scope keys others mate after solo next nextTwin
  changes : World.Confined scope (· ∈ router.sinks) world next
  changesTwin : World.Confined scope (fun _ => True) twin nextTwin
  sinks : ∀ id ∈ after.sinks, id ∈ router.sinks ∨ world.sinks.length ≤ id

theorem tends_touch {id : SinkId} {now : Millis} :
    ({ router with registry := router.registry.touch key now } : Router).Tends keys others id ↔ router.Tends keys others id := by
  constructor
  · rintro ⟨entry, member, rfl, known⟩
    obtain ⟨old, before, sameKey, sameSink, -⟩ := Registry.mem_touch.mp member
    exact ⟨old, before, sameSink.symm, sameKey ▸ known⟩
  · rintro ⟨entry, member, rfl, known⟩
    let used := if entry.key = key then max entry.lastUsed now else entry.lastUsed
    exact ⟨⟨entry.key, entry.sink, used⟩, Registry.mem_touch.mpr ⟨entry, member, rfl, rfl, rfl⟩, rfl, known⟩

theorem Mirrors.register {factory : Factory} (mirrors : Mirrors scope keys others mate router solo world twin) (his : keys key)
    (worlds : World.Mirrors scope (fun id => router.Tends keys others id ∨ id = world.sinks.length)
      (Function.update mate world.sinks.length twin.sinks.length) next nextTwin)
    (changes : World.Confined scope (fun _ => False) world next) (count : next.sinks.length = world.sinks.length + 1)
    (changesTwin : World.Confined scope (fun _ => False) twin nextTwin) (countTwin : nextTwin.sinks.length = twin.sinks.length + 1)
    (served : ∀ other, keys other → scope.Provides next.files factory other) :
    Proceeds scope keys others (Function.update mate world.sinks.length twin.sinks.length) router world twin
        { router with registry := router.registry.register key world.sinks.length world.instant, factory } next
        { solo with registry := solo.registry.register key twin.sinks.length twin.instant, factory } nextTwin ∧
      ({ router with registry := router.registry.register key world.sinks.length world.instant, factory } : Router).Tends
        keys others world.sinks.length := by
  obtain ⟨rfl, before, bound, idle, -⟩ := mirrors
  have kept : ∀ id ∈ router.sinks, Function.update mate world.sinks.length twin.sinks.length id = mate id :=
    fun id member => Function.update_of_ne (Nat.ne_of_lt (bound id member).1) ..
  have old : ∀ entry ∈ router.registry.entries,
      Function.update mate world.sinks.length twin.sinks.length entry.sink = mate entry.sink :=
    fun entry member => kept entry.sink (List.mem_map_of_mem member)
  have registered : ∀ id, id ∈ ({ router with
      registry := router.registry.register key world.sinks.length world.instant, factory } : Router).sinks ↔
        id ∈ router.sinks ∨ id = world.sinks.length := by
    simp [sinks, Registry.register]
  have renewed : (router.registry.renamed mate).register key twin.sinks.length world.instant =
      (router.registry.register key world.sinks.length world.instant).renamed
        (Function.update mate world.sinks.length twin.sinks.length) := by
    rw [← Registry.register_renamed, Registry.renamed_congr old, Function.update_self]
  have tends : ∀ id, ({ router with registry := router.registry.register key world.sinks.length world.instant, factory } :
      Router).Tends keys others id ↔ router.Tends keys others id ∨ id = world.sinks.length := by
    intro id
    constructor
    · rintro ⟨entry, member, rfl, known⟩
      rcases List.mem_append.mp member with before | last
      · exact .inl ⟨entry, before, rfl, known⟩
      · exact .inr (by rw [List.mem_singleton.mp last])
    · rintro (⟨entry, member, same, known⟩ | rfl)
      · exact ⟨entry, List.mem_append_left _ member, same, known⟩
      · exact ⟨_, List.mem_append_right _ (List.mem_singleton.mpr rfl), rfl, .inl his⟩
  refine ⟨⟨⟨?_, ?_, ?_, ?_, served⟩, changes.mono id fun _ _ none => none.elim, changesTwin.mono id fun _ _ _ => trivial, ?_⟩,
    (tends _).mpr (.inr rfl)⟩
  · rw [before.instant, renewed]
  · exact worlds.fewer fun id => (tends id).mp
  · intro id member
    rw [count, countTwin]
    rcases (registered id).mp member with before | rfl
    · rw [kept id before]
      exact ⟨Nat.lt_succ_of_lt (bound id before).1, Nat.lt_succ_of_lt (bound id before).2⟩
    · rw [Function.update_self]
      exact ⟨Nat.lt_succ_self _, Nat.lt_succ_self _⟩
  · intro id member away
    obtain ⟨away, different⟩ := not_or.mp (mt (tends id).mpr away)
    have before := ((registered id).mp member).resolve_right different
    rw [kept id before, changes.remotes id (bound id before).1, changesTwin.remotes _ (bound id before).2]
    exact idle id before away
  · intro id member
    rcases (registered id).mp member with before | rfl
    · exact .inl before
    · exact .inr (Nat.le_refl _)

theorem Mirrors.touch (mirrors : Mirrors scope keys others mate router solo world twin) (key : String) :
    Proceeds scope keys others mate router world twin
      { router with registry := router.registry.touch key world.instant } world
      { solo with registry := solo.registry.touch key twin.instant } twin := by
  obtain ⟨rfl, worlds, bound, idle, provides⟩ := mirrors
  refine ⟨⟨?_, ?_, ?_, ?_, provides⟩, .refl world, .refl twin, ?_⟩
  · rw [worlds.instant, Registry.touch_renamed]
  · exact worlds.fewer fun id => tends_touch.mp
  · rw [sinks, Registry.sinks_touch]
    exact bound
  · rw [sinks, Registry.sinks_touch]
    exact fun id member away => idle id member (mt tends_touch.mpr away)
  · rw [sinks, Registry.sinks_touch]
    exact fun id member => .inl member

theorem Mirrors.refuse {factory : Factory} (mirrors : Mirrors scope keys others mate router solo world twin)
    (worlds : World.Mirrors scope (router.Tends keys others) mate next nextTwin)
    (changes : World.Confined scope (fun _ => False) world next) (changesTwin : World.Confined scope (fun _ => False) twin nextTwin)
    (served : ∀ other, keys other → scope.Provides next.files factory other) :
    Proceeds scope keys others mate router world twin { router with factory } next { solo with factory } nextTwin := by
  obtain ⟨rfl, -, bound, idle, -⟩ := mirrors
  refine ⟨⟨rfl, worlds, ?_, ?_, served⟩, changes.mono id fun _ _ none => none.elim,
    changesTwin.mono id fun _ _ _ => trivial, fun id member => .inl member⟩
  · exact fun id member => ⟨Nat.lt_of_lt_of_le (bound id member).1 changes.sinkCount,
      Nat.lt_of_lt_of_le (bound id member).2 changesTwin.sinkCount⟩
  · intro id member away
    rw [changes.remotes id (bound id member).1, changesTwin.remotes _ (bound id member).2]
    exact idle id member away

theorem resolve_mirrors (mirrors : Mirrors scope keys others mate router solo world twin) (his : keys key) :
    (∃ fault after next soloAfter twinAfter, router.resolve key world = (.error fault, after, next) ∧
        solo.resolve key twin = (.error fault, soloAfter, twinAfter) ∧
        Proceeds scope keys others mate router world twin after next soloAfter twinAfter) ∨
      ∃ id renewed after next soloAfter twinAfter, router.resolve key world = (.ok id, after, next) ∧
        solo.resolve key twin = (.ok (renewed id), soloAfter, twinAfter) ∧
        Proceeds scope keys others renewed router world twin after next soloAfter twinAfter ∧ after.Tends keys others id := by
  have same := mirrors.solo
  have name : solo.name = router.name := by rw [same]
  have registry : solo.registry = router.registry.renamed mate := by rw [same]
  have closedTwin : solo.registry.closed = router.registry.closed := by rw [registry]; rfl
  have foundTwin := registry ▸ Registry.find?_renamed router.registry mate key
  cases closed : router.registry.closed with
  | true =>
      refine .inl ⟨_, _, _, _, _, resolve_closed closed key world, ?_, mirrors, .refl world, .refl twin,
        fun id member => .inl member⟩
      rw [resolve_closed (closedTwin.trans closed), name]
  | false =>
      cases found : router.registry.find? key with
      | some entry =>
          obtain ⟨member, named⟩ := Registry.find?_mem found
          rw [found] at foundTwin
          exact .inr ⟨entry.sink, mate, _, _, _, _, resolve_found closed found,
            resolve_found (closedTwin.trans closed) foundTwin, mirrors.touch key,
            tends_touch.mpr ⟨entry, member, rfl, .inl (named ▸ his)⟩⟩
      | none =>
          rw [found] at foundTwin
          have factory : solo.factory = router.factory := by rw [same]
          have served : ∀ answer kind next, Factory.create router.name key (router.factory, world) = (answer, kind, next) →
              next.files.workingDirectory = world.files.workingDirectory →
                ∀ other, keys other → scope.Provides next.files kind other := by
            intro answer kind next made home other its
            have served := (mirrors.provides other its).create router.name key world
            rw [made] at served
            exact served.congr home
          rcases Factory.create_mirrors mirrors.worlds (mirrors.provides key his) router.name with
            ⟨fault, kind, next, nextTwin, made, madeTwin, worlds, changes, changesTwin⟩ |
              ⟨kind, next, nextTwin, made, madeTwin, worlds, changes, changesTwin, count, countTwin⟩
          · have served := served _ _ _ made changes.files.home
            rw [← name, ← factory] at madeTwin
            exact .inl ⟨_, _, _, _, _, resolve_failed closed found made,
              by rw [resolve_failed (closedTwin.trans closed) foundTwin madeTwin, name],
              mirrors.refuse worlds changes changesTwin served⟩
          · have served := served _ _ _ made changes.files.home
            obtain ⟨proceeds, tends⟩ := mirrors.register his worlds changes count changesTwin countTwin served
            rw [← name, ← factory] at madeTwin
            refine .inr ⟨_, _, _, _, _, _, resolve_made closed found made, ?_, proceeds, tends⟩
            rw [Function.update_self]
            exact resolve_made (closedTwin.trans closed) foundTwin madeTwin

theorem Proceeds.write {id : SinkId} {soloAfter : Router} {twinAfter : World}
    (proceeds : Proceeds scope keys others mate router world twin after next soloAfter twinAfter) (tends : after.Tends keys others id)
    (event : Event) :
    (twinAfter.write (mate id) event).1 = (next.write id event).1 ∧
      Proceeds scope keys others mate router world twin after (next.write id event).2 soloAfter
        (twinAfter.write (mate id) event).2 := by
  obtain ⟨⟨same, worlds, bound, idle, provides⟩, changes, changesTwin, old⟩ := proceeds
  obtain ⟨answer, written, touches, touchesTwin⟩ := worlds.write tends event
  refine ⟨answer, ⟨same, written, ?_, ?_, ?_⟩, ?_, changesTwin.trans (touchesTwin.mono (fun files => files) fun _ _ _ => trivial),
    old⟩
  · exact fun id member => ⟨Nat.lt_of_lt_of_le (bound id member).1 touches.sinkCount,
      Nat.lt_of_lt_of_le (bound id member).2 touchesTwin.sinkCount⟩
  · intro id member away
    rw [touches.remotes id (bound id member).1, touchesTwin.remotes _ (bound id member).2]
    exact idle id member away
  · exact fun key its => (provides key its).congr touches.files.home
  · have first : World.Confined scope (fun id => id ∈ router.sinks ∨ world.sinks.length ≤ id) world next :=
      changes.mono (fun files => files) fun _ _ member => .inl member
    have second : World.Confined scope (fun id => id ∈ router.sinks ∨ world.sinks.length ≤ id) next (next.write id event).2 := by
      refine touches.mono (fun files => files) ?_
      rintro _ _ rfl
      obtain ⟨entry, member, rfl, -⟩ := tends
      exact old _ (List.mem_map_of_mem member)
    exact (first.trans second).mono (fun files => files) fun id there known => known.resolve_right (Nat.not_le.mpr there)

theorem route_mirrors (mirrors : Mirrors scope keys others mate router solo world twin) (event : Event)
    (his : router.discriminator.passes event = true → keys (router.discriminator.extract event)) :
    (solo.route event twin).1 = (router.route event world).1 ∧
      ∃ renewed, Proceeds scope keys others renewed router world twin (router.route event world).2.1 (router.route event world).2.2
        (solo.route event twin).2.1 (solo.route event twin).2.2 := by
  have same := mirrors.solo
  have discriminator : solo.discriminator = router.discriminator := by rw [same]
  cases passes : router.discriminator.passes event with
  | false =>
      rw [route_suppressed passes, route_suppressed (discriminator ▸ passes)]
      exact ⟨rfl, mate, mirrors, .refl world, .refl twin, fun id member => .inl member⟩
  | true =>
      have passesTwin : solo.discriminator.passes event = true := discriminator ▸ passes
      rcases resolve_mirrors mirrors (his passes) with ⟨fault, after, next, soloAfter, twinAfter, one, two, proceeds⟩ |
        ⟨id, renewed, after, next, soloAfter, twinAfter, one, two, proceeds, tends⟩
      · rw [← discriminator] at two
        rw [route_unresolved passes one, route_unresolved passesTwin two]
        exact ⟨rfl, mate, proceeds⟩
      · have renamed : soloAfter.name = after.name := by rw [proceeds.mirrors.solo]
        obtain ⟨answer, written⟩ := proceeds.write tends event
        rw [← discriminator] at two
        rw [route_resolved passes one, route_resolved passesTwin two]
        exact ⟨by rw [answer, renamed, discriminator], renewed, written⟩

theorem Mirrors.wait (mirrors : Mirrors scope keys others mate router solo world twin) (instant : Millis) :
    Mirrors scope keys others mate router solo { world with instant } { twin with instant } :=
  ⟨mirrors.solo, mirrors.worlds.wait instant, mirrors.bound, mirrors.idle, mirrors.provides⟩

theorem Mirrors.frame (mirrors : Mirrors scope keys others mate router solo world twin)
    (confined : World.Confined theirs touched world next) (apart : ∀ id ∈ router.sinks, ¬ touched id)
    (isApart : scope.IsApart world.files theirs) : Mirrors scope keys others mate router solo next twin := by
  obtain ⟨same, worlds, bound, idle, provides⟩ := mirrors
  refine ⟨same, worlds.frame confined ?_ isApart, ?_, ?_, fun key its => (provides key its).congr confined.files.home⟩
  · rintro _ ⟨entry, member, rfl, -⟩
    exact apart _ (List.mem_map_of_mem member)
  · exact fun id member => ⟨Nat.lt_of_lt_of_le (bound id member).1 confined.sinkCount, (bound id member).2⟩
  · intro id member away
    rw [confined.remotes id (bound id member).1]
    exact idle id member away

end Router

end KeyedLog
