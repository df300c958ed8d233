import KeyedLog.Proofs.Router.Traffic

/-!
Whatever threads do with a router and whenever, no key has two sinks that are not stopped, no sink is stopped for being idle
while somebody holds it, and once all sinks have been stopped there are none any more.
-/

namespace KeyedLog

namespace Registry

def Narrows (before after : Registry) : Prop :=
  before.closed = true → after.closed = true ∧ after.keys ⊆ before.keys

def IsOver (registry : Registry) : Prop :=
  registry.closed = true ∧ registry.entries = []

/-- The accounts of a registry whose sinks are held. What is held was made, and was not stopped for being idle. -/
structure Holds (registry : Registry) (world : World) (made stops reaps : List Placement) (held : List SinkId) : Prop where
  accounts : registry.Accounts world made stops
  live : registry.IsLive world
  handles : registry.handles.Perm held
  owned : ∀ sink ∈ held, sink ∈ made.map (·.sink)
  stopped : reaps ⊆ stops
  unreaped : ∀ placement ∈ reaps, placement.sink ∉ held

variable {registry other : Registry} {world after : World} {made stops reaps : List Placement} {held more : List SinkId}
  {sink : SinkId} {key : String} {entry : Registration}

theorem narrows_of_placements (closed : other.closed = registry.closed) (same : other.placements = registry.placements) :
    registry.Narrows other := by
  intro past
  rw [keys_eq, same, ← keys_eq]
  exact ⟨closed.trans past, List.Subset.refl _⟩

theorem Narrows.refl (registry : Registry) : registry.Narrows registry :=
  narrows_of_placements rfl rfl

theorem narrows_remove (registry : Registry) (key : String) : registry.Narrows (registry.remove key) :=
  fun closed => ⟨closed, (List.filter_sublist.map _).subset⟩

theorem narrows_close (registry : Registry) : registry.Narrows registry.close :=
  fun _ => ⟨rfl, List.Subset.refl _⟩

theorem IsOver.narrows (past : registry.IsOver) (narrows : registry.Narrows other) : other.IsOver := by
  obtain ⟨closed, fewer⟩ := narrows past.1
  rw [keys, keys, past.2, List.map_nil, List.subset_nil, List.map_eq_nil_iff] at fewer
  exact ⟨closed, fewer⟩

namespace Holds

theorem start (world : World) : Holds {} world [] [] [] [] where
  accounts := .empty world
  live := by simp [IsLive, placements]
  handles := .nil
  owned := by simp
  stopped := List.Subset.refl _
  unreaped := by simp

theorem spare (holds : registry.Holds world made stops reaps held) (spares : world.Spares after (made.map (·.sink))) :
    registry.Holds after made stops reaps held :=
  { holds with accounts := holds.accounts.spare spares, live := holds.live.spare holds.accounts spares }

theorem unstopped (holds : registry.Holds world made stops reaps held) (member : entry ∈ registry.entries) :
    ∀ placement ∈ stops, placement.sink ≠ entry.sink := by
  intro placement past same
  have apart := holds.accounts.apart
  rw [List.map_append, List.nodup_append] at apart
  have registered : entry.placement ∈ registry.placements := List.mem_map_of_mem member
  exact apart.2.2 _ (List.mem_map_of_mem registered) _ (List.mem_map_of_mem past) same.symm

theorem take (holds : registry.Holds world made stops reaps held) (found : registry.find? key = some entry)
    (perm : more.Perm (entry.sink :: held)) (now : Millis) :
    ((registry.touch key now).hold entry.sink).Holds world made stops reaps more := by
  have same : ((registry.touch key now).hold entry.sink).placements = registry.placements := by simp
  have member := (find?_mem found).1
  refine { holds with
    accounts := holds.accounts.congr same, live := holds.live.congr same, handles := ?_, owned := ?_, unreaped := ?_ }
  · exact (holds.handles.cons _).trans perm.symm
  · intro sink present
    rcases List.mem_cons.mp (perm.mem_iff.mp present) with rfl | old
    · have registered : entry.placement ∈ registry.placements := List.mem_map_of_mem member
      exact List.mem_map_of_mem (holds.accounts.mem_made registered)
    · exact holds.owned sink old
  · intro placement reaped present
    rcases List.mem_cons.mp (perm.mem_iff.mp present) with new | old
    · exact holds.unstopped member placement (holds.stopped reaped) new
    · exact holds.unreaped placement reaped old

theorem make (holds : registry.Holds world made stops reaps held) (makes : world.Makes after sink)
    (missing : registry.find? key = none) (perm : more.Perm (sink :: held)) (now : Millis) :
    ((registry.register key sink now).hold sink).Holds after (made ++ [⟨key, sink⟩]) stops reaps more := by
  have same := placements_hold (registry.register key sink now) sink
  refine ⟨(holds.accounts.register makes.toAdds missing now).congr same,
    (holds.live.register holds.accounts makes now).congr same, (holds.handles.cons _).trans perm.symm, ?_, holds.stopped, ?_⟩
  · intro other present
    rw [List.map_append, List.mem_append]
    rcases List.mem_cons.mp (perm.mem_iff.mp present) with rfl | old
    · exact .inr (List.mem_singleton_self _)
    · exact .inl (holds.owned other old)
  · intro placement reaped present
    rcases List.mem_cons.mp (perm.mem_iff.mp present) with new | old
    · have bound := holds.accounts.known placement (holds.accounts.stop_made (holds.stopped reaped))
      exact absurd (new ▸ bound) (Nat.not_lt.mpr makes.fresh)
    · exact holds.unreaped placement reaped old

theorem release (holds : registry.Holds world made stops reaps held) (perm : held.Perm (sink :: more)) :
    (registry.release sink).Holds world made stops reaps more := by
  have fewer : more ⊆ held := fun other present => perm.mem_iff.mpr (List.mem_cons_of_mem _ present)
  refine { holds with
    accounts := holds.accounts.congr (placements_release _ _), live := holds.live.congr (placements_release _ _)
    handles := ?_, owned := ?_, unreaped := ?_ }
  · have erased := (holds.handles.trans perm).erase sink
    rwa [List.erase_cons_head] at erased
  · exact fun other present => holds.owned other (fewer present)
  · exact fun placement reaped present => holds.unreaped placement reaped (fewer present)

theorem close (holds : registry.Holds world made stops reaps held) : registry.close.Holds world made stops reaps held :=
  { holds with accounts := holds.accounts.congr (placements_close _), live := holds.live.congr (placements_close _) }

theorem remove (holds : registry.Holds world made stops reaps held) (found : registry.find? key = some entry) :
    (registry.remove key).Holds (world.stop entry.sink) made (stops ++ [entry.placement]) reaps held where
  accounts := holds.accounts.remove found
  live := holds.live.remove holds.accounts found
  handles := holds.handles
  owned := holds.owned
  stopped := List.Subset.trans holds.stopped (List.subset_append_left _ _)
  unreaped := holds.unreaped

theorem reap (holds : registry.Holds world made stops reaps held) (found : registry.find? key = some entry) {now timeout : Millis}
    (expired : registry.isExpired now timeout entry = true) :
    (registry.remove key).Holds (world.stop entry.sink) made (stops ++ [entry.placement]) (reaps ++ [entry.placement])
      held := by
  have removed := holds.remove found
  refine { removed with stopped := ?_, unreaped := ?_ }
  · exact List.append_subset.mpr ⟨removed.stopped, List.subset_append_right _ _⟩
  · intro placement reaped present
    rcases List.mem_append.mp reaped with old | new
    · exact holds.unreaped placement old present
    · rw [List.mem_singleton.mp new] at present
      have free : entry.sink ∉ registry.handles := by
        simp only [isExpired, Bool.and_eq_true, Bool.not_eq_true', List.contains_eq_mem, decide_eq_false_iff_not] at expired
        exact expired.2
      exact free (holds.handles.mem_iff.mpr present)

theorem runs_of_held (holds : registry.Holds world made stops reaps held) (present : sink ∈ held)
    (unended : ∀ placement ∈ stops, placement ∈ reaps) : world.isRunning sink = true := by
  obtain ⟨placement, member, rfl⟩ := List.mem_map.mp (holds.owned sink present)
  rcases List.mem_append.mp (holds.accounts.balance.mem_iff.mp member) with registered | past
  · exact holds.live placement registered
  · exact absurd present (holds.unreaped placement (unended placement past))

end Holds

end Registry

/-- What a thread that stops all sinks knows about those that are left: it has their keys, or has yet to read them. -/
def Stage.Covers (shards : Sharding) (registry : Registry) : Stage → Prop
  | listing shard keys =>
    registry.closed = true ∧ ∀ key ∈ registry.keys, shards.shardOf key < shard → key ∈ keys
  | stopping keys _ => registry.closed = true ∧ registry.keys ⊆ keys
  | _ => True

theorem Stage.Covers.narrows {shards : Sharding} {stage : Stage} {before after : Registry}
    (covers : stage.Covers shards before) (narrows : before.Narrows after) : stage.Covers shards after := by
  cases stage with
  | listing shard keys =>
      obtain ⟨closed, fewer⟩ := narrows covers.1
      exact ⟨closed, fun key member => covers.2 key (fewer member)⟩
  | stopping keys count =>
      obtain ⟨closed, fewer⟩ := narrows covers.1
      exact ⟨closed, List.Subset.trans fewer covers.2⟩
  | _ => trivial

def Deed.IsAllowed (registry : Registry) : Deed → Prop
  | ended _ => registry.closed = true
  | wrote _ (.error (.stopped _)) => registry.closed = true
  | finished _ => registry.IsOver
  | _ => True

theorem Deed.IsAllowed.narrows {deed : Deed} {before after : Registry} (allowed : deed.IsAllowed before)
    (narrows : before.Narrows after) : deed.IsAllowed after := by
  unfold IsAllowed at allowed ⊢
  split at allowed
  · exact (narrows allowed).1
  · exact (narrows allowed).1
  · exact allowed.narrows narrows
  · trivial

/-- What threads have done and have yet to do agrees with whether the registry is closed. -/
structure Agrees (shards : Sharding) (registry : Registry) (threads : List Stage) (log : List Deed) : Prop where
  closed : .closed ∈ log ↔ registry.closed = true
  allowed : ∀ deed ∈ log, deed.IsAllowed registry
  covers : ∀ stage ∈ threads, stage.Covers shards registry
  /-- Nobody was told that a sink was stopped before the registry was closed. -/
  fair : ∀ earlier sink name later, log = earlier ++ .wrote sink (.error (.stopped name)) :: later → .closed ∈ earlier

namespace Agrees

variable {shards : Sharding} {registry other : Registry} {threads before after : List Stage} {old new : Stage}
  {log : List Deed} {deed : Deed}

theorem narrows (agrees : Agrees shards registry threads log) (closed : other.closed = registry.closed)
    (narrows : registry.Narrows other) : Agrees shards other threads log where
  closed := closed ▸ agrees.closed
  allowed deed member := (agrees.allowed deed member).narrows narrows
  covers stage member := (agrees.covers stage member).narrows narrows
  fair := agrees.fair

theorem covers_old (agrees : Agrees shards registry threads log) (split : threads = before ++ old :: after) :
    old.Covers shards registry :=
  agrees.covers old (split ▸ List.mem_append_right _ (List.mem_cons_self ..))

theorem replace (agrees : Agrees shards registry threads log) (new : Stage) (split : threads = before ++ old :: after)
    (covers : new.Covers shards registry) : Agrees shards registry (before ++ new :: after) log := by
  refine { agrees with covers := ?_ }
  intro stage member
  have others := agrees.covers
  rw [split] at others
  rcases List.mem_append.mp member with one | rest
  · exact others stage (List.mem_append_left _ one)
  · rcases List.mem_cons.mp rest with rfl | two
    · exact covers
    · exact others stage (List.mem_append_right _ (List.mem_cons_of_mem _ two))

theorem note (agrees : Agrees shards registry threads log) (deed : Deed) (narrows : registry.Narrows other)
    (closed : other.closed = true ↔ registry.closed = true ∨ deed = .closed) (allowed : deed.IsAllowed other) :
    Agrees shards other threads (log ++ [deed]) where
  closed := by rw [List.mem_append, List.mem_singleton, agrees.closed, closed, eq_comm (a := deed)]
  allowed earlier member := by
    rcases List.mem_append.mp member with noted | fresh
    · exact (agrees.allowed earlier noted).narrows narrows
    · exact List.mem_singleton.mp fresh ▸ allowed
  covers stage member := (agrees.covers stage member).narrows narrows
  fair earlier sink name later split := by
    rcases List.eq_nil_or_concat' later with rfl | ⟨rest, last, rfl⟩
    · obtain ⟨rfl, same⟩ := List.append_inj' split rfl
      rw [List.singleton_inj] at same
      subst same
      exact agrees.closed.mpr ((closed.mp allowed).resolve_right fun same => by cases same)
    · rw [← List.cons_append, ← List.append_assoc] at split
      exact agrees.fair earlier sink name rest (List.append_inj' split rfl).1

theorem stopped_reaped (agrees : Agrees shards registry threads log) (accepting : registry.closed = false) :
    ∀ placement ∈ log.filterMap Deed.stopped?, placement ∈ log.filterMap Deed.reaped? := by
  intro placement member
  obtain ⟨deed, noted, stopped⟩ := List.mem_filterMap.mp member
  refine List.mem_filterMap.mpr ⟨deed, noted, ?_⟩
  cases deed with
  | reaped other => exact stopped
  | ended other => exact absurd (agrees.allowed _ noted) (ne_true_of_eq_false accepting)
  | _ => cases stopped

end Agrees

namespace Traffic

/-- What is true at every moment. -/
structure Sound (shards : Sharding) (traffic : Traffic) : Prop where
  holds : traffic.router.registry.Holds traffic.world traffic.made traffic.stops traffic.reaps traffic.held
  agrees : Agrees shards traffic.router.registry traffic.threads traffic.log

variable {shards : Sharding} {traffic : Traffic} {before after : List Stage} {old new : Stage} {sink : SinkId}

theorem held_same (split : traffic.threads = before ++ old :: after) (same : new.held? = old.held?) :
    (before ++ new :: after).filterMap Stage.held? = traffic.held := by
  simp only [held, split, List.filterMap_append, List.filterMap_cons, same]

theorem held_more (new : Stage) (split : traffic.threads = before ++ old :: after) (free : old.held? = none)
    (holds : new.held? = some sink) :
    ((before ++ new :: after).filterMap Stage.held?).Perm (sink :: traffic.held) := by
  simp only [held, split, List.filterMap_append, List.filterMap_cons, free, holds]
  exact List.perm_middle

theorem held_less (new : Stage) (split : traffic.threads = before ++ old :: after) (holds : old.held? = some sink)
    (free : new.held? = none) :
    traffic.held.Perm (sink :: (before ++ new :: after).filterMap Stage.held?) := by
  simp only [held, split, List.filterMap_append, List.filterMap_cons, free, holds]
  exact List.perm_middle

theorem turn_nothing (traffic : Traffic) (before after : List Stage) (stage : Stage) (router : Router) (world : World) :
    traffic.turn before after { stage, router, world } =
      { traffic with router, world, threads := before ++ stage :: after } := by
  simp [turn]

theorem filterMap_concat {β : Type} (view : Deed → Option β) (log : List Deed) (deed : Deed) :
    (log ++ [deed]).filterMap view = log.filterMap view ++ (view deed).toList := by
  rw [List.filterMap_append]
  cases seen : view deed <;> simp [seen]

theorem sound_turn {router : Router} {world : World} {deed : Deed}
    (holds : router.registry.Holds world (traffic.made ++ deed.made?.toList) (traffic.stops ++ deed.stopped?.toList)
      (traffic.reaps ++ deed.reaped?.toList) ((before ++ new :: after).filterMap Stage.held?))
    (agrees : Agrees shards router.registry (before ++ new :: after) (traffic.log ++ [deed])) :
    Sound shards (traffic.turn before after { stage := new, router, world, deeds := [deed] }) := by
  refine ⟨?_, agrees⟩
  simp only [made, stops, reaps, turn, filterMap_concat]
  exact holds

theorem sound_deed (split : traffic.threads = before ++ old :: after) (same : new.held? = old.held?) {router : Router}
    {world : World} {deed : Deed}
    (holds : router.registry.Holds world (traffic.made ++ deed.made?.toList) (traffic.stops ++ deed.stopped?.toList)
      (traffic.reaps ++ deed.reaped?.toList) traffic.held)
    (agrees : Agrees shards router.registry (before ++ new :: after) (traffic.log ++ [deed])) :
    Sound shards (traffic.turn before after { stage := new, router, world, deeds := [deed] }) := by
  rw [← held_same split same] at holds
  exact sound_turn holds agrees

namespace Sound

theorem stage (sound : traffic.Sound shards) (split : traffic.threads = before ++ old :: after)
    (held : new.held? = old.held?) (covers : new.Covers shards traffic.router.registry) :
    Sound shards { traffic with threads := before ++ new :: after } where
  holds := by
    rw [Traffic.held, held_same split held]
    exact sound.holds
  agrees := sound.agrees.replace _ split covers

theorem quiet (sound : traffic.Sound shards) (split : traffic.threads = before ++ old :: after)
    (held : new.held? = old.held?) (covers : new.Covers shards traffic.router.registry) :
    Sound shards (traffic.turn before after { stage := new, router := traffic.router, world := traffic.world }) := by
  rw [turn_nothing]
  exact sound.stage split held covers

theorem elsewhere (sound : traffic.Sound shards) (factory : Factory) {world : World}
    (spares : traffic.world.Spares world (traffic.made.map (·.sink))) :
    Sound shards { traffic with router := { traffic.router with factory }, world } :=
  ⟨sound.holds.spare spares, sound.agrees⟩

theorem entering (sound : traffic.Sound shards) {event : Event} {now : Millis}
    (split : traffic.threads = before ++ .entering event now :: after) :
    Sound shards (traffic.turn before after (traffic.router.step shards traffic.world (.entering event now))) := by
  rw [Router.step]
  split
  · exact sound.quiet split rfl trivial
  · split
    · exact sound.quiet split rfl trivial
    · exact sound.quiet split rfl trivial

theorem take (sound : traffic.Sound shards) (split : traffic.threads = before ++ old :: after) (free : old.held? = none)
    {key : String} {entry : Registration} (found : traffic.router.registry.find? key = some entry) (now : Millis)
    (event : Event) :
    Sound shards (traffic.turn before after
      { stage := .holding event entry.sink
        router := { traffic.router with registry := (traffic.router.registry.touch key now).hold entry.sink }
        world := traffic.world }) := by
  rw [turn_nothing]
  have more := held_more (.holding event entry.sink) split free rfl
  refine ⟨sound.holds.take found more now, Agrees.narrows (sound.agrees.replace _ split trivial) rfl ?_⟩
  exact Registry.narrows_of_placements rfl (by simp)

theorem seeking (sound : traffic.Sound shards) {event : Event} {now : Millis}
    (split : traffic.threads = before ++ .seeking event now :: after) :
    Sound shards (traffic.turn before after (traffic.router.step shards traffic.world (.seeking event now))) := by
  rw [Router.step, Router.seek]
  cases found : traffic.router.registry.find? (traffic.router.discriminator.extract event) with
  | none => exact sound.quiet split rfl trivial
  | some entry => exact sound.take split rfl found now event

theorem claiming (sound : traffic.Sound shards) {event : Event} {now : Millis}
    (split : traffic.threads = before ++ .claiming event now :: after) :
    Sound shards (traffic.turn before after (traffic.router.step shards traffic.world (.claiming event now))) := by
  simp only [Router.step, Router.seek]
  cases found : traffic.router.registry.find? (traffic.router.discriminator.extract event) with
  | some entry => exact sound.take split rfl found now event
  | none =>
      simp only [Option.map_none]
      cases closed : traffic.router.registry.closed with
      | true => exact sound.quiet split rfl trivial
      | false =>
          simp only [Bool.false_eq_true, if_false]
          have yields := traffic.router.factory.create_yields traffic.router.name
            (traffic.router.discriminator.extract event) traffic.world
          generalize Factory.create traffic.router.name (traffic.router.discriminator.extract event)
            (traffic.router.factory, traffic.world) = outcome at yields ⊢
          obtain ⟨result, factory, world⟩ := outcome
          cases result with
          | error cause =>
              rw [turn_nothing]
              exact (sound.elsewhere factory (sound.holds.accounts.spares yields)).stage split rfl trivial
          | ok sink =>
              have more := held_more (.holding event sink) split rfl rfl
              have made := sound.holds.make yields found more now
              have narrows : traffic.router.registry.Narrows
                  ((traffic.router.registry.register (traffic.router.discriminator.extract event) sink now).hold sink) :=
                fun past => absurd past (ne_true_of_eq_false closed)
              have stands := sound.agrees.replace (.holding event sink) split trivial
              refine sound_turn ?_ (stands.note _ narrows ?_ trivial)
              · simpa [Deed.made?, Deed.stopped?, Deed.reaped?] using made
              · simp [Registry.register, Registry.hold]

theorem holding (sound : traffic.Sound shards) {event : Event} (split : traffic.threads = before ++ .holding event sink :: after) :
    Sound shards (traffic.turn before after (traffic.router.step shards traffic.world (.holding event sink))) := by
  have keeps := traffic.world.write_keepsStates sink event
  have held : sink ∈ traffic.held := by
    rw [Traffic.held, split]
    simp [Stage.held?]
  have allowed : (Deed.wrote sink (traffic.world.write sink event).1).IsAllowed traffic.router.registry := by
    cases closed : traffic.router.registry.closed with
    | true =>
        unfold Deed.IsAllowed
        split <;> simp_all
    | false =>
        -- No sink has been stopped but idle ones, and those nobody held.
        have runs := sound.holds.runs_of_held held (sound.agrees.stopped_reaped closed)
        have answers := World.write_not_stopped runs event
        unfold Deed.IsAllowed
        split
        · simp_all
        · simp_all
        · simp_all
        · trivial
  simp only [Router.step]
  generalize traffic.world.write sink event = answer at keeps allowed ⊢
  obtain ⟨result, world⟩ := answer
  refine sound_deed split ?_ ?_ ?_
  · rfl
  · simpa [Deed.made?, Deed.stopped?, Deed.reaped?] using sound.holds.spare (sound.holds.accounts.spares keeps)
  · have noted := sound.agrees.note _ (Registry.Narrows.refl _) (by simp) allowed
    exact noted.replace _ split trivial

theorem leaving (sound : traffic.Sound shards) {result : Except RouteFault RouteOutcome}
    (split : traffic.threads = before ++ .leaving sink result :: after) :
    Sound shards (traffic.turn before after (traffic.router.step shards traffic.world (.leaving sink result))) := by
  rw [Router.step, turn_nothing]
  have less := held_less (.routed result) split rfl rfl
  exact ⟨sound.holds.release less, Agrees.narrows (sound.agrees.replace _ split trivial) rfl
    (Registry.narrows_of_placements rfl rfl)⟩

theorem scanning (sound : traffic.Sound shards) {now : Millis} {shard : Nat} {found : List String}
    (split : traffic.threads = before ++ .scanning now shard found :: after) :
    Sound shards (traffic.turn before after (traffic.router.step shards traffic.world (.scanning now shard found))) := by
  rw [Router.step]
  split
  · exact sound.quiet split rfl trivial
  · exact sound.quiet split rfl trivial

theorem reaping (sound : traffic.Sound shards) {now : Millis} {keys gone : List String}
    (split : traffic.threads = before ++ .reaping now keys gone :: after) :
    Sound shards (traffic.turn before after (traffic.router.step shards traffic.world (.reaping now keys gone))) := by
  cases keys with
  | nil => exact sound.quiet split rfl trivial
  | cons key keys =>
      rw [Router.step]
      cases found : traffic.router.registry.find? key with
      | none => exact sound.quiet split rfl trivial
      | some entry =>
          dsimp only
          split
          next expired =>
            obtain ⟨-, rfl⟩ := Registry.find?_mem found
            have noted := sound.agrees.note (.reaped entry.placement) (Registry.narrows_remove _ entry.key)
              (by simp [Registry.remove]) trivial
            refine sound_deed split ?_ ?_ (noted.replace _ split trivial)
            · rfl
            · simpa [Router.takeOut, Deed.made?, Deed.stopped?, Deed.reaped?] using sound.holds.reap found expired
          · exact sound.quiet split rfl trivial

theorem closing (sound : traffic.Sound shards) (split : traffic.threads = before ++ .closing :: after) :
    Sound shards (traffic.turn before after (traffic.router.step shards traffic.world .closing)) := by
  have shut := sound.agrees.note .closed (Registry.narrows_close traffic.router.registry)
    (by simp [Registry.close]) trivial
  have unread : Stage.Covers shards traffic.router.registry.close (.listing 0 []) :=
    ⟨rfl, fun key _ early => absurd early (Nat.not_lt_zero _)⟩
  refine sound_deed split ?_ ?_ (shut.replace _ split unread)
  · rfl
  · simpa [Deed.made?, Deed.stopped?, Deed.reaped?] using sound.holds.close

theorem listing (sound : traffic.Sound shards) {shard : Nat} {keys : List String}
    (split : traffic.threads = before ++ .listing shard keys :: after) :
    Sound shards (traffic.turn before after (traffic.router.step shards traffic.world (.listing shard keys))) := by
  have covers := sound.agrees.covers_old split
  rw [Router.step]
  split
  · -- Keys that are forgotten meanwhile do no harm, and none is added, for the registry is closed.
    refine sound.quiet split rfl ⟨covers.1, fun key member early => ?_⟩
    rcases Nat.lt_succ_iff_lt_or_eq.mp early with before | here
    · exact List.mem_append_left _ (covers.2 key member before)
    · exact List.mem_append_right _ (List.mem_filter.mpr ⟨member, by simpa using here⟩)
  next beyond =>
    refine sound.quiet split rfl ⟨covers.1, fun key member => covers.2 key member ?_⟩
    exact Nat.lt_of_lt_of_le (shards.within key) (Nat.not_lt.mp beyond)

theorem stopping (sound : traffic.Sound shards) {keys : List String} {count : Nat}
    (split : traffic.threads = before ++ .stopping keys count :: after) :
    Sound shards (traffic.turn before after (traffic.router.step shards traffic.world (.stopping keys count))) := by
  obtain ⟨closed, covers⟩ := sound.agrees.covers_old split
  cases keys with
  | nil =>
      have past : traffic.router.registry.IsOver := ⟨closed, by simpa [Registry.keys] using covers⟩
      have noted := sound.agrees.note (.finished count) (Registry.Narrows.refl _) (by simp) past
      refine sound_deed split ?_ ?_ (noted.replace _ split trivial)
      · rfl
      · simpa [Deed.made?, Deed.stopped?, Deed.reaped?] using sound.holds
  | cons key keys =>
      rw [Router.step]
      cases found : traffic.router.registry.find? key with
      | none =>
          have missing := Registry.find?_eq_none_iff.mp found
          refine sound.quiet split rfl ⟨closed, fun other member => ?_⟩
          exact (List.mem_cons.mp (covers member)).resolve_left fun same => missing (same ▸ member)
      | some entry =>
          obtain ⟨-, rfl⟩ := Registry.find?_mem found
          have noted := sound.agrees.note (.ended entry.placement) (Registry.narrows_remove _ entry.key)
            (by simp [Registry.remove]) closed
          have left : (traffic.router.registry.remove entry.key).keys ⊆ keys := by
            intro other member
            obtain ⟨kept, present, rfl⟩ := List.mem_map.mp member
            obtain ⟨there, different⟩ := List.mem_filter.mp present
            have listed := covers (List.mem_map_of_mem there)
            exact (List.mem_cons.mp listed).resolve_left (by simpa using different)
          have covered : Stage.Covers shards (traffic.router.registry.remove entry.key) (.stopping keys (count + 1)) :=
            ⟨closed, left⟩
          refine sound_deed split ?_ ?_ (noted.replace _ split covered)
          · rfl
          · simpa [Deed.made?, Deed.stopped?, Deed.reaped?] using sound.holds.remove found

theorem advance (sound : traffic.Sound shards) (split : traffic.threads = before ++ old :: after) :
    Sound shards (traffic.turn before after (traffic.router.step shards traffic.world old)) := by
  cases old with
  | entering event now => exact sound.entering split
  | seeking event now => exact sound.seeking split
  | claiming event now => exact sound.claiming split
  | holding event sink => exact sound.holding split
  | leaving sink result => exact sound.leaving split
  | scanning now shard found => exact sound.scanning split
  | reaping now keys gone => exact sound.reaping split
  | closing => exact sound.closing split
  | listing shard keys => exact sound.listing split
  | stopping keys count => exact sound.stopping split
  | idle => exact sound.quiet split rfl trivial
  | routed result => exact sound.quiet split rfl trivial
  | reaped gone => exact sound.quiet split rfl trivial
  | stopped count => exact sound.quiet split rfl trivial

theorem step (sound : traffic.Sound shards) {next : Traffic} (step : Step shards traffic next) : next.Sound shards := by
  cases step with
  | call before stage after errand split resting =>
      have free : errand.stage.held? = stage.held? := by
        cases errand <;> cases stage <;> first | rfl | cases resting
      refine sound.stage split free ?_
      cases errand <;> trivial
  | advance before stage after split => exact sound.advance split
  | elsewhere world spares => exact sound.elsewhere traffic.router.factory spares

theorem run (sound : traffic.Sound shards) {next : Traffic} (run : Run shards traffic next) : next.Sound shards := by
  induction run with
  | refl => exact sound
  | tail _ step ih => exact ih.step step

theorem start (shards : Sharding) (router : Router) (world : World) (count : Nat) :
    (Traffic.start router world count).Sound shards := by
  have free : (Traffic.start router world count).held = [] := by
    simp [Traffic.held, Traffic.start, Stage.held?]
  refine ⟨?_, ?_, ?_, ?_, ?_⟩
  · rw [free]
    exact .start world
  · simp [Traffic.start]
  · simp [Traffic.start]
  · intro stage member
    rw [List.eq_of_mem_replicate member]
    trivial
  · intro earlier sink name later split
    simp [Traffic.start] at split

end Sound

theorem step_deeds_of_closed {router : Router} (closed : router.registry.closed = true) (world : World) (stage : Stage) :
    (router.step shards world stage).deeds.filterMap Deed.made? = [] := by
  cases stage with
  | claiming event now =>
      simp only [Router.step, Router.seek, closed, if_true]
      cases router.registry.find? (router.discriminator.extract event) <;> rfl
  | entering event now =>
      simp only [Router.step, closed, if_true]
      split <;> rfl
  | seeking event now =>
      simp only [Router.step]
      split <;> rfl
  | scanning now shard found =>
      simp only [Router.step]
      split <;> rfl
  | reaping now keys gone =>
      cases keys with
      | nil => rfl
      | cons key keys =>
          simp only [Router.step]
          split
          · rfl
          · split <;> rfl
  | listing shard keys =>
      simp only [Router.step]
      split <;> rfl
  | stopping keys count =>
      cases keys with
      | nil => rfl
      | cons key keys =>
          simp only [Router.step]
          split <;> rfl
  | _ => rfl

theorem step_log {next : Traffic} (step : Step shards traffic next) : traffic.log <+: next.log := by
  cases step with
  | advance before stage after split => exact List.prefix_append _ _
  | _ => exact List.prefix_refl _

theorem step_made {next : Traffic} (step : Step shards traffic next) (closed : traffic.router.registry.closed = true) :
    next.made = traffic.made := by
  cases step with
  | advance before stage after split =>
      simp only [made, turn, List.filterMap_append, step_deeds_of_closed closed, List.append_nil]
  | _ => rfl

theorem Sound.finished (sound : traffic.Sound shards) {count : Nat} (finished : .finished count ∈ traffic.log)
    {later : Traffic} (run : Run shards traffic later) :
    later.router.registry.entries = [] ∧ later.made = traffic.made := by
  have past : ∀ {traffic : Traffic}, traffic.Sound shards → .finished count ∈ traffic.log → traffic.router.registry.IsOver :=
    fun sound finished => sound.agrees.allowed _ finished
  -- The induction carries that the end was seen, since it is this that keeps the registry closed and empty.
  suffices known : .finished count ∈ later.log ∧ later.made = traffic.made by
    exact ⟨(past (sound.run run) known.1).2, known.2⟩
  induction run with
  | refl => exact ⟨finished, rfl⟩
  | tail before step ih =>
      refine ⟨(step_log step).subset ih.1, ?_⟩
      rw [step_made step (past (sound.run before) ih.1).1]
      exact ih.2

/-- However threads that route, reap and stop all sinks take turns: no key has two sinks that are not stopped; nobody holds a
sink that was stopped for being idle, and a sink refuses an event only after stopping all sinks has begun; and once that has
ended, every sink that was made has been stopped once and is stopped, there are none, and none is made any more. -/
theorem traffic_safe (shards : Sharding) (router : Router) (world : World) (count : Nat) {traffic : Traffic}
    (run : Traffic.Run shards (.start router world count) traffic) :
    (∀ first ∈ traffic.made, ∀ second ∈ traffic.made, first.key = second.key →
      traffic.world.isStopped first.sink = false → traffic.world.isStopped second.sink = false → first = second) ∧
    (∀ stage ∈ traffic.threads, ∀ sink, stage.held? = some sink → ∀ key, .reaped ⟨key, sink⟩ ∉ traffic.log) ∧
    (∀ earlier sink name later, traffic.log = earlier ++ .wrote sink (.error (.stopped name)) :: later →
      .closed ∈ earlier) ∧
    (∀ count, .finished count ∈ traffic.log →
      traffic.made.Perm traffic.stops ∧ (traffic.stops.map (·.sink)).Nodup ∧
      (∀ placement ∈ traffic.made, traffic.world.isStopped placement.sink = true) ∧
      ∀ later, Traffic.Run shards traffic later →
        later.router.registry.entries = [] ∧ later.made = traffic.made) := by
  have sound : traffic.Sound shards := (Sound.start shards router world count).run run
  refine ⟨?_, ?_, sound.agrees.fair, ?_⟩
  · intro first one second two same running₁ running₂
    exact sound.holds.accounts.one_unstopped one two same running₁ running₂
  · intro stage member sink holds key reaped
    have held : sink ∈ traffic.held := List.mem_filterMap.mpr ⟨stage, member, holds⟩
    exact sound.holds.unreaped ⟨key, sink⟩ (List.mem_filterMap.mpr ⟨_, reaped, rfl⟩) held
  · intro count finished
    have past : traffic.router.registry.IsOver := sound.agrees.allowed _ finished
    have balance := sound.holds.accounts.balance
    rw [show traffic.router.registry.placements = [] by rw [Registry.placements, past.2]; rfl, List.nil_append] at balance
    refine ⟨balance, (balance.map _).nodup_iff.mp sound.holds.accounts.single, ?_, fun later run => sound.finished finished run⟩
    exact fun placement made => sound.holds.accounts.stopped placement (balance.mem_iff.mp made)

theorem traffic_safe_refused :
    let router : Router := { name := "router", discriminator := ⟨"app"⟩, factory := .recording {}, idleTimeout := 10 }
    let world : World :=
      { uploads := { executor := .idle, work := { files := .empty ["home"], store := { backend := .memory {} } } } }
    let earlier : List Deed := [.made ⟨"a", 0⟩, .wrote 0 (.ok ()), .reaped ⟨"a", 0⟩, .made ⟨"a", 1⟩, .closed,
      .ended ⟨"a", 1⟩, .finished 1]
    ∃ traffic, Traffic.Run .whole (.start router world 3) traffic ∧
      traffic.log = earlier ++ [.wrote 1 (.error (.stopped "router/a"))] ∧ traffic.held = [1] ∧
      .reaped ⟨"a", 1⟩ ∉ traffic.log ∧ .closed ∈ earlier ∧ traffic.made.Perm traffic.stops ∧
      (∀ placement ∈ traffic.made, traffic.world.isStopped placement.sink = true) ∧
      traffic.router.registry.entries = [] := by
  intro router world earlier
  let event := (Event.new 1 .info "one").withEntry "app" "a"
  let cues : List Cue :=
    [.call 0 (.route event 0), .advance 0, .advance 0, .advance 0, .call 1 (.reap 50), .advance 1, .advance 1,
      .advance 1, .advance 0, .advance 0, .call 1 (.reap 50), .advance 1, .advance 1, .advance 1, .advance 1,
      .call 0 (.route event 60), .advance 0, .advance 0, .advance 0, .call 2 .stopAll, .advance 2, .advance 2,
      .advance 2, .advance 2, .advance 2, .advance 0]
  obtain ⟨traffic, run, log, holds⟩ : ∃ traffic, Traffic.Run .whole (.start router world 3) traffic ∧
      traffic.log = earlier ++ [.wrote 1 (.error (.stopped "router/a"))] ∧ traffic.held = [1] :=
    ⟨_, run_foldl .whole _ cues, by decide +kernel, by decide +kernel⟩
  obtain ⟨-, held, fair, finished⟩ := traffic_safe .whole router world 3 run
  obtain ⟨balance, -, stopped, later⟩ := finished 1 (by simp [log, earlier])
  refine ⟨traffic, run, log, holds, ?_, fair _ _ _ _ log, balance, stopped, (later _ .refl).1⟩
  obtain ⟨stage, member, has⟩ := List.mem_filterMap.mp (holds ▸ List.mem_singleton_self 1 : 1 ∈ traffic.held)
  exact held stage member 1 has "a"

end Traffic

end KeyedLog
