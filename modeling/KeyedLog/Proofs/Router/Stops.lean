import KeyedLog.Proofs.Registry.Accounts
import KeyedLog.Proofs.Router.Receipts
import Mathlib.Algebra.Ring.Nat

/-!
Which sinks routers have stopped. From the first sink that is made for a router on, every sink is live or was stopped, one
of the two and once.
-/

namespace KeyedLog

namespace World

def stopThese (world : World) (ids : List SinkId) : World :=
  ids.foldl stop world

/-- From a number on, each sink is live or was stopped, one of the two and once. -/
structure Tally (world : World) (first : Nat) (live stops : List SinkId) : Prop where
  balance : (stops ++ live).Perm (List.range' first (world.sinks.length - first))
  bound : first ≤ world.sinks.length
  stopped : ∀ id ∈ stops, world.isStopped id = true

variable {world after : World} {first : Nat} {live others gone kept stops : List SinkId}

theorem write_length (world : World) (id : SinkId) (event : Event) :
    (world.write id event).2.sinks.length = world.sinks.length := by
  unfold write
  split
  · rfl
  · rfl
  · split <;> rfl
  · split <;> exact List.length_set
  · rfl
  · rfl

theorem stopThese_length (ids : List SinkId) (world : World) : (world.stopThese ids).sinks.length = world.sinks.length := by
  induction ids generalizing world with
  | nil => rfl
  | cons id rest ih => exact (ih _).trans (world.stop_length id)

theorem stop_isStopped_of_stopped {id : SinkId} (past : world.isStopped id = true) (other : SinkId) :
    (world.stop other).isStopped id = true := by
  by_cases same : other = id
  · subst other
    refine stop_isStopped ?_
    by_contra missing
    simp [isStopped_eq, List.getElem?_eq_none_iff.mpr (Nat.le_of_not_lt missing)] at past
  · rw [world.stop_isStopped_other same]
    exact past

theorem stopThese_isStopped {id : SinkId} (known : id < world.sinks.length) {ids : List SinkId}
    (past : world.isStopped id = true ∨ id ∈ ids) : (world.stopThese ids).isStopped id = true := by
  induction ids generalizing world with
  | nil =>
      obtain stopped | member := past
      · exact stopped
      · exact absurd member List.not_mem_nil
  | cons other rest ih =>
      refine ih (world.stop_length other ▸ known) ?_
      rcases past with stopped | member
      · exact .inl (stop_isStopped_of_stopped stopped other)
      · rcases List.mem_cons.mp member with rfl | later
        · exact .inl (stop_isStopped known)
        · exact .inr later

namespace Tally

theorem known (tally : world.Tally first live stops) {id : Nat} (member : id ∈ stops ++ live) :
    id < world.sinks.length := by
  have inside := List.mem_range'_1.mp (tally.balance.mem_iff.mp member)
  have bound := tally.bound
  omega

theorem mem (tally : world.Tally first live stops) {id : Nat} (made : first ≤ id) (known : id < world.sinks.length) :
    id ∈ stops ++ live :=
  tally.balance.mem_iff.mpr (List.mem_range'_1.mpr ⟨made, by omega⟩)

theorem keep (tally : world.Tally first live stops) (keeps : world.KeepsStates after)
    (length : after.sinks.length = world.sinks.length) : after.Tally first live stops where
  balance := by
    rw [length]
    exact tally.balance
  bound := Nat.le_trans tally.bound keeps.length
  stopped id past := by
    rw [keeps.stopped (tally.known (List.mem_append_left _ past))]
    exact tally.stopped id past

theorem perm (tally : world.Tally first live stops) (same : live.Perm others) : world.Tally first others stops :=
  ⟨(same.symm.append_left _).trans tally.balance, tally.bound, tally.stopped⟩

theorem add (tally : world.Tally first live stops) (keeps : world.KeepsStates after)
    (length : after.sinks.length = world.sinks.length + 1) :
    after.Tally first (live ++ [world.sinks.length]) stops where
  balance := by
    have bound := tally.bound
    have next : first + (world.sinks.length - first) = world.sinks.length := by omega
    rw [length, Nat.sub_add_comm bound, List.range'_1_concat, next, ← List.append_assoc]
    exact tally.balance.append_right _
  bound := Nat.le_trans tally.bound keeps.length
  stopped id past := by
    rw [keeps.stopped (tally.known (List.mem_append_left _ past))]
    exact tally.stopped id past

theorem stop (tally : world.Tally first live stops) (split : live.Perm (gone ++ kept)) :
    (world.stopThese gone).Tally first kept (stops ++ gone) where
  balance := by
    rw [stopThese_length, List.append_assoc]
    exact (split.symm.append_left _).trans tally.balance
  bound := by
    rw [stopThese_length]
    exact tally.bound
  stopped id past := by
    rcases List.mem_append.mp past with before | now
    · exact stopThese_isStopped (tally.known (List.mem_append_left _ before)) (.inl (tally.stopped id before))
    · have member : id ∈ live := split.mem_iff.mpr (List.mem_append_left _ now)
      exact stopThese_isStopped (tally.known (List.mem_append_right _ member)) (.inr now)

end Tally

end World

theorem Factory.create_length (router key : String) (factory : Factory) (world : World) :
    (create router key (factory, world)).2.2.sinks.length =
      match (create router key (factory, world)).1 with
      | .ok _ => world.sinks.length + 1
      | .error _ => world.sinks.length := by
  have added : ∀ (world : World) (sink : Sink), (world.addSink sink).2.sinks.length = world.sinks.length + 1 :=
    fun _ _ => List.length_append
  have adopted : ∀ {σ : Type} (wrap : σ → Sink) (result : EStateM.Result SinkFault FileTree σ),
      (adopt world wrap result).2.sinks.length =
        match (adopt world wrap result).1 with
        | .ok _ => world.sinks.length + 1
        | .error _ => world.sinks.length := by
    intro σ wrap result
    cases result with
    | ok sink files => exact added (world.setFiles files) (wrap sink)
    | error fault files => rfl
  cases factory with
  | localApplication fileName policy encode =>
      simp only [create]
      exact adopted .rotating _
  | localJob fileName encode =>
      simp only [create]
      exact adopted .file _
  | cloud type retry encode =>
      simp only [create]
      cases StorageKey.base key with
      | error fault => rfl
      | ok base => exact List.length_append
  | recording factory =>
      simp only [create, createRecording]
      split
      · rfl
      · split
        · rfl
        · exact added world _

namespace Router

variable {router : Router} {world : World} {first : Nat} {front stops : List SinkId}

def idleSinks (router : Router) (now : Millis) : List SinkId :=
  (router.registry.expire now router.idleTimeout).1.map (·.sink)

theorem stopEach_eq (entries : List Registration) (world : World) :
    stopEach entries world = world.stopThese (entries.map (·.sink)) := by
  rw [World.stopThese, List.foldl_map]
  rfl

theorem reapAt_world (router : Router) (now : Millis) (world : World) :
    (router.reapAt now world).2.2 = world.stopThese (router.idleSinks now) :=
  stopEach_eq _ world

theorem stopAll_world (router : Router) (world : World) : (router.stopAll world).2.2 = world.stopThese router.sinks :=
  stopEach_eq _ world

theorem reapAt_sinks (router : Router) (now : Millis) (world : World) :
    router.sinks.Perm (router.idleSinks now ++ (router.reapAt now world).2.1.sinks) := by
  simp only [idleSinks, reapAt, Registry.expire_eq, sinks]
  rw [← List.map_append]
  exact (List.filter_append_perm _ _).symm.map _

theorem resolve_tally (tally : world.Tally first (front ++ router.sinks) stops) (key : String) :
    (router.resolve key world).2.2.Tally first (front ++ (router.resolve key world).2.1.sinks) stops := by
  refine resolve_cases router key world ?_ ?_ ?_ ?_
  · exact fun _ => tally
  · intro entry _ _
    have same := Registry.sinks_touch router.registry key world.instant
    simpa only [sinks, same] using tally
  · intro fault factory next _ _ failed
    have yields := router.factory.create_yields router.name key world
    have length := router.factory.create_length router.name key world
    rw [failed] at yields length
    exact tally.keep yields length
  · intro id factory next _ _ made
    have yields := router.factory.create_yields router.name key world
    have length := router.factory.create_length router.name key world
    rw [made] at yields length
    have number : id = world.sinks.length :=
      Nat.le_antisymm (Nat.le_of_lt_succ (Nat.lt_of_lt_of_eq yields.bound length)) yields.fresh
    have added := tally.add yields.toKeepsStates length
    simpa [sinks, Registry.register, number] using added

theorem route_tally (tally : world.Tally first (front ++ router.sinks) stops) (event : Event) :
    (router.route event world).2.2.Tally first (front ++ (router.route event world).2.1.sinks) stops := by
  have resolved := resolve_tally tally (router.discriminator.extract event)
  refine route_cases router event world (fun _ => tally) ?_ ?_
  · intro fault after next _ outcome
    rwa [outcome] at resolved
  · intro id after next _ outcome
    rw [outcome] at resolved
    exact resolved.keep (next.write_keepsStates id event) (next.write_length id event)

end Router

namespace Dispatcher

theorem set_around {α : Type} {values : List α} {index : Nat} {value : α} (present : values[index]? = some value) :
    ∃ front back, values = front ++ value :: back ∧ ∀ other, values.set index other = front ++ other :: back := by
  obtain ⟨bound, same⟩ := List.getElem?_eq_some_iff.mp present
  refine ⟨values.take index, values.drop (index + 1), ?_, fun other => ?_⟩
  · rw [← same, List.getElem_cons_drop, List.take_append_drop]
  · rw [List.set_eq_take_append_cons_drop, if_pos bound]

variable {routers : List Router} {world : World} {first : Nat} {front stops : List SinkId}

def liveSinks (routers : List Router) : List SinkId :=
  routers.flatMap Router.sinks

def idleSinks (routers : List Router) (now : Millis) : List SinkId :=
  routers.flatMap fun router => router.idleSinks now

theorem routeAll_tally (front : List SinkId) (tally : world.Tally first (front ++ liveSinks routers) stops) (event : Event) :
    (routeAll event routers world).2.2.Tally first (front ++ liveSinks (routeAll event routers world).2.1) stops := by
  induction routers generalizing front world with
  | nil => exact tally
  | cons router rest ih =>
      have swapped : (front ++ liveSinks (router :: rest)).Perm ((front ++ liveSinks rest) ++ router.sinks) := by
        rw [liveSinks, List.flatMap_cons, List.append_assoc]
        exact List.perm_append_comm.append_left _
      have routed := Router.route_tally (tally.perm swapped) event
      unfold routeAll
      dsimp only
      generalize router.route event world = result at routed
      obtain ⟨answer, after, middle⟩ := result
      have back : (front ++ liveSinks rest ++ after.sinks).Perm ((front ++ after.sinks) ++ liveSinks rest) := by
        rw [List.append_assoc, List.append_assoc]
        exact List.perm_append_comm.append_left _
      have others := ih _ (routed.perm back)
      rw [List.append_assoc] at others
      cases answer <;> exact others

theorem dispatch_tally {dispatcher : Dispatcher} (tally : world.Tally first (liveSinks dispatcher.routers) stops)
    (event : Event) :
    (dispatcher.dispatch event world).2.2.Tally first (liveSinks (dispatcher.dispatch event world).2.1.routers) stops := by
  unfold dispatch
  split
  · exact tally
  · split
    · exact tally
    · have written : (dispatcher.writePlatform event world).2.Tally first (liveSinks dispatcher.routers) stops := by
        unfold writePlatform
        split
        · exact tally
        next id _ =>
          have written := tally.keep (world.write_keepsStates id event) (world.write_length id event)
          split
          next outcome =>
            rw [outcome] at written
            exact written
          next outcome =>
            rw [outcome] at written
            exact written
      exact routeAll_tally [] written event

theorem reapEach_tally (front : List SinkId) (now : Millis) (tally : world.Tally first (front ++ liveSinks routers) stops) :
    (reapEach now routers world).2.2.Tally first (front ++ liveSinks (reapEach now routers world).2.1)
      (stops ++ idleSinks routers now) := by
  induction routers generalizing front world stops with
  | nil => simpa [reapEach, idleSinks] using tally
  | cons router rest ih =>
      have split := router.reapAt_sinks now world
      have parts : (front ++ liveSinks (router :: rest)).Perm
          (router.idleSinks now ++ ((front ++ (router.reapAt now world).2.1.sinks) ++ liveSinks rest)) := by
        rw [liveSinks, List.flatMap_cons]
        refine ((split.append_right _).append_left _).trans ?_
        rw [List.append_assoc, List.append_assoc, ← List.append_assoc, ← List.append_assoc (router.idleSinks now)]
        exact List.perm_append_comm.append_right _
      have reaped := tally.stop parts
      rw [← router.reapAt_world] at reaped
      have others := ih _ reaped
      rw [List.append_assoc, List.append_assoc] at others
      exact others

theorem stopEach_eq (routers : List Router) (world : World) :
    (stopEach routers world).1 = (routers.map Router.liveSinks).sum ∧
      (stopEach routers world).2.2 = world.stopThese (liveSinks routers) ∧
      ∀ router ∈ (stopEach routers world).2.1, router.registry.entries = [] ∧ router.registry.closed = true := by
  induction routers generalizing world with
  | nil => exact ⟨rfl, rfl, by simp [stopEach]⟩
  | cons router rest ih =>
      obtain ⟨count, sinks, closed⟩ := ih (router.stopAll world).2.2
      refine ⟨?_, ?_, ?_⟩
      · rw [List.map_cons, List.sum_cons, ← count]
        rfl
      · rw [liveSinks, List.flatMap_cons, World.stopThese, List.foldl_append]
        exact sinks.trans (congrArg (fun world => World.stopThese world (liveSinks rest)) (router.stopAll_world world))
      · intro other member
        rcases List.mem_cons.mp member with rfl | later
        · exact ⟨rfl, rfl⟩
        · exact closed other later

theorem stopEach_tally (tally : world.Tally first (liveSinks routers) stops) :
    (stopEach routers world).2.2.Tally first [] (stops ++ liveSinks routers) := by
  rw [(stopEach_eq routers world).2.1]
  exact tally.stop (by rw [List.append_nil])

theorem dispatch_platform (dispatcher : Dispatcher) (event : Event) (world : World) :
    (dispatcher.dispatch event world).2.1.platform = dispatcher.platform := by
  unfold dispatch
  split
  · rfl
  · split <;> rfl

theorem onRouter_platform {α : Type} (dispatcher : Dispatcher) (name : String) (world : World)
    (change : Router → World → α × Router × World) :
    (dispatcher.onRouter name world change).2.1.platform = dispatcher.platform := by
  unfold onRouter
  split
  · rfl
  · split <;> rfl

theorem reapRouter_tally {dispatcher : Dispatcher} {world : World} {stops : List SinkId}
    (tally : world.Tally first (liveSinks dispatcher.routers) stops) (name : String) (now : Millis) :
    (dispatcher.onRouter name world fun router world => router.reapAt now world).2.2.Tally first
      (liveSinks (dispatcher.onRouter name world fun router world => router.reapAt now world).2.1.routers)
      (stops ++ (dispatcher.onRouter name world fun router world => (router.idleSinks now, router, world)).1.getD []) := by
  unfold onRouter
  split
  · simpa using tally
  next index _ =>
    cases present : dispatcher.routers[index]? with
    | none => simpa using tally
    | some router =>
        obtain ⟨front, back, around, changed⟩ := set_around present
        dsimp only [Option.getD_some]
        rw [changed, router.reapAt_world]
        refine tally.stop ?_
        rw [around, liveSinks, liveSinks, List.flatMap_append, List.flatMap_append,
          List.flatMap_cons, List.flatMap_cons]
        refine (((router.reapAt_sinks now world).append_right _).append_left _).trans ?_
        rw [List.append_assoc, ← List.append_assoc, ← List.append_assoc (router.idleSinks now)]
        exact List.perm_append_comm.append_right _

end Dispatcher

end KeyedLog
