import KeyedLog.Proofs.Registry.Accounts

/-!
What a registry is answerable for. Whatever it is asked for and in whatever order, each sink that was made for it is
registered until it is stopped, and it has a sink made only if it has none and takes new ones.
-/

namespace KeyedLog

variable {ε : Type}

/-- Makes a sink that was not there before, or fails. -/
structure Maker (ε : Type) where
  make : World → Except ε SinkId × World
  adds : ∀ world id, (make world).1 = .ok id → world.Adds (make world).2 id
  keeps : ∀ world fault, (make world).1 = .error fault → world.KeepsStates (make world).2

structure Call (ε : Type) where
  key : String
  result : Except ε SinkId

def Call.placement? : Call ε → Option Placement
  | ⟨key, .ok sink⟩ => some ⟨key, sink⟩
  | ⟨_, .error _⟩ => none

namespace Maker

def noted (maker : Maker ε) (key : String) : World × List (Call ε) → Except ε SinkId × World × List (Call ε)
  | (world, calls) =>
    let (result, world) := maker.make world
    (result, world, calls ++ [⟨key, result⟩])

def MakesRunning (maker : Maker ε) : Prop :=
  ∀ world id, (maker.make world).1 = .ok id → (maker.make world).2.isRunning id = true

theorem makes {maker : Maker ε} (running : maker.MakesRunning) {world : World} {id : SinkId}
    (made : (maker.make world).1 = .ok id) : world.Makes (maker.make world).2 id :=
  ⟨maker.adds world id made, running world id made⟩

def ofFactory (factory : Factory) (router key : String) : Maker SinkFault where
  make world :=
    let (result, _, world) := Factory.create router key (factory, world)
    (result, world)
  adds world id made := by
    have yields := factory.create_yields router key world
    rw [made] at yields
    exact yields.toAdds
  keeps world fault failed := by
    have yields := factory.create_yields router key world
    rw [failed] at yields
    exact yields

theorem ofFactory_makesRunning (factory : Factory) (router key : String) : (ofFactory factory router key).MakesRunning := by
  intro world id made
  have yields := factory.create_yields router key world
  rw [show (Factory.create router key (factory, world)).1 = .ok id from made] at yields
  exact yields.runs

end Maker

/-- What a registry is asked for. -/
inductive Request (ε : Type) where
  | get (key : String) (now : Millis) (maker : Maker ε)
  | release (id : SinkId)
  | expire (now timeout : Millis)
  | stopAll
  /-- Something else happens, such as an event being written. -/
  | meanwhile (change : World → World) (keeps : ∀ world : World, world.KeepsStates (change world))

namespace Request

/-- The key is asked for, or it cannot be asked for any more. -/
def concerns (key : String) : Request ε → Bool
  | get other .. => other == key
  | stopAll => true
  | _ => false

def MakesRunning : Request ε → Prop
  | get _ _ maker => maker.MakesRunning
  | _ => True

end Request

structure Custody (ε : Type) where
  world : World
  registry : Registry := {}
  calls : List (Call ε) := []
  stops : List Placement := []

namespace Custody

def made (custody : Custody ε) : List Placement :=
  custody.calls.filterMap Call.placement?

def get (custody : Custody ε) (key : String) (now : Millis) (maker : Maker ε) :
    Except ε (Option Resolved) × Custody ε :=
  let (answer, registry, world, calls) :=
    custody.registry.getOrCreate key now (maker.noted key) (custody.world, custody.calls)
  match answer with
  | .ok (some resolved) => (answer, { custody with world, calls, registry := registry.hold resolved.sink })
  | _ => (answer, { custody with world, calls, registry })

def expire (custody : Custody ε) (now timeout : Millis) : List String × Custody ε :=
  let (gone, registry) := custody.registry.expire now timeout
  (gone.map (·.key), { custody with
    registry
    world := Router.stopEach gone custody.world
    stops := custody.stops ++ gone.map Registration.placement })

def stopAll (custody : Custody ε) : Nat × Custody ε :=
  let (gone, registry) := custody.registry.drain
  (gone.length, { custody with
    registry
    world := Router.stopEach gone custody.world
    stops := custody.stops ++ gone.map Registration.placement })

def apply (custody : Custody ε) : Request ε → Custody ε
  | .get key now maker => (custody.get key now maker).2
  | .release id => { custody with registry := custody.registry.release id }
  | .expire now timeout => (custody.expire now timeout).2
  | .stopAll => custody.stopAll.2
  | .meanwhile change _ => { custody with world := change custody.world }

def run (custody : Custody ε) (requests : List (Request ε)) : Custody ε :=
  requests.foldl apply custody

def Sound (custody : Custody ε) : Prop :=
  custody.registry.Accounts custody.world custody.made custody.stops

/-- A sink would be made for the key. -/
def Awaits (custody : Custody ε) (key : String) : Prop :=
  custody.registry.closed = false ∧ custody.registry.find? key = none

instance (custody : Custody ε) (key : String) : Decidable (custody.Awaits key) :=
  inferInstanceAs (Decidable (_ ∧ _))

variable {custody : Custody ε} {key : String} {now : Millis} {maker : Maker ε}

theorem apply_get (custody : Custody ε) (key : String) (now : Millis) (maker : Maker ε) :
    custody.apply (.get key now maker) = (custody.get key now maker).2 := rfl

theorem get_closed (closed : custody.registry.closed = true) : custody.get key now maker = (.ok none, custody) := by
  simp [get, Registry.getOrCreate, closed]

theorem get_found {entry : Registration} (accepting : custody.registry.closed = false)
    (found : custody.registry.find? key = some entry) :
    custody.get key now maker =
      (.ok (some ⟨entry.sink, false⟩), { custody with registry := (custody.registry.touch key now).hold entry.sink }) := by
  simp [get, Registry.getOrCreate, accepting, found]

theorem get_failed {fault : ε} (awaits : custody.Awaits key) (failed : (maker.make custody.world).1 = .error fault) :
    custody.get key now maker = (.error fault,
      { custody with world := (maker.make custody.world).2, calls := custody.calls ++ [⟨key, .error fault⟩] }) := by
  simp [get, Registry.getOrCreate, awaits.1, awaits.2, Maker.noted, failed]

theorem get_made {id : SinkId} (awaits : custody.Awaits key) (made : (maker.make custody.world).1 = .ok id) :
    custody.get key now maker = (.ok (some ⟨id, true⟩),
      { custody with
        world := (maker.make custody.world).2
        registry := (custody.registry.register key id now).hold id
        calls := custody.calls ++ [⟨key, .ok id⟩] }) := by
  simp [get, Registry.getOrCreate, awaits.1, awaits.2, Maker.noted, made]

@[elab_as_elim]
theorem get_cases {motive : Except ε (Option Resolved) × Custody ε → Prop} (custody : Custody ε) (key : String)
    (now : Millis) (maker : Maker ε)
    (closed : custody.registry.closed = true → motive (.ok none, custody))
    (found : ∀ entry, custody.registry.closed = false → custody.registry.find? key = some entry →
      motive (.ok (some ⟨entry.sink, false⟩),
        { custody with registry := (custody.registry.touch key now).hold entry.sink }))
    (failed : ∀ fault, custody.Awaits key → (maker.make custody.world).1 = .error fault → motive (.error fault,
      { custody with world := (maker.make custody.world).2, calls := custody.calls ++ [⟨key, .error fault⟩] }))
    (made : ∀ id, custody.Awaits key → (maker.make custody.world).1 = .ok id → motive (.ok (some ⟨id, true⟩),
      { custody with
        world := (maker.make custody.world).2
        registry := (custody.registry.register key id now).hold id
        calls := custody.calls ++ [⟨key, .ok id⟩] })) :
    motive (custody.get key now maker) := by
  cases accepting : custody.registry.closed with
  | true =>
      rw [get_closed accepting]
      exact closed accepting
  | false =>
      cases present : custody.registry.find? key with
      | some entry =>
          rw [get_found accepting present]
          exact found entry accepting present
      | none =>
          cases result : (maker.make custody.world).1 with
          | error fault =>
              rw [get_failed ⟨accepting, present⟩ result]
              exact failed fault ⟨accepting, present⟩ result
          | ok id =>
              rw [get_made ⟨accepting, present⟩ result]
              exact made id ⟨accepting, present⟩ result

theorem get_calls (custody : Custody ε) (key : String) (now : Millis) (maker : Maker ε) :
    (custody.get key now maker).2.calls =
      custody.calls ++ if custody.Awaits key then [⟨key, (maker.make custody.world).1⟩] else [] := by
  refine get_cases custody key now maker ?_ ?_ ?_ ?_
  · intro closed
    simp [Awaits, closed]
  · intro entry _ found
    simp [Awaits, found]
  · intro fault awaits failed
    simp [awaits, failed]
  · intro id awaits made
    simp [awaits, made]

theorem placements_failed (calls : List (Call ε)) (key : String) (fault : ε) :
    (calls ++ [Call.mk key (.error fault)]).filterMap Call.placement? = calls.filterMap Call.placement? := by
  rw [List.filterMap_append]
  exact List.append_nil _

theorem placements_made (calls : List (Call ε)) (key : String) (id : SinkId) :
    (calls ++ [Call.mk key (.ok id)]).filterMap Call.placement? = calls.filterMap Call.placement? ++ [⟨key, id⟩] := by
  rw [List.filterMap_append]
  rfl

theorem Sound.get (sound : custody.Sound) (key : String) (now : Millis) (maker : Maker ε) :
    (custody.get key now maker).2.Sound := by
  refine get_cases custody key now maker (fun _ => sound) ?_ ?_ ?_
  · intro entry _ _
    exact sound.congr (by simp)
  · intro fault _ failed
    have kept := Registry.Accounts.spare sound (sound.spares (maker.keeps _ fault failed))
    dsimp only [Sound, Custody.made]
    rw [placements_failed]
    exact kept
  · intro id awaits result
    have registered := (Registry.Accounts.register sound (maker.adds _ id result) awaits.2 now).congr
      (Registry.placements_hold _ id)
    dsimp only [Sound, Custody.made]
    rw [placements_made]
    exact registered

theorem Sound.expire (sound : custody.Sound) (now timeout : Millis) : (custody.expire now timeout).2.Sound := by
  unfold Custody.expire
  rw [Registry.expire_eq]
  exact Registry.Accounts.takeOut sound (List.filter_append_perm _ _).symm

theorem Sound.stopAll (sound : custody.Sound) : custody.stopAll.2.Sound := by
  have all : custody.registry.entries.Perm (custody.registry.entries ++ []) := by simp
  have out := Registry.Accounts.takeOut sound all
  exact out.congr rfl

theorem Sound.apply (sound : custody.Sound) (request : Request ε) : (custody.apply request).Sound := by
  cases request with
  | get key now maker => exact sound.get key now maker
  | release id => exact sound.congr (Registry.placements_release _ id)
  | expire now timeout => exact sound.expire now timeout
  | stopAll => exact sound.stopAll
  | meanwhile change keeps => exact Registry.Accounts.spare sound (sound.spares (keeps custody.world))

theorem Sound.run (sound : custody.Sound) (requests : List (Request ε)) : (custody.run requests).Sound := by
  induction requests generalizing custody with
  | nil => exact sound
  | cons first rest ih => exact ih (sound.apply first)

theorem sound_start (world : World) : Sound ({ world } : Custody ε) :=
  Registry.Accounts.empty world

theorem sound_run (world : World) (requests : List (Request ε)) : (run { world } requests).Sound :=
  (sound_start world).run requests

theorem Sound.apply_live (sound : custody.Sound) (live : custody.registry.IsLive custody.world) {request : Request ε}
    (running : request.MakesRunning) : (custody.apply request).registry.IsLive (custody.apply request).world := by
  cases request with
  | get key now maker =>
      rw [apply_get]
      refine get_cases custody key now maker (fun _ => live) ?_ ?_ ?_
      · intro entry _ _
        exact live.congr (by simp)
      · intro fault _ failed
        exact live.spare sound (sound.spares (maker.keeps _ fault failed))
      · intro id _ result
        exact (live.register sound (maker.makes running result) now).congr (Registry.placements_hold _ id)
  | release id => exact live.congr (Registry.placements_release _ id)
  | expire now timeout =>
      simp only [Custody.apply, Custody.expire, Registry.expire_eq]
      exact live.takeOut sound (List.filter_append_perm _ _).symm
  | stopAll => exact fun placement absent => absurd absent List.not_mem_nil
  | meanwhile change keeps => exact live.spare sound (sound.spares (keeps custody.world))

theorem Sound.run_live (sound : custody.Sound) (live : custody.registry.IsLive custody.world) {requests : List (Request ε)}
    (running : ∀ request ∈ requests, request.MakesRunning) :
    (custody.run requests).registry.IsLive (custody.run requests).world := by
  induction requests generalizing custody with
  | nil => exact live
  | cons first rest ih =>
      have kept := sound.apply_live live (running first (List.mem_cons_self ..))
      exact ih (sound.apply first) kept fun request member => running request (List.mem_cons_of_mem _ member)

theorem calls_apply (custody : Custody ε) (request : Request ε) : custody.calls <+: (custody.apply request).calls := by
  cases request with
  | get key now maker =>
      rw [apply_get, get_calls]
      exact List.prefix_append _ _
  | _ => exact List.prefix_refl _

theorem Sound.removed (sound : custody.Sound) (request : Request ε) {placement : Placement}
    (before : placement ∈ custody.registry.placements) (after : placement ∉ (custody.apply request).registry.placements) :
    placement ∈ (custody.apply request).stops := by
  have made : placement ∈ (custody.apply request).made :=
    ((calls_apply custody request).filterMap _).subset (sound.mem_made before)
  rcases List.mem_append.mp ((sound.apply request).balance.mem_iff.mp made) with registered | stopped
  · exact absurd registered after
  · exact stopped

theorem Awaits.apply (awaits : custody.Awaits key) {request : Request ε} (other : request.concerns key = false) :
    (custody.apply request).Awaits key := by
  cases request with
  | get asked now maker =>
      rw [apply_get]
      refine get_cases custody asked now maker (fun _ => awaits) ?_ (fun _ _ _ => awaits) ?_
      · intro entry _ _
        exact ⟨awaits.1, Registry.find?_congr_none (by simp) awaits.2⟩
      · intro id _ _
        refine ⟨awaits.1, ?_⟩
        have missing := Registry.find?_eq_none_iff.mp awaits.2
        have different : ¬ key = asked := by
          rintro rfl
          simp [Request.concerns] at other
        rw [Registry.find?_eq_none_iff, Registry.keys_eq, Registry.placements_hold, Registry.placements_register]
        rw [Registry.keys_eq] at missing
        simp [missing, different]
  | release id => exact awaits
  | expire now timeout =>
      refine ⟨?_, ?_⟩
      · simpa [Custody.apply, Custody.expire, Registry.expire_eq] using awaits.1
      · have missing := Registry.find?_none awaits.2
        simp only [Custody.apply, Custody.expire, Registry.expire_eq, Registry.find?, List.find?_eq_none]
        intro entry member
        simpa using missing entry (List.mem_of_mem_filter member)
  | stopAll => simp [Request.concerns] at other
  | meanwhile change keeps => exact awaits

theorem Awaits.run (awaits : custody.Awaits key) {requests : List (Request ε)}
    (others : ∀ request ∈ requests, request.concerns key = false) : (custody.run requests).Awaits key := by
  induction requests generalizing custody with
  | nil => exact awaits
  | cons first rest ih =>
      exact ih (awaits.apply (others first (List.mem_cons_self ..))) fun request member =>
        others request (List.mem_cons_of_mem _ member)

theorem get_error {fault : ε} (failed : (custody.get key now maker).1 = .error fault) :
    (custody.get key now maker).2.registry = custody.registry ∧ (custody.get key now maker).2.Awaits key := by
  revert failed
  refine get_cases custody key now maker ?_ ?_ ?_ ?_
  · intro _ failed
    cases failed
  · intro entry _ _ failed
    cases failed
  · intro fault awaits _ _
    exact ⟨rfl, awaits⟩
  · intro id _ _ failed
    cases failed

def IsOver (custody : Custody ε) : Prop :=
  custody.registry.closed = true ∧ custody.registry.entries = []

theorem IsOver.apply (past : custody.IsOver) (request : Request ε) : (custody.apply request).IsOver := by
  cases request with
  | get key now maker =>
      rw [apply_get, get_closed past.1]
      exact past
  | release id => exact past
  | expire now timeout =>
      simp only [Custody.apply, Custody.expire, Registry.expire_eq]
      exact ⟨past.1, by simp [past.2]⟩
  | stopAll => exact ⟨rfl, rfl⟩
  | meanwhile change keeps => exact past

theorem IsOver.run (past : custody.IsOver) (requests : List (Request ε)) : (custody.run requests).IsOver := by
  induction requests generalizing custody with
  | nil => exact past
  | cons first rest ih => exact ih (past.apply first)

theorem isOver_of_mem {requests : List (Request ε)} (stopped : .stopAll ∈ requests) : (custody.run requests).IsOver := by
  obtain ⟨before, after, rfl⟩ := List.append_of_mem stopped
  rw [run, List.foldl_append, List.foldl_cons]
  exact IsOver.run ⟨rfl, rfl⟩ after

/-- A maker is called exactly if the registry takes new sinks and has none for the key. What was made is registered or was
stopped, one of the two and once, and a sink is stopped before it is forgotten. A maker that fails leaves the registry as it
was, and is called again the next time. After all sinks have been stopped there are none any more. -/
theorem run_conserves (world : World) (requests : List (Request ε)) :
    let custody := run { world } requests
    (∀ key now maker, (custody.get key now maker).2.calls = custody.calls ++
      if custody.registry.closed = false ∧ custody.registry.find? key = none then
        [⟨key, (maker.make custody.world).1⟩]
      else []) ∧
    custody.made.Perm (custody.registry.placements ++ custody.stops) ∧
    ((custody.registry.placements ++ custody.stops).map (·.sink)).Nodup ∧
    custody.registry.keys.Nodup ∧
    ((∀ request ∈ requests, request.MakesRunning) → custody.registry.IsLive custody.world) ∧
    (∀ placement ∈ custody.stops, custody.world.isStopped placement.sink = true) ∧
    (∀ request, ∀ placement ∈ custody.registry.placements,
      placement ∉ (custody.apply request).registry.placements → placement ∈ (custody.apply request).stops) ∧
    (∀ key now maker fault, (custody.get key now maker).1 = .error fault →
      (custody.get key now maker).2.registry = custody.registry ∧
      ∀ others, (∀ request ∈ others, request.concerns key = false) → ∀ later again,
        let custody := (custody.get key now maker).2.run others
        (custody.get key later again).2.calls = custody.calls ++ [⟨key, (again.make custody.world).1⟩]) ∧
    (.stopAll ∈ requests → custody.registry.entries = [] ∧ ∀ key now maker, custody.get key now maker = (.ok none, custody)) ∧
    custody.stopAll.1 = custody.registry.size := by
  intro custody
  have sound : custody.Sound := sound_run world requests
  refine ⟨get_calls custody, sound.balance, sound.apart, sound.keys, ?_, sound.stopped, ?_, ?_, ?_, rfl⟩
  · intro running
    exact (sound_start world).run_live (by simp [Registry.IsLive, Registry.placements]) running
  · intro request placement before after
    exact sound.removed request before after
  · intro key now maker fault failed
    obtain ⟨same, awaits⟩ := get_error failed
    refine ⟨same, ?_⟩
    intro others unconcerned later again custody'
    have called := get_calls custody' key later again
    rwa [if_pos (awaits.run unconcerned)] at called
  · intro stopped
    have past : custody.IsOver := isOver_of_mem stopped
    exact ⟨past.2, fun _ _ _ => get_closed past.1⟩

theorem run_conserves_recording :
    let world : World :=
      { uploads := { executor := .idle, work := { files := .empty ["home"], store := { backend := .memory {} } } } }
    let maker := Maker.ofFactory (.recording { refused := ["b"] }) "router"
    let requests := [.get "a" 0 (maker "a"), .release 0, .expire 10 5, .get "a" 20 (maker "a")]
    let custody := run { world } requests
    let refused := (custody.get "b" 30 (maker "b")).2
    custody.made = [⟨"a", 0⟩, ⟨"a", 1⟩] ∧ custody.stops = [⟨"a", 0⟩] ∧ custody.registry.IsLive custody.world ∧
      ⟨"a", 1⟩ ∈ custody.stopAll.2.stops ∧ refused.registry = custody.registry ∧
      (refused.get "b" 40 (maker "b")).2.calls = refused.calls ++ [⟨"b", ((maker "b").make refused.world).1⟩] ∧
      (run { world } (requests ++ [.stopAll])).registry.entries = [] := by
  intro world maker requests custody refused
  have running : ∀ request ∈ requests, request.MakesRunning := by
    intro request member
    simp only [requests, List.mem_cons, List.not_mem_nil, or_false] at member
    rcases member with rfl | rfl | rfl | rfl
    · exact Maker.ofFactory_makesRunning _ _ _
    · trivial
    · trivial
    · exact Maker.ofFactory_makesRunning _ _ _
  obtain ⟨-, -, -, -, live, -, removed, failed, -⟩ := run_conserves world requests
  obtain ⟨-, -, -, -, -, -, -, -, stopped, -⟩ := run_conserves world (requests ++ [.stopAll])
  obtain ⟨same, again⟩ := failed "b" 30 (maker "b") (.invalidKey "b" "refused") rfl
  refine ⟨by decide +kernel, by decide +kernel, live running, ?_, same, ?_, (stopped ?_).1⟩
  · exact removed .stopAll ⟨"a", 1⟩ (by decide +kernel) (by decide +kernel)
  · exact again [] (by simp) 40 (maker "b")
  · simp

end Custody

end KeyedLog
