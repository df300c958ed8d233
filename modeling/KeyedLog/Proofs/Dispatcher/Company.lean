import KeyedLog.Proofs.Dispatcher.Recipients

/-!
Recipients in company, and each of them alone in a world of its own. Whatever is handed to one of them, it does there
what it does in company, and the others notice nothing.
-/

namespace KeyedLog

open FileTree

def Scope.AreApart (tree : FileTree) (one two : Scope) : Prop :=
  one.IsApart tree two ∧ two.IsApart tree one

theorem Scope.AreApart.symm {tree : FileTree} {one two : Scope} (areApart : one.AreApart tree two) : two.AreApart tree one :=
  ⟨areApart.2, areApart.1⟩

namespace Recipient

/-- The recipient stands in the one world and its counterpart in the other, and the worlds look the same to both. -/
inductive Mirrors (scope : Scope) (keys : String → Prop) (others : SinkId → Prop) (mate : SinkId → SinkId)
    (world twin : World) : Recipient → Recipient → Prop where
  | platform {sink : SinkId} (worlds : World.Mirrors scope (· = sink) mate world twin) :
      Mirrors scope keys others mate world twin (.platform sink) (.platform (mate sink))
  | router {router solo : Router} (routers : Router.Mirrors scope keys others mate router solo world twin) :
      Mirrors scope keys others mate world twin (.router router) (.router solo)

/-- What a recipient does in both worlds: they still look the same to it, and it has changed nothing but what is its own. -/
structure Proceeds (scope : Scope) (keys : String → Prop) (others : SinkId → Prop) (mate : SinkId → SinkId)
    (recipient : Recipient) (world : World) (after : Recipient) (next : World) (solo : Recipient) (twin : World) :
    Prop where
  mirrors : Mirrors scope keys others mate next twin after solo
  changes : World.Confined scope (· ∈ recipient.sinks) world next
  sinks : ∀ id ∈ after.sinks, id ∈ recipient.sinks ∨ world.sinks.length ≤ id
  key : ∀ event, after.key? event = recipient.key? event

variable {scope theirs : Scope} {keys : String → Prop} {others touched : SinkId → Prop} {mate : SinkId → SinkId}
  {recipient solo : Recipient} {world twin next : World} {event : Event}

theorem Mirrors.bound (mirrors : Mirrors scope keys others mate world twin recipient solo) :
    ∀ id ∈ recipient.sinks, id < world.sinks.length := by
  cases mirrors with
  | platform worlds =>
      intro id member
      obtain rfl := List.mem_singleton.mp member
      exact (worlds.matched id rfl).bound.1
  | router routers => exact fun id member => (routers.bound id member).1

theorem Mirrors.wait (mirrors : Mirrors scope keys others mate world twin recipient solo) (instant : Millis) :
    Mirrors scope keys others mate { world with instant } { twin with instant } recipient solo := by
  cases mirrors with
  | platform worlds => exact .platform (worlds.wait instant)
  | router routers => exact .router (routers.wait instant)

theorem Mirrors.frame (mirrors : Mirrors scope keys others mate world twin recipient solo)
    (confined : World.Confined theirs touched world next) (apart : ∀ id ∈ recipient.sinks, ¬ touched id)
    (isApart : scope.IsApart world.files theirs) : Mirrors scope keys others mate next twin recipient solo := by
  cases mirrors with
  | platform worlds =>
      refine .platform (worlds.frame confined ?_ isApart)
      rintro id rfl
      exact apart id (List.mem_singleton.mpr rfl)
  | router routers => exact .router (routers.frame confined apart isApart)

theorem deliver_mirrors (mirrors : Mirrors scope keys others mate world twin recipient solo)
    (known : ∀ key, recipient.key? event = some key → keys key) :
    (solo.deliver event twin).1 = (recipient.deliver event world).1 ∧
      ∃ renewed, Proceeds scope keys others renewed recipient world (recipient.deliver event world).2.1
        (recipient.deliver event world).2.2 (solo.deliver event twin).2.1 (solo.deliver event twin).2.2 := by
  cases mirrors with
  | @platform sink worlds =>
      obtain ⟨answer, written, touches, -⟩ := worlds.write rfl event
      have changes := touches.mono (fun files => files) fun id _ same => List.mem_singleton.mpr same
      simp only [deliver]
      generalize world.write sink event = first at answer written changes
      generalize twin.write (mate sink) event = second at answer written
      obtain ⟨result, next⟩ := first
      obtain ⟨resultTwin, nextTwin⟩ := second
      obtain rfl : resultTwin = result := answer
      cases resultTwin with
      | error cause => exact ⟨rfl, mate, .platform written, changes, fun id member => .inl member, fun _ => rfl⟩
      | ok value => exact ⟨rfl, mate, .platform written, changes, fun id member => .inl member, fun _ => rfl⟩
  | @router its alone routers =>
      obtain ⟨answer, renewed, proceeds⟩ := Router.route_mirrors routers event fun passes => known _ (if_pos passes)
      have reads : (its.route event world).2.1.discriminator = its.discriminator := Router.route_discriminator its event world
      simp only [deliver]
      generalize its.route event world = first at answer proceeds reads
      generalize alone.route event twin = second at answer proceeds
      obtain ⟨result, after, next⟩ := first
      obtain ⟨resultTwin, soloAfter, nextTwin⟩ := second
      obtain rfl : resultTwin = result := answer
      have key : ∀ event, (Recipient.router after).key? event = (Recipient.router its).key? event := by
        intro event
        rw [key?, key?, show after.discriminator = its.discriminator from reads]
      cases resultTwin with
      | error cause => exact ⟨rfl, renewed, .router proceeds.mirrors, proceeds.changes, proceeds.sinks, key⟩
      | ok value => exact ⟨rfl, renewed, .router proceeds.mirrors, proceeds.changes, proceeds.sinks, key⟩

end Recipient

/-- A recipient in company and alone, with the world in which it is alone. -/
structure Part where
  scope : Scope
  keys : String → Prop
  /-- Its sinks that matter even if nothing is written to them. -/
  others : SinkId → Prop
  mate : SinkId → SinkId
  recipient : Recipient
  solo : Recipient
  twin : World

namespace Part

def Mirrors (part : Part) (world : World) : Prop :=
  Recipient.Mirrors part.scope part.keys part.others part.mate world part.twin part.recipient part.solo

def AreApart (tree : FileTree) (one two : Part) : Prop :=
  one.scope.AreApart tree two.scope ∧ one.recipient.sinks.Disjoint two.recipient.sinks

def Knows (part : Part) (event : Event) : Prop :=
  ∀ key, part.recipient.key? event = some key → part.keys key

structure IsLater (part later : Part) : Prop where
  scope : later.scope = part.scope
  keys : later.keys = part.keys
  others : later.others = part.others
  key : ∀ event, later.recipient.key? event = part.recipient.key? event

structure Delivers (event : Event) (part later : Part) : Prop extends IsLater part later where
  solo : later.solo = (part.solo.deliver event part.twin).2.1
  twin : later.twin = (part.solo.deliver event part.twin).2.2

theorem AreApart.symm {tree : FileTree} {one two : Part} (areApart : one.AreApart tree two) : two.AreApart tree one :=
  ⟨areApart.1.symm, fun _ hers his => areApart.2 his hers⟩

end Part

/-- Each part does the same in company and alone, and they are apart. -/
structure Company (parts : List Part) (world : World) : Prop where
  mirrors : ∀ part ∈ parts, part.Mirrors world
  apart : parts.Pairwise (Part.AreApart world.files)

namespace Company

variable {parts done todo rest : List Part} {part : Part} {world : World} {event : Event}

theorem perm {others : List Part} (company : Company parts world) (perm : parts.Perm others) : Company others world :=
  ⟨fun part member => company.mirrors part (perm.mem_iff.mpr member),
    (perm.pairwise_iff Part.AreApart.symm).mp company.apart⟩

theorem deliver (company : Company (part :: rest) world) (known : part.Knows event) :
    ∃ later, Part.Delivers event part later ∧ later.recipient = (part.recipient.deliver event world).2.1 ∧
      (part.solo.deliver event part.twin).1 = (part.recipient.deliver event world).1 ∧
      Company (later :: rest) (part.recipient.deliver event world).2.2 := by
  obtain ⟨mirrors, apart⟩ := company
  obtain ⟨near, far⟩ := List.pairwise_cons.mp apart
  obtain ⟨answer, renewed, proceeds⟩ :=
    Recipient.deliver_mirrors (mirrors part (List.mem_cons_self ..)) known
  generalize part.recipient.deliver event world = delivered at answer proceeds
  obtain ⟨faults, after, next⟩ := delivered
  dsimp only at answer proceeds ⊢
  let later : Part := { part with
    mate := renewed
    recipient := after
    solo := (part.solo.deliver event part.twin).2.1
    twin := (part.solo.deliver event part.twin).2.2 }
  -- The others neither see what the first has changed nor have any of its sinks, old or new.
  refine ⟨later, ⟨⟨rfl, rfl, rfl, proceeds.key⟩, rfl, rfl⟩, rfl, answer, ?_, ?_⟩
  · intro some member
    rcases List.mem_cons.mp member with rfl | other
    · exact proceeds.mirrors
    · obtain ⟨⟨-, isApart⟩, disjoint⟩ := near some other
      exact (mirrors some (List.mem_cons_of_mem _ other)).frame proceeds.changes (fun id own his => disjoint his own) isApart
  · have files := proceeds.changes.files
    refine List.pairwise_cons.mpr ⟨?_, far.imp_of_mem ?_⟩
    · intro other member
      obtain ⟨⟨mine, theirs⟩, disjoint⟩ := near other member
      refine ⟨⟨mine.later files fun location _ way own => mine.closed location own way,
        theirs.later files fun location sees _ => theirs.apart location sees⟩, ?_⟩
      intro id his theirs
      rcases proceeds.sinks id his with old | new
      · exact disjoint old theirs
      · exact Nat.not_lt.mpr new ((mirrors other (List.mem_cons_of_mem _ member)).bound id theirs)
    · rintro one two member memberToo ⟨⟨mine, theirs⟩, disjoint⟩
      refine ⟨⟨mine.later files fun location sees _ => (near one member).1.2.apart location sees,
        theirs.later files fun location sees _ => (near two memberToo).1.2.apart location sees⟩, disjoint⟩

theorem deliverAll_from (company : Company (done ++ todo) world) (known : ∀ part ∈ todo, part.Knows event) :
    ∃ later, List.Forall₂ (Part.Delivers event) todo later ∧
      (Dispatcher.deliverAll event (todo.map (·.recipient)) world).1 =
        todo.flatMap (fun part => (part.solo.deliver event part.twin).1) ∧
      (Dispatcher.deliverAll event (todo.map (·.recipient)) world).2.1 = later.map (·.recipient) ∧
      Company (done ++ later) (Dispatcher.deliverAll event (todo.map (·.recipient)) world).2.2 := by
  induction todo generalizing done world with
  | nil => exact ⟨[], .nil, rfl, rfl, company⟩
  | cons part rest ih =>
      obtain ⟨first, delivers, reached, answer, company⟩ :=
        (company.perm List.perm_middle).deliver (known part (List.mem_cons_self ..))
      have moved : (first :: (done ++ rest)).Perm (done ++ [first] ++ rest) := by
        rw [List.append_assoc]
        exact List.perm_middle.symm
      obtain ⟨later, all, faults, recipients, company⟩ :=
        ih (company.perm moved) fun some member => known some (List.mem_cons_of_mem _ member)
      refine ⟨first :: later, .cons delivers all, ?_, ?_, ?_⟩
      · simp only [List.map_cons, Dispatcher.deliverAll, List.flatMap_cons, faults, answer]
      · simp only [List.map_cons, Dispatcher.deliverAll, recipients, reached]
      · rw [List.append_assoc] at company
        exact company

theorem deliverAll (company : Company parts world) (known : ∀ part ∈ parts, part.Knows event) :
    ∃ later, List.Forall₂ (Part.Delivers event) parts later ∧
      (Dispatcher.deliverAll event (parts.map (·.recipient)) world).1 =
        parts.flatMap (fun part => (part.solo.deliver event part.twin).1) ∧
      (Dispatcher.deliverAll event (parts.map (·.recipient)) world).2.1 = later.map (·.recipient) ∧
      Company later (Dispatcher.deliverAll event (parts.map (·.recipient)) world).2.2 :=
  deliverAll_from (show Company ([] ++ parts) world from company) known

theorem wait (company : Company parts world) (instant : Millis) :
    Company (parts.map fun part => { part with twin := { part.twin with instant } }) { world with instant } := by
  refine ⟨?_, List.pairwise_map.mpr company.apart⟩
  intro part member
  obtain ⟨before, old, rfl⟩ := List.mem_map.mp member
  exact (company.mirrors before old).wait instant

end Company

namespace Part

structure Runs (dispatcher : Dispatcher) (events : List (Millis × Event)) (part later : Part) : Prop
    extends IsLater part later where
  run : ((dispatcher.only part.solo).dispatchAll part.twin events).2 = (dispatcher.only later.solo, later.twin)

def faults (dispatcher : Dispatcher) (events : List (Millis × Event)) (part : Part) : List (List DispatchFault) :=
  ((dispatcher.only part.solo).dispatchAll part.twin events).1

theorem IsLater.trans {first second third : Part} (one : first.IsLater second) (two : second.IsLater third) :
    first.IsLater third :=
  ⟨two.scope.trans one.scope, two.keys.trans one.keys, two.others.trans one.others,
    fun event => (two.key event).trans (one.key event)⟩

theorem IsLater.knows {part later : Part} (isLater : part.IsLater later) {event : Event} (knows : part.Knows event) :
    later.Knows event := by
  intro key same
  rw [isLater.keys]
  exact knows key ((isLater.key event).symm.trans same)

end Part

theorem forall₂_comp {α β γ : Type} {first : α → β → Prop} {second : β → γ → Prop} {both : α → γ → Prop} {before : List α}
    {middle : List β} {after : List γ} (one : List.Forall₂ first before middle) (two : List.Forall₂ second middle after)
    (comp : ∀ a b c, first a b → second b c → both a c) : List.Forall₂ both before after := by
  induction one generalizing after with
  | nil =>
      cases two
      exact .nil
  | cons head _ ih =>
      cases two with
      | cons next rest => exact .cons (comp _ _ _ head next) (ih rest)

namespace Company

variable {parts : List Part} {dispatcher : Dispatcher} {world : World}

structure Dispatches (dispatcher : Dispatcher) (instant : Millis) (event : Event) (parts : List Part)
    (dispatched : List DispatchFault × Dispatcher × World) (later : List Part) : Prop where
  faults : dispatched.1 = parts.flatMap fun part => ((dispatcher.only part.solo).dispatch event { part.twin with instant }).1
  accepting : dispatched.2.1.accepting = true
  only : dispatched.2.1.only = dispatcher.only
  level : dispatched.2.1.minLevel = dispatcher.minLevel
  recipients : dispatched.2.1.recipients = later.map (·.recipient)
  company : Company later dispatched.2.2
  alone : List.Forall₂ (fun part later => part.IsLater later ∧
    ((dispatcher.only part.solo).dispatch event { part.twin with instant }).2 = (dispatcher.only later.solo, later.twin))
      parts later

theorem dispatch (company : Company parts world) (accepting : dispatcher.accepting = true)
    (recipients : dispatcher.recipients = parts.map (·.recipient)) (instant : Millis) {event : Event}
    (known : ¬ event.level < dispatcher.minLevel → ∀ part ∈ parts, part.Knows event) :
    ∃ later, Dispatches dispatcher instant event parts (dispatcher.dispatch event { world with instant }) later := by
  have company := company.wait instant
  by_cases low : event.level < dispatcher.minLevel
  · have alone : ∀ recipient world, (dispatcher.only recipient).dispatch event world =
        ([], dispatcher.only recipient, world) :=
      fun recipient world => Dispatcher.dispatch_low (by simpa using accepting) (by simpa using low) world
    rw [Dispatcher.dispatch_low accepting low]
    refine ⟨_, ⟨by simp [alone], accepting, rfl, rfl, ?_, company, ?_⟩⟩
    · rw [recipients, List.map_map]
      rfl
    · rw [List.forall₂_map_right_iff, List.forall₂_same]
      intro part member
      rw [alone]
      exact ⟨⟨rfl, rfl, rfl, fun _ => rfl⟩, rfl⟩
  · have alone : ∀ part : Part, (dispatcher.only part.solo).dispatch event { part.twin with instant } = _ :=
      fun part => Dispatcher.dispatch_only accepting low { part.twin with instant }
    obtain ⟨platform, routers, dispatched, reached⟩ := Dispatcher.dispatch_delivers accepting low { world with instant }
    have waited : dispatcher.recipients =
        (parts.map fun part => { part with twin := { part.twin with instant } }).map (·.recipient) := by
      rw [recipients, List.map_map]
      rfl
    rw [waited] at dispatched reached
    obtain ⟨later, delivered, faults, recipients, company⟩ := company.deliverAll fun part member => by
      obtain ⟨before, old, rfl⟩ := List.mem_map.mp member
      exact known low before old
    rw [dispatched]
    refine ⟨later, ⟨?_, accepting, rfl, rfl, reached.trans recipients, company, ?_⟩⟩
    · rw [faults, List.flatMap_map]
      exact List.flatMap_congr fun part _ => by rw [alone]
    · refine ((List.forall₂_map_left_iff.mp delivered)).imp ?_
      intro part later delivers
      rw [alone]
      exact ⟨⟨delivers.scope, delivers.keys, delivers.others, delivers.key⟩, by rw [delivers.solo, delivers.twin]⟩

theorem dispatchAll (company : Company parts world) (accepting : dispatcher.accepting = true)
    (recipients : dispatcher.recipients = parts.map (·.recipient)) (events : List (Millis × Event))
    (known : ∀ part ∈ parts, ∀ timed ∈ events, ¬ timed.2.level < dispatcher.minLevel → part.Knows timed.2) :
    ∃ later, (∀ index, (dispatcher.dispatchAll world events).1.getD index [] =
        parts.flatMap fun part => (part.faults dispatcher events).getD index []) ∧
      (dispatcher.dispatchAll world events).2.1.recipients = later.map (·.recipient) ∧
      Company later (dispatcher.dispatchAll world events).2.2 ∧ List.Forall₂ (Part.Runs dispatcher events) parts later := by
  -- After each event the parts are in company again, each where it would be alone.
  induction events generalizing parts dispatcher world with
  | nil =>
      refine ⟨parts, by simp [Dispatcher.dispatchAll, Part.faults], recipients, company, List.forall₂_same.mpr ?_⟩
      exact fun part _ => ⟨⟨rfl, rfl, rfl, fun _ => rfl⟩, rfl⟩
  | cons timed rest ih =>
      obtain ⟨instant, event⟩ := timed
      have first : ∃ middle, Dispatches dispatcher instant event parts (dispatcher.dispatch event { world with instant }) middle :=
        company.dispatch accepting recipients instant fun high part member =>
          known part member (instant, event) (List.mem_cons_self ..) high
      obtain ⟨middle, faults, stays, only, level, reached, company, alone⟩ := first
      have knows : ∀ part ∈ middle, ∀ timed ∈ rest, ¬ timed.2.level < dispatcher.minLevel → part.Knows timed.2 := by
        have both := ((List.forall₂_and_left parts middle).mpr ⟨known, alone⟩).flip
        refine ((List.forall₂_and_left (R := fun _ _ => True) middle parts).mp (both.imp ?_)).1
        rintro later part ⟨knows, isLater, -⟩
        exact ⟨fun timed member high => isLater.knows (knows timed (List.mem_cons_of_mem _ member) high), trivial⟩
      simp only [Dispatcher.dispatchAll]
      generalize dispatcher.dispatch event { world with instant } = dispatched at faults stays only level reached company
      obtain ⟨first, after, next⟩ := dispatched
      dsimp only at faults stays only level reached company ⊢
      obtain ⟨later, more, recipients, company, runs⟩ := ih company stays reached (by rw [level]; exact knows)
      have goes : ∀ part next : Part,
          ((dispatcher.only part.solo).dispatch event { part.twin with instant }).2 = (dispatcher.only next.solo, next.twin) →
          (dispatcher.only part.solo).dispatchAll part.twin ((instant, event) :: rest) =
            (((dispatcher.only part.solo).dispatch event { part.twin with instant }).1 :: next.faults after rest,
              ((after.only next.solo).dispatchAll next.twin rest).2) := by
        intro part next run
        simp only [Dispatcher.dispatchAll, Part.faults, run, only]
      refine ⟨later, ?_, recipients, company, ?_⟩
      · intro index
        cases index with
        | zero => simp [faults, Part.faults, Dispatcher.dispatchAll]
        | succ index =>
            rw [List.getD_cons_succ, more index, List.flatMap_def, List.flatMap_def]
            refine congrArg List.flatten (List.forall₂_eq_eq_eq ▸ ?_)
            rw [List.forall₂_map_left_iff, List.forall₂_map_right_iff]
            refine (alone.imp ?_).flip
            rintro part next ⟨-, run⟩
            show _ = ((dispatcher.only part.solo).dispatchAll part.twin ((instant, event) :: rest)).1.getD (index + 1) []
            rw [goes part next run, List.getD_cons_succ]
      · refine forall₂_comp alone runs ?_
        rintro part next last ⟨isLater, run⟩ ⟨isLast, runs⟩
        exact ⟨isLater.trans isLast, by rw [goes part next run, runs, only]⟩

end Company

end KeyedLog
