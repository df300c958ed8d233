import KeyedLog.Proofs.Dispatcher.Territories

/-!
Recipients are isolated. As long as they have nothing to do with the same places, each of them does what it would do if
it were the only one, whether others fail or not.
-/

namespace KeyedLog

open FileTree

namespace Recipient

def keys (events : List Event) (recipient : Recipient) : List String :=
  events.filterMap fun event => recipient.key? event

def sinksFor (keys : List String) : Recipient → List SinkId
  | platform sink => [sink]
  | router its => (its.registry.entries.filter fun entry => entry.key ∈ keys).map (·.sink)

def pathsFor (recipient : Recipient) (key : String) : List String :=
  match recipient with
  | platform _ => []
  | router its => its.factory.paths key

def archivesFor (recipient : Recipient) (key : String) : List String :=
  match recipient with
  | platform _ => []
  | router its => its.factory.archives key

def paths (events : List Event) (world : World) (recipient : Recipient) : List String :=
  let keys := recipient.keys events
  keys.flatMap recipient.pathsFor ++ (recipient.sinksFor keys).flatMap world.pathsOf

def archives (events : List Event) (world : World) (recipient : Recipient) : List String :=
  let keys := recipient.keys events
  keys.flatMap recipient.archivesFor ++ (recipient.sinksFor keys).flatMap world.archivePaths

/-- The places that a recipient has to do with if it receives these events. -/
def territory (events : List Event) (world : World) (recipient : Recipient) : Territory :=
  .ofPaths world.files (recipient.paths events world)
    ((recipient.sinksFor (recipient.keys events)).flatMap world.openPlaces)

end Recipient

namespace Dispatcher

def admitted (dispatcher : Dispatcher) (events : List (Millis × Event)) : List Event :=
  (events.map (·.2)).filter fun event => ¬ event.level < dispatcher.minLevel

/-- Its sinks are there, no two recipients have one in common, and no two sinks a buffer. This is so when a service starts, and
stays so unless a rotation moves the working directory. -/
structure IsFit (dispatcher : Dispatcher) (world : World) : Prop where
  sound : world.files.IsSound
  separate : world.IsSeparate
  sinks : ∀ sink ∈ world.sinks, sink.IsFit world.files
  bound : ∀ recipient ∈ dispatcher.recipients, ∀ id ∈ recipient.sinks, id < world.sinks.length
  disjoint : dispatcher.recipients.Pairwise fun one two => one.sinks.Disjoint two.sinks

/-- No two recipients that receive these events have to do with the same places, and the working directory is not inside
of an archive: it is a fixed place, which does not follow a directory that a rotation moves. -/
structure KeepsApart (dispatcher : Dispatcher) (events : List Event) (world : World) : Prop where
  territories : dispatcher.recipients.Pairwise fun one two =>
    Territory.AreApart world.files (one.territory events world) (two.territory events world)
  home : ∀ recipient ∈ dispatcher.recipients, ∀ archive ∈ recipient.archives events world,
    ¬ world.files.place archive <+: world.files.workingDirectory

end Dispatcher

section Start

variable {dispatcher : Dispatcher} {recipient : Recipient} {events : List Event} {world : World}

def Part.start (events : List Event) (world : World) (recipient : Recipient) : Part where
  scope := (recipient.territory events world).scope
  keys key := key ∈ recipient.keys events
  others id := world.remote? id ≠ none
  mate := id
  recipient := recipient
  solo := recipient
  twin := world

theorem Dispatcher.IsFit.matches (fit : dispatcher.IsFit world)
    (home : ∀ archive ∈ recipient.archives events world, ¬ world.files.place archive <+: world.files.workingDirectory)
    {id : SinkId} (bound : id < world.sinks.length)
    (his : id ∈ recipient.sinksFor (recipient.keys events) ∨ world.remote? id ≠ none) :
    World.Matches (recipient.territory events world).scope world world id id := by
  rcases his with tended | remote
  · have stands : world.sinks[id]? = some world.sinks[id] := List.getElem?_eq_getElem bound
    have open? : world.openFile? id = world.sinks[id].openFile? := by
      rw [World.openFile?, stands]
      rfl
    refine World.matches_self fit.sound fit.separate stands (fit.sinks _ (List.getElem_mem bound)) ?_ ?_ ?_
    · intro path member
      refine Territory.claims_of_mem (List.mem_append_right _ (List.mem_flatMap.mpr ⟨id, tended, ?_⟩))
      rw [World.pathsOf, stands]
      exact member
    · intro archive member
      refine home archive (List.mem_append_right _ (List.mem_flatMap.mpr ⟨id, tended, ?_⟩))
      rw [World.archivePaths, stands]
      exact member
    · intro file holds location bears
      refine ⟨location, List.mem_append_right _ (List.mem_flatMap.mpr ⟨id, tended, ?_⟩), List.prefix_refl _⟩
      rw [World.openPlaces, open?, holds]
      exact placesOf_of_bears bears
  · obtain ⟨sink, present⟩ := Option.ne_none_iff_exists'.mp remote
    have stands := World.remote?_eq.mp present
    have none : ∀ path ∈ ([] : List String), (recipient.territory events world).scope.Claims world.files path := by simp
    refine World.matches_self fit.sound fit.separate stands (fit.sinks _ (List.mem_of_getElem? stands)) none ?_ ?_
    · simp [Sink.archivePaths]
    · simp [Sink.openFile?]

theorem World.mirrors_self {scope : Scope} {mine : SinkId → Prop} (sound : world.files.IsSound) (separate : world.IsSeparate)
    (matched : ∀ id, mine id → World.Matches scope world world id id) : World.Mirrors scope mine id world world :=
  ⟨⟨sound, sound, rfl, fun _ _ => rfl, fun _ _ => rfl, fun _ _ => .inl rfl⟩, rfl, rfl, matched, fun _ _ _ _ same => same,
    separate, separate⟩

theorem Dispatcher.IsFit.mirrors (fit : dispatcher.IsFit world) (member : recipient ∈ dispatcher.recipients)
    (home : ∀ archive ∈ recipient.archives events world, ¬ world.files.place archive <+: world.files.workingDirectory) :
    (Part.start events world recipient).Mirrors world := by
  have bound := fit.bound recipient member
  cases recipient with
  | platform sink =>
      refine .platform (World.mirrors_self fit.sound fit.separate ?_)
      rintro id rfl
      have inside := List.mem_singleton.mpr (Eq.refl id)
      exact fit.matches home (bound id inside) (.inl inside)
  | router its =>
      refine .router ⟨?_, World.mirrors_self fit.sound fit.separate ?_, fun id member => ⟨bound id member, bound id member⟩, ?_,
        ?_⟩
      · show its = { its with registry := its.registry.renamed id }
        rw [Registry.renamed_id]
      · rintro _ ⟨entry, inside, rfl, known⟩
        refine fit.matches home (bound _ (List.mem_map_of_mem inside)) (known.imp_left fun key => ?_)
        exact List.mem_map_of_mem (List.mem_filter.mpr ⟨inside, decide_eq_true key⟩)
      · intro id inside away
        obtain ⟨entry, registered, rfl⟩ := List.mem_map.mp inside
        have none : world.remote? entry.sink = none := by
          by_contra remote
          exact away ⟨entry, registered, rfl, .inr remote⟩
        exact ⟨none, none⟩
      · intro key known
        refine ⟨?_, ?_⟩
        · exact fun path its => Territory.claims_of_mem (List.mem_append_left _ (List.mem_flatMap.mpr ⟨key, known, its⟩))
        · exact fun archive its => home archive (List.mem_append_left _ (List.mem_flatMap.mpr ⟨key, known, its⟩))

theorem Company.start (fit : dispatcher.IsFit world) (apart : dispatcher.KeepsApart events world) :
    Company (dispatcher.recipients.map (Part.start events world)) world := by
  refine ⟨?_, List.pairwise_map.mpr ?_⟩
  · intro part member
    obtain ⟨recipient, its, rfl⟩ := List.mem_map.mp member
    exact fit.mirrors its (apart.home recipient its)
  · exact (apart.territories.and fit.disjoint).imp fun both => ⟨both.1.scopes, both.2⟩

end Start

theorem World.Matches.pending? {scope : Scope} {twin : World} {id mate : SinkId} (matched : World.Matches scope world twin id mate) :
    twin.pending? mate = world.pending? id := by
  obtain ⟨sink, other, stands, standsTwin, same⟩ := matched
  rw [World.pending?, World.pending?, World.remote?, World.remote?, stands, standsTwin]
  cases same with
  | remote _ _ here there _ pending => simp [here, there, pending]
  | _ => rfl

namespace Recipient

/-- A recipient has come to the same in company and alone: it has the same live keys, the same events wait to be stored, and
what is its own looks the same. -/
structure ComesTo (territory : Territory) (world alone : World) (recipient solo : Recipient) : Prop where
  liveKeys : solo.liveKeys = recipient.liveKeys
  pending : solo.pending alone = recipient.pending world
  files : ∀ location, territory.Owns location → alone.files.sight? location = world.files.sight? location

theorem Mirrors.comesTo {territory : Territory} {keys : String → Prop} {others : SinkId → Prop} {mate : SinkId → SinkId}
    {solo : Recipient} {alone : World} (mirrors : Mirrors territory.scope keys others mate world alone recipient solo) :
    ComesTo territory world alone recipient solo := by
  cases mirrors with
  | @platform sink worlds =>
      refine ⟨rfl, ?_, worlds.twins.own⟩
      exact congrArg (fun pending => [pending]) (worlds.matched sink rfl).pending?
  | @router its solo routers =>
      obtain ⟨rfl, worlds, -, idle, -⟩ := routers
      refine ⟨?_, ?_, worlds.twins.own⟩
      · simp [liveKeys, Registry.renamed]
      · simp only [pending, sinks, Router.sinks, Registry.renamed, List.map_map]
        refine List.map_congr_left fun entry member => ?_
        show alone.pending? (mate entry.sink) = world.pending? entry.sink
        by_cases tended : its.Tends keys others entry.sink
        · exact (worlds.matched _ tended).pending?
        · obtain ⟨none, noneAlone⟩ := idle _ (List.mem_map_of_mem member) tended
          rw [World.pending?, World.pending?, none, noneAlone]
          rfl

end Recipient

theorem Dispatcher.length_dispatchAll (dispatcher : Dispatcher) (world : World) (timed : List (Millis × Event)) :
    (dispatcher.dispatchAll world timed).1.length = timed.length := by
  induction timed generalizing dispatcher world with
  | nil => rfl
  | cons first rest ih => simp [Dispatcher.dispatchAll, ih]

/-- Recipients are isolated. A closed dispatcher refuses every event, an event below its level changes nothing, and from
all other events each recipient comes to what it would come to if it were the only one. The failures for an event are
those of all recipients, in their order. -/
theorem recipients_are_isolated (dispatcher : Dispatcher) (world : World) (timed : List (Millis × Event)) :
    (∀ event, dispatcher.accepting = false → dispatcher.dispatch event world = ([.closed], dispatcher, world)) ∧
    (∀ event, dispatcher.accepting = true → event.level < dispatcher.minLevel →
      dispatcher.dispatch event world = ([], dispatcher, world)) ∧
    (dispatcher.accepting = true → dispatcher.IsFit world → dispatcher.KeepsApart (dispatcher.admitted timed) world →
      let together := dispatcher.dispatchAll world timed
      let alone := fun recipient => (dispatcher.only recipient).dispatchAll world timed
      together.1 = (List.range timed.length).map (fun index =>
        dispatcher.recipients.flatMap fun recipient => (alone recipient).1.getD index []) ∧
      List.Forall₂ (fun recipient reached => ∃ solo, (alone recipient).2.1.recipients = [solo] ∧
          Recipient.ComesTo (recipient.territory (dispatcher.admitted timed) world) together.2.2 (alone recipient).2.2
            reached solo)
        dispatcher.recipients together.2.1.recipients) := by
  refine ⟨fun event closed => Dispatcher.dispatch_closed closed event world,
    fun event accepting low => Dispatcher.dispatch_low accepting low world, ?_⟩
  intro accepting fit apart
  have known : ∀ part ∈ dispatcher.recipients.map (Part.start (dispatcher.admitted timed) world), ∀ each ∈ timed,
      ¬ each.2.level < dispatcher.minLevel → part.Knows each.2 := by
    intro part member each inside high key same
    obtain ⟨recipient, its, rfl⟩ := List.mem_map.mp member
    refine List.mem_filterMap.mpr ⟨each.2, List.mem_filter.mpr ⟨List.mem_map_of_mem inside, ?_⟩, same⟩
    exact decide_eq_true high
  obtain ⟨later, faults, reached, company, runs⟩ :=
    (Company.start fit apart).dispatchAll accepting (by simp [Part.start, Function.comp_def]) timed known
  refine ⟨?_, ?_⟩
  · refine List.ext_getElem (by simp [Dispatcher.length_dispatchAll]) ?_
    intro index bound _
    have here := faults index
    rw [List.getD_eq_getElem?_getD, List.getElem?_eq_getElem bound, Option.getD_some, List.flatMap_map] at here
    rw [here, List.getElem_map, List.getElem_range]
    rfl
  · rw [reached, List.forall₂_map_right_iff]
    have both := (List.forall₂_and_left _ _).mpr ⟨company.mirrors, (List.forall₂_map_left_iff.mp runs).flip⟩
    refine both.flip.imp ?_
    rintro recipient part ⟨mirrors, runs⟩
    have run : ((dispatcher.only recipient).dispatchAll world timed).2 = (dispatcher.only part.solo, part.twin) := runs.run
    rw [Part.Mirrors, runs.scope] at mirrors
    refine ⟨part.solo, ?_, ?_⟩
    · rw [run]
      exact Dispatcher.recipients_only dispatcher part.solo
    · rw [run]
      exact mirrors.comesTo

namespace Isolation

def world : World :=
  { uploads := { executor := .idle, work := { files := .empty ["home"], store := { backend := .memory {} } } }
    sinks := [.console { name := "platform", encode := Encoding.line.encode }] }

def application : Router :=
  { name := "application", discriminator := ⟨"app"⟩, factory := .localApplication "a" ⟨5, 2⟩ Encoding.line.encode }

def job : Router :=
  { name := "job", discriminator := ⟨"job"⟩, factory := .localJob "a" Encoding.line.encode }

def broken : Router :=
  { name := "broken", discriminator := ⟨"app"⟩, factory := .recording { broken := ["ws"], refusal := "refused" } }

def cloud : Router :=
  { name := "cloud", discriminator := ⟨"cloud"⟩, factory := .cloud .applicationLogs (.new 1 ⟨0, 0⟩) Encoding.line.encode }

def send (entry key text : String) : Millis × Event :=
  (0, (Event.new 0 .info text).withEntry entry key)

def company : Dispatcher :=
  { platform := some 0, routers := [broken, application, job, cloud] }

def locals : Dispatcher :=
  { routers := [application, job] }

def timed : List (Millis × Event) :=
  [(0, ((Event.new 0 .info "one").withEntry "app" "ws").withEntry "cloud" "c"), send "job" "jobs/x" "two",
    send "app" "ws" "three three"]

end Isolation

open Isolation in
theorem recipients_are_isolated_broken :
    ∃ faults after reached, company.dispatchAll world timed = (faults, after, reached) ∧ company.accepting = true ∧
      company.IsFit world ∧ company.KeepsApart (company.admitted timed) world ∧
      faults = [[.route (.write "broken" "ws" (.io "broken/ws" (.other "refused")))], [],
        [.route (.write "broken" "ws" (.io "broken/ws" (.other "refused")))]] ∧
      reached.files.sight? ["home", "ws", "a"] = some (.file (Utf8.encode "0 INFO  three three\n")) := by
  have fit : company.IsFit world := by
    have none : ∀ id sink, world.remote? id ≠ some sink := by
      intro id sink present
      have member := List.mem_of_getElem? (World.remote?_eq.mp present)
      simp [world] at member
    refine ⟨isSound_empty ["home"], ⟨fun present => absurd present (none _ _), fun present => absurd present (none _ _)⟩,
      ?_, by decide, ?_⟩
    · intro sink member
      obtain rfl := List.mem_singleton.mp member
      exact ⟨by simp [Sink.openFile?], by simp⟩
    · simp [company, Dispatcher.recipients, Recipient.sinks, Router.sinks, application, job, broken, cloud]
  have apart : company.KeepsApart (company.admitted timed) world := ⟨by decide +kernel, by decide +kernel⟩
  have isolated := (recipients_are_isolated company world timed).2.2 rfl fit apart
  obtain ⟨faults, after, reached, ran⟩ : ∃ faults after reached, company.dispatchAll world timed = (faults, after, reached) :=
    ⟨_, _, _, rfl⟩
  rw [ran] at isolated
  obtain ⟨answered, each⟩ := isolated
  dsimp only at answered each
  refine ⟨faults, after, reached, ran, rfl, fit, apart, ?_, ?_⟩
  · rw [answered]
    decide +kernel
  · have alone : ((company.only (.router application)).dispatchAll world timed).2.2.files.sight? ["home", "ws", "a"] =
        some (.file (Utf8.encode "0 INFO  three three\n")) := by decide +kernel
    generalize after.recipients = those at each
    rw [show company.recipients = [.platform 0, .router broken, .router application, .router job, .router cloud] from rfl]
      at each
    obtain _ | ⟨-, _ | ⟨-, _ | ⟨⟨solo, -, comes⟩, -⟩⟩⟩ := each
    rw [← alone]
    refine (comes.files _ ?_).symm
    exact ⟨["home", "ws", "a"], by decide +kernel, List.prefix_rfl⟩

open Isolation in
/-- It is not enough that no key names a place at, above or below that of a key of another router. A path may turn back
where another path needs a file, and an open file may have been moved into the directory of another key. -/
theorem apart_keys_disturb :
    (let timed := [send "job" "x" "one", send "app" "x/../y" "two"]
      let one := world.files.place "x"
      let two := world.files.place "x/../y"
      ¬ one <+: two ∧ ¬ two <+: one ∧
      (locals.dispatchAll world timed).1 =
        [[], [.route (.creation "application" "x/../y" (.io "x/../y" .notDirectory))]] ∧
      ((locals.only (.router application)).dispatchAll world timed).1 = [[], []]) ∧
    (let timed := [send "app" "w/a.2.gz" "four", send "job" "w/a.1.gz/a" "five"]
      let reached := (locals.dispatchAll world [send "app" "w" "one", send "job" "w/a.1.gz/a" "two", send "app" "w" "three"]).2
      let one := reached.2.files.place "w/a.1.gz/a"
      let two := reached.2.files.place "w/a.2.gz"
      ¬ one <+: two ∧ ¬ two <+: one ∧
      (reached.1.dispatchAll reached.2 timed).2.2.files.sight? ["home", "w", "a.2.gz", "a"] =
        some (.file (Utf8.encode "0 INFO  four\n")) ∧
      (reached.1.recipients.map fun recipient =>
          ((reached.1.only recipient).dispatchAll reached.2 timed).2.2.files.sight? ["home", "w", "a.2.gz", "a"]) =
        [some (.file (Utf8.encode "0 INFO  four\n")), some (.file (Utf8.encode "0 INFO  two\n0 INFO  five\n"))]) := by
  refine ⟨?_, ?_⟩ <;> decide +kernel

end KeyedLog
