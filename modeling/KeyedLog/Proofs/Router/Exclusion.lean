import KeyedLog.Proofs.Router.Succession

/-!
Uploads of one key. As long as a sink is made for a key only when its earlier sinks have nothing left to upload, no two
batches of the key are on their way at one time, and its documents reach the store in the order in which its events were
routed. The code does not wait for that: a sink that was reaped may still upload when the key has another.
-/

namespace KeyedLog

theorem dropLast_filterMap_subset {α β : Type} (choose : α → Option β) (entries : List α) :
    (entries.filterMap choose).dropLast ⊆ entries.dropLast.filterMap choose := by
  rcases List.eq_nil_or_concat entries with rfl | ⟨front, last, rfl⟩
  · exact List.Subset.refl _
  · rw [List.concat_eq_append, List.filterMap_append, List.dropLast_concat]
    cases chosen : choose last with
    | none =>
        rw [List.filterMap_cons_none chosen, List.filterMap_nil, List.append_nil]
        exact List.dropLast_subset _
    | some value =>
        rw [List.filterMap_cons_some chosen, List.filterMap_nil, List.dropLast_concat]
        exact List.Subset.refl _

namespace World

variable {id : SinkId}

instance (world : World) : Decidable (world.IsEmptied id) :=
  decidable_of_iff ((world.remote? id).all (fun sink => decide (world.uploads.work.IsEmptied sink.buffer)) = true)
    (by simp [IsEmptied, Option.all_eq_true])

theorem IsEmptied.not_uploading {world : World} (emptied : world.IsEmptied id) : world.isUploading id = false := by
  unfold isUploading
  split
  · rfl
  next sink present =>
    cases found : sink.buffer? world.uploads with
    | none => rfl
    | some buffer => simp [(emptied sink present buffer found).2]

end World

namespace Succession

/-- An event may be routed if its key has a sink, or if the sinks that its key has had have nothing left to upload. -/
def IsPatient (state : Succession) (event : Event) : Prop :=
  let key := state.router.discriminator.extract event
  state.router.registry.contains key = true ∨ ∀ id ∈ sinksOf key state.made, state.world.IsEmptied id

instance (state : Succession) (event : Event) : Decidable (state.IsPatient event) :=
  inferInstanceAs (Decidable (_ ∨ _))

def documentsOf (key : String) (state : Succession) : List Bytes :=
  ((state.callsOf key).filter (·.stored)).map (·.payload)

/-- Of the sinks of a key only the latest has anything left to upload, and so it has been at all times. -/
structure InTurn (state : Succession) : Prop where
  emptied : ∀ key, ∀ id ∈ (sinksOf key state.made).dropLast, state.world.IsEmptied id
  calls : ∀ key, state.callsOf key = (state.targetsOf key).flatMap fun target => attemptsOf target state.log

variable {type : DocumentType} {retry : RetryPolicy} {encode : Event → Bytes} {state next : Succession} {key : String}
  {id : SinkId} {sink : RemoteSink}

namespace InTurn

theorem start (router : Router) (type : DocumentType) (retry : RetryPolicy) (encode : Event → Bytes) (world : World) :
    (Succession.start router type retry encode world).InTurn where
  emptied := by simp [Succession.start, sinksOf]
  calls := by simp [Succession.start, callsOf, targetsOf, sinksOf, attemptsAmong]

theorem congr (inTurn : state.InTurn) (world : next.world = state.world) (made : next.made = state.made)
    (log : next.log = state.log) : next.InTurn := by
  obtain ⟨router, world', made', receipts, log'⟩ := next
  obtain ⟨rfl, rfl, rfl⟩ : world' = state.world ∧ made' = state.made ∧ log' = state.log := ⟨world, made, log⟩
  exact ⟨inTurn.emptied, inTurn.calls⟩

theorem background (inTurn : state.InTurn) (sound : state.Sound type retry encode) {router : Router} {world : World}
    (preserves : state.world.Preserves world state.sinks) : InTurn { state with router, world } where
  emptied := by
    intro key id early
    have member := mem_sinks (List.dropLast_subset _ early)
    obtain ⟨sink, present⟩ := sound.remote member
    exact preserves.emptied member present (inTurn.emptied key id early)
  calls := by
    intro key
    have targets : targetsOf key { state with router, world } = state.targetsOf key := by
      refine List.filterMap_congr fun id here => ?_
      obtain ⟨sink, present⟩ := sound.remote (mem_sinks here)
      exact preserves.targetOf? (mem_sinks here) present
    rw [callsOf, targets]
    exact inTurn.calls key

theorem run (inTurn : state.InTurn) (take : Taking) (activity : Activity) (rest : List Activity) :
    (state.run take activity rest).InTurn := by
  let schedule : UploadSchedule := { state.world.uploads with ready := rest }
  have quiet : ∀ {target : TargetId}, schedule.work.IsEmptied target →
      (schedule.run (Uploads.workerWith take) activity).2.work.IsEmptied target ∧
        attemptsOf target (schedule.notices take activity) = [] := Schedule.run_emptied take activity
  constructor
  · intro key id early sink present
    exact (quiet (inTurn.emptied key id early sink present)).1
  · intro key
    refine attemptsAmong_goOn (inTurn.calls key) fun target early => ?_
    obtain ⟨id, here, found⟩ := List.mem_filterMap.mp (dropLast_filterMap_subset _ _ early)
    obtain ⟨sink, present, rfl⟩ := Option.map_eq_some_iff.mp found
    exact (quiet (inTurn.emptied key id here sink present)).2

theorem write (inTurn : state.InTurn) (sound : state.Sound type retry encode)
    (last : (sinksOf key state.made).getLast? = some id) (remote : state.world.remote? id = some sink)
    (running : sink.stopped = false) (event : Event) :
    InTurn { state with world := { state.world with uploads := (sink.write event state.world.uploads).2 } } := by
  refine ⟨?_, inTurn.calls⟩
  intro other earlier early sink' present buffer found
  have different : earlier ≠ id := fun same => sound.not_earlier last other (same ▸ early)
  have apart : sink.buffer ≠ sink'.buffer := fun shared => different (sound.apart earlier
    (mem_sinks (List.dropLast_subset _ early)) id (mem_sinks (List.mem_of_getLast? last)) _
    (World.targetOf?_of_remote? present) (shared ▸ World.targetOf?_of_remote? remote))
  refine inTurn.emptied other earlier early sink' present buffer ?_
  rw [RemoteSink.write_buffers running, List.getElem?_modify_ne _ _ apart] at found
  exact found

theorem make (inTurn : state.InTurn) (sound : state.Sound type retry encode)
    (patient : ∀ id ∈ sinksOf key state.made, state.world.IsEmptied id) {middle : World} {buffer : RemoteBuffer}
    (adds : state.world.AddsRemote middle sink buffer) :
    InTurn { state with world := middle, made := state.made ++ [⟨key, state.world.sinks.length⟩] } := by
  have preserves := sound.preserves_of_adds adds
  have kept : InTurn { state with world := middle } := inTurn.background sound preserves
  have unseen : ∀ notice ∈ state.log, notice.target ≠ sink.buffer := by
    intro notice member
    rw [adds.target]
    exact Nat.ne_of_lt (sound.targets notice member)
  constructor
  · intro other id early
    dsimp only at early
    rw [sinksOf_append] at early
    by_cases same : key = other
    · subst other
      rw [sinksOf_same, List.dropLast_concat] at early
      obtain ⟨old, present⟩ := sound.remote (mem_sinks early)
      exact preserves.emptied (mem_sinks early) present (patient id early)
    · rw [sinksOf_other same, List.append_nil] at early
      exact kept.emptied other id early
  · -- The store has not been called for the new sink yet, so nothing is added behind the calls for the others.
    intro other
    have before := kept.calls other
    unfold callsOf targetsOf at before ⊢
    dsimp only at before ⊢
    rw [sinksOf_append, List.filterMap_append]
    by_cases same : key = other
    · subst other
      have target : [state.world.sinks.length].filterMap middle.targetOf? = [sink.buffer] := by
        rw [List.filterMap_cons_some (World.targetOf?_of_remote? adds.new), List.filterMap_nil]
      rw [sinksOf_same, target, attemptsAmong_unseen _ unseen, before, List.flatMap_append, List.flatMap_singleton,
        (adds.unseen sound.targets).1, List.append_nil]
    · rw [sinksOf_other same, List.filterMap_nil, List.append_nil]
      exact before

theorem route (inTurn : state.InTurn) (sound : state.Sound type retry encode) (event : Event)
    (patient : state.IsPatient event) : (state.route event).InTurn := by
  have routed := sound.routed_cases event
  unfold Succession.route
  generalize state.router.made? event state.world = made at routed
  generalize state.router.receipt? event state.world = receipt at routed
  generalize state.router.route event state.world = result at routed
  obtain ⟨result, router, world⟩ := result
  cases routed with
  | refused => exact inTurn.congr rfl (List.append_nil _) rfl
  | stale => exact inTurn.congr rfl (List.append_nil _) rfl
  | accepted entry sink found remote running =>
      have written := inTurn.write sound (sound.last_of_find? found) remote running event
      exact written.congr rfl (List.append_nil _) rfl
  | made sink buffer middle missing adds encoder kind unused =>
      -- A sink is made only if none is registered, and then the event has come late enough.
      have free : ∀ id ∈ sinksOf (state.router.discriminator.extract event) state.made, state.world.IsEmptied id := by
        refine patient.resolve_left ?_
        simp [Registry.contains, missing]
      have made := inTurn.make sound free adds
      have after := sound.make missing adds encoder kind unused state.world.instant
      refine (InTurn.write ?_ after (getLast?_sinksOf_concat ..) adds.new adds.running event).congr rfl rfl rfl
      exact made.congr rfl rfl rfl

theorem step (inTurn : state.InTurn) (sound : state.Sound type retry encode) (step : Step IsPatient state next) :
    next.InTurn := by
  obtain ⟨event, patient, rfl⟩ | ⟨take, activity, rest, rfl⟩ | ⟨router, world, rfl, preserves, -, -⟩ := step.cases
  · exact inTurn.route sound event patient
  · exact inTurn.run take activity rest
  · exact inTurn.background sound preserves

theorem uploading_le (inTurn : state.InTurn) (key : String) : (state.uploading key).length ≤ 1 := by
  have emptied := inTurn.emptied key
  unfold uploading
  rcases List.eq_nil_or_concat (sinksOf key state.made) with none | ⟨front, last, shape⟩
  · simp [none]
  · rw [List.concat_eq_append] at shape
    rw [shape, List.dropLast_concat] at emptied
    have quiet : front.filter state.world.isUploading = [] :=
      List.filter_eq_nil_iff.mpr fun id member => by simp [(emptied id member).not_uploading]
    rw [shape, List.filter_append, quiet, List.nil_append]
    exact List.length_filter_le _ _

end InTurn

theorem tally_of_books {world : World} {receipts : List Receipt} {log : List Notice} (ids : List SinkId)
    (books : ∀ id ∈ ids, world.HasBooks type retry encode id (eventsOf id receipts) log)
    (emptied : ∀ id ∈ ids.dropLast, world.IsEmptied id) :
    ∃ batches waiting, Tally type retry ((ids.flatMap fun id => eventsOf id receipts).map encode)
      ((ids.filterMap world.targetOf?).flatMap fun target => attemptsOf target log) batches waiting := by
  induction ids with
  | nil => exact ⟨[], [], Tally.nil type retry⟩
  | cons id rest ih =>
      obtain ⟨sink, origin, present, -, ⟨rfl, rfl⟩, buffer, ended, found, balanced⟩ := books id (List.mem_cons_self ..)
      obtain ⟨batches, first⟩ := balanced.tally
      rw [List.flatMap_cons, List.map_append, List.filterMap_cons_some (World.targetOf?_of_remote? present), List.flatMap_cons]
      by_cases last : rest = []
      · subst last
        refine ⟨batches, buffer.pending, ?_⟩
        simpa using first
      · rw [List.dropLast_cons_of_ne_nil last] at emptied
        have empty : buffer.pending = [] := (emptied id (List.mem_cons_self ..) sink present buffer found).1
        rw [empty] at first
        obtain ⟨later, waiting, others⟩ := ih (fun other member => books other (List.mem_cons_of_mem _ member))
          (fun other member => emptied other (List.mem_cons_of_mem _ member))
        exact ⟨batches ++ later, waiting, first.append others⟩

theorem Run.inTurn (run : Run IsPatient state next) (sound : state.Sound type retry encode) (inTurn : state.InTurn) :
    next.Sound type retry encode ∧ next.InTurn := by
  induction run with
  | refl => exact ⟨sound, inTurn⟩
  | tail _ step ih => exact ⟨ih.1.step step, ih.2.step ih.1 step⟩

/-- As long as no sink is made for a key before its earlier sinks have nothing left to upload, at most one sink of the key
is uploading at any time. The calls of the store for the key are then those for one batch after the other, the batches hold
what was delivered for the key in its order, except what still waits, and those that are stored are stored in that order. -/
theorem key_uploads_exclusive (router : Router) (type : DocumentType) (retry : RetryPolicy) (encode : Event → Bytes)
    (world : World) {state : Succession} (run : Run IsPatient (start router type retry encode world) state) (key : String) :
    (state.uploading key).length ≤ 1 ∧
      ∃ batches waiting,
        Tally type retry ((eventsUnder key state.receipts).map encode) (state.callsOf key) batches waiting ∧
        state.documentsOf key = (batches.filter (·.2.stored)).map (·.2.payload) := by
  obtain ⟨sound, inTurn⟩ := run.inTurn (Sound.start router type retry encode world) (InTurn.start ..)
  refine ⟨inTurn.uploading_le key, ?_⟩
  obtain ⟨batches, waiting, tally⟩ := tally_of_books (sinksOf key state.made)
    (fun id member => sound.books id (mem_sinks member)) (inTurn.emptied key)
  have calls : state.callsOf key = ((sinksOf key state.made).filterMap state.world.targetOf?).flatMap
      fun target => attemptsOf target state.log := inTurn.calls key
  rw [← sound.routed key, ← calls] at tally
  exact ⟨batches, waiting, tally, tally.stored⟩

end Succession

namespace Reopened

open Succession

def policy : RetryPolicy :=
  { maxAttempts := 2, backoff := ⟨10, 10⟩ }

def router : Router where
  name := "cloud-application"
  discriminator := ⟨"cloud_workspace_app_root"⟩
  factory := .cloud .applicationLogs policy Encoding.line.encode

def world : World :=
  { uploads :=
      { executor := { interval := 60000, limit := 2 }
        work := { files := .empty [], store := { backend := .memory { outage := 1 }, latency := 5 } } } }

def event (message : String) : Event :=
  (Event.new 0 .info message).withEntry "cloud_workspace_app_root" "a"

def goOn (job : JobId) (time : Millis) (state : Succession) : Succession :=
  (state.setUploads (state.world.uploads.moveTo time)).run ObjectStore.proceed (.flush job) []

theorem run_goOn {permitted : Succession → Event → Prop} {state : Succession} {job : JobId} {time : Millis}
    (ready : (state.world.uploads.moveTo time).ready = [.flush job]) : Run permitted state (goOn job time state) :=
  (Relation.ReflTransGen.single (.wake state time)).tail (.run _ ObjectStore.proceed [] (.flush job) [] ready)

def begun : Succession :=
  start router .applicationLogs policy Encoding.line.encode world

def first : Succession :=
  begun.route (event "first")

def reaped : Succession :=
  first.reap 900000

def refused : Succession :=
  goOn 0 5 (goOn 0 0 reaped)

def stored : Succession :=
  goOn 0 20 (goOn 0 15 refused)

def second : Succession :=
  stored.route (event "second")

theorem run_refused {permitted : Succession → Event → Prop} (may : permitted begun (event "first")) :
    Run permitted begun refused :=
  (((Relation.ReflTransGen.single (.route begun (event "first") may)).tail
    (.reap first 900000)).trans
    (run_goOn (by decide +kernel))).trans
    (run_goOn (by decide +kernel))

theorem run_stored {permitted : Succession → Event → Prop} : Run permitted refused stored :=
  (run_goOn (by decide +kernel)).trans (run_goOn (by decide +kernel))

end Reopened

open Reopened Succession in
theorem key_uploads_exclusive_reopened :
    Run IsPatient begun second ∧ second.made = [⟨"a", 0⟩, ⟨"a", 1⟩] ∧
      (second.callsOf "a").map (·.stored) = [false, true] ∧ (second.uploading "a").length ≤ 1 ∧
      ∃ batches waiting,
        Tally .applicationLogs policy ((eventsUnder "a" second.receipts).map Encoding.line.encode) (second.callsOf "a")
          batches waiting ∧
        second.documentsOf "a" = (batches.filter (·.2.stored)).map (·.2.payload) := by
  have run : Run IsPatient begun second := ((run_refused (by decide +kernel)).trans run_stored).tail
    (.route stored (event "second") (by decide +kernel))
  obtain ⟨exclusive, tally⟩ := key_uploads_exclusive router .applicationLogs policy Encoding.line.encode world run "a"
  exact ⟨run, by decide +kernel, by decide +kernel, exclusive, tally⟩

namespace Overtaken

open Reopened Succession

def hurried : Succession :=
  refused.route (event "second")

def asked : Succession :=
  hurried.setUploads (hurried.world.uploads.flushAll Uploads.worker).2

def overlapping : Succession :=
  goOn 1 5 asked

def later : Succession :=
  goOn 0 20 (goOn 0 15 (goOn 1 10 overlapping))

end Overtaken

open Reopened Overtaken Succession in
/-- If nobody waits for the earlier sinks of a key, two of its sinks upload at one time, and its documents are stored in
another order than that in which its events were routed. -/
theorem key_uploads_overlap :
    Run (fun _ _ => True) begun overlapping ∧ Run (fun _ _ => True) overlapping later ∧
      (overlapping.uploading "a").length = 2 ∧
      eventsUnder "a" later.receipts = [event "first", event "second"] ∧
      later.documentsOf "a" = [event "second", event "first"].map Encoding.line.encode ∧
      later.world.store.memory?.map (fun memory => memory.documents.map (·.bytes)) = some (later.documentsOf "a") := by
  have hurries : Run (fun _ _ => True) begun asked :=
    ((run_refused trivial).tail (.route refused (event "second") trivial)).tail (.flushAll hurried)
  have overtakes : Run (fun _ _ => True) overlapping later :=
    ((run_goOn (by decide +kernel)).trans (run_goOn (by decide +kernel))).trans (run_goOn (by decide +kernel))
  exact ⟨hurries.trans (run_goOn (by decide +kernel)), overtakes, by decide +kernel, by decide +kernel, by decide +kernel,
    by decide +kernel⟩

end KeyedLog
