import KeyedLog.Proofs.Service.Shutdown
import KeyedLog.Proofs.Store.BatchPaths

/-!
No batch is refused for its id. Every batch of a service is one of a sink that was made for a key, and with the key all ids
of the batches of its sink have been checked.
-/

namespace KeyedLog

open KeyedLog.Path StorageKey

def Notice.id? : Notice → Option String
  | attempted _ attempt => some attempt.id
  | ended _ (.persisted id _) => some id
  | ended _ (.dropped id _) => some id
  | ended _ .empty => none

namespace Books

variable {origin buffer : RemoteBuffer} {accepted : List Bytes} {attempts : List Attempt} {outcomes : List FlushOutcome}
  {batches : List Batch}

theorem accepted_of_batches (books : Books origin buffer accepted attempts outcomes batches) (ended : batches ≠ []) :
    accepted ≠ [] := by
  obtain ⟨batch, member⟩ := List.exists_mem_of_ne_nil _ ended
  obtain ⟨entry, inside⟩ := List.exists_mem_of_ne_nil _ (books.complete batch member).nonempty
  rw [books.accepted]
  exact List.ne_nil_of_mem (List.mem_append_left _ (List.mem_flatMap.mpr ⟨batch, member, inside⟩))

theorem accepted_of_upload (books : Books origin buffer accepted attempts outcomes batches) {upload : Upload}
    (onWay : buffer.upload = some upload) : accepted ≠ [] := by
  have front := books.front upload onWay
  have waits : buffer.pending ≠ [] := List.length_pos_iff.mp (Nat.lt_of_lt_of_le front.nonempty front.within)
  rw [books.accepted]
  exact List.append_ne_nil_of_right_ne_nil _ waits

theorem id_of_attempt (books : Books origin buffer accepted attempts outcomes batches) {attempt : Attempt}
    (member : attempt ∈ attempts) : (∃ number, attempt.id = origin.idOf number) ∧ accepted ≠ [] := by
  rcases books.attempt_cases member with ⟨number, low, high, id⟩ | ⟨upload, onWay, id⟩
  · exact ⟨⟨number, id⟩, books.accepted_of_batches (List.length_pos_iff.mp (by omega))⟩
  · exact ⟨⟨_, id⟩, books.accepted_of_upload onWay⟩

theorem id_of_outcome (books : Books origin buffer accepted attempts outcomes batches) {target : TargetId}
    {outcome : FlushOutcome} (member : outcome ∈ outcomes) {id : String} (named : (Notice.ended target outcome).id? = some id) :
    (∃ number, id = origin.idOf number) ∧ accepted ≠ [] := by
  rw [books.outcomes] at member
  obtain ⟨⟨batch, number⟩, inside, rfl⟩ := List.mem_map.mp member
  refine ⟨⟨number, ?_⟩, books.accepted_of_batches (List.ne_nil_of_mem (List.fst_mem_of_mem_zipIdx inside))⟩
  have shown : (Notice.ended target (batch.outcome (origin.idOf number))).id? = some (origin.idOf number) := by
    unfold Batch.outcome
    split <;> rfl
  exact Option.some.inj (named.symm.trans shown)

end Books

namespace World

variable {encode : Event → Bytes} {world : World} {receipts : List Receipt} {log : List Notice}

theorem isInstanceName_instanceName (world : World) : IsInstanceName world.instanceName := by
  have letters : ∀ digit < 16, isHexDigit (Nat.digitChar digit) = true := by decide
  let digits := Nat.toDigits 16 (world.nextInstance % Nat.pow 16 32)
  refine ⟨world.timestamp.repr.toList, List.replicate (32 - digits.length) '0' ++ digits, ?_, ?_, ?_⟩
  · simp [instanceName, String.toList_append, digits]
  · intro c member
    rw [Nat.toList_repr] at member
    exact Nat.isDigit_of_mem_toDigits (by decide) (by decide) member
  · intro c member
    rcases List.mem_append.mp member with zero | digit
    · rw [(List.mem_replicate.mp zero).2]
      rfl
    · obtain ⟨value, small, rfl⟩ := exists_digit_of_mem_toDigits digit
      exact letters value small

/-- A sink to which something was delivered was made for a key. -/
theorem Ledger.key_of_delivered (ledger : world.Ledger encode receipts log) {id : SinkId} {sink : RemoteSink}
    (remote : world.remote? id = some sink) {buffer : RemoteBuffer}
    (present : world.uploads.work.buffers[sink.buffer]? = some buffer) (delivered : eventsOf id receipts ≠ []) :
    ∃ key, StorageKey.base key = .ok buffer.baseId := by
  rw [eventsOf_eq, ne_eq, List.map_eq_nil_iff] at delivered
  obtain ⟨receipt, member⟩ := List.exists_mem_of_ne_nil _ delivered
  rw [List.mem_filter, decide_eq_true_eq] at member
  obtain ⟨member, rfl⟩ := member
  obtain ⟨other, kept, there, found, -, base⟩ := ledger.addressed receipt member
  obtain rfl := Option.some.inj (remote.symm.trans there)
  obtain rfl := Option.some.inj (present.symm.trans found)
  exact ⟨_, base⟩

theorem Ledger.id_of_notice (ledger : world.Ledger encode receipts log) {notice : Notice} (member : notice ∈ log)
    {id : String} (named : notice.id? = some id) :
    ∃ key base sinkInstance number, StorageKey.base key = .ok base ∧ IsPlain sinkInstance ∧
      id = batchId base sinkInstance number := by
  obtain ⟨sinkId, sink, remote, target⟩ := ledger.owned notice.target (ledger.targets notice member)
  obtain ⟨-, origin, ⟨buffer, batches, present, books⟩, plain⟩ := ledger.books remote
  rw [target] at books
  have shown : (∃ number, id = origin.idOf number) ∧ (eventsOf sinkId receipts).map encode ≠ [] := by
    cases notice with
    | attempted other attempt =>
        obtain rfl := Option.some.inj named
        exact books.id_of_attempt (mem_attemptsOf.mpr member)
    | ended other outcome =>
        exact books.id_of_outcome (List.mem_filterMap.mpr ⟨_, member, if_pos rfl⟩) named
  obtain ⟨⟨number, rfl⟩, accepted⟩ := shown
  obtain ⟨key, base⟩ := ledger.key_of_delivered remote present fun none => accepted (by rw [none]; rfl)
  have bases : buffer.baseId = origin.baseId := congrArg (·.2.1) books.identity
  exact ⟨key, origin.baseId, origin.sinkInstance, number, by rw [base, bases], plain, rfl⟩

end World

theorem Factory.create_cloud {key base : String} (accepted : StorageKey.base key = .ok base) (router : String)
    (type : DocumentType) (retry : RetryPolicy) (encode : Event → Bytes) (world : World) :
    ∃ sink buffer after,
      create router key (.cloud type retry encode, world) = (.ok world.sinks.length, .cloud type retry encode, after) ∧
      world.AddsRemote after sink buffer ∧ buffer.baseId = base ∧ buffer.type = type ∧ IsInstanceName buffer.sinkInstance := by
  refine ⟨_, _, _, ?_, world.addRemote_adds (router ++ "-" ++ key) base type retry encode, rfl, rfl,
    world.isInstanceName_instanceName⟩
  simp only [create, accepted]
  rfl

namespace Course

theorem Run.unwatched {allowed : World → World → Prop} {course next : Course} (run : Run allowed course next) :
    Run (World.KeepsDocuments fun _ _ => False) course next := by
  refine Relation.ReflTransGen.mono ?_ _ _ run
  intro before after step
  cases step with
  | dispatch event => exact .dispatch _ event fun _ _ _ _ never => never.elim
  | flushAll => exact .flushAll _
  | flush id => exact .flush _ id
  | flushNow target => exact .flushNow _ target
  | reap => exact .reap _
  | run front activity behind ready => exact .run _ front activity behind ready
  | bringBack front job behind away => exact .bringBack _ front job behind away
  | wake time => exact .wake _ time
  | wait instant timestamp => exact .wait _ instant timestamp
  | outage count => exact .outage _ count
  | chance chance => exact .chance _ chance
  | schedule reaper => exact .schedule _ reaper

/-- Up to the end of its shutdown a service keeps the books of its sinks. -/
theorem ledger_of_run {config : Config} {surroundings : Surroundings} {service : Service}
    (started : Service.start config surroundings = .ok service) (numbered : surroundings.files.IsNumbered)
    {allowed : World → World → Prop} {course : Course} (run : Run allowed { service } course) :
    course.service.shutdown.2.engine.world.Ledger config.lifecycle.encoding.encode course.receipts
      (course.notices ++ course.service.shutdownNotices) := by
  have none : ∀ id type, False → service.engine.world.uploads.work.document? id type = none := fun _ _ never => never.elim
  obtain ⟨tended, -, running⟩ := Service.start_tended started numbered none
  obtain ⟨-, report⟩ := run.kept
  exact ((tended.of_run run.unwatched).close (report.trans running)).1.ledger

end Course

/-- The check of keys and that of the store agree. For every key that is accepted a remote router makes a sink, with a name of
decimal digits and hexadecimal digits. With every name of this kind the ids of all batches are accepted, for every root and
both types, and a batch is kept directly below the directory that the root, the directory of its type and the base of the
key make up. So in every run of a service, its shutdown included, all batches have ids that no store refuses. -/
theorem key_check_covers_batches :
    (∀ key base, StorageKey.base key = .ok base →
      (∀ router type retry encode world, ∃ sink buffer after,
        Factory.create router key (.cloud type retry encode, world) =
          (.ok world.sinks.length, .cloud type retry encode, after) ∧
        world.AddsRemote after sink buffer ∧ buffer.baseId = base ∧ buffer.type = type ∧
        IsInstanceName buffer.sinkInstance) ∧
      ∀ sinkInstance, IsInstanceName sinkInstance → ∀ batch (store : DirectoryStore) type,
        ∃ path, store.objectPath (batchId base sinkInstance batch) type = .ok path ∧
          components path.toList = components store.root.toList ++
            .name type.area.toList :: components base.toList ++ [.name (batchName sinkInstance batch)] ∧
          ∀ files : FileTree, files.place path = files.place store.root ++
            type.area :: (names base.toList).map String.ofList ++ [String.ofList (batchName sinkInstance batch)]) ∧
    ∀ config surroundings service, Service.start config surroundings = .ok service → surroundings.files.IsNumbered →
      ∀ allowed course, Course.Run allowed { service } course →
        ∀ notice ∈ course.notices ++ course.service.shutdownNotices, ∀ id, notice.id? = some id →
          (∃ key base sinkInstance batch, StorageKey.base key = .ok base ∧ id = batchId base sinkInstance batch) ∧
          ∀ (store : DirectoryStore) type, (∃ path, store.objectPath id type = .ok path) ∧
            ∀ bytes files other, (store.put id type bytes files).1 ≠ .error (.invalidId other) ∧
              ∀ stage, (store.proceed stage id type bytes files).1 ≠ .answered (.error (.invalidId other)) := by
  refine ⟨?_, ?_⟩
  · intro key base accepted
    refine ⟨Factory.create_cloud accepted, ?_⟩
    intro sinkInstance named batch store type
    exact DirectoryStore.objectPath_batchId accepted named.plain batch store type
  · intro config surroundings service started numbered allowed course run notice member id named
    obtain ⟨key, base, sinkInstance, batch, accepted, plain, rfl⟩ :=
      (Course.ledger_of_run started numbered run).id_of_notice member named
    refine ⟨⟨key, base, sinkInstance, batch, accepted, rfl⟩, ?_⟩
    intro store type
    obtain ⟨path, kept, -⟩ := DirectoryStore.objectPath_batchId accepted plain batch store type
    exact ⟨⟨path, kept⟩, fun bytes files other =>
      ⟨DirectoryStore.put_ne_invalidId kept bytes files other, DirectoryStore.proceed_ne_invalidId kept bytes files other⟩⟩

namespace Untidy

def config : Config :=
  { remote := { enabled := true }
    lifecycle := { platformConsole := false }
    storage := { rootDir := "s" } }

def surroundings : Surroundings :=
  { files := .empty ["home"], store := some { backend := .directory ⟨"s"⟩ } }

def service : Service where
  config
  engine := Service.startBackground config
    (Service.initialEngine config surroundings { interval := 60000, limit := 4 } { backend := .directory ⟨"s"⟩ })

def key : String := " // ws/./logs/ "

def accepted : Course :=
  Course.dispatch { service } ((Event.new 0 .info "kept").withEntry "cloud_workspace_app_root" key)

def asked : Course :=
  { accepted with service := accepted.service.flushAll.2 }

def begun : Course :=
  asked.run (.flush 0) []

def prepared : Course :=
  (begun.bringBack 0 []).run (.flush 0) []

def course : Course :=
  (prepared.bringBack 0 []).run (.flush 0) []

theorem start_ok : Service.start config surroundings = .ok service := by
  have valid : config.validate = .ok () := by decide +kernel
  unfold Service.start
  rw [valid]
  rfl

theorem run : Course.Run (fun _ _ => True) { service } course := by
  obtain ⟨begins, leaves, prepares, leavesAgain, stores⟩ : asked.world.uploads.ready = [.flush 0] ∧
      begun.world.uploads.away = [0] ∧ (begun.bringBack 0 []).world.uploads.ready = [.flush 0] ∧
      prepared.world.uploads.away = [0] ∧ (prepared.bringBack 0 []).world.uploads.ready = [.flush 0] := by
    decide +kernel
  exact ((((((Relation.ReflTransGen.single (.dispatch _ _ trivial)).tail
    (.flushAll accepted)).tail
    (.run asked [] (.flush 0) [] begins)).tail
    (.bringBack begun [] 0 [] leaves)).tail
    (.run (begun.bringBack 0 []) [] (.flush 0) [] prepares)).tail
    (.bringBack prepared [] 0 [] leavesAgain)).tail
    (.run (prepared.bringBack 0 []) [] (.flush 0) [] stores)

end Untidy

open Untidy in
theorem key_check_covers_batches_untidy :
    StorageKey.base key = .ok " ws/./logs/" ∧
      course.notices.filterMap Notice.id? =
        List.replicate 2 " ws/./logs//0_00000000000000000000000000000000_000001" ∧
      (∃ path, DirectoryStore.objectPath ⟨"s"⟩ (batchId " ws/./logs/" "17_0af" 12) .jobLogs = .ok path ∧
        ∀ files : FileTree, files.place path =
          files.place "s" ++ ["job-logging", " ws", "logs"] ++ ["17_0af_000012"]) ∧
      ∀ bytes files other, (DirectoryStore.put ⟨"s"⟩ " ws/./logs//0_00000000000000000000000000000000_000001"
          .applicationLogs bytes files).1 ≠ .error (.invalidId other) ∧
        ∀ stage, (DirectoryStore.proceed ⟨"s"⟩ stage " ws/./logs//0_00000000000000000000000000000000_000001"
          .applicationLogs bytes files).1 ≠ .answered (.error (.invalidId other)) := by
  have base : StorageKey.base key = .ok " ws/./logs/" := by decide +kernel
  have named : IsInstanceName "17_0af" := ⟨['1', '7'], ['0', 'a', 'f'], rfl, by simp, by simp [isHexDigit]⟩
  have shown : course.notices.filterMap Notice.id? =
      List.replicate 2 " ws/./logs//0_00000000000000000000000000000000_000001" := by decide +kernel
  obtain ⟨keys, runs⟩ := key_check_covers_batches
  obtain ⟨path, kept, -, places⟩ := (keys key _ base).2 "17_0af" named 12 ⟨"s"⟩ .jobLogs
  have inside : " ws/./logs//0_00000000000000000000000000000000_000001" ∈ course.notices.filterMap Notice.id? := by
    rw [shown]
    exact List.mem_replicate.mpr ⟨by decide, rfl⟩
  obtain ⟨notice, member, this⟩ := List.mem_filterMap.mp inside
  refine ⟨base, shown, ⟨path, kept, fun files => ?_⟩, ?_⟩
  · have pieces : (names " ws/./logs/".toList).map String.ofList = [" ws", "logs"] := by decide +kernel
    have last : String.ofList (batchName "17_0af" 12) = "17_0af_000012" := by decide +kernel
    rw [places, pieces, last]
    rfl
  · exact ((runs config surroundings service start_ok (FileTree.isNumbered_empty ["home"]) _ course run notice
      (List.mem_append_left _ member) _ this).2 ⟨"s"⟩ .applicationLogs).2

end KeyedLog
