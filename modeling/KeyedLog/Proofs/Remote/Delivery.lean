import KeyedLog.Proofs.Remote.Notices
import KeyedLog.Proofs.Store.BatchOrder
import KeyedLog.Sink.Remote
import Mathlib.Logic.Relation

/-!
Runs of one remote sink among others. Events are written, flushes begin in every way there is, activities run in any
order, and the store answers as it likes. The main statement says that the books of the sink balance at every moment.
-/

namespace KeyedLog

/-- One remote sink with the executor it shares, and what has been seen of it. -/
structure Delivery where
  sink : RemoteSink
  schedule : UploadSchedule
  accepted : List Event := []
  log : List Notice := []

namespace Delivery

def start (origin : RemoteBuffer) (encode : Event → Bytes) (schedule : UploadSchedule) : Delivery :=
  let (sink, schedule) := RemoteSink.new origin encode schedule
  { sink, schedule }

def write (event : Event) (delivery : Delivery) : Delivery :=
  match delivery.sink.write event delivery.schedule with
  | (.ok (), schedule) => { delivery with schedule, accepted := delivery.accepted ++ [event] }
  | (.error _, schedule) => { delivery with schedule }

def stop (delivery : Delivery) : Delivery :=
  let (sink, schedule) := delivery.sink.stop delivery.schedule
  { delivery with sink, schedule }

def run (take : Taking) (activity : Activity) (rest : List Activity) (delivery : Delivery) : Delivery :=
  let schedule := { delivery.schedule with ready := rest }
  { delivery with
    schedule := (schedule.run (Uploads.workerWith take) activity).2
    log := delivery.log ++ schedule.notices take activity }

/-- One step of a run. The store may answer each call as it likes, and may have done anything. -/
inductive Step : Delivery → Delivery → Prop where
  | write (delivery : Delivery) (event : Event) : Step delivery (delivery.write event)
  | flush (delivery : Delivery) : Step delivery { delivery with schedule := delivery.sink.flush delivery.schedule }
  | stop (delivery : Delivery) : Step delivery delivery.stop
  | flushNow (delivery : Delivery) :
      Step delivery { delivery with schedule := (delivery.schedule.beginDirect delivery.sink.buffer).2 }
  | flushAll (delivery : Delivery) :
      Step delivery { delivery with schedule := (delivery.schedule.flushAll Uploads.worker).2 }
  | run (delivery : Delivery) (take : Taking) (before : List Activity) (activity : Activity) (after : List Activity)
      (ready : delivery.schedule.ready = before ++ activity :: after) :
      Step delivery (delivery.run take activity (before ++ after))
  | bringBack (delivery : Delivery) (before : List JobId) (job : JobId) (after : List JobId)
      (away : delivery.schedule.away = before ++ job :: after) :
      Step delivery { delivery with schedule := delivery.schedule.bringBack job (before ++ after) }
  | wake (delivery : Delivery) (time : Millis) :
      Step delivery { delivery with schedule := delivery.schedule.moveTo time }
  /-- Other sinks, the store and the files change in any way. -/
  | elsewhere (delivery : Delivery) (schedule : UploadSchedule)
      (apart : schedule.work.buffers[delivery.sink.buffer]? = delivery.schedule.work.buffers[delivery.sink.buffer]?) :
      Step delivery { delivery with schedule }

abbrev Run : Delivery → Delivery → Prop :=
  Relation.ReflTransGen Step

/-- The sink is the one that was made, and its books balance. -/
structure Balanced (origin : RemoteBuffer) (encode : Event → Bytes) (target : TargetId) (delivery : Delivery) :
    Prop where
  encoder : delivery.sink.encode = encode
  buffer : delivery.sink.buffer = target
  books : delivery.schedule.work.Balanced target origin (delivery.accepted.map encode) delivery.log

variable {origin : RemoteBuffer} {encode : Event → Bytes} {target : TargetId} {delivery next : Delivery}

theorem start_balanced (new : origin.upload = none ∧ origin.pending = [] ∧ origin.batches = 0)
    (encode : Event → Bytes) (schedule : UploadSchedule) :
    (start origin encode schedule).Balanced origin encode schedule.work.buffers.length := by
  obtain ⟨idle, empty, unused⟩ := new
  refine ⟨rfl, rfl, origin, [], ?_, Books.fresh idle empty unused⟩
  simp [start, RemoteSink.new]

theorem Balanced.congr (balanced : delivery.Balanced origin encode target) {sink : RemoteSink}
    {schedule : UploadSchedule} (encoder : sink.encode = delivery.sink.encode)
    (buffer : sink.buffer = delivery.sink.buffer)
    (same : schedule.work.buffers[delivery.sink.buffer]? = delivery.schedule.work.buffers[delivery.sink.buffer]?) :
    Balanced origin encode target { delivery with sink, schedule } := by
  obtain ⟨current, batches, present, books⟩ := balanced.books
  refine ⟨encoder.trans balanced.encoder, buffer.trans balanced.buffer, current, batches, ?_, books⟩
  rw [balanced.buffer] at same
  exact same.trans present

theorem Balanced.write (balanced : delivery.Balanced origin encode target) (event : Event) :
    (delivery.write event).Balanced origin encode target := by
  unfold Delivery.write RemoteSink.write
  by_cases stopped : delivery.sink.stopped = true
  · simpa only [stopped, if_true] using balanced
  · obtain ⟨current, batches, present, books⟩ := balanced.books
    simp only [stopped, Bool.false_eq_true, if_false]
    refine ⟨balanced.encoder, balanced.buffer, current.accept (encode event), batches, ?_, ?_⟩
    · simp [RemoteSink.modifyBuffer, balanced.buffer, balanced.encoder, present]
    · simpa using books.accept (encode event)

theorem stop_work (sink : RemoteSink) (schedule : UploadSchedule) :
    (sink.stop schedule).2.work = schedule.work := by
  unfold RemoteSink.stop
  split
  · rfl
  · dsimp only
    split <;> rfl

theorem stop_sink (sink : RemoteSink) (schedule : UploadSchedule) :
    (sink.stop schedule).1.encode = sink.encode ∧ (sink.stop schedule).1.buffer = sink.buffer := by
  unfold RemoteSink.stop
  split <;> exact ⟨rfl, rfl⟩

theorem Balanced.step (balanced : delivery.Balanced origin encode target) (step : Step delivery next) :
    next.Balanced origin encode target := by
  cases step with
  | write event => exact balanced.write event
  | flush => exact balanced.congr rfl rfl rfl
  | stop =>
      obtain ⟨encoder, buffer⟩ := stop_sink delivery.sink delivery.schedule
      have work := stop_work delivery.sink delivery.schedule
      exact balanced.congr encoder buffer (congrArg (·.buffers[delivery.sink.buffer]?) work)
  | flushNow => exact balanced.congr rfl rfl rfl
  | flushAll => exact balanced.congr rfl rfl rfl
  | run take before activity after ready =>
      exact ⟨balanced.encoder, balanced.buffer, Schedule.run_balanced take _ activity balanced.books⟩
  | bringBack before job after away => exact balanced.congr rfl rfl rfl
  | wake time => exact balanced.congr rfl rfl rfl
  | elsewhere schedule apart => exact balanced.congr rfl rfl apart

theorem Balanced.run (balanced : delivery.Balanced origin encode target) (run : Run delivery next) :
    next.Balanced origin encode target := by
  induction run with
  | refl => exact balanced
  | tail _ step ih => exact ih.step step

end Delivery

/-- The books of a remote sink balance in every state of every run. The batches that have ended hold, in the order of
their numbers, all events that were accepted except those that still wait; each has one outcome, which counts its
entries, and all calls of the store for it name one id and carry one payload. A batch on its way is the front of what
waits, and the calls for it are those of the next number. -/
theorem delivery_accounted {origin : RemoteBuffer}
    (new : origin.upload = none ∧ origin.pending = [] ∧ origin.batches = 0)
    (encode : Event → Bytes) (schedule : UploadSchedule) {delivery : Delivery}
    (run : Delivery.Run (Delivery.start origin encode schedule) delivery) :
    ∃ buffer batches, delivery.sink.buffer? delivery.schedule = some buffer ∧
      delivery.accepted.map encode = batches.flatMap Batch.entries ++ buffer.pending ∧
      (delivery.accepted.map encode).flatten = (batches.map Batch.payload).flatten ++ buffer.pending.flatten ∧
      outcomesOf delivery.sink.buffer delivery.log = batchOutcomes origin batches ∧
      attemptsOf delivery.sink.buffer delivery.log = batchAttempts origin batches ++ buffer.openAttempts ∧
      (∀ batch ∈ batches, batch.IsComplete origin.retry) ∧
      (∀ upload, buffer.upload = some upload →
        buffer.IsFront upload ∧ upload.id = origin.idOf (batches.length + 1)) ∧
      ∀ first second, origin.idOf first = origin.idOf second → first = second := by
  have balanced := (Delivery.start_balanced new encode schedule).run run
  obtain ⟨buffer, batches, present, books⟩ := balanced.books
  rw [balanced.buffer]
  refine ⟨buffer, batches, ?_, books.accepted, ?_, books.outcomes, books.attempts, books.complete, ?_, ?_⟩
  · simpa only [RemoteSink.buffer?, balanced.buffer] using present
  · rw [books.accepted, List.flatten_append, List.flatMap_def, List.flatten_flatten, List.map_map]
    rfl
  · intro upload onWay
    have front := books.front upload onWay
    have number : buffer.batches = batches.length + 1 := by simpa [onWay] using books.counted
    refine ⟨front, ?_⟩
    rw [front.id, number]
    exact RemoteBuffer.idOf_congr books.identity _
  · exact fun _ _ same => StorageKey.batchId_injective same

theorem delivery_accounted_after_lost_answer :
    ∃ (origin : RemoteBuffer) (schedule : UploadSchedule) (delivery : Delivery),
      (origin.upload = none ∧ origin.pending = [] ∧ origin.batches = 0) ∧
      Delivery.Run (Delivery.start origin Encoding.line.encode schedule) delivery ∧
      delivery.accepted.length = 2 ∧ (attemptsOf 0 delivery.log).map (·.stored) = [false, true] ∧
      ∃ buffer batches, delivery.sink.buffer? delivery.schedule = some buffer ∧
        delivery.accepted.map Encoding.line.encode = batches.flatMap Batch.entries ++ buffer.pending ∧
        outcomesOf delivery.sink.buffer delivery.log = batchOutcomes origin batches := by
  let origin : RemoteBuffer :=
    { name := "app", baseId := "app", type := .applicationLogs, sinkInstance := "BATCH"
      retry := { maxAttempts := 2, backoff := ⟨10, 10⟩ } }
  let schedule : UploadSchedule :=
    { executor := { interval := 0, limit := 1 }
      work := { files := .empty [], store := { backend := .memory {} } } }
  let lost : Taking := fun store stage id type bytes files =>
    (.answered (.error (.unavailable id)), (store.proceed stage id type bytes files).2)
  let first := (Delivery.start origin Encoding.line.encode schedule).write (Event.new 0 .info "first")
  let begun := { first with schedule := (first.schedule.beginDirect first.sink.buffer).2 }
  let refused := begun.run lost (.flush 0) []
  let second := refused.write (Event.new 1 .info "second")
  let woken := { second with schedule := second.schedule.moveTo 11 }
  let stored := woken.run ObjectStore.proceed (.flush 0) []
  have run : Delivery.Run (Delivery.start origin Encoding.line.encode schedule) stored :=
    ((((((Relation.ReflTransGen.single (.write _ (Event.new 0 .info "first"))).tail
      (.flushNow first)).tail
      (.run begun lost [] (.flush 0) [] rfl)).tail
      (.write refused (Event.new 1 .info "second"))).tail
      (.wake second 11)).tail
      (.run woken ObjectStore.proceed [] (.flush 0) [] (by decide +kernel)))
  have fresh : origin.upload = none ∧ origin.pending = [] ∧ origin.batches = 0 := ⟨rfl, rfl, rfl⟩
  obtain ⟨buffer, batches, present, accepted, -, outcomes, -⟩ := delivery_accounted fresh _ schedule run
  exact ⟨origin, schedule, stored, fresh, run, rfl, by decide +kernel, buffer, batches, present, accepted, outcomes⟩

end KeyedLog
