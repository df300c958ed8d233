import KeyedLog.Proofs.Remote.Delivery
import KeyedLog.Proofs.Sink.Contract

/-!
Remote sinks in use. What they have accepted is in a batch or waits in their buffer, whatever the store answers and whenever
flushes run.
-/

namespace KeyedLog

namespace Delivery

inductive Ends : SinkCall → Delivery → Except SinkFault Unit → Delivery → Prop where
  | written (delivery : Delivery) (event : Event) :
      Ends (.write event) delivery (delivery.sink.write event delivery.schedule).1 (delivery.write event)
  | flushed (delivery : Delivery) :
      Ends .flush delivery (.ok ()) { delivery with schedule := delivery.sink.flush delivery.schedule }
  | stopped (delivery : Delivery) : Ends .stop delivery (.ok ()) delivery.stop

def usage : SinkUsage Delivery where
  Ends := Ends
  Meanwhile before after := Step before after ∧ after.sink = before.sink ∧ after.accepted = before.accepted
  isStopped delivery := delivery.sink.stopped

/-- The events are in batches, each of which was stored or given up after all its attempts, or wait in the buffer. -/
def Stored (origin : RemoteBuffer) (encode : Event → Bytes) (events : List Event) (delivery : Delivery) : Prop :=
  ∃ buffer batches, delivery.sink.buffer? delivery.schedule = some buffer ∧
    events.map encode = batches.flatMap Batch.entries ++ buffer.pending ∧
    outcomesOf delivery.sink.buffer delivery.log = batchOutcomes origin batches ∧
    ∀ batch ∈ batches, batch.IsComplete origin.retry

def lastJobs (delivery : Delivery) : List JobId :=
  if delivery.sink.pending delivery.schedule ≠ 0 ∧ delivery.schedule.executor.accepting = true then
    [delivery.schedule.executor.nextJob]
  else []

structure Closes (before after : Delivery) : Prop where
  registrations : after.schedule.executor.registrations =
    before.schedule.executor.registrations.filter fun entry => entry.1 != before.sink.registration
  jobs : after.schedule.executor.jobs = before.schedule.executor.jobs ++ before.lastJobs.map (·, before.sink.buffer)
  ready : after.schedule.ready = before.schedule.ready ++ before.lastJobs.map Activity.flush
  work : after.schedule.work = before.schedule.work
  accepted : after.accepted = before.accepted

/-- The books of the sink balance, and these are the events in them. -/
def Keeps (origin : RemoteBuffer) (encode : Event → Bytes) (target : TargetId) (events : List Event)
    (delivery : Delivery) : Prop :=
  delivery.accepted = events ∧ delivery.Balanced origin encode target

variable {origin : RemoteBuffer} {encode : Event → Bytes} {target : TargetId} {events : List Event}
  {delivery : Delivery}

theorem Keeps.stored (keeps : Keeps origin encode target events delivery) : Stored origin encode events delivery := by
  obtain ⟨rfl, balanced⟩ := keeps
  obtain ⟨buffer, batches, present, books⟩ := balanced.books
  refine ⟨buffer, batches, ?_, books.accepted, ?_, books.complete⟩
  · rw [RemoteSink.buffer?, balanced.buffer]
    exact present
  · rw [balanced.buffer]
    exact books.outcomes

theorem Balanced.name (balanced : delivery.Balanced origin encode target) :
    delivery.sink.name delivery.schedule = origin.name := by
  obtain ⟨buffer, batches, present, books⟩ := balanced.books
  rw [RemoteSink.name, RemoteSink.buffer?, balanced.buffer, present]
  exact congrArg (·.1) books.identity

theorem write_of_stopped (stopped : delivery.sink.stopped = true) (event : Event) :
    delivery.sink.write event delivery.schedule =
        (.error (.stopped (delivery.sink.name delivery.schedule)), delivery.schedule) ∧
      delivery.write event = delivery := by
  have refused : delivery.sink.write event delivery.schedule =
      (.error (.stopped (delivery.sink.name delivery.schedule)), delivery.schedule) := by
    rw [RemoteSink.write, if_pos stopped]
  exact ⟨refused, by rw [write, refused]⟩

theorem write_of_running (running : delivery.sink.stopped = false) (event : Event) :
    (delivery.sink.write event delivery.schedule).1 = .ok () ∧
      (delivery.write event).accepted = delivery.accepted ++ [event] ∧ (delivery.write event).sink = delivery.sink := by
  unfold write RemoteSink.write
  rw [running]
  exact ⟨rfl, rfl, rfl⟩

theorem stop_of_stopped (stopped : delivery.sink.stopped = true) : delivery.stop = delivery := by
  rw [stop, RemoteSink.stop, if_pos stopped]

theorem submit_outcome (schedule : UploadSchedule) (buffer : TargetId) :
    let after := (schedule.submit buffer).2
    let jobs := if schedule.executor.accepting then [schedule.executor.nextJob] else []
    after.executor.registrations = schedule.executor.registrations ∧
      after.executor.jobs = schedule.executor.jobs ++ jobs.map (·, buffer) ∧
      after.ready = schedule.ready ++ jobs.map Activity.flush ∧ after.work = schedule.work := by
  unfold Schedule.submit Executor.submit
  cases schedule.executor.accepting with
  | true => exact ⟨rfl, rfl, rfl, rfl⟩
  | false => exact ⟨rfl, (List.append_nil _).symm, rfl, rfl⟩

theorem stop_closes (running : delivery.sink.stopped = false) :
    delivery.stop.sink.stopped = true ∧ Closes delivery delivery.stop := by
  let sink := delivery.sink
  let schedule := { delivery.schedule with executor := delivery.schedule.executor.deregister sink.registration }
  have stopped : delivery.stop = { delivery with
      sink := { sink with stopped := true }
      schedule := if sink.pending schedule = 0 then schedule else sink.flush schedule } := by
    rw [stop, RemoteSink.stop, running]
    rfl
  have same : sink.pending schedule = sink.pending delivery.schedule := rfl
  rw [stopped]
  refine ⟨rfl, ?_⟩
  by_cases empty : sink.pending delivery.schedule = 0
  · have idle : delivery.lastJobs = [] := if_neg fun more => more.1 empty
    rw [if_pos (same.trans empty)]
    exact ⟨rfl, by rw [idle]; exact (List.append_nil _).symm, by rw [idle]; exact (List.append_nil _).symm, rfl, rfl⟩
  · have last : delivery.lastJobs =
        if delivery.schedule.executor.accepting then [delivery.schedule.executor.nextJob] else [] :=
      if_congr (and_iff_right empty) rfl rfl
    obtain ⟨registrations, jobs, ready, work⟩ := submit_outcome schedule sink.buffer
    rw [if_neg (same ▸ empty)]
    exact ⟨registrations, last ▸ jobs, last ▸ ready, work, rfl⟩

theorem isLawful (origin : RemoteBuffer) (encode : Event → Bytes) (target : TargetId) :
    usage.IsLawful origin.name (Keeps origin encode target) Closes where
  answers call delivery := by
    cases call with
    | write event => exact ⟨_, _, .written delivery event⟩
    | flush => exact ⟨_, _, .flushed delivery⟩
    | stop => exact ⟨_, _, .stopped delivery⟩
  meanwhile := by
    rintro events before after ⟨same, balanced⟩ ⟨step, sink, accepted⟩
    exact ⟨⟨accepted.trans same, balanced.step step⟩, congrArg (·.stopped) sink⟩
  accepts := by
    rintro events event delivery after ⟨rfl, balanced⟩ ends
    generalize answered : (Except.ok () : Except SinkFault Unit) = answer at ends
    cases ends with
    | written =>
        cases stopped : delivery.sink.stopped with
        | true =>
            rw [(write_of_stopped stopped event).1] at answered
            cases answered
        | false =>
            obtain ⟨-, accepted, sink⟩ := write_of_running stopped event
            exact ⟨⟨accepted, balanced.write event⟩, stopped, (congrArg (·.stopped) sink).trans stopped⟩
  refuses := by
    rintro events event fault delivery after ⟨rfl, balanced⟩ ends
    generalize answered : (Except.error fault : Except SinkFault Unit) = answer at ends
    cases ends with
    | written =>
        cases stopped : delivery.sink.stopped with
        | true =>
            obtain ⟨refused, same⟩ := write_of_stopped stopped event
            rw [refused] at answered
            cases answered
            rw [same]
            exact ⟨⟨rfl, balanced⟩, rfl, fun _ => ⟨congrArg SinkFault.stopped balanced.name, rfl⟩⟩
        | false =>
            rw [(write_of_running stopped event).1] at answered
            cases answered
  flushes := by
    rintro events answer delivery after ⟨rfl, balanced⟩ ends
    cases ends with
    | flushed => exact ⟨⟨rfl, balanced.step (.flush delivery)⟩, rfl⟩
  stops := by
    rintro events answer delivery after ⟨rfl, balanced⟩ ends
    cases ends with
    | stopped =>
        cases stopped : delivery.sink.stopped with
        | true =>
            rw [stop_of_stopped stopped]
            exact ⟨⟨rfl, balanced⟩, stopped, fun _ => rfl, fun running => nomatch stopped.symm.trans running⟩
        | false =>
            obtain ⟨ended, closes⟩ := stop_closes stopped
            exact ⟨⟨closes.accepted, balanced.step (.stop delivery)⟩, ended, fun now => (nomatch stopped.symm.trans now),
              fun _ => closes⟩

end Delivery

end KeyedLog
