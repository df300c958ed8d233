import KeyedLog.Proofs.Remote.Queueing
import KeyedLog.Proofs.Sink.Direct
import KeyedLog.Proofs.Sink.Turning

/-!
What all sinks have in common. Until they are stopped they store what they accept, whatever fails; from then on they refuse
every event by their name, and nothing that is asked of them has an effect but a flush.
-/

namespace KeyedLog

/-- Sinks on a stream, on a file, on a file that rotates and on an object store keep one contract: what they accepted is
stored; the first stop closes them, and after it they refuse all events and ignore further stops. This holds for all calls in
any order, with failures of the stream, the files and the store in between and in the middle of a call. -/
theorem sinks_keep_stop_contract :
    (∀ (sink : ConsoleSink) (stream : OutputStream), sink.stopped = false →
      ConsoleSink.usage.KeepsContract sink.name (sink, stream)
        (fun events state => Laid (events.map sink.encode) state.2.written) ConsoleSink.Closes) ∧
    (∀ (name path : String) (encode : Event → Bytes) (files start : FileTree) (sink : FileSink),
      FileSink.openAt name path encode files = .ok sink start →
        FileSink.usage.KeepsContract name (sink, start) (FileSink.Stored path encode) FileSink.Closes) ∧
    (∀ (name path : String) (policy : RollingPolicy) (encode : Event → Bytes) (files start : FileTree)
      (sink : RotatingSink), files.IsSound → files.IsNumbered →
        RotatingSink.openAt name path policy encode files = .ok sink start →
          RotatingUse.usage.KeepsContract name { sink, files := start } (RotatingUse.Stored path policy encode)
            RotatingUse.Closes) ∧
    ∀ (origin : RemoteBuffer) (encode : Event → Bytes) (schedule : UploadSchedule),
      origin.upload = none ∧ origin.pending = [] ∧ origin.batches = 0 →
        Delivery.usage.KeepsContract origin.name (Delivery.start origin encode schedule)
          (Delivery.Stored origin encode) Delivery.Closes := by
  refine ⟨fun sink stream running => ?_, fun name path encode files start sink opened => ?_,
    fun name path policy encode files start sink sound numbered opened => ?_, fun origin encode schedule new => ?_⟩
  · exact (ConsoleSink.isLawful sink).contract ⟨rfl, rfl, trivial⟩ running fun _ _ keeps => keeps.2.2
  · obtain ⟨keeps, running⟩ := FileSink.keeps_openAt opened
    exact (FileSink.isLawful name path encode).contract keeps running fun _ _ keeps => keeps.stored
  · obtain ⟨site, rfl, proper, stands, running, keeps⟩ := RotatingUse.keeps_openAt sound numbered opened
    exact (RotatingUse.isLawful stands proper rfl).contract keeps running fun _ _ keeps => keeps.stored stands proper
  · have keeps := Delivery.start_balanced new encode schedule
    exact (Delivery.isLawful origin encode _).contract ⟨rfl, keeps⟩ rfl fun _ _ keeps => keeps.stored

theorem sinks_keep_stop_contract_broken_off :
    let events := [Event.new 1 .info "one", .new 2 .info "two"]
    ∃ (start : FileTree) (sink : RotatingSink) (log : SinkLog) (use : RotatingUse),
      RotatingSink.openAt "app" "app.log" ⟨5, 1⟩ Encoding.line.encode (.empty ["home"]) = .ok sink start ∧
      RotatingUse.usage.Course { sink, files := start } log use ∧
      log.map (·.2) = [.ok (), .error (.io "app.log" .notFound), .ok ()] ∧ log.accepted = events.take 1 ∧
      use.files.seen? "app.log" = none ∧
      use.files.seen? "app.1.log.gz" = some (.file (Gzip.encode (Utf8.encode "1 INFO  one\n"))) ∧
      RotatingUse.Stored "app.log" ⟨5, 1⟩ Encoding.line.encode (events.take 1) use ∧ use.sink.stopped = true ∧
      ∀ event answer after, RotatingUse.Ends (.write event) use answer after →
        answer = .error (.stopped "app") ∧ after = use := by
  intro events
  let sink : RotatingSink := ⟨"app", "app.log", ⟨5, 1⟩, Encoding.line.encode, some ⟨0⟩, 0, false⟩
  let start : FileTree := ⟨[(["home"], .directory), (["home", "app.log"], .file 0 [])], 1, ["home"]⟩
  let written := stateAfter (RotatingSink.write (.new 1 .info "one")) (sink, start)
  let steps := written.1.steps (.new 2 .info "two")
  let broken := stateAfter (RotatingSink.perform (steps.take 5)) written
  have first : RotatingSink.write (.new 1 .info "one") (sink, start) = .ok () written :=
    RotatingSink.ok_of_succeeds (by decide +kernel)
  have partly : RotatingSink.perform (steps.take 5) written = .ok () broken := RotatingSink.ok_of_succeeds (by decide +kernel)
  have retains : broken.2.Retains written.1.path (written.1.policy.slotPaths written.1.path) broken.2 :=
    FileTree.retains_of_guards (.refl _ : FileTree.Guards FileTree.Anywhere _ _) trivial fun _ _ => trivial
  have course : RotatingUse.usage.Course { sink, files := start } _ _ :=
    .call (.call (.call .start (RotatingUse.Ends.written _ (.new 1 .info "one") first))
      (RotatingUse.Ends.broken _ (.new 2 .info "two") 5 (by decide +kernel)
        ⟨by decide +kernel, broken.2, partly, retains⟩ "app.log" .notFound)) (RotatingUse.Ends.stopped _)
  have contract := sinks_keep_stop_contract.2.2.1 "app" "app.log" ⟨5, 1⟩ Encoding.line.encode (.empty ["home"]) start sink
    (FileTree.isSound_empty ["home"]) (FileTree.isNumbered_empty ["home"]) rfl
  exact ⟨start, sink, _, _, rfl, course, rfl, rfl, by decide +kernel, by decide +kernel, contract.stored _ _ course,
    (contract.stopped _ _ course).mpr ⟨.ok (), by simp⟩, fun event answer after ends =>
      contract.refuses _ _ event answer after course ⟨.ok (), by simp⟩ ends⟩

end KeyedLog
