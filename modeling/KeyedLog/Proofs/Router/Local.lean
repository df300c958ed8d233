import KeyedLog.Proofs.Remote.Ledger
import KeyedLog.Proofs.Sink.Edits
import KeyedLog.Router

/-!
What local sinks leave alone. Making, writing to and stopping them changes no remote sink and nothing of what the
executor does.
-/

namespace KeyedLog

namespace World

structure IsLocal (before after : World) : Prop where
  uploads : after.uploads = { before.uploads with work := { before.uploads.work with files := after.files } }
  length : before.sinks.length ≤ after.sinks.length
  remotes : ∀ id, after.remote? id = before.remote? id
  files : before.files.KeepsNumbers after.files

/-- What events and stopping leave alone. -/
structure Leaves (before after : World) : Prop where
  store : after.store = before.store
  files : before.files.KeepsNumbers after.files
  accepting : after.executor.accepting = before.executor.accepting

variable {encode : Event → Bytes} {world before after : World} {receipts : List Receipt} {log : List Notice} {id : SinkId}

theorem Leaves.refl (world : World) : world.Leaves world :=
  ⟨rfl, .refl _, rfl⟩

theorem Leaves.trans {first second third : World} (one : first.Leaves second) (two : second.Leaves third) :
    first.Leaves third :=
  ⟨two.store.trans one.store, one.files.trans two.files, two.accepting.trans one.accepting⟩

theorem IsLocal.leaves (isLocal : before.IsLocal after) : before.Leaves after where
  store := congrArg (·.work.store) isLocal.uploads
  files := isLocal.files
  accepting := congrArg (·.executor.accepting) isLocal.uploads

theorem IsLocal.grows (isLocal : before.IsLocal after) : before.Extends after :=
  extends_of_same isLocal.length isLocal.remotes
    (congrArg (·.work.buffers.map RemoteBuffer.identity) isLocal.uploads)

theorem IsLocal.ledger (isLocal : before.IsLocal after) (ledger : before.Ledger encode receipts log) :
    after.Ledger encode receipts log := by
  have same : before.uploads.Continues after.uploads [] := by
    rw [isLocal.uploads]
    exact Schedule.continues_of_accepts rfl (Executor.accepts_of_same rfl (Nat.le_refl _)) fun _ member => .inl member
  have kept := ledger.continues same isLocal.length isLocal.remotes
  rw [List.append_nil] at kept
  exact kept

theorem IsLocal.refl (world : World) : world.IsLocal world :=
  ⟨rfl, Nat.le_refl _, fun _ => rfl, .refl _⟩

theorem isLocal_setFiles {files : FileTree} (keeps : world.files.KeepsNumbers files) : world.IsLocal (world.setFiles files) :=
  ⟨rfl, Nat.le_refl _, fun _ => rfl, keeps⟩

theorem IsLocal.setSink (isLocal : before.IsLocal after) (absent : before.remote? id = none) {old new : Sink}
    (present : after.sinks[id]? = some old) (other : ∀ sink, new ≠ .remote sink) :
    before.IsLocal (after.setSink id new) := by
  refine ⟨isLocal.uploads, ?_, ?_, isLocal.files⟩
  · rw [World.setSink, List.length_set]
    exact isLocal.length
  · intro some
    rw [setSink_remote? after present]
    by_cases same : some = id
    · rw [if_pos same, same, absent]
      cases new with
      | remote sink => exact absurd rfl (other sink)
      | _ => rfl
    · rw [if_neg same]
      exact isLocal.remotes some

theorem IsLocal.addSink (isLocal : before.IsLocal after) {sink : Sink} (other : ∀ remote, sink ≠ .remote remote) :
    before.IsLocal (after.addSink sink).2 ∧ (after.addSink sink).2.remote? (after.addSink sink).1 = none := by
  have remotes : ∀ id, (after.addSink sink).2.remote? id = after.remote? id := by
    intro id
    rw [addSink_remote?]
    by_cases new : id = after.sinks.length
    · rw [if_pos new, new, remote?_length]
      cases sink with
      | remote remote => exact absurd rfl (other remote)
      | _ => rfl
    · rw [if_neg new]
  refine ⟨⟨isLocal.uploads, ?_, fun id => (remotes id).trans (isLocal.remotes id), isLocal.files⟩, ?_⟩
  · rw [World.addSink, List.length_append]
    exact Nat.le_trans isLocal.length (Nat.le_add_right ..)
  · exact (remotes _).trans (remote?_length after)

theorem write_isLocal (world : World) (absent : world.remote? id = none) (event : Event) :
    world.IsLocal (world.write id event).2 := by
  unfold write
  cases present : world.sinks[id]? with
  | none => exact .refl world
  | some sink =>
      cases sink with
      | console sink => exact ⟨rfl, Nat.le_refl _, fun _ => rfl, .refl _⟩
      | file sink =>
          have keeps := sink.write_numbers event world.files
          dsimp only
          cases result : sink.write event world.files with
          | ok value files =>
              rw [stateAfter_of_ok result] at keeps
              exact isLocal_setFiles keeps
          | error fault files =>
              rw [stateAfter_of_error result] at keeps
              exact isLocal_setFiles keeps
      | rotating sink =>
          have keeps := RotatingSink.write_numbers event (sink, world.files)
          dsimp only
          cases result : RotatingSink.write event (sink, world.files) with
          | ok value state =>
              rw [stateAfter_of_ok result] at keeps
              exact (isLocal_setFiles keeps).setSink absent present (by simp)
          | error fault state =>
              rw [stateAfter_of_error result] at keeps
              exact (isLocal_setFiles keeps).setSink absent present (by simp)
      | remote sink =>
          rw [remote?_eq.mpr present] at absent
          simp at absent
      | recording sink => exact ⟨rfl, Nat.le_refl _, fun _ => rfl, .refl _⟩

end World

namespace Factory

theorem adopt_isLocal {σ : Type} (world : World) (wrap : σ → Sink) (other : ∀ sink remote, wrap sink ≠ .remote remote)
    {action : SinkFileAction σ} (keeps : world.files.KeepsNumbers (stateAfter action world.files)) :
    world.IsLocal (adopt world wrap (action world.files)).2 ∧
      ∀ id, (adopt world wrap (action world.files)).1 = .ok id →
        id < (adopt world wrap (action world.files)).2.sinks.length ∧
          (adopt world wrap (action world.files)).2.remote? id = none := by
  cases result : action world.files with
  | error fault files =>
      rw [stateAfter_of_error result] at keeps
      exact ⟨World.isLocal_setFiles keeps, by simp [adopt]⟩
  | ok sink files =>
      rw [stateAfter_of_ok result] at keeps
      obtain ⟨isLocal, absent⟩ := (World.isLocal_setFiles keeps).addSink (other sink)
      refine ⟨isLocal, ?_⟩
      intro id same
      cases same
      refine ⟨?_, absent⟩
      simp [adopt, World.addSink]

def isCloud : Factory → Bool
  | cloud .. => true
  | _ => false

theorem create_isLocal {factory : Factory} (isLocal : factory.isCloud = false) (router key : String) (world : World) :
    world.IsLocal (create router key (factory, world)).2.2 ∧
      (create router key (factory, world)).2.1.isCloud = false ∧
      ∀ id, (create router key (factory, world)).1 = .ok id →
        id < (create router key (factory, world)).2.2.sinks.length ∧
          (create router key (factory, world)).2.2.remote? id = none := by
  cases factory with
  | localApplication fileName policy encode =>
      obtain ⟨made, known⟩ := adopt_isLocal world .rotating (by simp)
        (RotatingSink.openAt_numbers (key ++ "-local") (Path.join key fileName) policy encode world.files)
      simp only [create]
      exact ⟨made, rfl, known⟩
  | localJob fileName encode =>
      obtain ⟨made, known⟩ := adopt_isLocal world .file (by simp)
        (FileSink.openAt_numbers (key ++ "-local") (FileSink.jobLogPath world.files key fileName) encode world.files)
      simp only [create]
      exact ⟨made, rfl, known⟩
  | cloud type retry encode => simp [isCloud] at isLocal
  | recording factory =>
      simp only [create, createRecording]
      split
      · exact ⟨.refl world, rfl, by simp⟩
      · split
        · exact ⟨.refl world, rfl, by simp⟩
        · generalize (if factory.broken.contains key then some factory.refusal else none) = refusal
          have other : ∀ remote, Sink.recording { name := router ++ "/" ++ key, refusal } ≠ .remote remote := by simp
          obtain ⟨made, absent⟩ := (World.IsLocal.refl world).addSink other
          refine ⟨made, rfl, ?_⟩
          intro id same
          cases same
          exact ⟨by simp [World.addSink], absent⟩

end Factory

end KeyedLog
