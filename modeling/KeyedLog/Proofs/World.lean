import KeyedLog.Proofs.Router.Answers
import Mathlib.Data.List.Pairwise

/-!
What stopping a sink leaves alone, and what a registry knows about its sinks.
-/

namespace KeyedLog

namespace World

@[simp] theorem setFiles_files (world : World) (files : FileTree) : (world.setFiles files).files = files := rfl

@[simp] theorem setFiles_sinks (world : World) (files : FileTree) : (world.setFiles files).sinks = world.sinks := rfl

@[simp] theorem setSink_files (world : World) (id : SinkId) (sink : Sink) :
    (world.setSink id sink).files = world.files := rfl

theorem setSink_other (world : World) {id other : SinkId} (different : id ≠ other) (sink : Sink) :
    (world.setSink id sink).sinks[other]? = world.sinks[other]? := by
  simp [setSink, List.getElem?_set_ne different]

theorem setSink_same (world : World) {id : SinkId} {old : Sink} (present : world.sinks[id]? = some old) (sink : Sink) :
    (world.setSink id sink).sinks[id]? = some sink := by
  obtain ⟨bound, -⟩ := List.getElem?_eq_some_iff.mp present
  simp [setSink, bound]

theorem stop_work (sink : RemoteSink) (schedule : UploadSchedule) : (sink.stop schedule).2.work = schedule.work := by
  unfold RemoteSink.stop
  split
  · rfl
  · dsimp only
    split <;> rfl

theorem stop_files (world : World) (id : SinkId) : (world.stop id).files = world.files := by
  unfold stop
  split
  · rfl
  · rfl
  · rfl
  · rfl
  next sink _ => exact congrArg Uploads.files (stop_work sink world.uploads)
  · rfl

theorem stop_other (world : World) {id other : SinkId} (different : id ≠ other) :
    (world.stop id).sinks[other]? = world.sinks[other]? := by
  unfold stop
  split
  · rfl
  · exact setSink_other _ different _
  · exact setSink_other _ different _
  · exact setSink_other _ different _
  · exact setSink_other _ different _
  · exact setSink_other _ different _

end World

def Registration.IsApart (first second : Registration) : Prop :=
  first.key ≠ second.key ∧ first.sink ≠ second.sink

instance : Std.Symm Registration.IsApart :=
  ⟨fun _ _ apart => ⟨apart.1.symm, apart.2.symm⟩⟩

namespace Registry

variable {registry : Registry}

theorem find?_mem {key : String} {entry : Registration} (found : registry.find? key = some entry) :
    entry ∈ registry.entries ∧ entry.key = key := by
  have named := List.find?_some found
  exact ⟨List.mem_of_find?_eq_some found, by simpa using named⟩

theorem find?_none {key : String} (missing : registry.find? key = none) : ∀ entry ∈ registry.entries, entry.key ≠ key := by
  intro entry member
  have other := List.find?_eq_none.mp missing entry member
  simpa using other

theorem mem_touch {key : String} {now : Millis} {entry : Registration} :
    entry ∈ (registry.touch key now).entries ↔
      ∃ old ∈ registry.entries, entry.key = old.key ∧ entry.sink = old.sink ∧
        entry.lastUsed = if old.key = key then max old.lastUsed now else old.lastUsed := by
  simp only [touch, List.mem_map]
  constructor
  · rintro ⟨old, member, rfl⟩
    refine ⟨old, member, ?_⟩
    by_cases named : old.key = key <;> simp [named]
  · rintro ⟨old, member, sameKey, sameSink, used⟩
    refine ⟨old, member, ?_⟩
    obtain ⟨key', sink, lastUsed⟩ := entry
    by_cases named : old.key = key
    · simp_all
    · simp only [named, if_false] at used ⊢
      cases old
      simp_all

theorem apart_touch (apart : registry.entries.Pairwise Registration.IsApart) (key : String) (now : Millis) :
    (registry.touch key now).entries.Pairwise Registration.IsApart := by
  refine apart.map _ ?_
  intro first second different
  unfold Registration.IsApart at different ⊢
  by_cases one : first.key = key <;> by_cases two : second.key = key <;>
    simpa only [one, two, if_true, if_false] using different

theorem expire_eq (registry : Registry) (now timeout : Millis) :
    registry.expire now timeout = (registry.entries.filter (registry.isExpired now timeout),
      { registry with entries := registry.entries.filter fun entry => !registry.isExpired now timeout entry }) := by
  simp only [expire, List.partition_eq_filter_filter]
  rfl

end Registry

namespace Router

theorem resolve_changes (router : Router) (key : String) (world : World) :
    ∃ registry factory, (router.resolve key world).2.1 = { router with registry, factory } := by
  refine resolve_cases router key world ?_ ?_ ?_ ?_ <;> intros <;> exact ⟨_, _, rfl⟩

theorem route_changes (router : Router) (event : Event) (world : World) :
    ∃ registry factory, (router.route event world).2.1 = { router with registry, factory } := by
  have changes := router.resolve_changes (router.discriminator.extract event) world
  refine route_cases router event world (fun _ => ⟨_, _, rfl⟩) ?_ ?_
  · intro fault after next _ resolved
    rwa [resolved] at changes
  · intro id after next _ resolved
    rwa [resolved] at changes

theorem sinks_stopEach {id : SinkId} {entries : List Registration} (different : ∀ entry ∈ entries, entry.sink ≠ id)
    (world : World) : (stopEach entries world).sinks[id]? = world.sinks[id]? := by
  induction entries generalizing world with
  | nil => rfl
  | cons entry rest ih =>
      have later := ih (fun other member => different other (List.mem_cons_of_mem _ member)) (world.stop entry.sink)
      exact later.trans (World.stop_other world (different entry (List.mem_cons_self ..)))

end Router

end KeyedLog
