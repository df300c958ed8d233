import KeyedLog.Proofs.Sink.Running
import KeyedLog.Proofs.World
import KeyedLog.Router

/-!
The accounts of a registry. Every sink that was ever made for it is registered or was stopped, one of the two and once.
-/

namespace KeyedLog

structure Placement where
  key : String
  sink : SinkId
  deriving DecidableEq, Repr

def Registration.placement (entry : Registration) : Placement :=
  ⟨entry.key, entry.sink⟩

namespace Router

variable {id : SinkId}

theorem stopEach_length (gone : List Registration) (world : World) :
    (stopEach gone world).sinks.length = world.sinks.length := by
  induction gone generalizing world with
  | nil => rfl
  | cons entry rest ih => exact (ih _).trans (world.stop_length entry.sink)

theorem stopEach_isStopped {gone : List Registration} {world : World} (known : id < world.sinks.length)
    (past : world.isStopped id = true ∨ ∃ entry ∈ gone, entry.sink = id) :
    (stopEach gone world).isStopped id = true := by
  induction gone generalizing world with
  | nil =>
      obtain stopped | ⟨entry, member, -⟩ := past
      · exact stopped
      · exact absurd member List.not_mem_nil
  | cons entry rest ih =>
      refine ih (world.stop_length entry.sink ▸ known) ?_
      by_cases here : entry.sink = id
      · exact .inl (here ▸ World.stop_isStopped (here ▸ known))
      · rw [show (fun world entry => World.stop world entry.sink) world entry = world.stop entry.sink from rfl,
          world.stop_isStopped_other here]
        obtain stopped | ⟨other, member, same⟩ := past
        · exact .inl stopped
        · rcases List.mem_cons.mp member with first | later
          · exact absurd (first ▸ same) here
          · exact .inr ⟨other, later, same⟩

end Router

namespace Registry

def placements (registry : Registry) : List Placement :=
  registry.entries.map Registration.placement

def remove (registry : Registry) (key : String) : Registry :=
  { registry with entries := registry.entries.filter fun entry => entry.key != key }

/-- No two entries share a key, and each sink that was made is registered or was stopped, one of the two and once. -/
structure Accounts (registry : Registry) (world : World) (made stops : List Placement) : Prop where
  keys : registry.keys.Nodup
  balance : made.Perm (registry.placements ++ stops)
  single : (made.map (·.sink)).Nodup
  known : ∀ placement ∈ made, placement.sink < world.sinks.length
  stopped : ∀ placement ∈ stops, world.isStopped placement.sink = true

def IsLive (registry : Registry) (world : World) : Prop :=
  ∀ placement ∈ registry.placements, world.isRunning placement.sink = true

variable {registry other : Registry} {world after : World} {made stops : List Placement} {key : String} {id : SinkId}
  {gone kept : List Registration}

theorem keys_eq (registry : Registry) : registry.keys = registry.placements.map (·.key) := by
  rw [placements, List.map_map]
  rfl

@[simp] theorem placements_touch (registry : Registry) (key : String) (now : Millis) :
    (registry.touch key now).placements = registry.placements := by
  simp only [placements, touch, List.map_map]
  refine List.map_congr_left fun entry _ => ?_
  by_cases named : entry.key = key <;> simp [Registration.placement, named]

@[simp] theorem placements_hold (registry : Registry) (id : SinkId) :
    (registry.hold id).placements = registry.placements := rfl

@[simp] theorem placements_release (registry : Registry) (id : SinkId) :
    (registry.release id).placements = registry.placements := rfl

@[simp] theorem placements_close (registry : Registry) : registry.close.placements = registry.placements := rfl

@[simp] theorem placements_register (registry : Registry) (key : String) (id : SinkId) (now : Millis) :
    (registry.register key id now).placements = registry.placements ++ [⟨key, id⟩] := by
  simp [placements, register, Registration.placement]

theorem find?_eq_none_iff : registry.find? key = none ↔ key ∉ registry.keys := by
  simp [find?, keys]

theorem find?_congr_none (same : other.placements = registry.placements) (missing : registry.find? key = none) :
    other.find? key = none := by
  rw [find?_eq_none_iff, keys_eq] at missing ⊢
  rwa [same]

theorem filter_of_find? {entry : Registration} (nodup : registry.keys.Nodup) (found : registry.find? key = some entry) :
    registry.entries.filter (·.key == key) = [entry] := by
  unfold keys at nodup
  unfold find? at found
  generalize registry.entries = entries at nodup found
  induction entries with
  | nil => simp at found
  | cons first rest ih =>
      rw [List.map_cons, List.nodup_cons] at nodup
      rw [List.find?_cons] at found
      rw [List.filter_cons]
      cases named : first.key == key with
      | true =>
          rw [named] at found
          rw [if_pos rfl, Option.some.inj found, List.filter_eq_nil_iff.mpr]
          intro later member same
          rw [eq_of_beq named, ← eq_of_beq same] at nodup
          exact nodup.1 (List.mem_map_of_mem member)
      | false =>
          rw [named] at found
          exact ih nodup.2 found

theorem perm_of_find? {entry : Registration} (nodup : registry.keys.Nodup) (found : registry.find? key = some entry) :
    registry.entries.Perm ([entry] ++ (registry.remove key).entries) := by
  rw [← filter_of_find? nodup found]
  exact (List.filter_append_perm _ _).symm

theorem Accounts.empty (world : World) : Accounts {} world [] [] :=
  ⟨List.nodup_nil, .nil, List.nodup_nil, by simp, by simp⟩

namespace Accounts

theorem congr (accounts : registry.Accounts world made stops) (same : other.placements = registry.placements) :
    other.Accounts world made stops where
  keys := by rw [keys_eq, same, ← keys_eq]; exact accounts.keys
  balance := same ▸ accounts.balance
  single := accounts.single
  known := accounts.known
  stopped := accounts.stopped

theorem mem_made (accounts : registry.Accounts world made stops) {placement : Placement}
    (present : placement ∈ registry.placements) : placement ∈ made :=
  accounts.balance.mem_iff.mpr (List.mem_append_left _ present)

theorem stop_made (accounts : registry.Accounts world made stops) {placement : Placement} (past : placement ∈ stops) :
    placement ∈ made :=
  accounts.balance.mem_iff.mpr (List.mem_append_right _ past)

theorem apart (accounts : registry.Accounts world made stops) :
    ((registry.placements ++ stops).map (·.sink)).Nodup :=
  (accounts.balance.map _).nodup_iff.mp accounts.single

theorem spare (accounts : registry.Accounts world made stops) (spares : world.Spares after (made.map (·.sink))) :
    registry.Accounts after made stops where
  keys := accounts.keys
  balance := accounts.balance
  single := accounts.single
  known placement member := Nat.lt_of_lt_of_le (accounts.known placement member) spares.length
  stopped placement past := by
    rw [spares.stopped _ (List.mem_map_of_mem (accounts.stop_made past))]
    exact accounts.stopped placement past

theorem spares (accounts : registry.Accounts world made stops) (keeps : world.KeepsStates after) :
    world.Spares after (made.map (·.sink)) := by
  refine keeps.spares fun id member => ?_
  obtain ⟨placement, present, rfl⟩ := List.mem_map.mp member
  exact accounts.known placement present

theorem register (accounts : registry.Accounts world made stops) (adds : world.Adds after id)
    (missing : registry.find? key = none) (now : Millis) :
    (registry.register key id now).Accounts after (made ++ [⟨key, id⟩]) stops := by
  have kept := accounts.spare (accounts.spares adds.toKeepsStates)
  constructor
  case keys =>
    have absent := find?_eq_none_iff.mp missing
    rw [keys_eq, placements_register, List.map_append, ← keys_eq, List.map_cons, List.map_nil]
    refine List.nodup_append.mpr ⟨accounts.keys, List.nodup_singleton _, ?_⟩
    intro old present new fresh same
    rw [List.mem_singleton] at fresh
    rw [same, fresh] at present
    exact absent present
  case balance =>
    rw [placements_register]
    refine (accounts.balance.append_right _).trans ?_
    rw [List.append_assoc, List.append_assoc]
    exact (List.perm_append_comm).append_left _
  case single =>
    rw [List.map_append, List.map_cons, List.map_nil, List.nodup_append]
    refine ⟨accounts.single, List.nodup_singleton _, ?_⟩
    intro old member new fresh
    obtain ⟨placement, present, rfl⟩ := List.mem_map.mp member
    rw [List.mem_singleton.mp fresh]
    exact Nat.ne_of_lt (Nat.lt_of_lt_of_le (accounts.known placement present) adds.fresh)
  case known =>
    intro placement member
    rcases List.mem_append.mp member with old | new
    · exact kept.known placement old
    · rw [List.mem_singleton.mp new]
      exact adds.bound
  case stopped => exact kept.stopped

theorem takeOut (accounts : registry.Accounts world made stops) (split : registry.entries.Perm (gone ++ kept)) :
    Accounts { registry with entries := kept } (Router.stopEach gone world) made (stops ++ gone.map Registration.placement) := by
  have parts : registry.placements.Perm (gone.map Registration.placement ++ kept.map Registration.placement) := by
    rw [← List.map_append]
    exact split.map _
  have balance : made.Perm (kept.map Registration.placement ++ (stops ++ gone.map Registration.placement)) := by
    refine accounts.balance.trans ((parts.append_right _).trans ?_)
    rw [List.append_assoc]
    refine List.perm_append_comm.trans ?_
    rw [List.append_assoc]
  have taken : ∀ entry ∈ gone, entry.placement ∈ made := by
    intro entry member
    exact balance.mem_iff.mpr (by simp [List.mem_map_of_mem member])
  refine ⟨?_, balance, accounts.single, ?_, ?_⟩
  · have keys : (registry.entries.map (·.key)).Nodup := accounts.keys
    rw [(split.map _).nodup_iff, List.map_append] at keys
    exact keys.of_append_right
  · intro placement member
    rw [Router.stopEach_length]
    exact accounts.known placement member
  · intro placement past
    rcases List.mem_append.mp past with before | now
    · have present := accounts.known placement (accounts.stop_made before)
      exact Router.stopEach_isStopped present (.inl (accounts.stopped placement before))
    · obtain ⟨entry, member, rfl⟩ := List.mem_map.mp now
      have present := accounts.known _ (taken entry member)
      exact Router.stopEach_isStopped present (.inr ⟨entry, member, rfl⟩)

theorem remove (accounts : registry.Accounts world made stops) {entry : Registration}
    (found : registry.find? key = some entry) :
    (registry.remove key).Accounts (world.stop entry.sink) made (stops ++ [entry.placement]) :=
  accounts.takeOut (perm_of_find? accounts.keys found)

theorem mem_placements (accounts : registry.Accounts world made stops) {placement : Placement} (present : placement ∈ made)
    (unstopped : world.isStopped placement.sink = false) : placement ∈ registry.placements := by
  rcases List.mem_append.mp (accounts.balance.mem_iff.mp present) with registered | past
  · exact registered
  · exact absurd (accounts.stopped placement past) (unstopped ▸ Bool.false_ne_true)

theorem one_unstopped (accounts : registry.Accounts world made stops) {first second : Placement}
    (one : first ∈ made) (two : second ∈ made) (same : first.key = second.key)
    (open₁ : world.isStopped first.sink = false) (open₂ : world.isStopped second.sink = false) : first = second := by
  have keys := accounts.keys
  rw [keys_eq] at keys
  exact List.inj_on_of_nodup_map keys (accounts.mem_placements one open₁) (accounts.mem_placements two open₂) same

end Accounts

namespace IsLive

theorem congr (live : registry.IsLive world) (same : other.placements = registry.placements) : other.IsLive world := by
  unfold IsLive
  rw [same]
  exact live

theorem spare (live : registry.IsLive world) (accounts : registry.Accounts world made stops)
    (spares : world.Spares after (made.map (·.sink))) : registry.IsLive after := by
  intro placement present
  rw [spares.running _ (List.mem_map_of_mem (accounts.mem_made present))]
  exact live placement present

theorem register (live : registry.IsLive world) (accounts : registry.Accounts world made stops)
    (makes : world.Makes after id) (now : Millis) : (registry.register key id now).IsLive after := by
  intro placement present
  rw [placements_register, List.mem_append, List.mem_singleton] at present
  rcases present with old | rfl
  · exact live.spare accounts (accounts.spares makes.toKeepsStates) placement old
  · exact makes.runs

theorem takeOut (live : registry.IsLive world) (accounts : registry.Accounts world made stops)
    (split : registry.entries.Perm (gone ++ kept)) : IsLive { registry with entries := kept } (Router.stopEach gone world) := by
  intro placement present
  obtain ⟨entry, stays, rfl⟩ := List.mem_map.mp present
  have apart : (registry.entries.map (·.sink)).Nodup := by
    have all := accounts.apart
    rw [List.map_append, placements, List.map_map] at all
    exact all.of_append_left
  rw [(split.map _).nodup_iff, List.map_append, List.nodup_append] at apart
  have different : ∀ other ∈ gone, other.sink ≠ entry.sink := fun other member =>
    apart.2.2 _ (List.mem_map_of_mem member) _ (List.mem_map_of_mem stays)
  have before : world.isRunning entry.sink = true :=
    live _ (List.mem_map_of_mem (split.mem_iff.mpr (List.mem_append_right _ stays)))
  exact (World.isRunning_congr (Router.sinks_stopEach different world)).trans before

theorem remove (live : registry.IsLive world) (accounts : registry.Accounts world made stops) {entry : Registration}
    (found : registry.find? key = some entry) : (registry.remove key).IsLive (world.stop entry.sink) :=
  live.takeOut accounts (perm_of_find? accounts.keys found)

end IsLive

end Registry

end KeyedLog
