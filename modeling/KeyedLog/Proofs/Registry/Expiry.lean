import KeyedLog.Proofs.Registry.Custody
import KeyedLog.Proofs.Router.Traffic

/-!
Which sinks are let go because they are idle. The last use of a sink is the latest of the instants at which its key was
asked for since it was made, whatever their order, and a sink is let go exactly if that was too long ago and nobody holds
it.
-/

namespace KeyedLog

namespace Registry

def candidates (registry : Registry) (now timeout : Millis) : List String :=
  (registry.entries.filter (registry.isExpired now timeout)).map (·.key)

def takeExpired (now timeout : Millis) : List String → Registry → List Registration × Registry
  | [], registry => ([], registry)
  | key :: keys, registry =>
    match registry.find? key with
    | none => takeExpired now timeout keys registry
    | some entry =>
      if registry.isExpired now timeout entry then
        let (gone, registry) := takeExpired now timeout keys (registry.remove key)
        (entry :: gone, registry)
      else takeExpired now timeout keys registry

variable {registry : Registry} {now timeout : Millis}

theorem takeExpired_keys {gone : List Registration} (listed : registry.Listed gone)
    (expired : ∀ entry ∈ gone, registry.isExpired now timeout entry = true) :
    takeExpired now timeout (gone.map (·.key)) registry = (gone, registry.without gone) := by
  induction gone generalizing registry with
  | nil => simp [takeExpired, without]
  | cons entry rest ih =>
      have again := ih listed.tail fun other member => expired other (List.mem_cons_of_mem _ member)
      rw [List.map_cons, takeExpired, listed.find?_head]
      simp only [expired entry (List.mem_cons_self ..), if_true]
      rw [again, remove_without]

theorem takeExpired_candidates (nodup : registry.keys.Nodup) (now timeout : Millis) :
    takeExpired now timeout (registry.candidates now timeout) registry = registry.expire now timeout := by
  rw [candidates, takeExpired_keys (.filter nodup _) fun entry member => (List.mem_filter.mp member).2, without_filter nodup,
    expire_eq]

theorem isExpired_iff {entry : Registration} :
    registry.isExpired now timeout entry = true ↔ timeout ≤ now - entry.lastUsed ∧ entry.sink ∉ registry.handles := by
  simp [isExpired]

end Registry

structure Grant where
  key : String
  now : Millis
  answer : Resolved
  deriving DecidableEq, Repr

namespace Grant

def ofAnswer? {ε : Type} (key : String) (now : Millis) : Except ε (Option Resolved) → Option Grant
  | .ok (some answer) => some ⟨key, now, answer⟩
  | _ => none

/-- The instants at which a key was asked for since its sink was made. -/
def instants (key : String) (grants : List Grant) : List Millis :=
  grants.foldl (fun instants grant =>
    if grant.key ≠ key then instants
    else if grant.answer.created then [grant.now]
    else instants ++ [grant.now]) []

variable {grants : List Grant} {key other : String} {now : Millis} {id : SinkId}

theorem instants_concat (key : String) (grants : List Grant) (grant : Grant) :
    instants key (grants ++ [grant]) =
      if grant.key ≠ key then instants key grants
      else if grant.answer.created then [grant.now]
      else instants key grants ++ [grant.now] := by
  rw [instants, List.foldl_append]
  rfl

theorem instants_other (different : other ≠ key) (answer : Resolved) :
    instants key (grants ++ [⟨other, now, answer⟩]) = instants key grants := by
  rw [instants_concat, if_pos different]

theorem instants_made : instants key (grants ++ [⟨key, now, id, true⟩]) = [now] := by
  simp [instants_concat]

theorem instants_found : instants key (grants ++ [⟨key, now, id, false⟩]) = instants key grants ++ [now] := by
  simp [instants_concat]

end Grant

theorem max?_concat {instants : List Millis} {latest now : Millis} (found : instants.max? = some latest) :
    (instants ++ [now]).max? = some (max latest now) := by
  obtain ⟨member, bound⟩ := List.max?_eq_some_iff.mp found
  refine List.max?_eq_some_iff.mpr ⟨?_, ?_⟩
  · rcases Nat.le_total latest now with later | earlier
    · rw [Nat.max_eq_right later]
      exact List.mem_append_right _ (List.mem_singleton.mpr rfl)
    · rw [Nat.max_eq_left earlier]
      exact List.mem_append_left _ member
  · intro instant inside
    rcases List.mem_append.mp inside with before | last
    · exact Nat.le_trans (bound instant before) (Nat.le_max_left ..)
    · exact (List.mem_singleton.mp last) ▸ Nat.le_max_right ..

theorem le_sub_iff {timeout now last : Nat} : timeout ≤ now - last ↔ (timeout : Int) ≤ max 0 ((now : Int) - last) := by
  omega

namespace Custody

variable {ε : Type} {custody : Custody ε} {granted : List Grant}

def grant? (custody : Custody ε) : Request ε → Option Grant
  | .get key now maker => Grant.ofAnswer? key now (custody.get key now maker).1
  | _ => none

/-- The requests among these that are answered with a sink, one after the other. -/
def grants (custody : Custody ε) : List (Request ε) → List Grant
  | [] => []
  | request :: rest => (custody.grant? request).toList ++ (custody.apply request).grants rest

/-- The last use of each entry is the latest instant at which its key was asked for since its sink was made. -/
def Dated (custody : Custody ε) (granted : List Grant) : Prop :=
  ∀ entry ∈ custody.registry.entries, (Grant.instants entry.key granted).max? = some entry.lastUsed

theorem Dated.same (dated : custody.Dated granted) {other : Custody ε}
    (same : other.registry.entries = custody.registry.entries) : other.Dated (granted ++ []) := by
  intro entry member
  rw [List.append_nil]
  exact dated entry (same ▸ member)

theorem Dated.get (dated : custody.Dated granted) (key : String) (now : Millis) (maker : Maker ε) :
    (custody.get key now maker).2.Dated (granted ++ (custody.grant? (.get key now maker)).toList) := by
  show (custody.get key now maker).2.Dated (granted ++ (Grant.ofAnswer? key now (custody.get key now maker).1).toList)
  refine get_cases custody key now maker ?_ ?_ ?_ ?_
  · intro _
    exact dated.same rfl
  · intro found _ _ entry member
    obtain ⟨old, before, named, -, used⟩ :=
      Registry.mem_touch.mp (show entry ∈ (custody.registry.touch key now).entries from member)
    have latest := dated old before
    simp only [Grant.ofAnswer?, Option.toList_some]
    rw [named, used]
    by_cases asked : old.key = key
    · subst asked
      rw [if_pos rfl, Grant.instants_found]
      exact max?_concat latest
    · rw [if_neg asked, Grant.instants_other (Ne.symm asked)]
      exact latest
  · intro fault _ _
    exact dated.same rfl
  · intro id awaits _ entry member
    simp only [Grant.ofAnswer?, Option.toList_some]
    rcases List.mem_append.mp (show entry ∈ custody.registry.entries ++ [⟨key, id, now⟩] from member) with old | new
    · rw [Grant.instants_other (Ne.symm (Registry.find?_none awaits.2 entry old))]
      exact dated entry old
    · rw [List.mem_singleton.mp new, Grant.instants_made]
      rfl

theorem Dated.apply (dated : custody.Dated granted) (request : Request ε) :
    (custody.apply request).Dated (granted ++ (custody.grant? request).toList) := by
  cases request with
  | get key now maker => exact dated.get key now maker
  | release id => exact dated.same rfl
  | expire now timeout =>
      intro entry member
      simp only [Custody.apply, Custody.expire, Registry.expire_eq] at member
      simpa [grant?] using dated entry (List.mem_of_mem_filter member)
  | stopAll => exact fun entry member => absurd member List.not_mem_nil
  | meanwhile change keeps => exact dated.same rfl

theorem Dated.run (dated : custody.Dated granted) (requests : List (Request ε)) :
    (custody.run requests).Dated (granted ++ custody.grants requests) := by
  induction requests generalizing custody granted with
  | nil => exact dated.same rfl
  | cons request rest ih =>
      rw [Custody.grants, ← List.append_assoc]
      exact ih (dated.apply request)

theorem dated_run (world : World) (requests : List (Request ε)) :
    (run { world } requests).Dated (Custody.grants { world } requests) := by
  have start : Dated ({ world } : Custody ε) [] := fun entry member => absurd member List.not_mem_nil
  simpa using start.run requests

def idle (custody : Custody ε) (now timeout : Millis) : List Registration :=
  custody.registry.entries.filter (custody.registry.isExpired now timeout)

theorem expire_def (custody : Custody ε) (now timeout : Millis) :
    custody.expire now timeout = ((custody.idle now timeout).map (·.key), { custody with
      registry := { custody.registry with
        entries := custody.registry.entries.filter (!custody.registry.isExpired now timeout ·) }
      world := Router.stopEach (custody.idle now timeout) custody.world
      stops := custody.stops ++ (custody.idle now timeout).map Registration.placement }) := by
  rw [Custody.expire, Registry.expire_eq]
  rfl

theorem mem_idle {now timeout : Millis} {entry : Registration} :
    entry ∈ custody.idle now timeout ↔
      entry ∈ custody.registry.entries ∧ timeout ≤ now - entry.lastUsed ∧ entry.sink ∉ custody.registry.handles := by
  rw [idle, List.mem_filter, Registry.isExpired_iff]

theorem expire_again (custody : Custody ε) (now timeout : Millis) :
    (custody.expire now timeout).2.expire now timeout = ([], (custody.expire now timeout).2) := by
  have none : (custody.expire now timeout).2.idle now timeout = [] := by
    rw [expire_def, idle, List.filter_filter]
    refine List.filter_eq_nil_iff.mpr fun entry _ => ?_
    simp [Registry.isExpired]
  have kept : (custody.expire now timeout).2.registry.entries.filter
      (!(custody.expire now timeout).2.registry.isExpired now timeout ·) =
        (custody.expire now timeout).2.registry.entries := by
    refine List.filter_eq_self.mpr fun entry member => ?_
    have stays := List.filter_eq_nil_iff.mp none entry member
    simpa using stays
  rw [expire_def (custody.expire now timeout).2, none, kept]
  simp [Router.stopEach]

theorem gone_iff (nodup : custody.registry.keys.Nodup) {now timeout : Millis} {entry : Registration}
    (member : entry ∈ custody.registry.entries) :
    entry.key ∈ (custody.expire now timeout).1 ↔ custody.registry.isExpired now timeout entry = true := by
  rw [expire_def, List.mem_map]
  constructor
  · rintro ⟨other, out, same⟩
    obtain ⟨present, expired⟩ := List.mem_filter.mp out
    exact List.inj_on_of_nodup_map nodup present member same ▸ expired
  · intro expired
    exact ⟨entry, List.mem_filter.mpr ⟨member, expired⟩, rfl⟩

theorem expire_entries (nodup : custody.registry.keys.Nodup) (now timeout : Millis) :
    (custody.expire now timeout).2.registry = { custody.registry with
      entries := custody.registry.entries.filter (·.key ∉ (custody.expire now timeout).1) } := by
  have kept : custody.registry.entries.filter (!custody.registry.isExpired now timeout ·) =
      custody.registry.entries.filter (·.key ∉ (custody.expire now timeout).1) := by
    refine List.filter_congr fun entry member => ?_
    rw [Bool.eq_iff_iff, decide_eq_true_eq, gone_iff nodup member, Bool.not_eq_true', Bool.not_eq_true]
  rw [← kept, expire_def]

theorem expire_stops (nodup : custody.registry.keys.Nodup) (now timeout : Millis) :
    (custody.expire now timeout).2.stops = custody.stops ++
      (custody.registry.entries.filter (·.key ∈ (custody.expire now timeout).1)).map Registration.placement := by
  have out : custody.idle now timeout = custody.registry.entries.filter (·.key ∈ (custody.expire now timeout).1) := by
    refine List.filter_congr fun entry member => ?_
    rw [Bool.eq_iff_iff, decide_eq_true_eq, gone_iff nodup member]
  rw [← out, expire_def]

theorem expire_sinks (now timeout : Millis) {id : SinkId}
    (stays : ∀ entry ∈ custody.registry.entries, entry.key ∈ (custody.expire now timeout).1 → entry.sink ≠ id) :
    (custody.expire now timeout).2.world.sinks[id]? = custody.world.sinks[id]? := by
  rw [expire_def] at stays ⊢
  exact Router.sinks_stopEach (fun entry out => stays entry (List.mem_of_mem_filter out) (List.mem_map_of_mem out)) _

theorem Dated.idle_iff (dated : custody.Dated granted) {now timeout : Millis} {entry : Registration}
    (member : entry ∈ custody.registry.entries) :
    timeout ≤ now - entry.lastUsed ↔
      ∃ last, (Grant.instants entry.key granted).max? = some last ∧ (timeout : Int) ≤ max 0 ((now : Int) - last) := by
  rw [dated entry member, show timeout ≤ now - entry.lastUsed ↔ _ from le_sub_iff]
  constructor
  · intro late
    exact ⟨entry.lastUsed, rfl, late⟩
  · rintro ⟨last, ⟨⟩, late⟩
    exact late

/-- A key is let go exactly if it is registered, nobody holds its sink, and the latest of the instants at which it was asked
for since its sink was made, in whatever order, is too long ago. Its sink is stopped and forgotten, and all others are as they
were. So a key that was asked for a short time ago stays, and letting go again lets nothing go. -/
theorem expiry_is_exact (world : World) (requests : List (Request ε)) (now timeout : Millis) :
    let custody := run { world } requests
    let grants := Custody.grants { world } requests
    let gone := (custody.expire now timeout).1
    let after := (custody.expire now timeout).2
    (∀ key, key ∈ gone ↔ ∃ entry ∈ custody.registry.entries, entry.key = key ∧ entry.sink ∉ custody.registry.handles ∧
      ∃ last, (Grant.instants key grants).max? = some last ∧ (timeout : Int) ≤ max 0 ((now : Int) - last)) ∧
    gone.Nodup ∧
    after.registry = { custody.registry with entries := custody.registry.entries.filter (·.key ∉ gone) } ∧
    after.stops = custody.stops ++ (custody.registry.entries.filter (·.key ∈ gone)).map Registration.placement ∧
    (∀ entry ∈ custody.registry.entries, entry.key ∈ gone → after.world.isStopped entry.sink = true) ∧
    (∀ id, (∀ entry ∈ custody.registry.entries, entry.key ∈ gone → entry.sink ≠ id) →
      after.world.sinks[id]? = custody.world.sinks[id]?) ∧
    (∀ entry ∈ after.registry.entries, entry ∈ custody.registry.entries ∧
      after.world.sinks[entry.sink]? = custody.world.sinks[entry.sink]? ∧
      (Grant.instants entry.key grants).max? = some entry.lastUsed) ∧
    (∀ key, ∀ instant ∈ Grant.instants key grants, max 0 ((now : Int) - instant) < timeout → key ∉ gone) ∧
    after.expire now timeout = ([], after) ∧
    custody.registry.takeExpired now timeout (custody.registry.candidates now timeout) =
      custody.registry.expire now timeout := by
  intro custody grants gone after
  have sound : custody.Sound := sound_run world requests
  have dated : custody.Dated grants := dated_run world requests
  have listed : gone = (custody.idle now timeout).map (·.key) := congrArg Prod.fst (expire_def custody now timeout)
  have exact_gone : ∀ key, key ∈ gone ↔ ∃ entry ∈ custody.registry.entries, entry.key = key ∧
      entry.sink ∉ custody.registry.handles ∧
        ∃ last, (Grant.instants key grants).max? = some last ∧ (timeout : Int) ≤ max 0 ((now : Int) - last) := by
    intro key
    constructor
    · intro out
      rw [listed, List.mem_map] at out
      obtain ⟨entry, expired, rfl⟩ := out
      obtain ⟨member, late, free⟩ := mem_idle.mp expired
      exact ⟨entry, member, rfl, free, (dated.idle_iff member).mp late⟩
    · rintro ⟨entry, member, rfl, free, late⟩
      exact (gone_iff sound.keys member).mpr (Registry.isExpired_iff.mpr ⟨(dated.idle_iff member).mpr late, free⟩)
  have entries : after.registry = { custody.registry with entries := custody.registry.entries.filter (·.key ∉ gone) } :=
    expire_entries sound.keys now timeout
  have stops : after.stops = custody.stops ++
      (custody.registry.entries.filter (·.key ∈ gone)).map Registration.placement := expire_stops sound.keys now timeout
  have untouched : ∀ id, (∀ entry ∈ custody.registry.entries, entry.key ∈ gone → entry.sink ≠ id) →
      after.world.sinks[id]? = custody.world.sinks[id]? := fun id stays => expire_sinks now timeout stays
  refine ⟨exact_gone, ?_, entries, stops, ?_, untouched, ?_, ?_, expire_again custody now timeout,
    Registry.takeExpired_candidates sound.keys now timeout⟩
  · rw [listed]
    exact sound.keys.sublist (List.filter_sublist.map _)
  · intro entry member out
    refine (sound.expire now timeout).stopped entry.placement ?_
    show entry.placement ∈ after.stops
    rw [stops]
    exact List.mem_append_right _ (List.mem_map_of_mem (List.mem_filter.mpr ⟨member, decide_eq_true out⟩))
  · intro entry stays
    rw [entries] at stays
    obtain ⟨member, kept⟩ := List.mem_filter.mp stays
    refine ⟨member, untouched entry.sink ?_, dated entry member⟩
    intro other present out same
    have apart : (custody.registry.entries.map (·.sink)).Nodup := by
      have all := sound.apart
      rw [List.map_append, Registry.placements, List.map_map] at all
      exact all.of_append_left
    exact of_decide_eq_true kept (List.inj_on_of_nodup_map apart present member same ▸ out)
  · intro key instant asked recent out
    obtain ⟨-, -, -, -, last, latest, late⟩ := (exact_gone key).mp out
    have earlier : (instant : Int) ≤ last := Int.ofNat_le.mpr ((List.max?_eq_some_iff.mp latest).2 instant asked)
    omega

example :
    let world : World :=
      { uploads := { executor := .idle, work := { files := .empty ["home"], store := { backend := .memory {} } } } }
    let maker := Maker.ofFactory (.recording {}) "router"
    let requests := [.get "a" 50 (maker "a"), .get "a" 20 (maker "a"), .release 0, .release 0, .get "b" 10 (maker "b")]
    let custody := run { world } requests
    Grant.instants "a" (Custody.grants { world } requests) = [50, 20] ∧ (custody.expire 64 15).1 = [] ∧
      (custody.expire 65 15).1 = ["a"] := by
  decide +kernel

end Custody

end KeyedLog
