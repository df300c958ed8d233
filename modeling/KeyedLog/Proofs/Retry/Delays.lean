import KeyedLog.Config
import KeyedLog.Proofs.Retry.Attempts
import Mathlib.Algebra.Group.Nat.Defs

/-!
How long to wait before a retry. The waits are calculated in words of sixty-four bits, and no word is too short for what has to
be in it: they are what they would be in whole numbers.
-/

namespace KeyedLog

namespace Backoff

/-- The wait before a retry in whole numbers, chance not counted. -/
def exactFloor (base limit retry : Nat) : Nat :=
  min (base * 2 ^ (retry - 1)) limit

def doublings? (retry : UInt32) : Option UInt32 :=
  if retry = 0 then none else some (retry - 1)

def draw? (count chance : UInt64) : Option UInt64 :=
  if count = 0 then none else some (chance % count)

def sum? (first second : UInt64) : Option UInt64 :=
  if first.toNat + second.toNat < UInt64.size then some (first + second) else none

/-- The wait before a retry, step by step. There is none if a step goes wrong. -/
def delay? (backoff : Backoff) (retry : UInt32) (chance : UInt64) : Option UInt64 :=
  if retry = 0 then some 0
  else do
    let doublings ← doublings? retry
    let grown := Natural.saturate64 (backoff.base.toNat * (factor doublings.toNat).toNat)
    let least := if grown ≤ backoff.max then grown else backoff.max
    let extra ← (if least / 10 > 0 then draw? (least / 10) chance else some 0)
    sum? least extra

variable {backoff : Backoff} {retry : UInt32}

theorem toNat_factor (exponent : Nat) : (factor exponent).toNat = min (2 ^ exponent) (UInt64.size - 1) := by
  unfold factor
  split
  next short =>
    have fits : 2 ^ exponent < UInt64.size := Nat.pow_lt_pow_right (by decide) short
    rw [Nat.min_eq_left (by omega)]
    exact UInt64.toNat_ofNat_of_lt fits
  next long =>
    have beyond : 2 ^ 64 ≤ 2 ^ exponent := Nat.pow_le_pow_right (by decide) (Nat.le_of_not_lt long)
    have size : UInt64.size = 2 ^ 64 := rfl
    rw [Natural.toNat_saturate64]
    omega

theorem min_saturated (base power : Nat) {limit greatest : Nat} (below : limit ≤ greatest) :
    min (min (base * min power greatest) greatest) limit = min (base * power) limit := by
  rcases Nat.le_total power greatest with fits | beyond
  · rw [Nat.min_eq_left fits]
    omega
  · rw [Nat.min_eq_right beyond]
    cases base with
    | zero => simp
    | succ base =>
        have grown : greatest ≤ (base + 1) * greatest := Nat.le_mul_of_pos_left greatest base.succ_pos
        have further : (base + 1) * greatest ≤ (base + 1) * power := Nat.mul_le_mul_left _ beyond
        omega

theorem toNat_floor (backoff : Backoff) (retry : UInt32) :
    (backoff.floor retry).toNat = exactFloor backoff.base.toNat backoff.max.toNat retry.toNat := by
  have word : backoff.max.toNat ≤ UInt64.size - 1 := Nat.le_sub_one_of_lt backoff.max.toNat_lt
  have chosen : ∀ grown : UInt64, (if grown ≤ backoff.max then grown else backoff.max).toNat =
      min grown.toNat backoff.max.toNat := by
    intro grown
    split
    next within => exact (Nat.min_eq_left (UInt64.le_iff_toNat_le.mp within)).symm
    next above => exact (Nat.min_eq_right (Nat.le_of_not_le (mt UInt64.le_iff_toNat_le.mpr above))).symm
  rw [floor, chosen, Natural.toNat_saturate64, toNat_factor, exactFloor]
  exact min_saturated _ _ word

theorem toNat_spread (backoff : Backoff) (retry : UInt32) :
    (backoff.spread retry).toNat = exactFloor backoff.base.toNat backoff.max.toNat retry.toNat / 10 := by
  rw [spread, UInt64.toNat_div, toNat_floor]
  rfl

theorem exactFloor_mono {base base' limit limit' retry retry' : Nat} (bases : base ≤ base') (limits : limit ≤ limit')
    (retries : retry ≤ retry') : exactFloor base limit retry ≤ exactFloor base' limit' retry' := by
  have powers : 2 ^ (retry - 1) ≤ 2 ^ (retry' - 1) := Nat.pow_le_pow_right (by decide) (Nat.sub_le_sub_right retries 1)
  have products := Nat.mul_le_mul bases powers
  unfold exactFloor
  omega

def extra (backoff : Backoff) (retry : UInt32) (chance : UInt64) : UInt64 :=
  if backoff.spread retry > 0 then chance % backoff.spread retry else 0

theorem delay_eq (later : retry ≠ 0) (chance : UInt64) :
    backoff.delay retry chance = backoff.floor retry + backoff.extra retry chance := by
  rw [delay, if_neg later]
  rfl

theorem extra_le (backoff : Backoff) (retry : UInt32) (chance : UInt64) :
    (backoff.extra retry chance).toNat ≤ (backoff.spread retry).toNat - 1 := by
  unfold extra
  split
  next choice =>
    have positive : 0 < (backoff.spread retry).toNat := UInt64.lt_iff_toNat_lt.mp choice
    have below := Nat.mod_lt chance.toNat positive
    rw [UInt64.toNat_mod]
    omega
  next => exact Nat.zero_le _

theorem exists_extra {added : Nat} (small : added ≤ (backoff.spread retry).toNat - 1) :
    ∃ chance, (backoff.extra retry chance).toNat = added := by
  unfold extra
  by_cases choice : backoff.spread retry > 0
  · have positive : 0 < (backoff.spread retry).toNat := UInt64.lt_iff_toNat_lt.mp choice
    have word := (backoff.spread retry).toNat_lt
    refine ⟨UInt64.ofNat added, ?_⟩
    have fits : added < UInt64.size := Nat.lt_of_lt_of_le (by omega : added < (backoff.spread retry).toNat) (Nat.le_of_lt word)
    rw [if_pos choice, UInt64.toNat_mod, UInt64.toNat_ofNat_of_lt' fits]
    exact Nat.mod_eq_of_lt (by omega)
  · have none : ¬ 0 < (backoff.spread retry).toNat := fun positive => choice (UInt64.lt_iff_toNat_lt.mpr positive)
    refine ⟨0, ?_⟩
    rw [if_neg choice]
    show 0 = added
    omega

section Representable

variable (small : backoff.max.toNat < 2 ^ 63)
include small

theorem floor_add_extra_lt (retry : UInt32) (chance : UInt64) :
    (backoff.floor retry).toNat + (backoff.extra retry chance).toNat < UInt64.size := by
  have added := backoff.extra_le retry chance
  rw [toNat_spread] at added
  have within : exactFloor backoff.base.toNat backoff.max.toNat retry.toNat ≤ backoff.max.toNat := Nat.min_le_right ..
  have size : UInt64.size = 2 ^ 64 := rfl
  rw [toNat_floor]
  omega

theorem toNat_delay (later : retry ≠ 0) (chance : UInt64) :
    (backoff.delay retry chance).toNat =
      exactFloor backoff.base.toNat backoff.max.toNat retry.toNat + (backoff.extra retry chance).toNat := by
  rw [delay_eq later, UInt64.toNat_add, ← toNat_floor]
  exact Nat.mod_eq_of_lt (floor_add_extra_lt small retry chance)

theorem exists_delay_iff (later : retry ≠ 0) {least wait : Nat}
    (exact : least = exactFloor backoff.base.toNat backoff.max.toNat retry.toNat) :
    (∃ chance, (backoff.delay retry chance).toNat = wait) ↔ least ≤ wait ∧ wait ≤ least + (least / 10 - 1) := by
  have spread := toNat_spread backoff retry
  have delay := toNat_delay small later
  rw [← exact] at spread delay
  constructor
  · rintro ⟨chance, rfl⟩
    have added := backoff.extra_le retry chance
    rw [delay]
    omega
  · rintro ⟨low, high⟩
    obtain ⟨chance, added⟩ : ∃ chance, (backoff.extra retry chance).toNat = wait - least := exists_extra (by omega)
    exact ⟨chance, by rw [delay, added]; omega⟩

theorem delay?_eq (retry : UInt32) (chance : UInt64) : backoff.delay? retry chance = some (backoff.delay retry chance) := by
  by_cases first : retry = 0
  · rw [delay?, if_pos first, delay, if_pos first]
  · have positive : 1 ≤ retry.toNat := Nat.one_le_iff_ne_zero.mpr fun zero => first (UInt32.toNat_inj.mp zero)
    have before : (retry - 1).toNat = retry.toNat - 1 := UInt32.toNat_sub_of_le _ _ (UInt32.le_iff_toNat_le.mpr positive)
    have drawn : (if backoff.spread retry > 0 then draw? (backoff.spread retry) chance else some 0) =
        some (backoff.extra retry chance) := by
      unfold extra draw?
      split
      next choice =>
        have several : backoff.spread retry ≠ 0 := fun none => absurd choice (by simp [none])
        rw [if_neg several]
      next => rfl
    have summed : sum? (backoff.floor retry) (backoff.extra retry chance) = some (backoff.delay retry chance) := by
      rw [sum?, if_pos (floor_add_extra_lt small retry chance), delay_eq first]
    calc backoff.delay? retry chance
        = (if backoff.spread retry > 0 then draw? (backoff.spread retry) chance else some 0) >>= sum? (backoff.floor retry) := by
          rw [delay?, if_neg first, doublings?, if_neg first, Option.bind_eq_bind, Option.bind_some, before]
          rfl
      _ = some (backoff.delay retry chance) := by rw [drawn, Option.bind_eq_bind, Option.bind_some, summed]

end Representable

end Backoff

/-- If the limit is below 2 ^ 63 milliseconds, whatever the base, no step of calculating a wait goes wrong, and there is no wait
before the zeroth retry. Before any other, the wait without chance is what it is in whole numbers; the waits that chance can
make of it are those from there up to, but not including, a tenth more, if a tenth is anything at all. Without chance no wait
gets shorter with the number of the retry, the base or the limit. -/
theorem waits_are_exact (settings : Config.Retry) (small : settings.maxDelayMs.toNat < 2 ^ 63) :
    (∀ retry chance, settings.policy.backoff.delay? retry chance = some (settings.policy.backoff.delay retry chance)) ∧
    (∀ chance, settings.policy.backoff.delay 0 chance = 0) ∧
    ∀ retry : UInt32, 1 ≤ retry → ∀ least,
      least = min (settings.baseDelayMs.toNat * 2 ^ (retry.toNat - 1)) settings.maxDelayMs.toNat →
        (settings.policy.backoff.floor retry).toNat = least ∧
        (∀ wait, (∃ chance, (settings.policy.backoff.delay retry chance).toNat = wait) ↔
          least ≤ wait ∧ wait < least + max 1 (least / 10)) ∧
        ∀ (other : Config.Retry) (later : UInt32), settings.baseDelayMs ≤ other.baseDelayMs →
          settings.maxDelayMs ≤ other.maxDelayMs → retry ≤ later →
            settings.policy.backoff.floor retry ≤ other.policy.backoff.floor later := by
  have made : ∀ settings : Config.Retry, settings.policy.backoff = ⟨settings.baseDelayMs, settings.maxDelayMs⟩ :=
    fun settings => RetryPolicy.backoff_new settings.maxAttempts _
  simp only [made]
  refine ⟨Backoff.delay?_eq small, fun _ => rfl, ?_⟩
  intro retry counted least exact
  have later : retry ≠ 0 := by
    rintro rfl
    exact absurd counted (by decide)
  refine ⟨(Backoff.toNat_floor _ _).trans exact.symm, fun wait => ?_, ?_⟩
  · rw [Backoff.exists_delay_iff small later exact]
    omega
  · intro other next bases limits retries
    rw [UInt64.le_iff_toNat_le, Backoff.toNat_floor, Backoff.toNat_floor]
    exact Backoff.exactFloor_mono (UInt64.le_iff_toNat_le.mp bases) (UInt64.le_iff_toNat_le.mp limits)
      (UInt32.le_iff_toNat_le.mp retries)

theorem waits_are_exact_greatest :
    ∃ settings : Config.Retry, settings = ⟨3, 0x7fffffffffffffff, 0x7fffffffffffffff⟩ ∧
      (settings.policy.backoff.floor 0xffffffff).toNat = 2 ^ 63 - 1 ∧
      settings.policy.backoff.delay? 0xffffffff 922337203685477579 = some 10145709240540253386 ∧
      (∃ chance, (settings.policy.backoff.delay 0xffffffff chance).toNat = 10145709240540253386) ∧
      ¬ ∃ chance, (settings.policy.backoff.delay 0xffffffff chance).toNat = 10145709240540253387 := by
  let settings : Config.Retry := ⟨3, 0x7fffffffffffffff, 0x7fffffffffffffff⟩
  have least : 2 ^ 63 - 1 = min (settings.baseDelayMs.toNat * 2 ^ ((0xffffffff : UInt32).toNat - 1)) settings.maxDelayMs.toNat :=
    (Nat.min_eq_right (Nat.le_mul_of_pos_right _ (Nat.two_pow_pos _))).symm
  obtain ⟨steps, -, later⟩ := waits_are_exact settings (by decide)
  obtain ⟨floor, waits, -⟩ := later 0xffffffff (by decide) (2 ^ 63 - 1) least
  refine ⟨settings, rfl, floor, ?_, (waits _).mpr (by decide), fun drawn => absurd ((waits _).mp drawn) (by decide)⟩
  rw [steps]
  decide +kernel

end KeyedLog
