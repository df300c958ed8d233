import KeyedLog.Retry
import Mathlib.Logic.Relation

/-!
How often an operation is tried. The loop of attempts ends with the first call that succeeds or with the last one that is
allowed, whichever comes first, and it sleeps between two calls and at no other time.
-/

namespace KeyedLog.RetryPolicy

inductive Deed where
  | call
  | sleep (delay : UInt64)
  deriving DecidableEq, Repr

/-- The loop of attempts before a call. -/
structure Loop where
  attempt : UInt32 := 1
  deeds : List Deed := []
  deriving DecidableEq, Repr

def Loop.calls (loop : Loop) : Nat :=
  loop.deeds.count .call

variable {ε α : Type}

inductive Pass (ε α : Type) where
  | ended (result : Except (Exhausted ε) α)
  | again (next : Loop)

/-- Go through the loop once. `outcome` tells how each call ends. Calls are numbered by how many there really were, and not
by what the loop counts. -/
def pass (policy : RetryPolicy) (operation : String) (outcome : Nat → Except ε α) (chance : Nat → UInt64) (loop : Loop) :
    Pass ε α :=
  match outcome (loop.calls + 1) with
  | .ok value => .ended (.ok value)
  | .error last =>
    match policy.afterFailure loop.attempt (chance (loop.calls + 1)) with
    | .giveUp => .ended (.error ⟨operation, loop.attempt, last⟩)
    | .wait delay => .again ⟨loop.attempt + 1, loop.deeds ++ [.call, .sleep delay]⟩

def Reaches (policy : RetryPolicy) (operation : String) (outcome : Nat → Except ε α) (chance : Nat → UInt64) (loop : Loop) :
    Prop :=
  Relation.ReflTransGen (fun before after => policy.pass operation outcome chance before = .again after) {} loop

def Ends (policy : RetryPolicy) (operation : String) (outcome : Nat → Except ε α) (chance : Nat → UInt64)
    (result : Except (Exhausted ε) α) (deeds : List Deed) : Prop :=
  ∃ loop, policy.Reaches operation outcome chance loop ∧
    policy.pass operation outcome chance loop = .ended result ∧ deeds = loop.deeds ++ [.call]

/-- The number of the first call that succeeds, if there is one. -/
def IsFirstSuccess (outcome : Nat → Except ε α) : Option Nat → Prop
  | some first => 1 ≤ first ∧ (outcome first).isOk = true ∧
      ∀ number, 1 ≤ number → number < first → (outcome number).isOk = false
  | none => ∀ number, 1 ≤ number → (outcome number).isOk = false

def waits (backoff : Backoff) (chance : Nat → UInt64) (count : Nat) : List UInt64 :=
  (List.range count).map fun before => backoff.delay (UInt32.ofNat (before + 1)) (chance (before + 1))

def rounds (backoff : Backoff) (chance : Nat → UInt64) (count : Nat) : List Deed :=
  (waits backoff chance count).flatMap fun delay => [.call, .sleep delay]

def Fails (outcome : Nat → Except ε α) (count : Nat) : Prop :=
  ∀ number, 1 ≤ number → number ≤ count → (outcome number).isOk = false

/-- This call ends the loop: it is the first that succeeds, or all before it fail and no more are allowed. -/
structure Settles (policy : RetryPolicy) (outcome : Nat → Except ε α) (calls : Nat) : Prop where
  called : 1 ≤ calls
  allowed : calls ≤ policy.maxAttempts.toNat
  fails : Fails outcome (calls - 1)
  final : (outcome calls).isOk = true ∨ calls = policy.maxAttempts.toNat

def failed (policy : RetryPolicy) (chance : Nat → UInt64) (count : Nat) : Loop :=
  ⟨UInt32.ofNat (count + 1), rounds policy.backoff chance count⟩

variable {policy : RetryPolicy} {operation : String} {outcome : Nat → Except ε α} {chance : Nat → UInt64} {count calls : Nat}

theorem error_of_not_isOk {number : Nat} (fails : (outcome number).isOk = false) :
    ∃ fault, outcome number = .error fault := by
  cases result : outcome number with
  | ok value => simp [result, Except.isOk, Except.toBool] at fails
  | error fault => exact ⟨fault, rfl⟩

theorem Fails.mono (fails : Fails outcome count) {fewer : Nat} (less : fewer ≤ count) : Fails outcome fewer :=
  fun number low high => fails number low (Nat.le_trans high less)

theorem Fails.succ (fails : Fails outcome count) (next : (outcome (count + 1)).isOk = false) : Fails outcome (count + 1) := by
  intro number low high
  rcases Nat.lt_or_eq_of_le high with before | rfl
  · exact fails number low (Nat.le_of_lt_succ before)
  · exact next

theorem waits_succ (backoff : Backoff) (chance : Nat → UInt64) (count : Nat) :
    waits backoff chance (count + 1) =
      waits backoff chance count ++ [backoff.delay (UInt32.ofNat (count + 1)) (chance (count + 1))] := by
  rw [waits, List.range_succ, List.map_append, List.map_singleton, waits]

theorem rounds_succ (backoff : Backoff) (chance : Nat → UInt64) (count : Nat) :
    rounds backoff chance (count + 1) = rounds backoff chance count ++
      [.call, .sleep (backoff.delay (UInt32.ofNat (count + 1)) (chance (count + 1)))] := by
  rw [rounds, waits_succ, List.flatMap_append, List.flatMap_singleton, rounds]

theorem calls_failed (policy : RetryPolicy) (chance : Nat → UInt64) (count : Nat) :
    (policy.failed chance count).calls = count := by
  show (rounds policy.backoff chance count).count .call = count
  induction count with
  | zero => rfl
  | succ count ih => simp [rounds_succ, ih]

theorem attempt_failed (allowed : count < policy.maxAttempts.toNat) :
    (policy.failed chance count).attempt.toNat = count + 1 :=
  UInt32.toNat_ofNat_of_lt' (Nat.lt_of_le_of_lt allowed (UInt32.toNat_lt _))

theorem attempt_failed_succ (policy : RetryPolicy) (chance : Nat → UInt64) (count : Nat) :
    (policy.failed chance count).attempt + 1 = (policy.failed chance (count + 1)).attempt :=
  (UInt32.ofNat_add (count + 1) 1).symm

theorem afterFailure_failed (allowed : count < policy.maxAttempts.toNat) (drawn : UInt64) :
    policy.afterFailure (policy.failed chance count).attempt drawn =
      if count + 1 = policy.maxAttempts.toNat then .giveUp
      else .wait (policy.backoff.delay (UInt32.ofNat (count + 1)) drawn) := by
  have last : policy.maxAttempts ≤ (policy.failed chance count).attempt ↔ count + 1 = policy.maxAttempts.toNat := by
    rw [UInt32.le_iff_toNat_le, attempt_failed allowed]
    omega
  unfold afterFailure
  by_cases here : count + 1 = policy.maxAttempts.toNat
  · rw [if_pos (last.mpr here), if_pos here]
  · rw [if_neg (mt last.mp here), if_neg here]
    rfl

theorem pass_failed (allowed : count < policy.maxAttempts.toNat) :
    policy.pass operation outcome chance (policy.failed chance count) =
      match outcome (count + 1) with
      | .ok value => .ended (.ok value)
      | .error last =>
        if count + 1 = policy.maxAttempts.toNat then .ended (.error ⟨operation, policy.maxAttempts, last⟩)
        else .again (policy.failed chance (count + 1)) := by
  unfold pass
  rw [calls_failed]
  cases outcome (count + 1) with
  | ok value => rfl
  | error last =>
      dsimp only
      rw [afterFailure_failed allowed]
      by_cases here : count + 1 = policy.maxAttempts.toNat
      · have counted : (policy.failed chance count).attempt = policy.maxAttempts :=
          UInt32.toNat_inj.mp ((attempt_failed allowed).trans here)
        simp only [here, if_true, counted]
      · simp only [here, if_false, attempt_failed_succ]
        simp only [failed, rounds_succ]

theorem reaches_failed (allowed : count < policy.maxAttempts.toNat) (fails : Fails outcome count) :
    policy.Reaches operation outcome chance (policy.failed chance count) := by
  induction count with
  | zero => exact .refl
  | succ count ih =>
      have below := Nat.lt_of_succ_lt allowed
      obtain ⟨fault, here⟩ := error_of_not_isOk (fails (count + 1) (Nat.succ_pos _) (Nat.le_refl _))
      refine (ih below (fails.mono (Nat.le_succ _))).tail ?_
      rw [pass_failed below, here]
      exact if_neg (Nat.ne_of_lt allowed)

theorem failed_of_reaches {loop : Loop} (reaches : policy.Reaches operation outcome chance loop) :
    ∃ count, count < policy.maxAttempts.toNat ∧ Fails outcome count ∧ loop = policy.failed chance count := by
  induction reaches with
  | refl =>
      refine ⟨0, UInt32.lt_iff_toNat_lt.mp policy.positive, ?_, rfl⟩
      intro number low high
      exact absurd (Nat.le_trans low high) (by decide)
  | tail _ passes ih =>
      obtain ⟨count, allowed, fails, rfl⟩ := ih
      rw [pass_failed allowed] at passes
      split at passes
      · simp at passes
      next last here =>
        split at passes
        · simp at passes
        next more =>
          have next := fails.succ (by rw [here]; rfl)
          exact ⟨count + 1, Nat.lt_of_le_of_ne allowed more, next, (Pass.again.inj passes).symm⟩

theorem ends_iff (settles : policy.Settles outcome calls) {result : Except (Exhausted ε) α} {deeds : List Deed} :
    policy.Ends operation outcome chance result deeds ↔
      result = (outcome calls).mapError (⟨operation, policy.maxAttempts, ·⟩) ∧
        deeds = rounds policy.backoff chance (calls - 1) ++ [.call] := by
  obtain ⟨count, rfl⟩ := Nat.exists_eq_add_of_le' settles.called
  have allowed : count < policy.maxAttempts.toNat := settles.allowed
  have last : policy.pass operation outcome chance (policy.failed chance count) =
      .ended ((outcome (count + 1)).mapError (⟨operation, policy.maxAttempts, ·⟩)) := by
    rw [pass_failed allowed]
    cases here : outcome (count + 1) with
    | ok value => rfl
    | error fault =>
        have final := settles.final
        rw [here] at final
        exact if_pos (final.resolve_left Bool.false_ne_true)
  constructor
  · rintro ⟨loop, reaches, ended, rfl⟩
    obtain ⟨other, below, fails, rfl⟩ := failed_of_reaches reaches
    obtain rfl : other = count := by
      rcases Nat.lt_trichotomy other count with before | same | behind
      · obtain ⟨fault, here⟩ := error_of_not_isOk (settles.fails (other + 1) (Nat.succ_pos _) before)
        have more : other + 1 ≠ policy.maxAttempts.toNat := by omega
        simp [pass_failed below, here, more] at ended
      · exact same
      · have here := fails (count + 1) (Nat.succ_pos _) behind
        rcases settles.final with success | final
        · exact absurd (here.symm.trans success) Bool.false_ne_true
        · omega
    exact ⟨(Pass.ended.inj (last.symm.trans ended)).symm, rfl⟩
  · rintro ⟨rfl, rfl⟩
    exact ⟨_, reaches_failed allowed settles.fails, last, rfl⟩

theorem run_failed (allowed : count < policy.maxAttempts.toNat) (fails : Fails outcome count) :
    policy.run operation outcome chance = policy.runFrom operation outcome chance (policy.maxAttempts.toNat - count)
      (policy.failed chance count).attempt (waits policy.backoff chance count).reverse := by
  induction count with
  | zero => rfl
  | succ count ih =>
      have below := Nat.lt_of_succ_lt allowed
      obtain ⟨fault, here⟩ := error_of_not_isOk (fails (count + 1) (Nat.succ_pos _) (Nat.le_refl _))
      obtain ⟨left, enough⟩ := Nat.exists_eq_add_of_lt below
      have before : policy.maxAttempts.toNat - count = left + 1 := by omega
      have after : policy.maxAttempts.toNat - (count + 1) = left := by omega
      rw [ih below (fails.mono (Nat.le_succ _)), before, after, runFrom, attempt_failed below, here]
      dsimp only
      rw [afterFailure_failed below, if_neg (Nat.ne_of_lt allowed), attempt_failed_succ, waits_succ, List.reverse_append,
        List.reverse_singleton, List.singleton_append]

theorem run_eq (settles : policy.Settles outcome calls) :
    policy.run operation outcome chance =
      ⟨(outcome calls).mapError (⟨operation, policy.maxAttempts, ·⟩), calls, waits policy.backoff chance (calls - 1)⟩ := by
  obtain ⟨count, rfl⟩ := Nat.exists_eq_add_of_le' settles.called
  have allowed : count < policy.maxAttempts.toNat := settles.allowed
  rw [run_failed allowed settles.fails, runFrom, attempt_failed allowed]
  cases here : outcome (count + 1) with
  | ok value =>
      dsimp only
      rw [List.reverse_reverse]
      rfl
  | error last =>
      have final := settles.final
      rw [here] at final
      have enough := final.resolve_left Bool.false_ne_true
      have counted : (policy.failed chance count).attempt = policy.maxAttempts :=
        UInt32.toNat_inj.mp ((attempt_failed allowed).trans enough)
      dsimp only
      rw [afterFailure_failed allowed, if_pos enough, counted, List.reverse_reverse]
      rfl

theorem settles_of_first {first : Option Nat} (isFirst : IsFirstSuccess outcome first) :
    policy.Settles outcome (first.elim policy.maxAttempts.toNat (min · policy.maxAttempts.toNat)) := by
  have positive : 0 < policy.maxAttempts.toNat := UInt32.lt_iff_toNat_lt.mp policy.positive
  cases first with
  | none => exact ⟨positive, Nat.le_refl _, fun number low _ => isFirst number low, .inr rfl⟩
  | some first =>
      obtain ⟨low, success, fails⟩ := isFirst
      simp only [Option.elim_some]
      refine ⟨Nat.le_min.mpr ⟨low, positive⟩, Nat.min_le_right .., ?_, ?_⟩
      · intro number one bound
        exact fails number one (by omega)
      · rcases Nat.le_total first policy.maxAttempts.toNat with early | late
        · rw [Nat.min_eq_left early]
          exact .inl success
        · exact .inr (Nat.min_eq_right late)

theorem maxAttempts_new (maxAttempts : UInt32) (backoff : Backoff) :
    (new maxAttempts backoff).maxAttempts.toNat = max 1 maxAttempts.toNat := by
  unfold new
  split
  next positive => exact (Nat.max_eq_right (UInt32.lt_iff_toNat_lt.mp positive)).symm
  next none =>
    have zero : maxAttempts.toNat = 0 := Nat.eq_zero_of_not_pos fun positive => none (UInt32.lt_iff_toNat_lt.mpr positive)
    rw [zero]
    rfl

theorem backoff_new (maxAttempts : UInt32) (backoff : Backoff) : (new maxAttempts backoff).backoff = backoff := by
  unfold new
  split <;> rfl

/-- An operation is called until a call succeeds, but no more often than is allowed, and once at least. The loop ends in
this way and in no other: with the value of the first call that succeeds, or else with the error of the last call that
is allowed. After each call but the last comes the wait before the retry with the number of the call, and what the loop
counts is always the number of the next call, so that it does not overflow. -/
theorem operation_is_tried_as_allowed (maxAttempts : UInt32) (backoff : Backoff) (operation : String)
    (outcome : Nat → Except ε α) (chance : Nat → UInt64) {first : Option Nat} (isFirst : IsFirstSuccess outcome first) :
    let policy := new maxAttempts backoff
    let most := max 1 maxAttempts.toNat
    let calls := first.elim most (min · most)
    ∃ result,
      (∀ other deeds, policy.Ends operation outcome chance other deeds ↔
        other = result ∧ deeds = rounds backoff chance (calls - 1) ++ [.call]) ∧
      policy.run operation outcome chance = ⟨result, calls, waits backoff chance (calls - 1)⟩ ∧
      (∀ number, first = some number → number ≤ most → ∃ value, outcome number = .ok value ∧ result = .ok value) ∧
      ((∀ number, first = some number → most < number) → ∃ attempts last, attempts.toNat = most ∧
        outcome most = .error last ∧ result = .error ⟨operation, attempts, last⟩) ∧
      ∀ loop, policy.Reaches operation outcome chance loop → loop.attempt.toNat = loop.calls + 1 ∧ loop.calls < most := by
  intro policy most calls
  have allowed : policy.maxAttempts.toNat = most := maxAttempts_new maxAttempts backoff
  have waiting : policy.backoff = backoff := backoff_new maxAttempts backoff
  -- Some call settles the loop, whether one succeeds or not. What the loop ends with follows from which call it is.
  have settles : policy.Settles outcome _ := settles_of_first isFirst
  rw [allowed] at settles
  have ends := @ends_iff _ _ policy operation outcome chance _ settles
  have run := @run_eq _ _ policy operation outcome chance _ settles
  rw [waiting] at ends run
  refine ⟨_, fun other deeds => ends, run, ?_, ?_, ?_⟩
  · rintro number rfl early
    obtain ⟨-, success, -⟩ := isFirst
    rw [Option.elim_some, Nat.min_eq_left early]
    cases here : outcome number with
    | ok value => exact ⟨value, rfl, rfl⟩
    | error fault => simp [here, Except.isOk, Except.toBool] at success
  · intro late
    have last : calls = most := by
      cases first with
      | none => rfl
      | some number => exact Nat.min_eq_right (Nat.le_of_lt (late number rfl))
    have fails : (outcome most).isOk = false := by
      cases first with
      | none => exact isFirst most (Nat.le_max_left ..)
      | some number => exact isFirst.2.2 most (Nat.le_max_left ..) (late number rfl)
    obtain ⟨fault, here⟩ := error_of_not_isOk fails
    refine ⟨policy.maxAttempts, fault, allowed, here, ?_⟩
    show (outcome calls).mapError _ = _
    rw [last, here]
    rfl
  · intro loop reaches
    obtain ⟨count, below, -, rfl⟩ := failed_of_reaches reaches
    rw [calls_failed, attempt_failed below, ← allowed]
    exact ⟨rfl, below⟩

theorem operation_is_tried_as_allowed_thrice :
    ∃ outcome : Nat → Except String Nat, outcome = (fun number => if number < 3 then .error "unavailable" else .ok number) ∧
      IsFirstSuccess outcome (some 3) ∧
      (new 5 ⟨100, 1000⟩).run "put" outcome (fun _ => 7) = ⟨.ok 3, 3, [107, 207]⟩ ∧
      (new 5 ⟨100, 1000⟩).Ends "put" outcome (fun _ => 7) (.ok 3) [.call, .sleep 107, .call, .sleep 207, .call] := by
  have first : IsFirstSuccess (fun number => if number < 3 then .error "unavailable" else .ok number : Nat → Except String Nat)
      (some 3) := by
    refine ⟨by decide, rfl, ?_⟩
    intro number _ before
    simp [before, Except.isOk, Except.toBool]
  obtain ⟨result, ends, run, early, -⟩ := operation_is_tried_as_allowed 5 ⟨100, 1000⟩ "put" _ (fun _ => 7) first
  obtain ⟨value, here, rfl⟩ := early 3 rfl (by decide)
  obtain rfl : 3 = value := Except.ok.inj here
  exact ⟨_, rfl, first, run, (ends _ _).mpr ⟨rfl, by decide +kernel⟩⟩

end KeyedLog.RetryPolicy
