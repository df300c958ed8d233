import KeyedLog.Quantity

/-!
Bounded retries. Waiting times double up to a limit, with a little chance to spread them, and an operation
that keeps failing is given up, so that nothing waits behind it for ever.
-/

namespace KeyedLog

structure Backoff where
  base : UInt64
  max : UInt64
  deriving DecidableEq, Repr

namespace Backoff

def factor (exponent : Nat) : UInt64 :=
  if exponent < 64 then UInt64.ofNat (Nat.pow 2 exponent) else Natural.saturate64 UInt64.size

def floor (backoff : Backoff) (retry : UInt32) : UInt64 :=
  let grown := Natural.saturate64 (backoff.base.toNat * (factor (retry.toNat - 1)).toNat)
  if grown ≤ backoff.max then grown else backoff.max

def spread (backoff : Backoff) (retry : UInt32) : UInt64 :=
  backoff.floor retry / 10

/-- The wait before a retry. `chance` is any number; it is brought into range. -/
def delay (backoff : Backoff) (retry : UInt32) (chance : UInt64) : UInt64 :=
  if retry = 0 then 0
  else
    let spread := backoff.spread retry
    backoff.floor retry + (if spread > 0 then chance % spread else 0)

def bounds (backoff : Backoff) (retry : UInt32) : Nat × Nat :=
  let least := (backoff.delay retry 0).toNat
  (least, least + Nat.max 1 (if retry = 0 then 0 else (backoff.spread retry).toNat))

end Backoff

structure RetryPolicy where
  maxAttempts : UInt32
  backoff : Backoff
  positive : 0 < maxAttempts := by decide
  deriving DecidableEq

namespace RetryPolicy

def new (maxAttempts : UInt32) (backoff : Backoff) : RetryPolicy :=
  if positive : 0 < maxAttempts then { maxAttempts, backoff, positive }
  else { maxAttempts := 1, backoff }

structure Exhausted (ε : Type) where
  operation : String
  attempts : UInt32
  last : ε
  deriving DecidableEq, Repr

def Exhausted.message {ε : Type} (exhausted : Exhausted ε) (describe : ε → String) : String :=
  exhausted.operation ++ " failed after " ++ exhausted.attempts.toNat.repr ++ " attempts: " ++
    describe exhausted.last

inductive Verdict where
  | giveUp
  | wait (delay : UInt64)
  deriving DecidableEq, Repr

def afterFailure (policy : RetryPolicy) (attempt : UInt32) (chance : UInt64) : Verdict :=
  if policy.maxAttempts ≤ attempt then .giveUp
  else .wait (policy.backoff.delay attempt chance)

structure Outcome (ε α : Type) where
  result : Except (Exhausted ε) α
  calls : Nat
  waits : List UInt64

/-- Attempts from number `attempt` on, of which at most `left` remain. `outcome` tells how the call with a
number ends, and `chance` what is drawn for the wait after it. -/
def runFrom {ε α : Type} (policy : RetryPolicy) (operation : String)
    (outcome : Nat → Except ε α) (chance : Nat → UInt64) :
    (left : Nat) → (attempt : UInt32) → (waits : List UInt64) → Outcome ε α
  | left, attempt, waits =>
    match outcome attempt.toNat with
    | .ok value => ⟨.ok value, attempt.toNat, waits.reverse⟩
    | .error last =>
      match policy.afterFailure attempt (chance attempt.toNat), left with
      | .wait delay, left + 1 =>
        runFrom policy operation outcome chance left (attempt + 1) (delay :: waits)
      | _, _ => ⟨.error ⟨operation, attempt, last⟩, attempt.toNat, waits.reverse⟩

def run {ε α : Type} (policy : RetryPolicy) (operation : String)
    (outcome : Nat → Except ε α) (chance : Nat → UInt64) : Outcome ε α :=
  policy.runFrom operation outcome chance policy.maxAttempts.toNat 1 []

def Outcome.elapsed {ε α : Type} (outcome : Outcome ε α) : Millis :=
  outcome.waits.foldl (fun total wait => total + wait.toNat) 0

end RetryPolicy

end KeyedLog
