import DualStore.Sync.Script
import DualStore.Time.Duration

/-!
Contract: retries of a handler within one delivery.

Owns:
- the policy: how many attempts, and a delay that doubles from a backoff up to five seconds;
- the loop: a transient failure is tried again after its delay while attempts are left; success,
  any other failure and a panic end it.

Does not own: what the outcome means for the delivery.
-/

namespace DualStore

open DualStore.Time

/-- How often a handler is tried, and the first delay in milliseconds. -/
structure RetryPolicy where
  maxAttempts : UInt32
  backoffMs : UInt64
deriving DecidableEq, Repr, Inhabited

namespace RetryPolicy

def new (maxAttempts : UInt32) (backoffMs : UInt64) : RetryPolicy :=
  ⟨max maxAttempts 1, backoffMs⟩

def none : RetryPolicy := new 1 0

/-- Three attempts, two hundred milliseconds after the first. -/
def default : RetryPolicy := new 3 200

def longestDelay : Duration := { seconds := 5, nanos := 0 }

/-- Doubling stops after sixteen steps. -/
def factor (attempt : UInt32) : UInt32 :=
  1 <<< min (if attempt = 0 then 0 else attempt - 1) 16

/-- How long is waited after a failed attempt, counted from one. -/
def pause (policy : RetryPolicy) (attempt : UInt32) : Duration :=
  ((Duration.ofMillis policy.backoffMs).times (factor attempt)).shorter longestDelay

/-- The delay in milliseconds after a failed attempt. -/
def delay (policy : RetryPolicy) (attempt : UInt32) : Nat := (policy.pause attempt).millis

end RetryPolicy

/-- What the loop did: how it ended, the delays it waited for, and the count of attempts. -/
structure Attempts where
  run : Run
  delays : List Nat
  count : Nat
deriving Repr

/-- Tries a handler from some attempt on, with so many more attempts allowed after it. -/
def tryFrom (policy : RetryPolicy) (handle : σ → Run × σ) (attempt : UInt32) :
    (more : Nat) → σ → Attempts × σ
  | 0, state =>
      let (run, state) := handle state
      (⟨run, [], 1⟩, state)
  | more + 1, state =>
      match handle state with
      | (.finished (.error error), state) =>
          if error.isTransient then
            let (later, state) := tryFrom policy handle (attempt + 1) more state
            (⟨later.run, policy.delay attempt :: later.delays, later.count + 1⟩, state)
          else (⟨.finished (.error error), [], 1⟩, state)
      | (run, state) => (⟨run, [], 1⟩, state)

def tryHandler (policy : RetryPolicy) (handle : σ → Run × σ) (state : σ) : Attempts × σ :=
  tryFrom policy handle 1 (policy.maxAttempts.toNat - 1) state

end DualStore
