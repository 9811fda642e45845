import DualStore.Proofs.Delivery.Retrying
import DualStore.Proofs.Time.Duration
import Mathlib.Algebra.Group.Action.Defs
import Mathlib.Algebra.Order.BigOperators.Group.List

/-!
Contract: how long the loop of retries waits.

Owns:
- the delay after each attempt in unbounded numbers: the backoff doubled once for each attempt
  before, up to five seconds. The end of the doubling after sixteen steps and the longest duration
  are both out of sight behind that cap;
- the delays of a whole delivery and their sum.

Does not own: which attempt is the last.
-/

namespace DualStore

open DualStore.Time

/-! ## One delay -/

/-- A delay of so many steps of doubling, in milliseconds and in unbounded numbers. -/
def cappedDoubling (backoff steps : Nat) : Nat := min (backoff * 2 ^ steps) 5000

theorem cappedDoubling_mono (backoff : Nat) {fewer more : Nat} (atMost : fewer ≤ more) :
    cappedDoubling backoff fewer ≤ cappedDoubling backoff more := by
  have powers : 2 ^ fewer ≤ 2 ^ more := Nat.pow_le_pow_right (by decide) atMost
  have products := Nat.mul_le_mul_left backoff powers
  simp only [cappedDoubling]
  omega

/-- Sixteen steps take the least backoff of all beyond the cap, so that more make no difference. -/
theorem cappedDoubling_clamped (backoff steps : Nat) :
    cappedDoubling backoff (min steps 16) = cappedDoubling backoff steps := by
  by_cases few : steps ≤ 16
  · rw [Nat.min_eq_left few]
  · have many : 16 ≤ steps := by omega
    rw [Nat.min_eq_right many]
    cases backoff with
    | zero => simp [cappedDoubling]
    | succ backoff =>
        have reached : cappedDoubling (backoff + 1) 16 = 5000 := by
          simp only [cappedDoubling]
          omega
        have bounded : cappedDoubling (backoff + 1) steps ≤ 5000 := Nat.min_le_right _ _
        have grown := cappedDoubling_mono (backoff + 1) many
        omega

namespace RetryPolicy

theorem toNat_factor (attempt : UInt32) :
    (factor attempt).toNat = 2 ^ min (attempt.toNat - 1) 16 := by
  have steps : (if attempt = 0 then 0 else attempt - 1).toNat = attempt.toNat - 1 := by
    split
    · rename_i isZero
      rw [isZero]
      rfl
    · rename_i notZero
      have positive : 1 ≤ attempt.toNat :=
        Nat.one_le_iff_ne_zero.mpr fun isZero => notZero (UInt32.toNat_inj.mp isZero)
      exact UInt32.toNat_sub_of_le attempt 1 (UInt32.le_iff_toNat_le.mpr positive)
  have atMost : min (attempt.toNat - 1) 16 ≤ 16 := Nat.min_le_right _ _
  have power : 2 ^ min (attempt.toNat - 1) 16 ≤ 2 ^ 16 := Nat.pow_le_pow_right (by decide) atMost
  rw [factor, UInt32.toNat_shiftLeft, UInt32.toNat_min, steps]
  change 1 <<< (min (attempt.toNat - 1) 16 % 32) % 2 ^ 32 = _
  rw [Nat.mod_eq_of_lt (by omega : min (attempt.toNat - 1) 16 < 32), Nat.one_shiftLeft]
  exact Nat.mod_eq_of_lt (by omega)

section Delay

variable (policy : RetryPolicy) (attempt : UInt32)

/-- Every pause is a whole number of milliseconds: the backoff doubled without bounds, up to five
seconds. -/
theorem totalNanos_pause :
    (policy.pause attempt).totalNanos =
      cappedDoubling policy.backoffMs.toNat (attempt.toNat - 1) * 1000000 := by
  have capped : longestDelay.totalNanos = 5000 * 1000000 := rfl
  have longest : longestDelay.totalNanos ≤ Duration.longest.totalNanos := by decide
  rw [← cappedDoubling_clamped, pause, Duration.totalNanos_shorter, Duration.totalNanos_times,
    Duration.totalNanos_ofMillis, toNat_factor, Nat.min_assoc, Nat.min_eq_right longest, capped,
    Nat.mul_right_comm, cappedDoubling, Nat.mul_min_mul_right]

theorem delay_eq : policy.delay attempt =
    cappedDoubling policy.backoffMs.toNat (attempt.toNat - 1) := by
  rw [delay, Duration.millis_eq, totalNanos_pause]
  exact Nat.mul_div_cancel _ (by decide)

end Delay

end RetryPolicy

/-! ## The delays of a delivery -/

theorem Report.delays_handled {kind : Kind} {attempts : Attempts} :
    (Report.handled kind attempts).delays = attempts.delays := by
  unfold handled
  split <;> rfl

/-- A delivery waits after each of its attempts but the last, and none is made beyond those that are
allowed. -/
theorem process_delays {σ : Type} (handler : Handler σ) {policy : RetryPolicy}
    (allowed : 0 < policy.maxAttempts.toNat) (envelope : Envelope) (state : σ) :
    let report := (process handler policy envelope state).1
    report.attempts ≤ policy.maxAttempts.toNat ∧
      report.delays = (List.range' 1 (report.attempts - 1)).map fun number =>
        cappedDoubling policy.backoffMs.toNat (number - 1) := by
  intro report
  cases carries : envelope.event? handler.accepts with
  | none =>
      obtain ⟨kind, disposition, _, unhandled⟩ := process_unhandled carries
      simp [report, unhandled handler policy state rfl, Report.unhandled]
  | some event =>
      let made := tryHandler policy (handler.handle event) state
      have isReport : report = .handled event.kind made.1 :=
        congrArg Prod.fst (process_of_event?_eq_some carries)
      have tried : Tried (handler.handle event) state policy.maxAttempts.toNat made := by
        have tried := tried_tryHandler policy (handler.handle event) state
        rwa [Nat.max_eq_left allowed] at tried
      have ends : Retrying.Ends policy handler event (.start state) made := by
        apply Retrying.ends_tryFrom
        rw [UInt32.toNat_one]
        omega
      rw [isReport, Report.attempts_handled, Report.delays_handled, ends.delays]
      refine ⟨tried.bounded, List.map_congr_left fun number member => ?_⟩
      -- No number of an attempt leaves 32 bits, since as many attempts are allowed.
      have within : number < 2 ^ 32 := by
        have listed := List.mem_range'_1.mp member
        have bounded := tried.bounded
        have fits := policy.maxAttempts.toNat_lt
        change 1 ≤ number ∧ number < 1 + (made.1.count - 1) at listed
        omega
      rw [RetryPolicy.delay_eq, UInt32.toNat_ofNat', Nat.mod_eq_of_lt within]

/-- For every number of attempts and every backoff in whole milliseconds: the factor of a delay
loses no bit, and the delay after an attempt is exactly the backoff doubled once for each attempt
before, in unbounded numbers and up to five seconds. Hence delays never decrease, and a delivery
waits for the first of them in their order, for five seconds at most after each attempt but the last
one that is allowed. -/
theorem RetryPolicy.delay_doubles (maxAttempts : UInt32) (backoffMs : UInt64) :
    (∀ attempt : UInt32, (factor attempt).toNat = 2 ^ min (attempt.toNat - 1) 16) ∧
    let policy := RetryPolicy.new maxAttempts backoffMs
    let most := max maxAttempts.toNat 1
    (∀ attempt : UInt32,
      (policy.pause attempt).totalNanos =
          min (backoffMs.toNat * 2 ^ (attempt.toNat - 1)) 5000 * 1000000 ∧
        policy.delay attempt = min (backoffMs.toNat * 2 ^ (attempt.toNat - 1)) 5000) ∧
      (∀ earlier later : UInt32, earlier ≤ later → policy.delay earlier ≤ policy.delay later) ∧
      ∀ {σ : Type} (handler : Handler σ) (envelope : Envelope) (state : σ),
        let report := (process handler policy envelope state).1
        report.attempts ≤ most ∧
          report.delays = (List.range' 1 (report.attempts - 1)).map (fun number =>
            min (backoffMs.toNat * 2 ^ (number - 1)) 5000) ∧
          report.delays.sum ≤ 5000 * (most - 1) := by
  refine ⟨toNat_factor, ?_⟩
  intro policy most
  have allowed : policy.maxAttempts.toNat = most := toNat_maxAttempts_new
  refine ⟨fun attempt => ⟨?_, ?_⟩, fun earlier later atMost => ?_, ?_⟩
  · exact policy.totalNanos_pause attempt
  · exact policy.delay_eq attempt
  · rw [delay_eq, delay_eq]
    apply cappedDoubling_mono
    have numbers := UInt32.le_iff_toNat_le.mp atMost
    omega
  · intro σ handler envelope state report
    have positive : 0 < policy.maxAttempts.toNat := by
      rw [allowed]
      exact Nat.lt_of_lt_of_le Nat.one_pos (Nat.le_max_right _ 1)
    obtain ⟨bounded, delays⟩ := process_delays handler positive envelope state
    rw [allowed] at bounded
    refine ⟨bounded, delays, ?_⟩
    have each : ∀ delay ∈ report.delays, delay ≤ 5000 := by
      intro delay member
      rw [delays] at member
      obtain ⟨number, -, rfl⟩ := List.mem_map.mp member
      exact Nat.min_le_right _ _
    have number : report.delays.length = report.attempts - 1 := by
      rw [delays, List.length_map, List.length_range']
    calc report.delays.sum
      _ ≤ report.delays.length • 5000 := List.sum_le_card_nsmul _ _ each
      _ = 5000 * (report.attempts - 1) := by rw [number, smul_eq_mul, Nat.mul_comm]
      _ ≤ 5000 * (most - 1) := Nat.mul_le_mul_left _ (Nat.sub_le_sub_right bounded 1)

/-- The least backoff, doubled past the cap, and the greatest one, which no duration holds when it
is doubled sixteen times. -/
theorem RetryPolicy.delay_doubles_ofBounds :
    (13 : UInt32) ≤ 40 ∧ (new 40 1).delay 13 = 4096 ∧ (new 40 1).delay 40 = 5000 ∧
      (new 40 1).delay 13 ≤ (new 40 1).delay 40 ∧
      (new 40 18446744073709551615).delay 17 = 5000 := by
  obtain ⟨-, least, increasing, -⟩ := delay_doubles 40 1
  obtain ⟨-, greatest, -, -⟩ := delay_doubles 40 18446744073709551615
  have ordered : (13 : UInt32) ≤ 40 := by decide
  refine ⟨ordered, (least 13).2, ?_, increasing 13 40 ordered, ?_⟩
  · rw [(least 40).2]
    decide
  · rw [(greatest 17).2]
    decide

end DualStore
