import DualStore.Time.Duration
import Mathlib.Tactic.Ring

/-!
Contract: durations counted in nanoseconds.

Owns:
- the nanoseconds of a duration, which tell it completely;
- its multiples in unbounded numbers: they are exact up to the longest duration and stay there;
- the shorter of two durations, and whole milliseconds.

Does not own: which durations are waited for.
-/

namespace DualStore.Time.Duration

open DualStore.Number

def totalNanos (duration : Duration) : Nat :=
  duration.seconds.toNat * 1000000000 + duration.nanos.toNat

theorem nanos_lt (duration : Duration) : duration.nanos.toNat < 1000000000 :=
  UInt32.lt_iff_toNat_lt.mp duration.withinSecond

theorem totalNanos_longest :
    longest.totalNanos = largestNat64 * 1000000000 + 999999999 := rfl

theorem totalNanos_ofMillis (millis : UInt64) :
    (ofMillis millis).totalNanos = millis.toNat * 1000000 := by
  have nanos : (ofMillis millis).nanos.toNat = millis.toNat % 1000 * 1000000 :=
    toNat_restOfMillis millis
  have seconds : (ofMillis millis).seconds.toNat = millis.toNat / 1000 :=
    UInt64.toNat_div millis 1000
  rw [totalNanos, nanos, seconds]
  omega

theorem millis_eq (duration : Duration) : duration.millis = duration.totalNanos / 1000000 := by
  rw [millis, totalNanos]
  omega

/-! ## Multiples -/

theorem word?_cases (n : Nat) :
    (∃ word, word? n = some word ∧ word.toNat = n) ∨ word? n = none ∧ largestNat64 < n := by
  by_cases fits : n ≤ largestNat64
  · refine Or.inl ⟨.ofNat n, if_pos fits, ?_⟩
    rw [UInt64.toNat_ofNat']
    exact Nat.mod_eq_of_lt (Nat.lt_succ_of_le fits)
  · exact Or.inr ⟨if_neg fits, Nat.not_le.mp fits⟩

section Times

variable (duration : Duration) (factor : UInt32)

/-- The nanoseconds within a second leave room for any factor. -/
theorem toNat_nanos_mul :
    (duration.nanos.toUInt64 * factor.toUInt64).toNat =
      duration.nanos.toNat * factor.toNat := by
  rw [UInt64.toNat_mul, UInt32.toNat_toUInt64, UInt32.toNat_toUInt64]
  apply Nat.mod_eq_of_lt
  calc duration.nanos.toNat * factor.toNat
    _ < 1000000000 * 2 ^ 32 :=
        Nat.mul_lt_mul_of_lt_of_lt duration.nanos_lt factor.toNat_lt
    _ < 2 ^ 64 := by decide

/-- Either the multiple is told exactly, or it is longer than the longest duration. -/
theorem times?_cases :
    (∃ multiple, duration.times? factor = some multiple ∧
        multiple.totalNanos = duration.totalNanos * factor.toNat) ∨
      duration.times? factor = none ∧
        longest.totalNanos < duration.totalNanos * factor.toNat := by
  let nanos := duration.nanos.toUInt64 * factor.toUInt64
  have isNanos : nanos.toNat = duration.nanos.toNat * factor.toNat :=
    duration.toNat_nanos_mul factor
  have carried : (nanos / 1000000000).toNat = nanos.toNat / 1000000000 :=
    UInt64.toNat_div nanos 1000000000
  have total : duration.totalNanos * factor.toNat =
      duration.seconds.toNat * factor.toNat * 1000000000 + nanos.toNat := by
    rw [isNanos, totalNanos]
    ring
  have opened : duration.times? factor =
      (word? (duration.seconds.toNat * factor.toNat)).bind fun multiple =>
        (word? (multiple.toNat + (nanos / 1000000000).toNat)).bind fun seconds =>
          some ⟨seconds, restOfNanos nanos, restOfNanos_lt nanos⟩ := rfl
  rw [opened, total, totalNanos_longest, carried]
  rcases word?_cases (duration.seconds.toNat * factor.toNat) with
    ⟨multiple, isMultiple, multiple_eq⟩ | ⟨noMultiple, tooMany⟩
  · rw [isMultiple, Option.bind_some, multiple_eq]
    rcases word?_cases (duration.seconds.toNat * factor.toNat + nanos.toNat / 1000000000) with
      ⟨seconds, isSeconds, seconds_eq⟩ | ⟨noSeconds, tooMany⟩
    · refine Or.inl ⟨_, by rw [isSeconds, Option.bind_some], ?_⟩
      rw [totalNanos, toNat_restOfNanos, seconds_eq]
      omega
    · refine Or.inr ⟨by rw [noSeconds, Option.bind_none], ?_⟩
      omega
  · refine Or.inr ⟨by rw [noMultiple, Option.bind_none], ?_⟩
    omega

theorem totalNanos_times :
    (duration.times factor).totalNanos =
      min (duration.totalNanos * factor.toNat) longest.totalNanos := by
  have bounded (other : Duration) : other.totalNanos ≤ longest.totalNanos := by
    have nanos := other.nanos_lt
    have seconds : other.seconds.toNat ≤ largestNat64 := Nat.le_of_lt_succ other.seconds.toNat_lt
    rw [totalNanos_longest, totalNanos]
    omega
  rw [times]
  rcases duration.times?_cases factor with ⟨multiple, told, exactly⟩ | ⟨tooLong, longer⟩
  · rw [told, Option.getD_some, ← exactly, Nat.min_eq_left (bounded multiple)]
  · rw [tooLong, Option.getD_none, Nat.min_eq_right (Nat.le_of_lt longer)]

end Times

theorem totalNanos_shorter (left right : Duration) :
    (left.shorter right).totalNanos = min left.totalNanos right.totalNanos := by
  have leftNanos := left.nanos_lt
  have rightNanos := right.nanos_lt
  rw [shorter]
  simp only [UInt64.lt_iff_toNat_lt, ← UInt64.toNat_inj, UInt32.le_iff_toNat_le]
  split
  · rename_i isLeft
    rw [totalNanos, totalNanos]
    omega
  · rename_i isRight
    rw [totalNanos, totalNanos]
    omega

end DualStore.Time.Duration
