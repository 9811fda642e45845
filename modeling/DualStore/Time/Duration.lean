import DualStore.Number.Bounds

/-!
Contract: spans of time of a fixed width.

Owns:
- durations of whole seconds and the nanoseconds of less than one more;
- the duration of so many milliseconds, a duration so many times over and the shorter one of two.

Does not own: instants, and what is waited for.
-/

namespace DualStore.Time

open DualStore.Number

/-- A span of time: whole seconds, and nanoseconds within one more second. -/
structure Duration where
  seconds : UInt64
  nanos : UInt32
  withinSecond : nanos < 1000000000 := by decide
deriving DecidableEq, Repr

namespace Duration

def longest : Duration := { seconds := 18446744073709551615, nanos := 999999999 }

/-- What remains of milliseconds behind the full seconds, as nanoseconds. -/
def restOfMillis (millis : UInt64) : UInt32 := (millis % 1000).toUInt32 * 1000000

theorem toNat_restOfMillis (millis : UInt64) :
    (restOfMillis millis).toNat = millis.toNat % 1000 * 1000000 := by
  have rest : millis.toNat % 1000 < 1000 := Nat.mod_lt _ (by decide)
  rw [restOfMillis, UInt32.toNat_mul, UInt64.toNat_toUInt32, UInt64.toNat_mod]
  change millis.toNat % 1000 % 2 ^ 32 * 1000000 % 2 ^ 32 = _
  rw [Nat.mod_eq_of_lt (by omega : millis.toNat % 1000 < 2 ^ 32)]
  exact Nat.mod_eq_of_lt (by omega)

def ofMillis (millis : UInt64) : Duration where
  seconds := millis / 1000
  nanos := restOfMillis millis
  withinSecond := by
    rw [UInt32.lt_iff_toNat_lt, toNat_restOfMillis]
    change millis.toNat % 1000 * 1000000 < 1000000000
    omega

/-- The whole milliseconds of a duration. -/
def millis (duration : Duration) : Nat :=
  duration.seconds.toNat * 1000 + duration.nanos.toNat / 1000000

/-- A number as a word of 64 bits, unless it is out of range. -/
def word? (n : Nat) : Option UInt64 := if n ≤ largestNat64 then some (.ofNat n) else none

/-- What remains of nanoseconds behind the full seconds. -/
def restOfNanos (nanos : UInt64) : UInt32 := (nanos % 1000000000).toUInt32

theorem toNat_restOfNanos (nanos : UInt64) :
    (restOfNanos nanos).toNat = nanos.toNat % 1000000000 := by
  have rest : nanos.toNat % 1000000000 < 1000000000 := Nat.mod_lt _ (by decide)
  rw [restOfNanos, UInt64.toNat_toUInt32, UInt64.toNat_mod]
  change nanos.toNat % 1000000000 % 2 ^ 32 = _
  exact Nat.mod_eq_of_lt (by omega)

theorem restOfNanos_lt (nanos : UInt64) : restOfNanos nanos < 1000000000 := by
  rw [UInt32.lt_iff_toNat_lt, toNat_restOfNanos]
  exact Nat.mod_lt _ (by decide)

/-- A duration so many times over, if its seconds stay within their width. Full seconds of the
nanoseconds are carried. -/
def times? (duration : Duration) (factor : UInt32) : Option Duration := do
  let nanos := duration.nanos.toUInt64 * factor.toUInt64
  let multiple ← word? (duration.seconds.toNat * factor.toNat)
  let seconds ← word? (multiple.toNat + (nanos / 1000000000).toNat)
  return { seconds, nanos := restOfNanos nanos, withinSecond := restOfNanos_lt nanos }

/-- A duration so many times over; the longest one where that is out of range. -/
def times (duration : Duration) (factor : UInt32) : Duration :=
  (duration.times? factor).getD longest

/-- The shorter one: seconds are compared first. -/
def shorter (left right : Duration) : Duration :=
  if left.seconds < right.seconds ∨ left.seconds = right.seconds ∧ left.nanos ≤ right.nanos then
    left
  else right

end Duration

example : (({ seconds := 1, nanos := 600000000 } : Duration).times 2).millis = 3200 := by decide

end DualStore.Time
