/-!
Contract: the bounds of integers of fixed width.

Owns: the largest integer of each width in use, as plain literals. The least signed integer is one
below the negated largest.

Does not own: which width a field has.
-/

namespace DualStore.Number

abbrev largestInt32 : Nat := 2147483647

abbrev largestInt64 : Nat := 9223372036854775807

abbrev largestNat16 : Nat := 65535

abbrev largestNat32 : Nat := 4294967295

abbrev largestNat64 : Nat := 18446744073709551615

/-- Whether an integer fits a signed width with the given largest integer. -/
def fits (largest : Nat) (n : Int) : Bool := -(largest : Int) - 1 ≤ n && n ≤ largest

theorem fits_iff {largest : Nat} {n : Int} :
    fits largest n = true ↔ -(largest : Int) - 1 ≤ n ∧ n ≤ largest := by
  rw [fits, Bool.and_eq_true, decide_eq_true_eq, decide_eq_true_eq]

example : (largestInt32 : Int) = Int32.maxValue.toInt ∧
    (largestInt64 : Int) = Int64.maxValue.toInt := by decide

example : largestNat16 + 1 = UInt16.size ∧ largestNat32 + 1 = UInt32.size ∧
    largestNat64 + 1 = UInt64.size := by decide

end DualStore.Number
