import DualStore.Time.Reading

/-!
Contract: what a count since the epoch is resolved to.

Owns:
- a count of seconds, and one of milliseconds from after the epoch or without a fraction of a
  second, is resolved to the instant that it stands for;
- a count of milliseconds from before the epoch with a fraction of a second is not resolved, even
  where that instant can be represented.

Does not own: times that are written as texts.
-/

namespace DualStore.Time

open DualStore.Record

/-- The instant that a count stands for: so many seconds after the epoch below the threshold, and
exactly so many milliseconds from it on, if that instant can be represented. -/
def countedInstant? (count : Int) : Option Instant :=
  if count.natAbs < millisecondThreshold then some ⟨count, 0⟩ else instantOfMillis? count

/-- A count of milliseconds from before the epoch, and not of whole seconds. -/
def HasFractionBefore (count : Int) : Prop :=
  count ≤ -(millisecondThreshold : Int) ∧ count % 1000 ≠ 0

instance (count : Int) : Decidable (HasFractionBefore count) := by
  unfold HasFractionBefore
  infer_instance

section Count

variable {count : Int}

theorem isRepresentable_of_small (small : count.natAbs < millisecondThreshold) :
    Instant.isRepresentable ⟨count, 0⟩ = true := by
  unfold millisecondThreshold at small
  rw [Instant.isRepresentable_iff]
  dsimp only
  omega

theorem instantOfCount?_of_small (small : count.natAbs < millisecondThreshold) :
    instantOfCount? count = some ⟨count, 0⟩ := by
  rw [instantOfCount?, if_pos small]
  exact if_pos (isRepresentable_of_small small)

/-- Division toward zero and division rounded down agree unless a negative number leaves a rest. -/
theorem instantOfCount?_of_millis (large : millisecondThreshold ≤ count.natAbs)
    (whole : 0 ≤ count ∨ count % 1000 = 0) : instantOfCount? count = instantOfMillis? count := by
  have divides : 0 ≤ count ∨ (1000 : Int) ∣ count := whole.imp_right Int.dvd_of_emod_eq_zero
  have rest : ¬ count % 1000 * 1000000 < 0 := by omega
  have nanos : (count % 1000 * 1000000).toNat = (count % 1000).toNat * 1000000 := by omega
  rw [instantOfCount?, if_neg (Nat.not_lt.mpr large), Int.tdiv_eq_ediv, Int.tmod_eq_emod,
    if_pos divides, if_pos divides, Int.add_zero, Int.natCast_zero, Int.sub_zero]
  dsimp only
  rw [if_neg rest, nanos]
  rfl

/-- Division toward zero leaves a negative rest, which no count of nanoseconds is. -/
theorem instantOfCount?_of_fraction (fraction : HasFractionBefore count) :
    instantOfCount? count = none := by
  obtain ⟨before, rest⟩ := fraction
  unfold millisecondThreshold at before
  have leavesRest : ¬(0 ≤ count ∨ (1000 : Int) ∣ count) := by omega
  rw [instantOfCount?, if_neg (by unfold millisecondThreshold; omega), Int.tmod_eq_emod,
    if_neg leavesRest]
  exact if_pos (by omega)

theorem instantOfCount?_eq (count : Int) :
    instantOfCount? count = if HasFractionBefore count then none else countedInstant? count := by
  split
  · rename_i fraction
    exact instantOfCount?_of_fraction fraction
  · rename_i noFraction
    rw [countedInstant?]
    split
    · rename_i small
      exact instantOfCount?_of_small small
    · rename_i large
      rw [HasFractionBefore] at noFraction
      exact instantOfCount?_of_millis (Nat.not_lt.mp large) (by omega)

end Count

/-- Every count of seconds is resolved to the instant so many seconds after the epoch. A count of
milliseconds is resolved to the instant exactly so many milliseconds after it, or to nothing where
that instant cannot be represented, except when it is from before the epoch and has a fraction of a
second: then it is never resolved. The instant is the same at every offset. -/
theorem resolve_epoch_eq_iff (count : Int64) (offset : Offset) :
    let resolved := (WrittenTime.epoch count).resolve offset
    let instant? := countedInstant? count.toInt
    (count.toInt.natAbs < millisecondThreshold →
        resolved = some ⟨⟨count.toInt, 0⟩, offset⟩) ∧
      (resolved = instant?.map (fun instant => ⟨instant, offset⟩) ↔
        ¬(HasFractionBefore count.toInt ∧ instant?.isSome = true)) ∧
      (HasFractionBefore count.toInt → resolved = none) ∧
      ∀ other, ((WrittenTime.epoch count).resolve other).map (·.instant) =
        resolved.map (·.instant) := by
  intro resolved instant?
  have isResolved (offset : Offset) : (WrittenTime.epoch count).resolve offset =
      (if HasFractionBefore count.toInt then none else instant?).map
        (fun instant => ⟨instant, offset⟩) := by
    rw [WrittenTime.resolve, instantOfCount?_eq]
  refine ⟨?_, ?_, ?_, ?_⟩
  · intro small
    change (WrittenTime.epoch count).resolve offset = _
    rw [WrittenTime.resolve, instantOfCount?_of_small small]
    rfl
  · change (WrittenTime.epoch count).resolve offset = _ ↔ _
    rw [isResolved]
    by_cases fraction : HasFractionBefore count.toInt
    · rw [if_pos fraction]
      cases instant? with
      | none => simp
      | some instant => simp [fraction]
    · simp [fraction]
  · intro fraction
    change (WrittenTime.epoch count).resolve offset = _
    rw [isResolved, if_pos fraction]
    rfl
  · intro other
    change _ = ((WrittenTime.epoch count).resolve offset).map _
    rw [isResolved, isResolved, Option.map_map, Option.map_map]
    rfl

/-- One millisecond and a billion seconds before the epoch is an instant of the year 1938, but its
count is not resolved. -/
theorem unresolved_of_fractionBefore :
    (WrittenTime.epoch (-1000000000001)).resolve { seconds := 28800 } = none ∧
      countedInstant? (-1000000000001) = some ⟨-1000000001, 999000000⟩ ∧
      (Instant.mk (-1000000001) 999000000).isRepresentable = true := by
  decide

end DualStore.Time
