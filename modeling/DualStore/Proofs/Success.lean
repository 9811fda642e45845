/-!
Contract: when a computation that may fail succeeds.

Owns: the success of a mapped computation, of two in a row, and of one whose fault is dropped.

Does not own: why a computation fails.
-/

namespace DualStore

variable {ε α β : Type} {result : Except ε α}

theorem map_eq_ok_iff {f : α → β} {image : β} :
    result.map f = .ok image ↔ ∃ value, result = .ok value ∧ f value = image := by
  cases result <;> simp [Except.map]

theorem bind_eq_ok_iff {next : α → Except ε β} {last : β} :
    result >>= next = .ok last ↔ ∃ value, result = .ok value ∧ next value = .ok last := by
  cases result <;> simp [bind, Except.bind]

theorem toOption_eq_some_iff {value : α} :
    result.toOption = some value ↔ result = .ok value := by
  cases result <;> simp [Except.toOption]

end DualStore
