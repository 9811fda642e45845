import DualStore.Proofs.Event.RoundTrip

/-!
Contract: the two forms of an event, by name and by position.

Owns:
- values by position are the record that they are under the names of their fields;
- values for which no field is left make up no record;
- from this, for events: a list decodes to what the object decodes to that names its values.

Does not own: other names, and members in another order.
-/

namespace DualStore

namespace Record

/-! ## Values and the names of their fields -/

/-- The members that hold values under the names of the fields they stand for. -/
def named (fields : List Field) (items : List α) : List (String × α) :=
  (fields.map Field.name).zip items

section Positions

variable {α : Type} {read : (type : FieldType) → α → Option type.Holds} {field : Field}
  {fields : List Field} {item : α} {items : List α}

@[simp] theorem named_nil : named fields ([] : List α) = [] := List.zip_nil_right

theorem named_cons :
    named (field :: fields) (item :: items) = (field.name, item) :: named fields items := rfl

/-- Distinct fields do not answer to each other's names. -/
theorem Distinct.answersTo_later (distinct : Distinct (field :: fields)) {later : Field}
    (isLater : later ∈ fields) : field.answersTo later.name = false := by
  have apart := (List.pairwise_cons.mp distinct).1 later isLater later.name
  rw [← Bool.not_eq_true]
  intro answers
  rw [answersTo_name] at apart
  cases apart answers

theorem given_named_of_other (other : ∀ later ∈ fields, field.answersTo later.name = false) :
    field.given (named fields items) = [] := by
  induction fields generalizing items with
  | nil => rfl
  | cons later fields inductionHypothesis =>
      cases items with
      | nil => rfl
      | cons item items =>
          rw [named_cons, Field.given_cons, other later List.mem_cons_self]
          exact inductionHypothesis fun last isLast => other last (List.mem_cons_of_mem _ isLast)

/-- The first value is read by the first field, and the other values by the others. -/
theorem ofMembers?_named_cons (distinct : Distinct (field :: fields)) :
    ofMembers? read (field :: fields) (named (field :: fields) (item :: items)) =
      (read field.type item).bind fun value =>
        (ofMembers? read fields (named fields items)).map fun values => (value, values) := by
  have found : field.given (named (field :: fields) (item :: items)) = [item] := by
    rw [named_cons, Field.given_cons, if_pos (answersTo_name field),
      given_named_of_other fun later isLater => distinct.answersTo_later isLater]
  have own : field.ofMembers? read (named (field :: fields) (item :: items)) =
      read field.type item := by
    rw [Field.ofMembers?, found]
  have others : ofMembers? read fields (named (field :: fields) (item :: items)) =
      ofMembers? read fields (named fields items) := by
    refine ofMembers?_congr fun later isLater => Field.ofMembers?_congr ?_
    have apart := (List.pairwise_cons.mp distinct).1 later isLater _ (answersTo_name field)
    rw [named_cons, Field.given_cons, apart]
    rfl
  rw [ofMembers?, own, others]

/-- Where no value is left, every field that is left is absent in both forms. -/
theorem ofMembers?_nil_eq_ofItems? : ofMembers? read fields [] = ofItems? read fields [] := by
  induction fields with
  | nil => rfl
  | cons field fields inductionHypothesis =>
      rw [ofMembers?, ofItems?, inductionHypothesis]
      rfl

/-- Values by position are the record that they are under the names of their fields. -/
theorem ofMembers?_named (distinct : Distinct fields) (fit : items.length ≤ fields.length) :
    ofMembers? read fields (named fields items) = ofItems? read fields items := by
  induction fields generalizing items with
  | nil =>
      cases items with
      | nil => rfl
      | cons item items => cases fit
  | cons field fields inductionHypothesis =>
      cases items with
      | nil => rw [named_nil, ofMembers?_nil_eq_ofItems?]
      | cons item items =>
          rw [ofMembers?_named_cons distinct, ofItems?,
            inductionHypothesis (List.pairwise_cons.mp distinct).2 (Nat.le_of_succ_le_succ fit)]

/-- Values for which no field is left make up no record. -/
theorem ofItems?_of_surplus (surplus : fields.length < items.length) :
    ofItems? read fields items = none := by
  induction fields generalizing items with
  | nil =>
      cases items with
      | nil => cases surplus
      | cons item items => rfl
  | cons field fields inductionHypothesis =>
      cases items with
      | nil => cases surplus
      | cons item items =>
          rw [ofItems?, inductionHypothesis (Nat.lt_of_succ_lt_succ surplus)]
          cases read field.type item <;> rfl

end Positions

end Record

/-! ## Events -/

namespace Event

open DualStore.Json DualStore.Record

/-- A list with at most one value for each field decodes exactly where the object decodes that holds
these values under the names of the first fields, and to the same event. A list with a value for
which no field is left does not decode, whatever that value is. -/
theorem decode_list_iff_named (kind : Kind) {body : List UInt8} {items : List Draft}
    (listed : Spells body (.items items)) :
    (items.length ≤ kind.shape.fields.length →
      ∀ object, Spells object (.members (keyed (named kind.shape.fields items))) →
        ∀ event, decode kind body = .ok event ↔ decode kind object = .ok event) ∧
    (kind.shape.fields.length < items.length →
      ∃ failure, decode kind body = .error failure) := by
  constructor
  · intro fit object spelled event
    rw [decode_items_eq_ok_iff listed, decode_members_eq_ok_iff spelled, ofItems?, ofMembers?,
      ofMembers?_named kind.distinct fit]
  · intro surplus
    cases decoded : decode kind body with
    | error failure => exact ⟨failure, rfl⟩
    | ok event =>
        rw [decode_items_eq_ok_iff listed, ofItems?, ofItems?_of_surplus surplus] at decoded
        cases decoded

/-- A deletion without its operator in both forms, and a list with a value too many. -/
theorem decode_list_iff_named_deletion :
    let deletion := Event.contentDeleted { id := "p", operatorId := none }
    decode .contentDeleted (Text.Utf8.encode "[\"p\"]".toList) = .ok deletion ∧
      decode .contentDeleted (Text.Utf8.encode "\x7b\"id\": \"p\"\x7d".toList) = .ok deletion ∧
      ∃ failure, decode .contentDeleted (Text.Utf8.encode "[\"p\", null, []]".toList) =
        .error failure := by
  intro deletion
  have listed : Spells (Text.Utf8.encode "[\"p\"]".toList) (.items [.text (some "p")]) :=
    spells_iff_scan.mpr (by decide +kernel)
  have spelled : Spells (Text.Utf8.encode "\x7b\"id\": \"p\"\x7d".toList)
      (.members (keyed (named Kind.contentDeleted.shape.fields [.text (some "p")]))) :=
    spells_iff_scan.mpr (by decide +kernel)
  have surplus : Spells (Text.Utf8.encode "[\"p\", null, []]".toList)
      (.items [.text (some "p"), .null, .items []]) :=
    spells_iff_scan.mpr (by decide +kernel)
  have isDeletion : decode .contentDeleted (Text.Utf8.encode "[\"p\"]".toList) = .ok deletion :=
    (decode_items_eq_ok_iff listed).mpr (by decide +kernel)
  exact ⟨isDeletion,
    ((decode_list_iff_named .contentDeleted listed).1 (by decide) _ spelled _).mp isDeletion,
    (decode_list_iff_named .contentDeleted surplus).2 (by decide)⟩

end Event

end DualStore
