import DualStore.Proofs.Record.Members
import DualStore.Proofs.Record.Reading

/-!
Contract: the decoding of events, read off the draft that a body spells.

Owns:
- no key names two fields of one kind;
- a body decodes to an event exactly where it spells the members or the values of that event;
- what a body decodes to depends on its members or its values only.

Does not own: what the members and values depend on.
-/

namespace DualStore

open DualStore.Json DualStore.Record

/-- No key names two fields of one kind. -/
theorem Kind.distinct (kind : Kind) : Distinct kind.shape.fields := by
  cases kind <;> exact distinct_of_nodup (by decide)

namespace Event

variable {kind : Kind} {body : List UInt8}

/-- The event that members are. -/
def ofMembers? (kind : Kind) (members : List (String × Draft)) : Option Event :=
  (Record.ofMembers? FieldType.ofDraft? kind.shape.fields members).map (ofValues kind)

/-- The event that the values of a list are. -/
def ofItems? (kind : Kind) (items : List Draft) : Option Event :=
  (Record.ofItems? FieldType.ofDraft? kind.shape.fields items).map (ofValues kind)

/-- A body decodes to an event where it spells the members or the values of that event. -/
theorem decode_eq_ok_iff {event : Event} :
    decode kind body = .ok event ↔
      (∃ members, Spells body (.members (keyed members)) ∧ ofMembers? kind members = some event) ∨
      (∃ items, Spells body (.items items) ∧ ofItems? kind items = some event) := by
  rw [decode, map_eq_ok_iff]
  simp only [Shape.read_eq_ok_iff kind.distinct, ofMembers?, ofItems?, Option.map_eq_some_iff]
  constructor
  · rintro ⟨values, ⟨members, spelled, areValues⟩ | ⟨items, spelled, areValues⟩, isEvent⟩
    · exact Or.inl ⟨members, spelled, values, areValues, isEvent⟩
    · exact Or.inr ⟨items, spelled, values, areValues, isEvent⟩
  · rintro (⟨members, spelled, values, areValues, isEvent⟩ |
      ⟨items, spelled, values, areValues, isEvent⟩)
    · exact ⟨values, Or.inl ⟨members, spelled, areValues⟩, isEvent⟩
    · exact ⟨values, Or.inr ⟨items, spelled, areValues⟩, isEvent⟩

theorem keyed_injective {members others : List (String × Draft)}
    (same : keyed members = keyed others) :
    members = others := by
  refine List.map_injective_iff.mpr ?_ same
  rintro ⟨key, value⟩ ⟨name, other⟩ sameMember
  cases sameMember
  rfl

/-- An object decodes to what its members are. -/
theorem decode_members_eq_ok_iff {members : List (String × Draft)} {event : Event}
    (spelled : Spells body (.members (keyed members))) :
    decode kind body = .ok event ↔ ofMembers? kind members = some event := by
  rw [decode_eq_ok_iff]
  constructor
  · rintro (⟨others, alsoSpelled, isEvent⟩ | ⟨items, alsoSpelled, _⟩)
    · rw [keyed_injective (Draft.members.inj (spelled.unique alsoSpelled))]
      exact isEvent
    · cases spelled.unique alsoSpelled
  · exact fun isEvent => Or.inl ⟨members, spelled, isEvent⟩

/-- A list decodes to what its values are. -/
theorem decode_items_eq_ok_iff {items : List Draft} {event : Event}
    (spelled : Spells body (.items items)) :
    decode kind body = .ok event ↔ ofItems? kind items = some event := by
  rw [decode_eq_ok_iff]
  constructor
  · rintro (⟨members, alsoSpelled, _⟩ | ⟨others, alsoSpelled, isEvent⟩)
    · cases spelled.unique alsoSpelled
    · rw [Draft.items.inj (spelled.unique alsoSpelled)]
      exact isEvent
  · exact fun isEvent => Or.inr ⟨items, spelled, isEvent⟩

end Event

end DualStore
