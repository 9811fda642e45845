import DualStore.Proofs.Event.Decoding
import DualStore.Proofs.Record.Interruption

/-!
Contract: a truncated body is never taken for a whole one.

Owns:
- every piece of a body that decodes fails to decode, if it ends before the last byte that is no
  blank;
- if the body is a list, or an object whose members are all taken by fields, the failure says that
  the piece is truncated.

Does not own: objects with other members. What is there of their values is read without care, so a
number that is cut off may be malformed.
-/

namespace DualStore.Event

open DualStore.Json DualStore.Record

section Pieces

variable {kind : Kind} {piece missing : List UInt8} {event : Event}

/-- A body that decodes is a list or an object. -/
theorem exists_nested_of_decode {body : List UInt8} (decoded : decode kind body = .ok event) :
    ∃ draft, Spells body draft ∧ draft.isNested = true := by
  rcases decode_eq_ok_iff.mp decoded with ⟨members, spelled, _⟩ | ⟨items, spelled, _⟩
  · exact ⟨_, spelled, rfl⟩
  · exact ⟨_, spelled, rfl⟩

variable (decoded : decode kind (piece ++ missing) = .ok event)
  (visible : ∃ b ∈ missing, isBlankByte b = false)
include decoded visible

theorem exists_failure_of_piece : ∃ failure, decode kind piece = .error failure := by
  obtain ⟨draft, spelled, nested⟩ := exists_nested_of_decode decoded
  cases taken : decode kind piece with
  | error failure => exact ⟨failure, rfl⟩
  | ok other =>
      obtain ⟨inside, alsoSpelled, alsoNested⟩ := exists_nested_of_decode taken
      exact absurd alsoSpelled (spelled.not_piece visible nested alsoNested)

theorem truncated_of_list {items : List Draft}
    (spelled : Spells (piece ++ missing) (.items items)) :
    decode kind piece = .error .truncated := by
  obtain ⟨values, isRecord, _⟩ :=
    Option.map_eq_some_iff.mp ((decode_items_eq_ok_iff spelled).mp decoded)
  rw [decode, Shape.read_truncated_items visible spelled isRecord]
  rfl

theorem truncated_of_object {members : List (String × Draft)}
    (spelled : Spells (piece ++ missing) (.members (keyed members)))
    (known : ∀ member ∈ members, recognises kind.shape.fields member.1 = true) :
    decode kind piece = .error .truncated := by
  obtain ⟨values, isRecord, _⟩ :=
    Option.map_eq_some_iff.mp ((decode_members_eq_ok_iff spelled).mp decoded)
  rw [decode, Shape.read_truncated_members visible kind.distinct spelled isRecord known]
  rfl

end Pieces

/-- A truncated body is never taken for a whole one: of a body that decodes, every piece that ends
before the last byte that is no blank fails to decode. If the body is a list, or an object whose
members are all taken by fields, the failure is a truncation, wherever the body was cut. -/
theorem decode_piece_eq_error (kind : Kind) {piece missing : List UInt8} {event : Event}
    (decoded : decode kind (piece ++ missing) = .ok event)
    (visible : ∃ b ∈ missing, isBlankByte b = false) :
    (∃ failure, decode kind piece = .error failure) ∧
    (((∃ items, Spells (piece ++ missing) (.items items)) ∨
        ∃ members, Spells (piece ++ missing) (.members (keyed members)) ∧
          ∀ member ∈ members, recognises kind.shape.fields member.1 = true) →
      decode kind piece = .error .truncated) := by
  refine ⟨exists_failure_of_piece decoded visible, ?_⟩
  rintro (⟨items, spelled⟩ | ⟨members, spelled, known⟩)
  · exact truncated_of_list decoded visible spelled
  · exact truncated_of_object decoded visible spelled known

/-- A deletion that is cut inside a pair of surrogates, and one with a member that no field takes,
cut behind the sign of its number. -/
theorem decode_piece_eq_error_deletion :
    decode .contentDeleted (Text.Utf8.encode "\x7b\"postId\": \"\\ud83d\\u".toList) =
      .error .truncated ∧
    ∃ failure, decode .contentDeleted (Text.Utf8.encode "\x7b\"x\": -".toList) =
      .error failure := by
  have spelled : Spells
      (Text.Utf8.encode "\x7b\"postId\": \"\\ud83d\\u".toList ++
        Text.Utf8.encode "de00\", \"operatorId\": 12\x7d".toList)
      (.members (keyed
        [("postId", .text (some "😀")), ("operatorId", .number (some (.whole 12)))])) :=
    spells_iff_scan.mpr (by decide +kernel)
  have decoded : decode .contentDeleted
      (Text.Utf8.encode "\x7b\"postId\": \"\\ud83d\\u".toList ++
        Text.Utf8.encode "de00\", \"operatorId\": 12\x7d".toList) =
      .ok (.contentDeleted { id := "😀", operatorId := some 12 }) :=
    (decode_members_eq_ok_iff spelled).mpr (by decide +kernel)
  have wider : Spells
      (Text.Utf8.encode "\x7b\"x\": -".toList ++ Text.Utf8.encode "5, \"id\": \"p\"\x7d".toList)
      (.members (keyed [("x", .number (some (.whole (-5)))), ("id", .text (some "p"))])) :=
    spells_iff_scan.mpr (by decide +kernel)
  have alsoDecoded : decode .contentDeleted
      (Text.Utf8.encode "\x7b\"x\": -".toList ++ Text.Utf8.encode "5, \"id\": \"p\"\x7d".toList) =
      .ok (.contentDeleted { id := "p", operatorId := none }) :=
    (decode_members_eq_ok_iff wider).mpr (by decide +kernel)
  exact ⟨(decode_piece_eq_error .contentDeleted decoded ⟨0x7D, by decide +kernel, rfl⟩).2
      (Or.inr ⟨_, spelled, by decide⟩),
    (decode_piece_eq_error .contentDeleted alsoDecoded ⟨0x7D, by decide +kernel, rfl⟩).1⟩

end DualStore.Event
