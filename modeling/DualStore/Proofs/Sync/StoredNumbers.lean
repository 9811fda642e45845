import DualStore.Proofs.Sync.Keys
import Mathlib.Algebra.Group.Int.Defs

/-!
Contract: what records take from the numbers of a post.

Owns:
- integers of either width, which are read as the same number: a post whose integers are stored in
  the other width is projected to the same record;
- from this, exactly which posts may be indexed. Of the stored status only the low 32 bits are
  compared, so that a status of 64 bits may pass for the published one.

Does not own: numbers with a fraction.
-/

namespace DualStore

open Memory

/-! ## Integers of either width -/

namespace Bson

/-- The integer that is stored, in either width; a missing one counts as zero. -/
def integer? : Option Bson → Option Int64
  | none => some 0
  | some (.int32 n) => some n.toInt64
  | some (.int64 n) => some n
  | some _ => none

/-- The mark of a deletion that is stored: a truth value, or whether an integer is not zero. -/
def mark? : Option Bson → Option Bool
  | some (.boolean marked) => some marked
  | stored => (integer? stored).map (· != 0)

namespace Fields

/-- Under each key two posts store the same, or the same integer in different widths. -/
def SameUpToWidth (fields restored : Fields) : Prop :=
  ∀ key, restored.get? key = fields.get? key ∨
    ∃ n : Int32,
      (fields.get? key = some (.int32 n) ∧ restored.get? key = some (.int64 n.toInt64)) ∨
      (fields.get? key = some (.int64 n.toInt64) ∧ restored.get? key = some (.int32 n))

variable {fields restored : Fields} {n : Int64} {marked : Bool}

theorem int64_of_integer? {key : String} (stored : integer? (fields.get? key) = some n) :
    fields.int64 key = n := by
  unfold int64
  cases found : fields.get? key with
  | none => simpa [found, integer?] using stored
  | some value => cases value <;> simp_all [integer?]

theorem flag_of_mark? {key : String} (stored : mark? (fields.get? key) = some marked) :
    fields.flag key = marked := by
  unfold flag int64
  cases found : fields.get? key with
  | none => simpa [found, mark?, integer?] using stored
  | some value => cases value <;> simp_all [mark?, integer?]

section Restored

variable (same : fields.SameUpToWidth restored) (key : String)
include same

theorem int64_restored : restored.int64 key = fields.int64 key := by
  rcases same key with equal | ⟨n, ⟨was, now⟩ | ⟨was, now⟩⟩ <;> simp [int64, *]

theorem int32_restored : restored.int32 key = fields.int32 key := by
  rw [int32, int32, int64_restored same]

theorem text_restored : restored.text key = fields.text key := by
  rcases same key with equal | ⟨n, ⟨was, now⟩ | ⟨was, now⟩⟩ <;> simp [text, *]

theorem texts_restored : restored.texts key = fields.texts key := by
  rcases same key with equal | ⟨n, ⟨was, now⟩ | ⟨was, now⟩⟩ <;> simp [texts, *]

theorem flag_restored : restored.flag key = fields.flag key := by
  have number := int64_restored same key
  rcases same key with equal | ⟨n, ⟨was, now⟩ | ⟨was, now⟩⟩ <;> simp [flag, *]

theorem instant?_restored : restored.instant? key = fields.instant? key := by
  rcases same key with equal | ⟨n, ⟨was, now⟩ | ⟨was, now⟩⟩ <;> simp [instant?, *]

theorem idText?_restored :
    (restored.get? key).bind ContentRecord.idText? =
      (fields.get? key).bind ContentRecord.idText? := by
  rcases same key with equal | ⟨n, ⟨was, now⟩ | ⟨was, now⟩⟩ <;>
    simp [ContentRecord.idText?, *]

end Restored

end Fields

end Bson

/-! ## Which posts may be indexed -/

namespace ContentRecord

open Bson

variable {fields restored : Fields} {id : String} {status : Int64} {marked : Bool}

/-- The widths of integers leave no trace in a record. -/
theorem ofFields_restored (same : fields.SameUpToWidth restored) :
    ofFields restored = ofFields fields := by
  unfold ofFields
  simp only [Fields.idText?_restored same, Fields.int64_restored same, Fields.int32_restored same,
    Fields.text_restored same, Fields.texts_restored same, Fields.flag_restored same,
    Fields.instant?_restored same]

theorem status_isDeleted_of_ofFields {record : ContentRecord}
    (projected : ofFields fields = .ok record) :
    record.status = fields.int32 "status" ∧ record.isDeleted = fields.flag "isDeleted" := by
  unfold ofFields at projected
  split at projected
  · cases projected
  · cases projected
    exact ⟨rfl, rfl⟩

/-- The low 32 bits of an integer are the published status if it is one more than a multiple of
their range. -/
theorem toInt32_eq_published_iff : status.toInt32 = published ↔ status.toInt % 2 ^ 32 = 1 := by
  rw [← Int32.toInt_inj, Int64.toInt_toInt32, Int.bmod_def]
  change _ = (1 : Int) ↔ _
  split <;> omega

/-- For every post with a usable identifier, a status that is an integer of either width or missing,
and a mark of deletion that is a truth value, such an integer or missing: it is projected to a
record, which may be indexed exactly if the status leaves the remainder 1 in the range of 32 bits
and the post is not marked. These are the posts with the status 1 that are not marked, except where
a post that is not marked has another status with that remainder. The same record is projected
when integers are stored in the other width. -/
theorem isIndexable_iff_remainder (usable : (fields.get? "_id").bind idText? = some id)
    (storedStatus : integer? (fields.get? "status") = some status)
    (storedMark : mark? (fields.get? "isDeleted") = some marked) :
    ∃ record, ofFields fields = .ok record ∧ record.id = id ∧
      (record.isIndexable = true ↔ status.toInt % 2 ^ 32 = 1 ∧ marked = false) ∧
      ((record.isIndexable = true ↔ status = 1 ∧ marked = false) ↔
        ¬ (status ≠ 1 ∧ status.toInt % 2 ^ 32 = 1 ∧ marked = false)) ∧
      ∀ restored, fields.SameUpToWidth restored → ofFields restored = .ok record := by
  obtain ⟨record, projected, isId⟩ := ofFields_of_idText? usable
  have indexable : record.isIndexable = true ↔ status.toInt % 2 ^ 32 = 1 ∧ marked = false := by
    obtain ⟨statusRead, markRead⟩ := status_isDeleted_of_ofFields projected
    rw [isIndexable, statusRead, markRead, Fields.int32, Fields.int64_of_integer? storedStatus,
      Fields.flag_of_mark? storedMark, ← toInt32_eq_published_iff]
    simp [and_comm]
  refine ⟨record, projected, isId, indexable, ?_, fun restored same => ?_⟩
  · rw [indexable]
    by_cases isOne : status = 1
    · simp [isOne]
    · simp [isOne]
  · rw [ofFields_restored same, projected]

/-- The integers of a published post may be stored in either width. -/
theorem indexable_in_either_width :
    let narrow : Fields := [("_id", .text "p"), ("userId", .int32 7), ("status", .int32 1)]
    let wide : Fields := [("_id", .text "p"), ("userId", .int64 7), ("status", .int64 1)]
    ∃ record, ofFields narrow = .ok record ∧ record.isIndexable = true ∧
      ofFields wide = .ok record := by
  intro narrow wide
  have usable : (narrow.get? "_id").bind idText? = some "p" := rfl
  have storedStatus : integer? (narrow.get? "status") = some 1 := rfl
  have storedMark : mark? (narrow.get? "isDeleted") = some false := rfl
  obtain ⟨record, projected, _, indexable, _, restored⟩ :=
    isIndexable_iff_remainder usable storedStatus storedMark
  refine ⟨record, projected, indexable.mpr ⟨by decide, rfl⟩, restored wide fun key => ?_⟩
  by_cases isUser : key = "userId"
  · exact Or.inr ⟨7, Or.inl (by subst isUser; exact ⟨rfl, rfl⟩)⟩
  · by_cases isStatus : key = "status"
    · exact Or.inr ⟨1, Or.inl (by subst isStatus; exact ⟨rfl, rfl⟩)⟩
    · simp [narrow, wide, Fields.get?, List.find?_cons, Ne.symm isUser, Ne.symm isStatus]

/-- A post with a status of more than 32 bits, which is not the published one, is projected to a
record that may be indexed, and a change of the post puts it in the index. -/
theorem indexable_of_wideStatus :
    let post : Fields := [("_id", .text "p"), ("status", .int64 4294967297)]
    let changed :=
      (FixedPosts.ofList [post]).synchronise .plain (.new 1 0) {} (.contentUpdated ⟨"p"⟩, [])
    integer? (post.get? "status") = some 4294967297 ∧ (4294967297 : Int64) ≠ 1 ∧
      mark? (post.get? "isDeleted") = some false ∧
      (∃ record, ofFields post = .ok record ∧ record.isIndexable = true) ∧
      (changed.index.get? "p").isSome = true := by
  exact ⟨rfl, by decide, rfl, ⟨_, rfl, by decide +kernel⟩, by decide +kernel⟩

end ContentRecord

end DualStore
