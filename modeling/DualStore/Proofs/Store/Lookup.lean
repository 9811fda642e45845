import DualStore.Store.Command

/-!
Contract: how the id of a post is spelled by those who ask for it and by its record.

Owns:
- object identifiers: the text of one is read back as the same one;
- the spelling that a record has of an id under which it is looked up, which stands for the same
  identifier;
- what is found under an id: the projection succeeds, and its id is that spelling;
- where the id of a record comes from.

Does not own: which document a server finds.
-/

namespace DualStore

/-! ## Object identifiers -/

namespace ObjectId

theorem digit?_digitChar : ∀ d : Fin 16, digit? (Nat.digitChar d.val) = some d := by decide

theorem parse?_text (id : ObjectId) : parse? id.text = some id := by
  have digits : ∀ ds : List (Fin 16),
      (ds.map fun d => Nat.digitChar d.val).mapM digit? = some ds := by
    intro ds
    induction ds with
    | nil => rfl
    | cons d ds inductionHypothesis =>
        rw [List.map_cons, List.mapM_cons, digit?_digitChar, inductionHypothesis]
        rfl
  unfold parse? text
  rw [String.toList_ofList, digits]
  dsimp only
  rw [dif_pos id.length_digits]

end ObjectId

/-! ## Spellings -/

namespace Command

/-- An id as the record that is looked up under it spells it: an object identifier in lower case,
any other text as it is. -/
def spelling (id : String) : String :=
  match ObjectId.parse? id with
  | some objectId => objectId.text
  | none => id

variable {id : String}

@[simp] theorem identifier_spelling (id : String) : identifier (spelling id) = identifier id := by
  unfold spelling identifier
  cases parsed : ObjectId.parse? id with
  | none =>
      dsimp only
      rw [parsed]
  | some objectId =>
      dsimp only
      rw [ObjectId.parse?_text]

/-- A spelling is told by the identifier alone. -/
theorem idText?_identifier (id : String) :
    ContentRecord.idText? (identifier id) = some (spelling id) := by
  unfold spelling identifier
  cases ObjectId.parse? id <;> rfl

/-- Identifiers that ids are looked up by are object identifiers or texts. -/
theorem identifier_cases (id : String) :
    (∃ objectId, ObjectId.parse? id = some objectId ∧ identifier id = .objectId objectId) ∨
      (ObjectId.parse? id = none ∧ identifier id = .text id) := by
  unfold identifier
  cases ObjectId.parse? id with
  | none => exact Or.inr ⟨rfl, rfl⟩
  | some objectId => exact Or.inl ⟨objectId, rfl, rfl⟩

theorem identifier_ne_int32 {n : Int32} : identifier id ≠ .int32 n := by
  rcases identifier_cases id with ⟨objectId, _, looked⟩ | ⟨_, looked⟩ <;> simp [looked]

/-- An identifier that ids are looked up by equals itself. -/
theorem identifier_same (id : String) : (identifier id == identifier id) = true := by
  change (identifier id).same (identifier id) = true
  rcases identifier_cases id with ⟨objectId, _, looked⟩ | ⟨_, looked⟩ <;> simp [looked, Bson.same]

/-- A stored value equals an identifier only when it is the same value of the same type. -/
theorem eq_identifier_of_same {stored : Bson} (same : (stored == identifier id) = true) :
    stored = identifier id := by
  change stored.same (identifier id) = true at same
  rcases identifier_cases id with ⟨objectId, _, looked⟩ | ⟨_, looked⟩
  · rw [looked] at same ⊢
    cases stored with
    | objectId other => exact congrArg Bson.objectId (of_decide_eq_true same)
    | _ => cases same
  · rw [looked] at same ⊢
    cases stored with
    | text other => exact congrArg Bson.text (of_decide_eq_true same)
    | _ => cases same

end Command

/-! ## Records -/

theorem ContentRecord.ofFields_of_idText? {fields : Bson.Fields} {id : String}
    (usable : (fields.get? "_id").bind idText? = some id) :
    ∃ record, ofFields fields = .ok record ∧ record.id = id := by
  unfold ofFields
  rw [usable]
  exact ⟨_, rfl, rfl⟩

/-- The id of a record is the text of an identifier that its post has. -/
theorem ContentRecord.idText?_of_ofFields {post : Bson.Fields} {record : ContentRecord}
    (projected : ofFields post = .ok record) :
    ∃ own, post.get? "_id" = some own ∧ idText? own = some record.id := by
  unfold ofFields at projected
  split at projected
  · cases projected
  · rename_i id usable
    cases projected
    exact Option.bind_eq_some_iff.mp usable

end DualStore
