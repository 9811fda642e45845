import DualStore.Event.Payload
import DualStore.Proofs.Json.Draft

/-!
Contract: what a record holds according to a tree, read after the text is parsed.

Owns:
- the value that a tree is for each kind of field;
- the record that the members of an object are, by the names of its fields: a field that no member
  names is absent, and one that several name makes the record fail;
- the record that the values of a list are, by the positions of its fields;
- the record that a tree is, and the events that it is by the values of their payloads;
- fields of which no key names two.

Does not own: any reader of tokens.
-/

namespace DualStore

open DualStore.Json DualStore.Number DualStore.Text

namespace Json.Tree

/-- The integer that a tree is, within the width of a type. -/
def integer? (largest : Nat) (ofInt : Int → α) : Tree → Option α
  | .number (.whole n) => if fits largest n then some (ofInt n) else none
  | _ => none

theorem integer?_eq_some_iff {largest : Nat} {ofInt : Int → α} {tree : Tree} {value : α} :
    integer? largest ofInt tree = some value ↔
      ∃ n, tree = .number (.whole n) ∧ fits largest n = true ∧ ofInt n = value := by
  constructor
  · intro isValue
    unfold integer? at isValue
    split at isValue
    · rename_i n
      split at isValue
      · rename_i inRange
        exact ⟨n, rfl, inRange, Option.some.inj isValue⟩
      · cases isValue
    · cases isValue
  · rintro ⟨n, rfl, inRange, rfl⟩
    rw [integer?, if_pos inRange]

/-- The texts of a list that holds nothing else. -/
def texts? : Tree → Option (List String)
  | .items values => values.mapM text?
  | _ => none

/-- A text that is not blank, without the blanks around it, or the digits of an integer. -/
def identifier? : Tree → Option String
  | .text content => if isBlank content then none else some (trim content)
  | .number (.whole n) => if fits largestInt64 n then some (intText n) else none
  | _ => none

/-- An integer or a text. -/
def time? : Tree → Option Record.WrittenTime
  | .number (.whole n) => if fits largestInt64 n then some (.epoch (Int64.ofInt n)) else none
  | .text content => some (.text content)
  | _ => none

/-- Null stands for a given value. -/
def orNull (value : α) (read : Tree → Option α) : Tree → Option α
  | .null => some value
  | tree => read tree

/-- Null stands for nothing. -/
def orNothing (read : Tree → Option α) : Tree → Option (Option α) :=
  orNull none fun tree => (read tree).map some

end Json.Tree

namespace Record

/-! ## Values -/

/-- The value that a tree is for a kind of field. -/
def FieldType.ofTree? : (type : FieldType) → Tree → Option type.Holds
  | .identifier => Tree.identifier?
  | .int64 => Tree.integer? largestInt64 Int64.ofInt
  | .int64OrZero => Tree.orNull 0 (Tree.integer? largestInt64 Int64.ofInt)
  | .int32OrZero => Tree.orNull 0 (Tree.integer? largestInt32 Int32.ofInt)
  | .optionalInt64 => Tree.orNothing (Tree.integer? largestInt64 Int64.ofInt)
  | .textOrEmpty => Tree.orNull "" Tree.text?
  | .optionalText => Tree.orNothing Tree.text?
  | .textsOrEmpty => Tree.orNull [] Tree.texts?
  | .optionalTime => Tree.orNothing Tree.time?

/-- The value that a draft is for a kind of field, if the draft is a tree. -/
def FieldType.ofDraft? (type : FieldType) (draft : Draft) : Option type.Holds :=
  (draft.tree? (.kept depthLimit)).bind type.ofTree?

/-! ## Records -/

section Records

variable {α : Type} (read : (type : FieldType) → α → Option type.Holds)

/-- The values of the members that name a field, in their order. -/
def Field.given (field : Field) (members : List (String × α)) : List α :=
  (members.filter fun member => field.answersTo member.1).map (·.2)

/-- The value of a field in an object. -/
def Field.ofMembers? (field : Field) (members : List (String × α)) : Option field.type.Holds :=
  match field.given members with
  | [] => field.type.absent
  | [value] => read field.type value
  | _ => none

/-- The record that an object is. -/
def ofMembers? : (fields : List Field) → List (String × α) → Option (Values fields)
  | [], _ => some ()
  | field :: fields, members =>
      (field.ofMembers? read members).bind fun value =>
        (ofMembers? fields members).map fun values => (value, values)

/-- The record that a list is. Trailing fields may be absent, and there may be no surplus value. -/
def ofItems? : (fields : List Field) → List α → Option (Values fields)
  | [], [] => some ()
  | [], _ :: _ => none
  | field :: fields, [] =>
      field.type.absent.bind fun value => (ofItems? fields []).map fun values => (value, values)
  | field :: fields, item :: items =>
      (read field.type item).bind fun value =>
        (ofItems? fields items).map fun values => (value, values)

end Records

section Parts

variable {α : Type} {read : (type : FieldType) → α → Option type.Holds} {field : Field}
  {fields : List Field} {value : field.type.Holds} {values : Values fields}

theorem ofMembers?_cons_eq_some_iff {members : List (String × α)} :
    ofMembers? read (field :: fields) members = some (value, values) ↔
      field.ofMembers? read members = some value ∧
        ofMembers? read fields members = some values := by
  simp [ofMembers?, Option.bind_eq_some_iff]

theorem ofItems?_nil_eq_some_iff :
    ofItems? read (field :: fields) [] = some (value, values) ↔
      field.type.absent = some value ∧ ofItems? read fields [] = some values := by
  simp [ofItems?, Option.bind_eq_some_iff]

theorem ofItems?_cons_eq_some_iff {item : α} {items : List α} :
    ofItems? read (field :: fields) (item :: items) = some (value, values) ↔
      read field.type item = some value ∧ ofItems? read fields items = some values := by
  simp [ofItems?, Option.bind_eq_some_iff]

end Parts

def Shape.ofTree? (shape : Shape) : Tree → Option (Values shape.fields)
  | .members members => ofMembers? FieldType.ofTree? shape.fields members
  | .items items => ofItems? FieldType.ofTree? shape.fields items
  | _ => none

end Record

/-- Whether a tree is an event of a kind: the event is one of that kind, and its payload has the
values of the record that the tree is. -/
def Json.Tree.IsEvent (tree : Tree) (kind : Kind) (event : Event) : Prop :=
  event.kind = kind ∧ event.kind.shape.ofTree? tree = some event.values

theorem Json.Tree.isEvent_iff {tree : Tree} {kind : Kind} {event : Event} :
    tree.IsEvent kind event ↔ (kind.shape.ofTree? tree).map (Event.ofValues kind) = some event :=
  (Event.map_ofValues_eq_some_iff fun kind => kind.shape.ofTree? tree).symm

namespace Record

/-! ## Drafts and trees -/

theorem FieldType.ofDraft?_eq_some_iff {type : FieldType} {draft : Draft} {value : type.Holds} :
    type.ofDraft? draft = some value ↔
      ∃ tree : Tree, draft = tree.draft ∧ type.ofTree? tree = some value := by
  rw [ofDraft?, Option.bind_eq_some_iff]
  simp only [Draft.tree?_kept_eq_some_iff]

theorem FieldType.ofDraft?_draft (type : FieldType) (tree : Tree) :
    type.ofDraft? tree.draft = type.ofTree? tree := by
  rw [ofDraft?, Draft.tree?_draft, Option.bind_some]

/-! ## Members that name a field -/

section Given

variable {α : Type} {field : Field}

theorem Field.given_append (members others : List (String × α)) :
    field.given (members ++ others) = field.given members ++ field.given others := by
  simp [given]

theorem Field.given_singleton (key : String) (value : α) :
    field.given [(key, value)] = if field.answersTo key then [value] else [] := by
  by_cases named : field.answersTo key = true <;> simp [given, named]

end Given

/-- No key names two of the fields. -/
def Distinct (fields : List Field) : Prop :=
  fields.Pairwise fun first second =>
    ∀ key, first.answersTo key = true → second.answersTo key = false

section Drafts

variable {α β : Type} {read : (type : FieldType) → α → Option type.Holds}
  {readImage : (type : FieldType) → β → Option type.Holds} {image : α → β}

theorem Field.given_map (field : Field) (members : List (String × α)) :
    field.given (members.map fun member => (member.1, image member.2)) =
      (field.given members).map image := by
  simp [given, List.filter_map, Function.comp_def]

/-- Values may be replaced by others that are read alike. -/
theorem ofMembers?_map (same : ∀ type value, readImage type (image value) = read type value)
    (fields : List Field) (members : List (String × α)) :
    ofMembers? readImage fields (members.map fun member => (member.1, image member.2)) =
      ofMembers? read fields members := by
  induction fields with
  | nil => rfl
  | cons field fields inductionHypothesis =>
      have sameField : field.ofMembers? readImage
          (members.map fun member => (member.1, image member.2)) =
            field.ofMembers? read members := by
        rw [Field.ofMembers?, Field.ofMembers?, field.given_map members]
        rcases field.given members with _ | ⟨value, _ | ⟨other, values⟩⟩
        · rfl
        · exact same field.type value
        · rfl
      rw [ofMembers?, ofMembers?, sameField, inductionHypothesis]

theorem ofItems?_map (same : ∀ type value, readImage type (image value) = read type value)
    (fields : List Field) (items : List α) :
    ofItems? readImage fields (items.map image) = ofItems? read fields items := by
  induction fields generalizing items with
  | nil => cases items <;> rfl
  | cons field fields inductionHypothesis =>
      cases items with
      | nil =>
          have absent := inductionHypothesis []
          rw [List.map_nil] at absent ⊢
          rw [ofItems?, ofItems?, absent]
      | cons item items =>
          rw [List.map_cons, ofItems?, ofItems?, same, inductionHypothesis items]

end Drafts

end Record

end DualStore
