import DualStore.Event.Encoding
import DualStore.Proofs.Event.Agreement
import DualStore.Proofs.Json.Writing
import DualStore.Proofs.Text.Blank

/-!
Contract: decoding undoes encoding.

Owns:
- a value of each kind of field is read off the tree that it is written as, if its identifiers are
  not empty and have no blanks around them;
- the values that readers make are such values;
- an event decodes from its own bytes, and re-encoding what a body decodes to changes nothing.

Does not own: the bytes of a tree.
-/

namespace DualStore

open DualStore.Json DualStore.Number DualStore.Record DualStore.Text

namespace Record

/-! ## Values -/

/-- An identifier is not empty and has no blanks around it; other values are as they may be. -/
def FieldType.Proper : (type : FieldType) → type.Holds → Prop
  | .identifier, id => id ≠ "" ∧ trim id = id
  | _, _ => True

def Values.Proper : (fields : List Field) → Values fields → Prop
  | [], () => True
  | field :: fields, (value, values) => field.type.Proper value ∧ Values.Proper fields values

theorem fits_int64 (value : Int64) : fits largestInt64 value.toInt = true := by
  have low := value.le_toInt
  have high := value.toInt_lt
  simp [fits]
  omega

theorem fits_int32 (value : Int32) :
    fits largestInt32 value.toInt = true ∧ fits largestInt64 value.toInt = true := by
  have low := value.le_toInt
  have high := value.toInt_lt
  simp [fits]
  omega

theorem integer?_int64 (value : Int64) :
    Tree.integer? largestInt64 Int64.ofInt (treeOfInt value.toInt) = some value :=
  Tree.integer?_eq_some_iff.mpr ⟨_, rfl, fits_int64 value, Int64.ofInt_toInt value⟩

theorem integer?_int32 (value : Int32) :
    Tree.integer? largestInt32 Int32.ofInt (treeOfInt value.toInt) = some value :=
  Tree.integer?_eq_some_iff.mpr ⟨_, rfl, (fits_int32 value).1, Int32.ofInt_toInt value⟩

theorem time?_tree (time : WrittenTime) : time.tree.time? = some time := by
  cases time with
  | text content => rfl
  | epoch count =>
      show (if fits largestInt64 count.toInt then _ else _) = _
      rw [if_pos (fits_int64 count), Int64.ofInt_toInt]

theorem orNothing_treeOfOption {α : Type} {tree : α → Tree} {read : Tree → Option α}
    (reads : ∀ value, Tree.orNothing read (tree value) = some (some value)) (value : Option α) :
    Tree.orNothing read (treeOfOption tree value) = some value := by
  cases value with
  | none => rfl
  | some value => exact reads value

theorem orNothing_time (time : WrittenTime) :
    Tree.orNothing Tree.time? time.tree = some (some time) := by
  have isTime := congrArg (Option.map some) (time?_tree time)
  cases time <;> exact isTime

/-- A proper value is read off the tree that it is written as. -/
theorem FieldType.ofTree?_tree {type : FieldType} {value : type.Holds}
    (proper : type.Proper value) :
    type.ofTree? (type.tree value) = some value := by
  cases type with
  | identifier =>
      obtain ⟨notEmpty, trimmed⟩ := proper
      show (if isBlank value = true then none else some (trim value)) = some value
      rw [if_neg (by rw [isBlank_of_trimmed notEmpty trimmed]; decide), trimmed]
  | int64 => exact integer?_int64 value
  | int64OrZero => exact integer?_int64 value
  | int32OrZero => exact integer?_int32 value
  | optionalInt64 =>
      have integers (n : Int64) :
          Tree.orNothing (Tree.integer? largestInt64 Int64.ofInt) (treeOfInt n.toInt) =
            some (some n) :=
        congrArg (Option.map some) (integer?_int64 n)
      exact orNothing_treeOfOption integers value
  | textOrEmpty => rfl
  | optionalText =>
      have texts (content : String) :
          Tree.orNothing Tree.text? (.text content) = some (some content) := rfl
      exact orNothing_treeOfOption texts value
  | textsOrEmpty => exact texts?_eq_some_iff.mpr rfl
  | optionalTime => exact orNothing_treeOfOption orNothing_time value

/-- A value that has been read is proper. -/
theorem FieldType.proper_of_ofTree? {type : FieldType} {tree : Tree} {value : type.Holds}
    (isValue : type.ofTree? tree = some value) : type.Proper value := by
  cases type with
  | identifier =>
      have isIdentifier : tree.identifier? = some value := isValue
      unfold Tree.identifier? at isIdentifier
      split at isIdentifier
      · rename_i content
        split at isIdentifier
        · cases isIdentifier
        · rename_i visible
          cases isIdentifier
          exact ⟨trim_ne_empty (eq_false_of_ne_true visible), trim_trim content⟩
      · rename_i n
        split at isIdentifier
        · cases isIdentifier
          exact ⟨intText_ne_empty n, trim_intText n⟩
        · cases isIdentifier
      · cases isIdentifier
  | _ => trivial

theorem FieldType.proper_of_absent {type : FieldType} {value : type.Holds}
    (isAbsent : type.absent = some value) : type.Proper value := by
  cases type with
  | identifier => cases isAbsent
  | _ => trivial

theorem FieldType.proper_of_ofDraft? {type : FieldType} {draft : Draft} {value : type.Holds}
    (isValue : type.ofDraft? draft = some value) : type.Proper value := by
  obtain ⟨tree, _, isValue⟩ := ofDraft?_eq_some_iff.mp isValue
  exact proper_of_ofTree? isValue

/-! ## Records -/

theorem proper_of_ofMembers? {fields : List Field} {members : List (String × Draft)}
    {values : Values fields}
    (isRecord : ofMembers? FieldType.ofDraft? fields members = some values) :
    Values.Proper fields values := by
  induction fields with
  | nil => trivial
  | cons field fields inductionHypothesis =>
      obtain ⟨value, values⟩ := values
      obtain ⟨isValue, areValues⟩ := ofMembers?_cons_eq_some_iff.mp isRecord
      refine ⟨?_, inductionHypothesis areValues⟩
      rw [Field.ofMembers?] at isValue
      split at isValue
      · exact FieldType.proper_of_absent isValue
      · exact FieldType.proper_of_ofDraft? isValue
      · cases isValue

theorem proper_of_ofItems? {fields : List Field} {items : List Draft} {values : Values fields}
    (isRecord : ofItems? FieldType.ofDraft? fields items = some values) :
    Values.Proper fields values := by
  induction fields generalizing items with
  | nil => trivial
  | cons field fields inductionHypothesis =>
      obtain ⟨value, values⟩ := values
      cases items with
      | nil =>
          obtain ⟨isAbsent, areValues⟩ := ofItems?_nil_eq_some_iff.mp isRecord
          exact ⟨FieldType.proper_of_absent isAbsent, inductionHypothesis areValues⟩
      | cons item items =>
          obtain ⟨isValue, areValues⟩ := ofItems?_cons_eq_some_iff.mp isRecord
          exact ⟨FieldType.proper_of_ofDraft? isValue, inductionHypothesis areValues⟩

theorem answersTo_name (field : Field) : field.answersTo field.name = true := by
  simp [Field.answersTo]

theorem Values.key_of_mem {fields : List Field} {values : Values fields} {member : String × Tree}
    (isMember : member ∈ Values.members fields values) :
    ∃ field ∈ fields, member.1 = field.name := by
  induction fields with
  | nil => cases isMember
  | cons field fields inductionHypothesis =>
      obtain ⟨value, values⟩ := values
      rcases List.mem_cons.mp isMember with rfl | later
      · exact ⟨field, List.mem_cons_self, rfl⟩
      · obtain ⟨other, isOther, same⟩ := inductionHypothesis later
        exact ⟨other, List.mem_cons_of_mem _ isOther, same⟩

/-- A record is read off the members that it is written as. -/
theorem ofMembers?_members {fields : List Field} (distinct : Distinct fields)
    {values : Values fields} (proper : Values.Proper fields values) :
    ofMembers? FieldType.ofTree? fields (Values.members fields values) = some values := by
  induction fields with
  | nil => rfl
  | cons field fields inductionHypothesis =>
      obtain ⟨value, values⟩ := values
      obtain ⟨apart, distinct⟩ := List.pairwise_cons.mp distinct
      -- The field finds its own member and no other, and the later fields do not find that member.
      have noOther : field.given (Values.members fields values) = [] := by
        rw [Field.given, List.filter_eq_nil_iff.mpr, List.map_nil]
        intro member isMember named
        obtain ⟨later, isLater, isName⟩ := Values.key_of_mem isMember
        have other := apart later isLater later.name (isName ▸ named)
        rw [answersTo_name] at other
        cases other
      have isValue : field.ofMembers? FieldType.ofTree?
          (Values.members (field :: fields) (value, values)) = some value := by
        rw [Values.members, Field.ofMembers?, Field.given_cons, if_pos (answersTo_name field),
          noOther]
        exact FieldType.ofTree?_tree proper.1
      have behind : ofMembers? FieldType.ofTree? fields
          (Values.members (field :: fields) (value, values)) =
            ofMembers? FieldType.ofTree? fields (Values.members fields values) := by
        apply ofMembers?_congr
        intro later isLater
        apply Field.ofMembers?_congr
        rw [Values.members, Field.given_cons, apart later isLater _ (answersTo_name field)]
        rfl
      rw [ofMembers?_cons_eq_some_iff, behind]
      exact ⟨isValue, inductionHypothesis distinct proper.2⟩

theorem FieldType.integral_tree (type : FieldType) (value : type.Holds) :
    (type.tree value).Integral := by
  have texts : ∀ values : List String, Tree.IntegralItems (values.map .text) := by
    intro values
    induction values with
    | nil => trivial
    | cons content values inductionHypothesis => exact ⟨trivial, inductionHypothesis⟩
  cases type with
  | identifier => trivial
  | int64 => exact fits_int64 value
  | int64OrZero => exact fits_int64 value
  | int32OrZero => exact (fits_int32 value).2
  | optionalInt64 =>
      cases value with
      | none => trivial
      | some n => exact fits_int64 n
  | textOrEmpty => trivial
  | optionalText => cases value <;> trivial
  | textsOrEmpty => exact texts value
  | optionalTime =>
      cases value with
      | none => trivial
      | some time =>
          cases time with
          | epoch count => exact fits_int64 count
          | text content => trivial

theorem Values.integral_members (fields : List Field) (values : Values fields) :
    Tree.IntegralMembers (Values.members fields values) := by
  induction fields with
  | nil => trivial
  | cons field fields inductionHypothesis =>
      exact ⟨FieldType.integral_tree field.type values.1, inductionHypothesis values.2⟩

end Record

namespace Event

/-- The identifier of the content that an event is about. -/
def contentId? : Event → Option String
  | contentCreated payload => some payload.id
  | contentAuditPassed payload => some payload.id
  | contentUpdated payload => some payload.id
  | contentDeleted payload => some payload.id
  | _ => none

/-- The identifier of the content is not empty and has no blanks around it. -/
def HasProperId (event : Event) : Prop := ∀ id, event.contentId? = some id → id ≠ "" ∧ trim id = id

theorem proper_values {event : Event} (proper : event.HasProperId) :
    Values.Proper event.kind.shape.fields event.values := by
  cases event with
  | contentCreated payload => exact ⟨proper payload.id rfl, by trivial⟩
  | contentAuditPassed payload => exact ⟨proper payload.id rfl, by trivial⟩
  | contentUpdated payload => exact ⟨proper payload.id rfl, by trivial⟩
  | contentDeleted payload => exact ⟨proper payload.id rfl, by trivial⟩
  | _ => trivial

/-- The bytes of an event spell its tree. -/
theorem spellsTree_encode (event : Event) : SpellsTree event.encode event.tree :=
  spellsTree_bytes (Values.integral_members event.kind.shape.fields event.values)

theorem isEvent_tree {event : Event} (proper : Values.Proper event.kind.shape.fields event.values) :
    event.tree.IsEvent event.kind event :=
  ⟨rfl, ofMembers?_members event.kind.distinct proper⟩

theorem decode_encode_of_proper {event : Event}
    (proper : Values.Proper event.kind.shape.fields event.values) :
    decode event.kind event.encode = .ok event :=
  (decode_tree_eq_ok_iff (spellsTree_encode event)).mpr (isEvent_tree proper)

/-- The values of an event that has been decoded are proper. -/
theorem proper_of_decode {kind : Kind} {body : List UInt8} {event : Event}
    (decoded : decode kind body = .ok event) :
    event.kind = kind ∧ Values.Proper event.kind.shape.fields event.values := by
  rcases decode_eq_ok_iff.mp decoded with ⟨members, _, isEvent⟩ | ⟨items, _, isEvent⟩
  · obtain ⟨sameKind, areValues⟩ := (map_ofValues_eq_some_iff fun kind =>
      Record.ofMembers? FieldType.ofDraft? kind.shape.fields members).mp isEvent
    exact ⟨sameKind, proper_of_ofMembers? areValues⟩
  · obtain ⟨sameKind, areValues⟩ := (map_ofValues_eq_some_iff fun kind =>
      Record.ofItems? FieldType.ofDraft? kind.shape.fields items).mp isEvent
    exact ⟨sameKind, proper_of_ofItems? areValues⟩

/-- Decoding undoes encoding: an event whose identifier is proper decodes from its own bytes, and
what a body decodes to decodes from its own bytes. -/
theorem decode_encode :
    (∀ event : Event, event.HasProperId → decode event.kind event.encode = .ok event) ∧
    (∀ kind body event, decode kind body = .ok event → decode kind event.encode = .ok event) := by
  refine ⟨fun event proper => decode_encode_of_proper (proper_values proper), ?_⟩
  intro kind body event decoded
  obtain ⟨rfl, proper⟩ := proper_of_decode decoded
  exact decode_encode_of_proper proper

/-- A deletion whose identifier is made of escaped characters, and one under an older name whose
identifier is a number. -/
theorem decode_encode_deletion :
    decode .contentDeleted
        (Event.contentDeleted { id := "\"\\\n\u0001é", operatorId := some (-5) }).encode =
      .ok (.contentDeleted { id := "\"\\\n\u0001é", operatorId := some (-5) }) ∧
    decode .contentDeleted (Event.contentDeleted { id := "42" }).encode =
      .ok (.contentDeleted { id := "42" }) := by
  refine ⟨decode_encode.1 (.contentDeleted { id := "\"\\\n\u0001é", operatorId := some (-5) }) ?_,
    decode_encode.2 .contentDeleted (Utf8.encode "\x7b\"postId\": 42\x7d".toList) _
      (by decide +kernel)⟩
  intro id isId
  cases isId
  decide

end Event

end DualStore
