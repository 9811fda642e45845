import DualStore.Proofs.Event.Decoding

/-!
Contract: the decoding of events agrees with parsing a body into a tree and reading the tree.

Owns:
- a strict body decodes to the event that its tree is, whatever its nesting;
- the form of every body that decodes: only values under keys of no field may be other than
  strict, and they have no say in the event.

Does not own: the reading of the tree.
-/

namespace DualStore

open DualStore.Json DualStore.Record

/-! ## Nesting -/

mutual

/-- How many lists and objects a tree has inside each other. -/
def Json.Tree.depth : Tree → Nat
  | .items values => depthItems values + 1
  | .members fields => depthMembers fields + 1
  | _ => 0

def Json.Tree.depthItems : List Tree → Nat
  | [] => 0
  | value :: values => max value.depth (depthItems values)

def Json.Tree.depthMembers : List (String × Tree) → Nat
  | [] => 0
  | (_, value) :: fields => max value.depth (depthMembers fields)

end

theorem Json.Tree.depthItems_texts (texts : List String) : depthItems (texts.map .text) = 0 := by
  induction texts with
  | nil => rfl
  | cons content texts inductionHypothesis =>
      rw [List.map_cons, depthItems, inductionHypothesis]
      rfl

namespace Record

theorem depth_of_leaf {α : Type} {accepts : Tree → Option α} {tree : Tree} {value : α}
    (noItems : ∀ values, accepts (.items values) = none)
    (noMembers : ∀ fields, accepts (.members fields) = none)
    (accepted : accepts tree = some value) : tree.depth = 0 := by
  cases tree with
  | items values => rw [noItems] at accepted; cases accepted
  | members fields => rw [noMembers] at accepted; cases accepted
  | _ => rfl

/-- The value of a field is a leaf, or a list of leaves. -/
theorem FieldType.depth_le_one {type : FieldType} {tree : Tree} {value : type.Holds}
    (isValue : type.ofTree? tree = some value) : tree.depth ≤ 1 := by
  cases type with
  | textsOrEmpty =>
      by_cases isNull : tree = .null
      · rw [isNull]
        exact Nat.zero_le 1
      · have areTexts : tree.texts? = some value := by
          cases tree with
          | null => exact absurd rfl isNull
          | _ => exact isValue
        have flat := Tree.depthItems_texts value
        rw [texts?_eq_some_iff.mp areTexts, Tree.depth]
        omega
  | _ =>
      have leaf := depth_of_leaf (fun _ => rfl) (fun _ => rfl) isValue
      omega

theorem FieldType.exists_tree_of_ofDraft? {type : FieldType} {draft : Draft} {value : type.Holds}
    (isValue : type.ofDraft? draft = some value) :
    ∃ tree : Tree, draft = tree.draft ∧ tree.depth ≤ 1 := by
  obtain ⟨tree, isTree, isValue⟩ := ofDraft?_eq_some_iff.mp isValue
  exact ⟨tree, isTree, depth_le_one isValue⟩

/-! ## Trees among members and items -/

/-- Members that are trees, as drafts. -/
def treeMembers (members : List (String × Tree)) : List (String × Draft) :=
  members.map fun member => (member.1, member.2.draft)

theorem draft_members (members : List (String × Tree)) :
    Tree.draft (.members members) = .members (keyed (treeMembers members)) := by
  rw [Tree.draft, Tree.draftMembers_eq_map, keyed, treeMembers, List.map_map]
  rfl

theorem exists_treeMembers {members : List (String × Draft)}
    (areTrees : ∀ member ∈ members, ∃ tree : Tree, member.2 = tree.draft ∧ tree.depth ≤ 1) :
    ∃ known, members = treeMembers known ∧ ∀ member ∈ known, member.2.depth ≤ 1 := by
  induction members with
  | nil => exact ⟨[], rfl, nofun⟩
  | cons member members inductionHypothesis =>
      obtain ⟨tree, isTree, flat⟩ := areTrees member List.mem_cons_self
      obtain ⟨known, rfl, areFlat⟩ :=
        inductionHypothesis fun later isLater => areTrees later (List.mem_cons_of_mem _ isLater)
      refine ⟨(member.1, tree) :: known, ?_, ?_⟩
      · show member :: treeMembers known = (member.1, tree.draft) :: treeMembers known
        rw [← isTree]
      · intro later isLater
        rcases List.mem_cons.mp isLater with rfl | isLater
        · exact flat
        · exact areFlat later isLater

section Records

variable {fields : List Field}

/-- The members that the fields of a record take are trees. -/
theorem exists_tree_of_ofMembers? {members : List (String × Draft)} {values : Values fields}
    (isRecord : ofMembers? FieldType.ofDraft? fields members = some values)
    {member : String × Draft} (isMember : member ∈ members)
    (known : recognises fields member.1 = true) :
    ∃ tree : Tree, member.2 = tree.draft ∧ tree.depth ≤ 1 := by
  obtain ⟨field, isField, named⟩ := List.any_eq_true.mp known
  have given : member.2 ∈ field.given members :=
    List.mem_map_of_mem (List.mem_filter.mpr ⟨isMember, named⟩)
  induction fields with
  | nil => cases isField
  | cons first fields inductionHypothesis =>
      obtain ⟨value, values⟩ := values
      obtain ⟨isValue, areValues⟩ := ofMembers?_cons_eq_some_iff.mp isRecord
      rcases List.mem_cons.mp isField with rfl | later
      · rw [Field.ofMembers?] at isValue
        rcases isGiven : field.given members with _ | ⟨draft, _ | ⟨other, drafts⟩⟩
        · simp [isGiven] at given
        · rw [isGiven] at given isValue
          rw [List.mem_singleton.mp given]
          exact FieldType.exists_tree_of_ofDraft? isValue
        · rw [isGiven] at isValue
          cases isValue
      · exact inductionHypothesis areValues (List.any_eq_true.mpr ⟨field, later, named⟩) later

theorem exists_trees_of_ofItems? {items : List Draft} {values : Values fields}
    (isRecord : ofItems? FieldType.ofDraft? fields items = some values) :
    ∃ trees : List Tree, items = trees.map Tree.draft ∧ ∀ tree ∈ trees, tree.depth ≤ 1 := by
  induction fields generalizing items with
  | nil =>
      cases items with
      | nil => exact ⟨[], rfl, nofun⟩
      | cons item items => cases isRecord
  | cons field fields inductionHypothesis =>
      cases items with
      | nil => exact ⟨[], rfl, nofun⟩
      | cons item items =>
          obtain ⟨value, values⟩ := values
          obtain ⟨isValue, areValues⟩ := ofItems?_cons_eq_some_iff.mp isRecord
          obtain ⟨tree, isTree, flat⟩ := FieldType.exists_tree_of_ofDraft? isValue
          obtain ⟨trees, areTrees, areFlat⟩ := inductionHypothesis areValues
          refine ⟨tree :: trees, by rw [List.map_cons, isTree, areTrees], ?_⟩
          intro later isLater
          rcases List.mem_cons.mp isLater with rfl | isLater
          · exact flat
          · exact areFlat later isLater

end Records

end Record

namespace Event

variable {kind : Kind} {body : List UInt8}

/-! ## Strict bodies -/

theorem ofMembers?_treeMembers_eq_some_iff {members : List (String × Tree)} {event : Event} :
    ofMembers? kind (treeMembers members) = some event ↔
      Tree.IsEvent (.members members) kind event := by
  rw [ofMembers?, treeMembers, Record.ofMembers?_map FieldType.ofDraft?_draft, Tree.isEvent_iff,
    Shape.ofTree?]

theorem ofItems?_trees_eq_some_iff {items : List Tree} {event : Event} :
    ofItems? kind (items.map Tree.draft) = some event ↔ Tree.IsEvent (.items items) kind event := by
  rw [ofItems?, Record.ofItems?_map FieldType.ofDraft?_draft, Tree.isEvent_iff, Shape.ofTree?]

/-- A strict body decodes to the event that its tree is. -/
theorem decode_tree_eq_ok_iff {tree : Tree} {event : Event} (spelled : SpellsTree body tree) :
    decode kind body = .ok event ↔ tree.IsEvent kind event := by
  cases tree with
  | members members =>
      rw [SpellsTree, draft_members] at spelled
      rw [decode_members_eq_ok_iff spelled, ofMembers?_treeMembers_eq_some_iff]
  | items items =>
      rw [SpellsTree, Tree.draft, Tree.draftItems_eq_map] at spelled
      rw [decode_items_eq_ok_iff spelled, ofItems?_trees_eq_some_iff]
  | _ =>
      constructor
      · intro decoded
        rcases decode_eq_ok_iff.mp decoded with ⟨_, other, _⟩ | ⟨_, other, _⟩
        · cases Spells.unique spelled other
        · cases Spells.unique spelled other
      · rintro ⟨_, isRecord⟩
        cases isRecord

/-- A strict body decodes exactly if its tree is a record of the kind. -/
theorem exists_decode_tree_iff {tree : Tree} (spelled : SpellsTree body tree) :
    (∃ event, decode kind body = .ok event) ↔
      ∃ values, kind.shape.ofTree? tree = some values := by
  simp only [decode_tree_eq_ok_iff spelled, Tree.isEvent_iff, Option.map_eq_some_iff]
  constructor
  · rintro ⟨_, values, isRecord, _⟩
    exact ⟨values, isRecord⟩
  · rintro ⟨values, isRecord⟩
    exact ⟨_, values, isRecord, rfl⟩

/-! ## Accepted bodies -/

/-- The form of a body that is accepted as an event: an object or a list with blanks around it. The
values of an object are strict where a field takes them, and at most lists of leaves; the others
may be any drafts and have no say. All values of a list are taken. -/
inductive Accepted (kind : Kind) (body : List UInt8) (event : Event) : Prop where
  | object {members : List (String × Draft)} {known : List (String × Tree)} :
      Spells body (.members (keyed members)) →
      (members.filter fun member => recognises kind.shape.fields member.1) = treeMembers known →
      (∀ member ∈ known, member.2.depth ≤ 1) → Tree.IsEvent (.members known) kind event →
      Accepted kind body event
  | list {items : List Tree} : SpellsTree body (.items items) → (∀ item ∈ items, item.depth ≤ 1) →
      Tree.IsEvent (.items items) kind event → Accepted kind body event

theorem ofMembers?_eq_some_iff_known {members : List (String × Draft)}
    {known : List (String × Tree)} {event : Event}
    (areKnown : (members.filter fun member => recognises kind.shape.fields member.1) =
      treeMembers known) :
    ofMembers? kind members = some event ↔ Tree.IsEvent (.members known) kind event := by
  rw [← ofMembers?_treeMembers_eq_some_iff, ← areKnown, ofMembers?, ofMembers?,
    Record.ofMembers?_filter]

theorem accepted_of_decode {event : Event} (decoded : decode kind body = .ok event) :
    Accepted kind body event := by
  rcases decode_eq_ok_iff.mp decoded with ⟨members, spelled, isEvent⟩ | ⟨items, spelled, isEvent⟩
  · obtain ⟨values, areValues, _⟩ := Option.map_eq_some_iff.mp isEvent
    have areTrees : ∀ member ∈ members.filter fun member => recognises kind.shape.fields member.1,
        ∃ tree : Tree, member.2 = tree.draft ∧ tree.depth ≤ 1 := by
      intro member isMember
      obtain ⟨isMember, known⟩ := List.mem_filter.mp isMember
      exact exists_tree_of_ofMembers? areValues isMember known
    obtain ⟨known, areKnown, flat⟩ := exists_treeMembers areTrees
    exact .object spelled areKnown flat ((ofMembers?_eq_some_iff_known areKnown).mp isEvent)
  · obtain ⟨values, areValues, _⟩ := Option.map_eq_some_iff.mp isEvent
    obtain ⟨trees, rfl, flat⟩ := exists_trees_of_ofItems? areValues
    rw [← Tree.draftItems_eq_map] at spelled
    exact .list spelled flat (ofItems?_trees_eq_some_iff.mp isEvent)

theorem Accepted.decode {event : Event} (accepted : Accepted kind body event) :
    decode kind body = .ok event := by
  cases accepted with
  | object spelled areKnown _ isEvent =>
      exact (decode_members_eq_ok_iff spelled).mpr
        ((ofMembers?_eq_some_iff_known areKnown).mpr isEvent)
  | list spelled _ isEvent => exact (decode_tree_eq_ok_iff spelled).mpr isEvent

/-- Decoding agrees with parsing the body into a tree and reading the tree, whatever its nesting: it
succeeds exactly if the tree is a record of the kind, with the event of that kind whose payload has
the values of the record. Beyond the strict bodies it accepts those alone that depart from
strictness inside the values under keys of no field. -/
theorem decode_agrees_with_tree (kind : Kind) (body : List UInt8) :
    (∀ tree, SpellsTree body tree →
      ((∃ event, Event.decode kind body = .ok event) ↔
        ∃ values, kind.shape.ofTree? tree = some values) ∧
      ∀ event, Event.decode kind body = .ok event ↔
        event.kind = kind ∧ event.kind.shape.ofTree? tree = some event.values) ∧
    ∀ event, Event.decode kind body = .ok event ↔ Accepted kind body event :=
  ⟨fun _ spelled => ⟨exists_decode_tree_iff spelled, fun _ => decode_tree_eq_ok_iff spelled⟩,
    fun _ => ⟨accepted_of_decode, Accepted.decode⟩⟩

/-- New content with its identifier and its author under their older names, an escape, and a value
that no field takes. -/
theorem decode_agrees_with_tree_of_olderName :
    let body := Text.Utf8.encode
      "\x7b\"postId\": \"p\\u0041\", \"userId\": 7, \"x\": [1]\x7d ".toList
    SpellsTree body (.members [("postId", .text "pA"), ("userId", .number (.whole 7)),
      ("x", .items [.number (.whole 1)])]) ∧
    Event.decode .contentCreated body = .ok (.contentCreated { id := "pA", authorId := 7 }) := by
  intro body
  have spelled : SpellsTree body (.members [("postId", .text "pA"),
      ("userId", .number (.whole 7)), ("x", .items [.number (.whole 1)])]) :=
    spells_iff_scan.mpr (by decide +kernel)
  have agrees := (decode_agrees_with_tree .contentCreated body).1 _ spelled
  exact ⟨spelled, (agrees.2 _).mpr ⟨rfl, rfl⟩⟩

end Event

end DualStore
