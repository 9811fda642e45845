import DualStore.Proofs.Json.Grammar
import DualStore.Proofs.Record.Values

/-!
Contract: the readers of records agree with the reading of their drafts.

Owns:
- what one member does to the slots of an object, and what all members do;
- the slots that the members fill hold, for each field, what the members that name it hold, if no
  key names two fields;
- the readers of objects, of lists and of whole texts succeed exactly where the bytes spell a
  record.

Does not own: the records of this program.
-/

namespace DualStore.Record

open DualStore.Json

/-! ## One member -/

/-- The slots behind a member: the first field that its key names takes its value, once. -/
def Slots.take? : {fields : List Field} → Slots fields → String × Draft → Option (Slots fields)
  | [], (), _ => some ()
  | field :: _, (slot, slots), (key, draft) =>
      if field.answersTo key then
        match slot with
        | some _ => Option.none
        | Option.none => (field.type.ofDraft? draft).map fun value => (some value, slots)
      else (Slots.take? slots (key, draft)).map fun slots => (slot, slots)

section Reader

variable {ending : Ending} {tokens rest : List Token}

theorem readColon_eq_ok_iff : readColon ending tokens = .ok rest ↔ tokens = .colon :: rest := by
  constructor
  · intro read
    unfold readColon at read
    split at read
    · cases read
    · cases read
      rfl
    · cases read
  · rintro rfl
    rfl

/-- The reader of a member takes the colon and the tokens of one draft, which goes into the
slots. -/
theorem readMember_eq_ok_iff {key : String} {fields : List Field} {slots filled : Slots fields} :
    readMember ending key fields slots tokens = .ok (filled, rest) ↔
      ∃ draft : Draft, tokens = .colon :: draft.tokens rest ∧
        slots.take? (key, draft) = some filled := by
  induction fields with
  | nil =>
      constructor
      · intro read
        rw [readMember] at read
        split at read
        · cases read
        · rename_i after isColon
          obtain ⟨behind, skipped, same⟩ := map_eq_ok_iff.mp read
          cases same
          obtain ⟨draft, rfl⟩ := skipValue_eq_ok_iff.mp skipped
          exact ⟨draft, readColon_eq_ok_iff.mp isColon, rfl⟩
      · rintro ⟨draft, rfl, _⟩
        have skipped : skipValue ending (draft.tokens rest) = .ok rest :=
          skipValue_eq_ok_iff.mpr ⟨draft, rfl⟩
        rw [readMember, readColon]
        simp only [skipped]
        rfl
  | cons field fields inductionHypothesis =>
      obtain ⟨slot, slots⟩ := slots
      by_cases named : field.answersTo key = true
      · cases slot with
        | some value => simp [readMember, Slots.take?, named]
        | none =>
            simp only [readMember, Slots.take?, named, if_true]
            constructor
            · intro read
              split at read
              · cases read
              · rename_i after isColon
                obtain ⟨⟨value, behind⟩, readsValue, same⟩ := map_eq_ok_iff.mp read
                cases same
                obtain ⟨draft, rfl, isValue⟩ := FieldType.read_eq_ok_iff.mp readsValue
                exact ⟨draft, readColon_eq_ok_iff.mp isColon, by rw [isValue, Option.map_some]⟩
            · rintro ⟨draft, rfl, taken⟩
              obtain ⟨value, isValue, rfl⟩ := Option.map_eq_some_iff.mp taken
              have readsValue : field.type.read ending (draft.tokens rest) = .ok (value, rest) :=
                FieldType.read_eq_ok_iff.mpr ⟨draft, rfl, isValue⟩
              rw [readColon]
              simp only [readsValue]
              rfl
      · simp only [readMember, Slots.take?, named, Bool.false_eq_true, if_false]
        rw [map_eq_ok_iff]
        constructor
        · rintro ⟨⟨others, behind⟩, read, same⟩
          cases same
          obtain ⟨draft, isTokens, taken⟩ := inductionHypothesis.mp read
          exact ⟨draft, isTokens, by rw [taken, Option.map_some]⟩
        · rintro ⟨draft, isTokens, taken⟩
          obtain ⟨others, isOthers, rfl⟩ := Option.map_eq_some_iff.mp taken
          exact ⟨(others, rest), inductionHypothesis.mpr ⟨draft, isTokens, isOthers⟩, rfl⟩

end Reader

/-! ## All members -/

/-- The slots behind members. -/
def Slots.takeAll? {fields : List Field} (slots : Slots fields) :
    List (String × Draft) → Option (Slots fields)
  | [] => some slots
  | member :: members => (slots.take? member).bind fun slots => slots.takeAll? members

/-- The slot of a field behind members: empty if none names it, and there is none if several do. -/
def Field.slot? (field : Field) (members : List (String × Draft)) :
    Option (Option field.type.Holds) :=
  match field.given members with
  | [] => some none
  | [draft] => (field.type.ofDraft? draft).map some
  | _ => none

/-- The slots that members fill, each field on its own. -/
def Slots.ofMembers? : (fields : List Field) → List (String × Draft) → Option (Slots fields)
  | [], _ => some ()
  | field :: fields, members =>
      (field.slot? members).bind fun slot =>
        (ofMembers? fields members).map fun slots => (slot, slots)

theorem Slots.ofMembers?_nil (fields : List Field) :
    ofMembers? fields [] = some (.none fields) := by
  induction fields with
  | nil => rfl
  | cons field fields inductionHypothesis =>
      rw [ofMembers?, inductionHypothesis]
      rfl

theorem Field.slot?_concat_of_other {field : Field} {key : String}
    (other : field.answersTo key = false) (members : List (String × Draft)) (draft : Draft) :
    field.slot? (members ++ [(key, draft)]) = field.slot? members := by
  rw [slot?, slot?, given_append, given_singleton, other]
  simp

/-- Another member that names a field fills its slot if it is empty. -/
theorem Field.slot?_concat_of_named {field : Field} {key : String}
    (named : field.answersTo key = true) (members : List (String × Draft)) (draft : Draft) :
    field.slot? (members ++ [(key, draft)]) =
      (field.slot? members).bind fun slot =>
        match slot with
        | some _ => none
        | none => (field.type.ofDraft? draft).map some := by
  rw [slot?, slot?, given_append, given_singleton, named]
  rcases field.given members with _ | ⟨first, _ | ⟨second, others⟩⟩
  · rfl
  · cases isValue : field.type.ofDraft? first <;> simp [isValue]
  · simp

theorem Slots.ofMembers?_concat_of_other {fields : List Field} {key : String}
    (other : ∀ field ∈ fields, field.answersTo key = false) (members : List (String × Draft))
    (draft : Draft) :
    ofMembers? fields (members ++ [(key, draft)]) = ofMembers? fields members := by
  induction fields with
  | nil => rfl
  | cons field fields inductionHypothesis =>
      rw [ofMembers?, ofMembers?, Field.slot?_concat_of_other (other field List.mem_cons_self),
        inductionHypothesis fun later member => other later (List.mem_cons_of_mem _ member)]

/-- One more member goes into the slots as the reader puts it there. -/
theorem Slots.ofMembers?_concat {fields : List Field} (distinct : Distinct fields)
    (members : List (String × Draft)) (member : String × Draft) :
    ofMembers? fields (members ++ [member]) =
      (ofMembers? fields members).bind fun slots => slots.take? member := by
  obtain ⟨key, draft⟩ := member
  induction fields with
  | nil => rfl
  | cons field fields inductionHypothesis =>
      obtain ⟨apart, distinct⟩ := List.pairwise_cons.mp distinct
      by_cases named : field.answersTo key = true
      -- No later field has this key, so only the first slot can change.
      · have others : ∀ later ∈ fields, later.answersTo key = false :=
          fun later member => apart later member key named
        rw [ofMembers?, ofMembers?, ofMembers?_concat_of_other others,
          Field.slot?_concat_of_named named]
        cases field.slot? members with
        | none => rfl
        | some slot =>
            cases ofMembers? fields members with
            | none => simp
            | some slots =>
                cases slot with
                | some value => simp [take?, named]
                | none => cases isValue : field.type.ofDraft? draft <;> simp [take?, named, isValue]
      · rw [ofMembers?, ofMembers?, Field.slot?_concat_of_other (eq_false_of_ne_true named),
          inductionHypothesis distinct]
        cases field.slot? members with
        | none => rfl
        | some slot =>
            cases ofMembers? fields members with
            | none => rfl
            | some slots => simp [take?, named]

theorem Slots.takeAll?_ofMembers? {fields : List Field} (distinct : Distinct fields)
    (done members : List (String × Draft)) :
    ((ofMembers? fields done).bind fun slots => slots.takeAll? members) =
      ofMembers? fields (done ++ members) := by
  induction members generalizing done with
  | nil => simp [takeAll?]
  | cons member members inductionHypothesis =>
      calc
        _ = ((ofMembers? fields done).bind fun slots => slots.take? member).bind
              fun slots => slots.takeAll? members := by
            rw [Option.bind_assoc]
            rfl
        _ = ofMembers? fields (done ++ [member] ++ members) := by
            rw [← ofMembers?_concat distinct, inductionHypothesis]
        _ = _ := by rw [List.append_assoc, List.singleton_append]

/-- The reader of members fills the slots as each field finds its members. -/
theorem Slots.takeAll?_none {fields : List Field} (distinct : Distinct fields)
    (members : List (String × Draft)) :
    (none fields).takeAll? members = ofMembers? fields members := by
  have filled := takeAll?_ofMembers? distinct [] members
  rwa [ofMembers?_nil, Option.bind_some, List.nil_append] at filled

/-- A field has the value in its slot; an empty slot leaves it absent. -/
theorem Field.ofMembers?_eq_slot (field : Field) (members : List (String × Draft)) :
    field.ofMembers? FieldType.ofDraft? members =
      (field.slot? members).bind fun slot => slot.orElse fun _ => field.type.absent := by
  rw [ofMembers?, slot?]
  rcases field.given members with _ | ⟨draft, _ | ⟨second, others⟩⟩
  · rfl
  · cases isValue : field.type.ofDraft? draft <;> simp [isValue]
  · rfl

theorem Slots.finish_cons_eq_ok_iff {field : Field} {fields : List Field}
    {slot : Option field.type.Holds} {slots : Slots fields} {value : field.type.Holds}
    {values : Values fields} :
    Slots.finish (field :: fields) (slot, slots) = .ok (value, values) ↔
      (slot.orElse fun _ => field.type.absent) = some value ∧
        Slots.finish fields slots = .ok values := by
  rw [Slots.finish]
  cases slot.orElse fun _ => field.type.absent with
  | none => simp
  | some found =>
      simp only [map_eq_ok_iff, Option.some.injEq]
      constructor
      · rintro ⟨others, finished, same⟩
        cases same
        exact ⟨rfl, finished⟩
      · rintro ⟨rfl, finished⟩
        exact ⟨values, finished, rfl⟩

/-- The record is complete where every field has a value or may be absent. -/
theorem Slots.finish_ofMembers? {fields : List Field} {members : List (String × Draft)}
    {values : Values fields} :
    (∃ slots, ofMembers? fields members = some slots ∧ slots.finish fields = .ok values) ↔
      Record.ofMembers? FieldType.ofDraft? fields members = some values := by
  induction fields with
  | nil =>
      constructor
      · rintro ⟨slots, _, _⟩
        rfl
      · intro _
        exact ⟨(), rfl, rfl⟩
  | cons field fields inductionHypothesis =>
      obtain ⟨value, values⟩ := values
      rw [ofMembers?_cons_eq_some_iff, field.ofMembers?_eq_slot]
      constructor
      · rintro ⟨slots, filled, finished⟩
        obtain ⟨slot, isSlot, more⟩ := Option.bind_eq_some_iff.mp filled
        obtain ⟨others, areOthers, rfl⟩ := Option.map_eq_some_iff.mp more
        obtain ⟨isValue, areValues⟩ := finish_cons_eq_ok_iff.mp finished
        exact ⟨Option.bind_eq_some_iff.mpr ⟨slot, isSlot, isValue⟩,
          inductionHypothesis.mp ⟨others, areOthers, areValues⟩⟩
      · rintro ⟨isFound, areValues⟩
        obtain ⟨slot, isSlot, isValue⟩ := Option.bind_eq_some_iff.mp isFound
        obtain ⟨slots, areSlots, finished⟩ := inductionHypothesis.mpr areValues
        refine ⟨(slot, slots), ?_, finish_cons_eq_ok_iff.mpr ⟨isValue, finished⟩⟩
        rw [ofMembers?, isSlot, areSlots]
        rfl

/-! ## Objects -/

/-- Members as a draft holds them. -/
def keyed (members : List (String × Draft)) : List (Option String × Draft) :=
  members.map fun member => (some member.1, member.2)

/-- The tokens of the members that an object still holds where its reader stands. -/
def Place.memberTokens (place : Place) (members : List (String × Draft)) (rest : List Token) :
    List Token :=
  match place with
  | .following => Draft.moreMembers (keyed members) rest
  | _ => Draft.memberTokens (keyed members) rest

section Objects

variable {ending : Ending} {fields : List Field} {values : Values fields} {tokens rest : List Token}

theorem tokens_of_readMembers {place : Place} {slots : Slots fields}
    (read : readMembers ending fields slots place tokens = .ok (values, rest)) :
    ∃ members filled, tokens = place.memberTokens members rest ∧
      (place = .wanting → members ≠ []) ∧ slots.takeAll? members = some filled ∧
      filled.finish fields = .ok values := by
  fun_induction readMembers ending fields slots place tokens with
  | case4 slots after =>
      obtain ⟨found, finished, same⟩ := map_eq_ok_iff.mp read
      cases same
      exact ⟨[], slots, rfl, (absurd · (by decide)), rfl, finished⟩
  | case5 slots after =>
      obtain ⟨found, finished, same⟩ := map_eq_ok_iff.mp read
      cases same
      exact ⟨[], slots, rfl, (absurd · (by decide)), rfl, finished⟩
  | case6 slots after inductionHypothesis =>
      obtain ⟨members, filled, rfl, nonempty, taken, finished⟩ := inductionHypothesis read
      cases members with
      | nil => exact absurd rfl (nonempty rfl)
      | cons first others =>
          exact ⟨first :: others, filled, rfl, (absurd · (by decide)), taken, finished⟩
  | case9 slots place key behind next after readsMember notFollowing inductionHypothesis =>
      obtain ⟨members, filled, rfl, _, taken, finished⟩ := inductionHypothesis read
      obtain ⟨draft, rfl, isTaken⟩ := readMember_eq_ok_iff.mp readsMember
      refine ⟨(key, draft) :: members, filled, ?_, fun _ => List.cons_ne_nil _ _, ?_, finished⟩
      · cases place with
        | following => exact absurd rfl notFollowing
        | opened => rfl
        | wanting => rfl
      · rw [Slots.takeAll?, isTaken]
        exact taken
  | _ => cases read

theorem readMembers_text {place : Place} (notFollowing : place ≠ .following) {key : String}
    {slots next : Slots fields} {after : List Token}
    (readsMember : readMember ending key fields slots tokens = .ok (next, after)) :
    readMembers ending fields slots place (.text (some key) :: tokens) =
      readMembers ending fields next .following after := by
  rw [readMembers]
  · split
    · rename_i failed
      rw [readsMember] at failed
      cases failed
    · rename_i found
      rw [readsMember] at found
      cases found
      rfl
  · exact notFollowing

theorem readMembers_of_takeAll? {members : List (String × Draft)} {slots filled : Slots fields}
    (taken : slots.takeAll? members = some filled) (finished : filled.finish fields = .ok values)
    {place : Place} (wantsMore : place = .wanting → members ≠ []) :
    readMembers ending fields slots place (place.memberTokens members rest) =
      .ok (values, rest) := by
  induction members generalizing slots place with
  | nil =>
      cases taken
      cases place with
      | wanting => exact absurd rfl (wantsMore rfl)
      | opened =>
          show readMembers ending fields filled .opened (.closeMembers :: rest) = _
          rw [readMembers, finished]
          rfl
      | following =>
          show readMembers ending fields filled .following (.closeMembers :: rest) = _
          rw [readMembers, finished]
          rfl
  | cons member members inductionHypothesis =>
      obtain ⟨key, draft⟩ := member
      obtain ⟨next, isNext, more⟩ := Option.bind_eq_some_iff.mp taken
      have reads : readMembers ending fields next .following
          (Place.following.memberTokens members rest) = .ok (values, rest) :=
        inductionHypothesis more (absurd · (by decide))
      have readsMember : readMember ending key fields slots
          (.colon :: draft.tokens (Place.following.memberTokens members rest)) =
            .ok (next, Place.following.memberTokens members rest) :=
        readMember_eq_ok_iff.mpr ⟨draft, rfl, isNext⟩
      have behindKey : ∀ place : Place, place ≠ .following →
          readMembers ending fields slots place (.text (some key) :: .colon ::
            draft.tokens (Place.following.memberTokens members rest)) = .ok (values, rest) :=
        fun place notFollowing => (readMembers_text notFollowing readsMember).trans reads
      cases place with
      | opened => exact behindKey .opened (by decide)
      | wanting => exact behindKey .wanting (by decide)
      | following =>
          show readMembers ending fields slots .following (.comma :: .text (some key) :: .colon ::
            draft.tokens (Place.following.memberTokens members rest)) = _
          rw [readMembers]
          exact behindKey .wanting (by decide)

/-- The reader of an object takes exactly the tokens of members that make up a record. -/
theorem readMembers_eq_ok_iff (distinct : Distinct fields) :
    readMembers ending fields (.none fields) .opened tokens = .ok (values, rest) ↔
      ∃ members, tokens = Draft.memberTokens (keyed members) rest ∧
        ofMembers? FieldType.ofDraft? fields members = some values := by
  simp only [← Slots.finish_ofMembers?, ← Slots.takeAll?_none distinct]
  constructor
  · intro read
    obtain ⟨members, filled, isTokens, _, taken, finished⟩ := tokens_of_readMembers read
    exact ⟨members, isTokens, filled, taken, finished⟩
  · rintro ⟨members, rfl, filled, taken, finished⟩
    have reads : readMembers ending fields (.none fields) .opened
        (Place.opened.memberTokens members rest) = .ok (values, rest) :=
      readMembers_of_takeAll? taken finished (absurd · (by decide))
    exact reads

end Objects

/-! ## Lists -/

section Lists

variable {ending : Ending} {shape : Shape} {tokens rest : List Token}

theorem readItemsEnd_eq_ok_iff :
    readItemsEnd ending tokens = .ok rest ↔ tokens = .closeItems :: rest := by
  constructor
  · intro read
    unfold readItemsEnd at read
    split at read
    · cases read
    · cases read
      rfl
    · cases read
  · rintro rfl
    rfl

/-- The comma in front of an element that is not the first. -/
def Place.lead (place : Place) (tokens : List Token) : List Token :=
  match place with
  | .following => .comma :: tokens
  | _ => tokens

theorem readComma_eq_ok_iff {place : Place} :
    readComma ending place tokens = .ok rest ↔ tokens = place.lead rest := by
  constructor
  · intro read
    unfold readComma at read
    split at read
    · cases read
    · cases read
      rfl
    · cases read
    · rename_i notEnd notComma notOther
      cases read
      cases place with
      | following =>
          cases tokens with
          | nil => exact absurd rfl (notEnd rfl)
          | cons token tokens => exact absurd rfl (notOther token tokens rfl)
      | opened => rfl
      | wanting => rfl
  · rintro rfl
    cases place <;> rfl

theorem Place.itemTokens_cons (place : Place) (item : Draft) (items : List Draft) :
    place.itemTokens (item :: items) rest =
      place.lead (item.tokens (Place.following.itemTokens items rest)) := by
  cases place <;> rfl

theorem Place.itemTokens_nil (place : Place) : place.itemTokens [] rest = .closeItems :: rest := by
  cases place <;> rfl

/-- Only an empty list ends where an element may begin. -/
theorem Place.nil_of_closeItems {place : Place} {items : List Draft} {after : List Token}
    (ends : .closeItems :: after = place.itemTokens items rest) : items = [] ∧ after = rest := by
  cases items with
  | nil =>
      rw [place.itemTokens_nil] at ends
      exact ⟨rfl, (List.cons.inj ends).2⟩
  | cons item items =>
      rw [place.itemTokens_cons] at ends
      cases place with
      | following => cases ends
      | opened => exact absurd ends.symm (item.tokens_ne_closeItems _ _)
      | wanting => exact absurd ends.symm (item.tokens_ne_closeItems _ _)

theorem readElements_cons_eq_ok_iff {field : Field} {fields : List Field}
    {value : field.type.Holds} {values : Values fields} {index : Nat} {place : Place}
    (notEnd : ∀ after, tokens ≠ .closeItems :: after) :
    readElements ending shape index (field :: fields) place tokens = .ok ((value, values), rest) ↔
      ∃ (item : Draft) (after : List Token), tokens = place.lead (item.tokens after) ∧
        field.type.ofDraft? item = some value ∧
        readElements ending shape (index + 1) fields .following after = .ok (values, rest) := by
  rw [readElements]
  · constructor
    · intro read
      split at read
      · cases read
      · rename_i behind readsComma
        split at read
        · cases read
        · rename_i found after readsValue
          obtain ⟨⟨others, last⟩, readsOthers, same⟩ := map_eq_ok_iff.mp read
          cases same
          obtain ⟨item, rfl, isValue⟩ := FieldType.read_eq_ok_iff.mp readsValue
          exact ⟨item, after, readComma_eq_ok_iff.mp readsComma, isValue, readsOthers⟩
    · rintro ⟨item, after, isTokens, isValue, readsOthers⟩
      have readsValue : field.type.read ending (item.tokens after) = .ok (value, after) :=
        FieldType.read_eq_ok_iff.mpr ⟨item, rfl, isValue⟩
      simp only [readComma_eq_ok_iff.mpr isTokens, readsValue, readsOthers]
      rfl
  · exact notEnd

theorem readElements_closeItems_eq_ok_iff {field : Field} {fields : List Field}
    {value : field.type.Holds} {values : Values fields} {index : Nat} {place : Place}
    {after : List Token} :
    readElements ending shape index (field :: fields) place (.closeItems :: after) =
        .ok ((value, values), rest) ↔
      field.type.absent = some value ∧
        readElements ending shape (index + 1) fields place (.closeItems :: after) =
          .ok (values, rest) := by
  rw [readElements]
  cases field.type.absent with
  | none => simp
  | some found =>
      simp only [map_eq_ok_iff, Option.some.injEq]
      constructor
      · rintro ⟨⟨others, last⟩, readsOthers, same⟩
        cases same
        exact ⟨rfl, readsOthers⟩
      · rintro ⟨rfl, readsOthers⟩
        exact ⟨(values, rest), readsOthers, rfl⟩

/-- The reader of a list takes exactly the tokens of values that make up a record. -/
theorem readElements_eq_ok_iff {fields : List Field} {values : Values fields} {index : Nat}
    {place : Place} :
    readElements ending shape index fields place tokens = .ok (values, rest) ↔
      ∃ items : List Draft, tokens = place.itemTokens items rest ∧
        ofItems? FieldType.ofDraft? fields items = some values := by
  -- At the end of the list the fields that are left are absent, one after the other, and the
  -- closing bracket is taken when none is left.
  induction fields generalizing place tokens index with
  | nil =>
      rw [readElements, map_eq_ok_iff]
      constructor
      · rintro ⟨after, isEnd, same⟩
        cases same
        refine ⟨[], ?_, rfl⟩
        rw [readItemsEnd_eq_ok_iff.mp isEnd, place.itemTokens_nil]
      · rintro ⟨items, rfl, isRecord⟩
        cases items with
        | nil =>
            refine ⟨rest, ?_, rfl⟩
            rw [place.itemTokens_nil]
            rfl
        | cons item items => cases isRecord
  | cons field fields inductionHypothesis =>
      obtain ⟨value, values⟩ := values
      by_cases isEnd : ∃ after, tokens = .closeItems :: after
      · obtain ⟨after, rfl⟩ := isEnd
        rw [readElements_closeItems_eq_ok_iff, inductionHypothesis]
        constructor
        · rintro ⟨isAbsent, items, ends, areValues⟩
          obtain ⟨rfl, rfl⟩ := Place.nil_of_closeItems ends
          exact ⟨[], ends, ofItems?_nil_eq_some_iff.mpr ⟨isAbsent, areValues⟩⟩
        · rintro ⟨items, ends, isRecord⟩
          obtain ⟨rfl, rfl⟩ := Place.nil_of_closeItems ends
          obtain ⟨isAbsent, areValues⟩ := ofItems?_nil_eq_some_iff.mp isRecord
          exact ⟨isAbsent, [], ends, areValues⟩
      · have notEnd : ∀ after, tokens ≠ .closeItems :: after :=
          fun after same => isEnd ⟨after, same⟩
        rw [readElements_cons_eq_ok_iff notEnd]
        constructor
        · rintro ⟨item, after, rfl, isValue, readsOthers⟩
          obtain ⟨items, rfl, areValues⟩ := inductionHypothesis.mp readsOthers
          exact ⟨item :: items, (place.itemTokens_cons item items).symm,
            ofItems?_cons_eq_some_iff.mpr ⟨isValue, areValues⟩⟩
        · rintro ⟨items, rfl, isRecord⟩
          cases items with
          | nil => exact absurd place.itemTokens_nil (notEnd rest)
          | cons item items =>
              obtain ⟨isValue, areValues⟩ := ofItems?_cons_eq_some_iff.mp isRecord
              exact ⟨item, _, place.itemTokens_cons item items, isValue,
                inductionHypothesis.mpr ⟨items, rfl, areValues⟩⟩

end Lists

/-! ## Whole texts -/

section Texts

variable {shape : Shape} {values : Values shape.fields}

theorem readEnd_eq_ok_iff {ending : Ending} {tokens : List Token} :
    readEnd ending tokens = .ok () ↔ ending = .finished ∧ tokens = [] := by
  unfold readEnd
  split
  · simp
  · rename_i other
    constructor
    · intro failed
      cases failed
    · rintro ⟨rfl, rfl⟩
      exact absurd rfl (other rfl)

/-- The record that the tokens of a text begin with. -/
def Shape.leading (shape : Shape) (scan : Scan) : Read (Values shape.fields) :=
  match scan.tokens with
  | [] => .error (noValue scan.ending)
  | .openMembers :: tokens =>
      readMembers scan.ending shape.fields (.none shape.fields) .opened tokens
  | .openItems :: tokens => readElements scan.ending shape 0 shape.fields .opened tokens
  | token :: _ => .error (unwanted (.record shape.name) token)

/-- A record is the whole text where nothing is left behind it. -/
theorem Shape.ofScan_eq_ok_iff {scan : Scan} :
    shape.ofScan scan = .ok values ↔
      scan.ending = .finished ∧ shape.leading scan = .ok (values, []) := by
  rw [Shape.ofScan]
  split
  · rename_i failure failed
    have failed : shape.leading scan = .error failure := failed
    simp [failed]
  · rename_i found rest begun
    have begun : shape.leading scan = .ok (found, rest) := begun
    rw [begun, map_eq_ok_iff]
    constructor
    · rintro ⟨_, ended, rfl⟩
      obtain ⟨finished, rfl⟩ := readEnd_eq_ok_iff.mp ended
      exact ⟨finished, rfl⟩
    · rintro ⟨finished, same⟩
      cases same
      exact ⟨(), readEnd_eq_ok_iff.mpr ⟨finished, rfl⟩, rfl⟩

/-- A text is read as a record exactly where it spells the members or the values of that record. -/
theorem Shape.read_eq_ok_iff (distinct : Distinct shape.fields) {body : List UInt8} :
    shape.read body = .ok values ↔
      (∃ members, Spells body (.members (keyed members)) ∧
        ofMembers? FieldType.ofDraft? shape.fields members = some values) ∨
      (∃ items, Spells body (.items items) ∧
        ofItems? FieldType.ofDraft? shape.fields items = some values) := by
  rw [Shape.read, Shape.ofScan_eq_ok_iff]
  simp only [spells_iff_scan, Draft.tokens_members, Draft.tokens_items]
  obtain ⟨tokens, ending⟩ := scan body
  cases tokens with
  | nil => simp [leading]
  | cons token tokens =>
      cases token with
      | openMembers =>
          simp only [leading, readMembers_eq_ok_iff distinct]
          simp [and_comm, and_left_comm]
      | openItems =>
          simp only [leading, readElements_eq_ok_iff]
          simp [and_comm, and_left_comm, Place.itemTokens]
      | _ => simp [leading]

end Texts

end DualStore.Record
