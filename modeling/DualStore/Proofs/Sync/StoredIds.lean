import DualStore.Proofs.Sync.Keys
import Mathlib.Data.List.Nodup

/-!
Contract: which posts are found again under the ids of their records.

Owns:
- the stored identifiers that the text of a record's id leads back to: object identifiers, and texts
  that do not spell one;
- from this, exactly which posts an event about the id of their record finds, and that it removes
  the others from the index.

Does not own: ids in another spelling than that of the record.
-/

namespace DualStore

open Memory

/-! ## Identifiers and their texts -/

/-- Whether a stored identifier is the one that its own text is looked up by. The text of an object
identifier spells it, and a text that spells none stands for itself; a number becomes a text, and
nothing is looked up by a number. -/
def Bson.isLookedUp : Bson → Bool
  | .objectId _ => true
  | .text content => (ObjectId.parse? content).isNone
  | _ => false

namespace Command

variable {stored : Bson} {id : String}

theorem identifier_eq_iff_isLookedUp (spelled : ContentRecord.idText? stored = some id) :
    identifier id = stored ↔ stored.isLookedUp = true := by
  cases stored with
  | objectId objectId =>
      cases spelled
      simp [identifier, ObjectId.parse?_text, Bson.isLookedUp]
  | text content =>
      cases spelled
      rcases identifier_cases id with ⟨objectId, parsed, looked⟩ | ⟨parsed, looked⟩ <;>
        simp [looked, parsed, Bson.isLookedUp]
  | int32 n | int64 n =>
      rcases identifier_cases id with ⟨objectId, _, looked⟩ | ⟨_, looked⟩ <;>
        simp [looked, Bson.isLookedUp]
  | _ => cases spelled

end Command

namespace FixedPosts

variable {posts : List Bson.Fields} {post : Bson.Fields} {id : String}

/-- What is found in a list is one of its posts, under the identifier of the id. -/
theorem mem_of_post? (found : (ofList posts).post? id = some post) :
    post ∈ posts ∧ post.get? "_id" = some (Command.identifier id) := by
  obtain ⟨stored, own, same⟩ := (ofList posts).found found
  rw [own, Command.eq_identifier_of_same same]
  exact ⟨List.mem_of_find?_eq_some found, rfl⟩

theorem post?_eq_none_iff : (ofList posts).post? id = none ↔
    ∀ post ∈ posts, post.get? "_id" ≠ some (Command.identifier id) := by
  constructor
  · intro missing post stored own
    have passedOver := List.find?_eq_none.mp missing post stored
    simp [own, Command.identifier_same] at passedOver
  · intro others
    cases found : (ofList posts).post? id with
    | none => rfl
    | some post =>
        obtain ⟨stored, own⟩ := mem_of_post? found
        exact absurd own (others post stored)

/-- Among posts with different identifiers, one that has the identifier of an id is found. -/
theorem post?_eq_some_iff (distinct : (posts.map (·.get? "_id")).Nodup) (stored : post ∈ posts) :
    (ofList posts).post? id = some post ↔ post.get? "_id" = some (Command.identifier id) := by
  refine ⟨fun found => (mem_of_post? found).2, fun own => ?_⟩
  cases found : (ofList posts).post? id with
  | none => exact absurd own (post?_eq_none_iff.mp found post stored)
  | some other =>
      obtain ⟨listed, otherwise⟩ := mem_of_post? found
      rw [List.inj_on_of_nodup_map distinct listed stored (otherwise.trans own.symm)]

/-! ## Events about the id of a record -/

/-- For every post that is projected to a record: the lookup of the id of the record asks for the
identifier of the post exactly if that is one that its text is looked up by. Among posts with
different identifiers these are exactly the posts that are found under the id of their record. Let
no other post have the identifier that is asked for: then an event about that id, other than a
deletion, puts the post in the index if it may be indexed and is found, and otherwise removes it. -/
theorem found_iff_isLookedUp (posts : List Bson.Fields)
    (distinct : (posts.map (·.get? "_id")).Nodup) (stored : post ∈ posts) {record : ContentRecord}
    (projected : ContentRecord.ofFields post = .ok record) :
    ∃ own, post.get? "_id" = some own ∧
      (Command.findContent record.id = .findOne .posts [("_id", own)] ↔ own.isLookedUp = true) ∧
      ((ofList posts).post? record.id = some post ↔ own.isLookedUp = true) ∧
      ∀ context policy world event, event.settles? context = some record.id →
        event.isDeletion = false → record.isIndexable = true → world.index.failures = 0 →
        (∀ other ∈ posts, other ≠ post →
          other.get? "_id" ≠ some (Command.identifier record.id)) →
        (((ofList posts).synchronise context policy world (event, [])).index.get?
          record.id).isSome = own.isLookedUp := by
  obtain ⟨own, isOwn, spelled⟩ := ContentRecord.idText?_of_ofFields projected
  have lookedUp := Command.identifier_eq_iff_isLookedUp spelled
  have found : (ofList posts).post? record.id = some post ↔ own.isLookedUp = true := by
    rw [post?_eq_some_iff distinct stored, isOwn, Option.some.injEq, eq_comm, lookedUp]
  refine ⟨own, isOwn, ?_, found, ?_⟩
  · rw [← lookedUp, Command.findContent]
    simp
  · intro context policy world event settles keeps indexable quiet alone
    cases isLookedUp : own.isLookedUp with
    | true =>
        obtain ⟨project, reconciles, spelledSo⟩ := Event.reconciles_of_settles settles keeps
        have isRecord : (ofList posts).record? record.id = some record := by
          rw [record?, found.mpr isLookedUp, Option.bind_some, projected]
          rfl
        rw [get?_synchronise_of_eligible isRecord indexable reconciles quiet,
          if_pos (spelledSo record rfl)]
        rfl
    | false =>
        have missing : (ofList posts).post? record.id = none := by
          refine post?_eq_none_iff.mpr fun other listed => ?_
          by_cases same : other = post
          · rw [same, isOwn, ne_eq, Option.some.injEq, eq_comm, lookedUp, isLookedUp]
            exact Bool.false_ne_true
          · exact alone other listed same
        have removes : (ofList posts).Removes context record.id event := by
          refine ⟨settles, Or.inr ?_⟩
          rw [isEligible, record?, missing]
          rfl
        rw [get?_synchronise_of_removes removes quiet, if_pos rfl]
        rfl

/-! ### A post with a text and a post with a number -/

/-- A published post with an identifier. -/
def identified (identifier : Bson) : Bson.Fields := [("_id", identifier), ("status", .int32 1)]

/-- A post with a text for an identifier is found beside one with a number, and a change puts it in
the index. -/
theorem found_of_text :
    let posts := [identified (.int32 5), identified (.text "p")]
    let changed := (ofList posts).synchronise .plain (.new 1 0) {} (.contentUpdated ⟨"p"⟩, [])
    (ofList posts).post? "p" = some (identified (.text "p")) ∧
      (changed.index.get? "p").isSome = true := by
  intro posts changed
  obtain ⟨record, projected, isText⟩ : ∃ record,
      ContentRecord.ofFields (identified (.text "p")) = .ok record ∧ record.id = "p" :=
    ⟨_, rfl, rfl⟩
  have distinct : (posts.map (·.get? "_id")).Nodup := by
    simp [posts, identified, Bson.Fields.get?]
  have stored : identified (.text "p") ∈ posts := List.mem_cons_of_mem _ List.mem_cons_self
  obtain ⟨own, isOwn, _, found, indexed⟩ := found_iff_isLookedUp posts distinct stored projected
  obtain rfl : own = .text "p" := Option.some.inj isOwn.symm
  rw [isText] at found indexed
  refine ⟨found.mpr (by decide +kernel), ?_⟩
  have indexable : record.isIndexable = true := by
    cases projected
    decide +kernel
  rw [indexed .plain (.new 1 0) {} (.contentUpdated ⟨"p"⟩) rfl rfl indexable rfl ?_]
  · decide +kernel
  · intro other listed different
    have isNumber : other = identified (.int32 5) := by
      simpa [posts, different] using listed
    rw [isNumber]
    exact fun same => Command.identifier_ne_int32 (Option.some.inj same).symm

/-- A published post with a number for an identifier is projected to a record, but nothing is found
under the id of that record, and a change of the post removes it from the index. -/
theorem missing_of_number :
    let post := identified (.int32 5)
    let indexed : World := { index := { documents := [{ id := "5" }] } }
    let changed := (ofList [post]).synchronise .plain (.new 1 0) indexed (.contentUpdated ⟨"5"⟩, [])
    (∃ record, ContentRecord.ofFields post = .ok record ∧ record.id = "5" ∧
      record.isIndexable = true) ∧
      Command.findContent "5" ≠ .findOne .posts [("_id", .int32 5)] ∧
      (ofList [post]).post? "5" = none ∧
      (indexed.index.get? "5").isSome = true ∧ changed.index.get? "5" = none := by
  intro post indexed changed
  refine ⟨⟨_, rfl, by decide +kernel, by decide +kernel⟩, ?_, ?_, by decide, ?_⟩
  · intro same
    injection same with _ filters
    injection filters with fields _
    exact Command.identifier_ne_int32 (Prod.mk.inj fields).2
  · refine post?_eq_none_iff.mpr fun other listed => ?_
    rw [List.mem_singleton.mp listed]
    exact fun same => Command.identifier_ne_int32 (Option.some.inj same).symm
  · decide +kernel

end FixedPosts

end DualStore
