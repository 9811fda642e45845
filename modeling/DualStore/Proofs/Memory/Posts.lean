import DualStore.Memory.DocumentStore
import DualStore.Proofs.Memory.Document

/-!
Contract: the posts of a document store in memory, looked up by their ids.

Owns:
- the post and the record of an id as the documents have them, whether the collection answers or
  not, and whether that record may be indexed;
- what every operation of the store does to them: only a write to the posts can change a post, a
  rewrite of author fields never changes whether its record may be indexed, and putting a post
  leaves those of other ids alone.

Does not own: other collections.
-/

namespace DualStore.Memory.DocumentStore

open DualStore.Json DualStore.Time

/-- Whether a document stands under an id. -/
def hasId (id : String) (d : Document) : Bool := (d.get? "_id").bind Tree.text? == some id

def post? (store : DocumentStore) (id : String) : Option Document :=
  (store.documents .posts).find? (hasId id)

def content? (store : DocumentStore) (id : String) : Option ContentRecord :=
  (store.post? id).map Document.record

/-- Whether an id has a record that may be indexed. -/
def isEligible (store : DocumentStore) (id : String) : Bool :=
  (store.content? id).any (·.isIndexable)

section Lookup

variable {store : DocumentStore} {id : String}

theorem isEligible_iff :
    store.isEligible id = true ↔ ∃ record, store.content? id = some record ∧
      record.isIndexable = true := by
  simp [isEligible, Option.any_eq_true]

/-- A lookup answers with the record of the id, unless the posts are down. -/
theorem findContent_eq :
    store.findContent id =
      if store.isDown .posts then .error (downError .posts) else .ok (store.content? id) := rfl

theorem hasId_of_post? {d : Document} (found : store.post? id = some d) : hasId id d = true :=
  List.find?_some found

theorem id_of_content? {record : ContentRecord} (found : store.content? id = some record) :
    record.id = id := by
  obtain ⟨d, post, rfl⟩ := Option.map_eq_some_iff.mp found
  have holds : (d.get? "_id").bind Tree.text? = some id := by
    simpa [hasId] using hasId_of_post? post
  simp [Document.record, Document.text, holds]

end Lookup

section Operations

variable {store : DocumentStore} {collection : Collection} {field : String} {userId : Int64}
  {updates : List (String × String)}

theorem post?_congr {other : DocumentStore} (same : other.documents .posts = store.documents .posts)
    (id : String) : other.post? id = store.post? id := by
  rw [post?, post?, same]

theorem isEligible_congr {other : DocumentStore} {id : String}
    (same : other.post? id = store.post? id) : other.isEligible id = store.isEligible id := by
  rw [isEligible, isEligible, content?, content?, same]

@[simp] theorem isDown_log (operation : String) (other : Collection) :
    (store.log operation).isDown other = store.isDown other := rfl

@[simp] theorem documents_log (operation : String) (other : Collection) :
    (store.log operation).documents other = store.documents other := rfl

@[simp] theorem documents_replace (documents : List Document) (other : Collection) :
    (store.replace collection documents).documents other =
      if other = collection then documents else store.documents other := rfl

def updated (field : String) (userId : Int64) (updates : List (String × String)) (d : Document) :
    Document :=
  if d.names field userId then d.setTexts updates else d

/-- An update by user updates every document of its collection, unless that is down, and no other
document. -/
theorem documents_updateByUser (other : Collection) :
    (store.updateByUser collection field userId updates).2.documents other =
      if other = collection ∧ store.isDown collection = false then
        (store.documents collection).map (updated field userId updates)
      else store.documents other := by
  unfold updateByUser
  by_cases down : store.isDown collection = true
  · simp [down]
  · by_cases same : other = collection
    · simp [down, same, updated]
    · simp [down, same]

/-- A removal by user removes the documents of the user from its collection, unless that is down,
and no other document. -/
theorem documents_deleteByUser (other : Collection) :
    (store.deleteByUser collection field userId).2.documents other =
      if other = collection ∧ store.isDown collection = false then
        (store.documents collection).filter fun d => !d.names field userId
      else store.documents other := by
  unfold deleteByUser
  by_cases down : store.isDown collection = true
  · simp [down]
  · by_cases same : other = collection
    · simp [down, same]
    · simp [down, same]

theorem documents_insertAuditLog (entry : AuditLogEntry) (time : ZonedTime) :
    (store.insertAuditLog entry time).2.documents = store.documents := by
  unfold insertAuditLog
  split <;> rfl

theorem documents_upsertSearchHistory (keyword : String) (now : ZonedTime) :
    (store.upsertSearchHistory userId keyword now).2.documents = store.documents := by
  unfold upsertSearchHistory
  split <;> rfl

/-! Whether a collection is down decides whether an operation on it succeeds, and no operation
changes it. -/

theorem isDown_updateByUser (other : Collection) :
    (store.updateByUser collection field userId updates).2.isDown other = store.isDown other := by
  dsimp only [updateByUser]
  split <;> rfl

theorem isDown_deleteByUser (other : Collection) :
    (store.deleteByUser collection field userId).2.isDown other = store.isDown other := by
  dsimp only [deleteByUser]
  split <;> rfl

theorem isDown_insertAuditLog {entry : AuditLogEntry} {time : ZonedTime} (other : Collection) :
    (store.insertAuditLog entry time).2.isDown other = store.isDown other := by
  unfold insertAuditLog
  split <;> rfl

theorem isDown_upsertSearchHistory {keyword : String} {now : ZonedTime} (other : Collection) :
    (store.upsertSearchHistory userId keyword now).2.isDown other = store.isDown other := by
  unfold upsertSearchHistory
  split <;> rfl

theorem updateByUser_succeeds (up : store.isDown collection = false) :
    ∃ count, (store.updateByUser collection field userId updates).1 = .ok count := by
  dsimp only [updateByUser]
  rw [isDown_log, if_neg (by rw [up]; decide)]
  exact ⟨_, rfl⟩

theorem deleteByUser_succeeds (up : store.isDown collection = false) :
    ∃ count, (store.deleteByUser collection field userId).1 = .ok count := by
  dsimp only [deleteByUser]
  rw [isDown_log, if_neg (by rw [up]; decide)]
  exact ⟨_, rfl⟩

theorem insertAuditLog_succeeds {entry : AuditLogEntry} {time : ZonedTime}
    (up : store.isDown .apiLogs = false) :
    ∃ reply, (store.insertAuditLog entry time).1 = .ok reply := by
  unfold insertAuditLog
  rw [if_neg (by rw [up]; decide)]
  exact ⟨(), rfl⟩

theorem upsertSearchHistory_succeeds {keyword : String} {now : ZonedTime}
    (up : store.isDown .searchHistories = false) :
    ∃ reply, (store.upsertSearchHistory userId keyword now).1 = .ok reply := by
  unfold upsertSearchHistory
  rw [if_neg (by rw [up]; decide)]
  exact ⟨(), rfl⟩

theorem names_updated {key : String} (untouched : key ∉ updates.map (·.1)) (d : Document)
    (user : Int64) : (updated field userId updates d).names key user = d.names key user := by
  unfold updated
  split
  · exact Document.names_setTexts_of_not_mem untouched d user
  · rfl

theorem hasId_updated (untouched : "_id" ∉ updates.map (·.1)) (id : String) (d : Document) :
    hasId id (updated field userId updates d) = hasId id d := by
  unfold updated hasId
  split
  · rw [Document.get?_setTexts_of_not_mem untouched]
  · rfl

/-- An update by user that does not touch ids updates the post of every id when it is one of the
posts, and leaves it alone otherwise. -/
theorem post?_updateByUser (untouched : "_id" ∉ updates.map (·.1)) (id : String) :
    (store.updateByUser collection field userId updates).2.post? id =
      if collection = .posts ∧ store.isDown collection = false then
        (store.post? id).map (updated field userId updates)
      else store.post? id := by
  unfold post?
  rw [documents_updateByUser]
  by_cases writes : collection = .posts ∧ store.isDown collection = false
  · obtain ⟨rfl, up⟩ := writes
    rw [if_pos ⟨rfl, up⟩, if_pos ⟨rfl, up⟩, List.find?_map]
    congr 1
    exact congrArg (List.find? · _) (funext (hasId_updated untouched id))
  · have other : ¬(.posts = collection ∧ store.isDown collection = false) :=
      fun both => writes ⟨both.1.symm, both.2⟩
    rw [if_neg writes, if_neg other]

/-- A removal from another collection leaves the post of every id alone. -/
theorem post?_deleteByUser_of_ne (distinct : collection ≠ .posts) (id : String) :
    (store.deleteByUser collection field userId).2.post? id = store.post? id := by
  apply post?_congr
  rw [documents_deleteByUser, if_neg fun both => distinct both.1.symm]

/-- An update by user that touches neither ids nor the keys of eligibility leaves eligibility as
it is. -/
theorem isEligible_updateByUser (id : String) (untouched : "_id" ∉ updates.map (·.1))
    (status : "status" ∉ updates.map (·.1)) (deleted : "isDeleted" ∉ updates.map (·.1)) :
    (store.updateByUser collection field userId updates).2.isEligible id =
      store.isEligible id := by
  have kept : ∀ d : Document, (updated field userId updates d).record.isIndexable =
      d.record.isIndexable := by
    intro d
    unfold updated
    split
    · exact Document.isIndexable_record_setTexts status deleted d
    · rfl
  unfold isEligible content?
  rw [post?_updateByUser untouched]
  split
  · cases store.post? id with
    | none => rfl
    | some d => simpa using kept d
  · rfl

/-- Only a post of the same id is replaced when a post is put. -/
private theorem sameId_of_hasId {id : String} {d post : Document} (holds : hasId id d = true)
    (other : hasId id post = false) :
    sameId (d.get? "_id") (some ((post.get? "_id").getD .null)) = false := by
  have text : (d.get? "_id").bind Tree.text? = some id := by simpa [hasId] using holds
  obtain ⟨tree, read, isText⟩ := Option.bind_eq_some_iff.mp text
  have bare : tree = .text id := by
    cases tree <;> simp_all [Tree.text?]
  rw [read, bare]
  cases stored : post.get? "_id" with
  | none => rfl
  | some value =>
      cases value with
      | text content =>
          have distinct : content ≠ id := by
            intro equal
            simp [hasId, stored, Tree.text?, equal] at other
          have reversed : id ≠ content := fun equal => distinct equal.symm
          change (id == content) = false
          simpa using reversed
      | _ => rfl

/-- Putting a post leaves the posts of other ids alone. -/
theorem post?_putPost_of_ne {post : Document} {id : String} (other : hasId id post = false) :
    (store.putPost post).post? id = store.post? id := by
  unfold post? putPost insert
  simp only [documents_replace, if_true]
  rw [List.find?_append, List.find?_filter]
  have refused : [post].find? (hasId id) = none := by simp [other]
  rw [refused, Option.or_none]
  congr 1
  funext d
  cases holds : hasId id d with
  | false => simp
  | true => simp [sameId_of_hasId holds other]

def dropPost (store : DocumentStore) (id : String) : DocumentStore :=
  store.replace .posts ((store.documents .posts).filter fun d => !hasId id d)

/-- Dropping a post leaves the posts of other ids alone. -/
theorem post?_dropPost_of_ne {dropped id : String} (other : dropped ≠ id) :
    (store.dropPost dropped).post? id = store.post? id := by
  unfold post? dropPost
  rw [documents_replace, if_pos rfl, List.find?_filter]
  congr 1
  funext d
  cases holds : hasId id d with
  | false => simp
  | true =>
      have stored : (d.get? "_id").bind Tree.text? = some id := by simpa [hasId] using holds
      have distinct : id ≠ dropped := fun equal => other equal.symm
      simp [hasId, stored, distinct]

end Operations

end DualStore.Memory.DocumentStore
