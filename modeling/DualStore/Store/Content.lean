import DualStore.Store.ObjectId

/-!
Contract: content as the document store holds it.

Owns:
- the record, reduced to what the index needs;
- the rule which records may be indexed, and the creation time of a record.

Does not own: how a stored document is read into a record.
-/

namespace DualStore

open DualStore.Time

structure ContentRecord where
  id : String := ""
  authorId : Int64 := 0
  authorName : String := ""
  authorAvatar : String := ""
  title : String := ""
  body : String := ""
  tags : List String := []
  contentType : Int32 := 0
  resources : List String := []
  cover : String := ""
  coverWidth : Int32 := 0
  coverHeight : Int32 := 0
  likeCount : Int64 := 0
  collectCount : Int64 := 0
  commentCount : Int64 := 0
  status : Int32 := 0
  isDeleted : Bool := false
  createdAt : Option Instant := none
deriving DecidableEq, Repr, Inhabited

namespace ContentRecord

/-- The status of published content. -/
def published : Int32 := 1

/-- Only published content that is not deleted may appear in the index. -/
def isIndexable (record : ContentRecord) : Bool :=
  !record.isDeleted && record.status == published

/-- The stored creation time, else the one in an object identifier. It never depends on the
clock, so that a replay projects the same document. -/
def creation? (record : ContentRecord) : Option Instant :=
  record.createdAt.or (ObjectId.instant? record.id)

end ContentRecord

end DualStore
