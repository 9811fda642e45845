import DualStore.Event.Encoding
import DualStore.Store.Content
import DualStore.Time.Layout
import DualStore.Time.Reading

/-!
Contract: documents of the search index and their projections.

Owns:
- the document, a flat copy of a content record, and its JSON form, from which an unknown
  creation time is left out;
- the projection of a new piece of content, where the payload wins for every field it carries and
  the counters start at zero, and of a stored record;
- the update of author fields, in which an absent field stays as it is.

Does not own: when a document may be written.
-/

namespace DualStore

open DualStore.Json DualStore.Record DualStore.Time

/-- One document of the index. -/
structure IndexDocument where
  id : String := ""
  userId : Int64 := 0
  title : String := ""
  content : String := ""
  tags : List String := []
  contentType : Int32 := 0
  resources : List String := []
  cover : String := ""
  coverWidth : Int32 := 0
  coverHeight : Int32 := 0
  userNickname : String := ""
  userAvatar : String := ""
  likeCount : Int64 := 0
  collectCount : Int64 := 0
  commentCount : Int64 := 0
  createdAt : Option String := none
deriving DecidableEq, Repr, Inhabited

namespace IndexDocument

def tree (d : IndexDocument) : Tree :=
  .members ([("id", .text d.id),
    ("userId", treeOfInt d.userId.toInt),
    ("title", .text d.title),
    ("content", .text d.content),
    ("tags", .items (d.tags.map .text)),
    ("type", treeOfInt d.contentType.toInt),
    ("resources", .items (d.resources.map .text)),
    ("cover", .text d.cover),
    ("coverWidth", treeOfInt d.coverWidth.toInt),
    ("coverHeight", treeOfInt d.coverHeight.toInt),
    ("userNickname", .text d.userNickname),
    ("userAvatar", .text d.userAvatar),
    ("likeCount", treeOfInt d.likeCount.toInt),
    ("collectCount", treeOfInt d.collectCount.toInt),
    ("commentCount", treeOfInt d.commentCount.toInt)] ++
    d.createdAt.toList.map fun text => ("createdAt", .text text))

/-- The document of a new piece of content whose record has been read. -/
def ofEvent (created : ContentCreated) (record : ContentRecord) (offset : Offset) :
    IndexDocument :=
  let stated := created.createdAt.bind fun time => (time.resolve offset).map (·.instant)
  { id := created.id
    userId := created.authorId
    title := created.title
    content := created.body
    tags := created.tags
    contentType := created.contentType
    resources := created.resources
    cover := created.coverRef.getD ""
    coverWidth := created.coverWidth
    coverHeight := created.coverHeight
    userNickname := created.authorName.getD ""
    userAvatar := created.authorAvatar.getD ""
    createdAt := (stated.or record.creation?).map (·.indexText offset) }

/-- The document of a stored record. -/
def ofRecord (record : ContentRecord) (offset : Offset) : IndexDocument :=
  { id := record.id
    userId := record.authorId
    title := record.title
    content := record.body
    tags := record.tags
    contentType := record.contentType
    resources := record.resources
    cover := record.cover
    coverWidth := record.coverWidth
    coverHeight := record.coverHeight
    userNickname := record.authorName
    userAvatar := record.authorAvatar
    likeCount := record.likeCount
    collectCount := record.collectCount
    commentCount := record.commentCount
    createdAt := record.creation?.map (·.indexText offset) }

end IndexDocument

/-- Author fields to write over; an absent one stays as it is. -/
structure AuthorUpdate where
  nickname : Option String := none
  avatar : Option String := none
deriving DecidableEq, Repr

namespace AuthorUpdate

def isEmpty (update : AuthorUpdate) : Bool := update.nickname.isNone && update.avatar.isNone

/-- The update of one document. -/
def apply (update : AuthorUpdate) (d : IndexDocument) : IndexDocument :=
  { d with
    userNickname := update.nickname.getD d.userNickname
    userAvatar := update.avatar.getD d.userAvatar }

/-- What a profile change supplies. -/
def ofIdentity (identity : IdentityUpdated) : AuthorUpdate :=
  { nickname := identity.displayName, avatar := identity.avatarRef }

end AuthorUpdate

/-- Whether a removal found a document. -/
inductive Removal where
  | removed
  | notFound
deriving DecidableEq, Repr

end DualStore
