import DualStore.Json.Tree
import DualStore.Store.Content
import DualStore.Time.Reading

/-!
Contract: stored documents as maps from keys to JSON values.

Owns:
- the map: reading, setting and the form of an object without repeated keys;
- whether a field of a document holds a user;
- the content record that a document of the posts describes, absent or ill-typed fields being
  zero.

Does not own: the collections.
-/

namespace DualStore.Memory

open DualStore.Json DualStore.Time

/-- A document; each key occurs once when it is built by `set`. -/
structure Document where
  fields : List (String × Tree)
deriving Repr, Inhabited

namespace Document

def empty : Document := ⟨[]⟩

def get? (d : Document) (key : String) : Option Tree :=
  (d.fields.find? (·.1 == key)).map (·.2)

/-- Sets a key in a list of fields, in place where it is there already. -/
def setIn (key : String) (value : Tree) : List (String × Tree) → List (String × Tree)
  | [] => [(key, value)]
  | (k, v) :: fields =>
      if k == key then (k, value) :: fields else (k, v) :: setIn key value fields

def set (d : Document) (key : String) (value : Tree) : Document := ⟨setIn key value d.fields⟩

def setTexts (d : Document) (updates : List (String × String)) : Document :=
  updates.foldl (fun d update => d.set update.1 (.text update.2)) d

/-- The document that the members of an object make; of repeated keys the last one counts. -/
def ofMembers (fields : List (String × Tree)) : Document :=
  fields.foldl (fun d field => d.set field.1 field.2) empty

/-- The text of a key, empty when it holds none. -/
def text (d : Document) (key : String) : String := ((d.get? key).bind Tree.text?).getD ""

/-- The integer of a key, zero when it holds none. -/
def int64 (d : Document) (key : String) : Int64 := ((d.get? key).bind Tree.int64?).getD 0

/-- The texts in a list under a key. -/
def texts (d : Document) (key : String) : List String :=
  (((d.get? key).bind Tree.items?).getD []).filterMap Tree.text?

/-- Whether a field holds a user. -/
def names (d : Document) (field : String) (userId : Int64) : Bool :=
  (d.get? field).bind Tree.int64? == some userId

/-- The content record that a document describes. -/
def record (d : Document) : ContentRecord :=
  { id := d.text "_id"
    authorId := d.int64 "userId"
    authorName := d.text "userNickname"
    authorAvatar := d.text "userAvatar"
    title := d.text "title"
    body := d.text "content"
    tags := d.texts "tags"
    contentType := (d.int64 "type").toInt32
    resources := d.texts "resources"
    cover := d.text "cover"
    coverWidth := (d.int64 "coverWidth").toInt32
    coverHeight := (d.int64 "coverHeight").toInt32
    likeCount := d.int64 "likeCount"
    collectCount := d.int64 "collectCount"
    commentCount := d.int64 "commentCount"
    status := (d.int64 "status").toInt32
    isDeleted := d.int64 "isDeleted" != 0
    createdAt := ((d.get? "createdAt").bind Tree.text?).bind readInstant }

end Document

end DualStore.Memory
