import DualStore.Fault
import DualStore.Number.Bounds
import DualStore.Store.Bson
import DualStore.Store.Content

/-!
Contract: content records read from stored posts.

Owns: the projection of a stored document. Writers have stored numbers in several types, so
numbers are read leniently, and absent or ill-typed fields are zero; only the identifier has to be
usable.

Does not own: how a post is found.
-/

namespace DualStore

open DualStore.Number DualStore.Time

namespace Bson.Fields

/-- The number under a key. A double is truncated to the range of 64 bits; what is no number
counts as zero. -/
def int64 (fields : Fields) (key : String) : Int64 :=
  match fields.get? key with
  | some (.int32 n) => n.toInt64
  | some (.int64 n) => n
  | some (.double x) => Int64.ofInt (x.truncate (largestInt64 + 1) largestInt64)
  | _ => 0

/-- The low 32 bits of the number under a key. -/
def int32 (fields : Fields) (key : String) : Int32 := (fields.int64 key).toInt32

/-- The text under a key; what is no text counts as empty. -/
def text (fields : Fields) (key : String) : String :=
  match fields.get? key with
  | some (.text content) => content
  | _ => ""

/-- The texts among the values of a list under a key. -/
def texts (fields : Fields) (key : String) : List String :=
  match fields.get? key with
  | some (.array values) => values.filterMap fun
      | .text content => some content
      | _ => none
  | _ => []

/-- The switch under a key: a truth value, or a number that is not zero. -/
def flag (fields : Fields) (key : String) : Bool :=
  match fields.get? key with
  | some (.boolean b) => b
  | some _ => fields.int64 key != 0
  | none => false

def instant? (fields : Fields) (key : String) : Option Instant :=
  match fields.get? key with
  | some (.dateTime millis) =>
      some ((instantOfMillis? millis.toInt).getD
        (if millis < 0 then ⟨firstSecond, 0⟩ else ⟨lastSecond, 999999999⟩))
  | _ => none

end Bson.Fields

namespace ContentRecord

/-- The text of an identifier, if it is one that a post may have. -/
def idText? : Bson → Option String
  | .objectId id => some id.text
  | .text id => some id
  | .int64 n => some (Text.intText n.toInt)
  | .int32 n => some (Text.intText n.toInt)
  | _ => none

def ofFields (fields : Bson.Fields) : Except StoreError ContentRecord :=
  match (fields.get? "_id").bind idText? with
  | none => .error (.invalidDocument "posts document without usable _id")
  | some id =>
      .ok
        { id
          authorId := fields.int64 "userId"
          authorName := fields.text "userNickname"
          authorAvatar := fields.text "userAvatar"
          title := fields.text "title"
          body := fields.text "content"
          tags := fields.texts "tags"
          contentType := fields.int32 "type"
          resources := fields.texts "resources"
          cover := fields.text "cover"
          coverWidth := fields.int32 "coverWidth"
          coverHeight := fields.int32 "coverHeight"
          likeCount := fields.int64 "likeCount"
          collectCount := fields.int64 "collectCount"
          commentCount := fields.int64 "commentCount"
          status := fields.int32 "status"
          isDeleted := fields.flag "isDeleted"
          createdAt := fields.instant? "createdAt" }

end ContentRecord

end DualStore
