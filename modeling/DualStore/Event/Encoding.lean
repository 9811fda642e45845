import DualStore.Event.Payload
import DualStore.Json.Writer

/-!
Contract: the JSON form of an event's payload.

Owns:
- the tree of a payload: every field in order under its first name, an absent option as null;
- the bytes of that tree.

Does not own: the kind, which travels outside the body.
-/

namespace DualStore

open DualStore.Json DualStore.Record

namespace Record

def treeOfInt (n : Int) : Tree := .number (.whole n)

def treeOfOption (tree : α → Tree) : Option α → Tree
  | none => .null
  | some value => tree value

def WrittenTime.tree : WrittenTime → Tree
  | .epoch count => treeOfInt count.toInt
  | .text content => .text content

def FieldType.tree : (type : FieldType) → type.Holds → Tree
  | .identifier, value => .text value
  | .int64, value => treeOfInt value.toInt
  | .int64OrZero, value => treeOfInt value.toInt
  | .int32OrZero, value => treeOfInt value.toInt
  | .optionalInt64, value => treeOfOption (fun n : Int64 => treeOfInt n.toInt) value
  | .textOrEmpty, value => .text value
  | .optionalText, value => treeOfOption .text value
  | .textsOrEmpty, value => .items (value.map .text)
  | .optionalTime, value => treeOfOption WrittenTime.tree value

/-- The members of a record. -/
def Values.members : (fields : List Field) → Values fields → List (String × Tree)
  | [], () => []
  | field :: fields, (value, values) =>
      (field.name, field.type.tree value) :: Values.members fields values

end Record

namespace Event

def tree (event : Event) : Tree := .members (Values.members event.kind.shape.fields event.values)

def encode (event : Event) : List UInt8 := event.tree.bytes

example : Event.decode .contentDeleted (Text.Utf8.encode "\x7b\"postId\": 42\x7d".toList) =
    .ok (.contentDeleted { id := "42" }) := by cbv

end Event

end DualStore
