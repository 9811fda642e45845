import DualStore.Json.Tree
import DualStore.Number.Double
import DualStore.Store.ObjectId
import DualStore.Text.Decimal

/-!
Contract: values of a document server.

Owns:
- the value types, of which the numeric ones are kept apart;
- equality, which never holds between values of different types;
- the canonical JSON form, which names the type of every number, identifier and date.

Does not own: the fields of any collection.
-/

namespace DualStore

open DualStore.Json DualStore.Text

/-- A stored value. Types from which no field is ever read are told by their name only. -/
inductive Bson where
  | double (x : Number.Double)
  | text (content : String)
  | document (fields : List (String × Bson))
  | array (values : List Bson)
  | boolean (b : Bool)
  | null
  | objectId (id : ObjectId)
  | dateTime (millis : Int64)
  | int32 (n : Int32)
  | int64 (n : Int64)
  | other (typeName : String)
deriving Repr, Inhabited

namespace Bson

/-- The fields of a document, in order. -/
abbrev Fields := List (String × Bson)

def Fields.get? (fields : Fields) (key : String) : Option Bson :=
  (fields.find? (·.1 == key)).map (·.2)

mutual

/-- Equality of values: of the same type and with the same content. -/
def same : Bson → Bson → Bool
  | .double x, .double y => x == y
  | .text x, .text y => x == y
  | .document x, .document y => sameFields x y
  | .array x, .array y => sameValues x y
  | .boolean x, .boolean y => x == y
  | .null, .null => true
  | .objectId x, .objectId y => x == y
  | .dateTime x, .dateTime y => x == y
  | .int32 x, .int32 y => x == y
  | .int64 x, .int64 y => x == y
  | .other x, .other y => x == y
  | _, _ => false

def sameFields : List (String × Bson) → List (String × Bson) → Bool
  | [], [] => true
  | (k, x) :: xs, (l, y) :: ys => k == l && x.same y && sameFields xs ys
  | _, _ => false

def sameValues : List Bson → List Bson → Bool
  | [], [] => true
  | x :: xs, y :: ys => x.same y && sameValues xs ys
  | _, _ => false

end

instance : BEq Bson := ⟨same⟩

mutual

/-- The canonical JSON form of a value. -/
def tree : Bson → Tree
  | .double x =>
      let content :=
        if x.isFinite then x.text
        else if x.fractionBits ≠ 0 then "NaN"
        else if x.isNegative then "-Infinity"
        else "Infinity"
      .members [("$numberDouble", .text content)]
  | .text content => .text content
  | .document fields => .members (fieldTrees fields)
  | .array values => .items (valueTrees values)
  | .boolean b => .bool b
  | .null => .null
  | .objectId id => .members [("$oid", .text id.text)]
  | .dateTime millis =>
      .members [("$date", .members [("$numberLong", .text (intText millis.toInt))])]
  | .int32 n => .members [("$numberInt", .text (intText n.toInt))]
  | .int64 n => .members [("$numberLong", .text (intText n.toInt))]
  | .other typeName => .members [("$" ++ typeName, .null)]

def fieldTrees : List (String × Bson) → List (String × Tree)
  | [] => []
  | (key, value) :: fields => (key, value.tree) :: fieldTrees fields

def valueTrees : List Bson → List Tree
  | [] => []
  | value :: values => value.tree :: valueTrees values

end

/-- The value of an optional text; an absent one is null. -/
def ofText? (content : Option String) : Bson :=
  match content with
  | some content => .text content
  | none => .null

/-- The value of an optional integer; an absent one is null. -/
def ofInt64? (n : Option Int64) : Bson :=
  match n with
  | some n => .int64 n
  | none => .null

/-- A text equals no number and no identifier. -/
example : (Bson.text "5" == .int32 5) = false := rfl

/-- The two widths of an integer are two types. -/
example : (Bson.int32 5 == .int64 5) = false := rfl

end Bson

end DualStore
