import DualStore.Json.Tree
import DualStore.Text.Quoted

/-!
Contract: why a text yields no value of an expected shape.

Owns:
- the three categories of failure: truncated, malformed, and well-formed but of another shape;
- the causes of the third and their wording.

Does not own: which shape is expected.
-/

namespace DualStore.Json

open DualStore.Text

/-- What a reader found in place of what it wanted. -/
inductive Found where
  | whole (n : Int)
  | double (x : DualStore.Number.Double)
  | text (content : String)
  | bool (value : Bool)
  | null
  | items
  | members
deriving DecidableEq, Repr

def Found.message : Found → String
  | whole n => "integer `" ++ intText n ++ "`"
  | double x => "floating point `" ++ x.text ++ "`"
  | text content => "string " ++ quoted content
  | bool true => "boolean `true`"
  | bool false => "boolean `false`"
  | null => "null"
  | items => "sequence"
  | members => "map"

inductive Wanted where
  | int64
  | int32
  | text
  | items
  | record (name : String)
deriving DecidableEq, Repr

def Wanted.message : Wanted → String
  | int64 => "i64"
  | int32 => "i32"
  | text => "a string"
  | items => "a sequence"
  | record name => "struct " ++ name

/-- The values that are told apart by what they are. -/
inductive Alternative where
  | identifier
  | timestamp
deriving DecidableEq, Repr

def Alternative.name : Alternative → String
  | identifier => "Id"
  | timestamp => "RawTimestamp"

/-- Why a well-formed text has not the expected shape. -/
inductive Mismatch where
  | wrongType (found : Found) (wanted : Wanted)
  | outOfRange (n : Int) (wanted : Wanted)
  | wrongLength (length : Nat) (record : String) (fields : Nat)
  | missingField (name : String)
  | repeatedField (name : String)
  | noAlternative (alternative : Alternative)
  | blankIdentifier
deriving DecidableEq, Repr

def Mismatch.message : Mismatch → String
  | wrongType found wanted =>
      "invalid type: " ++ found.message ++ ", expected " ++ wanted.message
  | outOfRange n wanted =>
      "invalid value: integer `" ++ intText n ++ "`, expected " ++ wanted.message
  | wrongLength length record fields =>
      "invalid length " ++ natText length ++ ", expected struct " ++ record ++ " with " ++
        natText fields ++ (if fields = 1 then " element" else " elements")
  | missingField name => "missing field `" ++ name ++ "`"
  | repeatedField name => "duplicate field `" ++ name ++ "`"
  | noAlternative alternative =>
      "data did not match any variant of untagged enum " ++ alternative.name
  | blankIdentifier => "empty id"

/-- Why a text yields no value. -/
inductive Failure where
  | truncated
  | malformed
  | mismatch (cause : Mismatch)
deriving DecidableEq, Repr

/-- The category that a problem of the text belongs to. -/
def Problem.failure (problem : Problem) : Failure :=
  if problem.isTruncation then .truncated else .malformed

end DualStore.Json
