import DualStore.Time.Instant

/-!
Contract: object identifiers, which are twelve bytes written as twenty-four hexadecimal digits.

Owns:
- their reading, in either case of the letters, and their text, in lower case;
- the creation time in their first eight digits.

Does not own: which texts are meant as object identifiers.
-/

namespace DualStore

open DualStore.Time

structure ObjectId where
  digits : List (Fin 16)
  length_digits : digits.length = 24
deriving DecidableEq, Repr

namespace ObjectId

/-- The value of a hexadecimal digit in either case. -/
def digit? (c : Char) : Option (Fin 16) :=
  if '0' ≤ c && c ≤ '9' then some (Fin.ofNat 16 (c.toNat - 0x30))
  else if 'a' ≤ c && c ≤ 'f' then some (Fin.ofNat 16 (c.toNat - 0x61 + 10))
  else if 'A' ≤ c && c ≤ 'F' then some (Fin.ofNat 16 (c.toNat - 0x41 + 10))
  else none

def parse? (text : String) : Option ObjectId :=
  match text.toList.mapM digit? with
  | some digits => if complete : digits.length = 24 then some ⟨digits, complete⟩ else none
  | none => none

def text (id : ObjectId) : String :=
  String.ofList (id.digits.map fun d => Nat.digitChar d.val)

/-- The creation time in seconds since the epoch, unsigned. -/
def seconds (id : ObjectId) : Nat :=
  (id.digits.take 8).foldl (fun value d => value * 16 + d.val) 0

def instant (id : ObjectId) : Instant := ⟨id.seconds, 0⟩

/-- The creation time of a text that spells an object identifier. -/
def instant? (text : String) : Option Instant := (parse? text).map instant

end ObjectId

end DualStore
