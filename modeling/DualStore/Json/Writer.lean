import DualStore.Json.Tree

/-!
Contract: the compact text of a tree.

Owns:
- the layout without blanks, members in their order;
- the quoted form, in which quotes, backslashes and control characters are escaped and all else
  stands as it is;
- the decimal form of integers and the shortest form of doubles.

Does not own: the order of members, which is the tree's.
-/

namespace DualStore.Json

open DualStore.Number DualStore.Text

/-- The hexadecimal digit of a value below sixteen, in lower case. -/
def hexDigit (d : Nat) : Char := Nat.digitChar d

/-- A character inside quotes. Control characters with a one-letter escape use it, the others
are written by their code. -/
def writeChar (c : Char) : List Char :=
  if c = '"' then ['\\', '"']
  else if c = '\\' then ['\\', '\\']
  else if c.toNat < 0x20 then
    if c.toNat = 0x08 then ['\\', 'b']
    else if c.toNat = 0x09 then ['\\', 't']
    else if c.toNat = 0x0A then ['\\', 'n']
    else if c.toNat = 0x0C then ['\\', 'f']
    else if c.toNat = 0x0D then ['\\', 'r']
    else ['\\', 'u', '0', '0', hexDigit (c.toNat / 16), hexDigit (c.toNat % 16)]
  else [c]

def writeText (content : String) : List Char :=
  '"' :: content.toList.flatMap writeChar ++ ['"']

def Value.write : Value → List Char
  | .whole n => intDigits n
  | .double x => x.text.toList

namespace Tree

mutual

/-- The compact text of a tree. -/
def write : Tree → List Char
  | .null => ['n', 'u', 'l', 'l']
  | .bool true => ['t', 'r', 'u', 'e']
  | .bool false => ['f', 'a', 'l', 's', 'e']
  | .number value => value.write
  | .text content => writeText content
  | .items values => '[' :: writeItems values ++ [']']
  | .members fields => '\x7b' :: writeMembers fields ++ ['\x7d']

def writeItems : List Tree → List Char
  | [] => []
  | [value] => value.write
  | value :: next :: values => value.write ++ ',' :: writeItems (next :: values)

def writeMembers : List (String × Tree) → List Char
  | [] => []
  | [(key, value)] => writeText key ++ ':' :: value.write
  | (key, value) :: next :: fields =>
      writeText key ++ ':' :: value.write ++ ',' :: writeMembers (next :: fields)

end

def render (tree : Tree) : String := String.ofList tree.write

def bytes (tree : Tree) : List UInt8 := Utf8.encode tree.write

end Tree

end DualStore.Json
