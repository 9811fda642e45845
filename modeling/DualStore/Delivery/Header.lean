import DualStore.Text.Utf8

/-!
Contract: message headers, and the type descriptor among them.

Owns:
- header values, where long strings are bytes and short ones texts;
- tables, in which a later entry replaces an earlier one of the same key;
- the descriptor: the value under one fixed key, if it is a string.

Does not own: what a descriptor means.
-/

namespace DualStore

open DualStore.Text

inductive HeaderValue where
  | longString (bytes : List UInt8)
  | shortString (text : String)
  | integer (n : Int)
  | boolean (b : Bool)
  | octets (bytes : List UInt8)
  | table (entries : List (String × HeaderValue))
  | void
deriving Repr

/-- The text of a string value; a long string that is not UTF-8 is read with replacement
characters. -/
def HeaderValue.text? : HeaderValue → Option String
  | longString bytes => some (String.ofList (Utf8.decodeLossy bytes))
  | shortString text => some text
  | _ => none

/-- Headers in the order they were written. -/
abbrev HeaderTable := List (String × HeaderValue)

/-- The value of a key: the last one written. -/
def HeaderTable.get? (headers : HeaderTable) (key : String) : Option HeaderValue :=
  (headers.reverse.find? (·.1 == key)).map (·.2)

def typeDescriptorKey : String := "__TypeId__"

/-- The type descriptor of a message; a value that is no string counts as missing. -/
def typeDescriptor (headers : Option HeaderTable) : Option String :=
  (headers.bind (·.get? typeDescriptorKey)).bind HeaderValue.text?

end DualStore
