import DualStore.Text.Printable

/-!
Contract: a text between double quotes, as error messages show it.

Owns:
- the escapes: tab, carriage return, line feed, quote, backslash and the null character have
  short ones, any other character without a visible form and any that attaches to the one before
  it is written by its code point in hexadecimal.

Does not own: the quoted form of JSON.
-/

namespace DualStore.Text

def quotedChar (c : Char) : List Char :=
  if c = '\x00' then ['\\', '0']
  else if c = '\t' then ['\\', 't']
  else if c = '\r' then ['\\', 'r']
  else if c = '\n' then ['\\', 'n']
  else if c = '"' then ['\\', '"']
  else if c = '\\' then ['\\', '\\']
  else if isExtender c || !isPrintable c then
    ['\\', 'u', '\x7b'] ++ Nat.toDigits 16 c.toNat ++ ['\x7d']
  else [c]

def quoted (s : String) : String :=
  String.ofList ('"' :: s.toList.flatMap quotedChar ++ ['"'])

example : quoted "a\t\"é" = "\"a\\t\\\"é\"" := by decide +kernel

end DualStore.Text
