/-!
Contract: what can be wrong with a JSON text, before its meaning is looked at.

Owns:
- the problems and their wording;
- their two categories: the text ends too early, or it is malformed.

Does not own: the place of a problem, and anything about the shape a reader expects.
-/

namespace DualStore.Json

/-- What stops the reading of a JSON text. -/
inductive Problem where
  | unfinishedItems
  | unfinishedMembers
  | unfinishedText
  | unfinishedValue
  | expectedColon
  | expectedItemEnd
  | expectedMemberEnd
  | expectedLiteral
  | expectedValue
  | invalidEscape
  | invalidNumber
  | numberOutOfRange
  | invalidCodePoint
  | controlCharacter
  | keyNotText
  | loneSurrogate
  | trailingComma
  | trailingCharacters
  | brokenSurrogatePair
  | nestedTooDeeply
deriving DecidableEq, Repr

namespace Problem

/-- The four problems that more text could still mend. -/
def isTruncation : Problem → Bool
  | unfinishedItems | unfinishedMembers | unfinishedText | unfinishedValue => true
  | _ => false

def message : Problem → String
  | unfinishedItems => "EOF while parsing a list"
  | unfinishedMembers => "EOF while parsing an object"
  | unfinishedText => "EOF while parsing a string"
  | unfinishedValue => "EOF while parsing a value"
  | expectedColon => "expected `:`"
  | expectedItemEnd => "expected `,` or `]`"
  | expectedMemberEnd => "expected `,` or `\x7d`"
  | expectedLiteral => "expected ident"
  | expectedValue => "expected value"
  | invalidEscape => "invalid escape"
  | invalidNumber => "invalid number"
  | numberOutOfRange => "number out of range"
  | invalidCodePoint => "invalid unicode code point"
  | controlCharacter =>
      "control character (\\u0000-\\u001F) found while parsing a string"
  | keyNotText => "key must be a string"
  | loneSurrogate => "lone leading surrogate in hex escape"
  | trailingComma => "trailing comma"
  | trailingCharacters => "trailing characters"
  | brokenSurrogatePair => "unexpected end of hex escape"
  | nestedTooDeeply => "recursion limit exceeded"

end Problem

end DualStore.Json
