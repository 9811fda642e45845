/-!
Contract: the UTF-8 form of a list of characters, and its reading.

Owns:
- the byte form of a character list;
- a reader that goes byte by byte and reports every maximal ill-formed piece;
- the strict reading, which refuses any ill-formed piece, and the lossy one, which writes the
  replacement character for each.

Does not own: byte order marks, which are ordinary characters here.
-/

namespace DualStore.Text.Utf8

/-- The bytes of a character list, in order. -/
def encode (cs : List Char) : List UInt8 :=
  cs.flatMap String.utf8EncodeChar

/-- Where the reader stands between two bytes: at the start of a character, or inside one of
which `need` bytes are owed, the next of them between `low` and `high`, with `value` collected. -/
inductive State where
  | ready
  | pending (need : Nat) (low high : UInt8) (value : Nat)
deriving DecidableEq, Repr

/-- What one byte contributes: a whole character, or the end of an ill-formed piece. -/
inductive Piece where
  | whole (c : Char)
  | broken
deriving DecidableEq, Repr

/-- The first byte of a character: it stands alone, or it says how many bytes follow and how
the first of those is bounded, so that no overlong form, no surrogate and nothing above the last
code point is begun. -/
def start (b : UInt8) : List Piece × State :=
  let lead := b.toNat
  if lead < 0x80 then ([.whole (Char.ofNat lead)], .ready)
  else if 0xC2 ≤ lead && lead ≤ 0xDF then ([], .pending 1 0x80 0xBF (lead - 0xC0))
  else if lead = 0xE0 then ([], .pending 2 0xA0 0xBF 0)
  else if lead = 0xED then ([], .pending 2 0x80 0x9F (lead - 0xE0))
  else if 0xE1 ≤ lead && lead ≤ 0xEF then ([], .pending 2 0x80 0xBF (lead - 0xE0))
  else if lead = 0xF0 then ([], .pending 3 0x90 0xBF 0)
  else if 0xF1 ≤ lead && lead ≤ 0xF3 then ([], .pending 3 0x80 0xBF (lead - 0xF0))
  else if lead = 0xF4 then ([], .pending 3 0x80 0x8F (lead - 0xF0))
  else ([.broken], .ready)

/-- One byte. A byte that does not continue the character begun ends an ill-formed piece and is
then read as a first byte. -/
def step : State → UInt8 → List Piece × State
  | .ready, b => start b
  | .pending need low high value, b =>
      if low ≤ b && b ≤ high then
        let value := value * 64 + (b.toNat - 0x80)
        match need with
        | 0 | 1 => ([.whole (Char.ofNat value)], .ready)
        | need + 1 => ([], .pending need 0x80 0xBF value)
      else
        let (pieces, state) := start b
        (.broken :: pieces, state)

/-- The pieces of a byte sequence, a character cut off at its end being one ill-formed piece. -/
def pieces : State → List UInt8 → List Piece
  | .ready, [] => []
  | .pending .., [] => [.broken]
  | state, b :: bs => (step state b).1 ++ pieces (step state b).2 bs

/-- The strict reading, one state per byte, that stops at the first ill-formed piece. -/
def decodeFrom (done : List Char) : State → List UInt8 → Option (List Char)
  | .ready, [] => some done.reverse
  | .pending .., [] => none
  | state, b :: bs =>
      match step state b with
      | ([], state) => decodeFrom done state bs
      | ([.whole c], state) => decodeFrom (c :: done) state bs
      | _ => none

/-- The characters of a well-formed byte sequence. -/
def decode? (bs : List UInt8) : Option (List Char) :=
  decodeFrom [] .ready bs

/-- The character that stands for an ill-formed piece. -/
def replacement : Char := '\uFFFD'

/-- The characters of any byte sequence, with one replacement character for every maximal
ill-formed piece. -/
def decodeLossy (bs : List UInt8) : List Char :=
  (pieces .ready bs).map fun
    | .whole c => c
    | .broken => replacement

example : decode? (encode "aé€😀".toList) = some "aé€😀".toList := by decide +kernel
example : decode? [0xED, 0xA0, 0x80] = none := by decide
example : decodeLossy [0xE2, 0x82, 0x41] = [replacement, 'A'] := by decide

end DualStore.Text.Utf8
