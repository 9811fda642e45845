import DualStore.Json.Problem
import DualStore.Number.Bounds
import DualStore.Number.Double
import DualStore.Text.Utf8

/-!
Contract: the leaves of JSON, read from bytes: quoted texts, numbers, literals and blanks.

Owns:
- the strict reading of a quoted text, with escapes decoded, surrogates paired and UTF-8 checked
  at the closing quote, and its lenient counterpart, which only looks for the closing quote;
- the grammar and the value of a number: an integer of 64 bits where it is one, else the double
  that the digits denote, if that is finite;
- for every failure, the bytes left where it is noticed.

Does not own: what may stand where; that is the reader's part.
-/

namespace DualStore.Json

open DualStore.Number DualStore.Text

/-- A failed reading: the problem, and the bytes left behind the place where it is noticed. -/
structure Stop where
  problem : Problem
  left : List UInt8
deriving DecidableEq, Repr

/-! ## Quoted texts -/

/-- The value of a hexadecimal digit. -/
def hexValue? (b : UInt8) : Option Nat :=
  let n := b.toNat
  if 0x30 ≤ n && n ≤ 0x39 then some (n - 0x30)
  else if 0x61 ≤ n && n ≤ 0x66 then some (n - 0x61 + 10)
  else if 0x41 ≤ n && n ≤ 0x46 then some (n - 0x41 + 10)
  else none

/-- The sixteen-bit unit that four hexadecimal digits spell. -/
def hexUnit? (a b c d : UInt8) : Option Nat :=
  match hexValue? a, hexValue? b, hexValue? c, hexValue? d with
  | some a, some b, some c, some d => some (((a * 16 + b) * 16 + c) * 16 + d)
  | _, _, _, _ => none

/-- The byte that a one-letter escape stands for. -/
def shortEscape? (b : UInt8) : Option UInt8 :=
  if b = 0x22 then some 0x22
  else if b = 0x5C then some 0x5C
  else if b = 0x2F then some 0x2F
  else if b = 0x62 then some 0x08
  else if b = 0x66 then some 0x0C
  else if b = 0x6E then some 0x0A
  else if b = 0x72 then some 0x0D
  else if b = 0x74 then some 0x09
  else none

def opensPair (unit : Nat) : Bool := 0xD800 ≤ unit && unit ≤ 0xDBFF

def closesPair (unit : Nat) : Bool := 0xDC00 ≤ unit && unit ≤ 0xDFFF

def pairChar (first second : Nat) : Char :=
  Char.ofNat ((first - 0xD800) * 0x400 + (second - 0xDC00) + 0x10000)

/-- The bytes of a character in front of those collected, last first. -/
def pushChar (done : List UInt8) (c : Char) : List UInt8 :=
  (String.utf8EncodeChar c).reverse ++ done

/-- The strict reading behind an opening quote: the content's bytes and what follows the closing
quote. `done` holds the bytes read so far, last first. -/
def readTextFrom (done : List UInt8) : List UInt8 → Except Stop (List UInt8 × List UInt8)
  | [] => .error ⟨.unfinishedText, []⟩
  | b :: rest =>
      if b = 0x22 then .ok (done.reverse, rest)
      else if b = 0x5C then
        match rest with
        | [] => .error ⟨.unfinishedText, []⟩
        | e :: rest =>
            match shortEscape? e with
            | some plain => readTextFrom (plain :: done) rest
            | none =>
                if e = 0x75 then
                  match rest with
                  | h1 :: h2 :: h3 :: h4 :: rest =>
                      match hexUnit? h1 h2 h3 h4 with
                      | none => .error ⟨.invalidEscape, rest⟩
                      | some unit =>
                          if closesPair unit then .error ⟨.loneSurrogate, rest⟩
                          else if opensPair unit then
                            match rest with
                            | [] => .error ⟨.unfinishedText, []⟩
                            | s :: rest =>
                                if s = 0x5C then
                                  match rest with
                                  | [] => .error ⟨.unfinishedText, []⟩
                                  | u :: rest =>
                                      if u = 0x75 then
                                        match rest with
                                        | g1 :: g2 :: g3 :: g4 :: rest =>
                                            match hexUnit? g1 g2 g3 g4 with
                                            | none => .error ⟨.invalidEscape, rest⟩
                                            | some second =>
                                                if closesPair second then
                                                  readTextFrom
                                                    (pushChar done (pairChar unit second)) rest
                                                else .error ⟨.loneSurrogate, rest⟩
                                        | _ => .error ⟨.unfinishedText, []⟩
                                      else .error ⟨.brokenSurrogatePair, rest⟩
                                else .error ⟨.brokenSurrogatePair, rest⟩
                          else readTextFrom (pushChar done (Char.ofNat unit)) rest
                  | _ => .error ⟨.unfinishedText, []⟩
                else .error ⟨.invalidEscape, rest⟩
      else if b < 0x20 then .error ⟨.controlCharacter, rest⟩
      else readTextFrom (b :: done) rest

/-- The strict reading of a quoted text behind its opening quote. -/
def readText (bs : List UInt8) : Except Stop (String × List UInt8) :=
  match readTextFrom [] bs with
  | .error stop => .error stop
  | .ok (content, rest) =>
      match Utf8.decode? content with
      | some cs => .ok (String.ofList cs, rest)
      | none => .error ⟨.invalidCodePoint, rest⟩

/-- The lenient reading behind an opening quote: escapes keep their form, but neither surrogates
nor UTF-8 are looked at. -/
def skipText : List UInt8 → Except Stop (List UInt8)
  | [] => .error ⟨.unfinishedText, []⟩
  | b :: rest =>
      if b = 0x22 then .ok rest
      else if b = 0x5C then
        match rest with
        | [] => .error ⟨.unfinishedText, []⟩
        | e :: rest =>
            match shortEscape? e with
            | some _ => skipText rest
            | none =>
                if e = 0x75 then
                  match rest with
                  | h1 :: h2 :: h3 :: h4 :: rest =>
                      match hexUnit? h1 h2 h3 h4 with
                      | none => .error ⟨.invalidEscape, rest⟩
                      | some _ => skipText rest
                  | _ => .error ⟨.unfinishedText, []⟩
                else .error ⟨.invalidEscape, rest⟩
      else if b < 0x20 then .error ⟨.controlCharacter, rest⟩
      else skipText rest

/-! ## Numbers -/

/-- The value of a number: an integer within 64 bits, signed when negative and unsigned
otherwise, or a finite double. -/
inductive Value where
  | whole (n : Int)
  | double (x : Double)
deriving DecidableEq, Repr

def isDigit (b : UInt8) : Bool := 0x30 ≤ b && b ≤ 0x39

def digitOf (b : UInt8) : Nat := b.toNat - 0x30

/-- The parts of a number as written. -/
structure Numeral where
  negative : Bool
  whole : List UInt8
  fraction : List UInt8
  exponent : Option (Bool × List UInt8)
deriving DecidableEq, Repr

/-- The largest significand that is kept exactly. -/
def largestSignificand : Nat := largestNat64

/-- The leading digits that fit into 64 bits, and the count of those that do not. -/
def gather (significand : Nat) : List UInt8 → Nat × Nat
  | [] => (significand, 0)
  | d :: ds =>
      let next := significand * 10 + digitOf d
      if next ≤ largestSignificand then gather next ds else (significand, ds.length + 1)

/-- The largest exponent that is read digit by digit. -/
def largestExponent : Nat := largestInt32

/-- The value of exponent digits; none beyond the largest. -/
def exponentOf? (value : Nat) : List UInt8 → Option Nat
  | [] => some value
  | d :: ds =>
      let next := value * 10 + digitOf d
      if next ≤ largestExponent then exponentOf? next ds else none

/-- An exponent within 32 bits. -/
def clampExponent (e : Int) : Int := max (-largestInt32 - 1) (min e largestInt32)

namespace Numeral

/-- A numeral with neither fraction nor exponent. -/
def isPlain (n : Numeral) : Bool := n.fraction.isEmpty && n.exponent.isNone

/-- The significand and its decimal exponent: digits beyond 64 bits only shift the point. -/
def significand (n : Numeral) : Nat × Int :=
  let (whole, dropped) := gather 0 n.whole
  let (all, ignored) := gather whole n.fraction
  (all, (dropped : Int) - (n.fraction.length - ignored : Nat))

/-- The double that the numeral denotes; none when it is not finite. -/
def double? (n : Numeral) : Option Double :=
  let (significand, shift) := n.significand
  match n.exponent with
  | none => Double.ofDecimal? n.negative significand shift
  | some (falling, digits) =>
      match exponentOf? 0 digits with
      | some e =>
          Double.ofDecimal? n.negative significand
            (clampExponent (if falling then shift - e else shift + e))
      | none =>
          if significand ≠ 0 && !falling then none else Double.ofDecimal? n.negative 0 0

/-- The value of a numeral; none when it is out of range. A negative zero is a double. -/
def value? (n : Numeral) : Option Value :=
  let (magnitude, dropped) := gather 0 n.whole
  if n.isPlain && dropped = 0 then
    if !n.negative then some (.whole magnitude)
    else if 0 < magnitude && magnitude ≤ largestInt64 + 1 then some (.whole (-(magnitude : Int)))
    else (Double.ofDecimal? true magnitude 0).map .double
  else n.double?.map .double

end Numeral

def spanDigits (bs : List UInt8) : List UInt8 × List UInt8 :=
  (bs.takeWhile isDigit, bs.dropWhile isDigit)

/-- The optional exponent of a number and what follows it. -/
def readExponent (bs : List UInt8) : Except Stop (Option (Bool × List UInt8) × List UInt8) :=
  match bs with
  | e :: rest =>
      if e = 0x65 || e = 0x45 then
        let (falling, rest) : Bool × List UInt8 :=
          match rest with
          | s :: after => if s = 0x2B then (false, after) else if s = 0x2D then (true, after)
              else (false, rest)
          | [] => (false, [])
        match rest with
        | [] => .error ⟨.unfinishedValue, []⟩
        | d :: after =>
            if isDigit d then
              .ok (some (falling, (spanDigits rest).1), (spanDigits rest).2)
            else .error ⟨.invalidNumber, after⟩
      else .ok (none, bs)
  | [] => .ok (none, [])

/-- The optional fraction of a number and what follows it. -/
def readFraction (bs : List UInt8) : Except Stop (List UInt8 × List UInt8) :=
  match bs with
  | p :: rest =>
      if p = 0x2E then
        match rest with
        | [] => .error ⟨.unfinishedValue, []⟩
        | d :: after =>
            if isDigit d then .ok (spanDigits rest) else .error ⟨.invalidNumber, after⟩
      else .ok ([], bs)
  | [] => .ok ([], [])

/-- The digits in front of the point: a zero alone, or digits that do not begin with one. -/
def readWhole (bs : List UInt8) : Except Stop (List UInt8 × List UInt8) :=
  match bs with
  | [] => .error ⟨.unfinishedValue, []⟩
  | d :: rest =>
      if d = 0x30 then
        match rest with
        | [] => .ok ([d], [])
        | e :: after => if isDigit e then .error ⟨.invalidNumber, after⟩ else .ok ([d], rest)
      else if isDigit d then .ok (spanDigits bs)
      else .error ⟨.invalidNumber, rest⟩

def readNumeral (bs : List UInt8) : Except Stop (Numeral × List UInt8) :=
  let (negative, digits) : Bool × List UInt8 :=
    match bs with
    | s :: rest => if s = 0x2D then (true, rest) else (false, bs)
    | [] => (false, [])
  match readWhole digits with
  | .error stop => .error stop
  | .ok (whole, rest) =>
      match readFraction rest with
      | .error stop => .error stop
      | .ok (fraction, rest) =>
          match readExponent rest with
          | .error stop => .error stop
          | .ok (exponent, rest) => .ok (⟨negative, whole, fraction, exponent⟩, rest)

/-! ## Literals and blanks -/

/-- The letters of a literal behind the first, and what follows them. -/
def readLetters : List UInt8 → List UInt8 → Except Stop (List UInt8)
  | [], bs => .ok bs
  | _ :: _, [] => .error ⟨.unfinishedValue, []⟩
  | l :: ls, b :: bs => if b = l then readLetters ls bs else .error ⟨.expectedLiteral, bs⟩

/-- The four bytes that may stand between tokens. -/
def isBlankByte (b : UInt8) : Bool := b = 0x20 || b = 0x0A || b = 0x09 || b = 0x0D

/-- What remains behind the leading blanks. -/
def skipBlanks (bs : List UInt8) : List UInt8 := bs.dropWhile isBlankByte

end DualStore.Json
