/-!
Contract: decimal digits, written and read.

Owns:
- the digits of a natural number and of an integer;
- the reading of an integer within bounds, from the left, which stops at the first character
  that is no digit or at the first digit that leaves the bounds.

Does not own: fractions and exponents, which belong to the notation that has them.
-/

namespace DualStore.Text

/-- The value of an ASCII digit. -/
def digitValue? (c : Char) : Option Nat :=
  if 0x30 ≤ c.toNat && c.toNat ≤ 0x39 then some (c.toNat - 0x30) else none

/-- The decimal digits of a natural number, without leading zeros. -/
def natDigits (n : Nat) : List Char := Nat.toDigits 10 n

/-- The decimal digits of an integer, behind a minus sign when it is negative. -/
def intDigits (n : Int) : List Char :=
  if n < 0 then '-' :: natDigits n.natAbs else natDigits n.natAbs

def natText (n : Nat) : String := String.ofList (natDigits n)

def intText (n : Int) : String := String.ofList (intDigits n)

/-- The digits of a number, with zeros in front up to a width. -/
def paddedDigits (width n : Nat) : List Char :=
  List.replicate (width - (natDigits n).length) '0' ++ natDigits n

/-- Why a text is no integer within the bounds. -/
inductive IntegerFault where
  | noDigits
  | strayCharacter
  | tooLarge
  | tooSmall
deriving DecidableEq, Repr

def IntegerFault.message : IntegerFault → String
  | .noDigits => "cannot parse integer from empty string"
  | .strayCharacter => "invalid digit found in string"
  | .tooLarge => "number too large to fit in target type"
  | .tooSmall => "number too small to fit in target type"

/-- The digits of a magnitude, from the left, up to a limit; `beyond` is the fault of leaving it.
A stray character is noticed before the limit is. -/
def readMagnitude (limit : Nat) (beyond : IntegerFault) (value : Nat) :
    List Char → Except IntegerFault Nat
  | [] => .ok value
  | c :: cs =>
      match digitValue? c with
      | none => .error .strayCharacter
      | some d =>
          if value * 10 + d ≤ limit then readMagnitude limit beyond (value * 10 + d) cs
          else .error beyond

/-- A natural number up to `limit`, with an optional plus sign. -/
def readNat (limit : Nat) (s : String) : Except IntegerFault Nat :=
  match s.toList with
  | [] => .error .noDigits
  | ['+'] | ['-'] => .error .strayCharacter
  | '+' :: cs => readMagnitude limit .tooLarge 0 cs
  | cs => readMagnitude limit .tooLarge 0 cs

/-- An integer from `-low` to `high`, with an optional sign. -/
def readInt (low high : Nat) (s : String) : Except IntegerFault Int :=
  match s.toList with
  | [] => .error .noDigits
  | ['+'] | ['-'] => .error .strayCharacter
  | '+' :: cs => (readMagnitude high .tooLarge 0 cs).map Int.ofNat
  | '-' :: cs => (readMagnitude low .tooSmall 0 cs).map fun n => -Int.ofNat n
  | cs => (readMagnitude high .tooLarge 0 cs).map Int.ofNat

example : natText 0 = "0" ∧ intText (-120) = "-120" := by decide
example : readNat 255 "+0255" = .ok 255 := rfl
example : readNat 255 "256" = .error .tooLarge := rfl
example : readNat 255 "1x9" = .error .strayCharacter := rfl

end DualStore.Text
