import DualStore.Text.Decimal

/-!
Contract: doubles by their bits, their shortest decimal text, their integer part, and the double
that a decimal significand and exponent denote.

Owns:
- the exact reading of the bits as an integer times a power of two;
- the fewest digits that read back, the nearest of them when several have that length;
- the layout of those digits: positional for decimal exponents from -5 to 15, with at least one
  place behind the point, and scientific with a signed exponent otherwise;
- truncation to a bounded integer.

Does not own: JSON's grammar of numbers.
-/

namespace DualStore.Number

open DualStore.Text

/-- A double, told by its bits. -/
structure Double where
  bits : UInt64
deriving DecidableEq, Repr, Inhabited

namespace Double

def isNegative (x : Double) : Bool := x.bits >>> 63 == 1

def exponentBits (x : Double) : Nat := ((x.bits >>> 52) &&& 0x7FF).toNat

def fractionBits (x : Double) : Nat := (x.bits &&& 0xFFFFFFFFFFFFF).toNat

/-- Every pattern but the infinities and the values that are no numbers. -/
def isFinite (x : Double) : Bool := x.exponentBits ≠ 0x7FF

/-- The integer factor of a finite double's magnitude. -/
def mantissa (x : Double) : Nat :=
  if x.exponentBits = 0 then x.fractionBits else x.fractionBits + 0x10000000000000

/-- The power of two that goes with `mantissa`. -/
def binaryExponent (x : Double) : Int :=
  if x.exponentBits = 0 then -1074 else (x.exponentBits : Int) - 1075

/-- A positive rational as a numerator and a denominator. -/
structure Ratio where
  top : Nat
  bottom : Nat

/-- `count` times two to the power `exponent`. -/
def Ratio.binary (count : Nat) (exponent : Int) : Ratio :=
  if 0 ≤ exponent then ⟨count * Nat.pow 2 exponent.toNat, 1⟩
  else ⟨count, Nat.pow 2 (-exponent).toNat⟩

/-- `count` times ten to the power `exponent`. -/
def Ratio.decimal (count : Nat) (exponent : Int) : Ratio :=
  if 0 ≤ exponent then ⟨count * Nat.pow 10 exponent.toNat, 1⟩
  else ⟨count, Nat.pow 10 (-exponent).toNat⟩

def Ratio.below (r s : Ratio) : Bool := r.top * s.bottom < s.top * r.bottom

def Ratio.quotient (r s : Ratio) : Nat := (r.top * s.bottom) / (r.bottom * s.top)

/-- The exponent of the first decimal digit of a positive rational. -/
def Ratio.decimalExponent (r : Ratio) : Int :=
  if r.bottom ≤ r.top then ((natDigits (r.top / r.bottom)).length : Int) - 1
  else -((natDigits ((r.bottom + r.top - 1) / r.top - 1)).length : Int)

/-- The magnitude in quarters of the last place, so that both ends of the interval of reals that
round to it are whole. -/
def quarters (x : Double) : Nat := 4 * x.mantissa

/-- The lower end of the interval is nearer where the exponent changes. -/
def lowerQuarters (x : Double) : Nat :=
  if x.fractionBits = 0 && 1 < x.exponentBits then x.quarters - 1 else x.quarters - 2

/-- Whether a rational reads back as the magnitude of `x`; the ends of the interval do exactly
when the mantissa is even. -/
def readsBack (x : Double) (r : Ratio) : Bool :=
  let low := Ratio.binary x.lowerQuarters (x.binaryExponent - 2)
  let high := Ratio.binary (x.quarters + 2) (x.binaryExponent - 2)
  if x.mantissa % 2 = 0 then !r.below low && !high.below r else low.below r && r.below high

/-- The count on the decimal grid with step ten to the power `exponent` that reads back, the
nearer of the two neighbours when both do. -/
def onGrid? (x : Double) (exponent : Int) : Option Nat :=
  let value := Ratio.binary x.mantissa x.binaryExponent
  let below := value.quotient (Ratio.decimal 1 exponent)
  let fromBelow := x.readsBack (Ratio.decimal below exponent) && 0 < below
  let fromAbove := x.readsBack (Ratio.decimal (below + 1) exponent)
  if fromBelow && fromAbove then
    let middle := Ratio.decimal (10 * below + 5) (exponent - 1)
    if middle.below value then some (below + 1)
    else if value.below middle then some below
    else some (if below % 2 = 0 then below else below + 1)
  else if fromBelow then some below
  else if fromAbove then some (below + 1)
  else none

/-- The first grid with a hit, from coarse to fine. -/
def shortestOn (x : Double) (first : Int) : Nat → Nat → Nat × Int
  | 0, digits => ((x.onGrid? (first - digits + 1)).getD 0, first - digits + 1)
  | finer + 1, digits =>
      match x.onGrid? (first - digits + 1) with
      | some count => (count, first - digits + 1)
      | none => shortestOn x first finer (digits + 1)

/-- The digits of the shortest decimal that reads back, and the exponent of the first of them. -/
def shortest (x : Double) : List Char × Int :=
  let (count, exponent) :=
    shortestOn x (Ratio.binary x.mantissa x.binaryExponent).decimalExponent 16 1
  let digits := natDigits count
  ((digits.reverse.dropWhile (· == '0')).reverse, exponent + digits.length - 1)

/-- Digits with a decimal point, or with an exponent where the point would be far away. -/
def layout (digits : List Char) (exponent : Int) : List Char :=
  if 0 ≤ exponent && exponent ≤ 15 then
    let whole := exponent.toNat + 1
    if digits.length ≤ whole then
      digits ++ List.replicate (whole - digits.length) '0' ++ ['.', '0']
    else digits.take whole ++ '.' :: digits.drop whole
  else if -5 ≤ exponent && exponent < 0 then
    ['0', '.'] ++ List.replicate ((-exponent).toNat - 1) '0' ++ digits
  else
    let fraction := if digits.length ≤ 1 then [] else '.' :: digits.drop 1
    digits.take 1 ++ fraction ++ ['e', if exponent < 0 then '-' else '+'] ++
      natDigits exponent.natAbs

/-- The shortest text of a finite double that reads back, with a point or an exponent. -/
def text (x : Double) : String :=
  let magnitude :=
    if x.mantissa = 0 then ['0', '.', '0'] else layout x.shortest.1 x.shortest.2
  String.ofList (if x.isNegative then '-' :: magnitude else magnitude)

/-- The integer part within `-low` and `high`, nearest bound outside them, zero for no number. -/
def truncate (low high : Nat) (x : Double) : Int :=
  if !x.isFinite && x.fractionBits ≠ 0 then 0
  else
    let magnitude :=
      if x.isFinite then
        let value := Ratio.binary x.mantissa x.binaryExponent
        value.top / value.bottom
      else low + high + 1
    if x.isNegative then -((min magnitude low : Nat) : Int) else ((min magnitude high : Nat) : Int)

/-- Ten to a power below 309, the nearest double. -/
def powerOfTen (exponent : Nat) : Float := Float.ofScientific 1 false exponent

/-- The division by powers of ten, 308 places at a time; three of those reach zero from any
significand. -/
def scaleDown (value : Float) : Nat → Nat → Float
  | 0, places => if places ≤ 308 then value / powerOfTen places else 0
  | steps + 1, places =>
      if places ≤ 308 then value / powerOfTen places
      else scaleDown (value / powerOfTen 308) steps (places - 308)

/-- The double that a significand below two to the power 64 and a decimal exponent denote, one
rounding for the significand and one for the power of ten; none when it is not finite. -/
def ofDecimal? (negative : Bool) (significand : Nat) (exponent : Int) : Option Double :=
  let value := significand.toUInt64.toFloat
  let sign (v : Float) : Double := ⟨(if negative then -v else v).toBits⟩
  if exponent < 0 then some (sign (scaleDown value 3 exponent.natAbs))
  else if significand = 0 then some (sign 0)
  else if exponent ≤ 308 then
    let scaled := value * powerOfTen exponent.toNat
    if scaled.isInf then none else some (sign scaled)
  else none

end Double

end DualStore.Number
