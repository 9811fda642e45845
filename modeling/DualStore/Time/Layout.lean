import DualStore.Time.Instant
import DualStore.Text.Decimal

/-!
Contract: the two written forms of a time.

Owns:
- the full form: date and time with as many fraction digits as are needed, in threes, and the
  offset rounded to minutes;
- the form that the index stores: three fraction digits, no offset.

In both, years outside 0 to 9999 carry a sign, and a leap second shows as one second more.

Does not own: the reading of texts.
-/

namespace DualStore.Time

open DualStore.Text

/-- A year: four digits, or a sign and at least four digits. -/
def yearDigits (year : Int) : List Char :=
  if 0 ≤ year && year ≤ 9999 then paddedDigits 4 year.toNat
  else (if year < 0 then '-' else '+') :: paddedDigits 4 year.natAbs

/-- A date, a T, and a time of day to the second; a leap second counts as one second more. -/
def LocalTime.digits (t : LocalTime) : List Char :=
  let second := t.secondOfDay % 60 + t.nanos / 1000000000
  yearDigits t.date.year ++ '-' :: paddedDigits 2 t.date.month ++ '-' ::
    paddedDigits 2 t.date.day ++ 'T' :: paddedDigits 2 (t.secondOfDay / 3600) ++ ':' ::
    paddedDigits 2 (t.secondOfDay / 60 % 60) ++ ':' :: paddedDigits 2 second

def LocalTime.fraction (t : LocalTime) : Nat := t.nanos % 1000000000

/-- The fewest fraction digits that are exact, out of none, three, six and nine. -/
def fractionDigits (nanos : Nat) : List Char :=
  if nanos = 0 then []
  else if nanos % 1000000 = 0 then '.' :: paddedDigits 3 (nanos / 1000000)
  else if nanos % 1000 = 0 then '.' :: paddedDigits 6 (nanos / 1000)
  else '.' :: paddedDigits 9 nanos

/-- An offset in hours and minutes, rounded to the nearest minute, a half away from zero. -/
def Offset.digits (offset : Offset) : List Char :=
  let minutes := (offset.seconds.natAbs + 30) / 60
  (if offset.seconds < 0 then '-' else '+') ::
    (paddedDigits 2 (minutes / 60) ++ ':' :: paddedDigits 2 (minutes % 60))

def ZonedTime.text (t : ZonedTime) : String :=
  String.ofList (t.localTime.digits ++ fractionDigits t.localTime.fraction ++ t.offset.digits)

/-- The form that the index stores, local to an offset. -/
def Instant.indexText (t : Instant) (offset : Offset) : String :=
  let clock := ZonedTime.localTime ⟨t, offset⟩
  String.ofList (clock.digits ++ '.' :: paddedDigits 3 (clock.fraction / 1000000))

example : (ZonedTime.mk ⟨1716035696, 120000000⟩ { seconds := 28800 }).text =
    "2024-05-18T20:34:56.120+08:00" := by decide
example : (Instant.mk (-62167219201) 1999000000).indexText { seconds := 0 } =
    "-0001-12-31T23:59:60.999" := by decide

end DualStore.Time
