/-!
Contract: the proleptic Gregorian calendar, and the count of days from the first of January 1970.

Owns:
- which dates exist;
- the day number of a date, and the date of a day number.

Does not own: hours and zones.
-/

namespace DualStore.Time

/-- Every fourth year is a leap year, except the hundredth ones, except the four hundredth. -/
def isLeapYear (year : Int) : Bool :=
  year % 4 = 0 && (year % 100 ≠ 0 || year % 400 = 0)

def monthLengths (leap : Bool) : List Nat :=
  [31, if leap then 29 else 28, 31, 30, 31, 30, 31, 31, 30, 31, 30, 31]

structure Date where
  year : Int
  month : Nat
  day : Nat
deriving DecidableEq, Repr, Inhabited

/-- The length of a month; zero for a month that does not exist. -/
def monthLength (leap : Bool) (month : Nat) : Nat :=
  if month = 0 then 0 else (monthLengths leap).getD (month - 1) 0

def Date.isValid (date : Date) : Bool :=
  1 ≤ date.day && date.day ≤ monthLength (isLeapYear date.year) date.month

/-- The days before a month of a year. -/
def daysBeforeMonth (leap : Bool) (month : Nat) : Nat :=
  ((monthLengths leap).take (month - 1)).foldr (· + ·) 0

/-- The days from the start of the year zero to the start of a year: 365 for each year, and one
for each leap year. -/
def daysBeforeYear (year : Int) : Int :=
  365 * year + (year + 3) / 4 - (year + 99) / 100 + (year + 399) / 400

/-- The day number of the first of January 1970. -/
def epochDay : Int := 719528

def Date.toDay (date : Date) : Int :=
  daysBeforeYear date.year + daysBeforeMonth (isLeapYear date.year) date.month + (date.day - 1) -
    epochDay

/-- The year in which a count of days from the year zero ends. The mean year gives it up to one
year too many or too few. -/
def yearOfDays (days : Int) : Int :=
  let guess := 400 * days / 146097
  if days < daysBeforeYear guess then guess - 1
  else if daysBeforeYear (guess + 1) ≤ days then guess + 1
  else guess

/-- The month, counted on from `month`, and the day of the month of a day of the year. -/
def monthOfDay (month day : Nat) : List Nat → Nat × Nat
  | [] => (month, day + 1)
  | length :: lengths =>
      if day < length then (month, day + 1) else monthOfDay (month + 1) (day - length) lengths

def Date.ofDay (n : Int) : Date :=
  let days := n + epochDay
  let year := yearOfDays days
  let (month, day) :=
    monthOfDay 1 (days - daysBeforeYear year).toNat (monthLengths (isLeapYear year))
  { year, month, day }

example : daysBeforeYear 1970 = epochDay := by decide
example : Date.ofDay 0 = ⟨1970, 1, 1⟩ ∧ (Date.mk 2024 2 29).toDay = 19782 := by decide
example : Date.ofDay 19782 = ⟨2024, 2, 29⟩ ∧ Date.ofDay (-719529) = ⟨-1, 12, 31⟩ := by decide

end DualStore.Time
