import DualStore.Time.Instant
import DualStore.Text.Decimal

/-!
Contract: dates and times as texts, and what they denote.

Owns:
- the strict form with a zone: four-digit year, two digits elsewhere, a separating T or space,
  an optional fraction, and Z or a signed zone with hours up to 23 and minutes up to 59;
- the three lenient forms without a zone, tried in turn, in which blanks may precede a number,
  numbers may have fewer digits and a signed year may have any number of them;
- the resolution of a written time at an offset.

Does not own: the calendar.
-/

namespace DualStore.Time

open DualStore.Text DualStore.Record

/-- A reader of a part of a text yields a value and the rest of the text. -/
abbrev Part (α : Type) := Option (α × List Char)

def digitsValue (digits : List Char) : Nat :=
  digits.foldl (fun value c => value * 10 + (c.toNat - 0x30)) 0

def isDigitChar (c : Char) : Bool := '0' ≤ c && c ≤ '9'

/-- At most `width` leading digits and the rest. -/
def takeDigits : Nat → List Char → List Char × List Char
  | 0, cs => ([], cs)
  | _, [] => ([], [])
  | width + 1, c :: cs =>
      if isDigitChar c then
        let (digits, rest) := takeDigits width cs
        (c :: digits, rest)
      else ([], c :: cs)

/-- A number of exactly `width` digits. -/
def exactNumber (width : Nat) (cs : List Char) : Part Nat :=
  let (digits, rest) := takeDigits width cs
  if digits.length = width then some (digitsValue digits, rest) else none

/-- A number of one to `width` digits, blanks before it aside. -/
def shortNumber (width : Nat) (cs : List Char) : Part Nat :=
  let (digits, rest) := takeDigits width (trimStartChars cs)
  if digits.isEmpty then none else some (digitsValue digits, rest)

/-- All leading digits, at least one. -/
def longNumber (cs : List Char) : Part Nat :=
  let digits := cs.takeWhile isDigitChar
  if digits.isEmpty then none else some (digitsValue digits, cs.dropWhile isDigitChar)

def mark (expected : Char) : List Char → Option (List Char)
  | c :: cs => if c = expected then some cs else none
  | [] => none

/-- The nanoseconds of an optional fraction; digits behind the ninth are dropped. -/
def fraction (cs : List Char) : Part Nat :=
  match cs with
  | '.' :: cs =>
      let digits := cs.takeWhile isDigitChar
      if digits.isEmpty then none
      else
        let kept := digits.take 9
        some (digitsValue kept * Nat.pow 10 (9 - kept.length), cs.dropWhile isDigitChar)
  | cs => some (0, cs)

/-- The numbers of a date and a time of day, before it is known whether they exist. -/
structure Fields where
  year : Int
  month : Nat
  day : Nat
  hour : Nat
  minute : Nat
  second : Nat
  nanos : Nat
deriving DecidableEq, Repr

/-- The years that can be represented. -/
def isRepresentableYear (year : Int) : Bool := -262143 ≤ year && year ≤ 262142

/-- The local time with given numbers. Second sixty is second fifty-nine with a full second of
nanoseconds added. -/
def Fields.localTime? (f : Fields) : Option LocalTime :=
  let date : Date := ⟨f.year, f.month, f.day⟩
  if isRepresentableYear f.year && date.isValid && f.hour < 24 && f.minute < 60 &&
      f.second ≤ 60 then
    let (second, nanos) :=
      if f.second = 60 then (59, f.nanos + 1000000000) else (f.second, f.nanos)
    some { date, secondOfDay := f.hour * 3600 + f.minute * 60 + second, nanos }
  else none

/-! ## With a zone -/

/-- The zone at the end of a strict text, in seconds east. -/
def zone (cs : List Char) : Option Int :=
  match cs with
  | ['Z'] | ['z'] => some 0
  | sign :: cs => do
      let negative ←
        if sign = '+' then some false
        else if sign = '-' || sign = '\u2212' then some true
        else none
      let (hours, cs) ← exactNumber 2 cs
      let cs ← mark ':' cs
      let (minutes, cs) ← exactNumber 2 cs
      if cs.isEmpty && hours < 24 && minutes < 60 then
        let seconds : Int := hours * 3600 + minutes * 60
        return if negative then -seconds else seconds
      else none
  | [] => none

def readZoned (cs : List Char) : Option (LocalTime × Int) := do
  let (year, cs) ← exactNumber 4 cs
  let cs ← mark '-' cs
  let (month, cs) ← exactNumber 2 cs
  let cs ← mark '-' cs
  let (day, cs) ← exactNumber 2 cs
  let cs ← mark 'T' cs <|> mark 't' cs <|> mark ' ' cs
  let (hour, cs) ← exactNumber 2 cs
  let cs ← mark ':' cs
  let (minute, cs) ← exactNumber 2 cs
  let cs ← mark ':' cs
  let (second, cs) ← exactNumber 2 cs
  let (nanos, cs) ← fraction cs
  let east ← zone cs
  let time ← Fields.localTime? { year, month, day, hour, minute, second, nanos }
  return (time, east)

/-- The instant that a strict text denotes. -/
def readInstant (text : String) : Option Instant := do
  let (time, east) ← readZoned text.toList
  return ⟨time.seconds - east, time.nanos⟩

/-! ## Without a zone -/

/-- A year: up to four digits, or any number of them behind a sign. -/
def readYear (cs : List Char) : Part Int :=
  match trimStartChars cs with
  | '-' :: cs => (longNumber cs).map fun (n, rest) => (-(n : Int), rest)
  | '+' :: cs => (longNumber cs).map fun (n, rest) => ((n : Int), rest)
  | cs => (shortNumber 4 cs).map fun (n, rest) => ((n : Int), rest)

/-- What separates the date from the time of day. -/
inductive Separator where
  | letter
  | blanks
deriving DecidableEq, Repr

/-- A lenient text with the time of day down to the second or down to the minute. -/
def readZoneless (separator : Separator) (withSeconds : Bool) (cs : List Char) :
    Option LocalTime := do
  let (year, cs) ← readYear cs
  let cs ← mark '-' cs
  let (month, cs) ← shortNumber 2 cs
  let cs ← mark '-' cs
  let (day, cs) ← shortNumber 2 cs
  let cs ←
    match separator with
    | .letter => mark 'T' cs
    | .blanks => some (trimStartChars cs)
  let (hour, cs) ← shortNumber 2 cs
  let cs ← mark ':' cs
  let (minute, cs) ← shortNumber 2 cs
  if withSeconds then
    let cs ← mark ':' cs
    let (second, cs) ← shortNumber 2 cs
    let (nanos, cs) ← fraction cs
    if cs.isEmpty then Fields.localTime? { year, month, day, hour, minute, second, nanos } else none
  else if cs.isEmpty then
    Fields.localTime? { year, month, day, hour, minute, second := 0, nanos := 0 }
  else none

/-- The local time of a lenient text, by the first of the three forms that it has. -/
def readLocal (cs : List Char) : Option LocalTime :=
  readZoneless .letter true cs <|> readZoneless .blanks true cs <|> readZoneless .letter false cs

def readTime (text : String) (offset : Offset) : Option ZonedTime :=
  let trimmed := trim text
  match readInstant trimmed with
  | some instant => some ⟨instant, offset⟩
  | none => (readLocal trimmed.toList).bind (·.atOffset? offset)

end DualStore.Time

namespace DualStore.Record

open DualStore.Time

/-- The time that a written time denotes, shown at an offset. -/
def WrittenTime.resolve (offset : Offset) : WrittenTime → Option ZonedTime
  | .epoch count => (instantOfCount? count.toInt).map fun instant => ⟨instant, offset⟩
  | .text content => readTime content offset

end DualStore.Record
