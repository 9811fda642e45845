import DualStore.Time.Calendar
import DualStore.Record.Field

/-!
Contract: instants, offsets from universal time, and instants seen at an offset.

Owns:
- the range of instants that can be represented;
- the local date and time of day of an instant at an offset, and the way back;
- the instant of a count since the epoch, in seconds or in milliseconds by its size.

Does not own: the spelling of dates and times.
-/

namespace DualStore.Time

open DualStore.Record

/-- A point of time: whole seconds since the epoch and nanoseconds within the second. Within a
leap second the nanoseconds go on from one billion, and the seconds stand still. -/
structure Instant where
  seconds : Int
  nanos : Nat
deriving DecidableEq, Repr, Inhabited

/-- A distance east of universal time, of less than a day. -/
structure Offset where
  seconds : Int
  withinDay : -86400 < seconds ∧ seconds < 86400 := by decide
deriving DecidableEq, Repr

instance : Inhabited Offset := ⟨{ seconds := 0 }⟩

/-- The offset of so many seconds, if it is less than a day. -/
def Offset.ofSeconds? (seconds : Int) : Option Offset :=
  if within : -86400 < seconds ∧ seconds < 86400 then some ⟨seconds, within⟩ else none

/-- An instant together with the offset it is shown at. -/
structure ZonedTime where
  instant : Instant
  offset : Offset
deriving DecidableEq, Repr, Inhabited

/-- The first representable second: the start of the year -262143. -/
def firstSecond : Int := (Date.mk (-262143) 1 1).toDay * 86400

/-- The last representable second: the end of the year 262142. -/
def lastSecond : Int := (Date.mk 262142 12 31).toDay * 86400 + 86399

def Instant.isRepresentable (t : Instant) : Bool :=
  firstSecond ≤ t.seconds && t.seconds ≤ lastSecond

theorem Instant.isRepresentable_iff {t : Instant} :
    t.isRepresentable = true ↔ -8334601228800 ≤ t.seconds ∧ t.seconds ≤ 8210266876799 := by
  have first : firstSecond = -8334601228800 := by decide
  have last : lastSecond = 8210266876799 := by decide
  rw [isRepresentable, first, last, Bool.and_eq_true, decide_eq_true_eq, decide_eq_true_eq]

/-- A date with a time of day, at no particular offset. -/
structure LocalTime where
  date : Date
  secondOfDay : Nat
  nanos : Nat
deriving DecidableEq, Repr

/-- The seconds from the start of 1970 to a local time, both read at the same offset. -/
def LocalTime.seconds (t : LocalTime) : Int := t.date.toDay * 86400 + t.secondOfDay

def ZonedTime.localTime (t : ZonedTime) : LocalTime :=
  let seconds := t.instant.seconds + t.offset.seconds
  { date := Date.ofDay (seconds / 86400), secondOfDay := (seconds % 86400).toNat,
    nanos := t.instant.nanos }

/-- The instant at which clocks at the offset show a local time, if it can be represented. -/
def LocalTime.atOffset? (t : LocalTime) (offset : Offset) : Option ZonedTime :=
  let instant : Instant := ⟨t.seconds - offset.seconds, t.nanos⟩
  if instant.isRepresentable then some ⟨instant, offset⟩ else none

/-- The least magnitude of a count that is taken as milliseconds. -/
def millisecondThreshold : Nat := 1000000000000

/-- The instant of a count since the epoch. A count of milliseconds is divided toward zero; what
remains of a negative one is no fraction of a second, and such a count has no instant. -/
def instantOfCount? (count : Int) : Option Instant :=
  let (seconds, nanos) : Int × Int :=
    if count.natAbs < millisecondThreshold then (count, 0)
    else (count.tdiv 1000, count.tmod 1000 * 1000000)
  if nanos < 0 then none
  else
    let instant : Instant := ⟨seconds, nanos.toNat⟩
    if instant.isRepresentable then some instant else none

/-- The instant of a count of milliseconds, rounded down to whole seconds with the rest as a
fraction, if it can be represented. -/
def instantOfMillis? (millis : Int) : Option Instant :=
  let instant : Instant := ⟨millis / 1000, (millis % 1000).toNat * 1000000⟩
  if instant.isRepresentable then some instant else none

/-- The whole milliseconds of an instant, rounded down. -/
def Instant.millis (t : Instant) : Int := t.seconds * 1000 + t.nanos / 1000000

end DualStore.Time
