import DualStore.Proofs.Time.Digits

/-!
Contract: the spellings of a date with a time of day, and which reader takes which of them.

Owns:
- the numbers that are written, with what they mean: second sixty is second fifty-nine with a full
  second more;
- the three layouts without a zone and the strict layout with one;
- each layout is taken by its own reader and by no other, whether or not there is such a date.

Does not own: the instant that a local time stands for.
-/

namespace DualStore.Time

open DualStore.Text

/-- The numbers of a date and a time of day as they are written: any year, two digits for the month
and the day, whether or not there is such a date, and a fraction of so many places. -/
structure Spelling where
  year : Int
  month : Nat
  day : Nat
  hour : Nat
  minute : Nat
  second : Nat
  places : Nat
  fraction : Nat
  monthFits : month < 100
  dayFits : day < 100
  hourFits : hour < 24
  minuteFits : minute < 60
  secondFits : second ≤ 60
  fractionFits : fraction < 10 ^ places

namespace Spelling

def date (s : Spelling) : Date := ⟨s.year, s.month, s.day⟩

/-- The local time that is meant. Digits of the fraction behind the ninth do not count. -/
def time (s : Spelling) : LocalTime where
  date := s.date
  secondOfDay := s.hour * 3600 + s.minute * 60 + min s.second 59
  nanos := wholeNanos s.places s.fraction + if s.second = 60 then 1000000000 else 0

/-- What is left when the seconds are not written. -/
def toMinute (s : Spelling) : Spelling :=
  { s with
    second := 0, places := 0, fraction := 0, secondFits := Nat.zero_le 60,
    fractionFits := Nat.one_pos }

def fields (s : Spelling) : Fields where
  year := s.year
  month := s.month
  day := s.day
  hour := s.hour
  minute := s.minute
  second := s.second
  nanos := wholeNanos s.places s.fraction

/-- The numbers are a local time if there is such a date. -/
theorem localTime?_fields (s : Spelling) :
    s.fields.localTime? =
      if isRepresentableYear s.year && s.date.isValid then some s.time else none := by
  simp only [Fields.localTime?, fields, s.hourFits, s.minuteFits, s.secondFits, decide_true,
    Bool.and_true]
  by_cases leap : s.second = 60
  · simp only [leap, if_true, time]
    rfl
  · have bounded := s.secondFits
    have below : min s.second 59 = s.second := Nat.min_eq_left (by omega)
    simp only [leap, if_false, time, below, Nat.add_zero]
    rfl

/-! ## Texts -/

/-- The date in front of a text. -/
def writeDate (s : Spelling) (rest : List Char) : List Char :=
  yearDigits s.year ++ '-' :: (paddedDigits 2 s.month ++ '-' :: (paddedDigits 2 s.day ++ rest))

/-- The time of day down to the minute in front of a text. -/
def writeMinutes (s : Spelling) (rest : List Char) : List Char :=
  paddedDigits 2 s.hour ++ ':' :: (paddedDigits 2 s.minute ++ rest)

/-- The seconds, with a colon before them and with their fraction, in front of a text. -/
def writeSeconds (s : Spelling) (rest : List Char) : List Char :=
  ':' :: (paddedDigits 2 s.second ++ (fractionText s.places s.fraction ++ rest))

end Spelling

/-- A zone as it is written: a Z in either case, or hours and minutes east or west. -/
inductive Zone where
  | universal (capital : Bool)
  | east (hours : Fin 24) (minutes : Fin 60)
  | west (hours : Fin 24) (minutes : Fin 60)

/-- The seconds that a zone is east of universal time. -/
def Zone.seconds : Zone → Int
  | .universal _ => 0
  | .east hours minutes => hours * 3600 + minutes * 60
  | .west hours minutes => -(hours * 3600 + minutes * 60)

def Zone.text : Zone → List Char
  | .universal capital => [if capital then 'Z' else 'z']
  | .east hours minutes => '+' :: (paddedDigits 2 hours ++ ':' :: paddedDigits 2 minutes)
  | .west hours minutes => '-' :: (paddedDigits 2 hours ++ ':' :: paddedDigits 2 minutes)

/-- The layouts of a date with a time of day: 2024-05-18T20:34:56.7 and 2024-05-18 20:34:56.7,
2024-05-18T20:34, and the strict 2024-05-18T20:34:56.7+08:00. -/
inductive Layout where
  | letter
  | blank
  | minutes
  | zoned (separator : Char) (separates : separator ∈ ['T', 't', ' ']) (zone : Zone)

namespace Layout

def zone? : Layout → Option Zone
  | .letter | .blank | .minutes => none
  | .zoned _ _ zone => some zone

/-- The numbers that the layout shows. -/
def shown (layout : Layout) (s : Spelling) : Spelling :=
  match layout with
  | .minutes => s.toMinute
  | _ => s

def write (layout : Layout) (s : Spelling) : List Char :=
  match layout with
  | .letter => s.writeDate ('T' :: s.writeMinutes (s.writeSeconds []))
  | .blank => s.writeDate (' ' :: s.writeMinutes (s.writeSeconds []))
  | .minutes => s.writeDate ('T' :: s.writeMinutes [])
  | .zoned separator _ zone =>
      s.writeDate (separator :: s.writeMinutes (s.writeSeconds zone.text))

end Layout

/-! ## Zones -/

theorem zone_text (z : Zone) : zone z.text = some z.seconds := by
  have hoursRead (hours : Fin 24) (rest : List Char) :
      exactNumber 2 (paddedDigits 2 hours ++ rest) = some (hours.val, rest) :=
    exactNumber_paddedDigits (by decide) (by omega) rest
  have minutesRead (minutes : Fin 60) :
      exactNumber 2 (paddedDigits 2 minutes) = some (minutes.val, []) := by
    have isRead := exactNumber_paddedDigits (by decide : 0 < 2)
      (show minutes.val < 10 ^ 2 by omega) []
    rwa [List.append_nil] at isRead
  cases z with
  | universal capital => cases capital <;> rfl
  | east hours minutes => simp [Zone.text, zone, Zone.seconds, hoursRead, minutesRead, mark_cons]
  | west hours minutes => simp [Zone.text, zone, Zone.seconds, hoursRead, minutesRead, mark_cons]

theorem Zone.exists_text_eq_cons (z : Zone) :
    ∃ first after, z.text = first :: after ∧ isDigitChar first = false ∧ first ≠ '.' := by
  cases z with
  | universal capital => cases capital <;> exact ⟨_, _, rfl, by decide, by decide⟩
  | east hours minutes => exact ⟨_, _, rfl, by decide, by decide⟩
  | west hours minutes => exact ⟨_, _, rfl, by decide, by decide⟩

/-! ## Behind the date -/

/-- Neither a digit nor a point comes next, so that a number and its fraction end here. -/
def EndsFraction (rest : List Char) : Prop :=
  LeavesDigits rest ∧ ∀ after, rest ≠ '.' :: after

theorem endsFraction_nil : EndsFraction [] :=
  ⟨leavesDigits_nil, fun _ same => List.cons_ne_nil _ _ same.symm⟩

theorem Zone.endsFraction_text (z : Zone) : EndsFraction z.text := by
  obtain ⟨first, after, isText, other, noPoint⟩ := z.exists_text_eq_cons
  rw [isText]
  exact ⟨leavesDigits_cons after other, fun _ same => noPoint (List.cons.inj same).1⟩

/-- The seconds of a lenient text, which end it. -/
def readSeconds (date : Date) (hour minute : Nat) (cs : List Char) : Option LocalTime := do
  let cs ← mark ':' cs
  let (second, cs) ← shortNumber 2 cs
  let (nanos, cs) ← fraction cs
  if cs.isEmpty then
    Fields.localTime? ⟨date.year, date.month, date.day, hour, minute, second, nanos⟩
  else none

/-- The clock part of a lenient text, behind the date and what separates them. -/
def readClock (withSeconds : Bool) (date : Date) (cs : List Char) : Option LocalTime := do
  let (hour, cs) ← shortNumber 2 cs
  let cs ← mark ':' cs
  let (minute, cs) ← shortNumber 2 cs
  if withSeconds then readSeconds date hour minute cs
  else if cs.isEmpty then
    Fields.localTime? ⟨date.year, date.month, date.day, hour, minute, 0, 0⟩
  else none

def Separator.skip : Separator → List Char → Option (List Char)
  | .letter, cs => mark 'T' cs
  | .blanks, cs => some (trimStartChars cs)

section Clock

variable (s : Spelling) (date : Date) {rest : List Char}

/-- The hour, the minute and the second have two digits. -/
theorem Spelling.pairs : s.hour < 100 ∧ s.minute < 100 ∧ s.second < 100 :=
  ⟨Nat.lt_trans s.hourFits (by decide), Nat.lt_trans s.minuteFits (by decide),
    Nat.lt_of_le_of_lt s.secondFits (by decide)⟩

theorem readClock_writeMinutes (withSeconds : Bool) (rest : List Char) :
    readClock withSeconds date (s.writeMinutes rest) =
      if withSeconds then readSeconds date s.hour s.minute rest
      else if rest.isEmpty then
        Fields.localTime? ⟨date.year, date.month, date.day, s.hour, s.minute, 0, 0⟩
      else none := by
  obtain ⟨hour, minute, -⟩ := s.pairs
  rw [readClock, Spelling.writeMinutes]
  refine (bind_of_some (shortNumber_pair hour _) _).trans ?_
  refine (bind_of_some (mark_cons ':' _) _).trans ?_
  exact bind_of_some (shortNumber_pair minute _) _

theorem readClock_seconds (ends : EndsFraction rest) :
    readClock true s.date (s.writeMinutes (s.writeSeconds rest)) =
      if rest.isEmpty then s.fields.localTime? else none := by
  rw [readClock_writeMinutes, if_pos rfl, readSeconds, Spelling.writeSeconds]
  refine (bind_of_some (mark_cons ':' _) _).trans ?_
  refine (bind_of_some (shortNumber_pair s.pairs.2.2 _) _).trans ?_
  exact bind_of_some (fraction_fractionText s.fractionFits ends.1 ends.2) _

theorem readClock_toMinute :
    readClock false s.date (s.writeMinutes []) = s.toMinute.fields.localTime? := by
  have noFraction : wholeNanos 0 0 = 0 := by decide
  have isFields : s.toMinute.fields = ⟨s.year, s.month, s.day, s.hour, s.minute, 0, 0⟩ :=
    congrArg (Fields.mk s.year s.month s.day s.hour s.minute 0) noFraction
  rw [readClock_writeMinutes, isFields]
  rfl

/-- Seconds are not left out. -/
theorem readClock_of_noSeconds : readClock true date (s.writeMinutes []) = none := by
  rw [readClock_writeMinutes]
  rfl

/-- Seconds are not skipped. -/
theorem readClock_of_seconds :
    readClock false date (s.writeMinutes (s.writeSeconds rest)) = none := by
  rw [readClock_writeMinutes]
  rfl

theorem readClock_of_letter {letter : Char} (withSeconds : Bool) (rest : List Char)
    (isLetter : isDigitChar letter = false) (visible : isBlankChar letter = false) :
    readClock withSeconds date (letter :: rest) = none := by
  rw [readClock, shortNumber_of_other 2 rest isLetter visible]
  rfl

theorem trimStartChars_writeMinutes (rest : List Char) :
    trimStartChars (s.writeMinutes rest) = s.writeMinutes rest :=
  trimStartChars_paddedDigits 2 s.hour _

end Clock

/-! ## Lenient texts -/

theorem readZoneless_writeDate (separator : Separator) (withSeconds : Bool) (s : Spelling)
    (rest : List Char) :
    readZoneless separator withSeconds (s.writeDate rest) =
      (separator.skip rest).bind (readClock withSeconds s.date) := by
  have dash : LeavesDigits ('-' :: (paddedDigits 2 s.month ++
      '-' :: (paddedDigits 2 s.day ++ rest))) := leavesDigits_cons _ (by decide)
  rw [readZoneless, Spelling.writeDate]
  refine (bind_of_some (readYear_yearDigits s.year dash) _).trans ?_
  refine (bind_of_some (mark_cons '-' _) _).trans ?_
  refine (bind_of_some (shortNumber_pair s.monthFits _) _).trans ?_
  refine (bind_of_some (mark_cons '-' _) _).trans ?_
  refine (bind_of_some (shortNumber_pair s.dayFits _) _).trans ?_
  cases separator <;> rfl

section Lenient

variable (s : Spelling) (rest : List Char)

/-- The three forms are tried in turn behind the date. -/
theorem readLocal_writeDate :
    readLocal (s.writeDate rest) =
      ((mark 'T' rest).bind (readClock true s.date)).or
        ((readClock true s.date (trimStartChars rest)).or
          ((mark 'T' rest).bind (readClock false s.date))) := by
  rw [readLocal, readZoneless_writeDate, readZoneless_writeDate, readZoneless_writeDate,
    Option.orElse_eq_orElse, Option.orElse_eq_or, Option.orElse_eq_or]
  rfl

/-- Behind a T the form with blanks does not apply. -/
theorem readLocal_letter :
    readLocal (s.writeDate ('T' :: rest)) =
      (readClock true s.date rest).or (readClock false s.date rest) := by
  rw [readLocal_writeDate, mark_cons, trimStartChars_cons_of_visible rest (by decide),
    readClock_of_letter s.date true rest (by decide) (by decide), Option.none_or]
  rfl

/-- Behind a blank the forms with a T do not apply. -/
theorem readLocal_blank :
    readLocal (s.writeDate (' ' :: s.writeMinutes rest)) =
      readClock true s.date (s.writeMinutes rest) := by
  rw [readLocal_writeDate, mark_of_ne _ (by decide), trimStartChars_cons_of_blank _ (by decide),
    trimStartChars_writeMinutes, Option.bind_none, Option.bind_none, Option.none_or,
    Option.or_none]

/-- Behind a small t no form applies. -/
theorem readLocal_smallLetter : readLocal (s.writeDate ('t' :: rest)) = none := by
  rw [readLocal_writeDate, mark_of_ne _ (by decide),
    trimStartChars_cons_of_visible rest (by decide),
    readClock_of_letter s.date true rest (by decide) (by decide)]
  rfl

end Lenient

/-- The three layouts without a zone are read by their own readers, and the one with a zone by
none of these. -/
theorem readLocal_write (layout : Layout) (s : Spelling) :
    readLocal (layout.write s) =
      if layout.zone?.isNone then (layout.shown s).fields.localTime? else none := by
  cases layout with
  | letter =>
      rw [Layout.write, readLocal_letter, readClock_seconds s endsFraction_nil,
        readClock_of_seconds, Option.or_none]
      rfl
  | blank =>
      rw [Layout.write, readLocal_blank, readClock_seconds s endsFraction_nil]
      rfl
  | minutes =>
      rw [Layout.write, readLocal_letter, readClock_of_noSeconds, Option.none_or,
        readClock_toMinute]
      rfl
  | zoned separator separates zone =>
      have zoneLeft :
          readClock true s.date (s.writeMinutes (s.writeSeconds zone.text)) = none := by
        obtain ⟨first, after, isText, -⟩ := zone.exists_text_eq_cons
        rw [readClock_seconds s zone.endsFraction_text, isText]
        rfl
      rw [Layout.write]
      simp only [List.mem_cons, List.not_mem_nil, or_false] at separates
      rcases separates with rfl | rfl | rfl
      · rw [readLocal_letter, zoneLeft, readClock_of_seconds]
        rfl
      · exact readLocal_smallLetter s _
      · rw [readLocal_blank, zoneLeft]
        rfl

/-! ## Strict texts -/

/-- The clock part of a strict text, behind the date and what separates them. -/
def readZonedClock (date : Date) (cs : List Char) : Option (LocalTime × Int) := do
  let (hour, cs) ← exactNumber 2 cs
  let cs ← mark ':' cs
  let (minute, cs) ← exactNumber 2 cs
  let cs ← mark ':' cs
  let (second, cs) ← exactNumber 2 cs
  let (nanos, cs) ← fraction cs
  let east ← zone cs
  let time ← Fields.localTime? ⟨date.year, date.month, date.day, hour, minute, second, nanos⟩
  return (time, east)

section Strict

variable (s : Spelling)

theorem readZonedClock_seconds {rest : List Char} (ends : EndsFraction rest) :
    readZonedClock s.date (s.writeMinutes (s.writeSeconds rest)) =
      (zone rest).bind fun east => s.fields.localTime?.map fun time => (time, east) := by
  obtain ⟨hour, minute, second⟩ := s.pairs
  rw [readZonedClock, Spelling.writeMinutes, Spelling.writeSeconds]
  refine (bind_of_some (exactNumber_pair hour _) _).trans ?_
  refine (bind_of_some (mark_cons ':' _) _).trans ?_
  refine (bind_of_some (exactNumber_pair minute _) _).trans ?_
  refine (bind_of_some (mark_cons ':' _) _).trans ?_
  refine (bind_of_some (exactNumber_pair second _) _).trans ?_
  refine (bind_of_some (fraction_fractionText s.fractionFits ends.1 ends.2) _).trans ?_
  simp only [Option.map_eq_bind]
  rfl

theorem readZonedClock_of_noSeconds (date : Date) :
    readZonedClock date (s.writeMinutes []) = none := by
  obtain ⟨hour, minute, -⟩ := s.pairs
  rw [readZonedClock, Spelling.writeMinutes]
  refine (bind_of_some (exactNumber_pair hour _) _).trans ?_
  refine (bind_of_some (mark_cons ':' _) _).trans ?_
  exact bind_of_some (exactNumber_pair minute []) _

/-- Each of the separators is skipped. -/
theorem skipSeparator {separator : Char} (separates : separator ∈ ['T', 't', ' '])
    (rest : List Char) : (mark 'T' (separator :: rest) <|> mark 't' (separator :: rest) <|>
      mark ' ' (separator :: rest)) = some rest := by
  simp only [List.mem_cons, List.not_mem_nil, or_false] at separates
  rcases separates with rfl | rfl | rfl <;> rfl

theorem readZoned_writeDate (fourDigits : 0 ≤ s.year ∧ s.year ≤ 9999) {separator : Char}
    (separates : separator ∈ ['T', 't', ' ']) (rest : List Char) :
    readZoned (s.writeDate (separator :: rest)) = readZonedClock s.date rest := by
  have isYear : yearDigits s.year = paddedDigits 4 s.year.toNat :=
    if_pos (by rw [decide_eq_true fourDigits.1, decide_eq_true fourDigits.2]; rfl)
  have yearRead (rest : List Char) :
      exactNumber 4 (yearDigits s.year ++ rest) = some (s.year.toNat, rest) := by
    rw [isYear]
    exact exactNumber_paddedDigits (by decide) (by omega) rest
  have isNat : ((s.year.toNat : Nat) : Int) = s.year := Int.toNat_of_nonneg fourDigits.1
  rw [readZoned, Spelling.writeDate]
  refine (bind_of_some (yearRead _) _).trans ?_
  refine (bind_of_some (mark_cons '-' _) _).trans ?_
  refine (bind_of_some (exactNumber_pair s.monthFits _) _).trans ?_
  refine (bind_of_some (mark_cons '-' _) _).trans ?_
  refine (bind_of_some (exactNumber_pair s.dayFits _) _).trans ?_
  refine (bind_of_some (skipSeparator separates _) _).trans ?_
  dsimp only
  rw [isNat]
  rfl

/-- A year with a sign is not read. -/
theorem readZoned_of_sign (signed : ¬(0 ≤ s.year ∧ s.year ≤ 9999)) (rest : List Char) :
    readZoned (s.writeDate rest) = none := by
  have isSigned : ∃ sign after, yearDigits s.year = sign :: after ∧ isDigitChar sign = false := by
    rw [yearDigits, if_neg (by simpa using signed)]
    split
    · exact ⟨_, _, rfl, by decide⟩
    · exact ⟨_, _, rfl, by decide⟩
  obtain ⟨sign, after, isYear, other⟩ := isSigned
  rw [readZoned, Spelling.writeDate, isYear, List.cons_append, exactNumber_of_other 3 _ other]
  rfl

/-- A layout without a zone is no strict text. -/
theorem readZoned_write_of_zoneless {layout : Layout} (zoneless : layout.zone? = none) :
    readZoned (layout.write s) = none := by
  by_cases fourDigits : 0 ≤ s.year ∧ s.year ≤ 9999
  · have noZone : readZonedClock s.date (s.writeMinutes (s.writeSeconds [])) = none := by
      rw [readZonedClock_seconds s endsFraction_nil]
      rfl
    cases layout with
    | letter => exact (readZoned_writeDate s fourDigits (by decide) _).trans noZone
    | blank => exact (readZoned_writeDate s fourDigits (by decide) _).trans noZone
    | minutes =>
        rw [Layout.write, readZoned_writeDate s fourDigits (by decide)]
        exact readZonedClock_of_noSeconds s s.date
    | zoned => cases zoneless
  · cases layout with
    | zoned => cases zoneless
    | _ => exact readZoned_of_sign s fourDigits _

theorem readZoned_write_of_zoned {layout : Layout} {zone : Zone}
    (isZone : layout.zone? = some zone) (fourDigits : 0 ≤ s.year ∧ s.year ≤ 9999) :
    readZoned (layout.write s) = s.fields.localTime?.map fun time => (time, zone.seconds) := by
  cases layout with
  | zoned separator separates zone =>
      obtain rfl := Option.some.inj isZone
      rw [Layout.write, readZoned_writeDate s fourDigits separates,
        readZonedClock_seconds s zone.endsFraction_text, zone_text, Option.bind_some]
  | _ => cases isZone

end Strict

/-! ## Texts between blanks -/

theorem startsVisible_yearDigits (year : Int) : StartsVisible (yearDigits year) := by
  rw [yearDigits]
  split
  · obtain ⟨first, after, isDigits, digit⟩ := exists_paddedDigits_eq_cons 4 year.toNat
    exact ⟨first, after, isDigits, visible_of_isDigitChar digit⟩
  · split
    · exact ⟨_, _, rfl, by decide⟩
    · exact ⟨_, _, rfl, by decide⟩

theorem endsVisible_paddedDigits (width n : Nat) : EndsVisible (paddedDigits width n) := by
  have nonempty : paddedDigits width n ≠ [] := paddedDigits_ne_nil
  have digit := areDigits_paddedDigits width n _ (List.getLast_mem nonempty)
  exact ⟨_, _, (List.dropLast_concat_getLast nonempty).symm, visible_of_isDigitChar digit⟩

theorem Zone.endsVisible_text (z : Zone) : EndsVisible z.text := by
  have clock (sign : Char) (hours : List Char) (minutes : Nat) :
      EndsVisible (sign :: (hours ++ ':' :: paddedDigits 2 minutes)) :=
    (((endsVisible_paddedDigits 2 minutes).cons ':').append hours).cons sign
  cases z with
  | universal capital => cases capital <;> exact ⟨[], _, rfl, by decide⟩
  | east hours minutes => exact clock '+' _ minutes
  | west hours minutes => exact clock '-' _ minutes

section Ends

variable (s : Spelling) {rest : List Char}

theorem endsVisible_writeDate (ends : EndsVisible rest) : EndsVisible (s.writeDate rest) :=
  ((((ends.append _).cons '-').append _).cons '-').append _

theorem endsVisible_writeMinutes (ends : EndsVisible rest) : EndsVisible (s.writeMinutes rest) :=
  ((ends.append _).cons ':').append _

theorem endsVisible_writeSeconds (ends : EndsVisible rest) : EndsVisible (s.writeSeconds rest) :=
  ((ends.append _).append _).cons ':'

theorem endsVisible_toMinute : EndsVisible (s.writeMinutes []) := by
  rw [Spelling.writeMinutes, List.append_nil]
  exact ((endsVisible_paddedDigits 2 s.minute).cons ':').append _

theorem endsVisible_toSecond : EndsVisible (s.writeSeconds []) := by
  rw [Spelling.writeSeconds, List.append_nil, fractionText]
  split
  · rw [List.append_nil]
    exact (endsVisible_paddedDigits 2 s.second).cons ':'
  · exact (((endsVisible_paddedDigits s.places s.fraction).cons '.').append _).cons ':'

end Ends

theorem startsVisible_write (layout : Layout) (s : Spelling) : StartsVisible (layout.write s) := by
  cases layout <;> exact (startsVisible_yearDigits s.year).append _

theorem endsVisible_write (layout : Layout) (s : Spelling) : EndsVisible (layout.write s) := by
  cases layout with
  | letter =>
      have clock := endsVisible_writeMinutes s (endsVisible_toSecond s)
      exact endsVisible_writeDate s (clock.cons 'T')
  | blank =>
      have clock := endsVisible_writeMinutes s (endsVisible_toSecond s)
      exact endsVisible_writeDate s (clock.cons ' ')
  | minutes => exact endsVisible_writeDate s ((endsVisible_toMinute s).cons 'T')
  | zoned separator separates zone =>
      have clock := endsVisible_writeMinutes s (endsVisible_writeSeconds s zone.endsVisible_text)
      exact endsVisible_writeDate s (clock.cons separator)

/-- What a text in one of the layouts is read as, with blanks around it. -/
theorem readTime_write (layout : Layout) (s : Spelling) {before after : List Char}
    (blankBefore : before.all isBlankChar = true)
    (blankAfter : after.all isBlankChar = true) (offset : Offset) :
    let text := String.ofList (before ++ layout.write s ++ after)
    (layout.zone? = none → readTime text offset =
        (layout.shown s).fields.localTime?.bind (·.atOffset? offset)) ∧
      (∀ zone, layout.zone? = some zone → 0 ≤ s.year ∧ s.year ≤ 9999 → readTime text offset =
        s.fields.localTime?.map fun time =>
          ⟨⟨time.seconds - zone.seconds, time.nanos⟩, offset⟩) := by
  intro text
  have trimmed : (trim text).toList = layout.write s := by
    rw [trim, String.toList_ofList, String.toList_ofList]
    exact trimChars_between (startsVisible_write layout s) (endsVisible_write layout s)
      blankBefore blankAfter
  constructor
  · intro zoneless
    rw [readTime, readInstant, trimmed, readZoned_write_of_zoneless s zoneless, readLocal_write,
      zoneless]
    rfl
  · intro zone isZone fourDigits
    rw [readTime, readInstant, trimmed, readZoned_write_of_zoned s isZone fourDigits,
      readLocal_write, isZone]
    cases s.fields.localTime? <;> rfl

end DualStore.Time
