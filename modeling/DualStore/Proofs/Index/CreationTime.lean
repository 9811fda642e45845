import DualStore.Index.Document
import DualStore.Proofs.Time.Reading

/-!
Contract: the creation time in the index reads back.

Owns:
- the form that the index stores is a spelling of the local time, to the millisecond;
- it is read back as the instant that it was written for, to the millisecond;
- so a document that is made from it again has the same creation time, and instants that differ by
  a millisecond are told apart.

Does not own: which creation time a document gets.
-/

namespace DualStore.Time

open DualStore.Text DualStore.Record

/-- The instant without what is finer than a millisecond. -/
def Instant.toMillisecond (t : Instant) : Instant :=
  ⟨t.seconds, t.nanos / 1000000 * 1000000⟩

/-- An instant that clocks at an offset can show: it can be represented and so can the local time,
and only the last second of a minute is followed by a leap second. -/
structure Instant.Showable (t : Instant) (offset : Offset) : Prop where
  representable : t.isRepresentable = true
  locally : Instant.isRepresentable ⟨t.seconds + offset.seconds, t.nanos⟩ = true
  bounded : t.nanos < 2000000000
  leaps : 1000000000 ≤ t.nanos → t.seconds % 60 = 59

/-- A local time that clocks show: there is such a date, and leap seconds end minutes. -/
structure LocalTime.IsProper (t : LocalTime) : Prop where
  valid : t.date.isValid = true
  inDay : t.secondOfDay < 86400
  leaps : t.nanos / 1000000000 = 0 ∨ t.nanos / 1000000000 = 1 ∧ t.secondOfDay % 60 = 59

/-! ## Years -/

/-- A representable count of seconds lies in a representable year. -/
theorem isRepresentableYear_of_seconds {seconds : Int} {nanos : Nat}
    (representable : Instant.isRepresentable ⟨seconds, nanos⟩ = true) :
    isRepresentableYear (Date.ofDay (seconds / 86400)).year = true := by
  obtain ⟨valid, number⟩ := Date.ofDay_spec (seconds / 86400)
  obtain ⟨starts, ends⟩ := Date.toDay_bounds valid
  have firstDay : daysBeforeYear (-262143) = -95745764 := by decide
  have lastDay : daysBeforeYear 262143 = 95745765 := by decide
  rw [Instant.isRepresentable_iff] at representable
  dsimp only at representable
  unfold epochDay at starts ends
  generalize (Date.ofDay (seconds / 86400)).year = year at starts ends ⊢
  rw [isRepresentableYear, Bool.and_eq_true, decide_eq_true_eq, decide_eq_true_eq]
  constructor
  · by_contra tooEarly
    have before := daysBeforeYear_mono (show year + 1 ≤ -262143 by omega)
    omega
  · by_contra tooLate
    have later := daysBeforeYear_mono (show 262143 ≤ year by omega)
    omega

/-! ## Local times as spellings -/

/-- The offset moves whole minutes only, so that the last second of a minute stays the last. -/
theorem Instant.Showable.isProper {t : Instant} {offset : Offset} (showable : t.Showable offset)
    (wholeMinutes : 60 ∣ offset.seconds) : (ZonedTime.localTime ⟨t, offset⟩).IsProper where
  valid := (Date.ofDay_spec _).1
  inDay := by
    rw [ZonedTime.localTime]
    dsimp only
    omega
  leaps := by
    have bounded := showable.bounded
    have leaps := showable.leaps
    rw [ZonedTime.localTime]
    dsimp only
    omega

namespace LocalTime

variable {t : LocalTime} (proper : t.IsProper)

/-- The numbers of a local time, with a fraction of three digits. -/
def spelling : Spelling where
  year := t.date.year
  month := t.date.month
  day := t.date.day
  hour := t.secondOfDay / 3600
  minute := t.secondOfDay / 60 % 60
  second := t.secondOfDay % 60 + t.nanos / 1000000000
  places := 3
  fraction := t.fraction / 1000000
  monthFits := (Date.fits_of_valid proper.valid).1
  dayFits := (Date.fits_of_valid proper.valid).2
  hourFits := by
    have inDay := proper.inDay
    omega
  minuteFits := Nat.mod_lt _ (by decide)
  secondFits := by
    have leaps := proper.leaps
    omega
  fractionFits := by
    rw [fraction]
    omega

theorem write_spelling :
    Layout.letter.write (spelling proper) =
      t.digits ++ '.' :: paddedDigits 3 (t.fraction / 1000000) := by
  simp [Layout.write, Spelling.writeDate, Spelling.writeMinutes, Spelling.writeSeconds, spelling,
    digits, fractionText]

theorem time_spelling :
    (spelling proper).time = ⟨t.date, t.secondOfDay, t.nanos / 1000000 * 1000000⟩ := by
  have inDay := proper.inDay
  have leaps := proper.leaps
  have second : t.secondOfDay / 3600 * 3600 + t.secondOfDay / 60 % 60 * 60 +
      min (t.secondOfDay % 60 + t.nanos / 1000000000) 59 = t.secondOfDay := by omega
  have nanos : wholeNanos 3 (t.nanos % 1000000000 / 1000000) +
      (if t.secondOfDay % 60 + t.nanos / 1000000000 = 60 then 1000000000 else 0) =
        t.nanos / 1000000 * 1000000 := by
    rw [wholeNanos]
    split <;> omega
  exact congrArg₂ (LocalTime.mk t.date) second nanos

end LocalTime

/-! ## The text in the index -/

theorem Instant.indexText_toMillisecond (t : Instant) (offset : Offset) :
    t.toMillisecond.indexText offset = t.indexText offset := by
  have second : t.nanos / 1000000 * 1000000 / 1000000000 = t.nanos / 1000000000 := by omega
  have fraction : t.nanos / 1000000 * 1000000 % 1000000000 / 1000000 =
      t.nanos % 1000000000 / 1000000 := by omega
  simp only [indexText, toMillisecond, ZonedTime.localTime, LocalTime.digits, LocalTime.fraction,
    second, fraction]

/-- What the index stores is read back as the instant, to the millisecond. -/
theorem readTime_indexText_eq {t : Instant} {offset : Offset} (showable : t.Showable offset)
    (wholeMinutes : 60 ∣ offset.seconds) :
    readTime (t.indexText offset) offset = some ⟨t.toMillisecond, offset⟩ := by
  have proper := showable.isProper wholeMinutes
  let s := LocalTime.spelling proper
  have isText : t.indexText offset = String.ofList ([] ++ Layout.letter.write s ++ []) := by
    rw [LocalTime.write_spelling, List.nil_append, List.append_nil]
    rfl
  have isClock : s.fields.localTime? = some s.time := by
    have year : isRepresentableYear s.year = true :=
      isRepresentableYear_of_seconds showable.locally
    have valid : s.date.isValid = true := proper.valid
    rw [Spelling.localTime?_fields, year, valid]
    rfl
  have seconds : s.time.seconds - offset.seconds = t.seconds := by
    have shift := ZonedTime.seconds_localTime ⟨t, offset⟩
    rw [LocalTime.time_spelling]
    change LocalTime.seconds (ZonedTime.localTime ⟨t, offset⟩) - offset.seconds = t.seconds
    rw [shift]
    exact Int.add_sub_cancel _ _
  have representable :
      Instant.isRepresentable ⟨s.time.seconds - offset.seconds, s.time.nanos⟩ = true := by
    rw [seconds]
    exact showable.representable
  have noBlanks : ([] : List Char).all isBlankChar = true := rfl
  have isRead := (readTime_write .letter s noBlanks noBlanks offset).1 rfl
  rw [isText, isRead]
  change s.fields.localTime?.bind _ = _
  rw [isClock, Option.bind_some, LocalTime.atOffset?_eq representable, seconds,
    LocalTime.time_spelling]
  rfl

/-- For every offset of whole minutes and every instant that clocks there can show, before the year
zero, behind the year 9999 or in a leap second too: the text that the index stores is read back as
the instant to the millisecond, at that offset. So a new piece of content whose creation time is
that text gets the same text in the index, and instants have the same text only if they are the
same to the millisecond. -/
theorem readTime_indexText (t : Instant) (offset : Offset) (showable : t.Showable offset)
    (wholeMinutes : 60 ∣ offset.seconds) :
    let text := t.indexText offset
    readTime text offset = some ⟨t.toMillisecond, offset⟩ ∧
      (∀ (created : ContentCreated) (record : ContentRecord),
        created.createdAt = some (.text text) →
          (IndexDocument.ofEvent created record offset).createdAt = some text) ∧
      ∀ other : Instant, other.Showable offset →
        (other.indexText offset = text ↔ other.toMillisecond = t.toMillisecond) := by
  intro text
  have isRead : readTime text offset = some ⟨t.toMillisecond, offset⟩ :=
    readTime_indexText_eq showable wholeMinutes
  refine ⟨isRead, ?_, ?_⟩
  · intro created record stated
    have resolved : (WrittenTime.text text).resolve offset = some ⟨t.toMillisecond, offset⟩ :=
      isRead
    rw [IndexDocument.ofEvent, stated]
    dsimp only [Option.bind_some]
    rw [resolved]
    exact congrArg some (t.indexText_toMillisecond offset)
  · intro other otherShowable
    constructor
    · intro same
      have isOther := readTime_indexText_eq otherShowable wholeMinutes
      rw [same] at isOther
      exact (congrArg ZonedTime.instant (Option.some.inj (isRead.symm.trans isOther))).symm
    · intro same
      rw [← other.indexText_toMillisecond, same]
      exact t.indexText_toMillisecond offset

/-- The last millisecond of a leap second before the year zero. -/
theorem readTime_indexText_leapSecond :
    let t : Instant := ⟨-62167219201, 1999999999⟩
    let offset : Offset := { seconds := 0 }
    t.Showable offset ∧ 60 ∣ offset.seconds ∧
      t.indexText offset = "-0001-12-31T23:59:60.999" ∧
      readTime "-0001-12-31T23:59:60.999" offset =
        some ⟨⟨-62167219201, 1999000000⟩, offset⟩ := by
  intro t offset
  have showable : t.Showable offset := ⟨by decide, by decide, by decide, by decide⟩
  have isText : t.indexText offset = "-0001-12-31T23:59:60.999" := by decide
  have truncated : t.toMillisecond = ⟨-62167219201, 1999000000⟩ := by decide
  have isRead := (readTime_indexText t offset showable (by decide)).1
  rw [isText, truncated] at isRead
  exact ⟨showable, by decide, isText, isRead⟩

end DualStore.Time
