import DualStore.Proofs.Time.Calendar
import DualStore.Proofs.Time.Spelling

/-!
Contract: written times denote the instants that they spell.

Owns:
- a local time at an offset and its instant lead to each other;
- every local time of the years with four digits can be represented at every offset;
- a text without a zone denotes the instant at which clocks at the given offset show its numbers,
  and one with a zone the instant at which clocks in that zone do.

Does not own: texts in which blanks or digits are missing or more than the layouts have.
-/

namespace DualStore.Time

open DualStore.Text

/-! ## Local times at an offset -/

/-- Clocks so many seconds east of universal time show a local time at an instant. -/
def LocalTime.IsShownAt (t : LocalTime) (east : Int) (instant : Instant) : Prop :=
  ∃ day, t.date.Counted day ∧ instant = ⟨day * 86400 + t.secondOfDay - east, t.nanos⟩

theorem ZonedTime.localTime_eq {t : LocalTime} {offset : Offset} {instant : Instant}
    (inDay : t.secondOfDay < 86400) (isShown : t.IsShownAt offset.seconds instant) :
    ZonedTime.localTime ⟨instant, offset⟩ = t := by
  obtain ⟨day, counted, rfl⟩ := isShown
  obtain ⟨valid, rfl⟩ := Date.counted_iff.mp counted
  have isDay : (t.date.toDay * 86400 + t.secondOfDay) / 86400 = t.date.toDay := by omega
  have isSecond : (t.date.toDay * 86400 + t.secondOfDay) % 86400 = t.secondOfDay := by omega
  rw [localTime]
  dsimp only
  rw [Int.sub_add_cancel, isDay, isSecond, Date.ofDay_toDay valid, Int.toNat_natCast]

/-- The local time of an instant is as many seconds later than the instant as the offset has. -/
theorem ZonedTime.seconds_localTime (t : ZonedTime) :
    t.localTime.seconds = t.instant.seconds + t.offset.seconds := by
  have number := (Date.ofDay_spec ((t.instant.seconds + t.offset.seconds) / 86400)).2
  rw [LocalTime.seconds, localTime]
  dsimp only
  rw [number]
  omega

/-- What clocks show in a year with four digits can be represented, wherever they are. -/
theorem isRepresentable_of_fourDigits {t : LocalTime} {east : Int} {instant : Instant}
    (fourDigits : 0 ≤ t.date.year ∧ t.date.year ≤ 9999) (inDay : t.secondOfDay < 86400)
    (nearby : -86400 < east ∧ east < 86400) (isShown : t.IsShownAt east instant) :
    instant.isRepresentable = true := by
  obtain ⟨day, counted, rfl⟩ := isShown
  obtain ⟨valid, rfl⟩ := Date.counted_iff.mp counted
  have zero : daysBeforeYear 0 = 0 := by decide
  have tenThousand : daysBeforeYear 10000 = 3652425 := by decide
  have notBefore := daysBeforeYear_mono fourDigits.1
  have notAfter := daysBeforeYear_mono (Int.add_le_add_right fourDigits.2 1)
  have bounds := Date.toDay_bounds valid
  rw [Instant.isRepresentable_iff]
  dsimp only
  unfold epochDay at bounds
  change daysBeforeYear (t.date.year + 1) ≤ daysBeforeYear 10000 at notAfter
  omega

theorem LocalTime.atOffset?_eq {t : LocalTime} {offset : Offset}
    (representable : Instant.isRepresentable ⟨t.seconds - offset.seconds, t.nanos⟩ = true) :
    t.atOffset? offset = some ⟨⟨t.seconds - offset.seconds, t.nanos⟩, offset⟩ :=
  if_pos representable

/-! ## Spelled times -/

theorem Spelling.secondOfDay_lt (s : Spelling) : s.time.secondOfDay < 86400 := by
  have hour := s.hourFits
  have minute := s.minuteFits
  have second : min s.second 59 ≤ 59 := Nat.min_le_right _ 59
  rw [Spelling.time]
  dsimp only
  omega

namespace Layout

theorem date_shown (layout : Layout) (s : Spelling) : (layout.shown s).date = s.date := by
  cases layout <;> rfl

theorem shown_of_zoned {layout : Layout} {zone : Zone} (isZone : layout.zone? = some zone)
    (s : Spelling) : layout.shown s = s := by
  cases layout with
  | zoned => rfl
  | _ => cases isZone

/-- The seconds east of universal time at which the clocks are that show the numbers. -/
def east (layout : Layout) (offset : Offset) : Int :=
  (layout.zone?.map Zone.seconds).getD offset.seconds

theorem east_of_zoneless {layout : Layout} (zoneless : layout.zone? = none) (offset : Offset) :
    layout.east offset = offset.seconds := by
  rw [east, zoneless]
  rfl

theorem east_of_zoned {layout : Layout} {zone : Zone} (isZone : layout.zone? = some zone)
    (offset : Offset) : layout.east offset = zone.seconds := by
  rw [east, isZone]
  rfl

theorem east_nearby (layout : Layout) (offset : Offset) :
    -86400 < layout.east offset ∧ layout.east offset < 86400 := by
  rw [east]
  cases layout.zone? with
  | none => exact offset.withinDay
  | some zone =>
      change -86400 < zone.seconds ∧ zone.seconds < 86400
      cases zone <;> rw [Zone.seconds] <;> omega

end Layout

section Spelled

variable (layout : Layout) {s : Spelling} {before after : List Char}

theorem localTime?_shown (fourDigits : 0 ≤ s.year ∧ s.year ≤ 9999) :
    (layout.shown s).fields.localTime? =
      if s.date.isValid then some (layout.shown s).time else none := by
  have sameDate := layout.date_shown s
  have sameYear : (layout.shown s).year = s.year := congrArg Date.year sameDate
  have representable : isRepresentableYear s.year = true := by
    rw [isRepresentableYear, Bool.and_eq_true, decide_eq_true_eq, decide_eq_true_eq]
    omega
  rw [Spelling.localTime?_fields, sameDate, sameYear, representable, Bool.true_and]

theorem isShownAt_shown (valid : s.date.isValid = true) (east : Int) :
    let spelled := (layout.shown s).time
    spelled.IsShownAt east ⟨spelled.seconds - east, spelled.nanos⟩ := by
  rw [← layout.date_shown s] at valid
  exact ⟨_, Date.counted_iff.mpr ⟨valid, rfl⟩, rfl⟩

theorem isRepresentable_shown (fourDigits : 0 ≤ s.year ∧ s.year ≤ 9999)
    (valid : s.date.isValid = true) {east : Int} (nearby : -86400 < east ∧ east < 86400) :
    let spelled := (layout.shown s).time
    Instant.isRepresentable ⟨spelled.seconds - east, spelled.nanos⟩ = true := by
  have sameYear : (layout.shown s).time.date.year = s.year :=
    congrArg Date.year (layout.date_shown s)
  exact isRepresentable_of_fourDigits (by rwa [sameYear]) (layout.shown s).secondOfDay_lt nearby
    (isShownAt_shown layout valid east)

/-- A time with a zone is not tested for being representable, and need not be. -/
theorem readTime_write_eq (fourDigits : 0 ≤ s.year ∧ s.year ≤ 9999)
    (blankBefore : before.all isBlankChar = true)
    (blankAfter : after.all isBlankChar = true) (offset : Offset) :
    let spelled := (layout.shown s).time
    readTime (String.ofList (before ++ layout.write s ++ after)) offset =
      if s.date.isValid then
        some ⟨⟨spelled.seconds - layout.east offset, spelled.nanos⟩, offset⟩
      else none := by
  intro spelled
  obtain ⟨zoneless, zoned⟩ := readTime_write layout s blankBefore blankAfter offset
  have isRead := localTime?_shown layout fourDigits
  cases isZone : layout.zone? with
  | none =>
      rw [zoneless isZone, isRead, Layout.east_of_zoneless isZone]
      split
      · rename_i valid
        exact LocalTime.atOffset?_eq
          (isRepresentable_shown layout fourDigits valid offset.withinDay)
      · rfl
  | some zone =>
      rw [Layout.shown_of_zoned isZone] at isRead
      rw [zoned zone isZone fourDigits, isRead, Layout.east_of_zoned isZone]
      split
      · rw [Option.map_some, ← Layout.shown_of_zoned isZone s]
      · rfl

end Spelled

/-- For every year with four digits, every month and day, time of day and fraction, in each layout
and with any blanks around it: if there is such a date, then the text denotes the instant at which
clocks show the numbers, in its zone if it has one and else at the given offset, where they are the
local time of the result. If there is no such date, then the text denotes nothing. Read at two
offsets, a text with a zone denotes the same instant, and one without a zone denotes instants that
are as far apart as the offsets. -/
theorem readTime_spelled (layout : Layout) (s : Spelling) (before after : List Char)
    (offset : Offset) (fourDigits : 0 ≤ s.year ∧ s.year ≤ 9999)
    (blankBefore : before.all isBlankChar = true)
    (blankAfter : after.all isBlankChar = true) :
    let text := String.ofList (before ++ layout.write s ++ after)
    let spelled := (layout.shown s).time
    ((∃ day, s.date.Counted day) → ∃ instant,
        instant.isRepresentable = true ∧ spelled.IsShownAt (layout.east offset) instant ∧
          readTime text offset = some ⟨instant, offset⟩ ∧
          (layout.zone? = none → ZonedTime.localTime ⟨instant, offset⟩ = spelled)) ∧
      ((¬∃ day, s.date.Counted day) → readTime text offset = none) ∧
      ∀ other t u, readTime text offset = some t → readTime text other = some u →
        (layout.zone?.isSome = true → u.instant = t.instant) ∧
          (layout.zone? = none → u.instant.nanos = t.instant.nanos ∧
            u.instant.seconds - t.instant.seconds = offset.seconds - other.seconds) := by
  intro text spelled
  have isRead := readTime_write_eq layout fourDigits blankBefore blankAfter
  rw [Date.exists_counted_iff]
  refine ⟨?_, ?_, ?_⟩
  · intro valid
    have isShown := isShownAt_shown layout valid (layout.east offset)
    have representable :=
      isRepresentable_shown layout fourDigits valid (layout.east_nearby offset)
    refine ⟨_, representable, isShown, (isRead offset).trans (if_pos valid), ?_⟩
    intro zoneless
    rw [Layout.east_of_zoneless zoneless] at isShown ⊢
    exact ZonedTime.localTime_eq (layout.shown s).secondOfDay_lt isShown
  · intro invalid
    exact (isRead offset).trans (if_neg invalid)
  · intro other t u isFirst isSecond
    have isFirst := (isRead offset).symm.trans isFirst
    have isSecond := (isRead other).symm.trans isSecond
    split at isFirst
    · rename_i valid
      rw [if_pos valid] at isSecond
      obtain rfl := Option.some.inj isFirst
      obtain rfl := Option.some.inj isSecond
      constructor
      · intro zoned
        obtain ⟨zone, isZone⟩ := Option.isSome_iff_exists.mp zoned
        rw [Layout.east_of_zoned isZone, Layout.east_of_zoned isZone]
      · intro zoneless
        rw [Layout.east_of_zoneless zoneless, Layout.east_of_zoneless zoneless]
        dsimp only
        exact ⟨rfl, by omega⟩
    · cases isFirst

/-- Half a second into the leap second at the end of 2016, as clocks in Shanghai showed it. -/
def leapSecond : Spelling where
  year := 2017
  month := 1
  day := 1
  hour := 7
  minute := 59
  second := 60
  places := 1
  fraction := 5
  monthFits := by decide
  dayFits := by decide
  hourFits := by decide
  minuteFits := by decide
  secondFits := by decide
  fractionFits := by decide

/-- The leap second is the same instant with its zone, wherever it is read, and without a zone in
Shanghai. -/
theorem readTime_spelled_leapSecond :
    let strict := (Layout.zoned 'T' (by decide) (.east 8 0)).write leapSecond
    let lenient := Layout.blank.write leapSecond
    String.ofList strict = "2017-01-01T07:59:60.5+08:00" ∧
      String.ofList lenient = "2017-01-01 07:59:60.5" ∧
      (∃ t, readTime (String.ofList ([] ++ strict ++ [])) { seconds := 0 } = some t ∧
        t.instant = ⟨1483228799, 1500000000⟩) ∧
      ∃ t, readTime (String.ofList (['\t'] ++ lenient ++ [' '])) { seconds := 28800 } = some t ∧
        t.instant = ⟨1483228799, 1500000000⟩ := by
  intro strict lenient
  have isDay : ∃ day, leapSecond.date.Counted day := ⟨17167, Date.counted_iff.mpr (by decide)⟩
  have zoned := readTime_spelled (.zoned 'T' (by decide) (.east 8 0)) leapSecond [] []
    { seconds := 0 } (by decide) (by decide) (by decide)
  have zoneless := readTime_spelled .blank leapSecond ['\t'] [' '] { seconds := 28800 }
    (by decide) (by decide) (by decide)
  obtain ⟨_, -, ⟨day, zonedCount, rfl⟩, isZoned, -⟩ := zoned.1 isDay
  obtain ⟨-, rfl⟩ := Date.counted_iff.mp zonedCount
  obtain ⟨_, -, ⟨day, zonelessCount, rfl⟩, isZoneless, -⟩ := zoneless.1 isDay
  obtain ⟨-, rfl⟩ := Date.counted_iff.mp zonelessCount
  exact ⟨by decide, by decide, ⟨_, isZoned, by decide⟩, ⟨_, isZoneless, by decide⟩⟩

example : readTime "1900-02-29T12:00" { seconds := 0 } = none ∧
    (readTime "2000-02-29T12:00" { seconds := 0 }).isSome = true := by
  decide

end DualStore.Time
