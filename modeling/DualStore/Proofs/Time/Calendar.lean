import DualStore.Time.Calendar
import Mathlib.Algebra.GroupWithZero.Nat
import Mathlib.Data.Int.Init

/-!
Contract: the day numbers of the calendar.

Owns:
- years follow each other without a gap, so that every count of days falls into exactly one year;
- every day of a year falls into exactly one month;
- dates that exist and day numbers correspond one to one;
- the day number of a date is what counting day by day from the first of January 1970 comes to.

Does not own: which instants can be represented.
-/

namespace DualStore.Time

/-! ## Years -/

def yearLength (leap : Bool) : Nat := (monthLengths leap).sum

theorem daysBeforeYear_succ (year : Int) :
    daysBeforeYear (year + 1) = daysBeforeYear year + yearLength (isLeapYear year) := by
  have common : yearLength false = 365 := rfl
  have leap : yearLength true = 366 := rfl
  cases isLeap : isLeapYear year with
  | false =>
      simp only [isLeapYear, Bool.and_eq_false_iff, Bool.or_eq_false_iff,
        decide_eq_false_iff_not] at isLeap
      rw [common, daysBeforeYear, daysBeforeYear]
      omega
  | true =>
      simp only [isLeapYear, Bool.and_eq_true, Bool.or_eq_true, decide_eq_true_eq] at isLeap
      rw [leap, daysBeforeYear, daysBeforeYear]
      omega

theorem daysBeforeYear_mono {year later : Int} (before : year ≤ later) :
    daysBeforeYear year ≤ daysBeforeYear later := by
  unfold daysBeforeYear
  omega

/-- A count of days lies in the year that is found for it. -/
theorem yearOfDays_bounds (days : Int) :
    daysBeforeYear (yearOfDays days) ≤ days ∧ days < daysBeforeYear (yearOfDays days + 1) := by
  -- The mean year is 146097 / 400 days long, and no year starts two days away from its multiple.
  have notEarlier : daysBeforeYear (400 * days / 146097 - 1) ≤ days := by
    unfold daysBeforeYear
    omega
  have notLater : days < daysBeforeYear (400 * days / 146097 + 1 + 1) := by
    unfold daysBeforeYear
    omega
  rw [yearOfDays]
  split
  · rename_i tooLate
    rw [Int.sub_add_cancel]
    exact ⟨notEarlier, tooLate⟩
  · rename_i reached
    split
    · rename_i tooEarly
      exact ⟨tooEarly, notLater⟩
    · rename_i within
      exact ⟨Int.not_lt.mp reached, Int.not_le.mp within⟩

/-- Only one year has a count of days in it. -/
theorem yearOfDays_eq {year days : Int} (starts : daysBeforeYear year ≤ days)
    (ends : days < daysBeforeYear (year + 1)) : yearOfDays days = year := by
  obtain ⟨begun, within⟩ := yearOfDays_bounds days
  rcases Int.lt_trichotomy (yearOfDays days) year with earlier | same | later
  · have overlap := daysBeforeYear_mono (Int.add_one_le_of_lt earlier)
    omega
  · exact same
  · have overlap := daysBeforeYear_mono (Int.add_one_le_of_lt later)
    omega

/-! ## Months -/

/-- A day behind so many whole months is in the next one. -/
theorem monthOfDay_sum {lengths : List Nat} {passed day length : Nat} (month : Nat)
    (isNext : lengths[passed]? = some length) (within : day < length) :
    monthOfDay month ((lengths.take passed).sum + day) lengths = (month + passed, day + 1) := by
  induction lengths generalizing month passed with
  | nil => cases isNext
  | cons first lengths inductionHypothesis =>
      cases passed with
      | zero =>
          obtain rfl : first = length := Option.some.inj isNext
          rw [List.take_zero, List.sum_nil, Nat.zero_add, monthOfDay, if_pos within]
          rfl
      | succ passed =>
          rw [List.getElem?_cons_succ] at isNext
          rw [List.take_succ_cons, List.sum_cons, Nat.add_assoc, monthOfDay,
            if_neg (Nat.not_lt.mpr (Nat.le_add_right _ _)), Nat.add_sub_cancel_left,
            inductionHypothesis (month + 1) isNext, Nat.add_assoc, Nat.add_comm 1 passed]

/-- Every day before the end of the last month lies behind some whole months, in the next one. -/
theorem exists_month {lengths : List Nat} {day : Nat} (before : day < lengths.sum) :
    ∃ passed rest length, lengths[passed]? = some length ∧ rest < length ∧
      (lengths.take passed).sum + rest = day := by
  induction lengths generalizing day with
  | nil => exact absurd before (Nat.not_lt_zero day)
  | cons first lengths inductionHypothesis =>
      by_cases inFirst : day < first
      · exact ⟨0, day, first, rfl, inFirst, Nat.zero_add day⟩
      · rw [List.sum_cons] at before
        have inOthers : day - first < lengths.sum := by omega
        obtain ⟨passed, rest, length, isNext, within, same⟩ := inductionHypothesis inOthers
        refine ⟨passed + 1, rest, length, isNext, within, ?_⟩
        rw [List.take_succ_cons, List.sum_cons]
        omega

/-! ## Dates -/

theorem Date.isValid_iff {date : Date} :
    date.isValid = true ↔
      0 < date.day ∧ date.day ≤ monthLength (isLeapYear date.year) date.month := by
  rw [isValid, Bool.and_eq_true, decide_eq_true_eq, decide_eq_true_eq]
  rfl

theorem monthLength_succ (leap : Bool) (passed : Nat) :
    monthLength leap (passed + 1) = (monthLengths leap).getD passed 0 :=
  if_neg (Nat.succ_ne_zero passed)

/-- A month that exists has its place among the lengths. -/
theorem exists_place {leap : Bool} {month : Nat} (isMonth : 0 < monthLength leap month) :
    ∃ passed, month = passed + 1 ∧
      (monthLengths leap)[passed]? = some (monthLength leap month) := by
  cases month with
  | zero => exact absurd isMonth (Nat.lt_irrefl 0)
  | succ passed =>
      refine ⟨passed, rfl, ?_⟩
      rw [monthLength_succ, List.getD_eq_getElem?_getD] at isMonth ⊢
      cases found : (monthLengths leap)[passed]? with
      | none =>
          rw [found] at isMonth
          exact absurd isMonth (Nat.lt_irrefl 0)
      | some length => rfl

/-- A month has at most 31 days. -/
theorem monthLength_le (leap : Bool) (month : Nat) : monthLength leap month ≤ 31 := by
  have longest : ∀ leap, ∀ length ∈ monthLengths leap, length ≤ 31 := by decide
  by_cases isMonth : 0 < monthLength leap month
  · obtain ⟨passed, -, isPlace⟩ := exists_place isMonth
    exact longest leap _ (List.mem_of_getElem? isPlace)
  · omega

theorem daysBeforeMonth_succ (leap : Bool) (passed : Nat) :
    daysBeforeMonth leap (passed + 1) = ((monthLengths leap).take passed).sum := rfl

theorem sum_take_succ (lengths : List Nat) (passed : Nat) :
    (lengths.take (passed + 1)).sum = (lengths.take passed).sum + lengths.getD passed 0 := by
  rw [List.take_add_one, List.sum_append, List.getD_eq_getElem?_getD]
  cases lengths[passed]? with
  | none => rfl
  | some length => rfl

theorem sum_take_add_le {lengths : List Nat} {passed length : Nat}
    (isNext : lengths[passed]? = some length) :
    (lengths.take passed).sum + length ≤ lengths.sum := by
  obtain ⟨inside, rfl⟩ := List.getElem?_eq_some_iff.mp isNext
  have parts : lengths = lengths.take passed ++ lengths[passed] :: lengths.drop (passed + 1) := by
    rw [← List.drop_eq_getElem_cons inside, List.take_append_drop]
  have sums := congrArg List.sum parts
  rw [List.sum_append, List.sum_cons] at sums
  omega

/-- The day of the year that a date is, counted from zero. -/
def Date.dayOfYear (date : Date) : Nat :=
  daysBeforeMonth (isLeapYear date.year) date.month + (date.day - 1)

theorem Date.toDay_eq {date : Date} (valid : date.isValid = true) :
    date.toDay + epochDay = daysBeforeYear date.year + date.dayOfYear := by
  have isDay := (date.isValid_iff.mp valid).1
  rw [toDay, dayOfYear]
  omega

/-- A date that exists is a day of its year, and is found there by its month. -/
theorem Date.dayOfYear_spec {date : Date} (valid : date.isValid = true) :
    date.dayOfYear < yearLength (isLeapYear date.year) ∧
      monthOfDay 1 date.dayOfYear (monthLengths (isLeapYear date.year)) =
        (date.month, date.day) := by
  obtain ⟨year, month, day⟩ := date
  obtain ⟨isDay, within⟩ : 0 < day ∧ day ≤ monthLength (isLeapYear year) month :=
    isValid_iff.mp valid
  obtain ⟨passed, rfl, isPlace⟩ := exists_place (Nat.lt_of_lt_of_le isDay within)
  have inYear := sum_take_add_le isPlace
  have isMonth := monthOfDay_sum 1 isPlace (show day - 1 < _ by omega)
  rw [dayOfYear, daysBeforeMonth_succ, yearLength]
  dsimp only
  refine ⟨by omega, ?_⟩
  rw [isMonth, Nat.sub_add_cancel isDay, Nat.add_comm 1 passed]

/-- The day numbers of a year lie between its start and the start of the next one. -/
theorem Date.toDay_bounds {date : Date} (valid : date.isValid = true) :
    daysBeforeYear date.year ≤ date.toDay + epochDay ∧
      date.toDay + epochDay < daysBeforeYear (date.year + 1) := by
  have inYear := (dayOfYear_spec valid).1
  rw [toDay_eq valid, daysBeforeYear_succ]
  omega

/-- The day number of a date that exists leads back to the date. -/
theorem Date.ofDay_toDay {date : Date} (valid : date.isValid = true) :
    Date.ofDay date.toDay = date := by
  obtain ⟨starts, ends⟩ := toDay_bounds valid
  rw [ofDay, yearOfDays_eq starts ends, toDay_eq valid, Int.add_comm (daysBeforeYear date.year),
    Int.add_sub_cancel, Int.toNat_natCast, (dayOfYear_spec valid).2]

/-- Every day number is that of a date, which exists. -/
theorem Date.ofDay_spec (n : Int) : (Date.ofDay n).isValid = true ∧ (Date.ofDay n).toDay = n := by
  obtain ⟨starts, ends⟩ := yearOfDays_bounds (n + epochDay)
  rw [daysBeforeYear_succ] at ends
  rw [ofDay]
  generalize yearOfDays (n + epochDay) = year at starts ends ⊢
  have inYear : (n + epochDay - daysBeforeYear year).toNat <
      (monthLengths (isLeapYear year)).sum := by
    rw [yearLength] at ends
    omega
  obtain ⟨passed, rest, length, isNext, within, isDay⟩ := exists_month inYear
  have isPlace := monthOfDay_sum 1 isNext within
  rw [isDay] at isPlace
  rw [isPlace, Nat.add_comm 1 passed]
  change (Date.mk year (passed + 1) (rest + 1)).isValid = true ∧
    (Date.mk year (passed + 1) (rest + 1)).toDay = n
  constructor
  · refine isValid_iff.mpr ⟨Nat.succ_pos rest, ?_⟩
    rw [monthLength_succ, List.getD_eq_getElem?_getD, isNext]
    exact within
  · rw [toDay, daysBeforeMonth_succ]
    dsimp only
    omega

/-! ## Counting day by day -/

/-- The date after a date: the next of the month, or the first of the next month, or of the next
year. -/
def Date.next (date : Date) : Date :=
  if date.day < monthLength (isLeapYear date.year) date.month then
    { date with day := date.day + 1 }
  else if date.month < 12 then ⟨date.year, date.month + 1, 1⟩
  else ⟨date.year + 1, 1, 1⟩

/-- So many days after the first of January 1970, or before it, comes a date. -/
inductive Date.Counted : Date → Int → Prop where
  | epoch : Counted ⟨1970, 1, 1⟩ 0
  | later {date : Date} {n : Int} : Counted date n → Counted date.next (n + 1)
  | earlier {date : Date} {n : Int} :
      date.isValid = true → Counted date.next (n + 1) → Counted date n

theorem monthLength_pos_iff {leap : Bool} {month : Nat} :
    0 < monthLength leap month ↔ 0 < month ∧ month ≤ 12 := by
  have twelve : ∀ leap, ∀ passed : Fin 12, 0 < monthLength leap (passed + 1) := by decide
  constructor
  · intro positive
    rw [monthLength] at positive
    split at positive
    · exact absurd positive (Nat.lt_irrefl 0)
    · rename_i isMonth
      refine ⟨Nat.pos_of_ne_zero isMonth, Nat.not_lt.mp fun beyond => ?_⟩
      have outside : (monthLengths leap).length ≤ month - 1 := by
        change 12 ≤ month - 1
        omega
      rw [List.getD_eq_getElem?_getD, List.getElem?_eq_none outside] at positive
      exact absurd positive (Nat.lt_irrefl 0)
  · rintro ⟨isMonth, atMost⟩
    have positive := twelve leap ⟨month - 1, by omega⟩
    rwa [Nat.sub_add_cancel isMonth] at positive

/-- The month and the day of a date that exists have two digits. -/
theorem Date.fits_of_valid {date : Date} (valid : date.isValid = true) :
    date.month < 100 ∧ date.day < 100 := by
  obtain ⟨isDay, within⟩ := date.isValid_iff.mp valid
  have isMonth := (monthLength_pos_iff.mp (Nat.lt_of_lt_of_le isDay within)).2
  have longest := monthLength_le (isLeapYear date.year) date.month
  omega

theorem daysBeforeMonth_next {leap : Bool} {month : Nat} (isMonth : 0 < month) :
    daysBeforeMonth leap (month + 1) = daysBeforeMonth leap month + monthLength leap month := by
  obtain ⟨passed, rfl⟩ := Nat.exists_eq_succ_of_ne_zero (Nat.ne_of_gt isMonth)
  rw [daysBeforeMonth_succ, daysBeforeMonth_succ, monthLength_succ, sum_take_succ]

/-- The date after one that exists does so too, and is one day later. -/
theorem Date.next_spec {date : Date} (valid : date.isValid = true) :
    date.next.isValid = true ∧ date.next.toDay = date.toDay + 1 := by
  obtain ⟨isDay, within⟩ := date.isValid_iff.mp valid
  obtain ⟨isMonth, atMost⟩ := monthLength_pos_iff.mp (Nat.lt_of_lt_of_le isDay within)
  rw [next]
  split
  · rename_i goesOn
    refine ⟨isValid_iff.mpr ⟨Nat.succ_pos _, goesOn⟩, ?_⟩
    rw [toDay, toDay]
    dsimp only
    omega
  · rename_i monthEnds
    split
    · rename_i monthFollows
      have nextMonth : 0 < monthLength (isLeapYear date.year) (date.month + 1) :=
        monthLength_pos_iff.mpr ⟨Nat.succ_pos _, monthFollows⟩
      refine ⟨isValid_iff.mpr ⟨Nat.one_pos, nextMonth⟩, ?_⟩
      rw [toDay, toDay, daysBeforeMonth_next isMonth]
      dsimp only
      omega
    · rename_i yearEnds
      have december : date.month = 12 := Nat.le_antisymm atMost (Nat.not_lt.mp yearEnds)
      have wholeYear (leap : Bool) :
          yearLength leap = daysBeforeMonth leap 12 + monthLength leap 12 := by
        cases leap <;> rfl
      have january (leap : Bool) : daysBeforeMonth leap 1 = 0 ∧ 0 < monthLength leap 1 := by
        cases leap <;> decide
      refine ⟨isValid_iff.mpr ⟨Nat.one_pos, (january _).2⟩, ?_⟩
      rw [december] at within monthEnds
      rw [toDay, toDay, daysBeforeYear_succ, wholeYear, (january _).1, december]
      dsimp only
      omega

/-- Counting day by day reaches every date that exists, at its day number, and nothing else. -/
theorem Date.counted_iff {date : Date} {n : Int} :
    date.Counted n ↔ date.isValid = true ∧ date.toDay = n := by
  constructor
  · intro counted
    induction counted with
    | epoch => decide
    | later _ inductionHypothesis =>
        obtain ⟨valid, rfl⟩ := inductionHypothesis
        exact next_spec valid
    | earlier valid _ inductionHypothesis =>
        have after := (next_spec valid).2
        exact ⟨valid, by omega⟩
  · rintro ⟨valid, rfl⟩
    have next_ofDay (n : Int) : (ofDay n).next = ofDay (n + 1) := by
      obtain ⟨valid, number⟩ := ofDay_spec n
      obtain ⟨nextValid, nextNumber⟩ := next_spec valid
      rw [← ofDay_toDay nextValid, nextNumber, number]
    have reached (n : Int) : (ofDay n).Counted n := by
      induction n using Int.induction_on with
      | zero => exact .epoch
      | succ n inductionHypothesis =>
          rw [← next_ofDay]
          exact .later inductionHypothesis
      | pred n inductionHypothesis =>
          refine .earlier (ofDay_spec _).1 ?_
          rwa [next_ofDay, Int.sub_add_cancel]
    have isReached := reached date.toDay
    rwa [ofDay_toDay valid] at isReached

/-- The dates that exist are those that counting day by day reaches. -/
theorem Date.exists_counted_iff {date : Date} :
    (∃ n, date.Counted n) ↔ date.isValid = true := by
  constructor
  · rintro ⟨n, counted⟩
    exact (counted_iff.mp counted).1
  · intro valid
    exact ⟨date.toDay, counted_iff.mpr ⟨valid, rfl⟩⟩

example : (Date.mk 2000 2 28).next = ⟨2000, 2, 29⟩ ∧ (Date.mk 1900 2 28).next = ⟨1900, 3, 1⟩ := by
  decide

end DualStore.Time
