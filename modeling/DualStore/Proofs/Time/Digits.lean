import DualStore.Proofs.Text.Blank
import DualStore.Time.Layout
import DualStore.Time.Reading
import Mathlib.Algebra.GroupWithZero.Nat

/-!
Contract: the numbers in a written time, read back.

Owns:
- digits padded to a width are read back by the reader of exactly that width, by the one of at most
  that width, and by the one of any number of digits;
- a fraction of any number of digits is read as its whole nanoseconds;
- years are read back, signed or not.

Does not own: the order of the parts of a written time.
-/

namespace DualStore.Time

open DualStore.Text

/-! ## Runs of digits -/

/-- The characters do not go on with a digit. -/
def LeavesDigits (rest : List Char) : Prop :=
  ∀ c after, rest = c :: after → isDigitChar c = false

theorem leavesDigits_nil : LeavesDigits [] := by
  intro c after same
  cases same

theorem leavesDigits_cons {c : Char} (after : List Char) (other : isDigitChar c = false) :
    LeavesDigits (c :: after) := by
  intro first later same
  cases same
  exact other

theorem takeWhile_append_of_leaves {digits rest : List Char}
    (areDigits : ∀ c ∈ digits, isDigitChar c = true) (leaves : LeavesDigits rest) :
    (digits ++ rest).takeWhile isDigitChar = digits ∧
      (digits ++ rest).dropWhile isDigitChar = rest := by
  have stops : rest.takeWhile isDigitChar = [] ∧ rest.dropWhile isDigitChar = rest := by
    cases rest with
    | nil => exact ⟨rfl, rfl⟩
    | cons c after =>
        have other := leaves c after rfl
        simp [other]
  rw [List.takeWhile_append_of_pos areDigits, List.dropWhile_append_of_pos areDigits, stops.1,
    stops.2, List.append_nil]
  exact ⟨rfl, rfl⟩

theorem takeDigits_append {digits : List Char} (rest : List Char)
    (areDigits : ∀ c ∈ digits, isDigitChar c = true) :
    takeDigits digits.length (digits ++ rest) = (digits, rest) := by
  induction digits with
  | nil => rw [List.length_nil, takeDigits, List.nil_append]
  | cons c digits inductionHypothesis =>
      have others := inductionHypothesis fun d member => areDigits d (List.mem_cons_of_mem c member)
      rw [List.length_cons, List.cons_append, takeDigits, if_pos (areDigits c List.mem_cons_self),
        others]

theorem digitsValue_eq (digits : List Char) :
    digitsValue digits = Nat.ofDigitChars 10 digits 0 := by
  rw [Nat.ofDigitChars_eq_foldl, digitsValue]
  congr 1
  funext value c
  rw [Nat.mul_comm]
  rfl

theorem digitsValue_append (front back : List Char) :
    digitsValue (front ++ back) = 10 ^ back.length * digitsValue front + digitsValue back := by
  rw [digitsValue_eq, digitsValue_eq, digitsValue_eq, Nat.ofDigitChars_append,
    Nat.ofDigitChars_eq_ofDigitChars_zero]

theorem digitsValue_lt {digits : List Char} (areDigits : ∀ c ∈ digits, isDigitChar c = true) :
    digitsValue digits < 10 ^ digits.length := by
  induction digits with
  | nil => exact Nat.one_pos
  | cons c digits inductionHypothesis =>
      have others := inductionHypothesis fun d member => areDigits d (List.mem_cons_of_mem c member)
      have small : digitsValue [c] ≤ 9 := by
        have digit := areDigits c List.mem_cons_self
        rw [isDigitChar, Bool.and_eq_true, decide_eq_true_eq, decide_eq_true_eq, Char.le_def,
          Char.le_def] at digit
        have atMost : c.toNat ≤ 0x39 := digit.2
        change 0 * 10 + (c.toNat - 0x30) ≤ 9
        omega
      have scaled := Nat.mul_le_mul_left (10 ^ digits.length) small
      rw [← List.singleton_append, digitsValue_append, List.length_append, List.length_singleton,
        Nat.add_comm 1, Nat.pow_succ]
      omega

/-! ## Padded digits -/

theorem isDigitChar_of_isDigit {c : Char} (digit : c.isDigit = true) : isDigitChar c = true := by
  simpa [isDigitChar, Char.isDigit, Char.le_def] using digit

theorem visible_of_isDigitChar {c : Char} (digit : isDigitChar c = true) :
    isBlankChar c = false := by
  apply isBlankChar_of_isDigit
  simpa [isDigitChar, Char.isDigit, Char.le_def] using digit

section Padded

variable {width n : Nat}

theorem areDigits_paddedDigits (width n : Nat) :
    ∀ c ∈ paddedDigits width n, isDigitChar c = true := by
  intro c member
  rcases List.mem_append.mp member with zero | digit
  · rw [List.eq_of_mem_replicate zero]
    decide
  · exact isDigitChar_of_isDigit (Nat.isDigit_of_mem_toDigits (by decide) (by decide) digit)

theorem digitsValue_paddedDigits (width n : Nat) : digitsValue (paddedDigits width n) = n := by
  rw [digitsValue_eq, paddedDigits, Nat.ofDigitChars_append, Nat.ofDigitChars_replicate_zero,
    Nat.mul_zero]
  exact Nat.ofDigitChars_ten_toDigits

theorem paddedDigits_ne_nil : paddedDigits width n ≠ [] :=
  List.append_ne_nil_of_right_ne_nil _ Nat.toDigits_ne_nil

theorem length_paddedDigits (positive : 0 < width) (fits : n < 10 ^ width) :
    (paddedDigits width n).length = width := by
  have atMost : (natDigits n).length ≤ width :=
    (Nat.length_toDigits_le_iff (by decide) positive).mpr fits
  rw [paddedDigits, List.length_append, List.length_replicate, Nat.sub_add_cancel atMost]

theorem exists_paddedDigits_eq_cons (width n : Nat) :
    ∃ first after, paddedDigits width n = first :: after ∧ isDigitChar first = true := by
  cases isDigits : paddedDigits width n with
  | nil => exact absurd isDigits paddedDigits_ne_nil
  | cons first after =>
      exact ⟨first, after, rfl,
        areDigits_paddedDigits width n first (isDigits ▸ List.mem_cons_self)⟩

end Padded

/-! ## Readers of numbers -/

/-- One step of a reader: what a part has yielded is handed on. -/
theorem bind_of_some {α β : Type} {part : Option α} {a : α} (isRead : part = some a)
    (next : α → Option β) : part >>= next = next a := by
  rw [isRead]
  rfl

section Readers

variable {width n : Nat} {rest : List Char}

theorem exactNumber_paddedDigits (positive : 0 < width) (fits : n < 10 ^ width)
    (rest : List Char) :
    exactNumber width (paddedDigits width n ++ rest) = some (n, rest) := by
  have length := length_paddedDigits positive fits
  have taken := takeDigits_append rest (areDigits_paddedDigits width n)
  rw [length] at taken
  rw [exactNumber, taken]
  dsimp only
  rw [if_pos length, digitsValue_paddedDigits]

theorem trimStartChars_paddedDigits (width n : Nat) (rest : List Char) :
    trimStartChars (paddedDigits width n ++ rest) = paddedDigits width n ++ rest := by
  obtain ⟨first, after, isDigits, digit⟩ := exists_paddedDigits_eq_cons width n
  rw [isDigits, List.cons_append]
  exact trimStartChars_cons_of_visible _ (visible_of_isDigitChar digit)

theorem shortNumber_paddedDigits (positive : 0 < width) (fits : n < 10 ^ width)
    (rest : List Char) :
    shortNumber width (paddedDigits width n ++ rest) = some (n, rest) := by
  have taken := takeDigits_append rest (areDigits_paddedDigits width n)
  rw [length_paddedDigits positive fits] at taken
  rw [shortNumber, trimStartChars_paddedDigits, taken]
  dsimp only
  rw [if_neg (by simpa using paddedDigits_ne_nil), digitsValue_paddedDigits]

theorem exactNumber_pair (fits : n < 100) (rest : List Char) :
    exactNumber 2 (paddedDigits 2 n ++ rest) = some (n, rest) :=
  exactNumber_paddedDigits (by decide) fits rest

theorem shortNumber_pair (fits : n < 100) (rest : List Char) :
    shortNumber 2 (paddedDigits 2 n ++ rest) = some (n, rest) :=
  shortNumber_paddedDigits (by decide) fits rest

theorem longNumber_paddedDigits (width n : Nat) (leaves : LeavesDigits rest) :
    longNumber (paddedDigits width n ++ rest) = some (n, rest) := by
  obtain ⟨taken, left⟩ := takeWhile_append_of_leaves (areDigits_paddedDigits width n) leaves
  rw [longNumber, taken, left, if_neg (by simpa using paddedDigits_ne_nil),
    digitsValue_paddedDigits]

/-- A reader of a number finds none where no digit and no blank comes next. -/
theorem shortNumber_of_other {c : Char} (width : Nat) (after : List Char)
    (other : isDigitChar c = false) (visible : isBlankChar c = false) :
    shortNumber width (c :: after) = none := by
  rw [shortNumber, trimStartChars_cons_of_visible after visible]
  cases width with
  | zero => rfl
  | succ width =>
      rw [takeDigits, if_neg (by rw [other]; exact Bool.false_ne_true)]
      rfl

theorem exactNumber_of_other {c : Char} (width : Nat) (after : List Char)
    (other : isDigitChar c = false) : exactNumber (width + 1) (c :: after) = none := by
  rw [exactNumber, takeDigits, if_neg (by rw [other]; exact Bool.false_ne_true)]
  rfl

theorem mark_cons (expected : Char) (after : List Char) :
    mark expected (expected :: after) = some after := if_pos rfl

theorem mark_of_ne {expected c : Char} (after : List Char) (other : c ≠ expected) :
    mark expected (c :: after) = none := if_neg other

end Readers

/-! ## Fractions -/

/-- A fraction of so many places, with a point in front; nothing for no places. -/
def fractionText (places fraction : Nat) : List Char :=
  if places = 0 then [] else '.' :: paddedDigits places fraction

/-- The whole nanoseconds of a fraction of so many places. -/
def wholeNanos (places fraction : Nat) : Nat := fraction * 1000000000 / 10 ^ places

/-- The value of the first nine digits, filled up with zeros, is in whole nanoseconds. -/
theorem digitsValue_take_nine {digits : List Char}
    (areDigits : ∀ c ∈ digits, isDigitChar c = true) :
    digitsValue (digits.take 9) * 10 ^ (9 - (digits.take 9).length) =
      wholeNanos digits.length (digitsValue digits) := by
  rw [wholeNanos]
  by_cases few : digits.length ≤ 9
  · have parts : 1000000000 = 10 ^ (9 - digits.length) * 10 ^ digits.length := by
      rw [← Nat.pow_add, Nat.sub_add_cancel few]
    rw [List.take_of_length_le few, parts, ← Nat.mul_assoc,
      Nat.mul_div_cancel _ (Nat.pow_pos (by decide))]
  · have kept : (digits.take 9).length = 9 := by
      rw [List.length_take]
      omega
    have dropped : (digits.drop 9).length = digits.length - 9 := List.length_drop
    have rest : digitsValue (digits.drop 9) < 10 ^ (digits.length - 9) := by
      rw [← dropped]
      exact digitsValue_lt fun c member => areDigits c (List.mem_of_mem_drop member)
    have parts : 10 ^ digits.length = 10 ^ (digits.length - 9) * 1000000000 := by
      rw [show (1000000000 : Nat) = 10 ^ 9 from rfl, ← Nat.pow_add, Nat.sub_add_cancel (by omega)]
    have value := digitsValue_append (digits.take 9) (digits.drop 9)
    rw [List.take_append_drop, dropped] at value
    rw [kept, Nat.sub_self, Nat.pow_zero, Nat.mul_one, value, parts,
      Nat.mul_div_mul_right _ _ (by decide), Nat.mul_add_div (Nat.pow_pos (by decide)),
      Nat.div_eq_of_lt rest, Nat.add_zero]

theorem fraction_fractionText {places n : Nat} {rest : List Char} (fits : n < 10 ^ places)
    (leaves : LeavesDigits rest) (noPoint : ∀ after, rest ≠ '.' :: after) :
    fraction (fractionText places n ++ rest) = some (wholeNanos places n, rest) := by
  rw [fractionText]
  split
  · rename_i nothing
    subst nothing
    have isZero : n = 0 := Nat.lt_one_iff.mp fits
    subst isZero
    rw [List.nil_append, fraction]
    · rfl
    · exact fun after same => noPoint after same
  · rename_i something
    have areDigits := areDigits_paddedDigits places n
    obtain ⟨taken, left⟩ := takeWhile_append_of_leaves areDigits leaves
    have nanos := digitsValue_take_nine areDigits
    rw [length_paddedDigits (Nat.pos_of_ne_zero something) fits, digitsValue_paddedDigits] at nanos
    rw [List.cons_append, fraction, taken, left, if_neg (by simpa using paddedDigits_ne_nil)]
    dsimp only
    rw [← nanos]
    rfl

/-! ## Years -/

/-- A year is read back, whether it has four digits or a sign. -/
theorem readYear_yearDigits {rest : List Char} (year : Int) (leaves : LeavesDigits rest) :
    readYear (yearDigits year ++ rest) = some (year, rest) := by
  rw [yearDigits]
  split
  · rename_i fourDigits
    rw [Bool.and_eq_true, decide_eq_true_eq, decide_eq_true_eq] at fourDigits
    obtain ⟨first, after, isDigits, digit⟩ := exists_paddedDigits_eq_cons 4 year.toNat
    have unsigned {sign : Char} {later : List Char} (other : isDigitChar sign = false) :
        paddedDigits 4 year.toNat ++ rest ≠ sign :: later := by
      intro same
      rw [isDigits, List.cons_append] at same
      obtain ⟨rfl, -⟩ := List.cons.inj same
      rw [digit] at other
      cases other
    rw [readYear, trimStartChars_paddedDigits]
    split
    · rename_i later same
      exact absurd same (unsigned (by decide))
    · rename_i later same
      exact absurd same (unsigned (by decide))
    · rw [shortNumber_paddedDigits (by decide) (show year.toNat < 10 ^ 4 by omega), Option.map_some]
      dsimp only
      rw [Int.toNat_of_nonneg fourDigits.1]
  · rename_i outside
    have isLong := longNumber_paddedDigits 4 year.natAbs leaves
    by_cases negative : year < 0
    · rw [if_pos negative, List.cons_append, readYear,
        trimStartChars_cons_of_visible _ (show isBlankChar '-' = false by decide)]
      change (longNumber (paddedDigits 4 year.natAbs ++ rest)).map _ = _
      rw [isLong, Option.map_some]
      dsimp only
      rw [Int.ofNat_natAbs_of_nonpos (Int.le_of_lt negative), Int.neg_neg]
    · rw [if_neg negative, List.cons_append, readYear,
        trimStartChars_cons_of_visible _ (show isBlankChar '+' = false by decide)]
      change (longNumber (paddedDigits 4 year.natAbs ++ rest)).map _ = _
      rw [isLong, Option.map_some]
      dsimp only
      rw [Int.natAbs_of_nonneg (Int.not_lt.mp negative)]

end DualStore.Time
