import DualStore.Json.Lexeme

/-!
Contract: the grammar of numbers, and the reader that follows it.

Owns:
- the forms of the parts of a number: whole digits without a zero in front, a fraction and an
  exponent with a digit each;
- the reader takes the longest number that the bytes begin with, so it accepts a number wherever
  the next byte cannot go on with it.

Does not own: the value of a number.
-/

namespace DualStore.Json

/-! ## The grammar -/

/-- One digit or more. -/
structure DigitRun (digits : List UInt8) : Prop where
  nonempty : digits ≠ []
  allDigits : ∀ d ∈ digits, isDigit d = true

/-- A zero alone, or digits that do not begin with one. -/
inductive WholeForm : List UInt8 → Prop where
  | zero : WholeForm [0x30]
  | digits {d : UInt8} {ds : List UInt8} : DigitRun (d :: ds) → d ≠ 0x30 → WholeForm (d :: ds)

/-- The bytes of a fraction, and its digits. -/
inductive FractionForm : List UInt8 → List UInt8 → Prop where
  | absent : FractionForm [] []
  | point {ds : List UInt8} : DigitRun ds → FractionForm (0x2E :: ds) ds

/-- The bytes of an exponent, whether it is negative, and its digits. -/
inductive ExponentForm : List UInt8 → Option (Bool × List UInt8) → Prop where
  | absent : ExponentForm [] none
  | bare {e : UInt8} {ds : List UInt8} : e = 0x65 ∨ e = 0x45 → DigitRun ds →
      ExponentForm (e :: ds) (some (false, ds))
  | plus {e : UInt8} {ds : List UInt8} : e = 0x65 ∨ e = 0x45 → DigitRun ds →
      ExponentForm (e :: 0x2B :: ds) (some (false, ds))
  | minus {e : UInt8} {ds : List UInt8} : e = 0x65 ∨ e = 0x45 → DigitRun ds →
      ExponentForm (e :: 0x2D :: ds) (some (true, ds))

/-- The bytes of a number, and its parts. -/
inductive NumeralForm : List UInt8 → Numeral → Prop where
  | plain {whole point tail fraction : List UInt8} {exponent : Option (Bool × List UInt8)} :
      WholeForm whole → FractionForm point fraction → ExponentForm tail exponent →
      NumeralForm (whole ++ (point ++ tail)) ⟨false, whole, fraction, exponent⟩
  | minus {whole point tail fraction : List UInt8} {exponent : Option (Bool × List UInt8)} :
      WholeForm whole → FractionForm point fraction → ExponentForm tail exponent →
      NumeralForm (0x2D :: (whole ++ (point ++ tail))) ⟨true, whole, fraction, exponent⟩

/-- The bytes do not go on with a number: they are at their end, or their first is no digit, no
point and no sign of an exponent. -/
def LeavesNumber (rest : List UInt8) : Prop :=
  ∀ b after, rest = b :: after → isDigit b = false ∧ b ≠ 0x2E ∧ b ≠ 0x65 ∧ b ≠ 0x45

/-! ## Runs of digits -/

theorem spanDigits_append {digits rest : List UInt8} (run : DigitRun digits)
    (ends : ∀ b after, rest = b :: after → isDigit b = false) :
    spanDigits (digits ++ rest) = (digits, rest) := by
  have stops : rest.takeWhile isDigit = [] ∧ rest.dropWhile isDigit = rest := by
    cases rest with
    | nil => exact ⟨rfl, rfl⟩
    | cons b after =>
        have other := ends b after rfl
        simp [other]
  rw [spanDigits, List.takeWhile_append_of_pos run.allDigits,
    List.dropWhile_append_of_pos run.allDigits, stops.1, stops.2, List.append_nil]

theorem digitRun_of_spanDigits {d : UInt8} {after digits rest : List UInt8}
    (first : isDigit d = true) (span : spanDigits (d :: after) = (digits, rest)) :
    d :: after = digits ++ rest ∧ DigitRun digits ∧ ∃ others, digits = d :: others := by
  obtain ⟨rfl, rfl⟩ := Prod.mk.inj span
  have headed : (d :: after).takeWhile isDigit = d :: after.takeWhile isDigit :=
    List.takeWhile_cons_of_pos first
  refine ⟨List.takeWhile_append_dropWhile.symm, ⟨?_, ?_⟩, ⟨_, headed⟩⟩
  · rw [headed]
    exact List.cons_ne_nil _ _
  · intro digit member
    exact List.all_eq_true.mp List.all_takeWhile digit member

theorem DigitRun.head {digits : List UInt8} (run : DigitRun digits) :
    ∃ d after, digits = d :: after ∧ isDigit d = true := by
  cases digits with
  | nil => exact absurd rfl run.nonempty
  | cons d after => exact ⟨d, after, rfl, run.allDigits d List.mem_cons_self⟩

/-! ## The reader accepts the grammar -/

theorem readWhole_of_form {whole rest : List UInt8} (form : WholeForm whole)
    (ends : ∀ b after, rest = b :: after → isDigit b = false) :
    readWhole (whole ++ rest) = .ok (whole, rest) := by
  cases form with
  | zero =>
      cases rest with
      | nil => rfl
      | cons b after =>
          have other := ends b after rfl
          simp [readWhole, other]
  | @digits d ds run notZero =>
      have isFirst := run.allDigits d List.mem_cons_self
      have span := spanDigits_append run ends
      rw [List.cons_append] at span ⊢
      simp [readWhole, notZero, isFirst, span]

theorem readFraction_of_form {point fraction rest : List UInt8} (form : FractionForm point fraction)
    (leaves : LeavesNumber rest ∨ ∃ e after, rest = e :: after ∧ (e = 0x65 ∨ e = 0x45)) :
    readFraction (point ++ rest) = .ok (fraction, rest) := by
  have ends : ∀ b after, rest = b :: after → isDigit b = false ∧ b ≠ 0x2E := by
    rintro b after rfl
    rcases leaves with leaves | ⟨e, later, same, isExponent⟩
    · exact ⟨(leaves b after rfl).1, (leaves b after rfl).2.1⟩
    · cases same
      rcases isExponent with rfl | rfl <;> decide
  cases form with
  | absent =>
      cases rest with
      | nil => rfl
      | cons b after =>
          simp [readFraction, (ends b after rfl).2]
  | point run =>
      obtain ⟨d, after, rfl, isFirst⟩ := run.head
      have span := spanDigits_append run fun b later same => (ends b later same).1
      simp only [List.cons_append] at span ⊢
      simp [readFraction, isFirst, span]

theorem readExponent_of_form {tail rest : List UInt8} {exponent : Option (Bool × List UInt8)}
    (form : ExponentForm tail exponent) (leaves : LeavesNumber rest) :
    readExponent (tail ++ rest) = .ok (exponent, rest) := by
  have ends : ∀ b after, rest = b :: after → isDigit b = false :=
    fun b after same => (leaves b after same).1
  have notSign : ∀ {d : UInt8}, isDigit d = true → d ≠ 0x2B ∧ d ≠ 0x2D := by
    intro d digit
    constructor <;> rintro rfl <;> exact absurd digit (by decide)
  cases form with
  | absent =>
      cases rest with
      | nil => rfl
      | cons b after =>
          obtain ⟨_, _, notSmall, notLarge⟩ := leaves b after rfl
          simp [readExponent, notSmall, notLarge]
  | bare isExponent run =>
      obtain ⟨d, after, rfl, isFirst⟩ := run.head
      have span := spanDigits_append run ends
      simp only [List.cons_append] at span ⊢
      simp [readExponent, isExponent, notSign isFirst, isFirst, span]
  | plus isExponent run =>
      obtain ⟨d, after, rfl, isFirst⟩ := run.head
      have span := spanDigits_append run ends
      simp only [List.cons_append] at span ⊢
      simp [readExponent, isExponent, isFirst, span]
  | minus isExponent run =>
      obtain ⟨d, after, rfl, isFirst⟩ := run.head
      have span := spanDigits_append run ends
      simp only [List.cons_append] at span ⊢
      simp [readExponent, isExponent, isFirst, span]

theorem ExponentForm.head {tail : List UInt8} {exponent : Option (Bool × List UInt8)}
    (form : ExponentForm tail exponent) :
    tail = [] ∨ ∃ e after, tail = e :: after ∧ (e = 0x65 ∨ e = 0x45) := by
  cases form with
  | absent => exact Or.inl rfl
  | bare isExponent _ => exact Or.inr ⟨_, _, rfl, isExponent⟩
  | plus isExponent _ => exact Or.inr ⟨_, _, rfl, isExponent⟩
  | minus isExponent _ => exact Or.inr ⟨_, _, rfl, isExponent⟩

/-- What follows the whole digits of a number is no digit, and what follows its fraction is no
further fraction. -/
theorem readParts_of_form {whole point tail fraction rest : List UInt8}
    {exponent : Option (Bool × List UInt8)} (wholeForm : WholeForm whole)
    (fractionForm : FractionForm point fraction) (exponentForm : ExponentForm tail exponent)
    (leaves : LeavesNumber rest) :
    readWhole (whole ++ (point ++ (tail ++ rest))) = .ok (whole, point ++ (tail ++ rest)) ∧
    readFraction (point ++ (tail ++ rest)) = .ok (fraction, tail ++ rest) ∧
    readExponent (tail ++ rest) = .ok (exponent, rest) := by
  have behindFraction : LeavesNumber (tail ++ rest) ∨
      ∃ e after, tail ++ rest = e :: after ∧ (e = 0x65 ∨ e = 0x45) := by
    rcases exponentForm.head with rfl | ⟨e, after, rfl, isExponent⟩
    · exact Or.inl leaves
    · exact Or.inr ⟨e, after ++ rest, rfl, isExponent⟩
  refine ⟨readWhole_of_form wholeForm ?_, readFraction_of_form fractionForm behindFraction,
    readExponent_of_form exponentForm leaves⟩
  intro b after same
  cases fractionForm with
  | point _ =>
      cases same
      rfl
  | absent =>
      rcases behindFraction with leaves | ⟨e, later, isTail, isExponent⟩
      · exact (leaves b after same).1
      · rw [List.nil_append, isTail] at same
        cases same
        rcases isExponent with rfl | rfl <;> rfl

/-- The reader takes a whole number where the bytes behind it cannot go on with it. -/
theorem readNumeral_of_form {bs rest : List UInt8} {numeral : Numeral}
    (form : NumeralForm bs numeral) (leaves : LeavesNumber rest) :
    readNumeral (bs ++ rest) = .ok (numeral, rest) := by
  cases form with
  | @plain whole point tail fraction exponent wholeForm fractionForm exponentForm =>
      obtain ⟨readsWhole, readsFraction, readsExponent⟩ :=
        readParts_of_form wholeForm fractionForm exponentForm leaves
      rw [List.append_assoc, List.append_assoc]
      have unsigned : ∃ d after, whole ++ (point ++ (tail ++ rest)) = d :: after ∧ d ≠ 0x2D := by
        cases wholeForm with
        | zero => exact ⟨_, _, rfl, by decide⟩
        | digits run _ =>
            refine ⟨_, _, rfl, ?_⟩
            rintro rfl
            exact absurd (run.allDigits _ List.mem_cons_self) (by decide)
      obtain ⟨d, after, split, notMinus⟩ := unsigned
      rw [split] at readsWhole ⊢
      simp [readNumeral, notMinus, readsWhole, readsFraction, readsExponent]
  | minus wholeForm fractionForm exponentForm =>
      obtain ⟨readsWhole, readsFraction, readsExponent⟩ :=
        readParts_of_form wholeForm fractionForm exponentForm leaves
      rw [List.cons_append, List.append_assoc, List.append_assoc]
      simp [readNumeral, readsWhole, readsFraction, readsExponent]

/-! ## The reader accepts nothing else -/

theorem form_of_readWhole {bs whole rest : List UInt8} (read : readWhole bs = .ok (whole, rest)) :
    bs = whole ++ rest ∧ WholeForm whole := by
  unfold readWhole at read
  split at read
  · cases read
  · rename_i d tail
    by_cases zero : d = 0x30
    · rw [if_pos zero] at read
      split at read
      · cases read
        exact ⟨rfl, zero ▸ .zero⟩
      · split at read
        · cases read
        · cases read
          exact ⟨rfl, zero ▸ .zero⟩
    · rw [if_neg zero] at read
      by_cases digit : isDigit d = true
      · rw [if_pos digit] at read
        obtain ⟨split, run, others, rfl⟩ := digitRun_of_spanDigits digit (Except.ok.inj read)
        exact ⟨split, .digits run zero⟩
      · rw [if_neg digit] at read
        cases read

theorem form_of_readFraction {bs fraction rest : List UInt8}
    (read : readFraction bs = .ok (fraction, rest)) :
    ∃ point, bs = point ++ rest ∧ FractionForm point fraction := by
  unfold readFraction at read
  split at read
  · rename_i p tail
    split at read
    · rename_i isPoint
      split at read
      · cases read
      · rename_i d after
        split at read
        · rename_i digit
          obtain ⟨split, run, _⟩ := digitRun_of_spanDigits digit (Except.ok.inj read)
          refine ⟨0x2E :: fraction, ?_, .point run⟩
          rw [isPoint, split]
          rfl
        · cases read
    · cases read
      exact ⟨[], rfl, .absent⟩
  · cases read
    exact ⟨[], rfl, .absent⟩

/-- The digits of an exponent, behind its optional sign. -/
theorem form_of_exponentDigits {e d : UInt8} {after digits rest : List UInt8}
    (isExponent : e = 0x65 ∨ e = 0x45) (digit : isDigit d = true)
    (span : spanDigits (d :: after) = (digits, rest)) :
    (∃ tail, e :: d :: after = tail ++ rest ∧ ExponentForm tail (some (false, digits))) ∧
    (∃ tail, e :: 0x2B :: d :: after = tail ++ rest ∧ ExponentForm tail (some (false, digits))) ∧
    (∃ tail, e :: 0x2D :: d :: after = tail ++ rest ∧ ExponentForm tail (some (true, digits))) := by
  obtain ⟨split, run, _⟩ := digitRun_of_spanDigits digit span
  rw [split]
  exact ⟨⟨e :: digits, rfl, .bare isExponent run⟩, ⟨e :: 0x2B :: digits, rfl, .plus isExponent run⟩,
    ⟨e :: 0x2D :: digits, rfl, .minus isExponent run⟩⟩

theorem form_of_readExponent {bs rest : List UInt8} {exponent : Option (Bool × List UInt8)}
    (read : readExponent bs = .ok (exponent, rest)) :
    ∃ tail, bs = tail ++ rest ∧ ExponentForm tail exponent := by
  unfold readExponent at read
  split at read
  · rename_i e tail
    split at read
    · rename_i begins
      have isExponent : e = 0x65 ∨ e = 0x45 := by simpa using begins
      split at read
      rename_i falling digits signed
      split at read
      · cases read
      · rename_i d after
        split at read
        · rename_i digit
          cases read
          obtain ⟨bare, plus, minus⟩ :=
            form_of_exponentDigits isExponent digit (rfl : spanDigits (d :: after) = _)
          split at signed
          · rename_i s later
            split at signed
            · rename_i isPlus
              cases signed
              rw [isPlus]
              exact plus
            · split at signed
              · rename_i isMinus
                cases signed
                rw [isMinus]
                exact minus
              · cases signed
                exact bare
          · cases signed
        · cases read
    · cases read
      exact ⟨[], rfl, .absent⟩
  · cases read
    exact ⟨[], rfl, .absent⟩

/-- What the reader takes is a number of the grammar. -/
theorem form_of_readNumeral {bs rest : List UInt8} {numeral : Numeral}
    (read : readNumeral bs = .ok (numeral, rest)) :
    ∃ spelled, bs = spelled ++ rest ∧ NumeralForm spelled numeral := by
  unfold readNumeral at read
  split at read
  rename_i negative digits signed
  split at read
  · cases read
  · rename_i whole afterWhole readsWhole
    split at read
    · cases read
    · rename_i fraction afterFraction readsFraction
      split at read
      · cases read
      · rename_i exponent afterExponent readsExponent
        cases read
        obtain ⟨isDigits, wholeForm⟩ := form_of_readWhole readsWhole
        obtain ⟨point, rfl, fractionForm⟩ := form_of_readFraction readsFraction
        obtain ⟨tail, rfl, exponentForm⟩ := form_of_readExponent readsExponent
        have behindSign : digits = whole ++ (point ++ tail) ++ rest := by
          rw [isDigits, List.append_assoc, List.append_assoc]
        split at signed
        · rename_i s later
          split at signed
          · rename_i isMinus
            cases signed
            refine ⟨0x2D :: (whole ++ (point ++ tail)), ?_,
              .minus wholeForm fractionForm exponentForm⟩
            rw [isMinus, behindSign]
            rfl
          · cases signed
            exact ⟨_, behindSign, .plain wholeForm fractionForm exponentForm⟩
        · cases signed
          exact ⟨_, behindSign, .plain wholeForm fractionForm exponentForm⟩

end DualStore.Json
