import DualStore.Proofs.Json.QuotedPiece

/-!
Contract: a number in a text that ends early.

Owns:
- the reader finds a shorter number in what is there of a number, or misses its end;
- where the number is an integer, the shorter one is an integer between it and zero.

Does not own: what a reader of values makes of the shorter number.
-/

namespace DualStore.Json

open DualStore.Number

section Pieces

variable {piece lost : List UInt8}

/-! ## The forms of a piece -/

theorem DigitRun.of_append (run : DigitRun (piece ++ lost)) (isSome : piece ≠ []) :
    DigitRun piece :=
  ⟨isSome, fun d member => run.allDigits d (List.mem_append_left _ member)⟩

theorem WholeForm.of_append (form : WholeForm (piece ++ lost)) (isSome : piece ≠ []) :
    WholeForm piece := by
  cases piece with
  | nil => exact absurd rfl isSome
  | cons d piece =>
      generalize isWhole : d :: piece ++ lost = whole at form
      cases form with
      | zero =>
          obtain ⟨rfl, nothing⟩ := List.cons.inj isWhole
          rw [(List.append_eq_nil_iff.mp nothing).1]
          exact .zero
      | digits run notZero =>
          obtain ⟨rfl, rfl⟩ := List.cons.inj isWhole
          exact .digits (DigitRun.of_append run isSome) notZero

/-- A fraction is cut off behind its point or behind one of its digits. -/
theorem FractionForm.cases_of_append {fraction : List UInt8}
    (form : FractionForm (piece ++ lost) fraction) :
    piece = [0x2E] ∨ ∃ digits, FractionForm piece digits := by
  rcases piece with _ | ⟨p, _ | ⟨d, digits⟩⟩
  · exact Or.inr ⟨[], .absent⟩
  · cases form with
    | point _ => exact Or.inl rfl
  · cases form with
    | point run => exact Or.inr ⟨_, .point (DigitRun.of_append run (List.cons_ne_nil d digits))⟩

/-- What stands in front of the digits of an exponent. -/
inductive ExponentLead : List UInt8 → Prop where
  | bare {e : UInt8} : e = 0x65 ∨ e = 0x45 → ExponentLead [e]
  | plus {e : UInt8} : e = 0x65 ∨ e = 0x45 → ExponentLead [e, 0x2B]
  | minus {e : UInt8} : e = 0x65 ∨ e = 0x45 → ExponentLead [e, 0x2D]

theorem ExponentLead.head (lead : ExponentLead piece) :
    ∃ e sign, piece = e :: sign ∧ (e = 0x65 ∨ e = 0x45) := by
  cases lead with
  | bare isExponent => exact ⟨_, _, rfl, isExponent⟩
  | plus isExponent => exact ⟨_, _, rfl, isExponent⟩
  | minus isExponent => exact ⟨_, _, rfl, isExponent⟩

theorem ExponentLead.readExponent (lead : ExponentLead piece) :
    readExponent piece = .error ⟨.unfinishedValue, []⟩ := by
  cases lead with
  | bare isExponent => simp [Json.readExponent, isExponent]
  | plus isExponent => simp [Json.readExponent, isExponent]
  | minus isExponent => simp [Json.readExponent, isExponent]

/-- An exponent is cut off in front of its digits or behind one of them. -/
theorem ExponentForm.cases_of_append {exponent : Option (Bool × List UInt8)}
    (form : ExponentForm (piece ++ lost) exponent) :
    ExponentLead piece ∨ ∃ shorter, ExponentForm piece shorter := by
  generalize isTail : piece ++ lost = tail at form
  rcases piece with _ | ⟨e, sign⟩
  · exact Or.inr ⟨none, .absent⟩
  cases form with
  | absent => cases isTail
  | bare isExponent run =>
      cases isTail
      cases sign with
      | nil => exact Or.inl (.bare isExponent)
      | cons d digits =>
          exact Or.inr ⟨_, .bare isExponent (DigitRun.of_append run (List.cons_ne_nil d digits))⟩
  | plus isExponent run =>
      rcases sign with _ | ⟨s, _ | ⟨d, digits⟩⟩
      · cases isTail
        exact Or.inl (.bare isExponent)
      · cases isTail
        exact Or.inl (.plus isExponent)
      · cases isTail
        exact Or.inr ⟨_, .plus isExponent (DigitRun.of_append run (List.cons_ne_nil d digits))⟩
  | minus isExponent run =>
      rcases sign with _ | ⟨s, _ | ⟨d, digits⟩⟩
      · cases isTail
        exact Or.inl (.bare isExponent)
      · cases isTail
        exact Or.inl (.minus isExponent)
      · cases isTail
        exact Or.inr ⟨_, .minus isExponent (DigitRun.of_append run (List.cons_ne_nil d digits))⟩

/-! ## Integers -/

/-- An integer lies between zero and another one. -/
def TowardsZero (shorter n : Int) : Prop := 0 ≤ shorter ∧ shorter ≤ n ∨ n ≤ shorter ∧ shorter ≤ 0

theorem TowardsZero.fits {largest : Nat} {shorter n : Int} (towards : TowardsZero shorter n)
    (inRange : fits largest n = true) : fits largest shorter = true := by
  rw [Number.fits_iff] at inRange ⊢
  rcases towards with ⟨_, _⟩ | ⟨_, _⟩ <;> omega

theorem le_of_gather {first value dropped : Nat} {digits : List UInt8}
    (gathered : gather first digits = (value, dropped)) : first ≤ value := by
  induction digits generalizing first with
  | nil =>
      cases gathered
      exact Nat.le_refl _
  | cons d digits inductionHypothesis =>
      rw [gather] at gathered
      by_cases small : first * 10 + digitOf d ≤ largestSignificand
      · simp only [if_pos small] at gathered
        have grown := inductionHypothesis gathered
        omega
      · simp only [if_neg small] at gathered
        cases gathered
        exact Nat.le_refl _

/-- Fewer digits make a smaller number. -/
theorem gather_of_append {first value : Nat}
    (gathered : gather first (piece ++ lost) = (value, 0)) :
    ∃ shorter, gather first piece = (shorter, 0) ∧ shorter ≤ value := by
  induction piece generalizing first with
  | nil => exact ⟨first, rfl, le_of_gather gathered⟩
  | cons d piece inductionHypothesis =>
      rw [List.cons_append, gather] at gathered
      rw [gather]
      by_cases small : first * 10 + digitOf d ≤ largestSignificand
      · simp only [if_pos small] at gathered ⊢
        exact inductionHypothesis gathered
      · simp [small] at gathered

theorem digitOf_pos {d : UInt8} (digit : isDigit d = true) (notZero : d ≠ 0x30) :
    0 < digitOf d := by
  have all : ∀ d : UInt8, isDigit d = true → d ≠ 0x30 → 0 < digitOf d :=
    Text.Utf8.forall_byte (by decide +kernel)
  exact all d digit notZero

/-- What is there of the digits of a positive number is positive. -/
theorem gather_pos {value shorter : Nat} (form : WholeForm (piece ++ lost)) (isSome : piece ≠ [])
    (gathered : gather 0 (piece ++ lost) = (value, 0)) (cut : gather 0 piece = (shorter, 0))
    (positive : 0 < value) : 0 < shorter := by
  cases piece with
  | nil => exact absurd rfl isSome
  | cons d piece =>
      generalize isWhole : d :: piece ++ lost = whole at form gathered
      cases form with
      | zero =>
          cases gathered
          cases positive
      | digits run notZero =>
          obtain ⟨rfl, rfl⟩ := List.cons.inj isWhole
          have first := digitOf_pos (run.allDigits d List.mem_cons_self) notZero
          rw [gather] at cut
          by_cases small : 0 * 10 + digitOf d ≤ largestSignificand
          · simp only [if_pos small] at cut
            have grown := le_of_gather cut
            omega
          · simp only [if_neg small] at cut
            cases cut

/-- The integer that plain digits make up. -/
def Signed (negative : Bool) (magnitude : Nat) (n : Int) : Prop :=
  negative = false ∧ n = magnitude ∨
    negative = true ∧ 0 < magnitude ∧ magnitude ≤ largestInt64 + 1 ∧ n = -(magnitude : Int)

theorem value?_of_signed {numeral : Numeral} {magnitude : Nat} {n : Int}
    (gathered : gather 0 numeral.whole = (magnitude, 0)) (plain : numeral.isPlain = true)
    (signed : Signed numeral.negative magnitude n) : numeral.value? = some (.whole n) := by
  rw [Numeral.value?, gathered]
  rcases signed with ⟨positive, rfl⟩ | ⟨negative, isSome, inRange, rfl⟩
  · simp [plain, positive]
  · have small : (decide (0 < magnitude) && decide (magnitude ≤ largestInt64 + 1)) = true := by
      simp [isSome, inRange]
    simp [plain, negative, small]

theorem signed_of_value? {numeral : Numeral} {n : Int}
    (isWhole : numeral.value? = some (.whole n)) :
    ∃ magnitude, gather 0 numeral.whole = (magnitude, 0) ∧ numeral.isPlain = true ∧
      Signed numeral.negative magnitude n := by
  have noDouble : ∀ x : Option Double, x.map Value.double ≠ some (.whole n) := by
    intro x same
    obtain ⟨_, _, same⟩ := Option.map_eq_some_iff.mp same
    cases same
  rcases gathered : gather 0 numeral.whole with ⟨magnitude, dropped⟩
  rw [Numeral.value?, gathered] at isWhole
  simp only at isWhole
  split at isWhole
  · rename_i exact
    obtain ⟨plain, rfl⟩ : _ ∧ _ := by simpa using exact
    refine ⟨magnitude, rfl, plain, ?_⟩
    split at isWhole
    · rename_i positive
      cases isWhole
      exact Or.inl ⟨by simpa using positive, rfl⟩
    · rename_i negative
      split at isWhole
      · rename_i small
        obtain ⟨isSome, inRange⟩ : _ ∧ _ := by simpa using small
        cases isWhole
        exact Or.inr ⟨by simpa using negative, isSome, inRange, rfl⟩
      · exact absurd isWhole (noDouble _)
  · exact absurd isWhole (noDouble _)

/-- If a number is an integer, what is found in its place is an integer between it and zero. -/
def Shortens (full found : Option Value) : Prop :=
  ∀ n, full = some (.whole n) → ∃ m, found = some (.whole m) ∧ TowardsZero m n

theorem shortens_of_not_plain {full found : Numeral} (other : full.isPlain = false) :
    Shortens full.value? found.value? := by
  intro n isWhole
  obtain ⟨_, _, plain, _⟩ := signed_of_value? isWhole
  rw [other] at plain
  cases plain

theorem shortens_whole {negative : Bool} {fraction : List UInt8}
    {exponent : Option (Bool × List UInt8)} (form : WholeForm (piece ++ lost))
    (isSome : piece ≠ []) :
    Shortens (Numeral.value? ⟨negative, piece ++ lost, fraction, exponent⟩)
      (Numeral.value? ⟨negative, piece, [], none⟩) := by
  intro n isWhole
  obtain ⟨magnitude, gathered, _, signed⟩ := signed_of_value? isWhole
  obtain ⟨shorter, cut, smaller⟩ := gather_of_append gathered
  rcases signed with ⟨positive, rfl⟩ | ⟨negative, positive, inRange, rfl⟩
  · exact ⟨shorter, value?_of_signed cut rfl (Or.inl ⟨positive, rfl⟩), Or.inl (by omega)⟩
  · have isPositive := gather_pos form isSome gathered cut positive
    exact ⟨-shorter, value?_of_signed cut rfl (Or.inr ⟨negative, isPositive, by omega, rfl⟩),
      Or.inr (by omega)⟩

/-! ## The reader -/

/-- The reader of a number behind its sign. -/
def readUnsigned (negative : Bool) (digits : List UInt8) : Except Stop (Numeral × List UInt8) :=
  match readWhole digits with
  | .error stop => .error stop
  | .ok (whole, rest) =>
      match readFraction rest with
      | .error stop => .error stop
      | .ok (fraction, rest) =>
          match readExponent rest with
          | .error stop => .error stop
          | .ok (exponent, rest) => .ok (⟨negative, whole, fraction, exponent⟩, rest)

theorem readNumeral_minus (rest : List UInt8) :
    readNumeral (0x2D :: rest) = readUnsigned true rest := rfl

theorem readNumeral_plain {b : UInt8} (notMinus : b ≠ 0x2D) (rest : List UInt8) :
    readNumeral (b :: rest) = readUnsigned false (b :: rest) := by
  have unsigned : (if b = 0x2D then (true, rest) else (false, b :: rest)) = (false, b :: rest) :=
    if_neg notMinus
  show readUnsigned (if b = 0x2D then (true, rest) else (false, b :: rest)).1
    (if b = 0x2D then (true, rest) else (false, b :: rest)).2 = _
  rw [unsigned]

section Parts

variable {whole point tail fraction : List UInt8} {exponent : Option (Bool × List UInt8)}
  (negative : Bool) (wholeForm : WholeForm whole)
include wholeForm

theorem readUnsigned_of_form (fractionForm : FractionForm point fraction)
    (exponentForm : ExponentForm tail exponent) :
    readUnsigned negative (whole ++ (point ++ tail)) =
      .ok (⟨negative, whole, fraction, exponent⟩, []) := by
  have leaves : LeavesNumber [] := fun _ _ same => nomatch same
  obtain ⟨readsWhole, readsFraction, readsExponent⟩ :=
    readParts_of_form wholeForm fractionForm exponentForm leaves
  rw [List.append_nil] at readsWhole readsFraction readsExponent
  rw [readUnsigned, readsWhole]
  simp only [readsFraction, readsExponent]

theorem readUnsigned_point :
    readUnsigned negative (whole ++ [0x2E]) = .error ⟨.unfinishedValue, []⟩ := by
  have readsWhole : readWhole (whole ++ [0x2E]) = .ok (whole, [0x2E]) := by
    apply readWhole_of_form wholeForm
    intro b after same
    cases same
    rfl
  rw [readUnsigned, readsWhole]
  rfl

theorem readUnsigned_lead (fractionForm : FractionForm point fraction) {lead : List UInt8}
    (isLead : ExponentLead lead) :
    readUnsigned negative (whole ++ (point ++ lead)) = .error ⟨.unfinishedValue, []⟩ := by
  have readsFraction : readFraction (point ++ lead) = .ok (fraction, lead) :=
    readFraction_of_form fractionForm (Or.inr isLead.head)
  have readsWhole : readWhole (whole ++ (point ++ lead)) = .ok (whole, point ++ lead) := by
    apply readWhole_of_form wholeForm
    intro b after same
    cases fractionForm with
    | point _ =>
        cases same
        rfl
    | absent =>
        obtain ⟨e, sign, rfl, isExponent⟩ := isLead.head
        cases same
        rcases isExponent with rfl | rfl <;> rfl
  rw [readUnsigned, readsWhole]
  simp only [readsFraction, isLead.readExponent]

end Parts

/-- A piece of a number behind its sign is a shorter number, or its reader misses the end. -/
theorem readUnsigned_cases {whole point tail fraction : List UInt8}
    {exponent : Option (Bool × List UInt8)} (negative : Bool) (wholeForm : WholeForm whole)
    (fractionForm : FractionForm point fraction) (exponentForm : ExponentForm tail exponent)
    (same : whole ++ (point ++ tail) = piece ++ lost) (isCut : lost ≠ []) :
    readUnsigned negative piece = .error ⟨.unfinishedValue, []⟩ ∨
      ∃ shorter, readUnsigned negative piece = .ok (shorter, []) ∧
        Shortens (Numeral.value? ⟨negative, whole, fraction, exponent⟩) shorter.value? := by
  rcases append_eq_append_cases same with ⟨behind, rfl, isBehind⟩ | ⟨digits, _, rfl⟩
  · rcases append_eq_append_cases isBehind with ⟨behind, rfl, rfl⟩ | ⟨digits, more, rfl⟩
    · have notPlain : Numeral.isPlain ⟨negative, whole, fraction, exponent⟩ = false := by
        generalize isTail : behind ++ lost = tail at exponentForm
        cases exponentForm with
        | absent => exact absurd (List.append_eq_nil_iff.mp isTail).2 isCut
        | _ => exact Bool.and_false _
      rcases exponentForm.cases_of_append with lead | ⟨_, shorter⟩
      · exact Or.inl (readUnsigned_lead negative wholeForm fractionForm lead)
      · exact Or.inr ⟨_, readUnsigned_of_form negative wholeForm fractionForm shorter,
          shortens_of_not_plain notPlain⟩
    · have notPlain : Numeral.isPlain ⟨negative, whole, fraction, exponent⟩ = false := by
        generalize isPoint : behind ++ digits = point at fractionForm
        cases fractionForm with
        | absent => exact absurd (List.append_eq_nil_iff.mp isPoint).2 more
        | point run =>
            obtain ⟨d, after, rfl, _⟩ := run.head
            rfl
      rcases fractionForm.cases_of_append with rfl | ⟨_, shorter⟩
      · exact Or.inl (readUnsigned_point negative wholeForm)
      · have reads := readUnsigned_of_form negative wholeForm shorter .absent
        rw [List.append_nil] at reads
        exact Or.inr ⟨_, reads, shortens_of_not_plain notPlain⟩
  · by_cases isSome : piece = []
    · subst isSome
      exact Or.inl rfl
    · have reads := readUnsigned_of_form negative (wholeForm.of_append isSome) .absent .absent
      rw [List.append_nil, List.append_nil] at reads
      exact Or.inr ⟨_, reads, shortens_whole wholeForm isSome⟩

/-- A piece of a number is a shorter number, or its reader misses the end. -/
theorem NumeralForm.cases_of_append {numeral : Numeral}
    (form : NumeralForm (piece ++ lost) numeral) (isSome : piece ≠ []) (isCut : lost ≠ []) :
    readNumeral piece = .error ⟨.unfinishedValue, []⟩ ∨
      ∃ shorter, readNumeral piece = .ok (shorter, []) ∧
        Shortens numeral.value? shorter.value? := by
  cases piece with
  | nil => exact absurd rfl isSome
  | cons b piece =>
      generalize isSpelled : b :: piece ++ lost = spelled at form
      cases form with
      | plain wholeForm fractionForm exponentForm =>
          have notMinus : b ≠ 0x2D := by
            rintro rfl
            cases wholeForm with
            | zero => cases (List.cons.inj isSpelled).1
            | digits run _ =>
                have isDigit := run.allDigits _ List.mem_cons_self
                rw [← (List.cons.inj isSpelled).1] at isDigit
                cases isDigit
          rw [readNumeral_plain notMinus]
          exact readUnsigned_cases false wholeForm fractionForm exponentForm isSpelled.symm isCut
      | minus wholeForm fractionForm exponentForm =>
          obtain ⟨rfl, behind⟩ := List.cons.inj isSpelled
          rw [readNumeral_minus]
          exact readUnsigned_cases true wholeForm fractionForm exponentForm behind.symm isCut

end Pieces

end DualStore.Json
