import DualStore.Proofs.Success
import DualStore.Text.Decimal
import Mathlib.Data.List.Basic

/-!
Contract: the decimal spellings of numbers, and that exactly these are read.

Owns:
- the spellings of a natural number and of an integer: digits, of any length, behind an optional
  sign;
- a number is read exactly from its spellings, if it is within the bounds.

Does not own: why any other text is refused.
-/

namespace DualStore.Text

/-! ## Spellings -/

/-- Digits with their value, perhaps with zeros in front. -/
structure SpellsDigits (cs : List Char) (n : Nat) : Prop where
  nonempty : cs ≠ []
  areDigits : ∀ c ∈ cs, c.isDigit = true
  value : Nat.ofDigitChars 10 cs 0 = n

/-- The spellings of a natural number: digits, alone or behind a plus sign. -/
inductive SpellsNat : List Char → Nat → Prop
  | digits {cs : List Char} {n : Nat} (digits : SpellsDigits cs n) : SpellsNat cs n
  | plus {cs : List Char} {n : Nat} (digits : SpellsDigits cs n) : SpellsNat ('+' :: cs) n

/-- The spellings of an integer: those of a natural number, and digits behind a minus sign. -/
inductive SpellsInt : List Char → Int → Prop
  | natural {cs : List Char} {n : Nat} (natural : SpellsNat cs n) : SpellsInt cs n
  | minus {cs : List Char} {n : Nat} (digits : SpellsDigits cs n) : SpellsInt ('-' :: cs) (-n)

section Spellings

variable {cs : List Char} {n : Nat}

theorem SpellsDigits.isDigit_head {c : Char} (digits : SpellsDigits (c :: cs) n) :
    c.isDigit = true :=
  digits.areDigits c List.mem_cons_self

theorem spellsNat_plus_iff : SpellsNat ('+' :: cs) n ↔ SpellsDigits cs n := by
  constructor
  · intro spells
    cases spells with
    | digits digits => exact absurd digits.isDigit_head (by decide)
    | plus digits => exact digits
  · exact .plus

theorem spellsNat_iff_of_noPlus (noPlus : ∀ rest, cs ≠ '+' :: rest) :
    SpellsNat cs n ↔ SpellsDigits cs n := by
  constructor
  · intro spells
    cases spells with
    | digits digits => exact digits
    | plus digits => exact absurd rfl (noPlus _)
  · exact .digits

theorem spellsInt_minus_iff {n : Int} :
    SpellsInt ('-' :: cs) n ↔ ∃ m : Nat, SpellsDigits cs m ∧ n = -m := by
  constructor
  · intro spells
    cases spells with
    | natural natural =>
        cases natural with
        | digits digits => exact absurd digits.isDigit_head (by decide)
    | minus digits => exact ⟨_, digits, rfl⟩
  · rintro ⟨m, digits, rfl⟩
    exact .minus digits

theorem spellsInt_iff_of_noMinus {n : Int} (noMinus : ∀ rest, cs ≠ '-' :: rest) :
    SpellsInt cs n ↔ ∃ m : Nat, SpellsNat cs m ∧ n = m := by
  constructor
  · intro spells
    cases spells with
    | natural natural => exact ⟨_, natural, rfl⟩
    | minus digits => exact absurd rfl (noMinus _)
  · rintro ⟨m, natural, rfl⟩
    exact .natural natural

end Spellings

/-! ## Reading -/

theorem digitValue?_eq (c : Char) :
    digitValue? c = if c.isDigit = true then some (c.toNat - 0x30) else none := by
  have isDigit : c.isDigit = true ↔ 0x30 ≤ c.toNat ∧ c.toNat ≤ 0x39 := by
    simp [Char.isDigit, UInt32.le_iff_toNat_le]
  simp only [digitValue?, isDigit, Bool.and_eq_true, decide_eq_true_eq]

theorem le_ofDigitChars (cs : List Char) (value : Nat) :
    value ≤ Nat.ofDigitChars 10 cs value := by
  induction cs generalizing value with
  | nil => exact Nat.le_refl value
  | cons c cs inductionHypothesis =>
      have grown := inductionHypothesis (10 * value + (c.toNat - '0'.toNat))
      rw [Nat.ofDigitChars_cons]
      omega

section Reading

variable {limit n : Nat} {beyond : IntegerFault} {cs : List Char}

/-- The value of digits only grows from one to the next, so that the limit may be checked at each of
them. -/
theorem readMagnitude_eq_ok_iff {value : Nat} (fits : value ≤ limit) :
    readMagnitude limit beyond value cs = .ok n ↔
      (∀ c ∈ cs, c.isDigit = true) ∧ Nat.ofDigitChars 10 cs value = n ∧ n ≤ limit := by
  induction cs generalizing value with
  | nil =>
      simp only [readMagnitude, Except.ok.injEq, Nat.ofDigitChars_nil]
      constructor
      · rintro rfl
        exact ⟨by simp, rfl, fits⟩
      · exact fun read => read.2.1
  | cons c cs inductionHypothesis =>
      rw [readMagnitude, digitValue?_eq]
      by_cases digit : c.isDigit = true
      · have next : 10 * value + (c.toNat - '0'.toNat) = value * 10 + (c.toNat - 0x30) := by
          rw [Nat.mul_comm]
          rfl
        rw [if_pos digit, Nat.ofDigitChars_cons, next]
        dsimp only
        by_cases stays : value * 10 + (c.toNat - 0x30) ≤ limit
        · rw [if_pos stays, inductionHypothesis stays]
          simp [digit]
        · have grown := le_ofDigitChars cs (value * 10 + (c.toNat - 0x30))
          rw [if_neg stays]
          simp only [reduceCtorEq, false_iff]
          rintro ⟨-, rfl, within⟩
          exact stays (Nat.le_trans grown within)
      · simp [digit]

theorem readMagnitude_digits (nonempty : cs ≠ []) :
    readMagnitude limit beyond 0 cs = .ok n ↔ SpellsDigits cs n ∧ n ≤ limit := by
  rw [readMagnitude_eq_ok_iff (Nat.zero_le limit)]
  constructor
  · rintro ⟨areDigits, value, within⟩
    exact ⟨⟨nonempty, areDigits, value⟩, within⟩
  · rintro ⟨digits, within⟩
    exact ⟨digits.areDigits, digits.value, within⟩

/-- A natural number is read exactly from its spellings up to the limit. -/
theorem readNat_eq_ok_iff {text : String} :
    readNat limit text = .ok n ↔ SpellsNat text.toList n ∧ n ≤ limit := by
  have noDigits : ¬SpellsDigits [] n := fun digits => digits.nonempty rfl
  unfold readNat
  split
  · rename_i isEmpty
    rw [isEmpty, spellsNat_iff_of_noPlus (by simp)]
    simp [noDigits]
  · rename_i isPlus
    rw [isPlus, spellsNat_plus_iff]
    simp [noDigits]
  · rename_i isMinus
    have noDigit : ¬SpellsDigits ['-'] n := fun digits => absurd digits.isDigit_head (by decide)
    rw [isMinus, spellsNat_iff_of_noPlus (by simp)]
    simp [noDigit]
  · rename_i cs notAlone isPlus
    rw [isPlus, spellsNat_plus_iff]
    exact readMagnitude_digits notAlone
  · rename_i notEmpty _ _ noPlus
    rw [spellsNat_iff_of_noPlus noPlus]
    exact readMagnitude_digits notEmpty

theorem map_readMagnitude_digits {sign : Nat → Int} {n : Int} (nonempty : cs ≠ []) :
    (readMagnitude limit beyond 0 cs).map sign = .ok n ↔
      ∃ m, SpellsDigits cs m ∧ m ≤ limit ∧ sign m = n := by
  simp only [map_eq_ok_iff, readMagnitude_digits nonempty, and_assoc]

/-- What is not behind a minus sign cannot be too small. -/
theorem map_ofNat_readMagnitude_digits {low : Nat} {n : Int} (nonempty : cs ≠ []) :
    (readMagnitude limit beyond 0 cs).map Int.ofNat = .ok n ↔
      (∃ m : Nat, SpellsDigits cs m ∧ n = m) ∧ -(low : Int) ≤ n ∧ n ≤ limit := by
  rw [map_readMagnitude_digits nonempty]
  constructor
  · rintro ⟨m, digits, within, isSigned⟩
    have isNumber : n = m := isSigned.symm
    exact ⟨⟨m, digits, isNumber⟩, by omega, by omega⟩
  · rintro ⟨⟨m, digits, isNumber⟩, -, within⟩
    exact ⟨m, digits, by omega, isNumber.symm⟩

/-- An integer is read exactly from its spellings within the bounds. -/
theorem readInt_eq_ok_iff {low high : Nat} {text : String} {n : Int} :
    readInt low high text = .ok n ↔ SpellsInt text.toList n ∧ -(low : Int) ≤ n ∧ n ≤ high := by
  have noDigits (m : Nat) : ¬SpellsDigits [] m := fun digits => digits.nonempty rfl
  unfold readInt
  split
  · rename_i isEmpty
    rw [isEmpty, spellsInt_iff_of_noMinus (by simp)]
    simp [spellsNat_iff_of_noPlus, noDigits]
  · rename_i isPlus
    rw [isPlus, spellsInt_iff_of_noMinus (by simp)]
    simp [spellsNat_plus_iff, noDigits]
  · rename_i isMinus
    rw [isMinus, spellsInt_minus_iff]
    simp [noDigits]
  · rename_i cs notAlone isPlus
    rw [isPlus, spellsInt_iff_of_noMinus (by simp)]
    simp only [spellsNat_plus_iff]
    exact map_ofNat_readMagnitude_digits notAlone
  · rename_i cs notAlone isMinus
    rw [isMinus, spellsInt_minus_iff, map_readMagnitude_digits notAlone]
    constructor
    · rintro ⟨m, digits, within, isSigned⟩
      have isNumber : n = -m := isSigned.symm
      exact ⟨⟨m, digits, isNumber⟩, by omega, by omega⟩
    · rintro ⟨⟨m, digits, isNumber⟩, within, -⟩
      exact ⟨m, digits, by omega, isNumber.symm⟩
  · rename_i notEmpty _ _ noPlus noMinus
    rw [spellsInt_iff_of_noMinus noMinus]
    simp only [spellsNat_iff_of_noPlus noPlus]
    exact map_ofNat_readMagnitude_digits notEmpty

end Reading

end DualStore.Text
