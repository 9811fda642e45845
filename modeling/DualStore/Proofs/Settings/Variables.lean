import DualStore.Proofs.Delivery.Retrying
import DualStore.Proofs.Text.Blank
import DualStore.Proofs.Text.Decimal
import DualStore.Settings

/-!
Contract: what variables give, and that the numbers which have to be right are read exactly so.

Owns:
- variables that are left out, and what the others state between blanks;
- the value that a variable gives, and the variables that state something else;
- the spellings of worker counts, of hours and of attempts;
- each of these numbers is read exactly if a variable gives it;
- what a variable states is all that a number or a switch depends on.

Does not own: the settings that several variables make together.
-/

namespace DualStore

open DualStore.Number DualStore.Text DualStore.Time

/-! ## What a variable states -/

namespace Lookup

/-- A variable that is unset or blank. -/
def LeavesOut (lookup : Lookup) (key : String) : Prop :=
  ∀ value, lookup key = some value → isBlank value = true

/-- What a variable that is not blank holds between the blanks around it. -/
def States (lookup : Lookup) (key text : String) : Prop :=
  ∃ value, lookup key = some value ∧ isBlank value = false ∧ trim value = text

/-- The value that a variable gives: one that it spells, or the default where it is left out. -/
inductive Gives {α : Type} (lookup : Lookup) (key : String) (default : α)
    (spells : String → α → Prop) : α → Prop
  | default (leftOut : lookup.LeavesOut key) : Gives lookup key default spells default
  | spelled {text : String} {value : α} (states : lookup.States key text)
      (spelled : spells text value) : Gives lookup key default spells value

/-- A variable that is not blank and spells no value. -/
def Misstates {α : Type} (lookup : Lookup) (key : String) (spells : String → α → Prop) : Prop :=
  ∃ text, lookup.States key text ∧ ∀ value, ¬spells text value

/-- What a variable states, if it is not left out. -/
def text? (lookup : Lookup) (key : String) : Option String :=
  (lookup.value? key).map trim

section Stating

variable {α : Type} {lookup other : Lookup} {key : String}

theorem value?_eq_some_iff {value : String} :
    lookup.value? key = some value ↔ lookup key = some value ∧ isBlank value = false := by
  simp [value?, Option.filter_eq_some_iff]

theorem text?_of_none (given : lookup.value? key = none) : lookup.text? key = none := by
  rw [text?, given, Option.map_none]

theorem text?_of_some {value : String} (given : lookup.value? key = some value) :
    lookup.text? key = some (trim value) := by
  rw [text?, given, Option.map_some]

theorem states_iff {text : String} : lookup.States key text ↔ lookup.text? key = some text := by
  simp only [States, text?, Option.map_eq_some_iff, value?_eq_some_iff, and_assoc]

theorem leavesOut_iff : lookup.LeavesOut key ↔ lookup.text? key = none := by
  simp [LeavesOut, text?, value?, Option.filter_eq_none_iff]

theorem gives_iff_of_leavesOut {default value : α} {spells : String → α → Prop}
    (leftOut : lookup.text? key = none) :
    lookup.Gives key default spells value ↔ value = default := by
  constructor
  · intro gives
    cases gives with
    | default => rfl
    | spelled states =>
        rw [states_iff, leftOut] at states
        cases states
  · rintro rfl
    exact .default (leavesOut_iff.mpr leftOut)

theorem gives_iff_of_states {default value : α} {spells : String → α → Prop} {text : String}
    (states : lookup.text? key = some text) :
    lookup.Gives key default spells value ↔ spells text value := by
  constructor
  · intro gives
    cases gives with
    | default leftOut =>
        rw [leavesOut_iff, states] at leftOut
        cases leftOut
    | spelled statesToo spelled =>
        rw [states_iff, states] at statesToo
        cases statesToo
        exact spelled
  · exact .spelled (states_iff.mpr states)

/-- A variable gives a value exactly if it does not state something else. -/
theorem exists_gives_iff (default : α) {spells : String → α → Prop} :
    (∃ value, lookup.Gives key default spells value) ↔ ¬lookup.Misstates key spells := by
  simp only [Misstates, states_iff]
  cases stated : lookup.text? key with
  | none => simp [gives_iff_of_leavesOut stated]
  | some text => simp [gives_iff_of_states stated]

theorem gives_congr {default value : α} {spells : String → α → Prop}
    (same : other.text? key = lookup.text? key) :
    other.Gives key default spells value ↔ lookup.Gives key default spells value := by
  cases stated : lookup.text? key with
  | none => rw [gives_iff_of_leavesOut stated, gives_iff_of_leavesOut (same.trans stated)]
  | some text => rw [gives_iff_of_states stated, gives_iff_of_states (same.trans stated)]

end Stating

end Lookup

namespace Settings

/-! ## Spellings -/

/-- Worker counts: positive numbers of 64 bits. -/
def SpellsWorkers (text : String) (count : Nat) : Prop :=
  SpellsNat text.toList count ∧ 1 ≤ count ∧ count ≤ largestNat64

/-- Hours that are a number of 32 bits. -/
def SpellsHours (text : String) (hours : Int) : Prop :=
  SpellsInt text.toList hours ∧ fits largestInt32 hours = true

/-- Hours of less than a day. -/
def SpellsOffset (text : String) (hours : Int) : Prop :=
  SpellsInt text.toList hours ∧ -23 ≤ hours ∧ hours ≤ 23

/-- Hours are given only if their seconds are a number of 32 bits too. -/
def SecondsFit (lookup : Lookup) : Prop :=
  ∀ text hours, lookup.States offsetKey text → SpellsHours text hours →
    fits largestInt32 (hours * 3600) = true

/-- Attempts: numbers of 32 bits. -/
def SpellsAttempts (text : String) (count : Nat) : Prop :=
  SpellsNat text.toList count ∧ count ≤ largestNat32

theorem SpellsOffset.spellsHours {text : String} {hours : Int} (spells : SpellsOffset text hours) :
    SpellsHours text hours := by
  obtain ⟨isNumber, atLeast, atMost⟩ := spells
  refine ⟨isNumber, ?_⟩
  simp only [fits_iff, largestInt32]
  omega

/-! ## Reading -/

section Reading

variable {lookup other : Lookup} {key : String}

theorem readWorkers_eq_ok_iff {default count : Nat} :
    readWorkers lookup key default = .ok count ↔
      lookup.Gives key default SpellsWorkers count := by
  unfold readWorkers
  cases given : lookup.value? key with
  | none =>
      rw [Lookup.gives_iff_of_leavesOut (Lookup.text?_of_none given)]
      simp [eq_comm]
  | some value =>
      have reads (number : Nat) : readNat largestNat64 (trim value) = .ok number ↔
          SpellsNat (trim value).toList number ∧ number ≤ largestNat64 := readNat_eq_ok_iff
      rw [Lookup.gives_iff_of_states (Lookup.text?_of_some given), SpellsWorkers, and_left_comm,
        ← reads]
      dsimp only
      -- Nothing else depends on how the digits are read, which would be opened up to the limit.
      generalize readNat largestNat64 (trim value) = read
      match read with
      | .error fault => simp
      | .ok 0 =>
          simp only [reduceCtorEq, Except.ok.injEq, false_iff]
          omega
      | .ok (number + 1) =>
          simp only [Except.ok.injEq]
          omega

theorem readMaxAttempts_eq_ok_iff {attempts : UInt32} :
    readMaxAttempts lookup = .ok attempts ↔
      ∃ count, lookup.Gives maxAttemptsKey 3 SpellsAttempts count ∧
        attempts.toNat = max count 1 := by
  unfold readMaxAttempts
  cases given : lookup.value? maxAttemptsKey with
  | none =>
      simp only [Lookup.gives_iff_of_leavesOut (Lookup.text?_of_none given)]
      simp [← UInt32.toNat_inj, eq_comm]
  | some value =>
      have reads (number : Nat) : readNat largestNat32 (trim value) = .ok number ↔
          SpellsAttempts (trim value) number := readNat_eq_ok_iff
      simp only [Lookup.gives_iff_of_states (Lookup.text?_of_some given), ← reads]
      cases read : readNat largestNat32 (trim value) with
      | error fault => simp
      | ok number =>
          have small : number < UInt32.size := Nat.lt_succ_of_le ((reads number).mp read).2
          have sameNumber : (max (UInt32.ofNat number) 1).toNat = max number 1 := by
            rw [toNat_max_one, UInt32.toNat_ofNat_of_lt' small]
          simp [← UInt32.toNat_inj, sameNumber, eq_comm]

/-- The seconds of hours, if they do not wrap around. -/
theorem toInt_seconds {hours : Int} (isHours : fits largestInt32 hours = true)
    (isSeconds : fits largestInt32 (hours * 3600) = true) :
    (Int32.ofInt hours * 3600).toInt = hours * 3600 := by
  simp only [fits_iff, largestInt32] at isHours isSeconds
  have sameHours : (Int32.ofInt hours).toInt = hours :=
    Int32.toInt_ofInt_of_le (by omega) (by omega)
  rw [Int32.toInt_mul, sameHours]
  change (hours * 3600).bmod _ = _
  exact Int.bmod_eq_of_le (by omega) (by omega)

theorem offsetOfHours_eq_ok_iff {hours : Int} {offset : Offset} :
    offsetOfHours hours = .ok offset ↔ offset.seconds = (Int32.ofInt hours * 3600).toInt := by
  unfold offsetOfHours Offset.ofSeconds?
  generalize (Int32.ofInt hours * 3600).toInt = seconds
  by_cases within : -86400 < seconds ∧ seconds < 86400
  · rw [dif_pos within]
    constructor
    · rintro ⟨⟩
      rfl
    · rintro rfl
      rfl
  · rw [dif_neg within]
    constructor
    · intro failed
      cases failed
    · rintro rfl
      exact absurd offset.withinDay within

theorem readInt_eq_ok_iff_spellsHours {text : String} {hours : Int} :
    readInt (largestInt32 + 1) largestInt32 text = .ok hours ↔ SpellsHours text hours := by
  rw [readInt_eq_ok_iff, SpellsHours, and_congr_right_iff]
  intro spells
  rw [fits_iff]
  omega

theorem readOffset_eq_ok_iff {offset : Offset} :
    readOffset lookup = .ok offset ↔
      ∃ hours, lookup.Gives offsetKey 8 SpellsHours hours ∧
        offset.seconds = (Int32.ofInt hours * 3600).toInt := by
  unfold readOffset
  cases given : lookup.value? offsetKey with
  | none =>
      simp only [Lookup.gives_iff_of_leavesOut (Lookup.text?_of_none given), exists_eq_left]
      exact offsetOfHours_eq_ok_iff
  | some value =>
      simp only [Lookup.gives_iff_of_states (Lookup.text?_of_some given),
        ← readInt_eq_ok_iff_spellsHours]
      cases read : readInt (largestInt32 + 1) largestInt32 (trim value) with
      | error fault => simp
      | ok hours =>
          simp only [Except.ok.injEq, exists_eq_left']
          exact offsetOfHours_eq_ok_iff

theorem secondsFit_of_reads (text : String) (hours : Int)
    (stated : lookup.text? offsetKey = some text)
    (reads : readInt (largestInt32 + 1) largestInt32 text = .ok hours)
    (isSeconds : fits largestInt32 (hours * 3600) = true) : SecondsFit lookup := by
  intro other number states spells
  rw [Lookup.states_iff, stated, Option.some.injEq] at states
  rw [← readInt_eq_ok_iff_spellsHours, ← states, reads, Except.ok.injEq] at spells
  rwa [spells] at isSeconds

/-- Where seconds do not wrap around, the hours of an offset are those of less than a day. -/
theorem readOffset_eq_ok_iff_of_secondsFit (secondsFit : SecondsFit lookup) {offset : Offset} :
    readOffset lookup = .ok offset ↔
      ∃ hours, lookup.Gives offsetKey 8 SpellsOffset hours ∧ offset.seconds = hours * 3600 := by
  rw [readOffset_eq_ok_iff]
  constructor
  · rintro ⟨hours, gives, isOffset⟩
    cases gives with
    | default leftOut => exact ⟨8, .default leftOut, isOffset⟩
    | spelled states spells =>
        have wraps := toInt_seconds spells.2 (secondsFit _ hours states spells)
        have within := offset.withinDay
        refine ⟨hours, .spelled states ⟨spells.1, ?_, ?_⟩, isOffset.trans wraps⟩ <;> omega
  · rintro ⟨hours, gives, isOffset⟩
    cases gives with
    | default leftOut => exact ⟨8, .default leftOut, isOffset⟩
    | spelled states spells =>
        have isHours := spells.spellsHours
        refine ⟨hours, .spelled states isHours, ?_⟩
        rw [isOffset, toInt_seconds isHours.2 (secondsFit _ hours states isHours)]

theorem exists_readWorkers_iff {default : Nat} :
    (∃ count, readWorkers lookup key default = .ok count) ↔
      ¬lookup.Misstates key SpellsWorkers := by
  simp only [readWorkers_eq_ok_iff, Lookup.exists_gives_iff]

theorem exists_readMaxAttempts_iff :
    (∃ attempts, readMaxAttempts lookup = .ok attempts) ↔
      ¬lookup.Misstates maxAttemptsKey SpellsAttempts := by
  simp only [readMaxAttempts_eq_ok_iff, ← Lookup.exists_gives_iff 3]
  constructor
  · rintro ⟨attempts, count, gives, -⟩
    exact ⟨count, gives⟩
  · rintro ⟨count, gives⟩
    have atMost : count ≤ 4294967295 := by
      cases gives with
      | default => decide
      | spelled _ spells => exact spells.2
    refine ⟨UInt32.ofNat (max count 1), count, gives, UInt32.toNat_ofNat_of_lt' ?_⟩
    change max count 1 < 4294967296
    omega

theorem exists_readOffset_iff (secondsFit : SecondsFit lookup) :
    (∃ offset, readOffset lookup = .ok offset) ↔ ¬lookup.Misstates offsetKey SpellsOffset := by
  simp only [readOffset_eq_ok_iff_of_secondsFit secondsFit, ← Lookup.exists_gives_iff (8 : Int)]
  constructor
  · rintro ⟨offset, hours, gives, -⟩
    exact ⟨hours, gives⟩
  · rintro ⟨hours, gives⟩
    have withinDay : -23 ≤ hours ∧ hours ≤ 23 := by
      cases gives with
      | default => decide
      | spelled _ spells => exact spells.2
    exact ⟨⟨hours * 3600, by omega⟩, hours, gives, rfl⟩

theorem readLenient_congr {limit default : Nat} (same : other.text? key = lookup.text? key) :
    readLenient other key limit default = readLenient lookup key limit default := by
  have read (lookup : Lookup) : (lookup.value? key).map (fun value => readNat limit (trim value)) =
      (lookup.text? key).map (readNat limit) := by
    rw [Lookup.text?, Option.map_map]
    rfl
  rw [readLenient, readLenient, read, read, same]

theorem readSwitch_congr (same : other.text? key = lookup.text? key) :
    readSwitch other key = readSwitch lookup key := by
  unfold readSwitch
  cases given : lookup.value? key with
  | none =>
      rw [Lookup.text?_of_none given, Lookup.text?, Option.map_eq_none_iff] at same
      rw [same]
  | some value =>
      rw [Lookup.text?_of_some given, Lookup.text?, Option.map_eq_some_iff] at same
      obtain ⟨otherValue, otherGiven, sameText⟩ := same
      rw [otherGiven]
      simp only [sameText]

end Reading

end Settings

end DualStore
