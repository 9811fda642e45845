import DualStore.Text.Blank
import DualStore.Text.Decimal
import Mathlib.Data.List.DropRight

/-!
Contract: what trimming leaves alone.

Owns:
- trimming twice is trimming once, and it leaves nothing of blank texts only;
- what stands between blanks, and neither starts nor ends with one, is what trimming leaves;
- blanks that are put around a text, and visible characters inside it;
- the decimal text of an integer has no blanks.

Does not own: where blanks are removed.
-/

namespace DualStore.Text

theorem trimChars_eq (cs : List Char) :
    trimChars cs = (cs.dropWhile isBlankChar).rdropWhile isBlankChar := rfl

/-- What has been dropped at the start is not there again once the end is dropped. -/
theorem dropWhile_rdropWhile {α : Type} (p : α → Bool) (list : List α) :
    ((list.dropWhile p).rdropWhile p).dropWhile p = (list.dropWhile p).rdropWhile p := by
  rw [List.dropWhile_eq_self_iff]
  intro nonempty
  have front : (list.dropWhile p).rdropWhile p <+: list.dropWhile p :=
    List.rdropWhile_prefix p _
  rw [front.getElem nonempty]
  exact List.dropWhile_get_zero_not p list (Nat.lt_of_lt_of_le nonempty front.length_le)

theorem trimChars_trimChars (cs : List Char) : trimChars (trimChars cs) = trimChars cs := by
  rw [trimChars_eq, trimChars_eq, dropWhile_rdropWhile, List.rdropWhile_idempotent]

/-- Trimming leaves something of a text that is not blank. -/
theorem trimChars_ne_nil {cs : List Char} (visible : cs.all isBlankChar = false) :
    trimChars cs ≠ [] := by
  intro nothing
  rw [trimChars_eq, List.rdropWhile_eq_nil_iff] at nothing
  by_cases kept : 0 < (cs.dropWhile isBlankChar).length
  · exact List.dropWhile_get_zero_not isBlankChar cs kept (nothing _ (List.getElem_mem kept))
  · have blank := (trimStartChars_eq_nil_iff cs).mp
      (List.length_eq_zero_iff.mp (Nat.eq_zero_of_not_pos kept))
    rw [visible] at blank
    cases blank

theorem trim_trim (s : String) : trim (trim s) = trim s := by
  rw [trim, trim, String.toList_ofList, trimChars_trimChars]

theorem trim_ne_empty {s : String} (visible : isBlank s = false) : trim s ≠ "" := by
  intro nothing
  apply trimChars_ne_nil visible
  have same := congrArg String.toList nothing
  rwa [trim, String.toList_ofList] at same

theorem trim_eq_empty_iff {s : String} : trim s = "" ↔ isBlank s = true := by
  constructor
  · intro nothing
    by_contra visible
    exact trim_ne_empty (eq_false_of_ne_true visible) nothing
  · intro blank
    rw [trim, trimChars, (trimStartChars_eq_nil_iff s.toList).mpr blank]
    rfl

/-- A text that is not empty and has no blanks around it is not blank. -/
theorem isBlank_of_trimmed {s : String} (notEmpty : s ≠ "") (trimmed : trim s = s) :
    isBlank s = false := by
  rw [← Bool.not_eq_true]
  intro blank
  apply notEmpty
  rw [← trimmed]
  exact trim_eq_empty_iff.mpr blank

theorem trim_eq_self {s : String} (visible : ∀ c ∈ s.toList, isBlankChar c = false) :
    trim s = s := by
  have start : s.toList.dropWhile isBlankChar = s.toList := by
    rw [List.dropWhile_eq_self_iff]
    intro nonempty
    simp [visible _ (List.getElem_mem nonempty)]
  have finish : s.toList.rdropWhile isBlankChar = s.toList := by
    rw [List.rdropWhile_eq_self_iff]
    intro nonempty
    simp [visible _ (List.getLast_mem nonempty)]
  rw [trim, trimChars_eq, start, finish, String.ofList_toList]

/-! ## What stands between blanks -/

def StartsVisible (cs : List Char) : Prop :=
  ∃ c after, cs = c :: after ∧ isBlankChar c = false

def EndsVisible (cs : List Char) : Prop :=
  ∃ before c, cs = before ++ [c] ∧ isBlankChar c = false

theorem StartsVisible.append {front : List Char} (starts : StartsVisible front)
    (cs : List Char) : StartsVisible (front ++ cs) := by
  obtain ⟨c, after, rfl, visible⟩ := starts
  exact ⟨c, after ++ cs, List.cons_append, visible⟩

theorem EndsVisible.append (front : List Char) {cs : List Char} (ends : EndsVisible cs) :
    EndsVisible (front ++ cs) := by
  obtain ⟨before, c, rfl, visible⟩ := ends
  exact ⟨front ++ before, c, (List.append_assoc front before [c]).symm, visible⟩

theorem EndsVisible.cons (c : Char) {cs : List Char} (ends : EndsVisible cs) :
    EndsVisible (c :: cs) :=
  ends.append [c]

/-- Blanks around a text are removed, and nothing else is. -/
theorem trimChars_between {before cs after : List Char} (starts : StartsVisible cs)
    (ends : EndsVisible cs) (blankBefore : before.all isBlankChar = true)
    (blankAfter : after.all isBlankChar = true) : trimChars (before ++ cs ++ after) = cs := by
  have fromStart : trimStartChars (before ++ cs ++ after) = cs ++ after := by
    obtain ⟨c, rest, rfl, visible⟩ := starts
    rw [List.append_assoc, trimStartChars,
      List.dropWhile_append_of_pos (List.all_eq_true.mp blankBefore)]
    exact trimStartChars_cons_of_visible _ visible
  have fromEnd : trimStartChars (cs ++ after).reverse = cs.reverse := by
    obtain ⟨rest, c, rfl, visible⟩ := ends
    rw [← List.all_reverse] at blankAfter
    rw [List.reverse_append, trimStartChars,
      List.dropWhile_append_of_pos (List.all_eq_true.mp blankAfter), List.reverse_append]
    exact trimStartChars_cons_of_visible _ visible
  rw [trimChars, fromStart, fromEnd, List.reverse_reverse]

/-- Blanks that are put around a text make no difference to what trimming leaves of it. -/
theorem trimChars_padded (cs : List Char) {before after : List Char}
    (blankBefore : before.all isBlankChar = true) (blankAfter : after.all isBlankChar = true) :
    trimChars (before ++ cs ++ after) = trimChars cs := by
  have fromEnd (front : List Char) :
      (front ++ after).rdropWhile isBlankChar = front.rdropWhile isBlankChar := by
    rw [← List.all_reverse] at blankAfter
    rw [List.rdropWhile, List.reverse_append,
      List.dropWhile_append_of_pos (List.all_eq_true.mp blankAfter)]
    rfl
  rw [trimChars_eq, trimChars_eq, List.append_assoc,
    List.dropWhile_append_of_pos (List.all_eq_true.mp blankBefore), List.dropWhile_append]
  split
  · rename_i nothing
    rw [List.isEmpty_iff.mp nothing, List.dropWhile_eq_nil_iff.mpr (List.all_eq_true.mp blankAfter)]
  · exact fromEnd _

theorem endsVisible_trimChars {cs : List Char} (notEmpty : trimChars cs ≠ []) :
    EndsVisible (trimChars cs) := by
  refine ⟨_, _, (List.dropLast_append_getLast notEmpty).symm, ?_⟩
  exact eq_false_of_ne_true (List.rdropWhile_last_not isBlankChar _ notEmpty)

/-- Trimming reaches no further into a text than to a visible character. -/
theorem exists_trimChars_append (front : List Char) {c : Char} {cs : List Char}
    (visible : isBlankChar c = false) (ends : EndsVisible (c :: cs)) :
    ∃ kept, trimChars (front ++ c :: cs) = kept ++ c :: cs := by
  have fromStart : (front ++ c :: cs).dropWhile isBlankChar =
      front.dropWhile isBlankChar ++ c :: cs := by
    rw [List.dropWhile_append]
    split
    · rename_i nothing
      rw [List.isEmpty_iff.mp nothing, List.nil_append]
      exact trimStartChars_cons_of_visible cs visible
    · rfl
  refine ⟨front.dropWhile isBlankChar, ?_⟩
  rw [trimChars_eq, fromStart, List.rdropWhile_eq_self_iff]
  intro nonempty
  obtain ⟨before, last, same, lastVisible⟩ := ends.append (front.dropWhile isBlankChar)
  simp [same, lastVisible]

/-! ## Decimal texts -/

theorem isBlankChar_of_isDigit {c : Char} (digit : c.isDigit = true) : isBlankChar c = false := by
  have bounds : 0x30 ≤ c.toNat ∧ c.toNat ≤ 0x39 := by
    simpa [Char.isDigit, UInt32.le_iff_toNat_le] using digit
  simp [isBlankChar, blankRanges]
  omega

theorem visible_intDigits {n : Int} {c : Char} (member : c ∈ intDigits n) :
    isBlankChar c = false := by
  have digits : ∀ c ∈ natDigits n.natAbs, isBlankChar c = false := by
    intro c member
    exact isBlankChar_of_isDigit (Nat.isDigit_of_mem_toDigits (by decide) (by decide) member)
  rw [intDigits] at member
  by_cases negative : n < 0
  · rw [if_pos negative] at member
    rcases List.mem_cons.mp member with rfl | member
    · decide
    · exact digits c member
  · rw [if_neg negative] at member
    exact digits c member

theorem intText_ne_empty (n : Int) : intText n ≠ "" := by
  intro nothing
  have same := congrArg String.toList nothing
  rw [intText, String.toList_ofList, intDigits] at same
  by_cases negative : n < 0
  · rw [if_pos negative] at same
    cases same
  · rw [if_neg negative] at same
    exact Nat.toDigits_ne_nil same

theorem trim_intText (n : Int) : trim (intText n) = intText n := by
  apply trim_eq_self
  intro c member
  rw [intText, String.toList_ofList] at member
  exact visible_intDigits member

end DualStore.Text
