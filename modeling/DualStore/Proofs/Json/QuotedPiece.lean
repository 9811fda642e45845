import DualStore.Proofs.Json.Grammar

/-!
Contract: a quoted text in a text that ends early.

Owns:
- a loose text is there as a whole, or the lenient reader misses its end;
- a paired text is there as a whole, or both readers miss its end, wherever it is cut: inside an
  escape, between the halves of a pair or inside a character.

Does not own: the tokens around the quoted text.
-/

namespace DualStore.Json

/-- What a divided list begins with lies in its first part, or goes beyond it. -/
theorem append_eq_append_cases {α : Type} {first second piece missing : List α}
    (same : first ++ second = piece ++ missing) :
    (∃ more, piece = first ++ more ∧ second = more ++ missing) ∨
      ∃ lost, lost ≠ [] ∧ first = piece ++ lost := by
  rcases List.append_eq_append_iff.mp same with ⟨more, isPiece, isSecond⟩ | ⟨lost, isFirst, _⟩
  · exact Or.inl ⟨more, isPiece, isSecond⟩
  · cases lost with
    | nil =>
        rw [List.append_nil] at isFirst
        rw [isFirst] at same
        exact Or.inl ⟨[], by rw [isFirst, List.append_nil], List.append_cancel_left same⟩
    | cons b lost => exact Or.inr ⟨b :: lost, List.cons_ne_nil _ _, isFirst⟩

/-! ## Quoted texts -/

section Texts

variable {piece missing bs content rest : List UInt8} {b e d₁ d₂ d₃ d₄ : UInt8} {code : Nat}

theorem PairedText.append (paired : PairedText bs content rest) (more : List UInt8) :
    PairedText (bs ++ more) content (rest ++ more) := by
  induction paired with
  | close => exact .close
  | plain notQuote notEscape visible _ inductionHypothesis =>
      exact .plain notQuote notEscape visible inductionHypothesis
  | short escape _ inductionHypothesis => exact .short escape inductionHypothesis
  | unit isUnit notSecond notFirst _ inductionHypothesis =>
      exact .unit isUnit notSecond notFirst inductionHypothesis
  | pair isUnit notSecond isFirst alsoUnit isSecond _ inductionHypothesis =>
      exact .pair isUnit notSecond isFirst alsoUnit isSecond inductionHypothesis

/-- A text that lacks content lacks it whatever follows the text. -/
theorem LacksContent.of_append {more : List UInt8}
    (lacks : LacksContent (bs ++ more) (rest ++ more)) : LacksContent bs rest :=
  fun content paired => lacks content (paired.append more)

/-- What is there of an escape for a unit whose last digit is not. -/
inductive CutUnit : List UInt8 → Prop where
  | before : CutUnit []
  | sign : CutUnit [0x5C]
  | digits {digits : List UInt8} : digits.length < 4 → CutUnit (0x5C :: 0x75 :: digits)

theorem unit_cases (same : 0x5C :: 0x75 :: d₁ :: d₂ :: d₃ :: d₄ :: bs = piece ++ missing) :
    (∃ more, piece = 0x5C :: 0x75 :: d₁ :: d₂ :: d₃ :: d₄ :: more ∧ bs = more ++ missing) ∨
      CutUnit piece := by
  have parts : [0x5C, 0x75, d₁, d₂, d₃, d₄] ++ bs = piece ++ missing := same
  rcases append_eq_append_cases parts with inside | ⟨lost, isSome, isUnit⟩
  · exact Or.inl inside
  · refine Or.inr ?_
    have positive := List.length_pos_iff.mpr isSome
    rcases piece with _ | ⟨_, _ | ⟨_, digits⟩⟩
    · exact .before
    · cases isUnit
      exact .sign
    · have few := congrArg List.length isUnit
      obtain ⟨rfl, rfl, _⟩ : _ ∧ _ ∧ _ := by simpa using isUnit
      refine .digits ?_
      simp at few
      omega

/-! ### The lenient reader -/

/-- The lenient reader misses the end of a quoted text. -/
def BreaksOff (piece : List UInt8) : Prop := skipText piece = .error ⟨.unfinishedText, []⟩

theorem CutUnit.breaksOff (cut : CutUnit piece) : BreaksOff piece := by
  rw [BreaksOff, skipText.eq_def]
  cases cut with
  | before => rfl
  | sign => rfl
  | @digits digits few =>
      rcases digits with _ | ⟨_, _ | ⟨_, _ | ⟨_, _ | ⟨_, digits⟩⟩⟩⟩
      case cons.cons.cons.cons => exact absurd few (by simp)
      all_goals rfl

theorem skipText_plain (notQuote : b ≠ 0x22) (notEscape : b ≠ 0x5C) (visible : ¬ b < 0x20) :
    skipText (b :: bs) = skipText bs := by
  rw [skipText.eq_def]
  simp only [if_neg notQuote, if_neg notEscape, if_neg visible]

theorem skipText_short (escape : shortEscape? e = some b) :
    skipText (0x5C :: e :: bs) = skipText bs := by
  rw [skipText.eq_def]
  simp [escape]

theorem skipText_unit (isUnit : hexUnit? d₁ d₂ d₃ d₄ = some code) :
    skipText (0x5C :: 0x75 :: d₁ :: d₂ :: d₃ :: d₄ :: bs) = skipText bs := by
  rw [skipText.eq_def]
  simp [shortEscape?_u, isUnit]

/-- A loose text is there as a whole, or the lenient reader misses its end. -/
theorem LooseText.cases_of_append (loose : LooseText bs rest) (same : bs = piece ++ missing) :
    (∃ more, LooseText piece more ∧ rest = more ++ missing) ∨ BreaksOff piece := by
  induction loose generalizing piece with
  | close =>
      cases piece with
      | nil => exact Or.inr CutUnit.before.breaksOff
      | cons b piece =>
          cases same
          exact Or.inl ⟨piece, .close, rfl⟩
  | plain notQuote notEscape visible _ inductionHypothesis =>
      cases piece with
      | nil => exact Or.inr CutUnit.before.breaksOff
      | cons b piece =>
          cases same
          rcases inductionHypothesis rfl with ⟨more, loose, isRest⟩ | breaks
          · exact Or.inl ⟨more, .plain notQuote notEscape visible loose, isRest⟩
          · exact Or.inr ((skipText_plain notQuote notEscape visible).trans breaks)
  | short escape _ inductionHypothesis =>
      rcases piece with _ | ⟨_, _ | ⟨_, piece⟩⟩
      · exact Or.inr CutUnit.before.breaksOff
      · cases same
        exact Or.inr CutUnit.sign.breaksOff
      · cases same
        rcases inductionHypothesis rfl with ⟨more, loose, isRest⟩ | breaks
        · exact Or.inl ⟨more, .short escape loose, isRest⟩
        · exact Or.inr ((skipText_short escape).trans breaks)
  | unit isUnit _ inductionHypothesis =>
      rcases unit_cases same with ⟨after, rfl, isBehind⟩ | cut
      · rcases inductionHypothesis isBehind with ⟨more, loose, isRest⟩ | breaks
        · exact Or.inl ⟨more, .unit isUnit loose, isRest⟩
        · exact Or.inr ((skipText_unit isUnit).trans breaks)
      · exact Or.inr cut.breaksOff

/-! ### The strict reader -/

/-- Both readers miss the end of a quoted text. -/
structure Unfinished (piece : List UInt8) : Prop where
  breaksOff : BreaksOff piece
  strictly : ∀ done, readTextFrom done piece = .error ⟨.unfinishedText, []⟩

theorem CutUnit.unfinished (cut : CutUnit piece) : Unfinished piece := by
  refine ⟨cut.breaksOff, fun done => ?_⟩
  rw [readTextFrom.eq_def]
  cases cut with
  | before => rfl
  | sign => rfl
  | @digits digits few =>
      rcases digits with _ | ⟨_, _ | ⟨_, _ | ⟨_, _ | ⟨_, digits⟩⟩⟩⟩
      case cons.cons.cons.cons => exact absurd few (by simp)
      all_goals rfl

theorem Unfinished.plain (unfinished : Unfinished piece) (notQuote : b ≠ 0x22)
    (notEscape : b ≠ 0x5C) (visible : ¬ b < 0x20) : Unfinished (b :: piece) := by
  refine ⟨(skipText_plain notQuote notEscape visible).trans unfinished.breaksOff, fun done => ?_⟩
  rw [readTextFrom.eq_def]
  simp only [if_neg notQuote, if_neg notEscape, if_neg visible, unfinished.strictly]

theorem Unfinished.short (unfinished : Unfinished piece) (escape : shortEscape? e = some b) :
    Unfinished (0x5C :: e :: piece) := by
  refine ⟨(skipText_short escape).trans unfinished.breaksOff, fun done => ?_⟩
  rw [readTextFrom.eq_def]
  simp [escape, unfinished.strictly]

theorem Unfinished.unit (unfinished : Unfinished piece) (isUnit : hexUnit? d₁ d₂ d₃ d₄ = some code)
    (notSecond : closesPair code = false) (notFirst : opensPair code = false) :
    Unfinished (0x5C :: 0x75 :: d₁ :: d₂ :: d₃ :: d₄ :: piece) := by
  refine ⟨(skipText_unit isUnit).trans unfinished.breaksOff, fun done => ?_⟩
  rw [readTextFrom.eq_def]
  simp [shortEscape?_u, isUnit, notSecond, notFirst, unfinished.strictly]

section Pairs

variable {e₁ e₂ e₃ e₄ : UInt8} {next : Nat} (isUnit : hexUnit? d₁ d₂ d₃ d₄ = some code)
  (notSecond : closesPair code = false) (isFirst : opensPair code = true)
include isUnit notSecond isFirst

/-- Behind the first half of a pair a second one is looked for, and nothing else. -/
theorem CutUnit.unfinished_half (cut : CutUnit piece) :
    Unfinished (0x5C :: 0x75 :: d₁ :: d₂ :: d₃ :: d₄ :: piece) := by
  refine ⟨(skipText_unit isUnit).trans cut.breaksOff, fun done => ?_⟩
  rw [readTextFrom.eq_def]
  cases cut with
  | before => simp [shortEscape?_u, isUnit, notSecond, isFirst]
  | sign => simp [shortEscape?_u, isUnit, notSecond, isFirst]
  | @digits digits few =>
      rcases digits with _ | ⟨_, _ | ⟨_, _ | ⟨_, _ | ⟨_, digits⟩⟩⟩⟩
      case cons.cons.cons.cons => exact absurd few (by simp)
      all_goals simp [shortEscape?_u, isUnit, notSecond, isFirst]

theorem Unfinished.pair (unfinished : Unfinished piece)
    (alsoUnit : hexUnit? e₁ e₂ e₃ e₄ = some next) (isSecond : closesPair next = true) :
    Unfinished
      (0x5C :: 0x75 :: d₁ :: d₂ :: d₃ :: d₄ :: 0x5C :: 0x75 :: e₁ :: e₂ :: e₃ :: e₄ :: piece) := by
  refine ⟨(skipText_unit isUnit).trans ((skipText_unit alsoUnit).trans unfinished.breaksOff),
    fun done => ?_⟩
  rw [readTextFrom.eq_def]
  simp [shortEscape?_u, isUnit, notSecond, isFirst, alsoUnit, isSecond, unfinished.strictly]

end Pairs

/-- A paired text is there as a whole, or both readers miss its end. -/
theorem PairedText.cases_of_append (paired : PairedText bs content rest)
    (same : bs = piece ++ missing) :
    (∃ more, PairedText piece content more ∧ rest = more ++ missing) ∨ Unfinished piece := by
  induction paired generalizing piece with
  | close =>
      cases piece with
      | nil => exact Or.inr CutUnit.before.unfinished
      | cons b piece =>
          cases same
          exact Or.inl ⟨piece, .close, rfl⟩
  | plain notQuote notEscape visible _ inductionHypothesis =>
      cases piece with
      | nil => exact Or.inr CutUnit.before.unfinished
      | cons b piece =>
          cases same
          rcases inductionHypothesis rfl with ⟨more, paired, isRest⟩ | unfinished
          · exact Or.inl ⟨more, .plain notQuote notEscape visible paired, isRest⟩
          · exact Or.inr (unfinished.plain notQuote notEscape visible)
  | short escape _ inductionHypothesis =>
      rcases piece with _ | ⟨_, _ | ⟨_, piece⟩⟩
      · exact Or.inr CutUnit.before.unfinished
      · cases same
        exact Or.inr CutUnit.sign.unfinished
      · cases same
        rcases inductionHypothesis rfl with ⟨more, paired, isRest⟩ | unfinished
        · exact Or.inl ⟨more, .short escape paired, isRest⟩
        · exact Or.inr (unfinished.short escape)
  | unit isUnit notSecond notFirst _ inductionHypothesis =>
      rcases unit_cases same with ⟨after, rfl, isBehind⟩ | cut
      · rcases inductionHypothesis isBehind with ⟨more, paired, isRest⟩ | unfinished
        · exact Or.inl ⟨more, .unit isUnit notSecond notFirst paired, isRest⟩
        · exact Or.inr (unfinished.unit isUnit notSecond notFirst)
      · exact Or.inr cut.unfinished
  | pair isUnit notSecond isFirst alsoUnit isSecond _ inductionHypothesis =>
      rcases unit_cases same with ⟨half, rfl, isHalf⟩ | cut
      · rcases unit_cases isHalf with ⟨after, rfl, isBehind⟩ | cut
        · rcases inductionHypothesis isBehind with ⟨more, paired, isRest⟩ | unfinished
          · exact Or.inl ⟨more, .pair isUnit notSecond isFirst alsoUnit isSecond paired, isRest⟩
          · exact Or.inr (unfinished.pair isUnit notSecond isFirst alsoUnit isSecond)
        · exact Or.inr (cut.unfinished_half isUnit notSecond isFirst)
      · exact Or.inr cut.unfinished

end Texts

end DualStore.Json
