import DualStore.Proofs.Json.Draft
import DualStore.Proofs.Json.Numeral
import DualStore.Proofs.Json.Quoted

/-!
Contract: the grammar of JSON texts.

Owns:
- the bytes of each token, and the layout of tokens with blanks around them;
- texts, which are the layout of the tokens of one draft; a strict text is that of a tree;
- the scanner finds exactly the tokens of a layout, wherever no number stands directly before
  another.

Does not own: what a reader makes of the tokens.
-/

namespace DualStore.Json

/-! ## The grammar -/

/-- The bytes begin with a token; the others are left over. A text that is loose but not strict
has no content, and a number out of range has no value. -/
inductive TokenForm : List UInt8 → Token → List UInt8 → Prop where
  | openItems {rest : List UInt8} : TokenForm (0x5B :: rest) .openItems rest
  | closeItems {rest : List UInt8} : TokenForm (0x5D :: rest) .closeItems rest
  | openMembers {rest : List UInt8} : TokenForm (0x7B :: rest) .openMembers rest
  | closeMembers {rest : List UInt8} : TokenForm (0x7D :: rest) .closeMembers rest
  | comma {rest : List UInt8} : TokenForm (0x2C :: rest) .comma rest
  | colon {rest : List UInt8} : TokenForm (0x3A :: rest) .colon rest
  | strictText {bs rest : List UInt8} {content : String} : StrictText bs content rest →
      TokenForm (0x22 :: bs) (.text (some content)) rest
  | looseText {bs rest : List UInt8} : LooseText bs rest → LacksContent bs rest →
      TokenForm (0x22 :: bs) (.text none) rest
  | number {spelled rest : List UInt8} {numeral : Numeral} : NumeralForm spelled numeral →
      TokenForm (spelled ++ rest) (.number numeral.value?) rest
  | null {rest : List UInt8} : TokenForm (0x6E :: 0x75 :: 0x6C :: 0x6C :: rest) .null rest
  | true {rest : List UInt8} : TokenForm (0x74 :: 0x72 :: 0x75 :: 0x65 :: rest) (.bool true) rest
  | false {rest : List UInt8} :
      TokenForm (0x66 :: 0x61 :: 0x6C :: 0x73 :: 0x65 :: rest) (.bool false) rest

/-- The bytes are the tokens, with blanks before, between and behind them. -/
inductive Laid : List UInt8 → List Token → Prop where
  | finished : Laid [] []
  | blank {b : UInt8} {bs : List UInt8} {tokens : List Token} : isBlankByte b = true →
      Laid bs tokens → Laid (b :: bs) tokens
  | token {bs rest : List UInt8} {token : Token} {tokens : List Token} : TokenForm bs token rest →
      Laid rest tokens → Laid bs (token :: tokens)

/-- The bytes are one draft, with blanks around it. -/
def Spells (body : List UInt8) (draft : Draft) : Prop := Laid body (draft.tokens [])

/-- The bytes are a strict text: one tree, with blanks around it. -/
def SpellsTree (body : List UInt8) (tree : Tree) : Prop := Spells body tree.draft

/-! ## Tokens apart -/

def Token.isNumber : Token → Bool
  | .number _ => true
  | _ => false

/-- No number stands directly before another. -/
def NumbersApart : List Token → Prop
  | [] => True
  | [_] => True
  | first :: second :: tokens =>
      (first.isNumber = true → second.isNumber = false) ∧ NumbersApart (second :: tokens)

/-- Tokens that may stand behind a number: their first, if there is one, is none. -/
def StartsApart (tokens : List Token) : Prop :=
  ∀ token after, tokens = token :: after → token.isNumber = false

theorem NumbersApart.cons_of_not_number {token : Token} {tokens : List Token}
    (other : token.isNumber = false) (apart : NumbersApart tokens) :
    NumbersApart (token :: tokens) := by
  cases tokens with
  | nil => trivial
  | cons second tokens => exact ⟨fun isNumber => by simp [other] at isNumber, apart⟩

theorem NumbersApart.cons_of_startsApart {token : Token} {tokens : List Token}
    (starts : StartsApart tokens) (apart : NumbersApart tokens) :
    NumbersApart (token :: tokens) := by
  cases tokens with
  | nil => trivial
  | cons second tokens => exact ⟨fun _ => starts second tokens rfl, apart⟩

theorem NumbersApart.tail {token : Token} {tokens : List Token}
    (apart : NumbersApart (token :: tokens)) : NumbersApart tokens := by
  cases tokens with
  | nil => trivial
  | cons second tokens => exact apart.2

theorem startsApart_moreItems (values : List Draft) (rest : List Token) :
    StartsApart (Draft.moreItems values rest) := by
  rintro token after same
  cases values <;> cases same <;> rfl

theorem startsApart_moreMembers (fields : List (Option String × Draft)) (rest : List Token) :
    StartsApart (Draft.moreMembers fields rest) := by
  rintro token after same
  rcases fields with _ | ⟨⟨key, value⟩, fields⟩ <;> cases same <;> rfl

mutual

/-- Inside a draft a mark follows each number. -/
theorem numbersApart_tokens : (draft : Draft) → {rest : List Token} → StartsApart rest →
    NumbersApart rest → NumbersApart (draft.tokens rest)
  | .null, _, _, apart => apart.cons_of_not_number rfl
  | .bool _, _, _, apart => apart.cons_of_not_number rfl
  | .number _, _, starts, apart => apart.cons_of_startsApart starts
  | .text _, _, _, apart => apart.cons_of_not_number rfl
  | .items [], _, _, apart => (apart.cons_of_not_number rfl).cons_of_not_number rfl
  | .items (value :: values), _, _, apart =>
      (numbersApart_tokens value (startsApart_moreItems values _)
        (numbersApart_moreItems values apart)).cons_of_not_number rfl
  | .members [], _, _, apart => (apart.cons_of_not_number rfl).cons_of_not_number rfl
  | .members ((_, value) :: fields), _, _, apart =>
      (((numbersApart_tokens value (startsApart_moreMembers fields _)
        (numbersApart_moreMembers fields apart)).cons_of_not_number rfl).cons_of_not_number
          rfl).cons_of_not_number rfl

theorem numbersApart_moreItems : (values : List Draft) → {rest : List Token} →
    NumbersApart rest → NumbersApart (Draft.moreItems values rest)
  | [], _, apart => apart.cons_of_not_number rfl
  | value :: values, _, apart =>
      (numbersApart_tokens value (startsApart_moreItems values _)
        (numbersApart_moreItems values apart)).cons_of_not_number rfl

theorem numbersApart_moreMembers : (fields : List (Option String × Draft)) → {rest : List Token} →
    NumbersApart rest → NumbersApart (Draft.moreMembers fields rest)
  | [], _, apart => apart.cons_of_not_number rfl
  | (_, value) :: fields, _, apart =>
      (((numbersApart_tokens value (startsApart_moreMembers fields _)
        (numbersApart_moreMembers fields apart)).cons_of_not_number rfl).cons_of_not_number
          rfl).cons_of_not_number rfl

end

/-! ## One token -/

theorem NumeralForm.head {spelled : List UInt8} {numeral : Numeral}
    (form : NumeralForm spelled numeral) :
    ∃ b tail, spelled = b :: tail ∧ (b = 0x2D ∨ isDigit b = true) := by
  cases form with
  | plain wholeForm _ _ =>
      cases wholeForm with
      | zero => exact ⟨_, _, rfl, Or.inr rfl⟩
      | digits run _ => exact ⟨_, _, rfl, Or.inr (run.allDigits _ List.mem_cons_self)⟩
  | minus _ _ _ => exact ⟨_, _, rfl, Or.inl rfl⟩

/-- The bytes that may begin a number are no marks. -/
theorem cut_of_numeralStart {b : UInt8} (starts : b = 0x2D ∨ isDigit b = true)
    (rest : List UInt8) : cut b rest = cutNumber (b :: rest) := by
  have noMark : b ≠ 0x5B ∧ b ≠ 0x5D ∧ b ≠ 0x7B ∧ b ≠ 0x7D ∧ b ≠ 0x2C ∧ b ≠ 0x3A ∧ b ≠ 0x22 := by
    refine ⟨?_, ?_, ?_, ?_, ?_, ?_, ?_⟩ <;> rintro rfl <;> exact absurd starts (by decide)
  obtain ⟨h₁, h₂, h₃, h₄, h₅, h₆, h₇⟩ := noMark
  rw [cut, if_neg h₁, if_neg h₂, if_neg h₃, if_neg h₄, if_neg h₅, if_neg h₆, if_neg h₇,
    if_pos (by simpa using starts)]

theorem isBlankByte_of_numeralStart {b : UInt8} (starts : b = 0x2D ∨ isDigit b = true) :
    isBlankByte b = false := by
  rw [← Bool.not_eq_true]
  intro blank
  have isOne : b = 0x20 ∨ b = 0x0A ∨ b = 0x09 ∨ b = 0x0D := by
    simpa [isBlankByte, or_assoc] using blank
  rcases isOne with rfl | rfl | rfl | rfl <;> exact absurd starts (by decide)

theorem cutText_of_strict {bs rest : List UInt8} {content : String}
    (strict : StrictText bs content rest) : cutText bs = .token (.text (some content)) rest := by
  rw [cutText, skipText_eq_ok_iff.mpr strict.loose]
  simp only [readText_eq_ok_iff.mpr strict]

theorem cutText_of_loose {bs rest : List UInt8} (loose : LooseText bs rest)
    (lacks : LacksContent bs rest) :
    cutText bs = .token (.text none) rest := by
  rw [cutText, skipText_eq_ok_iff.mpr loose]
  cases read : readText bs with
  | error stop => rfl
  | ok pair =>
      obtain ⟨content, after⟩ := pair
      have strict := readText_eq_ok_iff.mp read
      have sameRest := (skipText_eq_ok_iff.mpr strict.loose).symm.trans
        (skipText_eq_ok_iff.mpr loose)
      cases sameRest
      exact absurd strict (lacksContent_iff.mp lacks content)

theorem tokenForm_of_cutText {bs rest : List UInt8} {token : Token}
    (step : cutText bs = .token token rest) : TokenForm (0x22 :: bs) token rest := by
  rw [cutText] at step
  split at step
  · rename_i after skipped
    have loose := skipText_eq_ok_iff.mp skipped
    cases step
    split
    · rename_i content behind read
      have strict := readText_eq_ok_iff.mp read
      have sameRest := (skipText_eq_ok_iff.mpr strict.loose).symm.trans skipped
      cases sameRest
      exact .strictText strict
    · rename_i stop read
      refine .looseText loose (lacksContent_iff.mpr fun content strict => ?_)
      rw [readText_eq_ok_iff.mpr strict] at read
      cases read
  · cases step

/-- The bytes of a token are cut off as that token. A number must end where it does. -/
theorem TokenForm.cut {bs rest : List UInt8} {token : Token} (form : TokenForm bs token rest)
    (leaves : token.isNumber = Bool.true → LeavesNumber rest) :
    ∃ b tail, bs = b :: tail ∧ isBlankByte b = Bool.false ∧
      Json.cut b tail = .token token rest := by
  cases form with
  | number numeralForm =>
      obtain ⟨b, tail, rfl, starts⟩ := numeralForm.head
      refine ⟨b, tail ++ rest, rfl, isBlankByte_of_numeralStart starts, ?_⟩
      rw [cut_of_numeralStart starts, cutNumber, ← List.cons_append,
        readNumeral_of_form numeralForm (leaves rfl)]
  | strictText strict => exact ⟨_, _, rfl, rfl, cutText_of_strict strict⟩
  | looseText loose lacks => exact ⟨_, _, rfl, rfl, cutText_of_loose loose lacks⟩
  | _ => exact ⟨_, _, rfl, rfl, rfl⟩

theorem readLetters_eq_ok {letters bs rest : List UInt8}
    (read : readLetters letters bs = .ok rest) :
    bs = letters ++ rest := by
  induction letters generalizing bs with
  | nil =>
      cases read
      rfl
  | cons letter letters inductionHypothesis =>
      cases bs with
      | nil => cases read
      | cons b bs =>
          rw [readLetters] at read
          split at read
          · rename_i same
            rw [same, inductionHypothesis read]
            rfl
          · cases read

theorem cutLiteral_eq_token {literal token : Token} {letters rest after : List UInt8}
    (step : cutLiteral literal letters rest = .token token after) :
    token = literal ∧ rest = letters ++ after := by
  rw [cutLiteral] at step
  split at step
  · rename_i tail read
    cases step
    exact ⟨rfl, readLetters_eq_ok read⟩
  · cases step

theorem tokenForm_of_cutNumber {bs rest : List UInt8} {token : Token}
    (step : cutNumber bs = .token token rest) : TokenForm bs token rest := by
  rw [cutNumber] at step
  split at step
  · rename_i numeral after read
    cases step
    obtain ⟨spelled, rfl, form⟩ := form_of_readNumeral read
    exact .number form
  · cases step

/-- What is cut off has the bytes of its token. -/
theorem tokenForm_of_cut {b : UInt8} {rest after : List UInt8} {token : Token}
    (step : cut b rest = .token token after) : TokenForm (b :: rest) token after := by
  rw [cut] at step
  by_cases opensItems : b = 0x5B
  · rw [if_pos opensItems] at step
    cases step
    exact opensItems ▸ .openItems
  rw [if_neg opensItems] at step
  by_cases closesItems : b = 0x5D
  · rw [if_pos closesItems] at step
    cases step
    exact closesItems ▸ .closeItems
  rw [if_neg closesItems] at step
  by_cases opensMembers : b = 0x7B
  · rw [if_pos opensMembers] at step
    cases step
    exact opensMembers ▸ .openMembers
  rw [if_neg opensMembers] at step
  by_cases closesMembers : b = 0x7D
  · rw [if_pos closesMembers] at step
    cases step
    exact closesMembers ▸ .closeMembers
  rw [if_neg closesMembers] at step
  by_cases comma : b = 0x2C
  · rw [if_pos comma] at step
    cases step
    exact comma ▸ .comma
  rw [if_neg comma] at step
  by_cases colon : b = 0x3A
  · rw [if_pos colon] at step
    cases step
    exact colon ▸ .colon
  rw [if_neg colon] at step
  by_cases quote : b = 0x22
  · rw [if_pos quote] at step
    exact quote ▸ tokenForm_of_cutText step
  rw [if_neg quote] at step
  by_cases number : (b = 0x2D || isDigit b) = Bool.true
  · rw [if_pos number] at step
    exact tokenForm_of_cutNumber step
  rw [if_neg number] at step
  by_cases isNull : b = 0x6E
  · rw [if_pos isNull] at step
    obtain ⟨rfl, rfl⟩ := cutLiteral_eq_token step
    exact isNull ▸ .null
  rw [if_neg isNull] at step
  by_cases isTrue : b = 0x74
  · rw [if_pos isTrue] at step
    obtain ⟨rfl, rfl⟩ := cutLiteral_eq_token step
    exact isTrue ▸ .true
  rw [if_neg isTrue] at step
  by_cases isFalse : b = 0x66
  · rw [if_pos isFalse] at step
    obtain ⟨rfl, rfl⟩ := cutLiteral_eq_token step
    exact isFalse ▸ .false
  rw [if_neg isFalse] at step
  cases step

/-! ## The scanner -/

theorem scan_nil : scan [] = ⟨[], .finished⟩ := by
  rw [scan]
  rfl

theorem skipBlanks_cons_of_blank {b : UInt8} {bs : List UInt8} (blank : isBlankByte b = true) :
    skipBlanks (b :: bs) = skipBlanks bs := by
  simp [skipBlanks, blank]

theorem skipBlanks_cons_of_visible {b : UInt8} {bs : List UInt8} (visible : isBlankByte b = false) :
    skipBlanks (b :: bs) = b :: bs := by
  simp [skipBlanks, visible]

theorem scan_blank {b : UInt8} {bs : List UInt8} (blank : isBlankByte b = true) :
    scan (b :: bs) = scan bs := by
  rw [scan, scan, skipBlanks_cons_of_blank blank]

theorem scan_token {b : UInt8} {rest after : List UInt8} {token : Token}
    (visible : isBlankByte b = false) (step : cut b rest = .token token after) :
    scan (b :: rest) = ⟨token :: (scan after).tokens, (scan after).ending⟩ := by
  rw [scan, skipBlanks_cons_of_visible visible]
  simp only
  rw [step]

/-- The bytes behind a number in a layout do not go on with it, if no number comes next. -/
theorem Laid.leavesNumber {bs : List UInt8} {tokens : List Token} (laid : Laid bs tokens)
    (starts : StartsApart tokens) : LeavesNumber bs := by
  cases laid with
  | finished => rintro b after same; cases same
  | @blank b bs _ blank _ =>
      have leaves : ∀ b : UInt8, isBlankByte b = true →
          isDigit b = false ∧ b ≠ 0x2E ∧ b ≠ 0x65 ∧ b ≠ 0x45 :=
        Text.Utf8.forall_byte (by decide +kernel)
      rintro c after same
      cases same
      exact leaves b blank
  | token form _ =>
      have other := starts _ _ rfl
      intro b after same
      cases form with
      | number _ => cases other
      | _ => cases same; decide

/-- The scanner finds the tokens of a layout. -/
theorem Laid.scan {bs : List UInt8} {tokens : List Token} (laid : Laid bs tokens)
    (apart : NumbersApart tokens) : Json.scan bs = ⟨tokens, .finished⟩ := by
  induction laid with
  | finished => exact scan_nil
  | blank blank _ inductionHypothesis => rw [scan_blank blank, inductionHypothesis apart]
  | @token bs rest token tokens form laid inductionHypothesis =>
      -- A number is cut off as far as it goes, so the next token must not go on with it.
      have leaves : token.isNumber = Bool.true → LeavesNumber rest := by
        intro isNumber
        apply laid.leavesNumber
        rintro second after rfl
        exact apart.1 isNumber
      obtain ⟨b, tail, rfl, visible, step⟩ := form.cut leaves
      rw [scan_token visible step, inductionHypothesis apart.tail]

theorem Laid.of_skipBlanks {bs : List UInt8} {tokens : List Token}
    (laid : Laid (skipBlanks bs) tokens) : Laid bs tokens := by
  induction bs with
  | nil => exact laid
  | cons b bs inductionHypothesis =>
      by_cases blank : isBlankByte b = Bool.true
      · rw [skipBlanks_cons_of_blank blank] at laid
        exact .blank blank (inductionHypothesis laid)
      · rw [skipBlanks_cons_of_visible (eq_false_of_ne_true blank)] at laid
        exact laid

/-- What the scanner finds up to the end is a layout. -/
theorem laid_of_scan {bs : List UInt8} {tokens : List Token}
    (scanned : scan bs = ⟨tokens, .finished⟩) : Laid bs tokens := by
  fun_induction Json.scan bs generalizing tokens with
  | case1 bs skipped =>
      cases scanned
      exact .of_skipBlanks (skipped ▸ .finished)
  | case2 bs b rest skipped token after step tail =>
      rename_i inductionHypothesis
      obtain ⟨rfl, ended⟩ := Scan.mk.inj scanned
      have laid : Laid after tail.tokens := inductionHypothesis (by rw [← ended])
      exact .of_skipBlanks (skipped ▸ .token (tokenForm_of_cut step) laid)
  | case3 => cases scanned

/-- A text is spelled by the bytes in which the scanner finds its tokens and nothing else. -/
theorem spells_iff_scan {body : List UInt8} {draft : Draft} :
    Spells body draft ↔ scan body = ⟨draft.tokens [], .finished⟩ :=
  ⟨fun spelled => spelled.scan (numbersApart_tokens draft nofun trivial), laid_of_scan⟩

/-- Bytes spell one draft at most. -/
theorem Spells.unique {body : List UInt8} {first second : Draft} (isFirst : Spells body first)
    (isSecond : Spells body second) : first = second := by
  have same := (spells_iff_scan.mp isFirst).symm.trans (spells_iff_scan.mp isSecond)
  exact (Draft.tokens_inj first second (Scan.mk.inj same).1).1

/-- Bytes are the strict text of one tree at most. -/
theorem SpellsTree.unique {body : List UInt8} {first second : Tree}
    (isFirst : SpellsTree body first) (isSecond : SpellsTree body second) : first = second :=
  Tree.draft_injective (Spells.unique isFirst isSecond)

end DualStore.Json
