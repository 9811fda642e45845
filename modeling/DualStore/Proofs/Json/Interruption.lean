import DualStore.Proofs.Json.NumeralPiece

/-!
Contract: the tokens of a text that ends early.

Owns:
- the relation between the tokens of a text and those found in a piece of it: up to some place they
  are the same, and there the text ends between two tokens, inside a token, or behind a number that
  is shorter than the one it is a piece of;
- the scanner finds such tokens in every piece that ends before the last byte that is no blank;
- a piece of a list or of an object is neither.

Does not own: what the readers of records make of the tokens.
-/

namespace DualStore.Json

/-! ## One token -/

namespace Token

def isMark : Token → Bool
  | .openItems | .closeItems | .openMembers | .closeMembers | .comma | .colon => true
  | _ => false

def isScalar : Token → Bool
  | .number _ | .null | .bool _ => true
  | _ => false

/-- A text that ends so may have ended before the token or inside of it. More text could mend the
problem, unless the token is a text that has no content anyway. -/
inductive Lost : Token → Ending → Prop where
  | before {token : Token} : Lost token .finished
  | insideText {content : Option String} {kept skipped : Problem} :
      (content.isSome = true → kept.isTruncation = true) →
      Lost (.text content) (.cut .quotedText kept skipped)
  | insideScalar {token : Token} {kept skipped : Problem} : token.isScalar = true →
      kept.isTruncation = true → Lost token (.cut .scalar kept skipped)

theorem other_of_isMark {token : Token} (mark : token.isMark = true) :
    token.isScalar = false ∧ token.isNumber = false := by
  cases token with
  | text content => cases mark
  | number value => cases mark
  | null => cases mark
  | bool value => cases mark
  | _ => exact ⟨rfl, rfl⟩

/-- No mark is cut. -/
theorem Lost.finished {token : Token} {ending : Ending} (lost : token.Lost ending)
    (mark : token.isMark = true) : ending = .finished := by
  cases lost with
  | before => rfl
  | insideText _ => cases mark
  | insideScalar scalar _ =>
      rw [(other_of_isMark mark).1] at scalar
      cases scalar

end Token

/-- What the scanner cuts off where the end of the text cuts a token short. -/
inductive CutShort (token : Token) : Cut → Prop where
  | fault {begun : Begun} {kept skipped : Problem} : token.Lost (.cut begun kept skipped) →
      CutShort token (.fault begun kept skipped)
  | number {full found : Option Value} : token = .number full → Shortens full found →
      CutShort token (.token (.number found) [])

section Pieces

variable {piece missing lost bs rest : List UInt8} {b : UInt8} {token : Token}

/-! ### Literals -/

theorem readLetters_of_cut (isCut : lost ≠ []) :
    readLetters (piece ++ lost) piece = .error ⟨.unfinishedValue, []⟩ := by
  induction piece with
  | nil =>
      cases lost with
      | nil => exact absurd rfl isCut
      | cons letter lost => rfl
  | cons letter piece inductionHypothesis =>
      rw [List.cons_append, readLetters, if_pos rfl]
      exact inductionHypothesis

/-- The letters of a literal are there, or its reader misses the last of them. -/
theorem cutLiteral_cases {letters : List UInt8} (scalar : token.isScalar = true)
    (same : letters ++ rest = piece ++ missing) :
    (∃ more, piece = letters ++ more ∧ rest = more ++ missing) ∨
      CutShort token (cutLiteral token letters piece) := by
  rcases append_eq_append_cases same with inside | ⟨lost, isCut, rfl⟩
  · exact Or.inl inside
  · rw [cutLiteral, readLetters_of_cut isCut]
    exact Or.inr (.fault (.insideScalar scalar rfl))

/-! ### Quoted texts -/

/-- A quoted text with content is there, or its end is missing. -/
theorem cutText_strict_cases {content : String}
    (strict : StrictText (piece ++ missing) content rest) :
    (∃ more, StrictText piece content more ∧ rest = more ++ missing) ∨
      CutShort (.text (some content)) (cutText piece) := by
  rcases PairedText.cases_of_append strict rfl with inside | unfinished
  · exact Or.inl inside
  · have strictly : readText piece = .error ⟨.unfinishedText, []⟩ := by
      rw [readText, unfinished.strictly]
    rw [cutText, unfinished.breaksOff, strictly]
    exact Or.inr (.fault (.insideText fun _ => rfl))

/-- A quoted text without content is there, or its end is missing. -/
theorem cutText_loose_cases (loose : LooseText (piece ++ missing) rest)
    (lacks : LacksContent (piece ++ missing) rest) :
    (∃ more, (LooseText piece more ∧ LacksContent piece more) ∧ rest = more ++ missing) ∨
      CutShort (.text none) (cutText piece) := by
  rcases loose.cases_of_append rfl with ⟨more, inside, rfl⟩ | breaks
  · exact Or.inl ⟨more, ⟨inside, lacks.of_append⟩, rfl⟩
  · rw [cutText, breaks]
    exact Or.inr (.fault (.insideText (by simp)))

/-! ### Numbers -/

/-- A number is there, or a shorter one, or its end is missing. -/
theorem cutNumber_cases {spelled : List UInt8} {numeral : Numeral}
    (form : NumeralForm spelled numeral) (same : spelled ++ rest = b :: piece ++ missing) :
    (∃ more, b :: piece = spelled ++ more ∧ rest = more ++ missing) ∨
      CutShort (.number numeral.value?) (cutNumber (b :: piece)) := by
  rcases append_eq_append_cases same with inside | ⟨lost, isCut, rfl⟩
  · exact Or.inl inside
  · rw [cutNumber]
    rcases form.cases_of_append (List.cons_ne_nil b piece) isCut with
      stops | ⟨shorter, reads, shortens⟩
    · rw [stops]
      exact Or.inr (.fault (.insideScalar rfl rfl))
    · rw [reads]
      exact Or.inr (.number rfl shortens)

/-! ### All tokens -/

theorem TokenForm.visible (form : TokenForm (b :: bs) token rest) : isBlankByte b = Bool.false := by
  generalize isBytes : b :: bs = bytes at form
  cases form with
  | number numeralForm =>
      obtain ⟨first, tail, rfl, starts⟩ := numeralForm.head
      rw [(List.cons.inj isBytes).1]
      exact isBlankByte_of_numeralStart starts
  | _ =>
      rw [(List.cons.inj isBytes).1]
      rfl

/-- A token is there as a whole, or it is cut short. -/
theorem TokenForm.cases_of_append (form : TokenForm (b :: piece ++ missing) token rest) :
    (∃ more, TokenForm (b :: piece) token more ∧ rest = more ++ missing) ∨
      CutShort token (Json.cut b piece) := by
  generalize isBytes : b :: piece ++ missing = bytes at form
  cases form with
  | @number spelled _ numeral numeralForm =>
      obtain ⟨first, tail, isSpelled, starts⟩ := numeralForm.head
      have isFirst : b = first := by
        rw [isSpelled] at isBytes
        exact (List.cons.inj isBytes).1
      rw [cut_of_numeralStart (isFirst ▸ starts)]
      rcases cutNumber_cases numeralForm isBytes.symm with ⟨more, isPiece, isRest⟩ | short
      · rw [isPiece]
        exact Or.inl ⟨more, .number numeralForm, isRest⟩
      · exact Or.inr short
  | strictText strict =>
      obtain ⟨rfl, rfl⟩ := List.cons.inj isBytes
      rcases cutText_strict_cases strict with ⟨more, strict, isRest⟩ | short
      · exact Or.inl ⟨more, .strictText strict, isRest⟩
      · exact Or.inr short
  | looseText loose lacks =>
      obtain ⟨rfl, rfl⟩ := List.cons.inj isBytes
      rcases cutText_loose_cases loose lacks with ⟨more, ⟨loose, lacks⟩, isRest⟩ | short
      · exact Or.inl ⟨more, .looseText loose lacks, isRest⟩
      · exact Or.inr short
  | null =>
      obtain ⟨rfl, behind⟩ := List.cons.inj isBytes
      have letters : [0x75, 0x6C, 0x6C] ++ rest = piece ++ missing := behind.symm
      rcases cutLiteral_cases (rfl : Token.null.isScalar = _) letters with
        ⟨more, rfl, isRest⟩ | short
      · exact Or.inl ⟨more, .null, isRest⟩
      · exact Or.inr short
  | true =>
      obtain ⟨rfl, behind⟩ := List.cons.inj isBytes
      have letters : [0x72, 0x75, 0x65] ++ rest = piece ++ missing := behind.symm
      rcases cutLiteral_cases (rfl : (Token.bool Bool.true).isScalar = _) letters with
        ⟨more, rfl, isRest⟩ | short
      · exact Or.inl ⟨more, .true, isRest⟩
      · exact Or.inr short
  | false =>
      obtain ⟨rfl, behind⟩ := List.cons.inj isBytes
      have letters : [0x61, 0x6C, 0x73, 0x65] ++ rest = piece ++ missing := behind.symm
      rcases cutLiteral_cases (rfl : (Token.bool Bool.false).isScalar = _) letters with
        ⟨more, rfl, isRest⟩ | short
      · exact Or.inl ⟨more, .false, isRest⟩
      · exact Or.inr short
  | openItems | closeItems | openMembers | closeMembers | comma | colon =>
      obtain ⟨rfl, rfl⟩ := List.cons.inj isBytes
      exact Or.inl ⟨piece, by constructor, rfl⟩

end Pieces

/-! ## All tokens of a text -/

/-- The tokens of a text against those found in a piece of it: the first ones are the same, and
then a token is lost, or a shorter number stands at the end in place of a number. -/
inductive Interrupted : List Token → List Token → Ending → Prop where
  | lost {token : Token} {tokens : List Token} {ending : Ending} : token.Lost ending →
      Interrupted (token :: tokens) [] ending
  | shortened {full found : Option Value} {next : Token} {tokens : List Token} :
      Shortens full found → Interrupted (.number full :: next :: tokens) [.number found] .finished
  | behind {token : Token} {tokens found : List Token} {ending : Ending} :
      Interrupted tokens found ending → Interrupted (token :: tokens) (token :: found) ending

section Inversion

variable {token : Token} {tokens found : List Token} {ending : Ending}

/-- Where no number stands, a token is lost or found. -/
theorem Interrupted.lost_or_found (interrupted : Interrupted (token :: tokens) found ending)
    (other : token.isNumber = false) :
    (found = [] ∧ token.Lost ending) ∨
      ∃ more, found = token :: more ∧ Interrupted tokens more ending := by
  cases interrupted with
  | lost lost => exact Or.inl ⟨rfl, lost⟩
  | shortened _ => cases other
  | behind later => exact Or.inr ⟨_, rfl, later⟩

/-- A mark is found, or the text has ended in front of it. -/
theorem Interrupted.mark_cases (interrupted : Interrupted (token :: tokens) found ending)
    (mark : token.isMark = true) :
    (found = [] ∧ ending = .finished) ∨
      ∃ more, found = token :: more ∧ Interrupted tokens more ending := by
  rcases interrupted.lost_or_found (Token.other_of_isMark mark).2 with ⟨nothing, lost⟩ | behind
  · exact Or.inl ⟨nothing, lost.finished mark⟩
  · exact Or.inr behind

/-- The last token of a text is not found. -/
theorem Interrupted.last (interrupted : Interrupted [token] found ending)
    (mark : token.isMark = true) : found = [] ∧ ending = .finished := by
  rcases interrupted.mark_cases mark with nothing | ⟨_, _, later⟩
  · exact nothing
  · cases later

/-- What is found where a mark stands is what stands there. -/
theorem Interrupted.eq_of_mark {mark : Token}
    (interrupted : Interrupted (token :: tokens) (mark :: found) ending)
    (isMark : mark.isMark = true) : mark = token := by
  cases interrupted with
  | shortened _ => cases isMark
  | behind _ => rfl

end Inversion

section Scanner

variable {piece missing bs : List UInt8} {tokens : List Token}

theorem scan_fault {b : UInt8} {begun : Begun} {kept skipped : Problem}
    (visible : isBlankByte b = false) (step : cut b bs = .fault begun kept skipped) :
    scan (b :: bs) = ⟨[], .cut begun kept skipped⟩ := by
  rw [scan, skipBlanks_cons_of_visible visible]
  simp only
  rw [step]

/-- A byte that is no blank belongs to a token. -/
theorem Laid.ne_nil (laid : Laid bs tokens) (visible : ∃ b ∈ bs, isBlankByte b = false) :
    tokens ≠ [] := by
  induction laid with
  | finished =>
      obtain ⟨_, member, _⟩ := visible
      cases member
  | blank blank _ inductionHypothesis =>
      obtain ⟨c, member, isVisible⟩ := visible
      rcases List.mem_cons.mp member with rfl | later
      · rw [blank] at isVisible
        cases isVisible
      · exact inductionHypothesis ⟨c, later, isVisible⟩
  | token _ _ => exact List.cons_ne_nil _ _

theorem LeavesNumber.of_append (leaves : LeavesNumber (piece ++ missing)) : LeavesNumber piece := by
  rintro b after rfl
  exact leaves b (after ++ missing) rfl

/-- The scanner finds the tokens of a text in a piece of it, up to the place where it ends. -/
theorem Laid.interrupted (laid : Laid (piece ++ missing) tokens)
    (visible : ∃ b ∈ missing, isBlankByte b = false) (apart : NumbersApart tokens)
    (closed : ∀ front value, tokens ≠ front ++ [.number value]) :
    Interrupted tokens (Json.scan piece).tokens (Json.scan piece).ending := by
  generalize isText : piece ++ missing = bs at laid
  -- Of a text that has ended before its first byte no token is found, but one is lost.
  have before : ∀ {bs : List UInt8} {tokens : List Token}, Laid bs tokens → bs = missing →
      Interrupted tokens (Json.scan []).tokens (Json.scan []).ending := by
    intro bs tokens laid isMissing
    have someToken := laid.ne_nil (isMissing ▸ visible)
    rw [scan_nil]
    cases tokens with
    | nil => exact absurd rfl someToken
    | cons token tokens => exact .lost .before
  induction laid generalizing piece with
  | finished =>
      obtain ⟨_, member, _⟩ := visible
      rw [(List.append_eq_nil_iff.mp isText).2] at member
      cases member
  | @blank b bs tokens blank laid inductionHypothesis =>
      cases piece with
      | nil => exact before (.blank blank laid) isText.symm
      | cons c piece =>
          obtain ⟨rfl, isRest⟩ := List.cons.inj isText
          rw [scan_blank blank]
          exact inductionHypothesis apart closed isRest
  | @token bs rest token tokens form laid inductionHypothesis =>
      cases piece with
      | nil => exact before (.token form laid) isText.symm
      | cons b piece =>
          subst isText
          have isVisible := form.visible
          rcases form.cases_of_append with ⟨more, inside, rfl⟩ | short
          · have leaves : token.isNumber = Bool.true → LeavesNumber more := by
              intro isNumber
              refine (laid.leavesNumber ?_).of_append
              rintro second after rfl
              exact apart.1 isNumber
            obtain ⟨_, _, same, _, step⟩ := inside.cut leaves
            cases same
            rw [scan_token isVisible step]
            exact .behind (inductionHypothesis apart.tail
              (fun front value same => closed (token :: front) value (by rw [same]; rfl)) rfl)
          · generalize step : cut b piece = found at short
            cases short with
            | fault lost =>
                rw [scan_fault isVisible step]
                exact .lost lost
            | number isNumber shortens =>
                rw [scan_token isVisible step, scan_nil, isNumber]
                cases tokens with
                | nil => exact absurd (congrArg (fun t => [t]) isNumber) (closed [] _)
                | cons next tokens => exact .shortened shortens

end Scanner

/-! ## Pieces of lists and objects -/

namespace Draft

mutual

/-- A draft is in front of what follows it. -/
theorem tokens_append : (draft : Draft) → (rest more : List Token) →
    draft.tokens (rest ++ more) = draft.tokens rest ++ more
  | .null, _, _ => rfl
  | .bool _, _, _ => rfl
  | .number _, _, _ => rfl
  | .text _, _, _ => rfl
  | .items [], _, _ => rfl
  | .items (value :: values), rest, more => by
      rw [tokens, tokens, moreItems_append, tokens_append value]
      rfl
  | .members [], _, _ => rfl
  | .members ((_, value) :: fields), rest, more => by
      rw [tokens, tokens, moreMembers_append, tokens_append value]
      rfl

theorem moreItems_append : (values : List Draft) → (rest more : List Token) →
    moreItems values (rest ++ more) = moreItems values rest ++ more
  | [], _, _ => rfl
  | value :: values, rest, more => by
      rw [moreItems, moreItems, moreItems_append values, tokens_append value]
      rfl

theorem moreMembers_append : (fields : List (Option String × Draft)) → (rest more : List Token) →
    moreMembers fields (rest ++ more) = moreMembers fields rest ++ more
  | [], _, _ => rfl
  | (_, value) :: fields, rest, more => by
      rw [moreMembers, moreMembers, moreMembers_append fields, tokens_append value]
      rfl

end

/-- A list or an object. -/
def isNested : Draft → Bool
  | .items _ | .members _ => true
  | _ => false

/-- The items behind the first end with the list. -/
theorem moreItems_ends (values : List Draft) :
    ∃ front, moreItems values [] = front ++ [.closeItems] := by
  induction values with
  | nil => exact ⟨[], rfl⟩
  | cons value values inductionHypothesis =>
      obtain ⟨front, same⟩ := inductionHypothesis
      refine ⟨.comma :: value.tokens front, ?_⟩
      rw [moreItems, same, tokens_append]
      rfl

theorem moreMembers_ends (fields : List (Option String × Draft)) :
    ∃ front, moreMembers fields [] = front ++ [.closeMembers] := by
  induction fields with
  | nil => exact ⟨[], rfl⟩
  | cons field fields inductionHypothesis =>
      obtain ⟨key, value⟩ := field
      obtain ⟨front, same⟩ := inductionHypothesis
      refine ⟨.comma :: .text key :: .colon :: value.tokens front, ?_⟩
      rw [moreMembers, same, tokens_append]
      rfl

/-- A list or an object ends with a mark. -/
theorem exists_end {draft : Draft} (nested : draft.isNested = true) :
    ∃ front last, draft.tokens [] = front ++ [last] ∧ last.isMark = true := by
  cases draft with
  | items values =>
      cases values with
      | nil => exact ⟨[.openItems], .closeItems, rfl, rfl⟩
      | cons value values =>
          obtain ⟨front, same⟩ := moreItems_ends values
          refine ⟨.openItems :: value.tokens front, .closeItems, ?_, rfl⟩
          rw [tokens, same, tokens_append]
          rfl
  | members fields =>
      rcases fields with _ | ⟨⟨key, value⟩, fields⟩
      · exact ⟨[.openMembers], .closeMembers, rfl, rfl⟩
      · obtain ⟨front, same⟩ := moreMembers_ends fields
        refine ⟨.openMembers :: .text key :: .colon :: value.tokens front, .closeMembers, ?_, rfl⟩
        rw [tokens, same, tokens_append]
        rfl
  | _ => cases nested

theorem ne_append_number {draft : Draft} (nested : draft.isNested = true) (front : List Token)
    (value : Option Value) : draft.tokens [] ≠ front ++ [.number value] := by
  intro same
  obtain ⟨others, last, ends, mark⟩ := exists_end nested
  rw [ends] at same
  obtain ⟨_, isLast⟩ := List.append_inj' same rfl
  cases isLast
  cases mark

end Draft

/-- Where nothing is found but tokens, one is lost behind them, or the last is a number. -/
theorem Interrupted.of_finished {tokens found : List Token}
    (interrupted : Interrupted tokens found .finished) :
    (∃ next more, tokens = found ++ next :: more) ∨
      ∃ front value, found = front ++ [.number value] := by
  generalize ended : Ending.finished = ending at interrupted
  induction interrupted with
  | lost _ => exact Or.inl ⟨_, _, rfl⟩
  | shortened _ => exact Or.inr ⟨[], _, rfl⟩
  | @behind token tokens found ending _ inductionHypothesis =>
      rcases inductionHypothesis ended with ⟨next, more, same⟩ | ⟨front, value, same⟩
      · exact Or.inl ⟨next, more, congrArg (token :: ·) same⟩
      · exact Or.inr ⟨token :: front, value, congrArg (token :: ·) same⟩

section Texts

variable {piece missing : List UInt8} {draft other : Draft}

/-- The scanner finds the tokens of a list or an object in a piece of its text, up to the place
where the piece ends. -/
theorem Spells.interrupted (spelled : Spells (piece ++ missing) draft)
    (visible : ∃ b ∈ missing, isBlankByte b = false) (nested : draft.isNested = true) :
    Interrupted (draft.tokens []) (scan piece).tokens (scan piece).ending :=
  Laid.interrupted spelled visible (numbersApart_tokens draft nofun trivial)
    (Draft.ne_append_number nested)

/-- No list and no object is spelled by a piece of another. -/
theorem Spells.not_piece (spelled : Spells (piece ++ missing) draft)
    (visible : ∃ b ∈ missing, isBlankByte b = false) (nested : draft.isNested = true)
    (alsoNested : other.isNested = true) : ¬ Spells piece other := by
  intro alsoSpelled
  have interrupted := spelled.interrupted visible nested
  rw [spells_iff_scan.mp alsoSpelled] at interrupted
  rcases interrupted.of_finished with ⟨next, more, same⟩ | ⟨front, value, same⟩
  · have inFront : draft.tokens [] = other.tokens (next :: more) := by
      rw [same, ← Draft.tokens_append]
      rfl
    cases (Draft.tokens_inj draft other inFront).2
  · exact Draft.ne_append_number alsoNested front value same

end Texts

end DualStore.Json
