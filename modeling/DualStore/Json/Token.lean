import DualStore.Json.Lexeme

/-!
Contract: a JSON text as the list of its tokens, with the way the text ends.

Owns:
- the tokens, where a quoted text that only the lenient reading accepts carries no content, and a
  number out of range carries no value;
- the ending, which tells what kind of token was begun when the text could not be cut further,
  and what that means to a reader that keeps the token and to one that skips it.

Does not own: the order in which tokens may stand. A token that its reader does not look at has
no say in the outcome, so the first problem met from the left decides.
-/

namespace DualStore.Json

inductive Token where
  | openItems
  | closeItems
  | openMembers
  | closeMembers
  | comma
  | colon
  | text (content : Option String)
  | number (value : Option Value)
  | null
  | bool (value : Bool)
deriving DecidableEq, Repr

/-- What a text that cannot be cut further begins with. -/
inductive Begun where
  | quotedText
  | scalar
  | nothingKnown
deriving DecidableEq, Repr

/-- How the tokens of a text end: with the text, or before a piece that is no token. `kept` is
the problem for a reader that needs the piece's value, `skipped` for one that does not. -/
inductive Ending where
  | finished
  | cut (begun : Begun) (kept skipped : Problem)
deriving DecidableEq, Repr

/-- One step from a byte that is no blank. -/
inductive Cut where
  | token (token : Token) (rest : List UInt8)
  | fault (begun : Begun) (kept skipped : Problem)
deriving DecidableEq, Repr

def cutLiteral (token : Token) (letters rest : List UInt8) : Cut :=
  match readLetters letters rest with
  | .ok rest => .token token rest
  | .error stop => .fault .scalar stop.problem stop.problem

/-- A number from its first byte on. A skipped number that ends too early is invalid. -/
def cutNumber (bs : List UInt8) : Cut :=
  match readNumeral bs with
  | .ok (numeral, rest) => .token (.number numeral.value?) rest
  | .error stop => .fault .scalar stop.problem .invalidNumber

def cutText (rest : List UInt8) : Cut :=
  match skipText rest with
  | .ok after =>
      .token
        (.text (match readText rest with | .ok (content, _) => some content | .error _ => none))
        after
  | .error stop =>
      .fault .quotedText
        (match readText rest with | .ok _ => stop.problem | .error kept => kept.problem)
        stop.problem

def cut (b : UInt8) (rest : List UInt8) : Cut :=
  if b = 0x5B then .token .openItems rest
  else if b = 0x5D then .token .closeItems rest
  else if b = 0x7B then .token .openMembers rest
  else if b = 0x7D then .token .closeMembers rest
  else if b = 0x2C then .token .comma rest
  else if b = 0x3A then .token .colon rest
  else if b = 0x22 then cutText rest
  else if b = 0x2D || isDigit b then cutNumber (b :: rest)
  else if b = 0x6E then cutLiteral .null [0x75, 0x6C, 0x6C] rest
  else if b = 0x74 then cutLiteral (.bool true) [0x72, 0x75, 0x65] rest
  else if b = 0x66 then cutLiteral (.bool false) [0x61, 0x6C, 0x73, 0x65] rest
  else .fault .nothingKnown .expectedValue .expectedValue

/-! ## Progress -/

theorem skipBlanks_length_le (bs : List UInt8) : (skipBlanks bs).length ≤ bs.length :=
  (List.dropWhile_sublist _).length_le

theorem spanDigits_length_le (bs : List UInt8) : (spanDigits bs).2.length ≤ bs.length :=
  (List.dropWhile_sublist _).length_le

theorem readLetters_length_le {letters bs rest : List UInt8}
    (read : readLetters letters bs = .ok rest) : rest.length ≤ bs.length := by
  induction letters generalizing bs with
  | nil => simp [readLetters] at read; simp [read]
  | cons l ls inductionHypothesis =>
      cases bs with
      | nil => simp [readLetters] at read
      | cons b bs =>
          simp only [readLetters] at read
          split at read
          · have := inductionHypothesis read
            simp; omega
          · simp at read

theorem skipText_length_lt {bs rest : List UInt8} (read : skipText bs = .ok rest) :
    rest.length < bs.length := by
  fun_induction skipText bs with
  | case2 tail =>
      cases read
      exact Nat.lt_succ_self _
  | case4 e after plain short notQuote inductionHypothesis =>
      have shorter := inductionHypothesis read
      simp only [List.length_cons]
      omega
  | case6 h1 h2 h3 h4 after unit hex notQuote short inductionHypothesis =>
      have shorter := inductionHypothesis read
      simp only [List.length_cons]
      omega
  | case10 b tail closed notEscape visible inductionHypothesis =>
      have shorter := inductionHypothesis read
      simp only [List.length_cons]
      omega
  | _ => cases read

theorem readWhole_length_lt {bs whole rest : List UInt8}
    (read : readWhole bs = .ok (whole, rest)) : rest.length < bs.length := by
  unfold readWhole at read
  split at read
  · simp at read
  · rename_i d tail
    split at read
    · split at read
      · simp at read; simp [read.2]
      · split at read
        · simp at read
        · simp at read; simp [← read.2]
    · split at read
      · rename_i digit
        have shorter := spanDigits_length_le tail
        simp [spanDigits, List.dropWhile, digit] at read shorter ⊢
        rw [← read.2]; omega
      · simp at read

theorem readFraction_length_le {bs fraction rest : List UInt8}
    (read : readFraction bs = .ok (fraction, rest)) : rest.length ≤ bs.length := by
  unfold readFraction at read
  split at read
  · rename_i p tail
    split at read
    · split at read
      · simp at read
      · rename_i d after
        split at read
        · have shorter := spanDigits_length_le (d :: after)
          simp only [Except.ok.injEq] at read
          rw [read] at shorter
          simp at shorter ⊢; omega
        · simp at read
    · simp at read; simp [← read.2]
  · simp at read; simp [read.2]

theorem readExponent_length_le {bs rest : List UInt8} {exponent : Option (Bool × List UInt8)}
    (read : readExponent bs = .ok (exponent, rest)) : rest.length ≤ bs.length := by
  unfold readExponent at read
  split at read
  · rename_i e tail
    split at read
    · split at read
      rename_i falling digits signed
      have signLength : digits.length ≤ tail.length := by
        split at signed
        · split at signed
          · simp at signed; simp [← signed.2]
          · split at signed <;> (simp at signed; simp [← signed.2])
        · simp at signed; simp [signed.2]
      split at read
      · simp at read
      · rename_i d after
        split at read
        · have shorter := spanDigits_length_le (d :: after)
          simp only [Except.ok.injEq, Prod.mk.injEq] at read
          rw [read.2] at shorter
          simp at shorter signLength ⊢; omega
        · simp at read
    · simp at read; simp [← read.2]
  · simp at read; simp [read.2]

theorem readNumeral_length_lt {bs rest : List UInt8} {numeral : Numeral}
    (read : readNumeral bs = .ok (numeral, rest)) : rest.length < bs.length := by
  unfold readNumeral at read
  split at read
  rename_i negative digits signed
  have signLength : digits.length ≤ bs.length := by
    split at signed
    · split at signed <;> (simp at signed; simp [← signed.2])
    · simp at signed; simp [signed.2]
  split at read
  · simp at read
  · rename_i whole afterWhole wholeRead
    split at read
    · simp at read
    · rename_i fraction afterFraction fractionRead
      split at read
      · simp at read
      · rename_i exponent afterExponent exponentRead
        have h1 := readWhole_length_lt wholeRead
        have h2 := readFraction_length_le fractionRead
        have h3 := readExponent_length_le exponentRead
        simp only [Except.ok.injEq, Prod.mk.injEq] at read
        rw [← read.2]; omega

theorem cutLiteral_length_le {literal token : Token} {letters rest after : List UInt8}
    (step : cutLiteral literal letters rest = .token token after) :
    after.length ≤ rest.length := by
  unfold cutLiteral at step
  split at step
  · rename_i tail read
    cases step
    exact readLetters_length_le read
  · cases step

theorem cutText_length_lt {rest after : List UInt8} {token : Token}
    (step : cutText rest = .token token after) : after.length < rest.length := by
  unfold cutText at step
  split at step
  · rename_i tail read
    cases step
    exact skipText_length_lt read
  · cases step

theorem cutNumber_length_lt {bs after : List UInt8} {token : Token}
    (step : cutNumber bs = .token token after) : after.length < bs.length := by
  unfold cutNumber at step
  split at step
  · rename_i numeral tail read
    cases step
    exact readNumeral_length_lt read
  · cases step

/-- A token takes at least its first byte. -/
theorem cut_length_le {b : UInt8} {rest after : List UInt8} {token : Token}
    (step : cut b rest = .token token after) : after.length ≤ rest.length := by
  have mark : ∀ {found : Token}, Cut.token found rest = .token token after →
      after.length ≤ rest.length := by
    intro found same
    cases same
    exact Nat.le_refl _
  rw [cut] at step
  by_cases opensItems : b = 0x5B
  · rw [if_pos opensItems] at step
    exact mark step
  rw [if_neg opensItems] at step
  by_cases closesItems : b = 0x5D
  · rw [if_pos closesItems] at step
    exact mark step
  rw [if_neg closesItems] at step
  by_cases opensMembers : b = 0x7B
  · rw [if_pos opensMembers] at step
    exact mark step
  rw [if_neg opensMembers] at step
  by_cases closesMembers : b = 0x7D
  · rw [if_pos closesMembers] at step
    exact mark step
  rw [if_neg closesMembers] at step
  by_cases comma : b = 0x2C
  · rw [if_pos comma] at step
    exact mark step
  rw [if_neg comma] at step
  by_cases colon : b = 0x3A
  · rw [if_pos colon] at step
    exact mark step
  rw [if_neg colon] at step
  by_cases quote : b = 0x22
  · rw [if_pos quote] at step
    exact Nat.le_of_lt (cutText_length_lt step)
  rw [if_neg quote] at step
  by_cases number : (b = 0x2D || isDigit b) = true
  · rw [if_pos number] at step
    exact Nat.le_of_lt_succ (cutNumber_length_lt step)
  rw [if_neg number] at step
  by_cases isNull : b = 0x6E
  · rw [if_pos isNull] at step
    exact cutLiteral_length_le step
  rw [if_neg isNull] at step
  by_cases isTrue : b = 0x74
  · rw [if_pos isTrue] at step
    exact cutLiteral_length_le step
  rw [if_neg isTrue] at step
  by_cases isFalse : b = 0x66
  · rw [if_pos isFalse] at step
    exact cutLiteral_length_le step
  rw [if_neg isFalse] at step
  cases step

/-! ## The tokens of a text -/

structure Scan where
  tokens : List Token
  ending : Ending
deriving DecidableEq, Repr

/-- Cuts a text into tokens, from the left, for as long as that is possible. -/
def scan (bs : List UInt8) : Scan :=
  match _skipped : skipBlanks bs with
  | [] => ⟨[], .finished⟩
  | b :: rest =>
      match _step : cut b rest with
      | .token token after =>
          let tail := scan after
          ⟨token :: tail.tokens, tail.ending⟩
      | .fault begun kept lenient => ⟨[], .cut begun kept lenient⟩
termination_by bs.length
decreasing_by
  have shorter := cut_length_le _step
  have blanks := skipBlanks_length_le bs
  rw [_skipped] at blanks
  simp at blanks
  omega

end DualStore.Json
