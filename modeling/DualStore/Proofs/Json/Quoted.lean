import DualStore.Json.Token
import DualStore.Proofs.Text.Utf8

/-!
Contract: the grammar of quoted texts, and the readers that follow it.

Owns:
- loose texts, in which any byte from the blank on stands for itself and any four digits may follow
  an escape for a unit;
- paired texts, in which such units are no surrogates or the two halves of one, with the bytes that
  they stand for; a strict text stands for the UTF-8 form of a string, and a text that is loose but
  not strict lacks content for one of two reasons;
- the lenient reader accepts the loose texts, and the strict reader the strict ones.

Does not own: the problem that is met in a text that is not of the grammar.
-/

namespace DualStore.Json

open DualStore.Text

/-! ## The grammar -/

/-- Behind an opening quote the bytes begin with a text and its closing quote; the others are left
over. Escapes have their form, and there is no control character. -/
inductive LooseText : List UInt8 → List UInt8 → Prop where
  | close {rest : List UInt8} : LooseText (0x22 :: rest) rest
  | plain {b : UInt8} {bs rest : List UInt8} : b ≠ 0x22 → b ≠ 0x5C → ¬ b < 0x20 →
      LooseText bs rest → LooseText (b :: bs) rest
  | short {e b : UInt8} {bs rest : List UInt8} : shortEscape? e = some b →
      LooseText bs rest → LooseText (0x5C :: e :: bs) rest
  | unit {d₁ d₂ d₃ d₄ : UInt8} {unit : Nat} {bs rest : List UInt8} :
      hexUnit? d₁ d₂ d₃ d₄ = some unit → LooseText bs rest →
      LooseText (0x5C :: 0x75 :: d₁ :: d₂ :: d₃ :: d₄ :: bs) rest

/-- A loose text whose surrogate escapes come in pairs, with the bytes that it stands for. -/
inductive PairedText : List UInt8 → List UInt8 → List UInt8 → Prop where
  | close {rest : List UInt8} : PairedText (0x22 :: rest) [] rest
  | plain {b : UInt8} {bs content rest : List UInt8} : b ≠ 0x22 → b ≠ 0x5C → ¬ b < 0x20 →
      PairedText bs content rest → PairedText (b :: bs) (b :: content) rest
  | short {e b : UInt8} {bs content rest : List UInt8} : shortEscape? e = some b →
      PairedText bs content rest → PairedText (0x5C :: e :: bs) (b :: content) rest
  | unit {d₁ d₂ d₃ d₄ : UInt8} {unit : Nat} {bs content rest : List UInt8} :
      hexUnit? d₁ d₂ d₃ d₄ = some unit → closesPair unit = false → opensPair unit = false →
      PairedText bs content rest →
      PairedText (0x5C :: 0x75 :: d₁ :: d₂ :: d₃ :: d₄ :: bs)
        (String.utf8EncodeChar (Char.ofNat unit) ++ content) rest
  | pair {d₁ d₂ d₃ d₄ e₁ e₂ e₃ e₄ : UInt8} {first second : Nat} {bs content rest : List UInt8} :
      hexUnit? d₁ d₂ d₃ d₄ = some first → closesPair first = false → opensPair first = true →
      hexUnit? e₁ e₂ e₃ e₄ = some second → closesPair second = true →
      PairedText bs content rest →
      PairedText
        (0x5C :: 0x75 :: d₁ :: d₂ :: d₃ :: d₄ :: 0x5C :: 0x75 :: e₁ :: e₂ :: e₃ :: e₄ :: bs)
        (String.utf8EncodeChar (pairChar first second) ++ content) rest

/-- A paired text that stands for the UTF-8 form of a string. -/
def StrictText (bs : List UInt8) (content : String) (rest : List UInt8) : Prop :=
  PairedText bs (Utf8.encode content.toList) rest

/-- No string is the content of a text: its surrogate escapes are not paired, or the bytes that it
stands for are no UTF-8. -/
def LacksContent (bs rest : List UInt8) : Prop :=
  ∀ content, PairedText bs content rest → Utf8.decode? content = none

theorem lacksContent_iff {bs rest : List UInt8} :
    LacksContent bs rest ↔ ∀ content, ¬ StrictText bs content rest := by
  constructor
  · intro lacks content strict
    have decoded := Utf8.decode?_eq_some_iff.mpr (rfl : Utf8.encode content.toList = _)
    rw [lacks _ strict] at decoded
    cases decoded
  · intro noContent bytes paired
    rw [Option.eq_none_iff_forall_ne_some]
    intro cs decoded
    apply noContent (String.ofList cs)
    rw [StrictText, String.toList_ofList, ← Utf8.decode?_eq_some_iff.mp decoded]
    exact paired

theorem PairedText.loose {bs content rest : List UInt8} (paired : PairedText bs content rest) :
    LooseText bs rest := by
  induction paired with
  | close => exact .close
  | plain notQuote notEscape visible _ inductionHypothesis =>
      exact .plain notQuote notEscape visible inductionHypothesis
  | short escape _ inductionHypothesis => exact .short escape inductionHypothesis
  | unit digits _ _ _ inductionHypothesis => exact .unit digits inductionHypothesis
  | pair first _ _ second _ _ inductionHypothesis =>
      exact .unit first (.unit second inductionHypothesis)

/-! ## The readers -/

theorem shortEscape?_u : shortEscape? 0x75 = none := rfl

theorem skipText_of_loose {bs rest : List UInt8} (loose : LooseText bs rest) :
    skipText bs = .ok rest := by
  induction loose with
  | close =>
      rw [skipText.eq_def]
      rfl
  | plain notQuote notEscape visible _ inductionHypothesis =>
      rw [skipText.eq_def]
      simp only [if_neg notQuote, if_neg notEscape, if_neg visible, inductionHypothesis]
  | short escape _ inductionHypothesis =>
      rw [skipText.eq_def]
      simp [escape, inductionHypothesis]
  | unit digits _ inductionHypothesis =>
      rw [skipText.eq_def]
      simp [shortEscape?_u, digits, inductionHypothesis]

theorem loose_of_skipText {bs rest : List UInt8} (read : skipText bs = .ok rest) :
    LooseText bs rest := by
  fun_induction skipText bs with
  | case2 tail =>
      cases read
      exact .close
  | case4 e after plain short notQuote inductionHypothesis =>
      exact .short short (inductionHypothesis read)
  | case6 h1 h2 h3 h4 after unit digits notQuote short inductionHypothesis =>
      exact .unit digits (inductionHypothesis read)
  | case10 b tail notQuote notEscape visible inductionHypothesis =>
      exact .plain notQuote notEscape visible (inductionHypothesis read)
  | _ => cases read

/-- The lenient reader accepts the loose texts. -/
theorem skipText_eq_ok_iff {bs rest : List UInt8} : skipText bs = .ok rest ↔ LooseText bs rest :=
  ⟨loose_of_skipText, skipText_of_loose⟩

theorem pushChar_reverse (done : List UInt8) (c : Char) :
    (pushChar done c).reverse = done.reverse ++ String.utf8EncodeChar c := by
  rw [pushChar, List.reverse_append, List.reverse_reverse]

theorem readTextFrom_of_paired {done bs content rest : List UInt8}
    (paired : PairedText bs content rest) :
    readTextFrom done bs = .ok (done.reverse ++ content, rest) := by
  induction paired generalizing done with
  | close =>
      rw [readTextFrom.eq_def, List.append_nil]
      rfl
  | plain notQuote notEscape visible _ inductionHypothesis =>
      rw [readTextFrom.eq_def]
      simp [notQuote, notEscape, visible, inductionHypothesis]
  | short escape _ inductionHypothesis =>
      rw [readTextFrom.eq_def]
      simp [escape, inductionHypothesis]
  | unit digits notSecond notFirst _ inductionHypothesis =>
      rw [readTextFrom.eq_def]
      simp [shortEscape?_u, digits, notSecond, notFirst, inductionHypothesis, pushChar_reverse]
  | pair digits notSecond isFirst more isSecond _ inductionHypothesis =>
      rw [readTextFrom.eq_def]
      simp [shortEscape?_u, digits, notSecond, isFirst, more, isSecond, inductionHypothesis,
        pushChar_reverse]

theorem exists_paired_of_readTextFrom {done bs content rest : List UInt8}
    (read : readTextFrom done bs = .ok (content, rest)) :
    ∃ new, content = done.reverse ++ new ∧ PairedText bs new rest := by
  fun_induction readTextFrom done bs with
  | case2 done tail =>
      cases read
      exact ⟨[], (List.append_nil _).symm, .close⟩
  | case4 done e after plain short notQuote inductionHypothesis =>
      obtain ⟨new, rfl, paired⟩ := inductionHypothesis read
      refine ⟨plain :: new, ?_, .short short paired⟩
      simp
  | case10 done d₁ d₂ d₃ d₄ first digits notSecond isFirst e₁ e₂ e₃ e₄ after second more isSecond
      notQuote short inductionHypothesis =>
      obtain ⟨new, isContent, paired⟩ := inductionHypothesis read
      refine ⟨String.utf8EncodeChar (pairChar first second) ++ new, ?_,
        .pair digits (eq_false_of_ne_true notSecond) isFirst more isSecond paired⟩
      rw [isContent, pushChar_reverse, List.append_assoc]
  | case15 done d₁ d₂ d₃ d₄ after unit digits notSecond notFirst notQuote short
      inductionHypothesis =>
      obtain ⟨new, isContent, paired⟩ := inductionHypothesis read
      refine ⟨String.utf8EncodeChar (Char.ofNat unit) ++ new, ?_,
        .unit digits (eq_false_of_ne_true notSecond) (eq_false_of_ne_true notFirst) paired⟩
      rw [isContent, pushChar_reverse, List.append_assoc]
  | case19 done b tail notQuote notEscape visible inductionHypothesis =>
      obtain ⟨new, rfl, paired⟩ := inductionHypothesis read
      refine ⟨b :: new, ?_, .plain notQuote notEscape visible paired⟩
      simp
  | _ => cases read

/-- The strict reader accepts the strict texts. -/
theorem readText_eq_ok_iff {bs rest : List UInt8} {content : String} :
    readText bs = .ok (content, rest) ↔ StrictText bs content rest := by
  constructor
  · intro read
    rw [readText] at read
    split at read
    · cases read
    · rename_i bytes after readBytes
      split at read
      · rename_i cs decoded
        cases read
        obtain ⟨new, isContent, paired⟩ := exists_paired_of_readTextFrom readBytes
        rw [List.reverse_nil, List.nil_append] at isContent
        rw [StrictText, String.toList_ofList, ← Utf8.decode?_eq_some_iff.mp decoded, isContent]
        exact paired
      · cases read
  · intro strict
    have decoded := Utf8.decode?_eq_some_iff.mpr (rfl : Utf8.encode content.toList = _)
    rw [readText, readTextFrom_of_paired strict]
    simp only [List.reverse_nil, List.nil_append, decoded, String.ofList_toList]

end DualStore.Json
