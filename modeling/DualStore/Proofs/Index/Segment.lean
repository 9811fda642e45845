import DualStore.Index.Path

/-!
Contract: what the segments of a path keep of the texts that they are written for.

Owns:
- escaping: no two texts have one segment, and no segment has a slash in it; a segment is empty, or
  made of dots alone, only where the text is that already;
- names of plain characters, which are their own segments;
- paths as texts: they are told apart by what follows a common beginning.

Does not own: which segments the path of a request has.
-/

namespace DualStore

open DualStore.Text

theorem Text.Utf8.encode_injective {first second : List Char}
    (same : Utf8.encode first = Utf8.encode second) : first = second := by
  have sameBytes : (String.ofList first).toByteArray = (String.ofList second).toByteArray := by
    rw [String.toByteArray_ofList, String.toByteArray_ofList]
    exact congrArg List.toByteArray same
  exact String.ofList_inj.mp (String.toByteArray_inj.mp sameBytes)

namespace Path

/-! ## Bytes in a segment -/

/-- No two bytes stand for one character. -/
theorem ofNat_toNat_injective {first second : UInt8}
    (same : Char.ofNat first.toNat = Char.ofNat second.toNat) : first = second := by
  have codePoint : ∀ b : UInt8, (Char.ofNat b.toNat).toNat = b.toNat := by
    intro b
    have bound := b.toNat_lt
    have valid : b.toNat.isValidChar := Or.inl (by omega)
    have character : Char.ofNat b.toNat = Char.ofNatAux b.toNat valid := dif_pos valid
    rw [character]
    rfl
  rw [← UInt8.toNat_inj, ← codePoint first, ← codePoint second, same]

theorem upperDigit_injective : ∀ first second : Fin 16,
    upperDigit first.val = upperDigit second.val → first = second := by decide

theorem upperDigit_ne_slash : ∀ d : Fin 16, upperDigit d.val ≠ '/' := by decide

/-- The two digits of a byte. -/
theorem upperDigits_injective {first second : UInt8}
    (high : upperDigit (first.toNat / 16) = upperDigit (second.toNat / 16))
    (low : upperDigit (first.toNat % 16) = upperDigit (second.toNat % 16)) : first = second := by
  have bounds : ∀ b : UInt8, b.toNat / 16 < 16 ∧ b.toNat % 16 < 16 := by
    intro b
    have := b.toNat_lt
    omega
  have sameHigh := upperDigit_injective ⟨_, (bounds first).1⟩ ⟨_, (bounds second).1⟩ high
  have sameLow := upperDigit_injective ⟨_, (bounds first).2⟩ ⟨_, (bounds second).2⟩ low
  rw [Fin.mk.injEq] at sameHigh sameLow
  rw [← UInt8.toNat_inj]
  omega

/-- A byte is written as one character, which is neither a percent sign nor a slash, or as a percent
sign and two digits. -/
theorem encodeByte_cases (b : UInt8) :
    (encodeByte b = [Char.ofNat b.toNat] ∧ Char.ofNat b.toNat ≠ '%' ∧ Char.ofNat b.toNat ≠ '/') ∨
      encodeByte b = ['%', upperDigit (b.toNat / 16), upperDigit (b.toNat % 16)] := by
  unfold encodeByte
  split
  · rename_i plain
    refine Or.inl ⟨rfl, fun percent => ?_, fun slash => ?_⟩
    · have isPercent : b = 0x25 := ofNat_toNat_injective percent
      rw [isPercent] at plain
      exact absurd plain (by decide)
    · have isSlash : b = 0x2F := ofNat_toNat_injective slash
      rw [isSlash] at plain
      exact absurd plain (by decide)
  · exact Or.inr rfl

theorem slash_notMem_encodeByte (b : UInt8) : '/' ∉ encodeByte b := by
  rcases encodeByte_cases b with ⟨written, _, other⟩ | written
  · rw [written, List.mem_singleton]
    exact fun same => other same.symm
  · have bounds := b.toNat_lt
    have high := upperDigit_ne_slash ⟨b.toNat / 16, by omega⟩
    have low := upperDigit_ne_slash ⟨b.toNat % 16, by omega⟩
    rw [written]
    intro member
    rcases List.mem_cons.mp member with percent | member
    · exact absurd percent (by decide)
    · rcases List.mem_cons.mp member with same | member
      · exact high same.symm
      · exact low (List.mem_singleton.mp member).symm

/-- No byte is written as the beginning of another. -/
theorem encodeByte_append_inj {first second : UInt8} {rest more : List Char}
    (same : encodeByte first ++ rest = encodeByte second ++ more) : first = second ∧ rest = more := by
  rcases encodeByte_cases first with ⟨writtenFirst, plainFirst, _⟩ | writtenFirst <;>
    rcases encodeByte_cases second with ⟨writtenSecond, plainSecond, _⟩ | writtenSecond
  · rw [writtenFirst, writtenSecond] at same
    obtain ⟨sameCharacter, sameRest⟩ := List.cons.inj same
    exact ⟨ofNat_toNat_injective sameCharacter, sameRest⟩
  · rw [writtenFirst, writtenSecond] at same
    exact absurd (List.cons.inj same).1 plainFirst
  · rw [writtenFirst, writtenSecond] at same
    exact absurd (List.cons.inj same).1.symm plainSecond
  · rw [writtenFirst, writtenSecond] at same
    obtain ⟨_, sameDigits⟩ := List.cons.inj same
    obtain ⟨high, sameDigits⟩ := List.cons.inj sameDigits
    obtain ⟨low, sameRest⟩ := List.cons.inj sameDigits
    exact ⟨upperDigits_injective high low, sameRest⟩

theorem flatMap_encodeByte_injective {first second : List UInt8}
    (same : first.flatMap encodeByte = second.flatMap encodeByte) : first = second := by
  have nonempty : ∀ b (rest : List Char), encodeByte b ++ rest ≠ [] := by
    intro b rest
    rcases encodeByte_cases b with ⟨written, _⟩ | written <;> simp [written]
  induction first generalizing second with
  | nil =>
      cases second with
      | nil => rfl
      | cons c second => exact absurd same.symm (nonempty c _)
  | cons b first inductionHypothesis =>
      cases second with
      | nil => exact absurd same (nonempty b _)
      | cons c second =>
          obtain ⟨rfl, sameRest⟩ := encodeByte_append_inj same
          rw [inductionHypothesis sameRest]

/-! ## Segments -/

theorem segment_injective {first second : String} (same : segment first = segment second) :
    first = second :=
  String.toList_inj.mp
    (Utf8.encode_injective (flatMap_encodeByte_injective (String.ofList_inj.mp same)))

theorem segment_eq_iff {content other : String} (same : segment other = other) :
    segment content = other ↔ content = other := by
  constructor
  · intro written
    exact segment_injective (written.trans same.symm)
  · rintro rfl
    exact same

theorem slash_notMem_segment (content : String) : '/' ∉ (segment content).toList := by
  unfold segment
  rw [String.toList_ofList, List.mem_flatMap]
  rintro ⟨b, _, member⟩
  exact slash_notMem_encodeByte b member

/-- Lower-case letters, digits, low lines and hyphens. -/
def isNameChar (c : Char) : Bool :=
  ('a' ≤ c && c ≤ 'z') || ('0' ≤ c && c ≤ '9') || c == '_' || c == '-'

theorem flatMap_encodeByte_of_isNameChar {c : Char} (plain : isNameChar c = true) :
    (String.utf8EncodeChar c).flatMap encodeByte = [c] := by
  have small : c.toNat < 128 := by
    have upTo : ∀ last : Char, last.toNat < 128 → c ≤ last → c.toNat < 128 :=
      fun last bound least => Nat.lt_of_le_of_lt (UInt32.le_iff_toNat_le.mp least) bound
    simp only [isNameChar, Bool.or_eq_true, Bool.and_eq_true, decide_eq_true_eq, beq_iff_eq] at plain
    rcases plain with ((⟨_, letter⟩ | ⟨_, digit⟩) | rfl) | rfl
    · exact upTo 'z' (by decide) letter
    · exact upTo '9' (by decide) digit
    · decide
    · decide
  have checked : ∀ n : Fin 128, isNameChar (Char.ofNat n.val) = true →
      (String.utf8EncodeChar (Char.ofNat n.val)).flatMap encodeByte = [Char.ofNat n.val] := by
    decide +kernel
  have atCharacter := checked ⟨c.toNat, small⟩
  rw [Char.ofNat_toNat] at atCharacter
  exact atCharacter plain

theorem segment_eq_self {name : String} (named : ∀ c ∈ name.toList, isNameChar c = true) :
    segment name = name := by
  unfold segment Utf8.encode
  rw [List.flatMap_assoc]
  rw [List.flatMap_def, List.map_congr_left fun c member =>
    flatMap_encodeByte_of_isNameChar (named c member), ← List.flatMap_def, List.flatMap_singleton',
    String.ofList_toList]

/-! ## Paths -/

theorem toList_text {segments : List String} (nonempty : segments ≠ []) :
    (text segments).toList = segments.flatMap fun segment => '/' :: segment.toList := by
  induction segments with
  | nil => exact absurd rfl nonempty
  | cons first segments inductionHypothesis =>
      cases segments with
      | nil => simp [text]
      | cons second segments =>
          have later := inductionHypothesis (List.cons_ne_nil second segments)
          unfold text at later ⊢
          rw [String.intercalate_cons_cons, String.append_assoc, String.toList_append,
            String.toList_append, later]
          rfl

/-- Paths with a common beginning are told apart by what follows. -/
theorem text_append_inj {place first second : List String} (nonemptyFirst : first ≠ [])
    (nonemptySecond : second ≠ []) (same : text (place ++ first) = text (place ++ second)) :
    text first = text second := by
  have sameList := congrArg String.toList same
  rw [toList_text (List.append_ne_nil_of_right_ne_nil place nonemptyFirst),
    toList_text (List.append_ne_nil_of_right_ne_nil place nonemptySecond), List.flatMap_append,
    List.flatMap_append] at sameList
  rw [← String.toList_inj, toList_text nonemptyFirst, toList_text nonemptySecond]
  exact List.append_cancel_left sameList

/-- Segments without slashes are told apart by the text of their path. -/
theorem text_injective {first second : List String} (nonemptyFirst : first ≠ [])
    (nonemptySecond : second ≠ []) (wholeFirst : ∀ segment ∈ first, '/' ∉ segment.toList)
    (wholeSecond : ∀ segment ∈ second, '/' ∉ segment.toList) (same : text first = text second) :
    first = second := by
  have upToSlash : ∀ (segment : String) (more : List String), '/' ∉ segment.toList →
      (segment.toList ++ more.flatMap fun segment => '/' :: segment.toList).takeWhile (· != '/') =
        segment.toList := by
    intro segment more whole
    have other : ∀ c ∈ segment.toList, (c != '/') = true := by
      intro c member
      refine bne_iff_ne.mpr fun slash => whole ?_
      rw [← slash]
      exact member
    rw [List.takeWhile_append_of_pos other]
    cases more <;> simp
  have sameList := congrArg String.toList same
  rw [toList_text nonemptyFirst, toList_text nonemptySecond] at sameList
  clear same nonemptyFirst nonemptySecond
  induction first generalizing second with
  | nil =>
      cases second with
      | nil => rfl
      | cons segment second => cases sameList
  | cons segment first inductionHypothesis =>
      cases second with
      | nil => cases sameList
      | cons other second =>
          rw [List.flatMap_cons, List.flatMap_cons, List.cons_append, List.cons_append] at sameList
          have behindSlash := (List.cons.inj sameList).2
          have sameSegment : segment = other := by
            rw [← String.toList_inj,
              ← upToSlash segment first (wholeFirst segment List.mem_cons_self), behindSlash,
              upToSlash other second (wholeSecond other List.mem_cons_self)]
          subst sameSegment
          rw [inductionHypothesis (fun _ member => wholeFirst _ (List.mem_cons_of_mem _ member))
            (fun _ member => wholeSecond _ (List.mem_cons_of_mem _ member))
            (List.append_cancel_left behindSlash)]

/-- A walk goes down a segment that is no dot and not two dots. -/
theorem walk_cons {place more : List String} {segment : String} (dot : segment ≠ ".")
    (dots : segment ≠ "..") (nonempty : more ≠ []) :
    walk place (segment :: more) = walk (place ++ [segment]) more := by
  cases more with
  | nil => exact absurd rfl nonempty
  | cons next more =>
      rw [walk, if_neg dot, if_neg dots]
      exact List.cons_ne_nil next more

end Path

end DualStore
