import DualStore.Text.Utf8

/-!
Contract: the strict reading of UTF-8 accepts what writing produces, and nothing else.

Owns:
- what each class of first bytes owes, and the code point that a first byte and those behind it
  spell;
- the reading of one character, from either side;
- the reading of a whole text.

Does not own: the lossy reading.
-/

namespace DualStore.Text.Utf8

/-! ## First bytes -/

/-- What holds of all 256 bytes holds of a byte. -/
theorem forall_byte {property : UInt8 → Prop} (all : ∀ n : Fin 256, property (UInt8.ofNat n.val))
    (b : UInt8) : property b := by
  have atByte := all ⟨b.toNat, b.toNat_lt⟩
  rw [UInt8.ofNat_toNat] at atByte
  exact atByte

/-- The bounds of a second byte. The least and the greatest first byte of a length narrow them. -/
def secondBounds (least lowest greatest highest lead : UInt8) : UInt8 × UInt8 :=
  (if lead = least then lowest else 0x80, if lead = greatest then highest else 0xBF)

/-- The bounds of the second byte of three keep out overlong forms and surrogates. -/
def secondOfThree : UInt8 → UInt8 × UInt8 := secondBounds 0xE0 0xA0 0xED 0x9F

/-- The bounds of the second byte of four keep out overlong forms and what lies above the last
code point. -/
def secondOfFour : UInt8 → UInt8 × UInt8 := secondBounds 0xF0 0x90 0xF4 0x8F

theorem start_one {b : UInt8} (small : b.toNat < 0x80) :
    start b = ([.whole (Char.ofNat b.toNat)], .ready) := by
  rw [start, if_pos small]

theorem start_two : ∀ b : UInt8, 0xC2 ≤ b.toNat → b.toNat ≤ 0xDF →
    start b = ([], .pending 1 0x80 0xBF (b.toNat - 0xC0)) :=
  forall_byte (by decide +kernel)

theorem start_three : ∀ b : UInt8, 0xE0 ≤ b.toNat → b.toNat ≤ 0xEF →
    start b = ([], .pending 2 (secondOfThree b).1 (secondOfThree b).2 (b.toNat - 0xE0)) :=
  forall_byte (by decide +kernel)

theorem start_four : ∀ b : UInt8, 0xF0 ≤ b.toNat → b.toNat ≤ 0xF4 →
    start b = ([], .pending 3 (secondOfFour b).1 (secondOfFour b).2 (b.toNat - 0xF0)) :=
  forall_byte (by decide +kernel)

theorem start_broken : ∀ b : UInt8, (0x80 ≤ b.toNat ∧ b.toNat < 0xC2) ∨ 0xF4 < b.toNat →
    start b = ([.broken], .ready) :=
  forall_byte (by decide +kernel)

/-! ## One character -/

theorem decodeFrom_cons (done : List Char) (state : State) (b : UInt8) (bs : List UInt8) :
    decodeFrom done state (b :: bs) =
      match step state b with
      | ([], next) => decodeFrom done next bs
      | ([.whole c], next) => decodeFrom (c :: done) next bs
      | _ => none := by
  cases state <;> rfl

/-- A list that is known to have a first element, taken apart there. -/
theorem exists_cons_iff {α : Type} {property : α → List α → Prop} {a : α} {list : List α} :
    (∃ first rest, a :: list = first :: rest ∧ property first rest) ↔ property a list := by
  constructor
  · rintro ⟨first, rest, same, holds⟩
    cases same
    exact holds
  · intro holds
    exact ⟨a, list, rfl, holds⟩

/-- A byte out of the bounds ends the strict reading. -/
theorem decodeFrom_outside {done : List Char} {need : Nat} {low high b : UInt8} {value : Nat}
    {bs : List UInt8} (outside : ¬ (low ≤ b ∧ b ≤ high)) :
    decodeFrom done (.pending need low high value) (b :: bs) = none := by
  have notWithin : (decide (low ≤ b) && decide (b ≤ high)) = false := by
    rw [← Bool.decide_and]
    exact decide_eq_false outside
  simp [decodeFrom_cons, step, notWithin]

/-- The last byte that a character owes completes it. -/
theorem decodeFrom_last {done cs : List Char} {low high : UInt8} {value : Nat} {bs : List UInt8} :
    decodeFrom done (.pending 1 low high value) bs = some cs ↔
      ∃ b rest, bs = b :: rest ∧ (low ≤ b ∧ b ≤ high) ∧
        decodeFrom (Char.ofNat (value * 64 + (b.toNat - 0x80)) :: done) .ready rest = some cs := by
  cases bs with
  | nil => simp [decodeFrom]
  | cons b rest =>
      rw [exists_cons_iff]
      by_cases within : low ≤ b ∧ b ≤ high
      · simp [decodeFrom_cons, step, within]
      · simp [decodeFrom_outside within, within]

/-- A byte that is not the last one owed leaves one less to come, within the common bounds. -/
theorem decodeFrom_more {done cs : List Char} {need : Nat} {low high : UInt8} {value : Nat}
    {bs : List UInt8} :
    decodeFrom done (.pending (need + 2) low high value) bs = some cs ↔
      ∃ b rest, bs = b :: rest ∧ (low ≤ b ∧ b ≤ high) ∧
        decodeFrom done (.pending (need + 1) 0x80 0xBF (value * 64 + (b.toNat - 0x80))) rest =
          some cs := by
  cases bs with
  | nil => simp [decodeFrom]
  | cons b rest =>
      rw [exists_cons_iff]
      by_cases within : low ≤ b ∧ b ≤ high
      · simp [decodeFrom_cons, step, within]
      · simp [decodeFrom_outside within, within]

theorem toNat_ofNat {n : Nat} (valid : n.isValidChar) : (Char.ofNat n).toNat = n := by
  have character : Char.ofNat n = Char.ofNatAux n valid := dif_pos valid
  rw [character]
  rfl

/-- The bytes of a character, by the size of its code point. -/
theorem utf8EncodeChar_eq (c : Char) :
    String.utf8EncodeChar c =
      if c.toNat < 0x80 then [UInt8.ofNat c.toNat]
      else if c.toNat < 0x800 then
        [UInt8.ofNat (c.toNat / 64 + 0xC0), UInt8.ofNat (c.toNat % 64 + 0x80)]
      else if c.toNat < 0x10000 then
        [UInt8.ofNat (c.toNat / 4096 + 0xE0), UInt8.ofNat (c.toNat / 64 % 64 + 0x80),
          UInt8.ofNat (c.toNat % 64 + 0x80)]
      else
        [UInt8.ofNat (c.toNat / 262144 + 0xF0), UInt8.ofNat (c.toNat / 4096 % 64 + 0x80),
          UInt8.ofNat (c.toNat / 64 % 64 + 0x80), UInt8.ofNat (c.toNat % 64 + 0x80)] := by
  have valid := c.valid
  have codePoint : c.val.toNat = c.toNat := rfl
  have bound : c.toNat < 0x110000 := by
    rcases valid with below | ⟨_, below⟩ <;> omega
  unfold String.utf8EncodeChar
  simp only [codePoint]
  by_cases one : c.toNat < 0x80
  · rw [if_pos one, if_pos (by omega)]
  rw [if_neg one, if_neg (by omega)]
  by_cases two : c.toNat < 0x800
  · rw [if_pos two, if_pos (by omega)]
    rw [Nat.mod_eq_of_lt (show c.toNat / 64 < 0x20 by omega)]
  rw [if_neg two, if_neg (by omega)]
  by_cases three : c.toNat < 0x10000
  · rw [if_pos three, if_pos (by omega)]
    rw [Nat.mod_eq_of_lt (show c.toNat / 4096 < 0x10 by omega)]
  · rw [if_neg three, if_neg (by omega)]
    rw [Nat.mod_eq_of_lt (show c.toNat / 262144 < 0x08 by omega)]

theorem ofNat_eq_iff {n : Nat} {b : UInt8} (small : n < 256) : UInt8.ofNat n = b ↔ n = b.toNat := by
  rw [← UInt8.toNat_inj, UInt8.toNat_ofNat_of_lt' small]

/-- The first byte of a character and those that it owes are the bytes of their code point. -/
theorem utf8EncodeChar_two {b second : UInt8} (least : 0xC2 ≤ b.toNat) (most : b.toNat ≤ 0xDF)
    (within : 0x80 ≤ second.toNat ∧ second.toNat ≤ 0xBF) :
    String.utf8EncodeChar (Char.ofNat ((b.toNat - 0xC0) * 64 + (second.toNat - 0x80))) =
      [b, second] := by
  have codePoint := toNat_ofNat (n := (b.toNat - 0xC0) * 64 + (second.toNat - 0x80))
    (Or.inl (by omega))
  rw [utf8EncodeChar_eq, codePoint, if_neg (by omega), if_pos (by omega)]
  rw [List.cons_eq_cons, List.cons_eq_cons, ofNat_eq_iff (by omega), ofNat_eq_iff (by omega)]
  exact ⟨by omega, by omega, rfl⟩

theorem within_two {second : UInt8} :
    (0x80 : UInt8) ≤ second ∧ second ≤ 0xBF ↔ 0x80 ≤ second.toNat ∧ second.toNat ≤ 0xBF := by
  rw [UInt8.le_iff_toNat_le, UInt8.le_iff_toNat_le]
  rfl

theorem within_bounds {least lowest greatest highest b second : UInt8}
    (narrowsLow : 0x80 ≤ lowest.toNat) (narrowsHigh : highest.toNat ≤ 0xBF) :
    (secondBounds least lowest greatest highest b).1 ≤ second ∧
        second ≤ (secondBounds least lowest greatest highest b).2 ↔
      0x80 ≤ second.toNat ∧ second.toNat ≤ 0xBF ∧
        (b.toNat = least.toNat → lowest.toNat ≤ second.toNat) ∧
        (b.toNat = greatest.toNat → second.toNat ≤ highest.toNat) := by
  have low : b = least ↔ b.toNat = least.toNat := UInt8.toNat_inj.symm
  have high : b = greatest ↔ b.toNat = greatest.toNat := UInt8.toNat_inj.symm
  have common : (0x80 : UInt8).toNat = 0x80 ∧ (0xBF : UInt8).toNat = 0xBF := ⟨rfl, rfl⟩
  simp only [secondBounds, low, high, UInt8.le_iff_toNat_le]
  split <;> split <;> omega

theorem within_three {b second : UInt8} :
    (secondOfThree b).1 ≤ second ∧ second ≤ (secondOfThree b).2 ↔
      0x80 ≤ second.toNat ∧ second.toNat ≤ 0xBF ∧ (b.toNat = 0xE0 → 0xA0 ≤ second.toNat) ∧
        (b.toNat = 0xED → second.toNat ≤ 0x9F) :=
  within_bounds (by decide) (by decide)

theorem within_four {b second : UInt8} :
    (secondOfFour b).1 ≤ second ∧ second ≤ (secondOfFour b).2 ↔
      0x80 ≤ second.toNat ∧ second.toNat ≤ 0xBF ∧ (b.toNat = 0xF0 → 0x90 ≤ second.toNat) ∧
        (b.toNat = 0xF4 → second.toNat ≤ 0x8F) :=
  within_bounds (by decide) (by decide)

theorem utf8EncodeChar_three {b second third : UInt8} (least : 0xE0 ≤ b.toNat)
    (most : b.toNat ≤ 0xEF)
    (within : (secondOfThree b).1 ≤ second ∧ second ≤ (secondOfThree b).2)
    (last : (0x80 : UInt8) ≤ third ∧ third ≤ 0xBF) :
    String.utf8EncodeChar (Char.ofNat
      (((b.toNat - 0xE0) * 64 + (second.toNat - 0x80)) * 64 + (third.toNat - 0x80))) =
        [b, second, third] := by
  rw [within_three] at within
  rw [within_two] at last
  have codePoint := toNat_ofNat
    (n := ((b.toNat - 0xE0) * 64 + (second.toNat - 0x80)) * 64 + (third.toNat - 0x80)) (by
      show _ ∨ _
      omega)
  rw [utf8EncodeChar_eq, codePoint, if_neg (by omega), if_neg (by omega), if_pos (by omega)]
  rw [List.cons_eq_cons, List.cons_eq_cons, List.cons_eq_cons, ofNat_eq_iff (by omega),
    ofNat_eq_iff (by omega), ofNat_eq_iff (by omega)]
  exact ⟨by omega, by omega, by omega, rfl⟩

theorem utf8EncodeChar_four {b second third fourth : UInt8} (least : 0xF0 ≤ b.toNat)
    (most : b.toNat ≤ 0xF4)
    (within : (secondOfFour b).1 ≤ second ∧ second ≤ (secondOfFour b).2)
    (more : (0x80 : UInt8) ≤ third ∧ third ≤ 0xBF)
    (last : (0x80 : UInt8) ≤ fourth ∧ fourth ≤ 0xBF) :
    String.utf8EncodeChar (Char.ofNat
      ((((b.toNat - 0xF0) * 64 + (second.toNat - 0x80)) * 64 + (third.toNat - 0x80)) * 64 +
        (fourth.toNat - 0x80))) = [b, second, third, fourth] := by
  rw [within_four] at within
  rw [within_two] at more last
  have codePoint := toNat_ofNat
    (n := (((b.toNat - 0xF0) * 64 + (second.toNat - 0x80)) * 64 + (third.toNat - 0x80)) * 64 +
      (fourth.toNat - 0x80)) (by
      show _ ∨ _
      omega)
  rw [utf8EncodeChar_eq, codePoint, if_neg (by omega), if_neg (by omega), if_neg (by omega)]
  rw [List.cons_eq_cons, List.cons_eq_cons, List.cons_eq_cons, List.cons_eq_cons,
    ofNat_eq_iff (by omega), ofNat_eq_iff (by omega), ofNat_eq_iff (by omega),
    ofNat_eq_iff (by omega)]
  exact ⟨by omega, by omega, by omega, by omega, rfl⟩

/-- A reading that starts between two characters reads a whole character or is at its end. -/
theorem exists_char_of_decodeFrom {done cs : List Char} {b : UInt8} {bs : List UInt8}
    (read : decodeFrom done .ready (b :: bs) = some cs) :
    ∃ c rest, b :: bs = String.utf8EncodeChar c ++ rest ∧
      decodeFrom (c :: done) .ready rest = some cs := by
  have small := b.toNat_lt
  rw [decodeFrom_cons, step] at read
  by_cases one : b.toNat < 0x80
  · rw [start_one one] at read
    refine ⟨Char.ofNat b.toNat, bs, ?_, read⟩
    rw [utf8EncodeChar_eq, toNat_ofNat (Or.inl (by omega)), if_pos one, UInt8.ofNat_toNat]
    rfl
  by_cases broken : b.toNat < 0xC2 ∨ 0xF4 < b.toNat
  · rw [start_broken b (by omega)] at read
    cases read
  by_cases two : b.toNat ≤ 0xDF
  · rw [start_two b (by omega) two] at read
    obtain ⟨second, rest, rfl, within, read⟩ := decodeFrom_last.mp read
    refine ⟨_, rest, ?_, read⟩
    rw [utf8EncodeChar_two (by omega) two (within_two.mp within)]
    rfl
  by_cases three : b.toNat ≤ 0xEF
  · rw [start_three b (by omega) three] at read
    obtain ⟨second, after, rfl, within, read⟩ := decodeFrom_more.mp read
    obtain ⟨third, rest, rfl, last, read⟩ := decodeFrom_last.mp read
    refine ⟨_, rest, ?_, read⟩
    rw [utf8EncodeChar_three (by omega) three within last]
    rfl
  · rw [start_four b (by omega) (by omega)] at read
    obtain ⟨second, after, rfl, within, read⟩ := decodeFrom_more.mp read
    obtain ⟨third, later, rfl, more, read⟩ := decodeFrom_more.mp read
    obtain ⟨fourth, rest, rfl, last, read⟩ := decodeFrom_last.mp read
    refine ⟨_, rest, ?_, read⟩
    rw [utf8EncodeChar_four (by omega) (by omega) within more last]
    rfl

/-- A reading that starts in front of the bytes of a character reads that character. -/
theorem decodeFrom_char {done cs : List Char} {c : Char} {bs : List UInt8}
    (read : decodeFrom (c :: done) .ready bs = some cs) :
    decodeFrom done .ready (String.utf8EncodeChar c ++ bs) = some cs := by
  have bound : (c.toNat < 0xD800 ∨ 0xDFFF < c.toNat) ∧ c.toNat < 0x110000 := by
    rcases c.valid with below | ⟨above, below⟩
    · have below : c.toNat < 0xD800 := below
      omega
    · have above : 0xDFFF < c.toNat := above
      have below : c.toNat < 0x110000 := below
      omega
  have spelled : ∀ {n : Nat}, n = c.toNat →
      decodeFrom (Char.ofNat n :: done) .ready bs = some cs := by
    rintro _ rfl
    rw [Char.ofNat_toNat]
    exact read
  have value : ∀ {n : Nat}, n < 256 → (UInt8.ofNat n).toNat = n := UInt8.toNat_ofNat_of_lt'
  rw [utf8EncodeChar_eq]
  by_cases one : c.toNat < 0x80
  · rw [if_pos one, List.singleton_append, decodeFrom_cons, step,
      start_one (by rw [value (by omega)]; exact one)]
    exact spelled (value (by omega))
  rw [if_neg one]
  by_cases two : c.toNat < 0x800
  · rw [if_pos two, List.cons_append, decodeFrom_cons, step,
      start_two _ (by rw [value (by omega)]; omega) (by rw [value (by omega)]; omega)]
    refine decodeFrom_last.mpr ⟨_, bs, rfl, ?_, spelled ?_⟩
    · rw [within_two, value (by omega)]
      omega
    · rw [value (by omega), value (by omega)]
      omega
  rw [if_neg two]
  by_cases three : c.toNat < 0x10000
  · rw [if_pos three, List.cons_append, decodeFrom_cons, step,
      start_three _ (by rw [value (by omega)]; omega) (by rw [value (by omega)]; omega)]
    refine decodeFrom_more.mpr ⟨_, _, rfl, ?_, decodeFrom_last.mpr ⟨_, bs, rfl, ?_, spelled ?_⟩⟩
    · rw [within_three, value (by omega), value (by omega)]
      omega
    · rw [within_two, value (by omega)]
      omega
    · rw [value (by omega), value (by omega), value (by omega)]
      omega
  · rw [if_neg three, List.cons_append, decodeFrom_cons, step,
      start_four _ (by rw [value (by omega)]; omega) (by rw [value (by omega)]; omega)]
    refine decodeFrom_more.mpr ⟨_, _, rfl, ?_, decodeFrom_more.mpr ⟨_, _, rfl, ?_,
      decodeFrom_last.mpr ⟨_, bs, rfl, ?_, spelled ?_⟩⟩⟩
    · rw [within_four, value (by omega), value (by omega)]
      omega
    · rw [within_two, value (by omega)]
      omega
    · rw [within_two, value (by omega)]
      omega
    · rw [value (by omega), value (by omega), value (by omega), value (by omega)]
      omega

/-! ## Whole texts -/

theorem encode_cons (c : Char) (cs : List Char) :
    encode (c :: cs) = String.utf8EncodeChar c ++ encode cs := rfl

theorem encode_append (first second : List Char) :
    encode (first ++ second) = encode first ++ encode second := List.flatMap_append

theorem decodeFrom_encode (done cs : List Char) :
    decodeFrom done .ready (encode cs) = some (done.reverse ++ cs) := by
  induction cs generalizing done with
  | nil => rw [List.append_nil]; rfl
  | cons c cs inductionHypothesis =>
      have later := inductionHypothesis (c :: done)
      rw [List.reverse_cons, List.append_assoc, List.singleton_append] at later
      exact decodeFrom_char later

theorem exists_of_decodeFrom {done cs : List Char} {bs : List UInt8}
    (read : decodeFrom done .ready bs = some cs) :
    ∃ text, cs = done.reverse ++ text ∧ bs = encode text := by
  induction length : bs.length using Nat.strongRecOn generalizing done bs with
  | ind count inductionHypothesis =>
      cases bs with
      | nil =>
          cases read
          exact ⟨[], (List.append_nil _).symm, rfl⟩
      | cons b bs =>
          obtain ⟨c, rest, split, later⟩ := exists_char_of_decodeFrom read
          have shorter : rest.length < count := by
            have sizes := congrArg List.length split
            rw [List.length_append, String.length_utf8EncodeChar] at sizes
            have positive := Char.utf8Size_pos c
            omega
          obtain ⟨text, isText, isRest⟩ := inductionHypothesis _ shorter later rfl
          refine ⟨c :: text, ?_, ?_⟩
          · rw [isText, List.reverse_cons, List.append_assoc]
            rfl
          · rw [split, isRest]
            rfl

/-- The strict reading accepts exactly what writing produces. -/
theorem decode?_eq_some_iff {bs : List UInt8} {cs : List Char} :
    decode? bs = some cs ↔ bs = encode cs := by
  constructor
  · intro read
    obtain ⟨text, isText, isBytes⟩ := exists_of_decodeFrom read
    rw [isBytes, isText]
    rfl
  · rintro rfl
    exact decodeFrom_encode [] cs

end DualStore.Text.Utf8
