import DualStore.Json.Writer
import DualStore.Proofs.Json.Grammar

/-!
Contract: what the writer writes is a strict text of the tree that it was given.

Owns:
- the quoted form of a string is a strict text, whatever its characters;
- the digits of an integer of 64 bits are a number whose value it is;
- the bytes of a tree without doubles spell that tree.

Does not own: the shortest form of doubles.
-/

namespace DualStore.Json

open DualStore.Number DualStore.Text DualStore.Text.Utf8

/-! ## Quoted texts -/

section Quoted

variable {bs content rest : List UInt8}

/-- A byte that stands for itself inside quotes. -/
def IsPlainByte (b : UInt8) : Prop := b ≠ 0x22 ∧ b ≠ 0x5C ∧ ¬ b < 0x20

theorem PairedText.append_plain {plain : List UInt8} (arePlain : ∀ b ∈ plain, IsPlainByte b)
    (paired : PairedText bs content rest) :
    PairedText (plain ++ bs) (plain ++ content) rest := by
  induction plain with
  | nil => exact paired
  | cons b plain inductionHypothesis =>
      obtain ⟨notQuote, notEscape, visible⟩ := arePlain b List.mem_cons_self
      exact .plain notQuote notEscape visible
        (inductionHypothesis fun later isLater => arePlain later (List.mem_cons_of_mem _ isLater))

theorem isPlainByte_ofNat {n : Nat} (small : n < 0x100) (notQuote : n ≠ 0x22)
    (notEscape : n ≠ 0x5C) (visible : 0x20 ≤ n) : IsPlainByte (UInt8.ofNat n) := by
  refine ⟨fun same => notQuote ((ofNat_eq_iff small).mp same),
    fun same => notEscape ((ofNat_eq_iff small).mp same), ?_⟩
  rw [UInt8.lt_iff_toNat_lt, UInt8.toNat_ofNat_of_lt' small]
  show ¬ n < 0x20
  omega

/-- The bytes of a visible character that is neither a quote nor a backslash. -/
theorem isPlainByte_of_mem {c : Char} (notQuote : c ≠ '"') (notEscape : c ≠ '\\')
    (visible : 0x20 ≤ c.toNat) {b : UInt8} (member : b ∈ String.utf8EncodeChar c) :
    IsPlainByte b := by
  have bound : c.toNat < 0x110000 := by
    rcases c.valid with below | ⟨_, below⟩
    · have below : c.toNat < 0xD800 := below
      omega
    · exact below
  have quote : c.toNat ≠ 0x22 := fun same => notQuote (Char.toNat_inj.mp same)
  have escape : c.toNat ≠ 0x5C := fun same => notEscape (Char.toNat_inj.mp same)
  rw [utf8EncodeChar_eq] at member
  by_cases one : c.toNat < 0x80
  · rw [if_pos one, List.mem_singleton] at member
    rw [member]
    exact isPlainByte_ofNat (by omega) quote escape visible
  rw [if_neg one] at member
  by_cases two : c.toNat < 0x800
  · rw [if_pos two] at member
    simp only [List.mem_cons, List.not_mem_nil, or_false] at member
    rcases member with rfl | rfl <;> apply isPlainByte_ofNat <;> omega
  rw [if_neg two] at member
  by_cases three : c.toNat < 0x10000
  · rw [if_pos three] at member
    simp only [List.mem_cons, List.not_mem_nil, or_false] at member
    rcases member with rfl | rfl | rfl <;> apply isPlainByte_ofNat <;> omega
  · rw [if_neg three] at member
    simp only [List.mem_cons, List.not_mem_nil, or_false] at member
    rcases member with rfl | rfl | rfl | rfl <;> apply isPlainByte_ofNat <;> omega

/-- A control character without a one-letter escape is written by its code. -/
theorem paired_controlCode {c : Char} (control : c.toNat < 0x20)
    (paired : PairedText bs content rest) :
    PairedText
      (encode ['\\', 'u', '0', '0', hexDigit (c.toNat / 16), hexDigit (c.toNat % 16)] ++ bs)
      (String.utf8EncodeChar c ++ content) rest := by
  have digit : ∀ d : Fin 16, encode [hexDigit d.val] = [UInt8.ofNat (hexDigit d.val).toNat] := by
    decide +kernel
  have unit : ∀ n : Fin 32, hexUnit? 0x30 0x30 (UInt8.ofNat (hexDigit (n.val / 16)).toNat)
      (UInt8.ofNat (hexDigit (n.val % 16)).toNat) = some n.val := by
    decide +kernel
  have noSurrogate : ∀ n : Fin 32, closesPair n.val = false ∧ opensPair n.val = false := by
    decide +kernel
  have leading : encode ['\\', 'u', '0', '0'] = [0x5C, 0x75, 0x30, 0x30] := by decide +kernel
  have written : ['\\', 'u', '0', '0', hexDigit (c.toNat / 16), hexDigit (c.toNat % 16)] =
      ['\\', 'u', '0', '0'] ++ ([hexDigit (c.toNat / 16)] ++ [hexDigit (c.toNat % 16)]) := rfl
  have first := digit ⟨c.toNat / 16, by omega⟩
  have second := digit ⟨c.toNat % 16, by omega⟩
  have spelled := PairedText.unit (unit ⟨c.toNat, control⟩) (noSurrogate ⟨c.toNat, control⟩).1
    (noSurrogate ⟨c.toNat, control⟩).2 paired
  rw [Char.ofNat_toNat] at spelled
  rw [written, encode_append, encode_append, leading, first, second]
  exact spelled

theorem paired_short {c letter : Char} (e b : UInt8) (written : encode ['\\', letter] = [0x5C, e])
    (escape : shortEscape? e = some b) (isByte : String.utf8EncodeChar c = [b])
    (paired : PairedText bs content rest) :
    PairedText (encode ['\\', letter] ++ bs) (String.utf8EncodeChar c ++ content) rest := by
  rw [written, isByte]
  exact .short escape paired

/-- A character as the writer escapes it stands for itself. -/
theorem paired_writeChar (c : Char) (paired : PairedText bs content rest) :
    PairedText (encode (writeChar c) ++ bs) (String.utf8EncodeChar c ++ content) rest := by
  rw [writeChar]
  by_cases quote : c = '"'
  · rw [if_pos quote, quote]
    exact paired_short 0x22 0x22 (by decide +kernel) rfl (by decide +kernel) paired
  rw [if_neg quote]
  by_cases escape : c = '\\'
  · rw [if_pos escape, escape]
    exact paired_short 0x5C 0x5C (by decide +kernel) rfl (by decide +kernel) paired
  rw [if_neg escape]
  by_cases control : c.toNat < 0x20
  · have shorts : ∀ n, c.toNat = n → c = Char.ofNat n := by
      rintro n rfl
      exact (Char.ofNat_toNat c).symm
    rw [if_pos control]
    by_cases backspace : c.toNat = 0x08
    · rw [if_pos backspace, shorts _ backspace]
      exact paired_short 0x62 0x08 (by decide +kernel) rfl (by decide +kernel) paired
    rw [if_neg backspace]
    by_cases tab : c.toNat = 0x09
    · rw [if_pos tab, shorts _ tab]
      exact paired_short 0x74 0x09 (by decide +kernel) rfl (by decide +kernel) paired
    rw [if_neg tab]
    by_cases newLine : c.toNat = 0x0A
    · rw [if_pos newLine, shorts _ newLine]
      exact paired_short 0x6E 0x0A (by decide +kernel) rfl (by decide +kernel) paired
    rw [if_neg newLine]
    by_cases newPage : c.toNat = 0x0C
    · rw [if_pos newPage, shorts _ newPage]
      exact paired_short 0x66 0x0C (by decide +kernel) rfl (by decide +kernel) paired
    rw [if_neg newPage]
    by_cases lineStart : c.toNat = 0x0D
    · rw [if_pos lineStart, shorts _ lineStart]
      exact paired_short 0x72 0x0D (by decide +kernel) rfl (by decide +kernel) paired
    rw [if_neg lineStart]
    exact paired_controlCode control paired
  · rw [if_neg control]
    have written : encode [c] = String.utf8EncodeChar c := List.append_nil _
    rw [written]
    exact paired.append_plain fun b member =>
      isPlainByte_of_mem quote escape (Nat.le_of_not_lt control) member

/-- The quoted form of a string is a strict text of it. -/
theorem strict_writeText (content : String) (rest : List UInt8) :
    ∃ bs, encode (writeText content) ++ rest = 0x22 :: bs ∧ StrictText bs content rest := by
  have inner : ∀ cs : List Char,
      PairedText (encode (cs.flatMap writeChar) ++ 0x22 :: rest) (encode cs) rest := by
    intro cs
    induction cs with
    | nil => exact .close
    | cons c cs inductionHypothesis =>
        rw [List.flatMap_cons, encode_append, encode_cons, List.append_assoc]
        exact paired_writeChar c inductionHypothesis
  have written : encode (writeText content) ++ rest =
      0x22 :: (encode (content.toList.flatMap writeChar) ++ 0x22 :: rest) := by
    have quote : String.utf8EncodeChar '"' = [0x22] := by decide +kernel
    rw [writeText, List.cons_append, encode_cons, encode_append, encode_cons, quote,
      List.append_assoc, List.append_assoc]
    rfl
  exact ⟨_, written, inner content.toList⟩

end Quoted

/-! ## Integers -/

theorem natDigits_eq (n : Nat) :
    natDigits n = if n < 10 then [n.digitChar] else natDigits (n / 10) ++ [(n % 10).digitChar] :=
  Nat.toDigits_eq_if (by decide)

theorem encode_digitChar {d : Nat} (small : d < 10) :
    encode [d.digitChar] = [UInt8.ofNat (0x30 + d)] := by
  have all : ∀ d : Fin 10, encode [d.val.digitChar] = [UInt8.ofNat (0x30 + d.val)] := by
    decide +kernel
  exact all ⟨d, small⟩

theorem digit_ofNat {d : Nat} (small : d < 10) :
    isDigit (UInt8.ofNat (0x30 + d)) = true ∧ digitOf (UInt8.ofNat (0x30 + d)) = d := by
  have all : ∀ d : Fin 10, isDigit (UInt8.ofNat (0x30 + d.val)) = true ∧
      digitOf (UInt8.ofNat (0x30 + d.val)) = d.val := by
    decide +kernel
  exact all ⟨d, small⟩

/-- The bytes of the digits of a number, its last digit apart. -/
theorem encode_natDigits (n : Nat) :
    encode (natDigits n) =
      if n < 10 then [UInt8.ofNat (0x30 + n)]
      else encode (natDigits (n / 10)) ++ [UInt8.ofNat (0x30 + n % 10)] := by
  rw [natDigits_eq]
  by_cases small : n < 10
  · rw [if_pos small, if_pos small, encode_digitChar small]
  · rw [if_neg small, if_neg small, encode_append, encode_digitChar (Nat.mod_lt n (by decide))]

theorem digitRun_natDigits (n : Nat) : DigitRun (encode (natDigits n)) := by
  induction n using Nat.strongRecOn with
  | ind n inductionHypothesis =>
      rw [encode_natDigits]
      by_cases small : n < 10
      · rw [if_pos small]
        refine ⟨List.cons_ne_nil _ _, ?_⟩
        intro b member
        rw [List.mem_singleton.mp member]
        exact (digit_ofNat small).1
      · rw [if_neg small]
        have front := inductionHypothesis (n / 10) (by omega)
        refine ⟨List.append_ne_nil_of_left_ne_nil front.nonempty _, ?_⟩
        intro b member
        rcases List.mem_append.mp member with early | last
        · exact front.allDigits b early
        · rw [List.mem_singleton.mp last]
          exact (digit_ofNat (Nat.mod_lt n (by decide))).1

theorem natDigits_head {n : Nat} (positive : 0 < n) :
    ∃ d ds, encode (natDigits n) = d :: ds ∧ d ≠ 0x30 := by
  induction n using Nat.strongRecOn with
  | ind n inductionHypothesis =>
      rw [encode_natDigits]
      by_cases small : n < 10
      · rw [if_pos small]
        refine ⟨_, [], rfl, ?_⟩
        intro same
        have isZero : 0x30 + n = 0x30 := (ofNat_eq_iff (by omega)).mp same
        omega
      · rw [if_neg small]
        obtain ⟨d, ds, front, notZero⟩ := inductionHypothesis (n / 10) (by omega) (by omega)
        exact ⟨d, ds ++ [_], by rw [front, List.cons_append], notZero⟩

theorem wholeForm_natDigits (n : Nat) : WholeForm (encode (natDigits n)) := by
  by_cases isZero : n = 0
  · rw [isZero]
    exact .zero
  · obtain ⟨d, ds, written, notZero⟩ := natDigits_head (Nat.pos_of_ne_zero isZero)
    have run := digitRun_natDigits n
    rw [written] at run ⊢
    exact .digits run notZero

theorem gather_concat {first value : Nat} {digits : List UInt8} {d : UInt8}
    (gathered : gather first digits = (value, 0))
    (fitting : value * 10 + digitOf d ≤ largestSignificand) :
    gather first (digits ++ [d]) = (value * 10 + digitOf d, 0) := by
  induction digits generalizing first with
  | nil =>
      cases gathered
      show (if value * 10 + digitOf d ≤ largestSignificand then _ else _) = _
      rw [if_pos fitting]
      rfl
  | cons digit digits inductionHypothesis =>
      rw [gather] at gathered
      rw [List.cons_append, gather]
      by_cases small : first * 10 + digitOf digit ≤ largestSignificand
      · simp only [if_pos small] at gathered ⊢
        exact inductionHypothesis gathered
      · simp [small] at gathered

/-- The digits of a number within 64 bits are gathered to it. -/
theorem gather_natDigits {n : Nat} (small : n ≤ largestNat64) :
    gather 0 (encode (natDigits n)) = (n, 0) := by
  induction n using Nat.strongRecOn with
  | ind n inductionHypothesis =>
      rw [encode_natDigits]
      by_cases oneDigit : n < 10
      · rw [if_pos oneDigit]
        have last := gather_concat (rfl : gather 0 [] = (0, 0))
          (d := UInt8.ofNat (0x30 + n)) (by
            rw [(digit_ofNat oneDigit).2, Nat.zero_mul, Nat.zero_add]
            exact small)
        rw [(digit_ofNat oneDigit).2, Nat.zero_mul, Nat.zero_add] at last
        exact last
      · rw [if_neg oneDigit]
        have digit := (digit_ofNat (Nat.mod_lt n (show 0 < 10 by decide))).2
        have whole : n / 10 * 10 + n % 10 = n := by omega
        have last := gather_concat (inductionHypothesis (n / 10) (by omega) (by omega))
          (d := UInt8.ofNat (0x30 + n % 10)) (by rw [digit, whole]; exact small)
        rw [digit, whole] at last
        exact last

/-- An integer of 64 bits as its numeral. -/
def writtenNumeral (n : Int) : Numeral := ⟨decide (n < 0), encode (natDigits n.natAbs), [], none⟩

theorem numeralForm_intDigits (n : Int) :
    NumeralForm (encode (intDigits n)) (writtenNumeral n) := by
  have whole := wholeForm_natDigits n.natAbs
  rw [intDigits, writtenNumeral]
  by_cases negative : n < 0
  · rw [if_pos negative, decide_eq_true negative]
    have minus := NumeralForm.minus whole .absent .absent
    rw [List.append_nil, List.append_nil] at minus
    exact minus
  · rw [if_neg negative, decide_eq_false negative]
    have plain := NumeralForm.plain whole .absent .absent
    rw [List.append_nil, List.append_nil] at plain
    exact plain

theorem value?_writtenNumeral {n : Int} (inRange : fits largestInt64 n = true) :
    (writtenNumeral n).value? = some (.whole n) := by
  have bounds : -9223372036854775808 ≤ n ∧ n ≤ 9223372036854775807 := by
    simpa [fits] using inRange
  have gathered : gather 0 (encode (natDigits n.natAbs)) = (n.natAbs, 0) :=
    gather_natDigits (show n.natAbs ≤ 18446744073709551615 by omega)
  rw [writtenNumeral, Numeral.value?]
  simp only [gathered, Numeral.isPlain, List.isEmpty_nil, Option.isNone_none, Bool.and_self,
    decide_true, if_true]
  by_cases negative : n < 0
  · have magnitude : (decide (0 < n.natAbs) && decide (n.natAbs ≤ largestInt64 + 1)) = true := by
      rw [Bool.and_eq_true, decide_eq_true_eq, decide_eq_true_eq]
      show 0 < n.natAbs ∧ n.natAbs ≤ 9223372036854775807 + 1
      omega
    have value : -(n.natAbs : Int) = n := by omega
    rw [decide_eq_true negative, if_neg (by decide), if_pos magnitude, value]
  · have value : (n.natAbs : Int) = n := by omega
    rw [decide_eq_false negative, Bool.not_false, if_pos rfl, value]

/-! ## Trees -/

namespace Tree

mutual

/-- Every number of a tree is an integer of 64 bits. -/
def Integral : Tree → Prop
  | .number (.whole n) => fits largestInt64 n = true
  | .number (.double _) => False
  | .items values => IntegralItems values
  | .members fields => IntegralMembers fields
  | _ => True

def IntegralItems : List Tree → Prop
  | [] => True
  | value :: values => value.Integral ∧ IntegralItems values

def IntegralMembers : List (String × Tree) → Prop
  | [] => True
  | (_, value) :: fields => value.Integral ∧ IntegralMembers fields

end

end Tree

theorem Laid.writtenText {rest : List UInt8} {tokens : List Token} (content : String)
    (laid : Laid rest tokens) :
    Laid (encode (writeText content) ++ rest) (.text (some content) :: tokens) := by
  obtain ⟨bs, written, strict⟩ := strict_writeText content rest
  rw [written]
  exact .token (.strictText strict) laid

theorem Laid.writtenWhole {rest : List UInt8} {tokens : List Token} {n : Int}
    (inRange : fits largestInt64 n = Bool.true) (laid : Laid rest tokens) :
    Laid (encode (intDigits n) ++ rest) (.number (some (.whole n)) :: tokens) := by
  rw [← value?_writtenNumeral inRange]
  exact .token (.number (numeralForm_intDigits n)) laid

/-- A mark in front of what is laid out already. -/
theorem Laid.writtenMark {c : Char} {b : UInt8} {cs : List Char} {rest : List UInt8} {token : Token}
    {tokens : List Token} (isByte : String.utf8EncodeChar c = [b])
    (form : TokenForm (b :: (encode cs ++ rest)) token (encode cs ++ rest))
    (laid : Laid (encode cs ++ rest) tokens) :
    Laid (encode (c :: cs) ++ rest) (token :: tokens) := by
  rw [encode_cons, isByte]
  exact .token form laid

theorem Laid.writtenKey {key : String} {cs : List Char} {rest : List UInt8} {tokens : List Token}
    (laid : Laid (encode cs ++ rest) tokens) :
    Laid (encode (writeText key ++ ':' :: cs) ++ rest) (.text (some key) :: .colon :: tokens) := by
  rw [encode_append, List.append_assoc]
  exact .writtenText key (.writtenMark (by decide +kernel) .colon laid)

mutual

/-- The bytes of a tree are laid out as its tokens. -/
theorem laid_write : (tree : Tree) → tree.Integral → {rest : List UInt8} → {tokens : List Token} →
    Laid rest tokens → Laid (encode tree.write ++ rest) (tree.draft.tokens tokens)
  | .null, _, _, _, laid => by
      have written : encode ['n', 'u', 'l', 'l'] = [0x6E, 0x75, 0x6C, 0x6C] := by decide +kernel
      rw [Tree.write, written]
      exact .token .null laid
  | .bool true, _, _, _, laid => by
      have written : encode ['t', 'r', 'u', 'e'] = [0x74, 0x72, 0x75, 0x65] := by decide +kernel
      rw [Tree.write, written]
      exact .token .true laid
  | .bool false, _, _, _, laid => by
      have written : encode ['f', 'a', 'l', 's', 'e'] = [0x66, 0x61, 0x6C, 0x73, 0x65] := by
        decide +kernel
      rw [Tree.write, written]
      exact .token .false laid
  | .number (.whole _), inRange, _, _, laid => .writtenWhole inRange laid
  | .text content, _, _, _, laid => .writtenText content laid
  | .items values, integral, _, _, laid => by
      rw [Tree.draft, Draft.tokens_items, Tree.write, encode_append, List.append_assoc]
      exact .writtenMark (by decide +kernel) .openItems (laid_writeItems values integral laid)
  | .members fields, integral, _, _, laid => by
      rw [Tree.draft, Draft.tokens_members, Tree.write, encode_append, List.append_assoc]
      exact .writtenMark (by decide +kernel) .openMembers (laid_writeMembers fields integral laid)

theorem laid_writeItems : (values : List Tree) → Tree.IntegralItems values → {rest : List UInt8} →
    {tokens : List Token} → Laid rest tokens →
    Laid (encode (Tree.writeItems values) ++ (encode [']'] ++ rest))
      (Draft.itemTokens (Tree.draftItems values) tokens)
  | [], _, _, _, laid => .writtenMark (by decide +kernel) .closeItems laid
  | [value], integral, _, _, laid =>
      laid_write value integral.1 (.writtenMark (by decide +kernel) .closeItems laid)
  | value :: next :: values, integral, _, _, laid => by
      rw [Tree.writeItems, encode_append, List.append_assoc]
      exact laid_write value integral.1
        (.writtenMark (by decide +kernel) .comma (laid_writeItems (next :: values) integral.2 laid))

theorem laid_writeMembers : (fields : List (String × Tree)) → Tree.IntegralMembers fields →
    {rest : List UInt8} → {tokens : List Token} → Laid rest tokens →
    Laid (encode (Tree.writeMembers fields) ++ (encode ['\x7d'] ++ rest))
      (Draft.memberTokens (Tree.draftMembers fields) tokens)
  | [], _, _, _, laid => .writtenMark (by decide +kernel) .closeMembers laid
  | [(key, value)], integral, _, _, laid =>
      .writtenKey (laid_write value integral.1
        (.writtenMark (by decide +kernel) .closeMembers laid))
  | (key, value) :: next :: fields, integral, _, _, laid => by
      rw [Tree.writeMembers, encode_append, List.append_assoc]
      exact .writtenKey (laid_write value integral.1
        (.writtenMark (by decide +kernel) .comma
          (laid_writeMembers (next :: fields) integral.2 laid)))

end

/-- The bytes of a tree spell that tree. -/
theorem spellsTree_bytes {tree : Tree} (integral : tree.Integral) : SpellsTree tree.bytes tree := by
  have laid := laid_write tree integral .finished
  rwa [List.append_nil] at laid

end DualStore.Json
