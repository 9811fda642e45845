/-!
Contract: which characters are blank, and the removal of blanks around a text.

Owns:
- the table of the Unicode property White_Space;
- trimming and the blank test on characters and on texts.

Does not own: the narrower blanks between JSON tokens, which are four bytes.
-/

namespace DualStore.Text

/-- The code points with the property White_Space, as closed ranges. -/
def blankRanges : List (Nat × Nat) :=
  [(0x09, 0x0D), (0x20, 0x20), (0x85, 0x85), (0xA0, 0xA0), (0x1680, 0x1680), (0x2000, 0x200A),
   (0x2028, 0x2029), (0x202F, 0x202F), (0x205F, 0x205F), (0x3000, 0x3000)]

/-- A character is blank when its code point lies in one of the ranges. -/
def isBlankChar (c : Char) : Bool :=
  blankRanges.any fun range => range.1 ≤ c.toNat && c.toNat ≤ range.2

def trimStartChars (cs : List Char) : List Char :=
  cs.dropWhile isBlankChar

def trimChars (cs : List Char) : List Char :=
  (trimStartChars (trimStartChars cs).reverse).reverse

def trim (s : String) : String :=
  String.ofList (trimChars s.toList)

/-- A text is blank when it holds nothing but blanks; the empty text is blank. -/
def isBlank (s : String) : Bool :=
  s.toList.all isBlankChar

/-- A blank start never survives trimming. -/
theorem trimStartChars_cons_of_blank {c : Char} (cs : List Char) (blank : isBlankChar c = true) :
    trimStartChars (c :: cs) = trimStartChars cs := by
  simp [trimStartChars, blank]

/-- A text that starts with a visible character keeps its start. -/
theorem trimStartChars_cons_of_visible {c : Char} (cs : List Char)
    (visible : isBlankChar c = false) : trimStartChars (c :: cs) = c :: cs := by
  simp [trimStartChars, visible]

/-- Trimming leaves nothing exactly of the blank texts. -/
theorem trimStartChars_eq_nil_iff (cs : List Char) :
    trimStartChars cs = [] ↔ cs.all isBlankChar = true := by
  induction cs with
  | nil => simp [trimStartChars]
  | cons c cs inductionHypothesis =>
      cases visible : isBlankChar c with
      | true => simp [trimStartChars_cons_of_blank cs visible, inductionHypothesis, visible]
      | false => simp [trimStartChars_cons_of_visible cs visible, visible]

example : trim "\u3000 a b\u0085" = "a b" := by decide
example : isBlank "\u200B" = false := by decide

end DualStore.Text
