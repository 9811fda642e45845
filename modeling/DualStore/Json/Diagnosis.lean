import DualStore.Json.Tree

/-!
Contract: the message about a text that is no JSON, with the place where reading stopped.

Owns:
- the place of every problem: behind the last byte that was looked at, as a line and a column
  that count from one and from zero;
- the message, problem first.

Does not own: which problem it is; the tree reader decides that.
-/

namespace DualStore.Json

open DualStore.Text

/-- What remains of a text at the start of each of its tokens, and where no token can be cut. -/
def tokenStarts (bs : List UInt8) : List (List UInt8) :=
  match _skipped : skipBlanks bs with
  | [] => []
  | b :: rest =>
      match _step : cut b rest with
      | .token _ after => (b :: rest) :: tokenStarts after
      | .fault .. => [b :: rest]
termination_by bs.length
decreasing_by
  have shorter := cut_length_le _step
  have blanks := skipBlanks_length_le bs
  rw [_skipped] at blanks
  simp at blanks
  omega

/-- The problems that lie between two tokens: they are noticed at the first byte of the second. -/
def Problem.isBetweenTokens : Problem → Bool
  | .expectedColon | .expectedItemEnd | .expectedMemberEnd | .expectedValue | .keyNotText
  | .trailingComma | .trailingCharacters | .nestedTooDeeply => true
  | _ => false

/-- Where the leaf at the head of a text stops being one; behind it, if it never does. -/
def leafStop (bs : List UInt8) : Option Stop :=
  match bs with
  | [] => none
  | b :: rest =>
      if b = 0x22 then
        match readText rest with
        | .error stop => some stop
        | .ok _ => none
      else if b = 0x2D || isDigit b then
        match readNumeral bs with
        | .error stop => some stop
        | .ok (_, rest) => some ⟨.numberOutOfRange, rest⟩
      else
        let letters : List UInt8 :=
          if b = 0x6E then [0x75, 0x6C, 0x6C]
          else if b = 0x74 then [0x72, 0x75, 0x65]
          else [0x61, 0x6C, 0x73, 0x65]
        match readLetters letters rest with
        | .error stop => some stop
        | .ok _ => none

structure Diagnosis where
  problem : Problem
  line : Nat
  column : Nat
deriving DecidableEq, Repr

/-- The place behind the first `count` bytes of a text. -/
def Diagnosis.at (problem : Problem) (bs : List UInt8) (count : Nat) : Diagnosis :=
  let before := bs.take count
  let onLine := before.reverse.takeWhile (· ≠ 0x0A)
  ⟨problem, 1 + before.count 0x0A, onLine.length⟩

def diagnose (bs : List UInt8) (scan : Scan) (stop : TokenStop) : Diagnosis :=
  match (tokenStarts bs).drop (scan.tokens.length - stop.left.length) with
  | [] => .at stop.problem bs bs.length
  | start :: _ =>
      let before := bs.length - start.length
      if stop.problem.isBetweenTokens then .at stop.problem bs (before + 1)
      else
        match leafStop start with
        | some leaf => .at leaf.problem bs (bs.length - leaf.left.length)
        | none => .at stop.problem bs (before + 1)

/-- The tree of a text, or the diagnosis of what is wrong with it. -/
def parse (bs : List UInt8) : Except Diagnosis Tree :=
  match (scan bs).tree with
  | .ok tree => .ok tree
  | .error stop => .error (diagnose bs (scan bs) stop)

def Diagnosis.message (diagnosis : Diagnosis) : String :=
  diagnosis.problem.message ++ " at line " ++ natText diagnosis.line ++ " column " ++
    natText diagnosis.column

end DualStore.Json
