import DualStore.Index.Address
import DualStore.Text.Utf8

/-!
Contract: the paths of requests.

Owns:
- segments in which every byte but letters, digits and five marks is written as a percent sign
  with two digits, so that no slash survives;
- the resolution of a path against the path of an address, in which a segment of one dot stands
  for its place and one of two dots for the place above.

Does not own: which paths a server knows.
-/

namespace DualStore.Path

open DualStore.Text

/-- A byte that stands for itself in a segment. -/
def isPlain (b : UInt8) : Bool :=
  (0x61 ≤ b && b ≤ 0x7A) || (0x41 ≤ b && b ≤ 0x5A) || (0x30 ≤ b && b ≤ 0x39) ||
    b == 0x5F || b == 0x2D || b == 0x2E || b == 0x2C || b == 0x2A

/-- A hexadecimal digit, in upper case. -/
def upperDigit (d : Nat) : Char := (Nat.digitChar d).toUpper

/-- A byte in a segment. -/
def encodeByte (b : UInt8) : List Char :=
  if isPlain b then [Char.ofNat b.toNat]
  else ['%', upperDigit (b.toNat / 16), upperDigit (b.toNat % 16)]

def segment (content : String) : String :=
  String.ofList ((Utf8.encode content.toList).flatMap encodeByte)

/-- Goes on from a place, segment by segment. Dots at the end leave an empty segment. -/
def walk (place : List String) : List String → List String
  | [] => place
  | [last] =>
      if last = "." then place ++ [""]
      else if last = ".." then place.dropLast ++ [""]
      else place ++ [last]
  | segment :: segments =>
      if segment = "." then walk place segments
      else if segment = ".." then walk place.dropLast segments
      else walk (place ++ [segment]) segments

def text (segments : List String) : String :=
  "/" ++ String.intercalate "/" segments

/-- The path of a request to an address, from its unresolved segments. -/
def resolve (address : Address) (segments : List String) : String :=
  text (walk address.segments segments)

example : segment "a b/é" = "a%20b%2F%C3%A9" := by decide +kernel

end DualStore.Path
