import DualStore.Fault
import DualStore.Number.Bounds
import DualStore.Text.Decimal

/-!
Contract: addresses of servers, as far as requests need them.

Owns:
- the parts of an address: scheme, host, port and the segments of its path;
- reading: an address starts with a scheme; one of the web's schemes needs a host, and what
  follows a colon behind the host is a port;
- the faults of a text that is no address.

Does not own: user names, queries and fragments, which are passed over, and other spellings of
hosts.
-/

namespace DualStore

open DualStore.Number DualStore.Text

structure Address where
  scheme : String
  host : String
  port : Option Nat := none
  segments : List String := []
deriving DecidableEq, Repr

namespace Address

def isLetter (c : Char) : Bool := ('a' ≤ c && c ≤ 'z') || ('A' ≤ c && c ≤ 'Z')

def isSchemeChar (c : Char) : Bool :=
  isLetter c || (digitValue? c).isSome || c == '+' || c == '-' || c == '.'

/-- The scheme in front of the first colon, and what follows. -/
def cutScheme? (cs : List Char) : Option (String × List Char) :=
  match cs with
  | [] => none
  | first :: _ =>
      if isLetter first then
        match cs.dropWhile isSchemeChar with
        | ':' :: rest => some (String.ofList ((cs.takeWhile isSchemeChar).map Char.toLower), rest)
        | _ => none
      else none

/-- The schemes whose addresses have a host. -/
def webSchemes : List String := ["http", "https", "ws", "wss", "ftp"]

def isSlash (c : Char) : Bool := c == '/' || c == '\\'

/-- What ends the part of an address with the host. -/
def endsAuthority (c : Char) : Bool := isSlash c || c == '?' || c == '#'

/-- What follows the last character of a kind, or all. -/
def behindLast (c : Char) (cs : List Char) : List Char := (cs.reverse.takeWhile (· ≠ c)).reverse

/-- The characters up to a colon outside brackets. -/
def hostPart : Bool → List Char → List Char
  | _, [] => []
  | bracketed, c :: cs =>
      if c == ':' && !bracketed then []
      else c :: hostPart ((bracketed || c == '[') && c != ']') cs

/-- The segments of a path, without an empty one at its end. -/
def pathSegments (cs : List Char) : List String :=
  let path := cs.takeWhile fun c => c != '?' && c != '#'
  let parts := (path.dropWhile isSlash).splitBy fun a b => !isSlash a && !isSlash b
  parts.filterMap fun part => if part.all isSlash then none else some (String.ofList part)

/-- The host, the port and the path that follow the slashes of an address. -/
def ofAuthority (scheme : String) (rest : List Char) : Except AddressFault Address :=
  let authority := behindLast '@' (rest.takeWhile (!endsAuthority ·))
  let host := hostPart false authority
  if host.isEmpty then .error .emptyHost
  else
    let address : Address :=
      { scheme, host := String.ofList host
        segments := pathSegments (rest.dropWhile (!endsAuthority ·)) }
    match authority.drop (host.length + 1) with
    | [] => .ok address
    | digits =>
        match readMagnitude largestNat16 .tooLarge 0 digits with
        | .ok port => .ok { address with port := some port }
        | .error _ => .error .invalidPort

/-- Whether a character is passed over at both ends of an address. -/
def isOuterBlank (c : Char) : Bool := c.toNat ≤ 0x20

def parse (text : String) : Except AddressFault Address :=
  let inner := (text.toList.dropWhile isOuterBlank).reverse.dropWhile isOuterBlank
  let cs := inner.reverse.filter fun c => c != '\t' && c != '\n' && c != '\r'
  match cutScheme? cs with
  | none => .error .relative
  | some (scheme, rest) =>
      if scheme ∈ webSchemes then ofAuthority scheme (rest.dropWhile isSlash)
      else .ok { scheme, host := "", segments := pathSegments rest }

end Address

/-- A port behind the host, and a path. -/
example : Address.parse "http://search:9200/a/b/" =
    .ok { scheme := "http", host := "search", port := some 9200, segments := ["a", "b"] } := by cbv

example : Address.parse "not an address" = .error .relative := by cbv
example : Address.parse "http://" = .error .emptyHost := by cbv
example : Address.parse "http://h:99999" = .error .invalidPort := by cbv

end DualStore
