import DualStore.Number.Bounds
import DualStore.Text.Decimal

/-!
Contract: the text that tells where a document server is.

Owns: which texts are usable. A usable one has the scheme of the servers, behind optional
credentials at least one host, each with an optional port, then an optional database, and options
that are pairs of a key and a value.

Does not own: the meaning of the options, and hosts that are looked up by service records, for
which such a text is not usable.
-/

namespace DualStore

open DualStore.Number DualStore.Text

/-- Why a text is no connection string. -/
inductive ConnectionFault where
  | noScheme
  | unknownScheme
  | noHost
  | invalidPort
  | invalidDatabase
  | invalidOption
deriving DecidableEq, Repr

def ConnectionFault.message : ConnectionFault → String
  | noScheme => "connection string contains no scheme"
  | unknownScheme => "invalid connection string scheme"
  | noHost => "missing host"
  | invalidPort => "port must be a number from 1 to 65535"
  | invalidDatabase => "illegal character in database name"
  | invalidOption => "connection string option is not a pair of a key and a value"

namespace ConnectionString

/-- The characters before the first one of a kind, and those behind it, if there is one. -/
def cutAt (c : Char) (cs : List Char) : List Char × Option (List Char) :=
  match cs.dropWhile (· ≠ c) with
  | [] => (cs, none)
  | _ :: rest => (cs.takeWhile (· ≠ c), some rest)

/-- The characters between marks. -/
def splitAt (c : Char) (cs : List Char) : List (List Char) :=
  cs.foldr
    (fun x parts =>
      if x = c then [] :: parts
      else
        match parts with
        | part :: parts => (x :: part) :: parts
        | [] => [[x]])
    [[]]

def checkHost (cs : List Char) : Except ConnectionFault Unit :=
  match cutAt ':' cs with
  | ([], _) => .error .noHost
  | (_, none) => .ok ()
  | (_, some port) =>
      match readNat largestNat16 (String.ofList port) with
      | .ok 0 | .error _ => .error .invalidPort
      | .ok _ => .ok ()

/-- The characters that no name of a database has. -/
def forbidden : List Char := ['/', '\\', ' ', '"', '$']

def checkOption (cs : List Char) : Except ConnectionFault Unit :=
  if (cutAt '=' cs).2.isNone then .error .invalidOption else .ok ()

def check (text : String) : Except ConnectionFault Unit :=
  let cs := text.toList
  match cutAt ':' cs with
  | (scheme, some ('/' :: '/' :: rest)) =>
      if String.ofList scheme ≠ "mongodb" then .error .unknownScheme
      else do
        let (place, options) := cutAt '?' rest
        let located := (place.reverse.takeWhile (· ≠ '@')).reverse
        let (hosts, database) := cutAt '/' located
        (splitAt ',' hosts).forM checkHost
        if (database.getD []).any (forbidden.contains ·) then .error .invalidDatabase
        ((options.map (splitAt '&')).getD []).forM checkOption
  | _ => .error .noScheme

end ConnectionString

example : ConnectionString.check "mongodb://user:secret@a:27017,b/db?w=1" = .ok () := by cbv
example : ConnectionString.check "mongodb://" = .error .noHost := by cbv
example : ConnectionString.check "http://a" = .error .unknownScheme := by cbv

end DualStore
