import DualStore.Json.Failure
import DualStore.Number.Bounds
import DualStore.Text.Blank

/-!
Contract: the kinds of field that a record has, the values they hold, and their reading from the
tokens of a JSON text.

Owns:
- the kinds, told by what they hold, whether null stands for a default, and whether the field may
  be absent;
- one reader for each kind, which takes exactly the tokens of one value and reports the first
  problem from the left;
- times as they are written, which are resolved elsewhere.

Does not own: the names of fields and their order.
-/

namespace DualStore.Record

open DualStore.Json DualStore.Number DualStore.Text

/-- A time as an event states it: a count since the epoch, or a text. -/
inductive WrittenTime where
  | epoch (count : Int64)
  | text (content : String)
deriving DecidableEq, Repr

inductive FieldType where
  | identifier
  | int64
  /-- An integer of 64 bits, zero when null or absent. -/
  | int64OrZero
  /-- An integer of 32 bits, zero when null or absent. -/
  | int32OrZero
  /-- An integer of 64 bits, or nothing. -/
  | optionalInt64
  | textOrEmpty
  /-- A text, or nothing. -/
  | optionalText
  /-- A list of texts, empty when null or absent. -/
  | textsOrEmpty
  /-- A time, or nothing. -/
  | optionalTime
deriving DecidableEq, Repr

namespace FieldType

@[reducible] def Holds : FieldType → Type
  | identifier => String
  | int64 => Int64
  | int64OrZero => Int64
  | int32OrZero => Int32
  | optionalInt64 => Option Int64
  | textOrEmpty => String
  | optionalText => Option String
  | textsOrEmpty => List String
  | optionalTime => Option WrittenTime

/-- What an absent field holds; none when the field is required. -/
def absent : (type : FieldType) → Option type.Holds
  | identifier => none
  | int64 => none
  | int64OrZero => some 0
  | int32OrZero => some 0
  | optionalInt64 => some none
  | textOrEmpty => some ""
  | optionalText => some none
  | textsOrEmpty => some []
  | optionalTime => some none

end FieldType

/-! ## Readers of single values -/

/-- A value and the tokens behind it, or the first failure from the left. -/
abbrev Read (α : Type) := Except Failure (α × List Token)

/-- The failure where a value is wanted and the tokens end. -/
def noValue (ending : Ending) : Failure :=
  (ending.atValue (.kept depthLimit) .unfinishedValue).failure

/-- The failure where one kind of value is wanted and a token begins another. A text or a number
that cannot be read is malformed before it is of the wrong kind. -/
def unwanted (wanted : Wanted) : Token → Failure
  | .null => .mismatch (.wrongType .null wanted)
  | .bool b => .mismatch (.wrongType (.bool b) wanted)
  | .number (some (.whole n)) => .mismatch (.wrongType (.whole n) wanted)
  | .number (some (.double x)) => .mismatch (.wrongType (.double x) wanted)
  | .text (some content) => .mismatch (.wrongType (.text content) wanted)
  | .openItems => .mismatch (.wrongType .items wanted)
  | .openMembers => .mismatch (.wrongType .members wanted)
  | _ => .malformed

def readInt64 (ending : Ending) : List Token → Read Int64
  | [] => .error (noValue ending)
  | .number (some (.whole n)) :: tokens =>
      if fits largestInt64 n then .ok (Int64.ofInt n, tokens)
      else .error (.mismatch (.outOfRange n .int64))
  | token :: _ => .error (unwanted .int64 token)

def readInt32 (ending : Ending) : List Token → Read Int32
  | [] => .error (noValue ending)
  | .number (some (.whole n)) :: tokens =>
      if fits largestInt32 n then .ok (Int32.ofInt n, tokens)
      else .error (.mismatch (.outOfRange n .int32))
  | token :: _ => .error (unwanted .int32 token)

def readString (ending : Ending) : List Token → Read String
  | [] => .error (noValue ending)
  | .text (some content) :: tokens => .ok (content, tokens)
  | token :: _ => .error (unwanted .text token)

/-- Where the reader of a list stands: behind the opening bracket, behind a comma, or behind an
element. -/
inductive Place where
  | opened
  | wanting
  | following
deriving DecidableEq, Repr

/-- The texts of a list from some place on; those before it are given last first. -/
def readStringsFrom (ending : Ending) (done : List String) : Place → List Token →
    Read (List String)
  | .opened, [] => .error (ending.atValue (.kept depthLimit) .unfinishedItems).failure
  | .wanting, [] => .error (noValue ending)
  | .following, [] => .error (ending.atMark .unfinishedItems .expectedItemEnd).failure
  | .opened, .closeItems :: tokens => .ok (done.reverse, tokens)
  | .following, .closeItems :: tokens => .ok (done.reverse, tokens)
  | .following, .comma :: tokens => readStringsFrom ending done .wanting tokens
  | .following, _ :: _ => .error .malformed
  | _, .text (some content) :: tokens => readStringsFrom ending (content :: done) .following tokens
  | _, token :: _ => .error (unwanted .text token)

def readStrings (ending : Ending) : List Token → Read (List String)
  | [] => .error (noValue ending)
  | .openItems :: tokens => readStringsFrom ending [] .opened tokens
  | token :: _ => .error (unwanted .items token)

/-- A whole value that is looked at when it is complete. -/
def readWhole (ending : Ending) (depth : Nat) (accept : Tree → Except Mismatch α)
    (tokens : List Token) : Read α :=
  match readTree (.kept depth) ending tokens with
  | .error stop => .error stop.problem.failure
  | .ok (tree, rest) =>
      match accept tree with
      | .ok value => .ok (value, rest)
      | .error cause => .error (.mismatch cause)

/-- An identifier: a text, kept without the blanks around it, or an integer, kept by its decimal
text. -/
def acceptIdentifier : Tree → Except Mismatch String
  | .text content => if isBlank content then .error .blankIdentifier else .ok (trim content)
  | .number (.whole n) =>
      if fits largestInt64 n then .ok (intText n) else .error (.noAlternative .identifier)
  | _ => .error (.noAlternative .identifier)

/-- A time: an integer or a text. -/
def acceptTime : Tree → Except Mismatch WrittenTime
  | .number (.whole n) =>
      if fits largestInt64 n then .ok (.epoch (Int64.ofInt n))
      else .error (.noAlternative .timestamp)
  | .text content => .ok (.text content)
  | _ => .error (.noAlternative .timestamp)

/-- Null stands for a given value; anything else is read. -/
def orNull (value : α) (read : List Token → Read α) : List Token → Read α
  | .null :: tokens => .ok (value, tokens)
  | tokens => read tokens

/-- Null stands for nothing; anything else is read. -/
def orNothing (read : List Token → Read α) (tokens : List Token) : Read (Option α) :=
  orNull none (fun tokens => (read tokens).map fun (value, rest) => (some value, rest)) tokens

/-- The value of a field inside a record. -/
def FieldType.read (ending : Ending) : (type : FieldType) → List Token → Read type.Holds
  | .identifier => readWhole ending (depthLimit - 1) acceptIdentifier
  | .int64 => readInt64 ending
  | .int64OrZero => orNull 0 (readInt64 ending)
  | .int32OrZero => orNull 0 (readInt32 ending)
  | .optionalInt64 => orNothing (readInt64 ending)
  | .textOrEmpty => orNull "" (readString ending)
  | .optionalText => orNothing (readString ending)
  | .textsOrEmpty => orNull [] (readStrings ending)
  | .optionalTime => orNothing (readWhole ending (depthLimit - 1) acceptTime)

/-! ## Progress -/

theorem readStringsFrom_length_lt {ending : Ending} {done texts : List String} {place : Place}
    {tokens rest : List Token}
    (read : readStringsFrom ending done place tokens = .ok (texts, rest)) :
    rest.length < tokens.length := by
  fun_induction readStringsFrom ending done place tokens <;> simp_all <;> omega

theorem readWhole_length_lt {ending : Ending} {depth : Nat} {accept : Tree → Except Mismatch α}
    {tokens rest : List Token} {value : α}
    (read : readWhole ending depth accept tokens = .ok (value, rest)) :
    rest.length < tokens.length := by
  unfold readWhole at read
  split at read
  · simp at read
  · rename_i tree after treeRead
    have shorter := runReading_length_lt treeRead
    split at read
    · simp at read; rw [← read.2]; exact shorter
    · simp at read

theorem readInt64_length_lt {ending : Ending} {tokens rest : List Token} {value : Int64}
    (read : readInt64 ending tokens = .ok (value, rest)) : rest.length < tokens.length := by
  unfold readInt64 at read
  split at read
  · simp at read
  · split at read
    · simp at read; simp [read.2]
    · simp at read
  · simp at read

theorem readInt32_length_lt {ending : Ending} {tokens rest : List Token} {value : Int32}
    (read : readInt32 ending tokens = .ok (value, rest)) : rest.length < tokens.length := by
  unfold readInt32 at read
  split at read
  · simp at read
  · split at read
    · simp at read; simp [read.2]
    · simp at read
  · simp at read

theorem readString_length_lt {ending : Ending} {tokens rest : List Token} {value : String}
    (read : readString ending tokens = .ok (value, rest)) : rest.length < tokens.length := by
  unfold readString at read
  split at read
  · simp at read
  · simp at read; simp [read.2]
  · simp at read

theorem readStrings_length_lt {ending : Ending} {tokens rest : List Token} {value : List String}
    (read : readStrings ending tokens = .ok (value, rest)) : rest.length < tokens.length := by
  unfold readStrings at read
  split at read
  · simp at read
  · have := readStringsFrom_length_lt read
    simp; omega
  · simp at read

theorem orNull_length_lt {inner : List Token → Read α} {null value : α} {tokens rest : List Token}
    (shorter : ∀ {value : α} {rest : List Token},
      inner tokens = .ok (value, rest) → rest.length < tokens.length)
    (read : orNull null inner tokens = .ok (value, rest)) : rest.length < tokens.length := by
  unfold orNull at read
  split at read
  · simp at read; simp [read.2]
  · exact shorter read

theorem orNothing_length_lt {inner : List Token → Read α} {value : Option α}
    {tokens rest : List Token}
    (shorter : ∀ {value : α} {rest : List Token},
      inner tokens = .ok (value, rest) → rest.length < tokens.length)
    (read : orNothing inner tokens = .ok (value, rest)) : rest.length < tokens.length := by
  refine orNull_length_lt ?_ read
  intro value rest mapped
  cases result : inner tokens with
  | error failure => simp [result, Except.map] at mapped
  | ok pair =>
      obtain ⟨inside, after⟩ := pair
      simp [result, Except.map] at mapped
      rw [← mapped.2]
      exact shorter result

/-- The value of a field takes at least one token. -/
theorem FieldType.read_length_lt {ending : Ending} {type : FieldType} {tokens rest : List Token}
    {value : type.Holds} (read : type.read ending tokens = .ok (value, rest)) :
    rest.length < tokens.length := by
  cases type with
  | identifier => exact readWhole_length_lt read
  | int64 => exact readInt64_length_lt read
  | int64OrZero => exact orNull_length_lt readInt64_length_lt read
  | int32OrZero => exact orNull_length_lt readInt32_length_lt read
  | optionalInt64 => exact orNothing_length_lt readInt64_length_lt read
  | textOrEmpty => exact orNull_length_lt readString_length_lt read
  | optionalText => exact orNothing_length_lt readString_length_lt read
  | textsOrEmpty => exact orNull_length_lt readStrings_length_lt read
  | optionalTime => exact orNothing_length_lt readWhole_length_lt read

end DualStore.Record
