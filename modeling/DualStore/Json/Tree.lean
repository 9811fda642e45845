import DualStore.Json.Token
import DualStore.Number.Bounds

/-!
Contract: JSON values as trees, and the machine that reads one from tokens.

Owns:
- the tree, which keeps the members of an object in order and with repetitions;
- one machine for all values, with a stack of open lists and objects. Its care says whether
  contents matter: a kept value must have valid texts and finite numbers and may only be nested
  to a limit; of a skipped value neither is asked, and contents are replaced by blank ones;
- the problem that stops the machine, and the tokens left then;
- equality and the accessors of a tree.

Does not own: any shape that a value should have.
-/

namespace DualStore.Json

inductive Tree where
  | null
  | bool (value : Bool)
  | number (value : Value)
  | text (content : String)
  | items (values : List Tree)
  | members (fields : List (String × Tree))
deriving Repr, Inhabited

/-- Whether the content of a value is wanted, and then how deep it may be nested. -/
inductive Care where
  | kept (depth : Nat)
  | skipped
deriving DecidableEq, Repr

/-- The deepest nesting of a text that is kept as a whole. -/
def depthLimit : Nat := 127

namespace Care

/-- The content of a quoted text; a skipped one needs none. -/
def content? (care : Care) (content : Option String) : Option String :=
  match care with
  | .kept _ => content
  | .skipped => some (content.getD "")

/-- The value of a number; a skipped one needs none. -/
def number? (care : Care) (value : Option Value) : Option Tree :=
  match care with
  | .kept _ => value.map .number
  | .skipped => some ((value.map .number).getD .null)

/-- Whether one more list or object may be opened inside others. -/
def allowsInside (care : Care) (outer : List α) : Bool :=
  match care with
  | .kept depth => outer.length < depth
  | .skipped => true

end Care

/-- A list, an object between two members, or an object whose key awaits its value; contents
last first. -/
inductive Frame where
  | items (done : List Tree)
  | members (done : List (String × Tree))
  | pair (done : List (String × Tree)) (key : String)
deriving Repr

/-- What the machine looks for next: a value; a value or the end of the list just opened; a value
behind a comma; a key or the end of the object just opened; a key behind a comma; the colon behind
a key; a comma or the end of the innermost list or object. -/
inductive Phase where
  | value
  | firstItem
  | nextItem
  | firstKey
  | nextKey
  | colon
  | separator
deriving DecidableEq, Repr

/-- What the machine looks for, and the lists and objects that are open, innermost first. -/
structure Reading where
  phase : Phase
  stack : List Frame
deriving Repr

/-- One step goes on, or completes the value that the machine was started for. -/
inductive Progress where
  | continue (reading : Reading)
  | complete (value : Tree)
deriving Repr

namespace Reading

def initial : Reading := ⟨.value, []⟩

/-- A value is complete: it goes into the innermost list or object, or it is the result. -/
def finishValue (value : Tree) : List Frame → Except Problem Progress
  | [] => .ok (.complete value)
  | .items done :: stack => .ok (.continue ⟨.separator, .items (value :: done) :: stack⟩)
  | .pair done key :: stack =>
      .ok (.continue ⟨.separator, .members ((key, value) :: done) :: stack⟩)
  | .members _ :: _ => .error .expectedValue

def takeValue (care : Care) (stack : List Frame) : Token → Except Problem Progress
  | .null => finishValue .null stack
  | .bool b => finishValue (.bool b) stack
  | .number value =>
      match care.number? value with
      | some value => finishValue value stack
      | none => .error .numberOutOfRange
  | .text content =>
      match care.content? content with
      | some content => finishValue (.text content) stack
      | none => .error .invalidCodePoint
  | .openItems =>
      if care.allowsInside stack then .ok (.continue ⟨.firstItem, .items [] :: stack⟩)
      else .error .nestedTooDeeply
  | .openMembers =>
      if care.allowsInside stack then .ok (.continue ⟨.firstKey, .members [] :: stack⟩)
      else .error .nestedTooDeeply
  | _ => .error .expectedValue

def takeKey (care : Care) (stack : List Frame) : Token → Except Problem Progress
  | .text content =>
      match care.content? content, stack with
      | some key, .members done :: stack => .ok (.continue ⟨.colon, .pair done key :: stack⟩)
      | none, _ => .error .invalidCodePoint
      | _, _ => .error .keyNotText
  | _ => .error .keyNotText

/-- What follows a complete value. -/
def takeSeparator (stack : List Frame) : Token → Except Problem Progress
  | token =>
      match stack, token with
      | .items _ :: _, .comma => .ok (.continue ⟨.nextItem, stack⟩)
      | .items done :: outer, .closeItems => finishValue (.items done.reverse) outer
      | .items _ :: _, _ => .error .expectedItemEnd
      | .members _ :: _, .comma => .ok (.continue ⟨.nextKey, stack⟩)
      | .members done :: outer, .closeMembers => finishValue (.members done.reverse) outer
      | .members _ :: _, _ => .error .expectedMemberEnd
      | _, _ => .error .expectedValue

def take (care : Care) (reading : Reading) (token : Token) : Except Problem Progress :=
  match reading.phase, token with
  | .value, _ => takeValue care reading.stack token
  | .firstItem, .closeItems => finishValue (.items []) reading.stack.tail
  | .firstItem, _ => takeValue care reading.stack token
  | .nextItem, .closeItems => .error .trailingComma
  | .nextItem, _ => takeValue care reading.stack token
  | .firstKey, .closeMembers => finishValue (.members []) reading.stack.tail
  | .firstKey, _ => takeKey care reading.stack token
  | .nextKey, .closeMembers => .error .trailingComma
  | .nextKey, _ => takeKey care reading.stack token
  | .colon, .colon => .ok (.continue ⟨.value, reading.stack⟩)
  | .colon, _ => .error .expectedColon
  | .separator, _ => takeSeparator reading.stack token

end Reading

namespace Ending

/-- The problem of a value that is wanted where the tokens end. -/
def atValue (ending : Ending) (care : Care) (unfinished : Problem) : Problem :=
  match ending with
  | .finished => unfinished
  | .cut .nothingKnown _ _ => .expectedValue
  | .cut _ kept skipped =>
      match care with
      | .kept _ => kept
      | .skipped => skipped

def atKey (ending : Ending) (care : Care) (unfinished : Problem) : Problem :=
  match ending with
  | .finished => unfinished
  | .cut .quotedText kept skipped =>
      match care with
      | .kept _ => kept
      | .skipped => skipped
  | .cut _ _ _ => .keyNotText

/-- The problem of a mark that is wanted where the tokens end. -/
def atMark (ending : Ending) (unfinished wrong : Problem) : Problem :=
  match ending with
  | .finished => unfinished
  | .cut .. => wrong

end Ending

def Reading.atEnd (care : Care) (ending : Ending) (reading : Reading) : Problem :=
  match reading.phase, reading.stack with
  | .value, _ | .nextItem, _ => ending.atValue care .unfinishedValue
  | .firstItem, _ => ending.atValue care .unfinishedItems
  | .firstKey, _ => ending.atKey care .unfinishedMembers
  | .nextKey, _ => ending.atKey care .unfinishedValue
  | .colon, _ => ending.atMark .unfinishedMembers .expectedColon
  | .separator, .items _ :: _ => ending.atMark .unfinishedItems .expectedItemEnd
  | .separator, _ => ending.atMark .unfinishedMembers .expectedMemberEnd

/-- A failed reading of tokens, with the tokens left when it is noticed. -/
structure TokenStop where
  problem : Problem
  left : List Token
deriving DecidableEq, Repr

/-- Runs the machine until the value it was started for is complete. -/
def runReading (care : Care) (ending : Ending) (reading : Reading) :
    List Token → Except TokenStop (Tree × List Token)
  | [] => .error ⟨reading.atEnd care ending, []⟩
  | token :: tokens =>
      match reading.take care token with
      | .error problem => .error ⟨problem, token :: tokens⟩
      | .ok (.complete value) => .ok (value, tokens)
      | .ok (.continue reading) => runReading care ending reading tokens

def readTree (care : Care) (ending : Ending) (tokens : List Token) :
    Except TokenStop (Tree × List Token) :=
  runReading care ending .initial tokens

/-- A complete value takes at least one token. -/
theorem runReading_length_lt {care : Care} {ending : Ending} {reading : Reading}
    {tokens rest : List Token} {value : Tree}
    (read : runReading care ending reading tokens = .ok (value, rest)) :
    rest.length < tokens.length := by
  induction tokens generalizing reading with
  | nil => simp [runReading] at read
  | cons token tokens inductionHypothesis =>
      simp only [runReading] at read
      split at read
      · simp at read
      · simp at read; simp [read.2]
      · have := inductionHypothesis read
        simp; omega

/-- The tree of a whole text, which may stand between blanks only. -/
def Scan.tree (scan : Scan) : Except TokenStop Tree :=
  match readTree (.kept depthLimit) scan.ending scan.tokens with
  | .error stop => .error stop
  | .ok (value, []) =>
      match scan.ending with
      | .finished => .ok value
      | .cut .. => .error ⟨.trailingCharacters, []⟩
  | .ok (_, token :: tokens) => .error ⟨.trailingCharacters, token :: tokens⟩

namespace Tree

mutual

def same : Tree → Tree → Bool
  | .null, .null => true
  | .bool a, .bool b => a == b
  | .number a, .number b => a == b
  | .text a, .text b => a == b
  | .items as, .items bs => sameItems as bs
  | .members as, .members bs => sameMembers as bs
  | _, _ => false

def sameItems : List Tree → List Tree → Bool
  | [], [] => true
  | a :: as, b :: bs => a.same b && sameItems as bs
  | _, _ => false

def sameMembers : List (String × Tree) → List (String × Tree) → Bool
  | [], [] => true
  | (k, a) :: as, (l, b) :: bs => k == l && a.same b && sameMembers as bs
  | _, _ => false

end

instance : BEq Tree := ⟨same⟩

def text? : Tree → Option String
  | .text content => some content
  | _ => none

def int64? : Tree → Option Int64
  | .number (.whole n) => if Number.fits Number.largestInt64 n then some (Int64.ofInt n) else none
  | _ => none

def nat64? : Tree → Option Nat
  | .number (.whole n) => if 0 ≤ n then some n.toNat else none
  | _ => none

def items? : Tree → Option (List Tree)
  | .items values => some values
  | _ => none

/-- The value of a member; of repeated ones, the last. -/
def get? (tree : Tree) (key : String) : Option Tree :=
  match tree with
  | .members fields => (fields.reverse.find? (·.1 == key)).map (·.2)
  | _ => none

end Tree

end DualStore.Json
