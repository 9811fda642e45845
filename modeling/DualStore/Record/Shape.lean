import DualStore.Record.Field

/-!
Contract: records with named fields, read from a JSON object by name or from a JSON list by
position.

Owns:
- the shape of a record: its name and its fields in order, each with its accepted names;
- the values of a record, and the slots that fill while an object is read;
- the reading by name: each field at most once under any of its names, values under other names
  skipped, absent fields replaced by their defaults;
- the reading by position: trailing fields may be absent, surplus values may not be there;
- the reading of a whole text, which holds one record and blanks.

Does not own: the records of this program.
-/

namespace DualStore.Record

open DualStore.Json

/-- A field: the name it is written under, other names it is accepted under, and its kind. -/
structure Field where
  name : String
  aliases : List String
  type : FieldType
deriving DecidableEq, Repr

/-- Whether a key names the field. -/
def Field.answersTo (field : Field) (key : String) : Bool :=
  key == field.name || field.aliases.contains key

/-- A record's name, as messages show it, and its fields in order. -/
structure Shape where
  name : String
  fields : List Field
deriving DecidableEq, Repr

@[reducible] def Values : List Field → Type
  | [] => Unit
  | field :: fields => field.type.Holds × Values fields

/-- For each field, the value read so far, if any. -/
@[reducible] def Slots : List Field → Type
  | [] => Unit
  | field :: fields => Option field.type.Holds × Slots fields

namespace Slots

def none : (fields : List Field) → Slots fields
  | [] => ()
  | _ :: fields => (Option.none, none fields)

/-- The values of a record whose object has ended; the first required field that is absent is
reported. -/
def finish : (fields : List Field) → Slots fields → Except Failure (Values fields)
  | [], () => .ok ()
  | field :: fields, (slot, slots) =>
      match slot.orElse fun _ => field.type.absent with
      | Option.none => .error (.mismatch (.missingField field.name))
      | some value => (finish fields slots).map fun values => (value, values)

end Slots

def readColon (ending : Ending) : List Token → Except Failure (List Token)
  | [] => .error (ending.atMark .unfinishedMembers .expectedColon).failure
  | .colon :: tokens => .ok tokens
  | _ :: _ => .error .malformed

/-- A value that no field takes. -/
def skipValue (ending : Ending) (tokens : List Token) : Except Failure (List Token) :=
  match readTree .skipped ending tokens with
  | .error stop => .error stop.problem.failure
  | .ok (_, rest) => .ok rest

/-- What stands behind a key: the value of the first field that the key names, which must not
have been read before, or a value that is skipped. A repetition is noticed before the colon. -/
def readMember (ending : Ending) (key : String) :
    (fields : List Field) → Slots fields → List Token → Read (Slots fields)
  | [], (), tokens =>
      match readColon ending tokens with
      | .error failure => .error failure
      | .ok tokens => (skipValue ending tokens).map fun rest => ((), rest)
  | field :: fields, (slot, slots), tokens =>
      if field.answersTo key then
        match slot with
        | some _ => .error (.mismatch (.repeatedField field.name))
        | Option.none =>
            match readColon ending tokens with
            | .error failure => .error failure
            | .ok tokens =>
                (field.type.read ending tokens).map fun (value, rest) => ((some value, slots), rest)
      else
        (readMember ending key fields slots tokens).map fun (slots, rest) => ((slot, slots), rest)

theorem readColon_length_le {ending : Ending} {tokens rest : List Token}
    (read : readColon ending tokens = .ok rest) : rest.length ≤ tokens.length := by
  unfold readColon at read
  split at read <;> simp_all

theorem skipValue_length_lt {ending : Ending} {tokens rest : List Token}
    (read : skipValue ending tokens = .ok rest) : rest.length < tokens.length := by
  unfold skipValue at read
  split at read
  · simp at read
  · rename_i tree after treeRead
    have shorter := runReading_length_lt treeRead
    simp at read; rw [← read]; exact shorter

/-- What an image under a map comes from. -/
theorem exists_of_map_eq_ok {ε α β : Type} {f : α → β} {result : Except ε α} {image : β}
    (mapped : result.map f = .ok image) : ∃ value, result = .ok value ∧ f value = image := by
  cases result with
  | error failure => simp [Except.map] at mapped
  | ok value => exact ⟨value, rfl, by simpa [Except.map] using mapped⟩

theorem readMember_length_le {ending : Ending} {key : String} {fields : List Field}
    {slots filled : Slots fields} {tokens rest : List Token}
    (read : readMember ending key fields slots tokens = .ok (filled, rest)) :
    rest.length ≤ tokens.length := by
  induction fields with
  | nil =>
      simp only [readMember] at read
      split at read
      · simp at read
      · rename_i afterColon colonRead
        obtain ⟨after, skipped, same⟩ := exists_of_map_eq_ok read
        have h1 := readColon_length_le colonRead
        have h2 := skipValue_length_lt skipped
        simp at same; rw [← same]; omega
  | cons field fields inductionHypothesis =>
      obtain ⟨slot, slots⟩ := slots
      simp only [readMember] at read
      split at read
      · split at read
        · simp at read
        · split at read
          · simp at read
          · rename_i afterColon colonRead
            obtain ⟨pair, valueRead, same⟩ := exists_of_map_eq_ok read
            have h1 := readColon_length_le colonRead
            have h2 := FieldType.read_length_lt valueRead
            simp at same; rw [← same.2]; omega
      · obtain ⟨⟨others, after⟩, memberRead, same⟩ := exists_of_map_eq_ok read
        simp at same
        obtain ⟨_, rfl⟩ := same
        exact inductionHypothesis memberRead

/-- The members of an object from some place on: behind the opening brace, behind a comma, or
behind a member. -/
def readMembers (ending : Ending) (fields : List Field) (slots : Slots fields) (place : Place)
    (tokens : List Token) : Read (Values fields) :=
  match place, tokens with
  | .opened, [] => .error (ending.atKey (.kept depthLimit) .unfinishedMembers).failure
  | .wanting, [] => .error (ending.atKey (.kept depthLimit) .unfinishedValue).failure
  | .following, [] => .error (ending.atMark .unfinishedMembers .expectedMemberEnd).failure
  | .opened, .closeMembers :: rest => (slots.finish fields).map fun values => (values, rest)
  | .following, .closeMembers :: rest => (slots.finish fields).map fun values => (values, rest)
  | .following, .comma :: rest => readMembers ending fields slots .wanting rest
  | .following, _ :: _ => .error .malformed
  | _, .text (some key) :: rest =>
      match _member : readMember ending key fields slots rest with
      | .error failure => .error failure
      | .ok (slots, after) => readMembers ending fields slots .following after
  | _, _ :: _ => .error .malformed
termination_by tokens.length
decreasing_by
  · simp
  · have shorter := readMember_length_le _member
    simp; omega

/-! ## By position -/

/-- The comma before an element that is not the first. -/
def readComma (ending : Ending) : Place → List Token → Except Failure (List Token)
  | .following, [] => .error (ending.atMark .unfinishedItems .expectedItemEnd).failure
  | .following, .comma :: tokens => .ok tokens
  | .following, _ :: _ => .error .malformed
  | _, tokens => .ok tokens

/-- The end of a list whose fields have all been read. -/
def readItemsEnd (ending : Ending) : List Token → Except Failure (List Token)
  | [] => .error (ending.atMark .unfinishedItems .trailingCharacters).failure
  | .closeItems :: tokens => .ok tokens
  | _ :: _ => .error .malformed

/-- The fields from some position on, one element for each. Where the list ends early, the fields
left are absent; the first required one of them is reported with the count of elements read. -/
def readElements (ending : Ending) (shape : Shape) (index : Nat) :
    (fields : List Field) → Place → List Token → Read (Values fields)
  | [], _, tokens => (readItemsEnd ending tokens).map fun rest => ((), rest)
  | field :: fields, place, .closeItems :: tokens =>
      match field.type.absent with
      | Option.none => .error (.mismatch (.wrongLength index shape.name shape.fields.length))
      | some value =>
          (readElements ending shape (index + 1) fields place (.closeItems :: tokens)).map
            fun (values, rest) => ((value, values), rest)
  | field :: fields, place, tokens =>
      match readComma ending place tokens with
      | .error failure => .error failure
      | .ok tokens =>
          match field.type.read ending tokens with
          | .error failure => .error failure
          | .ok (value, tokens) =>
              (readElements ending shape (index + 1) fields .following tokens).map
                fun (values, rest) => ((value, values), rest)

/-! ## The whole text -/

def readEnd (ending : Ending) (tokens : List Token) : Except Failure Unit :=
  match ending, tokens with
  | .finished, [] => .ok ()
  | _, _ => .error .malformed

/-- The record that the tokens of a text spell, by name or by position. -/
def Shape.ofScan (shape : Shape) (scan : Scan) : Except Failure (Values shape.fields) :=
  let record : Read (Values shape.fields) :=
    match scan.tokens with
    | [] => .error (noValue scan.ending)
    | .openMembers :: tokens =>
        readMembers scan.ending shape.fields (.none shape.fields) .opened tokens
    | .openItems :: tokens => readElements scan.ending shape 0 shape.fields .opened tokens
    | token :: _ => .error (unwanted (.record shape.name) token)
  match record with
  | .error failure => .error failure
  | .ok (values, rest) => (readEnd scan.ending rest).map fun () => values

/-- The time that a text spells by itself; nothing may follow it. -/
def WrittenTime.decode (bs : List UInt8) : Except Failure WrittenTime :=
  let scan := scan bs
  match readWhole scan.ending depthLimit acceptTime scan.tokens with
  | .error failure => .error failure
  | .ok (time, rest) => (readEnd scan.ending rest).map fun () => time

def Shape.read (shape : Shape) (bs : List UInt8) : Except Failure (Values shape.fields) :=
  shape.ofScan (scan bs)

end DualStore.Record
