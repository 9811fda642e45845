import DualStore.Proofs.Json.Interruption
import DualStore.Proofs.Record.Members
import DualStore.Proofs.Record.Reading

/-!
Contract: the readers of records on the tokens of a text that ends early.

Owns:
- a reader that takes a value from all the tokens of a text takes one from the tokens found in a
  piece of it, or reports that the text is truncated;
- so do the readers of lists and of objects, if a field takes every member; they never come to the
  end, so nothing is ever reported as missing.

Does not own: members that no field takes, whose values are read without care.
-/

namespace DualStore.Json

section Ends

variable {token : Token} {ending : Ending} {unfinished : Problem} {depth : Nat}

theorem Problem.failure_eq_truncated {problem : Problem}
    (truncation : problem.isTruncation = true) : problem.failure = .truncated := by
  rw [failure, if_pos truncation]

/-- Where a token is lost that a reader would have kept, it reports a truncation. -/
theorem Token.Lost.atValue (lost : token.Lost ending) (known : token ≠ .text none)
    (truncation : unfinished.isTruncation = true) :
    (ending.atValue (.kept depth) unfinished).failure = .truncated := by
  cases lost with
  | before => exact Problem.failure_eq_truncated truncation
  | @insideText content _ _ mends =>
      cases content with
      | none => exact absurd rfl known
      | some content => exact Problem.failure_eq_truncated (mends rfl)
  | insideScalar _ mends => exact Problem.failure_eq_truncated mends

theorem Token.Lost.atKey {key : String} (lost : (Token.text (some key)).Lost ending)
    (truncation : unfinished.isTruncation = true) :
    (ending.atKey (.kept depth) unfinished).failure = .truncated := by
  cases lost with
  | before => exact Problem.failure_eq_truncated truncation
  | insideText mends => exact Problem.failure_eq_truncated (mends rfl)
  | insideScalar scalar _ => cases scalar

end Ends

end DualStore.Json

namespace DualStore.Record

open DualStore.Json DualStore.Number

/-- A reading of the tokens found in a piece of a text: it reports the truncation, or it goes on
with what is found of the tokens behind the value. -/
inductive Outlasts {α : Type} (fitting : α → Prop) (rest : List Token) (ending : Ending) :
    Read α → Prop where
  | truncated : Outlasts fitting rest ending (.error .truncated)
  | goesOn {value : α} {found : List Token} : fitting value → Interrupted rest found ending →
      Outlasts fitting rest ending (.ok (value, found))

/-- Any value will do. -/
abbrev Outlasts.Any {α : Type} : List Token → Ending → Read α → Prop := Outlasts fun _ => True

section Fields

variable {ending : Ending} {type : FieldType} {rest found : List Token}

/-! ## Single values -/

theorem noValue_eq_truncated {token : Token} (lost : token.Lost ending)
    (known : token ≠ .text none) : noValue ending = .truncated :=
  lost.atValue known rfl

theorem FieldType.read_nil : type.read ending [] = .error (noValue ending) := by
  have whole : ∀ {α : Type} (accept : Tree → Except Mismatch α),
      readWhole ending (depthLimit - 1) accept [] = .error (noValue ending) := by
    intro α accept
    rcases ending with _ | ⟨_ | _ | _, _, _⟩ <;> rfl
  cases type with
  | identifier => exact whole acceptIdentifier
  | optionalTime =>
      simp only [read, orNothing, orNull, whole]
      rfl
  | _ => rfl

/-- The largest integer that a kind of field takes, if it takes integers. -/
def FieldType.largest? : FieldType → Option Nat
  | .identifier | .int64 | .int64OrZero | .optionalInt64 | .optionalTime => some largestInt64
  | .int32OrZero => some largestInt32
  | .textOrEmpty | .optionalText | .textsOrEmpty => none

/-- The numbers that a kind of field takes are the integers within its width. -/
theorem FieldType.isSome_ofTree?_number_iff {value : Value} :
    (type.ofTree? (.number value)).isSome = true ↔
      ∃ n largest, value = .whole n ∧ type.largest? = some largest ∧ fits largest n = true := by
  cases type <;> cases value <;>
    simp [ofTree?, largest?, Tree.orNull, Tree.orNothing, Tree.integer?, Tree.identifier?,
      Tree.time?, Tree.text?, Tree.texts?]

/-- A leaf is one token. -/
theorem exists_token_of_isLeaf {tree : Tree} (leaf : tree.isLeaf = true) :
    ∃ token, (∀ rest, tree.draft.tokens rest = token :: rest) ∧ token ≠ .text none ∧
      ∀ full, token = .number full → ∃ value, tree = .number value ∧ full = some value := by
  cases tree with
  | null => exact ⟨.null, fun _ => rfl, nofun, nofun⟩
  | bool value => exact ⟨.bool value, fun _ => rfl, nofun, nofun⟩
  | number value =>
      refine ⟨.number (some value), fun _ => rfl, nofun, fun full same => ⟨value, rfl, ?_⟩⟩
      cases same
      rfl
  | text content => exact ⟨.text (some content), fun _ => rfl, nofun, nofun⟩
  | items values => cases leaf
  | members fields => cases leaf

/-- A number may be found shortened; it is still one that the field takes. -/
theorem FieldType.read_shortened {full : Value} {shorter : Option Value} {value : type.Holds}
    (isValue : type.ofTree? (.number full) = some value)
    (shortens : Shortens (some full) shorter) :
    ∃ other, type.read ending [.number shorter] = .ok (other, []) := by
  obtain ⟨n, largest, rfl, isLargest, inRange⟩ :=
    isSome_ofTree?_number_iff.mp (Option.isSome_of_eq_some isValue)
  obtain ⟨m, rfl, towards⟩ := shortens n rfl
  have taken : (type.ofTree? (.number (.whole m))).isSome = true :=
    isSome_ofTree?_number_iff.mpr ⟨m, largest, rfl, isLargest, towards.fits inRange⟩
  obtain ⟨other, isOther⟩ := Option.isSome_iff_exists.mp taken
  exact ⟨other, type.reads.mpr ⟨.number (.whole m), rfl, isOther⟩⟩

theorem FieldType.read_leaf_outlasts {tree : Tree} (leaf : tree.isLeaf = true) {value : type.Holds}
    (isValue : type.ofTree? tree = some value)
    (interrupted : Interrupted (tree.draft.tokens rest) found ending) :
    Outlasts.Any rest ending (type.read ending found) := by
  obtain ⟨token, areTokens, known, isNumber⟩ := exists_token_of_isLeaf leaf
  have reads : ∀ more, type.read ending (token :: more) = .ok (value, more) := by
    intro more
    rw [← areTokens]
    exact type.reads.mpr ⟨tree, rfl, isValue⟩
  generalize isTokens : tree.draft.tokens rest = tokens at interrupted
  rw [areTokens] at isTokens
  cases interrupted with
  | lost lost =>
      cases isTokens
      rw [read_nil, noValue_eq_truncated lost known]
      exact .truncated
  | @shortened full shorter next tokens shortens =>
      obtain ⟨value, rfl, rfl⟩ := isNumber full (List.cons.inj isTokens).1
      have taken : ∃ other, type.read .finished [.number shorter] = .ok (other, []) :=
        read_shortened isValue shortens
      obtain ⟨other, readsShorter⟩ := taken
      rw [readsShorter, (List.cons.inj isTokens).2]
      exact .goesOn trivial (.lost .before)
  | behind later =>
      cases isTokens
      rw [reads]
      exact .goesOn trivial later

/-! ## Lists of texts -/

theorem readStringsFrom_outlasts {texts done : List String} {place : Place}
    (interrupted : Interrupted (place.itemTokens (textDrafts texts) rest) found ending)
    (wantsMore : place = .wanting → texts ≠ []) :
    Outlasts.Any rest ending (readStringsFrom ending done place found) := by
  induction texts generalizing done place found with
  | nil =>
      have atEnd : Interrupted (.closeItems :: rest) found ending := by
        cases place <;> exact interrupted
      rcases atEnd.mark_cases rfl with ⟨rfl, rfl⟩ | ⟨more, rfl, later⟩
      · cases place <;> exact .truncated
      · cases place with
        | wanting => exact absurd rfl (wantsMore rfl)
        | opened => exact .goesOn trivial later
        | following => exact .goesOn trivial later
  | cons content texts inductionHypothesis =>
      have behindLead : ∀ {place : Place} {found : List Token}, place ≠ .following →
          Interrupted (.text (some content) :: Draft.moreItems (textDrafts texts) rest) found
            ending → Outlasts.Any rest ending (readStringsFrom ending done place found) := by
        intro place found notFollowing interrupted
        rcases interrupted.lost_or_found rfl with ⟨rfl, lost⟩ | ⟨more, rfl, later⟩
        · have truncated : readStringsFrom ending done place [] = .error .truncated := by
            cases place with
            | following => exact absurd rfl notFollowing
            | opened => exact congrArg Except.error (lost.atValue nofun rfl)
            | wanting => exact congrArg Except.error (lost.atValue nofun rfl)
          rw [truncated]
          exact .truncated
        · have goesOn : Outlasts.Any rest ending
              (readStringsFrom ending (content :: done) .following more) :=
            inductionHypothesis later (absurd · (by decide))
          cases place with
          | following => exact absurd rfl notFollowing
          | opened => exact goesOn
          | wanting => exact goesOn
      cases place with
      | opened => exact behindLead (by decide) interrupted
      | wanting => exact behindLead (by decide) interrupted
      | following =>
          rcases Interrupted.mark_cases interrupted rfl with ⟨rfl, rfl⟩ | ⟨more, rfl, later⟩
          · exact .truncated
          · have behindComma : Outlasts.Any rest ending
                (readStringsFrom ending done .wanting more) := behindLead (by decide) later
            exact behindComma

theorem readStrings_outlasts {texts : List String}
    (interrupted : Interrupted ((Draft.items (textDrafts texts)).tokens rest) found ending) :
    Outlasts.Any rest ending (readStrings ending found) := by
  rw [Draft.tokens_items] at interrupted
  rcases interrupted.mark_cases rfl with ⟨rfl, rfl⟩ | ⟨more, rfl, later⟩
  · exact .truncated
  · have inside : Interrupted (Place.opened.itemTokens (textDrafts texts) rest) more ending := later
    exact readStringsFrom_outlasts inside (absurd · (by decide))

/-! ## All kinds of fields -/

/-- Lists are taken where texts are wanted, and objects nowhere. -/
theorem FieldType.ofTree?_of_not_leaf {tree : Tree} {value : type.Holds}
    (notLeaf : tree.isLeaf = false) (isValue : type.ofTree? tree = some value) :
    type = .textsOrEmpty ∧ ∃ texts : List String, tree = .items (texts.map .text) := by
  cases tree with
  | items values =>
      cases type with
      | textsOrEmpty => exact ⟨rfl, value, texts?_eq_some_iff.mp isValue⟩
      | _ => cases isValue
  | members fields => cases type <;> cases isValue
  | _ => cases notLeaf

/-- The reader of a field outlasts the end of the text. -/
theorem FieldType.read_outlasts {draft : Draft} {value : type.Holds}
    (isValue : type.ofDraft? draft = some value)
    (interrupted : Interrupted (draft.tokens rest) found ending) :
    Outlasts.Any rest ending (type.read ending found) := by
  obtain ⟨tree, rfl, held⟩ := ofDraft?_eq_some_iff.mp isValue
  cases leaf : tree.isLeaf with
  | true => exact read_leaf_outlasts leaf held interrupted
  | false =>
      obtain ⟨rfl, texts, rfl⟩ := ofTree?_of_not_leaf leaf held
      rw [draft_items_texts] at interrupted
      have startsOpen : orNull [] (readStrings ending) found = readStrings ending found := by
        rw [Draft.tokens_items] at interrupted
        rcases interrupted.mark_cases rfl with ⟨rfl, _⟩ | ⟨more, rfl, _⟩ <;> rfl
      show Outlasts.Any rest ending (orNull [] (readStrings ending) found)
      rw [startsOpen]
      exact readStrings_outlasts interrupted

end Fields

/-! ## Objects -/

/-- Slots that are filled for the same fields. -/
def Slots.Alike : {fields : List Field} → Slots fields → Slots fields → Prop
  | [], (), () => True
  | _ :: _, (slot, slots), (other, others) => slot.isSome = other.isSome ∧ Alike slots others

theorem Slots.Alike.refl : {fields : List Field} → (slots : Slots fields) → slots.Alike slots
  | [], () => trivial
  | _ :: _, (_, slots) => ⟨rfl, refl slots⟩

section Objects

variable {ending : Ending} {fields : List Field} {rest found : List Token}

theorem readColon_cases (interrupted : Interrupted (.colon :: rest) found ending) :
    readColon ending found = .error .truncated ∨
      ∃ more, readColon ending found = .ok more ∧ Interrupted rest more ending := by
  rcases interrupted.mark_cases rfl with ⟨rfl, rfl⟩ | ⟨more, rfl, later⟩
  · exact Or.inl rfl
  · exact Or.inr ⟨more, rfl, later⟩

/-- The reader of a member that a field takes outlasts the end of the text, whatever values the
fields have taken before. -/
theorem readMember_outlasts {key : String} {draft : Draft} {slots filled others : Slots fields}
    (known : recognises fields key = true) (taken : slots.take? (key, draft) = some filled)
    (alike : slots.Alike others)
    (interrupted : Interrupted (.colon :: draft.tokens rest) found ending) :
    Outlasts filled.Alike rest ending (readMember ending key fields others found) := by
  induction fields with
  | nil => cases known
  | cons field fields inductionHypothesis =>
      obtain ⟨slot, slots⟩ := slots
      obtain ⟨other, others⟩ := others
      obtain ⟨sameSlot, alike⟩ := alike
      by_cases named : field.answersTo key = true
      · cases slot with
        | some value => simp [Slots.take?, named] at taken
        | none =>
            obtain rfl : other = none := by simpa using sameSlot.symm
            simp only [Slots.take?, named, if_true] at taken
            obtain ⟨value, isValue, rfl⟩ := Option.map_eq_some_iff.mp taken
            simp only [readMember, named, if_true]
            rcases readColon_cases interrupted with truncated | ⟨more, readsColon, later⟩
            · rw [truncated]
              exact .truncated
            · have outlasts := FieldType.read_outlasts isValue later
              rw [readsColon]
              simp only
              generalize field.type.read ending more = result at outlasts
              cases outlasts with
              | truncated => exact .truncated
              | goesOn _ behind => exact .goesOn ⟨rfl, alike⟩ behind
      · have knownLater : recognises fields key = true := by
          simpa [recognises, named] using known
        simp only [Slots.take?, named, Bool.false_eq_true, if_false] at taken
        obtain ⟨next, isNext, rfl⟩ := Option.map_eq_some_iff.mp taken
        simp only [readMember, named, Bool.false_eq_true, if_false]
        have outlasts := inductionHypothesis knownLater isNext alike
        generalize readMember ending key fields others found = result at outlasts
        cases outlasts with
        | truncated => exact .truncated
        | goesOn fits behind => exact .goesOn ⟨sameSlot, fits⟩ behind

theorem readMembers_text_error {place : Place} (notFollowing : place ≠ .following) {key : String}
    {slots : Slots fields} {failure : Failure}
    (failed : readMember ending key fields slots found = .error failure) :
    readMembers ending fields slots place (.text (some key) :: found) = .error failure := by
  rw [readMembers]
  · split
    · rename_i other
      rw [failed] at other
      cases other
      rfl
    · rename_i read
      rw [failed] at read
      cases read
  · exact notFollowing

/-- The reader of an object does not come to its end in a piece of it, if a field takes every
member. -/
theorem readMembers_truncated {members : List (String × Draft)}
    {slots filled others : Slots fields} {place : Place}
    (known : ∀ member ∈ members, recognises fields member.1 = true)
    (taken : slots.takeAll? members = some filled) (alike : slots.Alike others)
    (interrupted : Interrupted (place.memberTokens members []) found ending) :
    readMembers ending fields others place found = .error .truncated := by
  induction members generalizing slots others place found with
  | nil =>
      have atEnd : Interrupted [.closeMembers] found ending := by
        cases place <;> exact interrupted
      obtain ⟨rfl, rfl⟩ := atEnd.last rfl
      rw [readMembers.eq_def]
      cases place <;> rfl
  | cons member members inductionHypothesis =>
      obtain ⟨key, draft⟩ := member
      obtain ⟨next, isNext, takenLater⟩ := Option.bind_eq_some_iff.mp taken
      have knownLater : ∀ later ∈ members, recognises fields later.1 = true :=
        fun later isLater => known later (List.mem_cons_of_mem _ isLater)
      have behindLead : ∀ {place : Place} {found : List Token}, place ≠ .following →
          Interrupted (.text (some key) :: .colon ::
            draft.tokens (Place.following.memberTokens members [])) found ending →
          readMembers ending fields others place found = .error .truncated := by
        intro place found notFollowing interrupted
        rcases interrupted.lost_or_found rfl with ⟨rfl, lost⟩ | ⟨more, rfl, later⟩
        · rw [readMembers.eq_def]
          cases place with
          | following => exact absurd rfl notFollowing
          | opened => exact congrArg Except.error (lost.atKey rfl)
          | wanting => exact congrArg Except.error (lost.atKey rfl)
        · have outlasts := readMember_outlasts (known _ List.mem_cons_self) isNext alike later
          generalize readsMember : readMember ending key fields others more = result at outlasts
          cases outlasts with
          | truncated => exact readMembers_text_error notFollowing readsMember
          | goesOn fits behind =>
              rw [readMembers_text notFollowing readsMember]
              exact inductionHypothesis knownLater takenLater fits behind
      cases place with
      | opened => exact behindLead (by decide) interrupted
      | wanting => exact behindLead (by decide) interrupted
      | following =>
          rcases Interrupted.mark_cases interrupted rfl with ⟨rfl, rfl⟩ | ⟨more, rfl, later⟩
          · rw [readMembers.eq_def]
            rfl
          · rw [readMembers]
            exact behindLead (by decide) later

end Objects

/-! ## Lists -/

section Lists

variable {ending : Ending} {shape : Shape} {rest found : List Token}

theorem readComma_cases {place : Place} (interrupted : Interrupted (place.lead rest) found ending) :
    readComma ending place found = .error .truncated ∨
      ∃ more, readComma ending place found = .ok more ∧ Interrupted rest more ending := by
  cases place with
  | opened => exact Or.inr ⟨found, rfl, interrupted⟩
  | wanting => exact Or.inr ⟨found, rfl, interrupted⟩
  | following =>
      rcases Interrupted.mark_cases interrupted rfl with ⟨rfl, rfl⟩ | ⟨more, rfl, later⟩
      · exact Or.inl rfl
      · exact Or.inr ⟨more, rfl, later⟩

/-- Where an element stands, no end is found. -/
theorem ne_closeItems_of_interrupted {place : Place} {item : Draft} (after : List Token)
    (interrupted : Interrupted (place.lead (item.tokens rest)) found ending) :
    found ≠ .closeItems :: after := by
  rintro rfl
  obtain ⟨token, others, areTokens, opens⟩ := item.exists_opens rest
  rw [areTokens] at interrupted
  cases place with
  | following => cases Interrupted.eq_of_mark interrupted rfl
  | opened => exact opens.ne_mark.2.1 (Interrupted.eq_of_mark interrupted rfl).symm
  | wanting => exact opens.ne_mark.2.1 (Interrupted.eq_of_mark interrupted rfl).symm

/-- The reader of a list does not come to its end in a piece of it. -/
theorem readElements_truncated {fields : List Field} {values : Values fields} {items : List Draft}
    {index : Nat} {place : Place}
    (isRecord : ofItems? FieldType.ofDraft? fields items = some values)
    (interrupted : Interrupted (place.itemTokens items []) found ending) :
    readElements ending shape index fields place found = .error .truncated := by
  induction fields generalizing items index place found with
  | nil =>
      cases items with
      | cons item items => cases isRecord
      | nil =>
          rw [place.itemTokens_nil] at interrupted
          obtain ⟨rfl, rfl⟩ := interrupted.last rfl
          rfl
  | cons field fields inductionHypothesis =>
      obtain ⟨value, values⟩ := values
      cases items with
      | nil =>
          rw [place.itemTokens_nil] at interrupted
          obtain ⟨rfl, rfl⟩ := interrupted.last rfl
          cases place <;> simp [readElements, readComma, FieldType.read_nil] <;> rfl
      | cons item items =>
          obtain ⟨isValue, areValues⟩ := ofItems?_cons_eq_some_iff.mp isRecord
          rw [place.itemTokens_cons] at interrupted
          rw [readElements]
          · rcases readComma_cases interrupted with truncated | ⟨more, readsComma, later⟩
            · rw [truncated]
            · have outlasts := FieldType.read_outlasts isValue later
              rw [readsComma]
              simp only
              generalize field.type.read ending more = result at outlasts
              cases outlasts with
              | truncated => rfl
              | goesOn _ behind =>
                  simp only [inductionHypothesis areValues behind]
                  rfl
          · exact fun after => ne_closeItems_of_interrupted after interrupted

end Lists

/-! ## Whole texts -/

section Texts

variable {shape : Shape} {piece missing : List UInt8} {values : Values shape.fields}

theorem Shape.ofScan_eq_error {scan : Scan} {failure : Failure}
    (failed : shape.leading scan = .error failure) : shape.ofScan scan = .error failure := by
  rw [Shape.ofScan]
  split
  · rename_i other fails
    have fails : shape.leading scan = .error other := fails
    rw [failed] at fails
    cases fails
    rfl
  · rename_i found rest begun
    have begun : shape.leading scan = .ok (found, rest) := begun
    rw [failed] at begun
    cases begun

variable (visible : ∃ b ∈ missing, isBlankByte b = false)
include visible

/-- A piece of an object whose members fields take is reported as truncated. -/
theorem Shape.read_truncated_members (distinct : Distinct shape.fields)
    {members : List (String × Draft)}
    (spelled : Spells (piece ++ missing) (.members (keyed members)))
    (isRecord : ofMembers? FieldType.ofDraft? shape.fields members = some values)
    (known : ∀ member ∈ members, recognises shape.fields member.1 = true) :
    shape.read piece = .error .truncated := by
  apply Shape.ofScan_eq_error
  obtain ⟨filled, areFilled, _⟩ := Slots.finish_ofMembers?.mpr isRecord
  rw [← Slots.takeAll?_none distinct] at areFilled
  have interrupted := spelled.interrupted visible rfl
  rw [Draft.tokens_members] at interrupted
  rw [leading]
  rcases interrupted.mark_cases rfl with ⟨nothing, ended⟩ | ⟨more, isFound, later⟩
  · rw [nothing, ended]
    rfl
  · rw [isFound]
    have inside : Interrupted (Place.opened.memberTokens members []) more (scan piece).ending :=
      later
    exact readMembers_truncated known areFilled (.refl _) inside

/-- A piece of a list of values is reported as truncated. -/
theorem Shape.read_truncated_items {items : List Draft}
    (spelled : Spells (piece ++ missing) (.items items))
    (isRecord : ofItems? FieldType.ofDraft? shape.fields items = some values) :
    shape.read piece = .error .truncated := by
  apply Shape.ofScan_eq_error
  have interrupted := spelled.interrupted visible rfl
  rw [Draft.tokens_items] at interrupted
  rw [leading]
  rcases interrupted.mark_cases rfl with ⟨nothing, ended⟩ | ⟨more, isFound, later⟩
  · rw [nothing, ended]
    rfl
  · rw [isFound]
    have inside : Interrupted (Place.opened.itemTokens items []) more (scan piece).ending := later
    exact readElements_truncated isRecord inside

end Texts

end DualStore.Record
