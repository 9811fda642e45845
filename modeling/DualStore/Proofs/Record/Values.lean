import DualStore.Proofs.Json.Machine
import DualStore.Proofs.Record.Reference
import DualStore.Proofs.Success

/-!
Contract: each reader of a single value agrees with the reading of its tree.

Owns:
- the agreement: a reader succeeds exactly where the tokens begin with those of a tree that has the
  wanted value, and leaves what follows them;
- the agreement of every kind of field.

Does not own: records.
-/

namespace DualStore.Json.Tree

/-- A value is neither a list nor an object. -/
def isLeaf : Tree → Bool
  | .items _ => false
  | .members _ => false
  | _ => true

theorem eq_null_of_draft {tree : Tree} (isNull : tree.draft = .null) : tree = .null := by
  cases tree <;> first | rfl | cases isNull

end DualStore.Json.Tree

namespace DualStore.Record

open DualStore.Json DualStore.Number DualStore.Text

/-- A reader takes exactly the tokens of a tree that has the value it wants. -/
def Reads {α : Type} (read : List Token → Read α) (accepts : Tree → Option α) : Prop :=
  ∀ {tokens : List Token} {value : α} {rest : List Token},
    read tokens = .ok (value, rest) ↔
      ∃ tree : Tree, tokens = tree.draft.tokens rest ∧ accepts tree = some value

section Readers

variable {ending : Ending} {α : Type}

/-! ## Integers and texts -/

theorem text?_eq_some_iff {tree : Tree} {content : String} :
    tree.text? = some content ↔ tree = .text content := by
  cases tree <;> simp [Tree.text?]

/-- The reader of an integer within the width of a type. -/
def readInteger (largest : Nat) (ofInt : Int → α) (wanted : Wanted) (ending : Ending) :
    List Token → Read α
  | [] => .error (noValue ending)
  | .number (some (.whole n)) :: tokens =>
      if fits largest n then .ok (ofInt n, tokens) else .error (.mismatch (.outOfRange n wanted))
  | token :: _ => .error (unwanted wanted token)

theorem readInt64_eq_readInteger :
    readInt64 ending = readInteger largestInt64 Int64.ofInt .int64 ending := rfl

theorem readInt32_eq_readInteger :
    readInt32 ending = readInteger largestInt32 Int32.ofInt .int32 ending := rfl

theorem reads_integer {largest : Nat} {ofInt : Int → α} {wanted : Wanted} :
    Reads (readInteger largest ofInt wanted ending) (Tree.integer? largest ofInt) := by
  intro tokens value rest
  constructor
  · intro read
    unfold readInteger at read
    split at read
    · cases read
    · rename_i n after
      split at read
      · rename_i inRange
        cases read
        exact ⟨.number (.whole n), rfl, Tree.integer?_eq_some_iff.mpr ⟨n, rfl, inRange, rfl⟩⟩
      · cases read
    · cases read
  · rintro ⟨tree, rfl, isValue⟩
    obtain ⟨n, rfl, inRange, rfl⟩ := Tree.integer?_eq_some_iff.mp isValue
    show (if fits largest n then _ else _) = _
    rw [if_pos inRange]

theorem reads_int64 : Reads (readInt64 ending) (Tree.integer? largestInt64 Int64.ofInt) := by
  rw [readInt64_eq_readInteger]
  exact reads_integer

theorem reads_int32 : Reads (readInt32 ending) (Tree.integer? largestInt32 Int32.ofInt) := by
  rw [readInt32_eq_readInteger]
  exact reads_integer

theorem reads_string : Reads (readString ending) Tree.text? := by
  intro tokens value rest
  constructor
  · intro read
    unfold readString at read
    split at read
    · cases read
    · rename_i content after
      cases read
      exact ⟨.text value, rfl, rfl⟩
    · cases read
  · rintro ⟨tree, rfl, isText⟩
    rw [text?_eq_some_iff.mp isText]
    rfl

/-! ## Lists of texts -/

/-- The texts of a list, as drafts. -/
def textDrafts (texts : List String) : List Draft := texts.map fun content => .text (some content)

/-- The tokens of the values that a list still holds where its reader stands. -/
def Place.itemTokens (place : Place) (values : List Draft) (rest : List Token) : List Token :=
  match place with
  | .following => Draft.moreItems values rest
  | _ => Draft.itemTokens values rest

theorem tokens_of_readStringsFrom {done texts : List String} {place : Place}
    {tokens rest : List Token}
    (read : readStringsFrom ending done place tokens = .ok (texts, rest)) :
    ∃ more, texts = done.reverse ++ more ∧ tokens = place.itemTokens (textDrafts more) rest ∧
      (place = .wanting → more ≠ []) := by
  fun_induction readStringsFrom ending done place tokens with
  | case4 done after =>
      cases read
      exact ⟨[], (List.append_nil _).symm, rfl, (absurd · (by decide))⟩
  | case5 done after =>
      cases read
      exact ⟨[], (List.append_nil _).symm, rfl, (absurd · (by decide))⟩
  | case6 done after inductionHypothesis =>
      obtain ⟨more, isTexts, rfl, nonempty⟩ := inductionHypothesis read
      cases more with
      | nil => exact absurd rfl (nonempty rfl)
      | cons first others => exact ⟨first :: others, isTexts, rfl, (absurd · (by decide))⟩
  | case8 done place content after notFollowing inductionHypothesis =>
      obtain ⟨more, isTexts, rfl, _⟩ := inductionHypothesis read
      refine ⟨content :: more, ?_, ?_, fun _ => List.cons_ne_nil _ _⟩
      · rw [isTexts, List.reverse_cons, List.append_assoc]
        rfl
      · cases place with
        | following => exact absurd rfl notFollowing
        | opened => rfl
        | wanting => rfl
  | _ => cases read

theorem readStringsFrom_textTokens (done texts : List String) (rest : List Token) :
    readStringsFrom ending done .following (Draft.moreItems (textDrafts texts) rest) =
      .ok (done.reverse ++ texts, rest) := by
  induction texts generalizing done with
  | nil =>
      rw [List.append_nil]
      rfl
  | cons content texts inductionHypothesis =>
      have joined := inductionHypothesis (content :: done)
      rw [List.reverse_cons, List.append_assoc] at joined
      exact joined

theorem mapM_text?_eq_some_iff {values : List Tree} {texts : List String} :
    values.mapM Tree.text? = some texts ↔ values = texts.map .text := by
  induction values generalizing texts with
  | nil => cases texts <;> simp
  | cons value values inductionHypothesis =>
      cases texts <;> simp [Option.bind_eq_some_iff, text?_eq_some_iff, inductionHypothesis]

theorem texts?_eq_some_iff {tree : Tree} {texts : List String} :
    tree.texts? = some texts ↔ tree = .items (texts.map .text) := by
  cases tree with
  | items values => simp [Tree.texts?, mapM_text?_eq_some_iff]
  | _ => simp [Tree.texts?]

theorem draft_items_texts (texts : List String) :
    Tree.draft (.items (texts.map .text)) = .items (textDrafts texts) := by
  rw [Tree.draft, Tree.draftItems_eq_map, List.map_map]
  rfl

theorem reads_strings : Reads (readStrings ending) Tree.texts? := by
  intro tokens value rest
  constructor
  · intro read
    unfold readStrings at read
    split at read
    · cases read
    · rename_i after
      obtain ⟨texts, isValue, rfl, _⟩ := tokens_of_readStringsFrom read
      refine ⟨.items (texts.map .text), ?_, texts?_eq_some_iff.mpr (by rw [isValue]; rfl)⟩
      rw [draft_items_texts, Draft.tokens_items]
      rfl
    · cases read
  · rintro ⟨tree, rfl, areTexts⟩
    rw [texts?_eq_some_iff.mp areTexts, draft_items_texts, Draft.tokens_items]
    cases value with
    | nil => rfl
    | cons content texts => exact readStringsFrom_textTokens [content] texts rest

/-! ## Whole values -/

theorem readTree_leaf {depth : Nat} {tree : Tree} (leaf : tree.isLeaf = true)
    (rest : List Token) :
    readTree (.kept depth) ending (tree.draft.tokens rest) = .ok (tree, rest) := by
  cases tree with
  | items values => cases leaf
  | members fields => cases leaf
  | _ => rfl

/-- A value that is looked at when it is complete; only leaves are accepted. -/
theorem reads_whole {depth : Nat} {accept : Tree → Except Mismatch α} {accepts : Tree → Option α}
    (same : ∀ tree value, accept tree = .ok value ↔ accepts tree = some value)
    (leaves : ∀ tree value, accepts tree = some value → tree.isLeaf = true) :
    Reads (readWhole ending depth accept) accepts := by
  intro tokens value rest
  constructor
  · intro read
    unfold readWhole at read
    split at read
    · cases read
    · rename_i tree after readsTree
      split at read
      · rename_i found accepted
        cases read
        exact ⟨tree, tokens_of_readTree readsTree, (same tree value).mp accepted⟩
      · cases read
  · rintro ⟨tree, rfl, accepted⟩
    rw [readWhole, readTree_leaf (leaves tree value accepted)]
    simp only [(same tree value).mpr accepted]

theorem acceptIdentifier_eq_ok_iff (tree : Tree) (value : String) :
    acceptIdentifier tree = .ok value ↔ tree.identifier? = some value := by
  unfold acceptIdentifier Tree.identifier?
  split
  · rename_i content
    by_cases blank : isBlank content = true
    · simp only [if_pos blank, reduceCtorEq]
    · simp only [if_neg blank, Except.ok.injEq, Option.some.injEq]
  · rename_i n
    by_cases inRange : fits largestInt64 n = true
    · simp only [if_pos inRange, Except.ok.injEq, Option.some.injEq]
    · simp only [if_neg inRange, reduceCtorEq]
  · simp only [reduceCtorEq]

theorem acceptTime_eq_ok_iff (tree : Tree) (value : WrittenTime) :
    acceptTime tree = .ok value ↔ tree.time? = some value := by
  unfold acceptTime Tree.time?
  split
  · rename_i n
    by_cases inRange : fits largestInt64 n = true
    · simp only [if_pos inRange, Except.ok.injEq, Option.some.injEq]
    · simp only [if_neg inRange, reduceCtorEq]
  · simp only [Except.ok.injEq, Option.some.injEq]
  · simp only [reduceCtorEq]

theorem reads_identifier {depth : Nat} :
    Reads (readWhole ending depth acceptIdentifier) Tree.identifier? := by
  refine reads_whole acceptIdentifier_eq_ok_iff ?_
  intro tree value isValue
  cases tree <;> first | rfl | cases isValue

theorem reads_time {depth : Nat} : Reads (readWhole ending depth acceptTime) Tree.time? := by
  refine reads_whole acceptTime_eq_ok_iff ?_
  intro tree value isValue
  cases tree <;> first | rfl | cases isValue

/-! ## Null -/

theorem reads_orNull {read : List Token → Read α} {accepts : Tree → Option α} {null : α}
    (reads : Reads read accepts) : Reads (orNull null read) (Tree.orNull null accepts) := by
  intro tokens value rest
  by_cases startsNull : ∃ after, tokens = .null :: after
  · obtain ⟨after, rfl⟩ := startsNull
    constructor
    · intro found
      cases found
      exact ⟨.null, rfl, rfl⟩
    · rintro ⟨tree, same, isValue⟩
      obtain ⟨isNull, rfl⟩ := Draft.tokens_inj .null tree.draft same
      rw [Tree.eq_null_of_draft isNull.symm] at isValue
      cases isValue
      rfl
  · have skips : orNull null read tokens = read tokens := by
      unfold orNull
      split
      · exact absurd ⟨_, rfl⟩ startsNull
      · rfl
    rw [skips, reads]
    constructor
    · rintro ⟨tree, rfl, isValue⟩
      refine ⟨tree, rfl, ?_⟩
      cases tree with
      | null => exact absurd ⟨rest, rfl⟩ startsNull
      | _ => exact isValue
    · rintro ⟨tree, rfl, isValue⟩
      refine ⟨tree, rfl, ?_⟩
      cases tree with
      | null => exact absurd ⟨rest, rfl⟩ startsNull
      | _ => exact isValue

theorem Reads.map {β : Type} {read : List Token → Read α} {accepts : Tree → Option α}
    (reads : Reads read accepts) (image : α → β) :
    Reads (fun tokens => (read tokens).map fun (value, rest) => (image value, rest))
      (fun tree => (accepts tree).map image) := by
  intro tokens value rest
  rw [map_eq_ok_iff]
  constructor
  · rintro ⟨⟨inner, after⟩, found, same⟩
    cases same
    obtain ⟨tree, isTokens, isValue⟩ := reads.mp found
    exact ⟨tree, isTokens, Option.map_eq_some_iff.mpr ⟨inner, isValue, rfl⟩⟩
  · rintro ⟨tree, isTokens, isValue⟩
    obtain ⟨inner, isInner, rfl⟩ := Option.map_eq_some_iff.mp isValue
    exact ⟨(inner, rest), reads.mpr ⟨tree, isTokens, isInner⟩, rfl⟩

theorem reads_orNothing {read : List Token → Read α} {accepts : Tree → Option α}
    (reads : Reads read accepts) : Reads (orNothing read) (Tree.orNothing accepts) :=
  reads_orNull (reads.map some)

/-! ## Fields -/

/-- Every kind of field is read as its tree is. -/
theorem FieldType.reads (type : FieldType) : Reads (type.read ending) type.ofTree? := by
  cases type with
  | identifier => exact reads_identifier
  | int64 => exact reads_int64
  | int64OrZero => exact reads_orNull reads_int64
  | int32OrZero => exact reads_orNull reads_int32
  | optionalInt64 => exact reads_orNothing reads_int64
  | textOrEmpty => exact reads_orNull reads_string
  | optionalText => exact reads_orNothing reads_string
  | textsOrEmpty => exact reads_orNull reads_strings
  | optionalTime => exact reads_orNothing reads_time

/-- The reader of a field takes exactly the tokens of a draft that has its value. -/
theorem FieldType.read_eq_ok_iff {type : FieldType} {tokens rest : List Token}
    {value : type.Holds} :
    type.read ending tokens = .ok (value, rest) ↔
      ∃ draft : Draft, tokens = draft.tokens rest ∧ type.ofDraft? draft = some value := by
  rw [type.reads]
  simp only [ofDraft?_eq_some_iff]
  constructor
  · rintro ⟨tree, isTokens, isValue⟩
    exact ⟨tree.draft, isTokens, tree, rfl, isValue⟩
  · rintro ⟨_, isTokens, tree, rfl, isValue⟩
    exact ⟨tree, isTokens, isValue⟩

end Readers

end DualStore.Record
