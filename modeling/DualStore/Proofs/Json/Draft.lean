import DualStore.Json.Tree

/-!
Contract: drafts, which are values as they are written.

Owns:
- drafts: trees in which a text may lack its content and a number its value, where only the lenient
  readings accept them;
- the tokens of a draft, in front of those that follow;
- unique readability: tokens begin with one draft at most;
- the trees among the drafts, and what a reader with some care makes of a draft.

Does not own: the bytes of a token.
-/

namespace DualStore.Json

/-- A value as it is written. A text without content and a number without value can be skipped
but not kept. -/
inductive Draft where
  | null
  | bool (value : Bool)
  | number (value : Option Value)
  | text (content : Option String)
  | items (values : List Draft)
  | members (fields : List (Option String × Draft))

namespace Draft

/-! ## Tokens -/

mutual

/-- The tokens of a draft, in front of others. -/
def tokens : Draft → List Token → List Token
  | .null, rest => .null :: rest
  | .bool value, rest => .bool value :: rest
  | .number value, rest => .number value :: rest
  | .text content, rest => .text content :: rest
  | .items [], rest => .openItems :: .closeItems :: rest
  | .items (value :: values), rest => .openItems :: value.tokens (moreItems values rest)
  | .members [], rest => .openMembers :: .closeMembers :: rest
  | .members ((key, value) :: fields), rest =>
      .openMembers :: .text key :: .colon :: value.tokens (moreMembers fields rest)

/-- The items behind the first, up to the end of the list. -/
def moreItems : List Draft → List Token → List Token
  | [], rest => .closeItems :: rest
  | value :: values, rest => .comma :: value.tokens (moreItems values rest)

/-- The members behind the first, up to the end of the object. -/
def moreMembers : List (Option String × Draft) → List Token → List Token
  | [], rest => .closeMembers :: rest
  | (key, value) :: fields, rest =>
      .comma :: .text key :: .colon :: value.tokens (moreMembers fields rest)

end

/-- The items of a list behind its opening bracket. -/
def itemTokens : List Draft → List Token → List Token
  | [], rest => .closeItems :: rest
  | value :: values, rest => value.tokens (moreItems values rest)

/-- The members of an object behind its opening brace. -/
def memberTokens : List (Option String × Draft) → List Token → List Token
  | [], rest => .closeMembers :: rest
  | (key, value) :: fields, rest =>
      .text key :: .colon :: value.tokens (moreMembers fields rest)

theorem tokens_items (values : List Draft) (rest : List Token) :
    (items values).tokens rest = .openItems :: itemTokens values rest := by
  cases values <;> rfl

theorem tokens_members (fields : List (Option String × Draft)) (rest : List Token) :
    (members fields).tokens rest = .openMembers :: memberTokens fields rest := by
  rcases fields with _ | ⟨⟨key, value⟩, fields⟩ <;> rfl

/-! ## Unique readability -/

/-- The first token of a draft opens it or is all of it. -/
inductive Opens : Draft → Token → Prop where
  | null : Opens .null .null
  | bool {value : Bool} : Opens (.bool value) (.bool value)
  | number {value : Option Value} : Opens (.number value) (.number value)
  | text {content : Option String} : Opens (.text content) (.text content)
  | items {values : List Draft} : Opens (.items values) .openItems
  | members {fields : List (Option String × Draft)} : Opens (.members fields) .openMembers

theorem exists_opens (draft : Draft) (rest : List Token) :
    ∃ token after, draft.tokens rest = token :: after ∧ Opens draft token := by
  cases draft with
  | null => exact ⟨_, _, rfl, .null⟩
  | bool value => exact ⟨_, _, rfl, .bool⟩
  | number value => exact ⟨_, _, rfl, .number⟩
  | text content => exact ⟨_, _, rfl, .text⟩
  | items values => exact ⟨_, _, tokens_items values rest, .items⟩
  | members fields => exact ⟨_, _, tokens_members fields rest, .members⟩

/-- A draft begins neither with a comma nor with an end. -/
theorem Opens.ne_mark {draft : Draft} {token : Token} (opens : Opens draft token) :
    token ≠ .comma ∧ token ≠ .closeItems ∧ token ≠ .closeMembers := by
  cases opens <;> exact ⟨nofun, nofun, nofun⟩

theorem tokens_ne_closeItems (draft : Draft) (rest after : List Token) :
    draft.tokens rest ≠ .closeItems :: after := by
  obtain ⟨token, others, first, opens⟩ := exists_opens draft rest
  rw [first]
  intro same
  exact opens.ne_mark.2.1 (List.cons.inj same).1

mutual

/-- Tokens begin with one draft at most. -/
theorem tokens_inj : (first second : Draft) → {rest after : List Token} →
    first.tokens rest = second.tokens after → first = second ∧ rest = after
  | first, second, rest, after, same => by
      -- The first token tells which kind of draft it is, so both are of one kind.
      obtain ⟨token, _, isFirst, opens⟩ := exists_opens first rest
      obtain ⟨token', _, isSecond, opens'⟩ := exists_opens second after
      have sameToken : token = token' := by
        rw [isFirst, isSecond] at same
        exact (List.cons.inj same).1
      subst sameToken
      cases first with
      | null =>
          cases opens
          cases opens'
          exact ⟨rfl, (List.cons.inj same).2⟩
      | bool value =>
          cases opens
          cases opens'
          exact ⟨rfl, (List.cons.inj same).2⟩
      | number value =>
          cases opens
          cases opens'
          exact ⟨rfl, (List.cons.inj same).2⟩
      | text content =>
          cases opens
          cases opens'
          exact ⟨rfl, (List.cons.inj same).2⟩
      | items values =>
          cases opens
          cases opens' with
          | @items others =>
              rw [tokens_items, tokens_items] at same
              obtain ⟨sameValues, sameRest⟩ := itemTokens_inj values others (List.cons.inj same).2
              exact ⟨congrArg items sameValues, sameRest⟩
      | members fields =>
          cases opens
          cases opens' with
          | @members others =>
              rw [tokens_members, tokens_members] at same
              obtain ⟨sameFields, sameRest⟩ :=
                memberTokens_inj fields others (List.cons.inj same).2
              exact ⟨congrArg members sameFields, sameRest⟩

theorem itemTokens_inj : (first second : List Draft) → {rest after : List Token} →
    itemTokens first rest = itemTokens second after → first = second ∧ rest = after
  | [], [], _, _, same => ⟨rfl, (List.cons.inj same).2⟩
  | [], value :: values, _, _, same => absurd same.symm (tokens_ne_closeItems value _ _)
  | value :: values, [], _, _, same => absurd same (tokens_ne_closeItems value _ _)
  | value :: values, other :: others, _, _, same => by
      obtain ⟨sameValue, sameRest⟩ := tokens_inj value other same
      obtain ⟨sameValues, sameRest⟩ := moreItems_inj values others sameRest
      exact ⟨by rw [sameValue, sameValues], sameRest⟩

theorem moreItems_inj : (first second : List Draft) → {rest after : List Token} →
    moreItems first rest = moreItems second after → first = second ∧ rest = after
  | [], [], _, _, same => ⟨rfl, (List.cons.inj same).2⟩
  | [], _ :: _, _, _, same => nomatch (List.cons.inj same).1
  | _ :: _, [], _, _, same => nomatch (List.cons.inj same).1
  | value :: values, other :: others, _, _, same => by
      obtain ⟨sameValue, sameRest⟩ := tokens_inj value other (List.cons.inj same).2
      obtain ⟨sameValues, sameRest⟩ := moreItems_inj values others sameRest
      exact ⟨by rw [sameValue, sameValues], sameRest⟩

theorem memberTokens_inj : (first second : List (Option String × Draft)) →
    {rest after : List Token} → memberTokens first rest = memberTokens second after →
      first = second ∧ rest = after
  | [], [], _, _, same => ⟨rfl, (List.cons.inj same).2⟩
  | [], _ :: _, _, _, same => nomatch (List.cons.inj same).1
  | _ :: _, [], _, _, same => nomatch (List.cons.inj same).1
  | (key, value) :: fields, (name, other) :: others, _, _, same => by
      obtain ⟨sameKey, sameTail⟩ := List.cons.inj same
      obtain ⟨sameValue, sameRest⟩ := tokens_inj value other (List.cons.inj sameTail).2
      obtain ⟨sameFields, sameRest⟩ := moreMembers_inj fields others sameRest
      cases sameKey
      exact ⟨by rw [sameValue, sameFields], sameRest⟩

theorem moreMembers_inj : (first second : List (Option String × Draft)) →
    {rest after : List Token} → moreMembers first rest = moreMembers second after →
      first = second ∧ rest = after
  | [], [], _, _, same => ⟨rfl, (List.cons.inj same).2⟩
  | [], _ :: _, _, _, same => nomatch (List.cons.inj same).1
  | _ :: _, [], _, _, same => nomatch (List.cons.inj same).1
  | (key, value) :: fields, (name, other) :: others, _, _, same => by
      obtain ⟨sameKey, sameTail⟩ := List.cons.inj (List.cons.inj same).2
      obtain ⟨sameValue, sameRest⟩ := tokens_inj value other (List.cons.inj sameTail).2
      obtain ⟨sameFields, sameRest⟩ := moreMembers_inj fields others sameRest
      cases sameKey
      exact ⟨by rw [sameValue, sameFields], sameRest⟩

end

end Draft

/-! ## Trees among the drafts -/

mutual

/-- A tree as it is written: every text has its content and every number its value. -/
def Tree.draft : Tree → Draft
  | .null => .null
  | .bool value => .bool value
  | .number value => .number (some value)
  | .text content => .text (some content)
  | .items values => .items (draftItems values)
  | .members fields => .members (draftMembers fields)

def Tree.draftItems : List Tree → List Draft
  | [] => []
  | value :: values => value.draft :: draftItems values

def Tree.draftMembers : List (String × Tree) → List (Option String × Draft)
  | [] => []
  | (key, value) :: fields => (some key, value.draft) :: draftMembers fields

end

theorem Tree.draftItems_eq_map (values : List Tree) : draftItems values = values.map draft := by
  induction values with
  | nil => rfl
  | cons value values inductionHypothesis => rw [draftItems, inductionHypothesis, List.map_cons]

theorem Tree.draftMembers_eq_map (fields : List (String × Tree)) :
    draftMembers fields = fields.map fun field => (some field.1, field.2.draft) := by
  induction fields with
  | nil => rfl
  | cons field fields inductionHypothesis =>
      rw [draftMembers, inductionHypothesis, List.map_cons]

mutual

/-- The tree that a reader with some care makes of a draft, if it makes one. -/
def Draft.tree? (care : Care) : Draft → Option Tree
  | .null => some .null
  | .bool value => some (.bool value)
  | .number value => care.number? value
  | .text content => (care.content? content).map .text
  | .items values => (treeItems? care values).map .items
  | .members fields => (treeMembers? care fields).map .members

def Draft.treeItems? (care : Care) : List Draft → Option (List Tree)
  | [] => some []
  | value :: values =>
      (value.tree? care).bind fun tree => (treeItems? care values).map (tree :: ·)

def Draft.treeMembers? (care : Care) :
    List (Option String × Draft) → Option (List (String × Tree))
  | [] => some []
  | (key, value) :: fields =>
      (care.content? key).bind fun name =>
        (value.tree? care).bind fun tree => (treeMembers? care fields).map ((name, tree) :: ·)

end

section Parts

variable {care : Care}

theorem Draft.treeItems?_cons {value : Draft} {values : List Draft} {trees : List Tree}
    (made : treeItems? care (value :: values) = some trees) :
    ∃ tree others, value.tree? care = some tree ∧ treeItems? care values = some others ∧
      trees = tree :: others := by
  obtain ⟨tree, isTree, more⟩ := Option.bind_eq_some_iff.mp made
  obtain ⟨others, areOthers, same⟩ := Option.map_eq_some_iff.mp more
  exact ⟨tree, others, isTree, areOthers, same.symm⟩

theorem Draft.treeMembers?_cons {key : Option String} {value : Draft}
    {fields : List (Option String × Draft)} {trees : List (String × Tree)}
    (made : treeMembers? care ((key, value) :: fields) = some trees) :
    ∃ name tree others, care.content? key = some name ∧ value.tree? care = some tree ∧
      treeMembers? care fields = some others ∧ trees = (name, tree) :: others := by
  obtain ⟨name, isName, later⟩ := Option.bind_eq_some_iff.mp made
  obtain ⟨tree, isTree, more⟩ := Option.bind_eq_some_iff.mp later
  obtain ⟨others, areOthers, same⟩ := Option.map_eq_some_iff.mp more
  exact ⟨name, tree, others, isName, isTree, areOthers, same.symm⟩

end Parts

section Kept

variable {depth : Nat}

mutual

theorem Draft.tree?_draft : (tree : Tree) → tree.draft.tree? (.kept depth) = some tree
  | .null => rfl
  | .bool _ => rfl
  | .number _ => rfl
  | .text _ => rfl
  | .items values => by rw [Tree.draft, tree?, treeItems?_draft values, Option.map_some]
  | .members fields => by rw [Tree.draft, tree?, treeMembers?_draft fields, Option.map_some]

theorem Draft.treeItems?_draft : (values : List Tree) →
    treeItems? (.kept depth) (Tree.draftItems values) = some values
  | [] => rfl
  | value :: values => by
      rw [Tree.draftItems, treeItems?, tree?_draft value, treeItems?_draft values]
      rfl

theorem Draft.treeMembers?_draft : (fields : List (String × Tree)) →
    treeMembers? (.kept depth) (Tree.draftMembers fields) = some fields
  | [] => rfl
  | (_, value) :: fields => by
      rw [Tree.draftMembers, treeMembers?, tree?_draft value, treeMembers?_draft fields]
      rfl

end

mutual

theorem Draft.eq_draft_of_tree? : (draft : Draft) → {tree : Tree} →
    draft.tree? (.kept depth) = some tree → draft = tree.draft
  | .null, _, isTree => by
      cases isTree
      rfl
  | .bool _, _, isTree => by
      cases isTree
      rfl
  | .number value, _, isTree => by
      obtain ⟨known, rfl, rfl⟩ := Option.map_eq_some_iff.mp isTree
      rfl
  | .text content, _, isTree => by
      obtain ⟨known, isContent, rfl⟩ := Option.map_eq_some_iff.mp isTree
      cases isContent
      rfl
  | .items values, _, isTree => by
      obtain ⟨trees, areTrees, rfl⟩ := Option.map_eq_some_iff.mp isTree
      rw [Tree.draft, eq_draftItems_of_treeItems? values areTrees]
  | .members fields, _, isTree => by
      obtain ⟨trees, areTrees, rfl⟩ := Option.map_eq_some_iff.mp isTree
      rw [Tree.draft, eq_draftMembers_of_treeMembers? fields areTrees]

theorem Draft.eq_draftItems_of_treeItems? : (values : List Draft) → {trees : List Tree} →
    treeItems? (.kept depth) values = some trees → values = Tree.draftItems trees
  | [], _, areTrees => by
      cases areTrees
      rfl
  | value :: values, _, areTrees => by
      obtain ⟨tree, others, isTree, areOthers, rfl⟩ := treeItems?_cons areTrees
      rw [Tree.draftItems, ← eq_draft_of_tree? value isTree,
        ← eq_draftItems_of_treeItems? values areOthers]

theorem Draft.eq_draftMembers_of_treeMembers? : (fields : List (Option String × Draft)) →
    {trees : List (String × Tree)} → treeMembers? (.kept depth) fields = some trees →
      fields = Tree.draftMembers trees
  | [], _, areTrees => by
      cases areTrees
      rfl
  | (key, value) :: fields, _, areTrees => by
      obtain ⟨name, tree, others, isName, isTree, areOthers, rfl⟩ := treeMembers?_cons areTrees
      cases isName
      rw [Tree.draftMembers, ← eq_draft_of_tree? value isTree,
        ← eq_draftMembers_of_treeMembers? fields areOthers]

end

/-- A reader that keeps contents makes a tree of its own draft only. -/
theorem Draft.tree?_kept_eq_some_iff {draft : Draft} {tree : Tree} :
    draft.tree? (.kept depth) = some tree ↔ draft = tree.draft := by
  constructor
  · exact fun isTree => draft.eq_draft_of_tree? isTree
  · rintro rfl
    exact tree?_draft tree

end Kept

theorem Tree.draft_injective {first second : Tree} (same : first.draft = second.draft) :
    first = second := by
  have isSecond : second.draft.tree? (.kept 0) = some second := Draft.tree?_draft second
  rw [← same, Draft.tree?_draft] at isSecond
  exact Option.some.inj isSecond

mutual

/-- A reader that skips contents makes something of every draft. -/
theorem Draft.exists_tree?_skipped : (draft : Draft) → ∃ tree, draft.tree? .skipped = some tree
  | .null => ⟨_, rfl⟩
  | .bool _ => ⟨_, rfl⟩
  | .number _ => ⟨_, rfl⟩
  | .text _ => ⟨_, rfl⟩
  | .items values => by
      obtain ⟨trees, areTrees⟩ := exists_treeItems?_skipped values
      exact ⟨.items trees, by rw [tree?, areTrees, Option.map_some]⟩
  | .members fields => by
      obtain ⟨trees, areTrees⟩ := exists_treeMembers?_skipped fields
      exact ⟨.members trees, by rw [tree?, areTrees, Option.map_some]⟩

theorem Draft.exists_treeItems?_skipped : (values : List Draft) →
    ∃ trees, treeItems? .skipped values = some trees
  | [] => ⟨[], rfl⟩
  | value :: values => by
      obtain ⟨tree, isTree⟩ := exists_tree?_skipped value
      obtain ⟨trees, areTrees⟩ := exists_treeItems?_skipped values
      exact ⟨tree :: trees, by rw [treeItems?, isTree, areTrees]; rfl⟩

theorem Draft.exists_treeMembers?_skipped : (fields : List (Option String × Draft)) →
    ∃ trees, treeMembers? .skipped fields = some trees
  | [] => ⟨[], rfl⟩
  | (key, value) :: fields => by
      obtain ⟨tree, isTree⟩ := exists_tree?_skipped value
      obtain ⟨trees, areTrees⟩ := exists_treeMembers?_skipped fields
      exact ⟨(key.getD "", tree) :: trees, by rw [treeMembers?, isTree, areTrees]; rfl⟩

end

end DualStore.Json
