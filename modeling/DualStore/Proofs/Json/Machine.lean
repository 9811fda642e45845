import DualStore.Proofs.Json.Draft
import DualStore.Record.Shape

/-!
Contract: the machine reads exactly the drafts.

Owns:
- what is left to read where a value completes inside open lists and objects, and from each state
  of the machine on;
- one step of the machine takes one token off what is left, so a run that ends well has read one
  draft;
- a run that skips contents gets through every draft.

Does not own: the shapes that readers look for.
-/

namespace DualStore.Json

/-! ## What is left to read -/

/-- A value is complete: the tokens are the ends of the open lists and objects, with the values
between them, and the outermost value is the result. -/
def Closes (care : Care) : List Frame → Tree → List Token → Tree × List Token → Prop
  | [], tree, tokens, result => result = (tree, tokens)
  | .items done :: stack, tree, tokens, result =>
      ∃ values trees after, tokens = Draft.moreItems values after ∧
        Draft.treeItems? care values = some trees ∧
        Closes care stack (.items (done.reverse ++ tree :: trees)) after result
  | .pair done key :: stack, tree, tokens, result =>
      ∃ fields trees after, tokens = Draft.moreMembers fields after ∧
        Draft.treeMembers? care fields = some trees ∧
        Closes care stack (.members (done.reverse ++ (key, tree) :: trees)) after result
  | .members _ :: _, _, _, _ => False

/-- The tokens begin with a value, and its end closes what is open. -/
def BeginsValue (care : Care) (stack : List Frame) (tokens : List Token)
    (result : Tree × List Token) : Prop :=
  ∃ (draft : Draft) (tree : Tree) (after : List Token), tokens = draft.tokens after ∧
    draft.tree? care = some tree ∧ Closes care stack tree after result

/-- The tokens begin with a member, and its end closes what is open. -/
def BeginsMember (care : Care) (done : List (String × Tree)) (stack : List Frame)
    (tokens : List Token) (result : Tree × List Token) : Prop :=
  ∃ key name after, tokens = .text key :: .colon :: after ∧ care.content? key = some name ∧
    BeginsValue care (.pair done name :: stack) after result

/-- What the machine has still to read. The states in which it never is are left out. -/
def Reading.Left (care : Care) (reading : Reading) (tokens : List Token)
    (result : Tree × List Token) : Prop :=
  match reading.phase, reading.stack with
  | .value, stack => BeginsValue care stack tokens result
  | .nextItem, stack => BeginsValue care stack tokens result
  | .firstItem, .items [] :: stack =>
      ∃ values trees after, tokens = Draft.itemTokens values after ∧
        Draft.treeItems? care values = some trees ∧ Closes care stack (.items trees) after result
  | .separator, .items done :: stack =>
      ∃ values trees after, tokens = Draft.moreItems values after ∧
        Draft.treeItems? care values = some trees ∧
        Closes care stack (.items (done.reverse ++ trees)) after result
  | .firstKey, .members [] :: stack =>
      ∃ fields trees after, tokens = Draft.memberTokens fields after ∧
        Draft.treeMembers? care fields = some trees ∧
        Closes care stack (.members trees) after result
  | .nextKey, .members done :: stack => BeginsMember care done stack tokens result
  | .colon, .pair done key :: stack =>
      ∃ after, tokens = .colon :: after ∧ BeginsValue care (.pair done key :: stack) after result
  | .separator, .members done :: stack =>
      ∃ fields trees after, tokens = Draft.moreMembers fields after ∧
        Draft.treeMembers? care fields = some trees ∧
        Closes care stack (.members (done.reverse ++ trees)) after result
  | _, _ => True

/-- What is left behind one step. -/
def Progress.Left (care : Care) (progress : Progress) (tokens : List Token)
    (result : Tree × List Token) : Prop :=
  match progress with
  | .complete value => result = (value, tokens)
  | .continue reading => reading.Left care tokens result

section Step

variable {care : Care} {tokens : List Token} {result : Tree × List Token}

theorem closes_of_finishValue {tree : Tree} {stack : List Frame} {progress : Progress}
    (placed : Reading.finishValue tree stack = .ok progress)
    (left : progress.Left care tokens result) : Closes care stack tree tokens result := by
  rcases stack with _ | ⟨frame, stack⟩
  · cases placed
    exact left
  · cases frame with
    | items done =>
        cases placed
        obtain ⟨values, trees, after, rfl, areTrees, closes⟩ := left
        refine ⟨values, trees, after, rfl, areTrees, ?_⟩
        simpa using closes
    | members done => cases placed
    | pair done key =>
        cases placed
        obtain ⟨fields, trees, after, rfl, areTrees, closes⟩ := left
        refine ⟨fields, trees, after, rfl, areTrees, ?_⟩
        simpa using closes

/-- A token that begins or is a value. -/
theorem beginsValue_of_takeValue {stack : List Frame} {token : Token} {progress : Progress}
    (step : Reading.takeValue care stack token = .ok progress)
    (left : progress.Left care tokens result) :
    BeginsValue care stack (token :: tokens) result := by
  cases token with
  | null => exact ⟨.null, _, tokens, rfl, rfl, closes_of_finishValue step left⟩
  | bool value => exact ⟨.bool value, _, tokens, rfl, rfl, closes_of_finishValue step left⟩
  | number value =>
      simp only [Reading.takeValue] at step
      split at step
      · rename_i tree isTree
        exact ⟨.number value, tree, tokens, rfl, isTree, closes_of_finishValue step left⟩
      · cases step
  | text content =>
      simp only [Reading.takeValue] at step
      split at step
      · rename_i known isContent
        refine ⟨.text content, .text known, tokens, rfl, ?_, closes_of_finishValue step left⟩
        rw [Draft.tree?, isContent, Option.map_some]
      · cases step
  | openItems =>
      simp only [Reading.takeValue] at step
      split at step
      · cases step
        obtain ⟨values, trees, after, rfl, areTrees, closes⟩ := left
        refine ⟨.items values, .items trees, after, (Draft.tokens_items values after).symm, ?_,
          closes⟩
        rw [Draft.tree?, areTrees, Option.map_some]
      · cases step
  | openMembers =>
      simp only [Reading.takeValue] at step
      split at step
      · cases step
        obtain ⟨fields, trees, after, rfl, areTrees, closes⟩ := left
        refine ⟨.members fields, .members trees, after, (Draft.tokens_members fields after).symm,
          ?_, closes⟩
        rw [Draft.tree?, areTrees, Option.map_some]
      · cases step
  | _ => cases step

theorem beginsMember_of_takeKey {done : List (String × Tree)} {stack : List Frame} {token : Token}
    {progress : Progress}
    (step : Reading.takeKey care (.members done :: stack) token = .ok progress)
    (left : progress.Left care tokens result) :
    BeginsMember care done stack (token :: tokens) result := by
  cases token with
  | text content =>
      simp only [Reading.takeKey] at step
      split at step
      · rename_i name others outer isName same
        cases same
        cases step
        obtain ⟨after, rfl, begins⟩ := left
        exact ⟨content, name, after, rfl, isName, begins⟩
      · cases step
      · cases step
  | _ => cases step

theorem items_of_beginsValue {stack : List Frame} {done : List Tree}
    (begins : BeginsValue care (.items done :: stack) tokens result) :
    ∃ value values trees after, tokens = value.tokens (Draft.moreItems values after) ∧
      Draft.treeItems? care (value :: values) = some trees ∧
      Closes care stack (.items (done.reverse ++ trees)) after result := by
  obtain ⟨draft, tree, _, rfl, isTree, values, trees, after, rfl, areTrees, closes⟩ := begins
  refine ⟨draft, values, tree :: trees, after, rfl, ?_, closes⟩
  rw [Draft.treeItems?, isTree, areTrees]
  rfl

theorem members_of_beginsMember {stack : List Frame} {done : List (String × Tree)}
    (begins : BeginsMember care done stack tokens result) :
    ∃ key value fields trees after,
      tokens = .text key :: .colon :: value.tokens (Draft.moreMembers fields after) ∧
      Draft.treeMembers? care ((key, value) :: fields) = some trees ∧
      Closes care stack (.members (done.reverse ++ trees)) after result := by
  obtain ⟨key, name, _, rfl, isName, draft, tree, _, rfl, isTree, fields, trees, after, rfl,
    areTrees, closes⟩ := begins
  refine ⟨key, draft, fields, (name, tree) :: trees, after, rfl, ?_, closes⟩
  rw [Draft.treeMembers?, isName, isTree, areTrees]
  rfl

theorem left_of_takeSeparator {stack : List Frame} {token : Token} {progress : Progress}
    (step : Reading.takeSeparator stack token = .ok progress)
    (left : progress.Left care tokens result) :
    Reading.Left care ⟨.separator, stack⟩ (token :: tokens) result := by
  rcases stack with _ | ⟨frame, stack⟩
  · trivial
  · cases frame with
    | items done =>
        cases token with
        | comma =>
            cases step
            obtain ⟨value, values, trees, after, rfl, areTrees, closes⟩ := items_of_beginsValue left
            exact ⟨value :: values, trees, after, rfl, areTrees, closes⟩
        | closeItems =>
            refine ⟨[], [], tokens, rfl, rfl, ?_⟩
            rw [List.append_nil]
            exact closes_of_finishValue step left
        | _ => cases step
    | members done =>
        cases token with
        | comma =>
            cases step
            obtain ⟨key, value, fields, trees, after, rfl, areTrees, closes⟩ :=
              members_of_beginsMember left
            exact ⟨(key, value) :: fields, trees, after, rfl, areTrees, closes⟩
        | closeMembers =>
            refine ⟨[], [], tokens, rfl, rfl, ?_⟩
            rw [List.append_nil]
            exact closes_of_finishValue step left
        | _ => cases step
    | pair done key => cases step

theorem take_item {stack : List Frame} {token : Token} {phase : Phase}
    (wantsItem : phase = .firstItem ∨ phase = .nextItem) (notEnd : token ≠ .closeItems) :
    Reading.take care ⟨phase, stack⟩ token = Reading.takeValue care stack token := by
  rcases wantsItem with rfl | rfl <;> cases token <;> first | rfl | exact absurd rfl notEnd

theorem take_key {stack : List Frame} {token : Token} {phase : Phase}
    (wantsKey : phase = .firstKey ∨ phase = .nextKey) (notEnd : token ≠ .closeMembers) :
    Reading.take care ⟨phase, stack⟩ token = Reading.takeKey care stack token := by
  rcases wantsKey with rfl | rfl <;> cases token <;> first | rfl | exact absurd rfl notEnd

theorem left_of_takeFirstItem {stack : List Frame} {token : Token} {progress : Progress}
    (step : Reading.take care ⟨.firstItem, .items [] :: stack⟩ token = .ok progress)
    (left : progress.Left care tokens result) :
    Reading.Left care ⟨.firstItem, .items [] :: stack⟩ (token :: tokens) result := by
  by_cases isEnd : token = .closeItems
  · subst isEnd
    exact ⟨[], [], tokens, rfl, rfl, closes_of_finishValue step left⟩
  · rw [take_item (Or.inl rfl) isEnd] at step
    obtain ⟨value, values, trees, after, same, areTrees, closes⟩ :=
      items_of_beginsValue (beginsValue_of_takeValue step left)
    exact ⟨value :: values, trees, after, same, areTrees, closes⟩

theorem left_of_takeFirstKey {stack : List Frame} {token : Token} {progress : Progress}
    (step : Reading.take care ⟨.firstKey, .members [] :: stack⟩ token = .ok progress)
    (left : progress.Left care tokens result) :
    Reading.Left care ⟨.firstKey, .members [] :: stack⟩ (token :: tokens) result := by
  by_cases isEnd : token = .closeMembers
  · subst isEnd
    exact ⟨[], [], tokens, rfl, rfl, closes_of_finishValue step left⟩
  · rw [take_key (Or.inl rfl) isEnd] at step
    obtain ⟨key, value, fields, trees, after, same, areTrees, closes⟩ :=
      members_of_beginsMember (beginsMember_of_takeKey step left)
    exact ⟨(key, value) :: fields, trees, after, same, areTrees, closes⟩

/-- One step takes one token off what is left to read. -/
theorem left_of_take {reading : Reading} {token : Token} {progress : Progress}
    (step : reading.take care token = .ok progress) (left : progress.Left care tokens result) :
    reading.Left care (token :: tokens) result := by
  obtain ⟨phase, stack⟩ := reading
  cases phase with
  | value => exact beginsValue_of_takeValue step left
  | nextItem =>
      have notEnd : token ≠ .closeItems := by
        rintro rfl
        cases step
      rw [take_item (Or.inr rfl) notEnd] at step
      exact beginsValue_of_takeValue step left
  | firstItem =>
      match stack with
      | .items [] :: _ => exact left_of_takeFirstItem step left
      | [] => trivial
      | .items (_ :: _) :: _ => trivial
      | .members _ :: _ => trivial
      | .pair _ _ :: _ => trivial
  | firstKey =>
      match stack with
      | .members [] :: _ => exact left_of_takeFirstKey step left
      | [] => trivial
      | .members (_ :: _) :: _ => trivial
      | .items _ :: _ => trivial
      | .pair _ _ :: _ => trivial
  | nextKey =>
      match stack with
      | .members done :: stack =>
          have notEnd : token ≠ .closeMembers := by
            rintro rfl
            cases step
          rw [take_key (Or.inr rfl) notEnd] at step
          exact beginsMember_of_takeKey step left
      | [] => trivial
      | .items _ :: _ => trivial
      | .pair _ _ :: _ => trivial
  | colon =>
      match stack with
      | .pair done key :: stack =>
          have isColon : token = .colon := by
            cases token <;> first | rfl | cases step
          subst isColon
          cases step
          exact ⟨tokens, rfl, left⟩
      | [] => trivial
      | .items _ :: _ => trivial
      | .members _ :: _ => trivial
  | separator => exact left_of_takeSeparator step left

/-- A run that ends well has read what was left. -/
theorem left_of_runReading {ending : Ending} {reading : Reading}
    (run : runReading care ending reading tokens = .ok result) :
    reading.Left care tokens result := by
  -- The tokens are put back one at a time, from the end of the run: what is left behind a step
  -- tells what was left in front of it.
  induction tokens generalizing reading with
  | nil => cases run
  | cons token tokens inductionHypothesis =>
      rw [runReading] at run
      split at run
      · cases run
      · rename_i value step
        cases run
        exact left_of_take step rfl
      · rename_i next step
        exact left_of_take step (inductionHypothesis run)

end Step

/-! ## Runs that skip contents -/

/-- The run behind one step. -/
def Progress.run (care : Care) (ending : Ending) (progress : Progress) (tokens : List Token) :
    Except TokenStop (Tree × List Token) :=
  match progress with
  | .complete value => .ok (value, tokens)
  | .continue reading => runReading care ending reading tokens

section Skipping

-- A draft is got through whatever lies on the stack below it, so that the hypothesis for a value
-- inside a list or an object applies with the frame of that list or object on top.
variable {ending : Ending} {rest : List Token}

theorem runReading_cons {care : Care} {reading : Reading} {token : Token} {progress : Progress}
    (step : reading.take care token = .ok progress) :
    runReading care ending reading (token :: rest) = progress.run care ending rest := by
  rw [runReading, step]
  cases progress <;> rfl

/-- The phases in which a value may come next. -/
def Phase.wantsValue : Phase → Bool
  | .value | .firstItem | .nextItem => true
  | _ => false

theorem take_of_opens {care : Care} {draft : Draft} {token : Token} {phase : Phase}
    {stack : List Frame} (wants : phase.wantsValue = true) (opens : Draft.Opens draft token) :
    Reading.take care ⟨phase, stack⟩ token = Reading.takeValue care stack token := by
  cases phase with
  | value => rfl
  | firstItem => exact take_item (Or.inl rfl) opens.ne_mark.2.1
  | nextItem => exact take_item (Or.inr rfl) opens.ne_mark.2.1
  | _ => cases wants

theorem run_openItems {phase : Phase} {stack : List Frame} (wants : phase.wantsValue = true) :
    runReading .skipped ending ⟨phase, stack⟩ (.openItems :: rest) =
      runReading .skipped ending ⟨.firstItem, .items [] :: stack⟩ rest := by
  have step : Reading.take .skipped ⟨phase, stack⟩ .openItems =
      .ok (.continue ⟨.firstItem, .items [] :: stack⟩) :=
    take_of_opens wants (@Draft.Opens.items [])
  exact runReading_cons step

theorem run_openMembers {phase : Phase} {stack : List Frame} (wants : phase.wantsValue = true) :
    runReading .skipped ending ⟨phase, stack⟩ (.openMembers :: rest) =
      runReading .skipped ending ⟨.firstKey, .members [] :: stack⟩ rest := by
  have step : Reading.take .skipped ⟨phase, stack⟩ .openMembers =
      .ok (.continue ⟨.firstKey, .members [] :: stack⟩) :=
    take_of_opens wants (@Draft.Opens.members [])
  exact runReading_cons step

theorem run_key {phase : Phase} {done : List (String × Tree)} {stack : List Frame}
    (wantsKey : phase = .firstKey ∨ phase = .nextKey) {key : Option String} {name : String}
    (isName : Care.content? .skipped key = some name) :
    runReading .skipped ending ⟨phase, .members done :: stack⟩ (.text key :: .colon :: rest) =
      runReading .skipped ending ⟨.value, .pair done name :: stack⟩ rest := by
  have step : Reading.take .skipped ⟨phase, .members done :: stack⟩ (.text key) =
      .ok (.continue ⟨.colon, .pair done name :: stack⟩) := by
    rw [take_key wantsKey (fun same : Token.text key = .closeMembers => nomatch same)]
    simp only [Reading.takeKey, isName]
  rw [runReading_cons step]
  rfl

mutual

/-- A run that skips contents gets through a draft, and goes on where its value is complete. -/
theorem run_tokens : (draft : Draft) → {tree : Tree} → draft.tree? .skipped = some tree →
    {phase : Phase} → phase.wantsValue = true → {stack : List Frame} → {progress : Progress} →
    Reading.finishValue tree stack = .ok progress → {rest : List Token} →
    runReading .skipped ending ⟨phase, stack⟩ (draft.tokens rest) =
      progress.run .skipped ending rest
  | .null, _, isTree, _, wants, _, _, placed, _ => by
      cases isTree
      exact runReading_cons ((take_of_opens wants .null).trans placed)
  | .bool _, _, isTree, _, wants, _, _, placed, _ => by
      cases isTree
      exact runReading_cons ((take_of_opens wants .bool).trans placed)
  | .number value, _, isTree, _, wants, _, _, placed, _ => by
      cases isTree
      exact runReading_cons ((take_of_opens wants .number).trans placed)
  | .text content, _, isTree, _, wants, _, _, placed, _ => by
      cases isTree
      exact runReading_cons ((take_of_opens wants .text).trans placed)
  | .items [], _, isTree, _, wants, _, _, placed, _ => by
      cases isTree
      rw [Draft.tokens, run_openItems wants]
      exact runReading_cons placed
  | .items (value :: values), _, made, _, wants, _, _, placed, _ => by
      obtain ⟨trees, areTrees, rfl⟩ := Option.map_eq_some_iff.mp made
      obtain ⟨tree, others, isTree, areOthers, rfl⟩ := Draft.treeItems?_cons areTrees
      rw [Draft.tokens, run_openItems wants, run_tokens value isTree rfl rfl]
      have joined : Reading.finishValue (.items ([tree].reverse ++ others)) _ = _ := placed
      exact run_moreItems values areOthers joined
  | .members [], _, isTree, _, wants, _, _, placed, _ => by
      cases isTree
      rw [Draft.tokens, run_openMembers wants]
      exact runReading_cons placed
  | .members ((key, value) :: fields), _, made, _, wants, _, _, placed, _ => by
      obtain ⟨trees, areTrees, rfl⟩ := Option.map_eq_some_iff.mp made
      obtain ⟨name, tree, others, isName, isTree, areOthers, rfl⟩ :=
        Draft.treeMembers?_cons areTrees
      rw [Draft.tokens, run_openMembers wants, run_key (Or.inl rfl) isName,
        run_tokens value isTree rfl rfl]
      have joined : Reading.finishValue (.members ([(name, tree)].reverse ++ others)) _ = _ :=
        placed
      exact run_moreMembers fields areOthers joined

theorem run_moreItems : (values : List Draft) → {trees : List Tree} →
    Draft.treeItems? .skipped values = some trees → {done : List Tree} → {stack : List Frame} →
    {progress : Progress} →
    Reading.finishValue (.items (done.reverse ++ trees)) stack = .ok progress →
    {rest : List Token} →
    runReading .skipped ending ⟨.separator, .items done :: stack⟩ (Draft.moreItems values rest) =
      progress.run .skipped ending rest
  | [], _, areTrees, done, _, _, placed, _ => by
      cases areTrees
      rw [List.append_nil] at placed
      exact runReading_cons placed
  | value :: values, _, areTrees, done, stack, _, placed, rest => by
      obtain ⟨tree, others, isTree, areOthers, rfl⟩ := Draft.treeItems?_cons areTrees
      have comma : runReading .skipped ending ⟨.separator, .items done :: stack⟩
          (Draft.moreItems (value :: values) rest) = _ := runReading_cons rfl
      rw [comma, Progress.run, run_tokens value isTree rfl rfl]
      refine run_moreItems values areOthers ?_
      rw [← placed, List.reverse_cons, List.append_assoc]
      rfl

theorem run_moreMembers : (fields : List (Option String × Draft)) →
    {trees : List (String × Tree)} → Draft.treeMembers? .skipped fields = some trees →
    {done : List (String × Tree)} → {stack : List Frame} → {progress : Progress} →
    Reading.finishValue (.members (done.reverse ++ trees)) stack = .ok progress →
    {rest : List Token} →
    runReading .skipped ending ⟨.separator, .members done :: stack⟩
      (Draft.moreMembers fields rest) = progress.run .skipped ending rest
  | [], _, areTrees, done, _, _, placed, _ => by
      cases areTrees
      rw [List.append_nil] at placed
      exact runReading_cons placed
  | (key, value) :: fields, _, areTrees, done, stack, _, placed, rest => by
      obtain ⟨name, tree, others, isName, isTree, areOthers, rfl⟩ :=
        Draft.treeMembers?_cons areTrees
      have comma : runReading .skipped ending ⟨.separator, .members done :: stack⟩
          (Draft.moreMembers ((key, value) :: fields) rest) = _ := runReading_cons rfl
      rw [comma, Progress.run, run_key (Or.inr rfl) isName, run_tokens value isTree rfl rfl]
      refine run_moreMembers fields areOthers ?_
      rw [← placed, List.reverse_cons, List.append_assoc]
      rfl

end

end Skipping

/-! ## Whole values -/

section Whole

variable {ending : Ending} {tokens rest : List Token}

/-- A value that is kept has been read from the tokens of its tree. -/
theorem tokens_of_readTree {depth : Nat} {tree : Tree}
    (read : readTree (.kept depth) ending tokens = .ok (tree, rest)) :
    tokens = tree.draft.tokens rest := by
  obtain ⟨draft, _, _, isTokens, isTree, same⟩ := left_of_runReading read
  obtain ⟨rfl, rfl⟩ := Prod.mk.inj same
  rw [isTokens, Draft.tree?_kept_eq_some_iff.mp isTree]

/-- A value can be skipped exactly where the tokens begin with a draft. -/
theorem skipValue_eq_ok_iff : Record.skipValue ending tokens = .ok rest ↔
    ∃ draft : Draft, tokens = draft.tokens rest := by
  constructor
  · intro skipped
    rw [Record.skipValue] at skipped
    split at skipped
    · cases skipped
    · rename_i tree after read
      cases skipped
      obtain ⟨draft, _, _, isTokens, _, same⟩ := left_of_runReading read
      obtain ⟨rfl, rfl⟩ := Prod.mk.inj same
      exact ⟨draft, isTokens⟩
  · rintro ⟨draft, rfl⟩
    obtain ⟨tree, isTree⟩ := draft.exists_tree?_skipped
    rw [Record.skipValue, readTree, Reading.initial, run_tokens draft isTree rfl rfl]
    rfl

end Whole

end DualStore.Json
