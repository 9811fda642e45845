import DualStore.Proofs.Identity.Delivery
import DualStore.Proofs.Memory.Alike

/-!
Contract: identity events that are handled in different orders.

Owns:
- lists that differ by exchanges of neighbours with different keys, which are the lists with the
  same elements of each key in the same order; what steps that commute lead to over such lists;
- propagation, where events of different users commute whichever collections are down;
- index synchronisation, where they commute unless exactly one call to the index is still to fail;
- from this, which orders of a list of identity events lead to the same world.

Does not own: content events, which read back what others have written.
-/

namespace DualStore

open Memory Memory.World Memory.DocumentStore UserPropagation

/-! ## Exchanges of neighbours -/

/-- Two lists that differ by exchanges of neighbours with different keys. -/
inductive Exchanged {α κ : Type} (key : α → κ) : List α → List α → Prop where
  | nil : Exchanged key [] []
  | cons (head : α) {left right : List α} :
      Exchanged key left right → Exchanged key (head :: left) (head :: right)
  | swap (first second : α) (rest : List α) : key first ≠ key second →
      Exchanged key (first :: second :: rest) (second :: first :: rest)
  | trans {left middle right : List α} :
      Exchanged key left middle → Exchanged key middle right → Exchanged key left right

namespace Exchanged

section Lists

variable {α κ : Type} {key : α → κ} {left right : List α}

theorem refl (list : List α) : Exchanged key list list := by
  induction list with
  | nil => exact .nil
  | cons head list inductionHypothesis => exact .cons head inductionHypothesis

theorem perm (exchanged : Exchanged key left right) : left.Perm right := by
  induction exchanged with
  | nil => exact .nil
  | cons head _ inductionHypothesis => exact .cons head inductionHypothesis
  | swap first second rest _ => exact .swap second first rest
  | trans _ _ first second => exact first.trans second

/-- An element moves back over elements with other keys. -/
theorem movedBack {head : α} {before : List α} (others : ∀ other ∈ before, key other ≠ key head)
    (after : List α) : Exchanged key (head :: (before ++ after)) (before ++ head :: after) := by
  induction before with
  | nil => exact refl _
  | cons other before inductionHypothesis =>
      have distinct : key head ≠ key other := (others other List.mem_cons_self).symm
      refine .trans (.swap head other _ distinct) (.cons other (inductionHypothesis ?_))
      exact fun later member => others later (List.mem_cons_of_mem other member)

/-- Lists with the same elements of each key in the same order differ by exchanges. -/
theorem of_filter_eq [DecidableEq κ]
    (same : ∀ k, left.filter (key · = k) = right.filter (key · = k)) :
    Exchanged key left right := by
  induction left generalizing right with
  | nil =>
      cases right with
      | nil => exact .nil
      | cons head right => simpa using same (key head)
  | cons head left inductionHypothesis =>
      have ofHead := (same (key head)).symm
      rw [List.filter_cons_of_pos (by simp), List.filter_eq_cons_iff] at ofHead
      obtain ⟨before, after, rfl, others, -, -⟩ := ofHead
      have distinct : ∀ other ∈ before, key other ≠ key head := by simpa using others
      have remaining : ∀ k, left.filter (key · = k) = (before ++ after).filter (key · = k) := by
        intro k
        have both := same k
        rw [List.filter_append] at both ⊢
        by_cases found : key head = k
        · subst found
          rw [List.filter_cons_of_pos (by simp), List.filter_eq_nil_iff.mpr others,
            List.filter_cons_of_pos (by simp)] at both
          rw [List.filter_eq_nil_iff.mpr others]
          exact (List.cons_inj_right head).mp both
        · rw [List.filter_cons_of_neg (by simpa using found),
            List.filter_cons_of_neg (by simpa using found)] at both
          exact both
      exact .trans (.cons head (inductionHypothesis remaining)) (movedBack distinct after)

end Lists

section Fold

variable {α β κ : Type} {key : α → κ} {step : β → α → β} {related : β → β → Prop}

private theorem foldl_related (respects : ∀ x y a, related x y → related (step x a) (step y a))
    (list : List α) {x y : β} (start : related x y) :
    related (list.foldl step x) (list.foldl step y) := by
  induction list generalizing x y with
  | nil => exact start
  | cons a list inductionHypothesis => exact inductionHypothesis (respects x y a start)

/-- Steps that commute for different keys lead to the same over lists that differ by exchanges. -/
theorem foldl {left right : List α} (exchanged : Exchanged key left right)
    (equivalence : Equivalence related)
    (respects : ∀ x y a, related x y → related (step x a) (step y a))
    (commute : ∀ x a b, key a ≠ key b → related (step (step x a) b) (step (step x b) a)) (x : β) :
    related (left.foldl step x) (right.foldl step x) := by
  induction exchanged generalizing x with
  | nil => exact equivalence.refl x
  | cons head _ inductionHypothesis => exact inductionHypothesis (step x head)
  | swap first second rest distinct =>
      exact foldl_related respects rest (commute x first second distinct)
  | trans _ _ first second => exact equivalence.trans (first x) (second x)

end Fold

end Exchanged

/-! ## Propagation -/

namespace IdentityEvent

section Propagation

variable {context : Context} {collection : Collection} {event first second : IdentityEvent}

theorem alike_rewrite {d other : Document} (alike : d.Alike other) :
    (event.rewrite context collection d).Alike (event.rewrite context collection other) := by
  have sameTexts : textsAt event.places collection event.userId (event.update context) d =
      textsAt event.places collection event.userId (event.update context) other :=
    textsAt_congr mem_profileCopies_of_mem_places fun field _ => alike.names field event.userId
  rw [rewrite, rewrite, sameTexts]
  exact alike.setTexts _

theorem applied_congr {documents others : List Document}
    (alike : documents.map Document.get? = others.map Document.get?) :
    (event.applied context collection documents).map Document.get? =
      (event.applied context collection others).map Document.get? := by
  rw [← Document.forall₂_alike_iff] at alike ⊢
  refine List.rel_map (fun _ _ same => alike_rewrite same) (List.rel_filter ?_ alike)
  intro d other same
  have removed : event.removes collection d = event.removes collection other :=
    removes_congr fun field _ => same.names field event.userId
  dsimp only
  rw [removed]

/-- The texts that two events set in one document are texts of different fields when the events are
of different users: where the document names both, it does so at different places. -/
theorem disjoint_textsAt (distinct : first.userId ≠ second.userId) (d : Document) :
    ∀ key ∈ (textsAt first.places collection first.userId (first.update context) d).map (·.1),
      key ∉ (textsAt second.places collection second.userId (second.update context) d).map
        (·.1) := by
  intro key ofFirst ofSecond
  obtain ⟨text, written, rfl⟩ := List.mem_map.mp ofFirst
  obtain ⟨otherText, also, same⟩ := List.mem_map.mp ofSecond
  obtain ⟨place, listed, here, named, ofPlace⟩ := mem_textsAt.mp written
  obtain ⟨otherPlace, otherListed, there, otherNamed, ofOther⟩ := mem_textsAt.mp also
  have apart : otherPlace ≠ place := by
    rintro rfl
    exact distinct (Document.eq_of_names named otherNamed)
  have spares := spares_of_mem otherPlace (mem_profileCopies_of_mem_places otherPlace otherListed)
    place (mem_profileCopies_of_mem_places place listed) (there.trans here.symm) apart
  have field : text.1 ∈ [place.userField, place.nicknameField, place.avatarField] := by
    rcases mem_updates.mp ofPlace with ⟨nickname, _, rfl⟩ | ⟨avatar, _, rfl⟩
    · simp
    · simp
  have untouched := not_mem_keys_updates (second.update context) (spares _ field).1
    (spares _ field).2
  rw [← same] at untouched
  exact untouched (List.mem_map_of_mem ofOther)

theorem alike_rewrite_comm (distinct : first.userId ≠ second.userId) (d : Document) :
    (second.rewrite context collection (first.rewrite context collection d)).Alike
      (first.rewrite context collection (second.rewrite context collection d)) := by
  rw [rewrite_rewrite, rewrite_rewrite]
  exact Document.alike_setTexts_comm (disjoint_textsAt distinct d) d

theorem applied_comm (distinct : first.userId ≠ second.userId) (documents : List Document) :
    (second.applied context collection (first.applied context collection documents)).map
        Document.get? =
      (first.applied context collection (second.applied context collection documents)).map
        Document.get? := by
  rw [applied_applied, applied_applied, List.map_map, List.map_map]
  simp only [Bool.and_comm]
  exact List.map_congr_left fun d _ => alike_rewrite_comm distinct d

theorem propagate_congr {world other : World} (alike : world.Alike other) :
    (event.propagate context world).Alike (event.propagate context other) where
  store :=
    { documents := by
        intro collection
        rw [documents_propagate, documents_propagate, alike.store.isDown]
        split
        · exact alike.store.documents collection
        · exact applied_congr (alike.store.documents collection)
      auditLog := by rw [auditLog_propagate, auditLog_propagate, alike.store.auditLog]
      history := by rw [history_propagate, history_propagate, alike.store.history]
      isDown := by
        intro collection
        rw [isDown_propagate, isDown_propagate, alike.store.isDown] }
  index := by rw [index_propagate, index_propagate, alike.index]

/-- Events of different users are propagated in either order, whichever collections are down. -/
theorem propagate_comm (distinct : first.userId ≠ second.userId) (world : World) :
    (second.propagate context (first.propagate context world)).Alike
      (first.propagate context (second.propagate context world)) where
  store :=
    { documents := by
        intro collection
        rw [documents_propagate, documents_propagate, documents_propagate, documents_propagate,
          isDown_propagate, isDown_propagate]
        split
        · rfl
        · exact applied_comm distinct _
      auditLog := by simp only [auditLog_propagate]
      history := by simp only [history_propagate]
      isDown := by
        intro collection
        simp only [isDown_propagate] }
  index := by simp only [index_propagate]

end Propagation

/-! ## Index synchronisation -/

section Index

variable (context : Context)

/-- Whether an event supplies a field; one that supplies none makes no call to the index. -/
def supplies (event : IdentityEvent) : Bool := !(event.update context).isEmpty

/-- The index after an event has been handled for it. -/
def synchronise (event : IdentityEvent) (index : SearchIndex) : SearchIndex :=
  if event.supplies context then (index.updateAuthor event.userId (event.update context)).2
  else index

/-- The documents of the index with the fields of an event written over those of its user. -/
def indexed (event : IdentityEvent) (documents : List IndexDocument) : List IndexDocument :=
  documents.map (SearchIndex.overwritten event.userId (event.update context))

variable {context} {event first second : IdentityEvent} {index : SearchIndex}

theorem indexed_of_not_supplies (nothing : event.supplies context = false)
    (documents : List IndexDocument) : event.indexed context documents = documents := by
  have empty : event.update context = {} :=
    AuthorUpdate.eq_empty_of_isEmpty (by simpa [supplies] using nothing)
  have unchanged : SearchIndex.overwritten event.userId (event.update context) = fun d => d := by
    funext d
    rw [empty, SearchIndex.overwritten]
    exact ite_self d
  rw [indexed, unchanged, List.map_id']

theorem synchronise_of_not_supplies (nothing : event.supplies context = false) :
    event.synchronise context index = index := by
  rw [synchronise, nothing]
  rfl

/-- While no call is to fail, the fields of an event are written. -/
theorem synchronise_of_quiet (supplied : event.supplies context = true)
    (quiet : index.failures = 0) :
    event.synchronise context index =
      { index with
        documents := event.indexed context index.documents
        calls := index.calls + 1 } := by
  rw [synchronise, if_pos supplied, SearchIndex.updateAuthor, SearchIndex.entered_up _ quiet]
  rfl

theorem synchronise_of_failing (supplied : event.supplies context = true) {failures : Nat}
    (failing : index.failures = failures + 1) :
    event.synchronise context index = { index with failures, calls := index.calls + 1 } := by
  rw [synchronise, if_pos supplied, SearchIndex.updateAuthor, SearchIndex.entered_failing _ failing]
  rfl

theorem indexed_comm (distinct : first.userId ≠ second.userId) (documents : List IndexDocument) :
    second.indexed context (first.indexed context documents) =
      first.indexed context (second.indexed context documents) := by
  unfold indexed
  rw [List.map_map, List.map_map]
  refine List.map_congr_left fun d _ => ?_
  by_cases concerned : d.userId = first.userId
  · have other : d.userId ≠ second.userId := concerned ▸ distinct
    rw [Function.comp_apply, Function.comp_apply, SearchIndex.overwritten_of_ne other]
    exact SearchIndex.overwritten_of_ne (by simpa using other) _
  · rw [Function.comp_apply, Function.comp_apply, SearchIndex.overwritten_of_ne concerned]
    exact (SearchIndex.overwritten_of_ne (by simpa using concerned) _).symm

/-- Events of different users leave the same index only when neither of them changes it. -/
theorem indexed_eq_iff (distinct : first.userId ≠ second.userId) (documents : List IndexDocument) :
    second.indexed context documents = first.indexed context documents ↔
      first.indexed context documents = documents ∧
        second.indexed context documents = documents := by
  constructor
  · intro same
    have unchanged : first.indexed context documents = documents := by
      conv_rhs => rw [← List.map_id' documents]
      refine List.map_congr_left fun d member => ?_
      by_cases concerned : d.userId = first.userId
      · have other : d.userId ≠ second.userId := concerned ▸ distinct
        rw [← List.map_inj_left.mp same d member]
        exact SearchIndex.overwritten_of_ne other _
      · exact SearchIndex.overwritten_of_ne concerned _
    exact ⟨unchanged, same.trans unchanged⟩
  · rintro ⟨ofFirst, ofSecond⟩
    rw [ofFirst, ofSecond]

/-- Handled one after the other for the index, two events of different users commute, except when
the first call is to fail and the second is not: then only one of them is written. -/
theorem synchronise_comm_iff (distinct : first.userId ≠ second.userId) :
    second.synchronise context (first.synchronise context index) =
        first.synchronise context (second.synchronise context index) ↔
      index.failures ≠ 1 ∨ first.supplies context = false ∨ second.supplies context = false ∨
        (first.indexed context index.documents = index.documents ∧
          second.indexed context index.documents = index.documents) := by
  cases ofFirst : first.supplies context with
  | false => simp [synchronise_of_not_supplies ofFirst]
  | true =>
      cases ofSecond : second.supplies context with
      | false => simp [synchronise_of_not_supplies ofSecond]
      | true =>
          obtain ⟨documents, failures, calls⟩ := index
          match failures with
          | 0 =>
              have same : second.indexed context (first.indexed context documents) = _ :=
                indexed_comm distinct documents
              simp [synchronise_of_quiet ofFirst, synchronise_of_quiet ofSecond, same]
          | 1 =>
              have only : second.indexed context documents = first.indexed context documents ↔ _ :=
                indexed_eq_iff distinct documents
              simp [synchronise_of_failing ofFirst, synchronise_of_failing ofSecond,
                synchronise_of_quiet ofFirst, synchronise_of_quiet ofSecond, only]
          | failures + 2 =>
              simp [synchronise_of_failing ofFirst, synchronise_of_failing ofSecond]

/-- The index after events have been handled for it, one after the other. -/
def synchroniseAll (context : Context) (events : List IdentityEvent) (index : SearchIndex) :
    SearchIndex :=
  events.foldl (fun index event => event.synchronise context index) index

/-- While no call is to fail, all events are written. -/
theorem synchroniseAll_of_quiet (events : List IdentityEvent) (quiet : index.failures = 0) :
    synchroniseAll context events index =
      { index with
        documents :=
          events.foldl (fun documents event => event.indexed context documents) index.documents
        calls := index.calls + events.countP (supplies context) } := by
  induction events generalizing index with
  | nil => rfl
  | cons event events inductionHypothesis =>
      change synchroniseAll context events (event.synchronise context index) = _
      cases supplied : event.supplies context with
      | false =>
          rw [synchronise_of_not_supplies supplied, inductionHypothesis quiet, List.foldl_cons,
            indexed_of_not_supplies supplied, List.countP_cons_of_neg (by simp [supplied])]
      | true =>
          have stillQuiet : (event.synchronise context index).failures = 0 := by
            rw [synchronise_of_quiet supplied quiet]
            exact quiet
          rw [inductionHypothesis stillQuiet, synchronise_of_quiet supplied quiet, List.foldl_cons,
            List.countP_cons_of_pos supplied]
          dsimp only
          rw [Nat.add_assoc, Nat.add_comm 1]

/-- While enough calls are to fail, no event is written. -/
theorem synchroniseAll_of_failing (events : List IdentityEvent)
    (enough : events.countP (supplies context) ≤ index.failures) :
    synchroniseAll context events index =
      { index with
        failures := index.failures - events.countP (supplies context)
        calls := index.calls + events.countP (supplies context) } := by
  induction events generalizing index with
  | nil => rfl
  | cons event events inductionHypothesis =>
      change synchroniseAll context events (event.synchronise context index) = _
      cases supplied : event.supplies context with
      | false =>
          rw [List.countP_cons_of_neg (by simp [supplied])] at enough ⊢
          rw [synchronise_of_not_supplies supplied, inductionHypothesis enough]
      | true =>
          rw [List.countP_cons_of_pos supplied] at enough ⊢
          obtain ⟨failures, failing⟩ := Nat.exists_eq_add_one_of_ne_zero
            (Nat.ne_of_gt (Nat.lt_of_lt_of_le (Nat.succ_pos _) enough))
          rw [synchronise_of_failing supplied failing, inductionHypothesis (by dsimp only; omega)]
          dsimp only
          rw [failing, Nat.add_sub_add_right, Nat.add_assoc, Nat.add_comm 1]

theorem synchroniseAll_eq_of_exchanged {left right : List IdentityEvent}
    (exchanged : Exchanged userId left right)
    (settled : index.failures = 0 ∨ left.countP (supplies context) ≤ index.failures) :
    synchroniseAll context left index = synchroniseAll context right index := by
  have sameCount : left.countP (supplies context) = right.countP (supplies context) :=
    exchanged.perm.countP_eq _
  rcases settled with quiet | enough
  · have sameDocuments := exchanged.foldl eq_equivalence
      (fun _ _ event same => congrArg (event.indexed context) same)
      (fun documents _ _ distinct => indexed_comm distinct documents) index.documents
    rw [synchroniseAll_of_quiet left quiet, synchroniseAll_of_quiet right quiet, sameCount,
      sameDocuments]
  · rw [synchroniseAll_of_failing left enough, synchroniseAll_of_failing right (sameCount ▸ enough),
      sameCount]

end Index

/-! ## Lists of events -/

/-- The world after events have been handled on a route, one after the other. -/
def handleAll (route : Route) (context : Context) (events : List IdentityEvent) (world : World) :
    World :=
  events.foldl (fun world event => ((route.handler context services).handle event.toEvent world).2)
    world

/-- Two lists hold the same events of each user, in the same order. -/
def SameOrders (left right : List IdentityEvent) : Prop :=
  ∀ user, left.filter (·.userId = user) = right.filter (·.userId = user)

section Lists

variable (context : Context) (events : List IdentityEvent) (world : World)

theorem handleAll_userPropagation :
    handleAll .userPropagation context events world =
      events.foldl (fun world event => event.propagate context world) world := by
  have handled : ∀ (event : IdentityEvent) (world : World),
      ((Route.userPropagation.handler context services).handle event.toEvent world).2 =
        event.propagate context world := by
    intro event world
    change ((UserPropagation.script context event.toEvent).run services world).2 = _
    rw [UserPropagation.run_script, callsOf_toEvent]
    rfl
  simp only [handleAll, handled]

theorem handleAll_indexSync :
    handleAll .indexSync context events world =
      { world with index := synchroniseAll context events world.index } := by
  have handled : ∀ (event : IdentityEvent) (world : World),
      ((Route.indexSync.handler context services).handle event.toEvent world).2 =
        { world with index := event.synchronise context world.index } := by
    intro event world
    change ((IndexSync.script context event.toEvent).run services world).2 = _
    rw [indexSync_script_toEvent, IndexSync.overwriteAuthor, synchronise, supplies]
    cases (event.update context).isEmpty with
    | true => rfl
    | false =>
        exact (Script.run_call_done services (.updateAuthor event.userId (event.update context))
          world).1
  induction events generalizing world with
  | nil => rfl
  | cons event events inductionHypothesis =>
      change handleAll .indexSync context events
        ((Route.indexSync.handler context services).handle event.toEvent world).2 = _
      rw [handled, inductionHypothesis]
      rfl

theorem sameOrders_swap {first second : IdentityEvent} (distinct : first.userId ≠ second.userId) :
    SameOrders [first, second] [second, first] := by
  intro user
  by_cases ofFirst : first.userId = user
  · have other : second.userId ≠ user := fun equal => distinct (ofFirst.trans equal.symm)
    simp [ofFirst, other]
  · simp [List.filter_cons, ofFirst]

variable {context} {world}

theorem alike_propagated {left right : List IdentityEvent} (same : SameOrders left right) :
    (handleAll .userPropagation context left world).Alike
      (handleAll .userPropagation context right world) := by
  rw [handleAll_userPropagation, handleAll_userPropagation]
  refine (Exchanged.of_filter_eq same).foldl alike_equivalence ?_ ?_ world
  · exact fun _ _ _ alike => propagate_congr alike
  · exact fun world _ _ distinct => propagate_comm distinct world

theorem alike_synchronised_iff {left right : List IdentityEvent} :
    (handleAll .indexSync context left world).Alike (handleAll .indexSync context right world) ↔
      synchroniseAll context left world.index = synchroniseAll context right world.index := by
  rw [handleAll_indexSync, handleAll_indexSync]
  exact ⟨fun alike => alike.index, fun same => ⟨.refl _, same⟩⟩

/-- Identity events are handled in any order that keeps the events of each user in theirs. For
propagation the order does not matter, whichever collections are down. For the index it does not
matter while no call to it is to fail, or while enough calls are to fail for all events. Two events
of different users can be exchanged for the index, except when exactly one call is to fail, both
supply a field and one of them changes the index. -/
theorem alike_of_sameOrders (context : Context) (world : World) {left right : List IdentityEvent}
    (same : SameOrders left right) :
    let propagated := fun events => handleAll .userPropagation context events world
    let synchronised := fun events => handleAll .indexSync context events world
    (propagated left).Alike (propagated right) ∧
      (world.index.failures = 0 ∨ left.countP (supplies context) ≤ world.index.failures →
        (synchronised left).Alike (synchronised right)) ∧
      ∀ first second : IdentityEvent, first.userId ≠ second.userId →
        (propagated [first, second]).Alike (propagated [second, first]) ∧
          ((synchronised [first, second]).Alike (synchronised [second, first]) ↔
            world.index.failures ≠ 1 ∨ first.supplies context = false ∨
              second.supplies context = false ∨
              (first.indexed context world.index.documents = world.index.documents ∧
                second.indexed context world.index.documents = world.index.documents)) := by
  intro propagated synchronised
  refine ⟨alike_propagated same, fun settled => ?_, fun first second distinct => ⟨?_, ?_⟩⟩
  · exact alike_synchronised_iff.mpr
      (synchroniseAll_eq_of_exchanged (Exchanged.of_filter_eq same) settled)
  · exact alike_propagated (sameOrders_swap distinct)
  · exact alike_synchronised_iff.trans (synchronise_comm_iff distinct)

end Lists

/-- A deletion and a change of profile whose users follow each other and answer each other's
comments, in a world with a collection that is down. -/
theorem alike_acquainted :
    let left : List IdentityEvent :=
      [deleted ⟨7⟩, updated { userId := 8, newDisplayName := some "Bea" }]
    let right : List IdentityEvent :=
      [updated { userId := 8, newDisplayName := some "Bea" }, deleted ⟨7⟩]
    SameOrders left right ∧ acquainted.index.failures = 0 ∧
      (handleAll .userPropagation .plain left acquainted).Alike
        (handleAll .userPropagation .plain right acquainted) ∧
      (handleAll .indexSync .plain left acquainted).Alike
        (handleAll .indexSync .plain right acquainted) := by
  intro left right
  have same : SameOrders left right := sameOrders_swap (by decide)
  obtain ⟨propagated, synchronised, _⟩ := alike_of_sameOrders .plain acquainted same
  exact ⟨same, rfl, propagated, synchronised (Or.inl rfl)⟩

/-- Two indexed documents of different users, and one call to the index that is still to fail. -/
def unsettled : World :=
  { index :=
      { documents :=
          [{ id := "p", userId := 1, userNickname := "Ann" },
           { id := "q", userId := 2, userNickname := "Ben" }]
        failures := 1 } }

/-- The event that is handled first fails, and only the other one is written: the index shows
which of two events came first. -/
theorem not_alike_of_one_failure :
    let first : IdentityEvent := updated { userId := 1, newDisplayName := some "Eve" }
    let second : IdentityEvent := updated { userId := 2, newDisplayName := some "Fay" }
    first.userId ≠ second.userId ∧ SameOrders [first, second] [second, first] ∧
      ¬(handleAll .indexSync .plain [first, second] unsettled).Alike
        (handleAll .indexSync .plain [second, first] unsettled) := by
  intro first second
  have distinct : first.userId ≠ second.userId := by decide
  refine ⟨distinct, sameOrders_swap distinct, fun alike => ?_⟩
  have sameDocuments := congrArg SearchIndex.documents alike.index
  exact absurd sameDocuments (by decide +kernel)

end IdentityEvent

end DualStore
