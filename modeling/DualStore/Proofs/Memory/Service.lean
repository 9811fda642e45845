import DualStore.Memory.World
import DualStore.Proofs.Memory.Index
import DualStore.Proofs.Memory.Posts
import DualStore.Proofs.Sync.Script

/-!
Contract: the answers of the two stores in memory to calls, with and without faults in the way.

Owns:
- which half of the world a call can change, and what a call to the index does to its documents;
- worlds in which nothing fails, and the exact answers there;
- faults in the way of a call: the call is put to the stores, or the stores are left as they are.

Does not own: the order in which calls are made.
-/

namespace DualStore

namespace Memory.World

open SearchIndex DocumentStore

/-- The stores in memory never panic. -/
theorem answer_eq_replied (command : Call) (world : World) :
    ∃ result, answer command world = (.replied result, (answer command world).2) := by
  cases command <;> exact ⟨_, rfl⟩

section Halves

variable {world : World}

/-- A call to the index leaves the document store alone, and so does a lookup. -/
theorem store_answer_of_synchronises {command : Call} (synchronises : command.Synchronises) :
    (answer command world).2.store = world.store := by
  rcases synchronises with toIndex | ⟨id, rfl⟩
  · cases command with
    | upsertDocument document => rfl
    | deleteDocument id => rfl
    | updateAuthor userId update => rfl
    | _ => cases toIndex
  · rfl

/-- A call to the document store leaves the index alone. -/
theorem index_answer_of_isIndexCall_eq_false {command : Call}
    (toStore : command.isIndexCall = false) : (answer command world).2.index = world.index := by
  cases command with
  | upsertDocument document => cases toStore
  | deleteDocument id => cases toStore
  | updateAuthor userId update => cases toStore
  | _ => rfl

/-- A lookup that is answered with a reply replies with the record of the id. -/
theorem reply_findContent {id : String} {reply : Option ContentRecord} {after : World}
    (answered : answer (.findContent id) world = (.replied (.ok reply), after)) :
    reply = world.store.content? id := by
  have replied := congrArg Prod.fst answered
  change Answer.replied ((world.store.findContent id).mapError SyncError.store) =
    .replied (.ok reply) at replied
  rw [findContent_eq] at replied
  split at replied
  · cases replied
  · cases replied
    rfl

/-- What a call to the index does to the documents when it is answered with a reply. -/
def carriedOut : Call → SearchIndex → SearchIndex
  | .upsertDocument document, index => index.put document
  | .deleteDocument id, index => index.erase id
  | .updateAuthor userId update, index => index.overwriteAuthor userId update
  | _, index => index

/-- A call that is carried out again changes no document. -/
theorem documents_carriedOut_again (command : Call) (index : SearchIndex) :
    (carriedOut command (carriedOut command index).counted).documents =
      (carriedOut command index).documents := by
  cases command with
  | upsertDocument document => exact putIn_putIn document index.documents
  | deleteDocument id =>
      change (index.documents.filter _).filter _ = index.documents.filter _
      rw [List.filter_filter]
      simp only [Bool.and_self]
  | updateAuthor userId update =>
      change (index.documents.map (overwritten userId update)).map (overwritten userId update) =
        index.documents.map (overwritten userId update)
      rw [List.map_map]
      exact List.map_congr_left fun d _ => overwritten_overwritten userId update d
  | _ => rfl

/-- A call to the index fails and leaves its documents alone, or is answered with a reply and
carried out. -/
theorem index_answer_cases (world : World) {command : Call}
    (toIndex : command.isIndexCall = true) :
    ((∃ error, (answer command world).1 = .replied (.error error)) ∧
      (answer command world).2.index.documents = world.index.documents) ∨
    ((∃ reply, (answer command world).1 = .replied (.ok reply)) ∧
      (answer command world).2.index = carriedOut command world.index.counted) := by
  have entered : ∀ {α : Type} (operate : SearchIndex → α × SearchIndex),
      ((∃ error, (world.indexAnswer (world.index.entered operate)).1 = .replied (.error error)) ∧
        (world.indexAnswer (world.index.entered operate)).2.index.documents =
          world.index.documents) ∨
      ((∃ reply, (world.indexAnswer (world.index.entered operate)).1 = .replied (.ok reply)) ∧
        (world.indexAnswer (world.index.entered operate)).2.index =
          (operate world.index.counted).2) := by
    intro α operate
    rcases entered_cases operate world.index with ⟨error, failed, kept⟩ | carried
    · left
      refine ⟨⟨.index error, ?_⟩, kept⟩
      unfold indexAnswer
      rw [failed]
      rfl
    · right
      unfold indexAnswer
      rw [carried]
      exact ⟨⟨_, rfl⟩, rfl⟩
  cases command with
  | upsertDocument document => exact entered fun index => ((), index.put document)
  | deleteDocument id =>
      exact entered fun index =>
        (if (index.get? id).isSome then Removal.removed else .notFound, index.erase id)
  | updateAuthor userId update =>
      exact entered fun index => ((index.documents.filter fun d => d.userId = userId).length,
        index.overwriteAuthor userId update)
  | _ => cases toIndex

end Halves

/-! ### Worlds in which nothing fails -/

/-- No collection is down, and no call to the index is to fail. -/
structure IsUp (world : World) : Prop where
  collections : ∀ collection, world.store.isDown collection = false
  index : world.index.failures = 0

section Up

variable {world : World}

theorem IsUp.answer_findContent (up : world.IsUp) (id : String) :
    answer (.findContent id) world = (.replied (.ok (world.store.content? id)), world) := by
  change world.storeAnswer (world.store.findContent id, world.store) = _
  rw [findContent_eq, if_neg (by rw [up.collections .posts]; decide)]
  rfl

/-- An operation of the document store that succeeds and makes no collection fail. -/
private theorem storeAnswer_up {α : Type} {result : Except StoreError α × DocumentStore}
    (up : world.IsUp) (succeeds : ∃ reply, result.1 = .ok reply)
    (isDown : ∀ collection, result.2.isDown collection = world.store.isDown collection) :
    (∃ reply, (world.storeAnswer result).1 = .replied (.ok reply)) ∧
      (world.storeAnswer result).2.IsUp := by
  obtain ⟨reply, succeeded⟩ := succeeds
  refine ⟨⟨reply, ?_⟩, fun collection => (isDown collection).trans (up.collections collection),
    up.index⟩
  unfold storeAnswer
  rw [succeeded]
  rfl

/-- While no call to the index is to fail, a call to it is carried out. -/
theorem answer_index_of_quiet (quiet : world.index.failures = 0) {command : Call}
    (toIndex : command.isIndexCall = true) :
    (∃ reply, (answer command world).1 = .replied (.ok reply)) ∧
      (answer command world).2.index = carriedOut command world.index.counted := by
  have allowed : ∀ {α : Type} (operate : SearchIndex → α × SearchIndex),
      (∃ reply, (world.indexAnswer (world.index.entered operate)).1 = .replied (.ok reply)) ∧
        (world.indexAnswer (world.index.entered operate)).2.index =
          (operate world.index.counted).2 := by
    intro α operate
    unfold indexAnswer
    rw [entered_up operate quiet]
    exact ⟨⟨_, rfl⟩, rfl⟩
  cases command with
  | upsertDocument document => exact allowed fun index => ((), index.put document)
  | deleteDocument id =>
      exact allowed fun index =>
        (if (index.get? id).isSome then Removal.removed else .notFound, index.erase id)
  | updateAuthor userId update =>
      exact allowed fun index => ((index.documents.filter fun d => d.userId = userId).length,
        index.overwriteAuthor userId update)
  | _ => cases toIndex

theorem get?_answer_of_quiet (quiet : world.index.failures = 0) {command : Call}
    (toIndex : command.isIndexCall = true) (id : String) :
    (answer command world).2.index.get? id = (carriedOut command world.index).get? id := by
  rw [(answer_index_of_quiet quiet toIndex).2]
  cases command <;> rfl

/-- No call makes a later call to the index fail. -/
theorem failures_answer_of_quiet (quiet : world.index.failures = 0) (command : Call) :
    (answer command world).2.index.failures = 0 := by
  cases toIndex : command.isIndexCall with
  | false =>
      rw [index_answer_of_isIndexCall_eq_false toIndex]
      exact quiet
  | true =>
      rw [(answer_index_of_quiet quiet toIndex).2]
      cases command <;> exact quiet

theorem IsUp.answer_index (up : world.IsUp) {command : Call} (toIndex : command.isIndexCall = true) :
    (∃ reply, (answer command world).1 = .replied (.ok reply)) ∧
      (answer command world).2.index = carriedOut command world.index.counted :=
  answer_index_of_quiet up.index toIndex

/-- While nothing fails every call is answered with a reply, and nothing fails after it. -/
theorem IsUp.answered (up : world.IsUp) (command : Call) :
    (∃ reply, (answer command world).1 = .replied (.ok reply)) ∧
      (answer command world).2.IsUp := by
  have onIndex : command.isIndexCall = true →
      (∃ reply, (answer command world).1 = .replied (.ok reply)) ∧
        (answer command world).2.IsUp := by
    intro toIndex
    have sameStore : (answer command world).2.store = world.store :=
      store_answer_of_synchronises (Or.inl toIndex)
    refine ⟨(up.answer_index toIndex).1, fun collection => ?_,
      failures_answer_of_quiet up.index command⟩
    rw [sameStore]
    exact up.collections collection
  cases command with
  | findContent id =>
      rw [up.answer_findContent id]
      exact ⟨⟨_, rfl⟩, up⟩
  | updateByUser collection field userId updates =>
      exact storeAnswer_up up (updateByUser_succeeds (up.collections collection))
        isDown_updateByUser
  | deleteByUser collection field userId =>
      exact storeAnswer_up up (deleteByUser_succeeds (up.collections collection))
        isDown_deleteByUser
  | insertAuditLog entry moment =>
      exact storeAnswer_up up (insertAuditLog_succeeds (up.collections .apiLogs))
        isDown_insertAuditLog
  | upsertSearchHistory userId keyword moment =>
      exact storeAnswer_up up (upsertSearchHistory_succeeds (up.collections .searchHistories))
        isDown_upsertSearchHistory
  | _ => exact onIndex rfl

theorem IsUp.answer_eq (up : world.IsUp) (command : Call) :
    ∃ reply, services.answer command world =
      (.replied (.ok reply), (answer command world).2) := by
  obtain ⟨⟨reply, replied⟩, _⟩ := up.answered command
  exact ⟨reply, Prod.ext replied rfl⟩

theorem IsUp.run_call (up : world.IsUp) (command : Call) :
    (Script.call command fun _ => .done).run services world =
      (.finished (.ok ()), (answer command world).2) := by
  obtain ⟨reply, answered⟩ := up.answer_eq command
  rw [Script.call, Script.run, answered]
  rfl

theorem IsUp.get?_answer (up : world.IsUp) (command : Call) (id : String) :
    (answer command world).2.index.get? id = (carriedOut command world.index).get? id := by
  cases toIndex : command.isIndexCall with
  | false =>
      rw [index_answer_of_isIndexCall_eq_false toIndex]
      cases command with
      | upsertDocument document => cases toIndex
      | deleteDocument id => cases toIndex
      | updateAuthor userId update => cases toIndex
      | _ => rfl
  | true => exact get?_answer_of_quiet up.index toIndex id

end Up

end Memory.World

/-! ## Faults in the way of calls -/

section Scheduled

variable {σ : Type} (services : Services σ)

/-- A fault leaves the services alone and the call without a reply; a call that passes is put to
the services. -/
theorem scheduled_answer_cases (command : Call) (state : Scheduled σ) :
    ((services.scheduled.answer command state).2.inner = state.inner ∧
      ∀ reply, (services.scheduled.answer command state).1 ≠ .replied (.ok reply)) ∨
    ∃ rest, services.scheduled.answer command state =
      ((services.answer command state.inner).1,
        ⟨rest, (services.answer command state.inner).2⟩) := by
  obtain ⟨schedule, inner⟩ := state
  cases schedule with
  | nil => exact Or.inr ⟨[], rfl⟩
  | cons fault rest =>
      cases fault with
      | pass => exact Or.inr ⟨rest, rfl⟩
      | fail error => exact Or.inl ⟨rfl, fun reply equal => by cases equal⟩
      | panic message => exact Or.inl ⟨rfl, fun reply equal => by cases equal⟩

theorem answer_of_scheduled {services : Services σ} {command : Call}
    {state after : Scheduled σ} {reply : command.Reply}
    (replied : services.scheduled.answer command state = (.replied (.ok reply), after)) :
    services.answer command state.inner = (.replied (.ok reply), after.inner) := by
  rcases scheduled_answer_cases services command state with
    ⟨_, noReply⟩ | ⟨rest, passed⟩
  · exact absurd (congrArg Prod.fst replied) (noReply reply)
  · rw [passed] at replied
    obtain ⟨sameAnswer, rfl⟩ := Prod.mk.inj replied
    exact Prod.ext sameAnswer rfl

/-- With faults in the way, a run still keeps what the services keep without them. -/
theorem run_scheduled_keeps {property : Call → Prop} (invariant : σ → Prop)
    (answered : ∀ call state, property call → invariant state →
      invariant (services.answer call state).2)
    (ticked : ∀ state, invariant state → invariant (services.clock state).2)
    {script : Script} (calls : script.Calls property) {state : Scheduled σ}
    (holds : invariant state.inner) :
    invariant (script.run services.scheduled state).2.inner := by
  refine Script.run_keeps services.scheduled (fun state => invariant state.inner)
    (fun command state allowed holds => ?_) (fun state holds => ticked state.inner holds) calls
    holds
  rcases scheduled_answer_cases services command state with
    ⟨kept, _⟩ | ⟨rest, passed⟩
  · rw [kept]
    exact holds
  · rw [passed]
    exact answered command state.inner allowed holds

theorem run_scheduled_nil (script : Script) (state : σ) :
    script.run services.scheduled ⟨[], state⟩ =
      ((script.run services state).1, ⟨[], (script.run services state).2⟩) := by
  induction script generalizing state with
  | finish result => rfl
  | readClock resume inductionHypothesis => exact inductionHypothesis _ _
  | perform command resume inductionHypothesis =>
      have passed : services.scheduled.answer command ⟨[], state⟩ =
          ((services.answer command state).1, ⟨[], (services.answer command state).2⟩) := rfl
      rw [Script.run, passed, Script.run]
      rcases services.answer command state with ⟨answer, after⟩
      cases answer with
      | replied result => exact inductionHypothesis result after
      | panicked message => rfl

/-- Services that answer a call alike still do so with the same faults in the way. -/
theorem scheduled_answer_congr {services other : Services σ} {command : Call} {state : Scheduled σ}
    (same : services.answer command state.inner = other.answer command state.inner) :
    services.scheduled.answer command state = other.scheduled.answer command state := by
  obtain ⟨answer, clock⟩ := services
  obtain ⟨otherAnswer, otherClock⟩ := other
  dsimp only [Services.scheduled] at same ⊢
  rw [same]

/-- Reading a record back where lookups change nothing: the lookup fails and nothing changes, or
what is done is done about the record that lookups reply with. -/
theorem run_scheduled_reconcileWith {services : Services σ} {read : String}
    {state : Scheduled σ} (found : Option ContentRecord)
    (kept : (services.answer (.findContent read) state.inner).2 = state.inner)
    (replied : ∀ reply after,
      services.answer (.findContent read) state.inner = (.replied (.ok reply), after) →
        reply = found)
    (project : ContentRecord → IndexDocument) :
    let ran := (IndexSync.reconcileWith read project).run services.scheduled state
    (ran.1 ≠ .finished (.ok ()) ∧ ran.2.inner = state.inner) ∨
      ∃ after, after.inner = state.inner ∧
        ran = (IndexSync.onRecord read project found).run services.scheduled after := by
  rw [IndexSync.reconcileWith_eq]
  intro ran
  have unchanged : (services.scheduled.answer (.findContent read) state).2.inner = state.inner := by
    rcases scheduled_answer_cases services (.findContent read) state with
      ⟨same, _⟩ | ⟨rest, passed⟩
    · exact same
    · rw [passed]
      exact kept
  rcases Script.run_call_cases services.scheduled (.findContent read)
      (IndexSync.onRecord read project) state with ⟨reply, after, answered, goesOn⟩ | ⟨failed, ended⟩
  · rw [answered] at unchanged
    refine Or.inr ⟨after, unchanged, ?_⟩
    rw [← replied reply after.inner (answer_of_scheduled answered)]
    exact goesOn
  · exact Or.inl ⟨failed, (congrArg Scheduled.inner ended).trans unchanged⟩

end Scheduled

/-! ## Scripts of one call -/

namespace Memory.World

open SearchIndex

/-- A script of one call to the index leaves the document store alone. Either it does not succeed
and every id holds what it held, or the call is carried out. -/
theorem run_indexCall (command : Call) (toIndex : command.isIndexCall = true)
    (state : Scheduled World) :
    let ran := (Script.call command fun _ => .done).run services.scheduled state
    ran.2.inner.store = state.inner.store ∧
      ((ran.1 ≠ .finished (.ok ()) ∧
          ∀ id, ran.2.inner.index.get? id = state.inner.index.get? id) ∨
        ∀ id, ran.2.inner.index.get? id = (carriedOut command state.inner.index).get? id) := by
  intro ran
  obtain ⟨ended, succeeds⟩ :=
    Script.run_call_done services.scheduled command state
  have afterCall : ran.2 = (services.scheduled.answer command state).2 := ended
  have replied : ran.1 = .finished (.ok ()) → ∃ reply after,
      services.scheduled.answer command state = (.replied (.ok reply), after) := succeeds
  rcases scheduled_answer_cases services command state with
    ⟨kept, noReply⟩ | ⟨rest, passed⟩
  · rw [afterCall, kept]
    refine ⟨rfl, Or.inl ⟨fun succeeded => ?_, fun id => rfl⟩⟩
    obtain ⟨reply, after, answered⟩ := replied succeeded
    exact noReply reply (congrArg Prod.fst answered)
  · rw [afterCall, passed]
    refine ⟨store_answer_of_synchronises (Or.inl toIndex), ?_⟩
    rcases index_answer_cases state.inner toIndex with
      ⟨⟨error, failed⟩, kept⟩ | ⟨_, carried⟩
    · refine Or.inl ⟨fun succeeded => ?_, fun id => get?_congr kept id⟩
      obtain ⟨reply, after, answered⟩ := replied succeeded
      have direct := congrArg Prod.fst (answer_of_scheduled answered)
      change (answer command state.inner).1 = .replied (.ok reply) at direct
      rw [failed] at direct
      cases direct
    · right
      intro id
      have sameDocuments : (carriedOut command state.inner.index.counted).get? id =
          (carriedOut command state.inner.index).get? id := by
        cases command <;> rfl
      rw [← sameDocuments, ← carried]
      rfl

/-- Reading a record back and acting on it: the lookup fails and nothing changes, or what is done
is done about the record as it is. -/
theorem run_reconcileWith (read : String) (project : ContentRecord → IndexDocument)
    (state : Scheduled World) :
    let ran := (IndexSync.reconcileWith read project).run services.scheduled state
    (ran.1 ≠ .finished (.ok ()) ∧ ran.2.inner = state.inner) ∨
      ∃ after, after.inner = state.inner ∧
        ran = (IndexSync.onRecord read project (state.inner.store.content? read)).run
          services.scheduled after :=
  run_scheduled_reconcileWith (state.inner.store.content? read) rfl (fun _ _ => reply_findContent)
    project

end Memory.World

end DualStore
