import DualStore.Proofs.Identity.LastWritten
import DualStore.Proofs.Memory.Service

/-!
Contract: the runs of propagation.

Owns:
- what a call does to the documents of a collection, and what propagation leaves alone: everything
  but the documents, and in these the fields by which users are looked for;
- the calls that propagation makes about an event, all of them whatever fails;
- the copies that such calls write over while nothing fails: in the documents of a place, the
  copies of the user and no others, in place;
- the data that they remove, and the fact that no later call names the user there again.

Does not own: the order of events.
-/

namespace DualStore

open Memory Memory.World Memory.DocumentStore

/-! ## Calls put to the stores -/

namespace Memory.World

variable {world : World}

def answerAll (world : World) (calls : List Call) : World :=
  calls.foldl (fun world call => (answer call world).2) world

theorem answerAll_cons (call : Call) (calls : List Call) :
    world.answerAll (call :: calls) = (answer call world).2.answerAll calls := rfl

theorem answerAll_append (first later : List Call) :
    world.answerAll (first ++ later) = (world.answerAll first).answerAll later :=
  List.foldl_append

theorem IsUp.answerAll (up : world.IsUp) (calls : List Call) : (world.answerAll calls).IsUp := by
  induction calls generalizing world with
  | nil => exact up
  | cons call calls inductionHypothesis => exact inductionHypothesis (up.answered call).2

theorem answerAll_keeps (invariant : World → Prop) {calls : List Call}
    (kept : ∀ call ∈ calls, ∀ world, invariant world → invariant (answer call world).2)
    (holds : invariant world) : invariant (world.answerAll calls) := by
  induction calls generalizing world with
  | nil => exact holds
  | cons call calls inductionHypothesis =>
      exact inductionHypothesis (fun later member => kept later (by simp [member]))
        (kept call (by simp) world holds)

end Memory.World

/-! ## Calls and the documents of one collection -/

/-- What a call does to the documents of a collection that is not down. -/
def Call.onDocuments (collection : Collection) : Call → List Document → List Document
  | .updateByUser written field userId updates, documents =>
      if collection = written then documents.map (updated field userId updates) else documents
  | .deleteByUser written field userId, documents =>
      if collection = written then documents.filter fun d => !d.names field userId else documents
  | _, documents => documents

namespace Memory.World

variable {world : World} {collection : Collection}

theorem documents_answer (call : Call) :
    (answer call world).2.store.documents collection =
      if world.store.isDown collection = true then world.store.documents collection
      else call.onDocuments collection (world.store.documents collection) := by
  cases call with
  | updateByUser written field userId updates =>
      change (world.store.updateByUser written field userId updates).2.documents collection = _
      rw [documents_updateByUser, Call.onDocuments]
      by_cases same : collection = written
      · subst same
        cases world.store.isDown collection <;> simp
      · simp [same]
  | deleteByUser written field userId =>
      change (world.store.deleteByUser written field userId).2.documents collection = _
      rw [documents_deleteByUser, Call.onDocuments]
      by_cases same : collection = written
      · subst same
        cases world.store.isDown collection <;> simp
      · simp [same]
  | insertAuditLog entry moment =>
      have unchanged : (answer (.insertAuditLog entry moment) world).2.store.documents =
          world.store.documents := documents_insertAuditLog entry moment.time
      rw [unchanged]
      exact (ite_self _).symm
  | upsertSearchHistory userId keyword moment =>
      have unchanged : (answer (.upsertSearchHistory userId keyword moment) world).2.store.documents
          = world.store.documents := documents_upsertSearchHistory keyword moment.time
      rw [unchanged]
      exact (ite_self _).symm
  | _ => exact (ite_self _).symm

theorem IsUp.documents_answer (up : world.IsUp) (call : Call) :
    (answer call world).2.store.documents collection =
      call.onDocuments collection (world.store.documents collection) := by
  rw [World.documents_answer, if_neg]
  rw [up.collections]
  decide

/-- Propagation touches nothing but the documents and the log of its operations. -/
theorem answer_of_propagates (world : World) {call : Call} (propagates : call.Propagates) :
    ∃ documents operations, (answer call world).2 =
      { world with store := { world.store with documents, operations } } := by
  cases propagates with
  | update place userId update listed =>
      change ∃ documents operations, { world with store := (world.store.updateByUser
        place.collection place.userField userId (place.updates update)).2 } = _
      dsimp only [DocumentStore.updateByUser]
      split
      · exact ⟨_, _, rfl⟩
      · exact ⟨_, _, rfl⟩
  | purge place userId listed =>
      change ∃ documents operations, { world with store := (world.store.deleteByUser
        place.1 place.2 userId).2 } = _
      dsimp only [DocumentStore.deleteByUser]
      split
      · exact ⟨_, _, rfl⟩
      · exact ⟨_, _, rfl⟩

theorem answerAll_of_propagates (world : World) {calls : List Call}
    (propagate : ∀ call ∈ calls, call.Propagates) :
    ∃ documents operations, world.answerAll calls =
      { world with store := { world.store with documents, operations } } := by
  refine answerAll_keeps (fun after => ∃ documents operations, after =
    { world with store := { world.store with documents, operations } })
    (fun call member after kept => ?_) ⟨_, _, rfl⟩
  obtain ⟨documents, operations, rfl⟩ := kept
  exact answer_of_propagates _ (propagate call member)

theorem documents_answerAll (world : World) (collection : Collection) {calls : List Call}
    (propagate : ∀ call ∈ calls, call.Propagates) :
    (world.answerAll calls).store.documents collection =
      if world.store.isDown collection = true then world.store.documents collection
      else calls.foldl (fun documents call => call.onDocuments collection documents)
        (world.store.documents collection) := by
  induction calls generalizing world with
  | nil => exact (ite_self _).symm
  | cons call calls inductionHypothesis =>
      have sameDown : (answer call world).2.store.isDown collection =
          world.store.isDown collection := by
        obtain ⟨documents, operations, changed⟩ :=
          answer_of_propagates world (propagate call List.mem_cons_self)
        rw [changed]
        rfl
      rw [answerAll_cons, inductionHypothesis _ fun later member =>
        propagate later (List.mem_cons_of_mem call member), sameDown, documents_answer]
      split
      · rfl
      · rfl

end Memory.World

namespace UserPropagation

/-! ## The fields of users -/

/-- The fields of a collection by which documents of a user are looked for. -/
def userFields (collection : Collection) : List String :=
  (profileCopies.filter (·.collection = collection)).map (·.userField) ++
    (purged.filter (·.1 = collection)).map (·.2)

/-- No text is ever written into a field by which users are looked for. -/
theorem ne_of_mem_userFields : ∀ place ∈ profileCopies, ∀ field ∈ userFields place.collection,
    field ≠ place.nicknameField ∧ field ≠ place.avatarField := by decide

theorem userField_mem_userFields :
    ∀ place ∈ profileCopies, place.userField ∈ userFields place.collection := by decide

theorem purged_mem_userFields : ∀ place ∈ purged, place.2 ∈ userFields place.1 := by decide

/-! ## The calls of an event -/

/-- The calls that write an update into places. -/
def updateCalls (userId : Int64) (update : AuthorUpdate) (places : List Embedding) : List Call :=
  if update.isEmpty then []
  else places.map fun place =>
    .updateByUser place.collection place.userField userId (place.updates update)

def purgeCalls (userId : Int64) (places : List (Collection × String)) : List Call :=
  places.map fun place => .deleteByUser place.1 place.2 userId

def callsOf (context : Context) : Event → List Call
  | .identityUpdated identity => updateCalls identity.userId (.ofIdentity identity) profileCopies
  | .identityDeleted identity =>
      updateCalls identity.userId context.placeholder.update anonymisedCopies ++
        purgeCalls identity.userId purged
  | _ => []

theorem propagates_updateCalls {userId : Int64} {update : AuthorUpdate} {places : List Embedding}
    (known : ∀ place ∈ places, place ∈ profileCopies) :
    ∀ call ∈ updateCalls userId update places, call.Propagates := by
  intro call member
  unfold updateCalls at member
  split at member
  · cases member
  · obtain ⟨place, listed, rfl⟩ := List.mem_map.mp member
    exact .update place userId update (known place listed)

theorem propagates_callsOf (context : Context) (event : Event) :
    ∀ call ∈ callsOf context event, call.Propagates := by
  intro call member
  cases event with
  | identityUpdated identity => exact propagates_updateCalls (fun _ listed => listed) call member
  | identityDeleted identity =>
      have copies : ∀ place ∈ anonymisedCopies, place ∈ profileCopies := by decide
      rcases List.mem_append.mp member with updates | purges
      · exact propagates_updateCalls copies call updates
      · obtain ⟨place, listed, rfl⟩ := List.mem_map.mp purges
        exact .purge place identity.userId listed
  | _ => cases member

section Runs

variable (userId : Int64) (next : Script)

theorem overwriteAll_eq_attempts (update : AuthorUpdate) (places : List Embedding) :
    overwriteAll userId update places next = .attempts (updateCalls userId update places) next := by
  unfold overwriteAll updateCalls
  split
  · rfl
  · rw [Script.attempts, List.foldr_map]

theorem purgeAll_eq_attempts (places : List (Collection × String)) :
    purgeAll userId places next = .attempts (purgeCalls userId places) next := by
  unfold purgeAll purgeCalls
  rw [Script.attempts, List.foldr_map]

/-- Propagation attempts the calls of an event, and ends in success. -/
theorem script_eq_attempts (context : Context) (event : Event) :
    script context event = .attempts (callsOf context event) .done := by
  cases event with
  | identityUpdated identity => exact overwriteAll_eq_attempts _ _ _ _
  | identityDeleted identity =>
      rw [script, overwriteAll_eq_attempts, purgeAll_eq_attempts, callsOf, Script.attempts_append]
      rfl
  | _ => rfl

/-- Propagation succeeds whatever fails, after all its calls have been put to the stores. -/
theorem run_script (world : World) (context : Context) (event : Event) :
    (script context event).run services world =
      (.finished (.ok ()), world.answerAll (callsOf context event)) := by
  have replies : ∀ call state, ∃ result, (services.answer call state).1 = .replied result :=
    fun call state => (answer_eq_replied call state).imp fun _ answered => congrArg Prod.fst answered
  rw [script_eq_attempts, Script.run_attempts replies]
  rfl

end Runs

/-! ## Copies written over -/

/-- Documents rewritten in place: each copy at a place by an update that depends on its user. -/
def Embedding.Rewritten (place : Embedding) (update : (Int64 → Bool) → AuthorUpdate)
    (before after : List Document) : Prop :=
  ∃ change : Document → Document, after = before.map change ∧
    ∀ d, place.Follows (update (d.names place.userField)) d (change d)

section Rewritten

variable {place : Embedding}

theorem Embedding.Rewritten.refl (place : Embedding) (documents : List Document) :
    place.Rewritten (fun _ => {}) documents documents :=
  ⟨fun d => d, (List.map_id' documents).symm, fun d => .refl place d⟩

theorem Embedding.Rewritten.trans {first later : (Int64 → Bool) → AuthorUpdate}
    {before between after : List Document} (rewritten : place.Rewritten first before between)
    (again : place.Rewritten later between after) :
    place.Rewritten (fun concerns => (later concerns).atop (first concerns)) before after := by
  obtain ⟨change, rfl, follows⟩ := rewritten
  obtain ⟨changeAgain, rfl, followsAgain⟩ := again
  refine ⟨fun d => changeAgain (change d), List.map_map, fun d => ?_⟩
  have second := followsAgain (change d)
  rw [funext (follows d).names] at second
  exact (follows d).trans second

variable {world : World} {context : Context} {event : Event} {userId : Int64}
  {update : AuthorUpdate}

/-- Writing an event into a place rewrites that place, and leaves every other place alone. -/
theorem rewritten_update (up : world.IsUp) {other : Embedding} (known : place ∈ profileCopies)
    (listed : other ∈ profileCopies) (carries : event.rewrite? context = some (userId, update)) :
    place.Rewritten (fun concerns => if other = place then event.written context concerns else {})
      (world.store.documents place.collection)
      ((answer (.updateByUser other.collection other.userField userId (other.updates update))
        world).2.store.documents place.collection) := by
  rw [up.documents_answer, Call.onDocuments]
  by_cases same : other = place
  · subst same
    rw [if_pos rfl]
    refine ⟨_, rfl, fun d => ?_⟩
    dsimp only
    rw [if_pos rfl]
    exact Embedding.follows_updated (isProper_of_mem other known) carries d
  · simp only [if_neg same]
    by_cases together : place.collection = other.collection
    · rw [if_pos together, together]
      refine ⟨_, rfl, fun d => ?_⟩
      exact Embedding.follows_updated_of_spares
        (spares_of_mem other listed place known together.symm same) userId update d
    · rw [if_neg together]
      exact .refl place _

/-- A place that is written once or several times, always by the same update. -/
private theorem atop_ite_mem (place other : Embedding) (places : List Embedding)
    (update : AuthorUpdate) :
    (if place ∈ places then update else {}).atop (if other = place then update else {}) =
      if place ∈ other :: places then update else {} := by
  by_cases here : place = other
  · subst here
    by_cases again : place ∈ places <;> simp [again]
  · have reversed : ¬other = place := fun equal => here equal.symm
    by_cases again : place ∈ places <;> simp [here, reversed, again]

theorem rewritten_updateCalls (up : world.IsUp) (known : place ∈ profileCopies)
    (carries : event.rewrite? context = some (userId, update)) {places : List Embedding}
    (listed : ∀ other ∈ places, other ∈ profileCopies) :
    place.Rewritten (fun concerns => if place ∈ places then event.written context concerns else {})
      (world.store.documents place.collection)
      ((world.answerAll (updateCalls userId update places)).store.documents place.collection) := by
  -- Without any field no call is made, and the event has nothing to write either.
  cases empty : update.isEmpty with
  | true =>
      have nothing : ∀ concerns, event.written context concerns = {} := by
        intro concerns
        rw [Event.written, carries, AuthorUpdate.eq_empty_of_isEmpty empty]
        exact ite_self _
      simp only [nothing, ite_self]
      rw [updateCalls, if_pos empty]
      exact .refl place _
  | false =>
      have nonempty : ¬update.isEmpty = true := by
        rw [empty]
        decide
      rw [updateCalls, if_neg nonempty]
      induction places generalizing world with
      | nil =>
          simp only [List.not_mem_nil, if_false]
          exact .refl place _
      | cons other places inductionHypothesis =>
          have first := rewritten_update up known (listed other (by simp)) carries
          have rest := inductionHypothesis (up.answered (.updateByUser other.collection
            other.userField userId (other.updates update))).2
            fun later member => listed later (by simp [member])
          have both := first.trans rest
          simp only [atop_ite_mem] at both
          exact both

/-- What propagation does to the copies that are anonymised: it writes the event over those of its
user. -/
theorem rewritten_callsOf (up : world.IsUp) (context : Context) (event : Event)
    (anonymised : place ∈ anonymisedCopies) :
    place.Rewritten (event.written context) (world.store.documents place.collection)
      ((world.answerAll (callsOf context event)).store.documents place.collection) := by
  have copies : ∀ place ∈ anonymisedCopies, place ∈ profileCopies := by decide
  have known := copies place anonymised
  cases event with
  | identityUpdated identity =>
      have carries : Event.rewrite? context (.identityUpdated identity) =
          some (identity.userId, .ofIdentity identity) := rfl
      have rewritten := rewritten_updateCalls up known carries fun _ listed => listed
      simp only [if_pos known] at rewritten
      exact rewritten
  | identityDeleted identity =>
      have carries : Event.rewrite? context (.identityDeleted identity) =
          some (identity.userId, context.placeholder.update) := rfl
      have rewritten := rewritten_updateCalls up known carries copies
      simp only [if_pos anonymised] at rewritten
      have apart : ∀ place ∈ anonymisedCopies, ∀ removed ∈ purged,
          place.collection ≠ removed.1 := by decide
      rw [callsOf, answerAll_append]
      refine answerAll_keeps (fun after => place.Rewritten _ _
        (after.store.documents place.collection)) (fun call member after holds => ?_) rewritten
      obtain ⟨removed, listed, rfl⟩ := List.mem_map.mp member
      rw [documents_answer, Call.onDocuments, if_neg (apart place anonymised removed listed),
        ite_self]
      exact holds
  | _ => exact .refl place _

end Rewritten

/-! ## Data removed -/

section Purged

variable {world : World} {userId : Int64} {place : Collection × String}

def Absent (userId : Int64) (place : Collection × String) (world : World) : Prop :=
  ∀ d ∈ world.store.documents place.1, d.names place.2 userId = false

/-- No call of propagation makes purged data name a user again. -/
theorem Absent.answered (absent : Absent userId place world) (known : place ∈ purged) {call : Call}
    (propagates : call.Propagates) : Absent userId place (answer call world).2 := by
  intro d member
  rw [documents_answer] at member
  split at member
  · exact absent d member
  · cases propagates with
    | update copy other update listed =>
        rw [Call.onDocuments] at member
        split at member
        · rename_i written
          obtain ⟨original, stored, rfl⟩ := List.mem_map.mp member
          have isUser := purged_mem_userFields place known
          rw [written] at isUser
          obtain ⟨nickname, avatar⟩ := ne_of_mem_userFields copy listed place.2 isUser
          rw [names_updated (not_mem_keys_updates update nickname avatar)]
          exact absent original stored
        · exact absent d member
    | purge removed other listed =>
        rw [Call.onDocuments] at member
        split at member
        · exact absent d (List.mem_filter.mp member).1
        · exact absent d member

theorem absent_deleteByUser (up : world.IsUp) :
    Absent userId place (answer (.deleteByUser place.1 place.2 userId) world).2 := by
  intro d member
  rw [up.documents_answer, Call.onDocuments, if_pos rfl] at member
  simpa using (List.mem_filter.mp member).2

theorem absent_answerAll (up : world.IsUp) (known : place ∈ purged) {calls : List Call}
    (propagate : ∀ call ∈ calls, call.Propagates)
    (removes : .deleteByUser place.1 place.2 userId ∈ calls) :
    Absent userId place (world.answerAll calls) := by
  induction calls generalizing world with
  | nil => cases removes
  | cons call calls inductionHypothesis =>
      have later : ∀ call ∈ calls, call.Propagates := fun call member =>
        propagate call (by simp [member])
      rw [answerAll_cons]
      rcases List.mem_cons.mp removes with rfl | member
      · exact answerAll_keeps (Absent userId place)
          (fun call member _ absent => absent.answered known (later call member))
          (absent_deleteByUser up)
      · exact inductionHypothesis (up.answered call).2 later member

end Purged

end UserPropagation

end DualStore
