import DualStore.Proofs.Delivery.Tracing
import DualStore.Proofs.Identity.Effect
import DualStore.Proofs.Sync.Keys

/-!
Contract: one attempt to handle an event for index synchronisation, call by call.

Owns:
- the calls that an attempt makes, with their answers: a document is put only right after a lookup
  of its id that was answered with a record that may be indexed;
- what an attempt changes: nothing in the document store, and in the index nothing unless it
  succeeds, when it is what its last call says.

Does not own: the attempts of one delivery.
-/

namespace DualStore

open Memory

/-! ## Calls and changes -/

namespace IndexSync

/-- The calls that one attempt to handle an event makes, with their answers. A document is put only
right after a lookup of its id that was answered with a record that may be indexed. -/
inductive Attempt (context : Context) (event : Event) : List TracedCall → Prop where
  | idle (idle : script context event = .done) : Attempt context event []
  | unread {id : String} {answer : Answer (Option ContentRecord)}
      (settles : event.settles? context = some id) (keeps : event.isDeletion = false)
      (noReply : ∀ found, answer ≠ .replied (.ok found)) :
      Attempt context event [⟨.findContent id, answer⟩]
  | put {id : String} {record : ContentRecord} {document : IndexDocument} {answer : Answer Unit}
      (settles : event.settles? context = some id) (keeps : event.isDeletion = false)
      (indexable : record.isIndexable = true) (named : document.id = id) :
      Attempt context event
        [⟨.findContent id, .replied (.ok (some record))⟩, ⟨.upsertDocument document, answer⟩]
  | withdrawn {id : String} {found : Option ContentRecord} {answer : Answer Removal}
      (settles : event.settles? context = some id) (keeps : event.isDeletion = false)
      (barred : found.any (·.isIndexable) = false) :
      Attempt context event
        [⟨.findContent id, .replied (.ok found)⟩, ⟨.deleteDocument id, answer⟩]
  | deleted {id : String} {answer : Answer Removal} (settles : event.settles? context = some id)
      (deletes : event.isDeletion = true) : Attempt context event [⟨.deleteDocument id, answer⟩]
  | authors {identity : IdentityEvent} {answer : Answer Nat} (about : event = identity.toEvent)
      (supplied : (identity.update context).isEmpty = false) :
      Attempt context event [⟨.updateAuthor identity.userId (identity.update context), answer⟩]

/-- What the calls of an attempt that succeeds have changed in the index. -/
inductive Change (context : Context) (event : Event) (calls : List TracedCall)
    (before after : SearchIndex) : Prop where
  | put {id : String} {record : ContentRecord} {document : IndexDocument}
      (settles : event.settles? context = some id) (keeps : event.isDeletion = false)
      (indexable : record.isIndexable = true) (named : document.id = id)
      (made : calls = [⟨.findContent id, .replied (.ok (some record))⟩,
        ⟨.upsertDocument document, .replied (.ok ())⟩])
      (effect : ∀ key, after.get? key = if id = key then some document else before.get? key)
  | removed {id : String} (settles : event.settles? context = some id)
      (effect : ∀ key, after.get? key = if id = key then none else before.get? key)
  | authors {identity : IdentityEvent} (about : event = identity.toEvent)
      (effect : ∀ key, after.get? key = (before.get? key).map
        (SearchIndex.overwritten identity.userId (identity.update context)))

theorem Change.congr {context : Context} {event : Event} {calls : List TracedCall}
    {before other after : SearchIndex} (change : Change context event calls before after)
    (same : ∀ key, before.get? key = other.get? key) :
    Change context event calls other after := by
  cases change with
  | put settles keeps indexable named made effect =>
      exact .put settles keeps indexable named made fun key => by rw [effect key, same key]
  | removed settles effect => exact .removed settles fun key => by rw [effect key, same key]
  | authors about effect => exact .authors about fun key => by rw [effect key, same key]

/-- An attempt adds its calls to the trace, leaves the document store alone, and changes nothing in
the index unless it succeeds. -/
def Attempted (context : Context) (event : Event) (state : Traced (Scheduled World))
    (ran : Run × Traced (Scheduled World)) : Prop :=
  ∃ calls, ran.2.calls = state.calls ++ calls ∧ Attempt context event calls ∧
    ran.2.inner.inner.store = state.inner.inner.store ∧
    ((∀ key, ran.2.inner.inner.index.get? key = state.inner.inner.index.get? key) ∨
      (ran.1 = .finished (.ok ()) ∧
        Change context event calls state.inner.inner.index ran.2.inner.inner.index))

end IndexSync

namespace Memory.World

/-- With a fault in its way or not, a call to the index leaves the document store alone. It has no
reply and every id holds what it held, or it has one and is carried out. -/
theorem scheduled_answer_index {command : Call} (toIndex : command.isIndexCall = true)
    (state : Scheduled World) :
    let answered := services.scheduled.answer command state
    answered.2.inner.store = state.inner.store ∧
      (((∀ reply, answered.1 ≠ .replied (.ok reply)) ∧
          ∀ key, answered.2.inner.index.get? key = state.inner.index.get? key) ∨
        ((∃ reply, answered.1 = .replied (.ok reply)) ∧
          ∀ key, answered.2.inner.index.get? key =
            (carriedOut command state.inner.index).get? key)) := by
  intro answered
  rcases scheduled_answer_cases services command state with ⟨kept, noReply⟩ | ⟨rest, passed⟩
  · have same : answered.2.inner = state.inner := kept
    rw [same]
    exact ⟨rfl, Or.inl ⟨noReply, fun key => rfl⟩⟩
  · have direct : answered = ((answer command state.inner).1,
        ⟨rest, (answer command state.inner).2⟩) := passed
    rw [direct]
    refine ⟨store_answer_of_synchronises (Or.inl toIndex), ?_⟩
    rcases index_answer_cases state.inner toIndex with
      ⟨⟨error, failed⟩, kept⟩ | ⟨⟨reply, replied⟩, carried⟩
    · refine Or.inl ⟨fun reply replied => ?_, fun key => SearchIndex.get?_congr kept key⟩
      cases failed.symm.trans replied
    · refine Or.inr ⟨⟨reply, replied⟩, fun key => ?_⟩
      dsimp only
      rw [carried]
      cases command <;> rfl

/-- A lookup changes nothing, and a reply to it is the record of the id. -/
theorem scheduled_answer_findContent (id : String) (state : Scheduled World) :
    let answered := services.scheduled.answer (.findContent id) state
    answered.2.inner = state.inner ∧
      ∀ found, answered.1 = .replied (.ok found) → found = state.inner.store.content? id := by
  intro answered
  rcases scheduled_answer_cases services (.findContent id) state with
    ⟨kept, noReply⟩ | ⟨rest, passed⟩
  · exact ⟨kept, fun found replied => absurd replied (noReply found)⟩
  · have direct : answered = ((answer (.findContent id) state.inner).1,
        ⟨rest, (answer (.findContent id) state.inner).2⟩) := passed
    rw [direct]
    refine ⟨rfl, fun found replied => ?_⟩
    have answers : answer (.findContent id) state.inner =
        (.replied (.ok found), (answer (.findContent id) state.inner).2) := Prod.ext replied rfl
    exact reply_findContent answers

end Memory.World

namespace IndexSync

open Memory.World

section Attempts

variable {context : Context} {event : Event}

/-- A script of one call to the index leaves the document store alone. Every id holds what it held,
or the script succeeds and the call is carried out. -/
theorem run_indexCall_traced {command : Call} (toIndex : command.isIndexCall = true)
    (state : Traced (Scheduled World)) :
    let ran := (Script.call command fun _ => .done).run services.scheduled.traced state
    ∃ answer, ran.2.calls = state.calls ++ [⟨command, answer⟩] ∧
      ran.2.inner.inner.store = state.inner.inner.store ∧
      ((∀ key, ran.2.inner.inner.index.get? key = state.inner.inner.index.get? key) ∨
        (ran.1 = .finished (.ok ()) ∧ (∃ reply, answer = .replied (.ok reply)) ∧
          ∀ key, ran.2.inner.inner.index.get? key =
            (carriedOut command state.inner.inner.index).get? key)) := by
  obtain ⟨store, effect⟩ := scheduled_answer_index toIndex state.inner
  refine ⟨(services.scheduled.answer command state.inner).1, ?_⟩
  rcases Script.run_call_traced_cases services.scheduled command (fun _ => .done) state with
    ⟨reply, replied, ran⟩ | ⟨noReply, _, ran⟩
  · rw [ran]
    refine ⟨rfl, store, Or.inr ⟨rfl, ⟨reply, replied⟩, ?_⟩⟩
    rcases effect with ⟨noReply, _⟩ | ⟨_, carried⟩
    · exact absurd replied (noReply reply)
    · exact carried
  · rw [ran]
    refine ⟨rfl, store, Or.inl ?_⟩
    rcases effect with ⟨_, kept⟩ | ⟨⟨reply, replied⟩, _⟩
    · exact kept
    · exact absurd replied (noReply reply)

variable {id : String}

theorem attempted_done (idle : script context event = .done) (state : Traced (Scheduled World)) :
    Attempted context event state (Script.done.run services.scheduled.traced state) :=
  ⟨[], (List.append_nil _).symm, .idle idle, rfl, Or.inl fun _ => rfl⟩

/-- An attempt that ends with a call to the index, behind calls that changed nothing. -/
theorem attempted_indexCall {command : Call} (toIndex : command.isIndexCall = true)
    {first : List TracedCall} {state middle : Traced (Scheduled World)}
    (traced : middle.calls = state.calls ++ first)
    (unchanged : middle.inner.inner = state.inner.inner)
    (attempt : ∀ answer, Attempt context event (first ++ [⟨command, answer⟩]))
    (change : ∀ reply before after,
      (∀ key, SearchIndex.get? after key = (carriedOut command before).get? key) →
      Change context event (first ++ [⟨command, .replied (.ok reply)⟩]) before after) :
    Attempted context event state
      ((Script.call command fun _ => .done).run services.scheduled.traced middle) := by
  obtain ⟨answer, calls, store, effect⟩ := run_indexCall_traced toIndex middle
  rw [unchanged] at store effect
  refine ⟨first ++ [⟨command, answer⟩], ?_, attempt answer, store, ?_⟩
  · rw [calls, traced, List.append_assoc]
  · rcases effect with kept | ⟨succeeded, ⟨reply, rfl⟩, carried⟩
    · exact Or.inl kept
    · exact Or.inr ⟨succeeded, change reply _ _ carried⟩

theorem attempted_remove (settles : event.settles? context = some id)
    (deletes : event.isDeletion = true) (state : Traced (Scheduled World)) :
    Attempted context event state ((remove id).run services.scheduled.traced state) :=
  attempted_indexCall rfl (List.append_nil _).symm rfl (fun _ => .deleted settles deletes)
    fun _ _ _ carried =>
      .removed settles fun key => (carried key).trans (SearchIndex.get?_erase id)

theorem attempted_overwriteAuthor {identity : IdentityEvent} (about : event = identity.toEvent)
    (state : Traced (Scheduled World)) :
    Attempted context event state
      ((overwriteAuthor identity.userId (identity.update context)).run services.scheduled.traced
        state) := by
  have isScript : script context event =
      overwriteAuthor identity.userId (identity.update context) := by
    rw [about, identity.indexSync_script_toEvent]
  unfold overwriteAuthor at isScript ⊢
  split
  · rename_i empty
    rw [if_pos empty] at isScript
    exact attempted_done isScript state
  · rename_i supplied
    exact attempted_indexCall rfl (List.append_nil _).symm rfl
      (fun _ => .authors about (eq_false_of_ne_true supplied)) fun _ _ _ carried =>
        .authors about fun key =>
          (carried key).trans (SearchIndex.get?_overwriteAuthor identity.userId _)

/-- What is done about the record of an id is decided by whether it may be indexed. -/
theorem onRecord_cases (id : String) (project : ContentRecord → IndexDocument)
    (found : Option ContentRecord) :
    (found.any (·.isIndexable) = false ∧ onRecord id project found = remove id) ∨
      ∃ record, found = some record ∧ record.isIndexable = true ∧
        onRecord id project found = put (project record) := by
  cases found with
  | none => exact Or.inl ⟨rfl, rfl⟩
  | some record =>
      rw [onRecord]
      cases indexable : record.isIndexable with
      | true => exact Or.inr ⟨record, rfl, indexable, rfl⟩
      | false => exact Or.inl ⟨indexable, rfl⟩

theorem attempted_reconcileWith (settles : event.settles? context = some id)
    (keeps : event.isDeletion = false) {project : ContentRecord → IndexDocument}
    (named : ∀ record : ContentRecord, record.id = id → (project record).id = id)
    (state : Traced (Scheduled World)) :
    Attempted context event state
      ((reconcileWith id project).run services.scheduled.traced state) := by
  rw [reconcileWith_eq]
  obtain ⟨unchanged, isFound⟩ := scheduled_answer_findContent id state.inner
  rcases Script.run_call_traced_cases services.scheduled (.findContent id) (onRecord id project)
    state with ⟨found, replied, ran⟩ | ⟨noReply, _, ran⟩
  · rw [ran, replied]
    rcases onRecord_cases id project found with ⟨barred, removes⟩ | ⟨record, rfl, indexable, puts⟩
    · rw [removes]
      exact attempted_indexCall rfl rfl unchanged (fun _ => .withdrawn settles keeps barred)
        fun _ _ _ carried =>
          .removed settles fun key => (carried key).trans (SearchIndex.get?_erase id)
    · have sameId : (project record).id = id :=
        named record (DocumentStore.id_of_content? (isFound _ replied).symm)
      rw [puts]
      refine attempted_indexCall rfl rfl unchanged
        (fun _ => .put settles keeps indexable sameId) fun _ _ _ carried =>
          .put settles keeps indexable sameId rfl fun key => ?_
      rw [carried key, carriedOut, SearchIndex.get?_put, sameId]
  · have sameWorld : ((Script.call (.findContent id) (onRecord id project)).run
        services.scheduled.traced state).2.inner.inner = state.inner.inner := by
      rw [ran]
      exact unchanged
    refine ⟨_, congrArg Traced.calls ran, .unread settles keeps noReply, ?_, Or.inl fun key => ?_⟩
    · rw [sameWorld]
    · rw [sameWorld]

/-- An attempt to handle an event, whatever is in the way of its calls. -/
theorem attempted_script (context : Context) (event : Event) (state : Traced (Scheduled World)) :
    Attempted context event state
      ((script context event).run services.scheduled.traced state) := by
  cases settles : event.settles? context with
  | some id =>
      cases deletes : event.isDeletion with
      | true =>
          cases event with
          | contentDeleted deleted =>
              cases settles
              exact attempted_remove rfl rfl state
          | _ => cases deletes
      | false =>
          obtain ⟨project, reconciles, named⟩ := Event.reconciles_of_settles settles deletes
          rw [reconciles]
          exact attempted_reconcileWith settles deletes named state
  | none =>
      cases event with
      | contentCreated created =>
          have waits : context.auditRequired = true := by
            rw [Event.settles?] at settles
            simpa using settles
          have idle : script context (.contentCreated created) = .done := if_pos waits
          rw [idle]
          exact attempted_done idle state
      | identityUpdated identity =>
          have about : Event.identityUpdated identity = (IdentityEvent.updated identity).toEvent :=
            rfl
          exact attempted_overwriteAuthor about state
      | identityDeleted identity =>
          have about : Event.identityDeleted identity = (IdentityEvent.deleted identity).toEvent :=
            rfl
          exact attempted_overwriteAuthor about state
      | auditLogEntry entry => exact attempted_done rfl state
      | searchQueryIssued query => exact attempted_done rfl state
      | _ => cases settles

end Attempts

end IndexSync

end DualStore
