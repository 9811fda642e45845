import DualStore.Proofs.Memory.FixedPosts
import DualStore.Proofs.Sync.Eligibility

/-!
Contract: under which keys the index holds posts that are kept on a document server.

Owns:
- what handling one event can do to the index, faults and retries included: it puts a document
  under the id of the event or under the spelling of its record, or it removes the id of the event;
- from this, exactly when removals reach what was put and no post has two documents: when the ids
  that come with events are spelled as the records spell them.

Does not own: posts that change during a run.
-/

namespace DualStore

open Memory

def Event.isDeletion : Event → Bool
  | .contentDeleted _ => true
  | _ => false

/-- An event that settles an id, and is no deletion, puts a document under that id when it finds a
record that may be indexed and is spelled so. -/
theorem Event.reconciles_of_settles {context : Context} {event : Event} {id : String}
    (settles : event.settles? context = some id) (keeps : event.isDeletion = false) :
    ∃ project, IndexSync.script context event = IndexSync.reconcileWith id project ∧
      ∀ record : ContentRecord, record.id = id → (project record).id = id := by
  cases event with
  | contentCreated created =>
      rw [Event.settles?] at settles
      split at settles
      · cases settles
      · rename_i immediate
        cases settles
        exact ⟨_, if_neg immediate, fun _ _ => rfl⟩
  | contentAuditPassed created =>
      cases settles
      exact ⟨_, rfl, fun _ _ => rfl⟩
  | contentUpdated updated =>
      cases settles
      exact ⟨_, rfl, fun _ spelled => spelled⟩
  | contentDeleted deleted => cases keeps
  | _ => cases settles

namespace FixedPosts

variable (posts : FixedPosts)

/-! ## What handling one event does -/

/-- What handling an event can do to the index. -/
inductive Touches (context : Context) (event : Event) (before after : SearchIndex) : Prop where
  | nothing (same : ∀ key, after.get? key = before.get? key)
  | put {id : String} {document : IndexDocument} (settles : event.settles? context = some id)
      (eligible : posts.isEligible id = true)
      (spelled : document.id = id ∨ document.id = Command.spelling id)
      (effect : ∀ key, after.get? key =
        if document.id = key then some document else before.get? key)
  | removed {id : String} (settles : event.settles? context = some id)
      (effect : ∀ key, after.get? key = if id = key then none else before.get? key)
  | authors (unsettled : event.settles? context = none)
      (effect : ∀ key, (after.get? key).isSome = (before.get? key).isSome)

section Touching

variable {posts} {context : Context} {event : Event} {state : Scheduled World}

/-- A script of one call to the index leaves every key alone, or the call is carried out. -/
theorem run_indexCall_cases (posts : FixedPosts) (state : Scheduled World) (command : Call)
    (toIndex : command.isIndexCall = true) :
    let ran := (Script.call command fun _ => .done).run posts.services.scheduled state
    (∀ key, ran.2.inner.index.get? key = state.inner.index.get? key) ∨
      ∀ key, ran.2.inner.index.get? key =
        (World.carriedOut command state.inner.index).get? key := by
  intro ran
  have inMemory : ran = _ := posts.run_indexCall toIndex state
  rw [inMemory]
  rcases (World.run_indexCall command toIndex state).2 with ⟨_, kept⟩ | carried
  · exact Or.inl kept
  · exact Or.inr carried

theorem touches_remove {id : String} (settles : event.settles? context = some id) :
    posts.Touches context event state.inner.index
      ((IndexSync.remove id).run posts.services.scheduled state).2.inner.index := by
  rcases run_indexCall_cases posts state (.deleteDocument id) rfl with kept | carried
  · exact .nothing kept
  · exact .removed settles fun key => (carried key).trans (SearchIndex.get?_erase id)

theorem touches_reconcileWith {id : String} (settles : event.settles? context = some id)
    {project : ContentRecord → IndexDocument}
    (spelled : ∀ record, record.id = Command.spelling id →
      (project record).id = id ∨ (project record).id = Command.spelling id) :
    posts.Touches context event state.inner.index
      ((IndexSync.reconcileWith id project).run posts.services.scheduled state).2.inner.index := by
  have looked := posts.answer_findContent id state.inner
  rcases run_scheduled_reconcileWith (posts.record? id) (by rw [looked])
      (fun reply after replied => by
        rw [looked] at replied
        cases replied
        rfl) project with ⟨_, kept⟩ | ⟨after, same, goesOn⟩
  · rw [kept]
    exact .nothing fun key => rfl
  · rw [goesOn, ← same]
    cases found : posts.record? id with
    | none => exact touches_remove settles
    | some record =>
        rw [IndexSync.onRecord]
        split
        · rename_i indexable
          have eligible : posts.isEligible id = true :=
            posts.isEligible_iff.mpr ⟨record, found, indexable⟩
          rcases run_indexCall_cases posts after (.upsertDocument (project record)) rfl with
            kept | carried
          · exact .nothing kept
          · exact .put settles eligible (spelled record (posts.id_of_record? found))
              fun key => (carried key).trans (SearchIndex.get?_put (project record))
        · exact touches_remove settles

theorem touches_overwriteAuthor (unsettled : event.settles? context = none) (userId : Int64)
    (update : AuthorUpdate) :
    posts.Touches context event state.inner.index ((IndexSync.overwriteAuthor userId update).run
      posts.services.scheduled state).2.inner.index := by
  unfold IndexSync.overwriteAuthor
  split
  · exact .nothing fun key => rfl
  · rcases run_indexCall_cases posts state (.updateAuthor userId update) rfl with kept | carried
    · exact .nothing kept
    · refine .authors unsettled fun key => ?_
      rw [carried key, World.carriedOut, SearchIndex.get?_overwriteAuthor, Option.isSome_map]

theorem touches_script (posts : FixedPosts) (context : Context) (event : Event)
    (state : Scheduled World) :
    posts.Touches context event state.inner.index
      ((IndexSync.script context event).run posts.services.scheduled state).2.inner.index := by
  cases event with
  | contentCreated created =>
      rw [IndexSync.script]
      split
      · exact .nothing fun key => rfl
      · rename_i immediate
        have settles : (Event.contentCreated created).settles? context = some created.id :=
          if_neg immediate
        exact touches_reconcileWith settles fun _ _ => Or.inl rfl
  | contentAuditPassed created => exact touches_reconcileWith rfl fun _ _ => Or.inl rfl
  | contentUpdated updated => exact touches_reconcileWith rfl fun _ spelled => Or.inr spelled
  | contentDeleted deleted => exact touches_remove rfl
  | identityUpdated identity => exact touches_overwriteAuthor rfl _ _
  | identityDeleted identity => exact touches_overwriteAuthor rfl _ _
  | auditLogEntry entry => exact .nothing fun key => rfl
  | searchQueryIssued query => exact .nothing fun key => rfl

/-- An event about an id that is spelled as its record spells it touches no other key. -/
theorem Touches.get?_of_ne {before after : SearchIndex}
    (touches : posts.Touches context event before after) {id key : String}
    (settles : event.settles? context = some id)
    (spelled : posts.isEligible id = true → Command.spelling id = id) (other : id ≠ key) :
    after.get? key = before.get? key := by
  cases touches with
  | nothing same => exact same key
  | put about eligible keyed effect =>
      cases settles.symm.trans about
      rw [spelled eligible] at keyed
      rw [effect key, if_neg]
      rcases keyed with same | same <;> rwa [same]
  | removed about effect =>
      cases settles.symm.trans about
      rw [effect key, if_neg other]
  | authors unsettled _ => cases settles.symm.trans unsettled

end Touching

/-! ## Deliveries -/

section Deliveries

variable (context : Context) (policy : RetryPolicy)

/-- The world after the delivery of an event has been handled, with faults in the way of its calls
and with retries. Deliveries that carry no event do nothing and are left out. -/
def synchronise (world : World) (delivery : Event × List Fault) : World :=
  (tryHandler policy ((Route.indexSync.handler context posts.services.scheduled).handle delivery.1)
    ⟨delivery.2, world⟩).2.inner

def synchroniseAll (world : World) (deliveries : List (Event × List Fault)) : World :=
  deliveries.foldl (posts.synchronise context policy) world

variable {posts context policy} {world : World} {event : Event} {faults : List Fault}

theorem synchronise_keeps (invariant : SearchIndex → Prop)
    (kept : ∀ before after, posts.Touches context event before after → invariant before →
      invariant after) (holds : invariant world.index) :
    invariant (posts.synchronise context policy world (event, faults)).index :=
  tryHandler_keeps policy (fun state : Scheduled World => invariant state.inner.index)
    (fun state holdsHere => kept _ _ (touches_script posts context event state) holdsHere) holds

/-- Handling an event makes no later call to the index fail. -/
theorem failures_synchronise (quiet : world.index.failures = 0) :
    (posts.synchronise context policy world (event, faults)).index.failures = 0 := by
  refine tryHandler_keeps policy (fun state : Scheduled World => state.inner.index.failures = 0)
    (fun state quietHere => ?_) quiet
  refine run_scheduled_keeps posts.services (fun world : World => world.index.failures = 0)
    (fun command world _ quietThere => ?_) (fun _ quietThere => quietThere)
    (IndexSync.calls_script context event) quietHere
  cases command with
  | findContent id =>
      rw [posts.answer_findContent]
      exact quietThere
  | _ => exact World.failures_answer_of_quiet quietThere _

theorem synchronise_of_succeeds {after : World}
    (succeeds : (IndexSync.script context event).run posts.services world =
      (.finished (.ok ()), after)) :
    posts.synchronise context policy world (event, []) = after := by
  have runs : (Route.indexSync.script context event).run posts.services world = _ := succeeds
  unfold synchronise
  rw [tryHandler_of_runs policy runs]

theorem run_indexCall_of_quiet (quiet : world.index.failures = 0) {command : Call}
    (toIndex : command.isIndexCall = true) :
    (Script.call command fun _ => .done).run posts.services world =
      (.finished (.ok ()), (World.answer command world).2) := by
  obtain ⟨⟨reply, replied⟩, _⟩ := World.answer_index_of_quiet quiet toIndex
  have answered : posts.services.answer command world =
      (.replied (.ok reply), (World.answer command world).2) :=
    (posts.answer_of_isIndexCall toIndex world).trans (Prod.ext replied rfl)
  rw [Script.call, Script.run, answered]
  rfl

theorem run_reconcileWith (id : String) (project : ContentRecord → IndexDocument) :
    (IndexSync.reconcileWith id project).run posts.services world =
      (IndexSync.onRecord id project (posts.record? id)).run posts.services world := by
  rw [IndexSync.reconcileWith_eq, Script.call, Script.run, posts.answer_findContent]

/-- An event that settles an id by removing it: a deletion, or any other whose record may not be
indexed. -/
def Removes (posts : FixedPosts) (context : Context) (id : String) (event : Event) : Prop :=
  event.settles? context = some id ∧ (event.isDeletion = true ∨ posts.isEligible id = false)

theorem run_of_removes {id : String} (removes : posts.Removes context id event) :
    (IndexSync.script context event).run posts.services world =
      (IndexSync.remove id).run posts.services world := by
  obtain ⟨settles, due⟩ := removes
  cases isDeletion : event.isDeletion with
  | true =>
      cases event with
      | contentDeleted deleted =>
          cases settles
          rfl
      | _ => cases isDeletion
  | false =>
      have ineligible : posts.isEligible id = false :=
        due.resolve_left (by rw [isDeletion]; exact Bool.false_ne_true)
      obtain ⟨project, reconciles, _⟩ := Event.reconciles_of_settles settles isDeletion
      rw [reconciles, run_reconcileWith]
      unfold isEligible at ineligible
      cases found : posts.record? id with
      | none => rfl
      | some record =>
          rw [found] at ineligible
          have barred : ¬record.isIndexable = true := ne_true_of_eq_false ineligible
          rw [IndexSync.onRecord, if_neg barred]

/-- A removal without faults leaves nothing under its id, and every other key alone. -/
theorem get?_synchronise_of_removes {id : String} (removes : posts.Removes context id event)
    (quiet : world.index.failures = 0) (key : String) :
    (posts.synchronise context policy world (event, [])).index.get? key =
      if id = key then none else world.index.get? key := by
  have ran : (IndexSync.script context event).run posts.services world =
      (.finished (.ok ()), (World.answer (.deleteDocument id) world).2) :=
    (run_of_removes removes).trans (run_indexCall_of_quiet quiet rfl)
  rw [synchronise_of_succeeds ran, World.get?_answer_of_quiet quiet rfl, World.carriedOut,
    SearchIndex.get?_erase]

/-- An event that finds a record that may be indexed puts what the record is projected to. -/
theorem get?_synchronise_of_eligible {id : String} {record : ContentRecord}
    (found : posts.record? id = some record) (indexable : record.isIndexable = true)
    {project : ContentRecord → IndexDocument}
    (reconciles : IndexSync.script context event = IndexSync.reconcileWith id project)
    (quiet : world.index.failures = 0) (key : String) :
    (posts.synchronise context policy world (event, [])).index.get? key =
      if (project record).id = key then some (project record) else world.index.get? key := by
  have ran : (IndexSync.script context event).run posts.services world =
      (.finished (.ok ()), (World.answer (.upsertDocument (project record)) world).2) := by
    rw [reconciles, run_reconcileWith, found, IndexSync.onRecord, if_pos indexable]
    exact run_indexCall_of_quiet quiet rfl
  rw [synchronise_of_succeeds ran, World.get?_answer_of_quiet quiet rfl, World.carriedOut,
    SearchIndex.get?_put]

end Deliveries

/-! ## Keys -/

/-- Two ids that lead to the same post. -/
def SamePost (first second : String) : Prop :=
  ∃ post, posts.post? first = some post ∧ posts.post? second = some post

theorem samePost_spelling {id : String} {post : Bson.Fields} (found : posts.post? id = some post) :
    posts.SamePost (Command.spelling id) id := by
  refine ⟨post, ?_, found⟩
  unfold post?
  rw [Command.identifier_spelling]
  exact found

/-- No two keys of an index lead to the same post. -/
def OneKey (index : SearchIndex) : Prop :=
  ∀ first second, (index.get? first).isSome = true → (index.get? second).isSome = true →
    posts.SamePost first second → first = second

/-- The admitted ids of records that may be indexed are spelled as the records spell them. -/
def Spelled (admitted : String → Prop) : Prop :=
  ∀ id, admitted id → posts.isEligible id = true → Command.spelling id = id

/-- Whatever an event about an admitted id does, a removal of that id afterwards leaves the index as
it was, without that id. The posts may have changed when the removal is handled. -/
def TakesBack (context : Context) (policy : RetryPolicy) (admitted : String → Prop) : Prop :=
  ∀ (event removal : Event) (id : String) (later : FixedPosts) (faults : List Fault)
    (world : World),
    event.settles? context = some id → admitted id → later.Removes context id removal →
    world.index.failures = 0 →
    ∀ key, (later.synchronise context policy
      (posts.synchronise context policy world (event, faults)) (removal, [])).index.get? key =
        if id = key then none else world.index.get? key

/-- Runs from an empty index, of events about admitted ids, leave no post with two keys. -/
def KeepsOneKey (context : Context) (policy : RetryPolicy) (admitted : String → Prop) : Prop :=
  ∀ (world : World) (deliveries : List (Event × List Fault)), world.index.documents = [] →
    (∀ delivery ∈ deliveries, ∀ id, delivery.1.settles? context = some id → admitted id) →
    posts.OneKey (posts.synchroniseAll context policy world deliveries).index

section Keys

variable {posts} {context : Context} {policy : RetryPolicy} {admitted : String → Prop}

theorem takesBack_of_spelled (spelled : posts.Spelled admitted) :
    posts.TakesBack context policy admitted := by
  intro event removal id later faults world settles allowed removes quiet key
  rw [get?_synchronise_of_removes removes (failures_synchronise quiet)]
  by_cases same : id = key
  · rw [if_pos same, if_pos same]
  · rw [if_neg same, if_neg same]
    exact synchronise_keeps (fun index => index.get? key = world.index.get? key)
      (fun before after touches kept =>
        (touches.get?_of_ne settles (spelled id allowed) same).trans kept) rfl

/-- Every key is spelled as records are. -/
def KeysSpelled (index : SearchIndex) : Prop :=
  ∀ key, (index.get? key).isSome = true → Command.spelling key = key

theorem Touches.keysSpelled {event : Event} {before after : SearchIndex}
    (touches : posts.Touches context event before after)
    (spelled : ∀ id, event.settles? context = some id → posts.isEligible id = true →
      Command.spelling id = id) (holds : KeysSpelled before) : KeysSpelled after := by
  intro key held
  cases touches with
  | nothing same =>
      rw [same key] at held
      exact holds key held
  | put settles eligible keyed effect =>
      rename_i id document
      have same := spelled id settles eligible
      rw [same, or_self] at keyed
      rw [effect key] at held
      split at held
      · rename_i isKey
        rw [← isKey, keyed]
        exact same
      · exact holds key held
  | removed settles effect =>
      rw [effect key] at held
      split at held
      · cases held
      · exact holds key held
  | authors unsettled effect =>
      rw [effect key] at held
      exact holds key held

/-- Two keys that are spelled as records are do not lead to the same post. -/
theorem KeysSpelled.oneKey {index : SearchIndex} (holds : KeysSpelled index) :
    posts.OneKey index := by
  intro first second heldFirst heldSecond samePost
  obtain ⟨post, foundFirst, foundSecond⟩ := samePost
  obtain ⟨record, projected, spelledFirst⟩ := posts.ofFields_of_post? foundFirst
  obtain ⟨other, projectedAgain, spelledSecond⟩ := posts.ofFields_of_post? foundSecond
  cases projected.symm.trans projectedAgain
  rw [← holds first heldFirst, ← spelledFirst, spelledSecond, holds second heldSecond]

theorem keepsOneKey_of_spelled (spelled : posts.Spelled admitted) :
    posts.KeepsOneKey context policy admitted := by
  intro world deliveries empty allowed
  have atFirst : KeysSpelled world.index := by
    intro key held
    unfold SearchIndex.get? at held
    rw [empty] at held
    cases held
  suffices kept : KeysSpelled (posts.synchroniseAll context policy world deliveries).index from
    kept.oneKey
  clear empty
  induction deliveries generalizing world with
  | nil => exact atFirst
  | cons delivery deliveries inductionHypothesis =>
      obtain ⟨event, faults⟩ := delivery
      have kept : KeysSpelled (posts.synchronise context policy world (event, faults)).index := by
        refine synchronise_keeps KeysSpelled (fun before after touches => ?_) atFirst
        exact touches.keysSpelled fun id settles =>
          spelled id (allowed (event, faults) List.mem_cons_self id settles)
      exact inductionHypothesis _
        (fun later member => allowed later (List.mem_cons_of_mem _ member)) kept

/-! ### An id in another spelling -/

section Respelled

variable {id : String} {world : World} (quiet : world.index.failures = 0)

include quiet

/-- A change puts the document of its record under the spelling of the record. -/
theorem isSome_synchronise_changed (eligible : posts.isEligible id = true) (key : String) :
    ((posts.synchronise context policy world (.contentUpdated ⟨id⟩, [])).index.get? key).isSome =
      (decide (Command.spelling id = key) || (world.index.get? key).isSome) := by
  obtain ⟨record, found, indexable⟩ := posts.isEligible_iff.mp eligible
  have keyed : (IndexDocument.ofRecord record context.offset).id = Command.spelling id :=
    posts.id_of_record? found
  rw [get?_synchronise_of_eligible found indexable rfl quiet, keyed]
  split <;> simp [*]

/-- An approval puts the document of its payload under the id of the event. -/
theorem isSome_synchronise_approved (eligible : posts.isEligible id = true)
    {approved : ContentCreated} (about : approved.id = id) (key : String) :
    ((posts.synchronise context policy world (.contentAuditPassed approved, [])).index.get?
      key).isSome = (decide (id = key) || (world.index.get? key).isSome) := by
  subst about
  obtain ⟨record, found, indexable⟩ := posts.isEligible_iff.mp eligible
  have keyed : (IndexDocument.ofEvent approved record context.offset).id = approved.id := rfl
  rw [get?_synchronise_of_eligible found indexable rfl quiet, keyed]
  split <;> simp [*]

end Respelled

theorem spelled_of_takesBack (takesBack : posts.TakesBack context policy admitted) :
    posts.Spelled admitted := by
  intro id allowed eligible
  refine Decidable.byContradiction fun respelled => ?_
  have gone := takesBack (.contentUpdated ⟨id⟩) (.contentDeleted { id }) id posts [] {} rfl allowed
    ⟨rfl, Or.inl rfl⟩ rfl (Command.spelling id)
  have other : ¬id = Command.spelling id := fun same => respelled same.symm
  have removes : posts.Removes context id (.contentDeleted { id }) := ⟨rfl, Or.inl rfl⟩
  rw [get?_synchronise_of_removes removes (failures_synchronise rfl), if_neg other,
    if_neg other] at gone
  have held : ((posts.synchronise context policy {} (.contentUpdated ⟨id⟩, [])).index.get?
      (Command.spelling id)).isSome = _ := isSome_synchronise_changed rfl eligible _
  rw [gone, decide_eq_true rfl, Bool.true_or] at held
  exact Bool.false_ne_true held

theorem spelled_of_keepsOneKey (keepsOneKey : posts.KeepsOneKey context policy admitted) :
    posts.Spelled admitted := by
  intro id allowed eligible
  -- An approval puts the id as it is written, a change puts it as its record spells it.
  let approved : World := posts.synchronise context policy {} (.contentAuditPassed { id }, [])
  have heldApproved : ∀ key, (approved.index.get? key).isSome = decide (id = key) := fun key =>
    (isSome_synchronise_approved rfl eligible rfl key).trans (Bool.or_false _)
  have held : ∀ key, ((posts.synchronise context policy approved
      (.contentUpdated ⟨id⟩, [])).index.get? key).isSome =
        (decide (Command.spelling id = key) || decide (id = key)) := by
    intro key
    rw [isSome_synchronise_changed (failures_synchronise rfl) eligible, heldApproved]
  obtain ⟨record, found, _⟩ := posts.isEligible_iff.mp eligible
  obtain ⟨post, stored, _⟩ := Option.bind_eq_some_iff.mp found
  refine keepsOneKey {} [(.contentAuditPassed { id }, []), (.contentUpdated ⟨id⟩, [])] rfl ?_ _ _
    ((held _).trans (by simp)) ((held _).trans (by simp)) (posts.samePost_spelling stored)
  intro delivery member other settles
  have settlesId : delivery.1.settles? context = some id := by
    rcases List.mem_cons.mp member with rfl | last
    · rfl
    · rw [List.mem_singleton.mp last]
      rfl
  cases settlesId.symm.trans settles
  exact allowed

/-- Over any posts, removals reach what was put, and no run leaves a post with two keys, exactly
when the admitted ids of records that may be indexed are spelled as the records spell them. -/
theorem keepsOneKey_iff_spelled (posts : FixedPosts) (context : Context) (policy : RetryPolicy)
    (admitted : String → Prop) :
    (posts.TakesBack context policy admitted ↔ posts.Spelled admitted) ∧
      (posts.KeepsOneKey context policy admitted ↔ posts.Spelled admitted) :=
  ⟨⟨spelled_of_takesBack, takesBack_of_spelled⟩, ⟨spelled_of_keepsOneKey, keepsOneKey_of_spelled⟩⟩

end Keys

/-! ### A post whose id is a hexadecimal number -/

/-- A published post with an object identifier. -/
def hexadecimal : FixedPosts :=
  .ofList [[("_id", Command.identifier "6592008000000000abcdef00"), ("status", .int32 1)]]

/-- While every event names the post in lower case, removals reach it and it has one key. -/
theorem keepsOneKey_of_lowerCase :
    let admitted : String → Prop := fun id => id = "6592008000000000abcdef00"
    hexadecimal.isEligible "6592008000000000abcdef00" = true ∧
      hexadecimal.TakesBack .plain (.new 3 0) admitted ∧
      hexadecimal.KeepsOneKey .plain (.new 3 0) admitted := by
  intro admitted
  have spelled : hexadecimal.Spelled admitted := by
    rintro id rfl _
    decide +kernel
  obtain ⟨takesBack, keepsOneKey⟩ :=
    keepsOneKey_iff_spelled hexadecimal .plain (.new 3 0) admitted
  exact ⟨by decide +kernel, takesBack.mpr spelled, keepsOneKey.mpr spelled⟩

/-- Approved and changed under its id in upper case, a post is left with two keys; and a deletion
under that id leaves what a change has put. -/
theorem twoKeys_of_upperCase :
    let id := "6592008000000000ABCDEF00"
    let approved : Event × List Fault := (.contentAuditPassed { id }, [])
    let changed : Event × List Fault := (.contentUpdated ⟨id⟩, [])
    let deleted : Event × List Fault := (.contentDeleted { id }, [])
    ¬hexadecimal.OneKey
        (hexadecimal.synchroniseAll .plain (.new 1 0) {} [approved, changed]).index ∧
      ((hexadecimal.synchroniseAll .plain (.new 1 0) {} [changed, deleted]).index.get?
        "6592008000000000abcdef00").isSome = true := by
  intro id approved changed deleted
  have lowerCase : Command.spelling id = "6592008000000000abcdef00" := by decide +kernel
  refine ⟨fun oneKey => ?_, by decide +kernel⟩
  obtain ⟨post, found⟩ : ∃ post, hexadecimal.post? id = some post :=
    Option.isSome_iff_exists.mp (by decide +kernel)
  have different : Command.spelling id ≠ id := by
    rw [lowerCase]
    decide
  refine different (oneKey _ _ ?_ (by decide +kernel) (hexadecimal.samePost_spelling found))
  rw [lowerCase]
  decide +kernel

end FixedPosts

end DualStore
