import DualStore.Proofs.Identity.Effect
import DualStore.Proofs.Memory.Alike
import DualStore.Proofs.Memory.Session

/-!
Contract: an event that is handled twice in a row.

Owns:
- scripts that the document store determines: while no call to the index is to fail, they end
  with one result after at most one call to the index; those of index synchronisation are of this
  kind;
- the documents of a collection after the calls of one identity event have been made twice;
- from this, the second handling of an event on either route: it ends as the first one did, and
  changes neither a document nor the index.

Does not own: handlings with others in between.
-/

namespace DualStore

open Memory Memory.World UserPropagation

/-! ## Index synchronisation -/

namespace Script

/-- Whatever the index holds, while none of its calls is to fail, the script ends with one result
after at most one call to it. -/
def Determined (store : DocumentStore) (script : Script) : Prop :=
  ∃ result, ∃ call? : Option Call, (∀ call ∈ call?, call.isIndexCall = true) ∧
    ∀ world : World, world.store = store → world.index.failures = 0 →
      script.run services world = (result, world.answerAll call?.toList)

variable {store : DocumentStore}

theorem determined_done : done.Determined store :=
  ⟨.finished (.ok ()), none, (fun _ absent => by cases absent), fun _ _ _ => rfl⟩

theorem determined_call {command : Call} (toIndex : command.isIndexCall = true) :
    (call command fun _ => done).Determined store := by
  refine ⟨.finished (.ok ()), some command, fun _ same => ?_, fun world _ quiet => ?_⟩
  · cases same
    exact toIndex
  · obtain ⟨⟨reply, replied⟩, _⟩ := answer_index_of_quiet quiet toIndex
    have answered : services.answer command world =
        (.replied (.ok reply), (answer command world).2) := Prod.ext replied rfl
    rw [call, run, answered]
    rfl

/-- A lookup is answered alike on all worlds with one document store. -/
theorem determined_lookup {id : String} {next : Option ContentRecord → Script}
    (determined : ∀ reply, (next reply).Determined store) :
    (call (.findContent id) next).Determined store := by
  have looked : ∀ world : World, world.store = store →
      services.answer (.findContent id) world =
        (.replied ((store.findContent id).mapError .store), world) := by
    rintro world rfl
    rfl
  cases found : store.findContent id with
  | error error =>
      refine ⟨.finished (.error (.store error)), none, (fun _ absent => by cases absent),
        fun world same _ => ?_⟩
      rw [call, run, looked world same, found]
      rfl
  | ok reply =>
      obtain ⟨result, call?, toIndex, ran⟩ := determined reply
      refine ⟨result, call?, toIndex, fun world same quiet => ?_⟩
      rw [call, run, looked world same, found]
      exact ran world same quiet

end Script

theorem IndexSync.determined_script (store : DocumentStore) (context : Context) (event : Event) :
    (IndexSync.script context event).Determined store :=
  script_rule Script.determined_done Script.determined_call Script.determined_lookup context event

/-- A call to the index that is made again changes nothing but the count of calls. -/
theorem Memory.World.answer_again {world : World} (quiet : world.index.failures = 0)
    {command : Call} (toIndex : command.isIndexCall = true) :
    let once := (answer command world).2
    (answer command once).2.store = once.store ∧
      (answer command once).2.index.documents = once.index.documents := by
  intro once
  refine ⟨store_answer_of_synchronises (Or.inl toIndex), ?_⟩
  have stillQuiet : once.index.failures = 0 := failures_answer_of_quiet quiet command
  rw [(answer_index_of_quiet stillQuiet toIndex).2, (answer_index_of_quiet quiet toIndex).2]
  exact documents_carriedOut_again command world.index.counted

/-- A script that is determined so, run again where it has ended. -/
theorem Script.Determined.again {world : World} {script : Script}
    (determined : script.Determined world.store) (quiet : world.index.failures = 0) :
    let once := script.run services world
    let twice := script.run services once.2
    twice.1 = once.1 ∧ twice.2.store = once.2.store ∧
      twice.2.index.documents = once.2.index.documents := by
  obtain ⟨result, call?, toIndex, ran⟩ := determined
  intro once twice
  have first : once = (result, world.answerAll call?.toList) := ran world rfl quiet
  have ended := congrArg Prod.snd first
  cases call? with
  | none =>
      have second : twice = (result, once.2) :=
        ran once.2 (congrArg World.store ended) (by rw [ended]; exact quiet)
      rw [second, first]
      exact ⟨rfl, rfl, rfl⟩
  | some command =>
      have isIndexCall := toIndex command rfl
      have sameStore : once.2.store = world.store := by
        rw [ended]
        exact store_answer_of_synchronises (Or.inl isIndexCall)
      have stillQuiet : once.2.index.failures = 0 := by
        rw [ended]
        exact failures_answer_of_quiet quiet command
      have second : twice = (result, (answer command once.2).2) := ran once.2 sameStore stillQuiet
      rw [second, first]
      exact ⟨rfl, answer_again quiet isIndexCall⟩

/-! ## Propagation -/

namespace IdentityEvent

variable {context : Context} {collection : Collection} {event : IdentityEvent}

/-- An event that is applied again removes nothing more, and leaves documents that are alike. -/
theorem applied_again (documents : List Document) :
    (event.applied context collection (event.applied context collection documents)).map
        Document.get? =
      (event.applied context collection documents).map Document.get? := by
  rw [applied_applied, applied, List.map_map, List.map_map]
  simp only [Bool.and_self]
  refine List.map_congr_left fun d _ => ?_
  rw [Function.comp_apply, rewrite_rewrite]
  exact Document.alike_setTexts_setTexts _ d

theorem alike_propagate_again (world : World) :
    (event.propagate context (event.propagate context world)).store.Alike
      (event.propagate context world).store where
  documents := by
    intro collection
    rw [documents_propagate, isDown_propagate]
    split
    · rfl
    · rename_i up
      rw [documents_propagate, if_neg up]
      exact applied_again _
  auditLog := event.auditLog_propagate context _
  history := event.history_propagate context _
  isDown := event.isDown_propagate context _

end IdentityEvent

theorem UserPropagation.alike_answerAll_again (world : World) (context : Context) (event : Event) :
    let once := world.answerAll (callsOf context event)
    let twice := once.answerAll (callsOf context event)
    twice.store.Alike once.store ∧ twice.index = once.index := by
  have again : ∀ identity : IdentityEvent,
      let once := world.answerAll (callsOf context identity.toEvent)
      let twice := once.answerAll (callsOf context identity.toEvent)
      twice.store.Alike once.store ∧ twice.index = once.index := by
    intro identity
    rw [IdentityEvent.callsOf_toEvent]
    exact ⟨identity.alike_propagate_again world, identity.index_propagate context _⟩
  cases event with
  | identityUpdated identity => exact again (.updated identity)
  | identityDeleted identity => exact again (.deleted identity)
  | _ => exact ⟨.refl _, rfl⟩

/-! ## Both routes -/

/-- An event that is handled again, for index synchronisation while no call to the index is to fail
or for propagation, ends as before, and leaves every document and the index as they are. -/
theorem handle_again (context : Context) (event : Event) (world : World) {route : Route}
    (handled : route = .indexSync ∨ route = .userPropagation)
    (quiet : route = .indexSync → world.index.failures = 0) :
    let handle := (route.handler context services).handle event
    let once := handle world
    let twice := handle once.2
    twice.1 = once.1 ∧ twice.2.store.Alike once.2.store ∧
      twice.2.index.documents = once.2.index.documents := by
  intro handle once twice
  rcases handled with rfl | rfl
  · obtain ⟨sameResult, sameStore, sameIndex⟩ :=
      (IndexSync.determined_script world.store context event).again (quiet rfl)
    refine ⟨sameResult, ?_, sameIndex⟩
    have store : twice.2.store = once.2.store := sameStore
    rw [store]
    exact .refl _
  · have first : once = (.finished (.ok ()), world.answerAll (callsOf context event)) :=
      UserPropagation.run_script world context event
    have second : twice = (.finished (.ok ()), once.2.answerAll (callsOf context event)) :=
      UserPropagation.run_script once.2 context event
    obtain ⟨alike, sameIndex⟩ := alike_answerAll_again world context event
    rw [second, first]
    exact ⟨rfl, alike, congrArg SearchIndex.documents sameIndex⟩

/-- A post whose record is read back: the second handling finds what the first one put. -/
theorem handle_again_authored :
    let handle := (Route.indexSync.handler .plain services).handle (.contentUpdated ⟨"p"⟩)
    let twice := handle (handle World.authored).2
    (Route.indexSync = .indexSync ∨ Route.indexSync = .userPropagation) ∧
      (Route.indexSync = .indexSync → World.authored.index.failures = 0) ∧
      twice.1 = .finished (.ok ()) ∧
      twice.2.index.documents =
        [{ id := "p", userId := 7, userNickname := "Ann", createdAt := none }] := by
  intro handle twice
  have handled : Route.indexSync = .indexSync ∨ Route.indexSync = .userPropagation := Or.inl rfl
  have quiet : Route.indexSync = .indexSync → World.authored.index.failures = 0 := fun _ => rfl
  obtain ⟨sameResult, _, sameDocuments⟩ :=
    handle_again .plain (.contentUpdated ⟨"p"⟩) World.authored handled quiet
  exact ⟨handled, quiet, sameResult.trans rfl, sameDocuments.trans rfl⟩

end DualStore
