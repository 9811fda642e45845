import DualStore.Proofs.Delivery.Process
import DualStore.Proofs.Memory.Service
import DualStore.Proofs.Memory.Session

/-!
Contract: the index holds only content that may be indexed.

Owns:
- the events that settle an id: content events, and not new content that waits for its approval;
- soundness of one id: it is in the index only while its record may be indexed. Every handling on
  every route keeps it, and an acknowledged event that settles the id establishes it;
- the same for whole runs: soundness holds from an acknowledged settling event up to the next post
  put under that id, whatever else occurs.

Does not own: what the indexed document says.
-/

namespace DualStore

/-- The id that an event settles: the index is brought in line with its record. -/
def Event.settles? (context : Context) : Event → Option String
  | .contentCreated created => if context.auditRequired then none else some created.id
  | .contentAuditPassed created => some created.id
  | .contentUpdated updated => some updated.id
  | .contentDeleted deleted => some deleted.id
  | _ => none

namespace Memory.World

open SearchIndex DocumentStore

/-- An id is in the index only while its record may be indexed. -/
def Sound (id : String) (world : World) : Prop :=
  (world.index.get? id).isSome = true → world.store.isEligible id = true

theorem Sound.congr {id : String} {world other : World} (sound : world.Sound id)
    (index : other.index.get? id = world.index.get? id)
    (store : other.store.isEligible id = world.store.isEligible id) : other.Sound id := by
  unfold Sound
  rw [index, store]
  exact sound

/-! ## One handling of index synchronisation -/

section Synchronising

variable (id : String)

/-- A run that keeps an id sound, and makes it sound when it succeeds and settles the id. -/
def Settles (settled : Option String) (state : Scheduled World)
    (ran : Run × Scheduled World) : Prop :=
  (state.inner.Sound id → ran.2.inner.Sound id) ∧
    (ran.1 = .finished (.ok ()) → settled = some id → ran.2.inner.Sound id)

theorem settles_remove (removed : String) (state : Scheduled World) :
    Settles id (some removed) state ((IndexSync.remove removed).run services.scheduled state) := by
  obtain ⟨store, effect⟩ := run_indexCall (.deleteDocument removed) rfl state
  have sameStore := congrArg (·.isEligible id) store
  rcases effect with ⟨failed, kept⟩ | carried
  · exact ⟨fun sound => sound.congr (kept id) sameStore, fun succeeded => absurd succeeded failed⟩
  · have erased := carried id
    rw [carriedOut, get?_erase] at erased
    by_cases same : removed = id
    · have gone : Sound id ((IndexSync.remove removed).run services.scheduled state).2.inner := by
        intro held
        rw [if_pos same] at erased
        rw [show (((IndexSync.remove removed).run services.scheduled state).2.inner.index.get? id)
          = none from erased] at held
        cases held
      exact ⟨fun _ => gone, fun _ _ => gone⟩
    · rw [if_neg same] at erased
      refine ⟨fun sound => sound.congr erased sameStore, fun _ settled => ?_⟩
      exact absurd (Option.some.inj settled) same

theorem settles_put {document : IndexDocument} {state : Scheduled World}
    (eligible : state.inner.store.isEligible document.id = true) :
    Settles id (some document.id) state
      ((IndexSync.put document).run services.scheduled state) := by
  obtain ⟨store, effect⟩ := run_indexCall (.upsertDocument document) rfl state
  have sameStore := congrArg (·.isEligible id) store
  have soundAtId : document.id = id →
      Sound id ((IndexSync.put document).run services.scheduled state).2.inner := by
    intro same _
    rw [same] at eligible
    exact sameStore.trans eligible
  refine ⟨fun sound => ?_, fun _ settled => soundAtId (Option.some.inj settled)⟩
  by_cases same : document.id = id
  · exact soundAtId same
  · rcases effect with ⟨_, kept⟩ | carried
    · exact sound.congr (kept id) sameStore
    · have other := carried id
      rw [carriedOut, get?_put, if_neg same] at other
      exact sound.congr other sameStore

/-- Reading a record back and acting on it settles its id, for any projection that keeps the id. -/
theorem settles_reconcileWith (read : String) (project : ContentRecord → IndexDocument)
    (keepsId : ∀ record, record.id = read → (project record).id = read)
    (state : Scheduled World) :
    Settles id (some read) state
      ((IndexSync.reconcileWith read project).run services.scheduled state) := by
  rcases run_reconcileWith read project state with ⟨failed, kept⟩ | ⟨after, same, goesOn⟩
  · unfold Settles
    rw [kept]
    exact ⟨fun sound => sound, fun succeeded => absurd succeeded failed⟩
  · -- The record read is still the current one: nothing happens between the lookup and the write.
    have settles : Settles id (some read) after ((IndexSync.onRecord read project
        (state.inner.store.content? read)).run services.scheduled after) := by
      cases found : state.inner.store.content? read with
      | none => exact settles_remove id read after
      | some record =>
          rw [IndexSync.onRecord]
          split
          · rename_i indexable
            have sameId := keepsId record (id_of_content? found)
            have eligible : after.inner.store.isEligible (project record).id = true := by
              rw [sameId, same]
              exact isEligible_iff.mpr ⟨record, found, indexable⟩
            have settled := settles_put id eligible
            rw [sameId] at settled
            exact settled
          · exact settles_remove id read after
    rw [goesOn]
    unfold Settles at settles ⊢
    rw [same] at settles
    exact settles

theorem settles_overwriteAuthor (userId : Int64) (update : AuthorUpdate)
    (state : Scheduled World) :
    Settles id none state
      ((IndexSync.overwriteAuthor userId update).run services.scheduled state) := by
  refine ⟨fun sound => ?_, fun _ settled => by cases settled⟩
  unfold IndexSync.overwriteAuthor
  split
  · exact sound
  · obtain ⟨store, effect⟩ := run_indexCall (.updateAuthor userId update) rfl state
    have sameStore := congrArg (·.isEligible id) store
    rcases effect with ⟨_, kept⟩ | carried
    · exact sound.congr (kept id) sameStore
    · intro held
      have overwritten := carried id
      rw [carriedOut, get?_overwriteAuthor] at overwritten
      rw [overwritten, Option.isSome_map] at held
      exact sameStore.trans (sound held)

/-- Handling an event on the route of index synchronisation settles the id of the event. -/
theorem settles_script (context : Context) (event : Event) (state : Scheduled World) :
    Settles id (event.settles? context) state
      ((IndexSync.script context event).run services.scheduled state) := by
  cases event with
  | contentCreated created =>
      rw [IndexSync.script, Event.settles?]
      split
      · exact ⟨fun sound => sound, fun _ settled => by cases settled⟩
      · exact settles_reconcileWith id created.id _ (fun _ _ => rfl) state
  | contentAuditPassed created =>
      exact settles_reconcileWith id created.id _ (fun _ _ => rfl) state
  | contentUpdated updated =>
      exact settles_reconcileWith id updated.id _ (fun _ same => same) state
  | contentDeleted deleted => exact settles_remove id deleted.id state
  | identityUpdated identity => exact settles_overwriteAuthor id _ _ state
  | identityDeleted identity => exact settles_overwriteAuthor id _ _ state
  | auditLogEntry entry => exact ⟨fun sound => sound, fun _ settled => by cases settled⟩
  | searchQueryIssued query => exact ⟨fun sound => sound, fun _ settled => by cases settled⟩

end Synchronising

/-! ## Every occurrence -/

section Occurrences

variable {id : String} {context : Context} {policy : RetryPolicy}

/-- Propagation writes neither ids nor what eligibility is read from, and removes no posts. -/
theorem sound_answer_of_propagates {command : Call} (propagates : command.Propagates)
    {world : World} (sound : world.Sound id) : (answer command world).2.Sound id := by
  cases propagates with
  | update place userId update known =>
      have untouched : ∀ key ∈ ["_id", "status", "isDeleted"],
          key ∉ (place.updates update).map (·.1) := by
        have apart : ∀ place ∈ UserPropagation.profileCopies,
            ∀ key ∈ ["_id", "status", "isDeleted"],
              key ≠ place.nicknameField ∧ key ≠ place.avatarField := by decide
        intro key listed
        obtain ⟨nickname, avatar⟩ := apart place known key listed
        exact UserPropagation.not_mem_keys_updates update nickname avatar
      refine sound.congr rfl ?_
      exact isEligible_updateByUser id (untouched "_id" (by simp)) (untouched "status" (by simp))
        (untouched "isDeleted" (by simp))
  | purge place userId known =>
      have apart : ∀ place ∈ UserPropagation.purged, place.1 ≠ .posts := by decide
      exact sound.congr rfl (isEligible_congr (post?_deleteByUser_of_ne (apart place known) id))

theorem sound_answer_of_records {command : Call} (records : command.Records)
    {world : World} (sound : world.Sound id) : (answer command world).2.Sound id := by
  cases records with
  | access entry moment =>
      exact sound.congr rfl (isEligible_congr
        (post?_congr (congrFun (documents_insertAuditLog entry moment.time) .posts) id))
  | query userId keyword moment =>
      exact sound.congr rfl (isEligible_congr
        (post?_congr (congrFun (documents_upsertSearchHistory keyword moment.time) .posts) id))

theorem sound_clock {world : World} (sound : world.Sound id) : (services.clock world).2.Sound id :=
  sound

/-- Every handling on every route keeps an id sound, whatever faults are in the way. -/
theorem sound_handle (route : Route) (event : Event) {state : Scheduled World}
    (sound : state.inner.Sound id) :
    ((route.handler context services.scheduled).handle event state).2.inner.Sound id := by
  cases route with
  | indexSync => exact (settles_script id context event state).1 sound
  | userPropagation =>
      exact run_scheduled_keeps services (Sound id) (fun _ _ => fun writes sound =>
          sound_answer_of_propagates writes sound) (fun _ => sound_clock)
        (UserPropagation.calls_script context event) sound
  | auditLog =>
      exact run_scheduled_keeps services (Sound id) (fun _ _ => fun writes sound =>
          sound_answer_of_records writes sound) (fun _ => sound_clock)
        (AuditLog.calls_script context event) sound
  | searchHistory =>
      exact run_scheduled_keeps services (Sound id) (fun _ _ => fun writes sound =>
          sound_answer_of_records writes sound) (fun _ => sound_clock)
        (SearchHistory.calls_script context event) sound

/-- An acknowledged delivery of an event that settles an id makes it sound. -/
theorem sound_deliver {envelope : Envelope} {faults : List Fault} {world : World} {event : Event}
    (carries : envelope.event? Route.indexSync.accepts = some event)
    (settles : event.settles? context = some id)
    (acknowledged : (deliver context policy .indexSync envelope faults world).1.outcome = .ack) :
    (deliver context policy .indexSync envelope faults world).2.Sound id := by
  -- Earlier attempts may have failed half way; only the last one counts.
  obtain ⟨last, _, ended⟩ := process_acknowledged
    (Route.indexSync.handler context services.scheduled) (fun _ => True) carries
    (fun _ _ => trivial) trivial acknowledged
  have settled := (settles_script id context event last).2
  change (IndexSync.script context event).run services.scheduled last = _ at ended
  rw [ended] at settled
  exact settled rfl settles

theorem sound_occur {occurrence : Occurrence} {world : World}
    (unchanged : occurrence.puts id = false) (sound : world.Sound id) :
    (world.occur context policy occurrence).Sound id := by
  cases occurrence with
  | putPost post => exact sound.congr rfl (isEligible_congr (post?_putPost_of_ne unchanged))
  | deliver route envelope faults =>
      exact process_keeps (fun state : Scheduled World => state.inner.Sound id)
        (fun event _ => sound_handle route event) sound
  | failCollection collection => exact sound
  | failEverything fails => exact sound
  | shutDown => exact sound
  | failIndex count => exact sound

theorem sound_after {occurrences : List Occurrence} {world : World}
    (unchanged : ∀ occurrence ∈ occurrences, occurrence.puts id = false)
    (sound : world.Sound id) : (world.after context policy occurrences).Sound id := by
  induction occurrences generalizing world with
  | nil => exact sound
  | cons occurrence occurrences inductionHypothesis =>
      exact inductionHypothesis (fun later member => unchanged later (by simp [member]))
        (sound_occur (unchanged occurrence (by simp)) sound)

/-- Once a settling event has been acknowledged, and until the next post is put under its id, the
index holds the id only while the record that a lookup finds may be indexed. -/
theorem eligible_of_indexed (start : World) (before later : List Occurrence) (envelope : Envelope)
    (faults : List Fault) (event : Event)
    (carries : envelope.event? Route.indexSync.accepts = some event)
    (settles : event.settles? context = some id)
    (acknowledged : (deliver context policy .indexSync envelope faults
      (start.after context policy before)).1.outcome = .ack)
    (unchanged : ∀ occurrence ∈ later, occurrence.puts id = false)
    (indexed : ((start.after context policy
      (before ++ .deliver .indexSync envelope faults :: later)).index.get? id).isSome = true) :
    let store := (start.after context policy
      (before ++ .deliver .indexSync envelope faults :: later)).store
    ∃ record, store.content? id = some record ∧ record.isIndexable = true ∧
      (store.isDown .posts = false → store.findContent id = .ok (some record)) := by
  intro store
  have split : start.after context policy (before ++ .deliver .indexSync envelope faults :: later) =
      (deliver context policy .indexSync envelope faults
        (start.after context policy before)).2.after context policy later := by
    unfold after
    rw [List.foldl_append, List.foldl_cons]
    rfl
  have sound : (start.after context policy
      (before ++ .deliver .indexSync envelope faults :: later)).Sound id := by
    rw [split]
    exact sound_after unchanged (sound_deliver carries settles acknowledged)
  obtain ⟨record, found, indexable⟩ := isEligible_iff.mp (sound indexed)
  refine ⟨record, found, indexable, fun up => ?_⟩
  rw [findContent_eq, if_neg (by rw [up]; decide)]
  exact congrArg Except.ok found

/-- A changed post is indexed at the second attempt, and its deletion fails for good: the post is
still in the index, and its record may still be indexed. -/
theorem eligible_of_indexed_published :
    let update := Occurrence.deliver .indexSync (.carrying (.contentUpdated ⟨"p"⟩))
      [.fail (.store (.unavailable "lost"))]
    let deletion := Occurrence.deliver .indexSync (.carrying (.contentDeleted ⟨"p", none⟩)) []
    let final := World.after .plain (.new 2 0) {}
      ([.putPost (.published "p")] ++ update :: [.failIndex 2, deletion])
    (final.index.get? "p").isSome = true ∧
      ∃ record, final.store.content? "p" = some record ∧ record.isIndexable = true ∧
        (final.store.isDown .posts = false → final.store.findContent "p" = .ok (some record)) := by
  intro update deletion final
  have indexed : (final.index.get? "p").isSome = true := by decide +kernel
  have carries : (Envelope.carrying (.contentUpdated ⟨"p"⟩)).event? Route.indexSync.accepts =
      some (.contentUpdated ⟨"p"⟩) := by decide +kernel
  have acknowledged : (deliver .plain (.new 2 0) .indexSync (.carrying (.contentUpdated ⟨"p"⟩))
      [.fail (.store (.unavailable "lost"))]
      (World.after .plain (.new 2 0) {} [.putPost (.published "p")])).1.outcome = .ack := by
    decide +kernel
  have unchanged : ∀ occurrence ∈ [.failIndex 2, deletion], occurrence.puts "p" = false := by
    simp [deletion, Occurrence.puts]
  exact ⟨indexed, eligible_of_indexed {} [.putPost (.published "p")] [.failIndex 2, deletion] _ _ _
    carries rfl acknowledged unchanged indexed⟩

end Occurrences

end Memory.World

end DualStore
