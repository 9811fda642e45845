import DualStore.Proofs.Identity.Effect
import DualStore.Proofs.Memory.Session
import DualStore.Sync.Trace

/-!
Contract: the delivery of one identity event for propagation, whichever collections are down.

Owns:
- the trace of calls that are put to services one after the other;
- the report of such a delivery, its calls, and the world after it;
- what a deletion leaves of its user: nothing at the places that it purges, and placeholders at the
  others.

Does not own: what an event does to one document.
-/

namespace DualStore

open Memory Memory.World UserPropagation

section Traced

variable {σ : Type} (services : Services σ)

/-- A trace of calls that are put to services one after the other lists just these calls. -/
theorem answerAll_traced (calls : List Call) (state : Traced σ) :
    ((services.traced.answerAll calls state).calls.map (·.call) =
        state.calls.map (·.call) ++ calls) ∧
      (services.traced.answerAll calls state).inner = services.answerAll calls state.inner := by
  induction calls generalizing state with
  | nil => exact ⟨(List.append_nil _).symm, rfl⟩
  | cons call calls inductionHypothesis =>
      obtain ⟨traced, inner⟩ := inductionHypothesis (services.traced.answer call state).2
      refine ⟨?_, inner⟩
      change ((services.traced.answerAll calls _).calls.map (·.call) = _)
      rw [traced]
      simp [Services.traced]

end Traced

namespace IdentityEvent

/-- What a delivery of an identity event comes to: it is acknowledged after one attempt, all calls
of the event have been made, collections that are down are as they were, and the event has been
applied to all others. -/
structure Propagated (context : Context) (event : IdentityEvent) (world : World) (report : Report)
    (after : Traced World) : Prop where
  acknowledged : report.outcome = .ack
  once : report.attempts = 1 ∧ report.delays = []
  calls : after.calls.map (·.call) =
    updateCalls event.userId (event.update context) event.places ++
      purgeCalls event.userId event.removals
  down : ∀ collection, world.store.isDown collection = true →
    after.inner.store.documents collection = world.store.documents collection
  up : ∀ collection, world.store.isDown collection = false →
    after.inner.store.documents collection =
      ((world.store.documents collection).filter fun d => !event.removes collection d).map
        (event.rewrite context collection)
  elsewhere : ∃ documents operations,
    after.inner = { world with store := { world.store with documents, operations } }

/-- A world does not show a deleted user at a place where profiles are copied: documents that name
the user are there only where they are anonymised, and show the placeholder. -/
def Vanished (context : Context) (user : Int64) (place : Embedding) (world : World) : Prop :=
  ∀ d ∈ world.store.documents place.collection, d.names place.userField user = true →
    place ∈ anonymisedCopies ∧
      d.get? place.nicknameField = some (.text context.placeholder.nickname) ∧
      d.get? place.avatarField = some (.text context.placeholder.avatar)

section Deliveries

variable {context : Context} {event : IdentityEvent} {world : World} {user : Int64}

theorem propagated_process (policy : RetryPolicy) {envelope : Envelope}
    (carries : envelope.event? Route.userPropagation.accepts = some event.toEvent) :
    let processed := process (Route.userPropagation.handler context services.traced) policy envelope
      ⟨[], world⟩
    event.Propagated context world processed.1 processed.2 := by
  intro processed
  have replies : ∀ call state,
      ∃ result, (services.traced.answer call state).1 = .replied result := by
    intro call state
    obtain ⟨result, answered⟩ := answer_eq_replied call state.inner
    exact ⟨result, congrArg Prod.fst answered⟩
  have ran : (Route.userPropagation.handler context services.traced).handle event.toEvent
      ⟨[], world⟩ = (.finished (.ok ()),
        services.traced.answerAll (event.calls context) ⟨[], world⟩) := by
    change (UserPropagation.script context event.toEvent).run services.traced _ = _
    rw [script_eq_attempts, Script.run_attempts replies, callsOf_toEvent]
    rfl
  have handled : processed = _ := process_of_event?_eq_some carries
  rw [tryHandler_of_succeeds policy ran] at handled
  obtain ⟨made, inner⟩ := answerAll_traced services (event.calls context) ⟨[], world⟩
  have after : processed.2.inner = event.propagate context world := by
    rw [handled]
    exact inner
  constructor
  case acknowledged => rw [handled]; rfl
  case once => rw [handled]; exact ⟨rfl, rfl⟩
  case calls => rw [handled]; exact made
  case down =>
    intro collection down
    rw [after, documents_propagate, if_pos down]
  case up =>
    intro collection up
    rw [after, documents_propagate, if_neg (by rw [up]; decide)]
    rfl
  case elsewhere =>
    rw [after]
    exact event.propagate_eq context world

theorem absent_of_deleted {report : Report} {after : Traced World}
    (propagated : (deleted ⟨user⟩).Propagated context world report after)
    {place : Collection × String} (known : place ∈ purged)
    (up : world.store.isDown place.1 = false) : Absent user place after.inner := by
  intro d member
  rw [propagated.up _ up] at member
  obtain ⟨original, kept, rfl⟩ := List.mem_map.mp member
  rw [names_rewrite (purged_mem_userFields place known), Bool.eq_false_iff]
  intro named
  have goes : (deleted ⟨user⟩).removes place.1 original = true :=
    removes_deleted_iff.mpr ⟨place, known, rfl, named⟩
  have stays := (List.mem_filter.mp kept).2
  rw [goes] at stays
  cases stays

/-- Every place where profiles are copied is anonymised, or purged of the documents of a user. -/
theorem vanished_of_deleted {report : Report} {after : Traced World}
    (propagated : (deleted ⟨user⟩).Propagated context world report after) {place : Embedding}
    (known : place ∈ profileCopies) (up : world.store.isDown place.collection = false) :
    Vanished context user place after.inner := by
  have covered : ∀ place ∈ profileCopies,
      place ∈ anonymisedCopies ∨ (place.collection, place.userField) ∈ purged := by decide
  intro d member named
  rcases covered place known with anonymised | removed
  · rw [propagated.up _ up] at member
    obtain ⟨original, _, rfl⟩ := List.mem_map.mp member
    rw [names_rewrite (userField_mem_userFields place known)] at named
    have rewrites : (deleted ⟨user⟩).Rewrites context place.collection original _ :=
      rewrites_rewrite original
    have written := rewrites.written place anonymised rfl named
    exact ⟨anonymised, written (_, _) List.mem_cons_self,
      written (_, _) (List.mem_cons_of_mem _ List.mem_cons_self)⟩
  · have absent := absent_of_deleted propagated removed up d member
    rw [absent] at named
    cases named

/-- The delivery of an identity event, whichever collections are down: it is acknowledged after one
attempt, all its calls are made in order, and in each collection that is not down exactly the
documents that it removes are gone and exactly the fields that it supplies are set. A deletion
leaves its user at no place of such a collection, placeholders aside. -/
theorem propagated_exactly (context : Context) (policy : RetryPolicy) (world : World)
    (envelope : Envelope) (event : IdentityEvent)
    (carries : envelope.event? Route.userPropagation.accepts = some event.toEvent) :
    let processed := process (Route.userPropagation.handler context services.traced) policy envelope
      ⟨[], world⟩
    event.Propagated context world processed.1 processed.2 ∧
      (∀ collection d,
        event.Rewrites context collection d (event.rewrite context collection d)) ∧
      ∀ user, event = deleted ⟨user⟩ →
        (∀ place ∈ profileCopies, world.store.isDown place.collection = false →
          Vanished context user place processed.2.inner) ∧
        ∀ place ∈ purged, world.store.isDown place.1 = false →
          Absent user place processed.2.inner := by
  intro processed
  have propagated : event.Propagated context world processed.1 processed.2 :=
    propagated_process policy carries
  refine ⟨propagated, fun collection d => rewrites_rewrite d, ?_⟩
  rintro user rfl
  exact ⟨fun place known up => vanished_of_deleted propagated known up,
    fun place known up => absent_of_deleted propagated known up⟩

end Deliveries

/-- A user with a comment that answers the user's own, a follow in each direction beside one of
others, and a notification in a collection that is down. -/
def acquainted : World :=
  { store :=
      { documents := fun collection =>
          match collection with
          | .comments =>
              [⟨[("userId", .number (.whole 7)), ("replyToUserId", .number (.whole 7)),
                ("userNickname", .text "Ann"), ("likeCount", .number (.whole 3))]⟩,
               ⟨[("userId", .number (.whole 8)), ("replyToUserId", .number (.whole 7)),
                ("userNickname", .text "Ben")]⟩]
          | .userFollows =>
              [⟨[("userId", .number (.whole 7)), ("targetUserId", .number (.whole 8))]⟩,
               ⟨[("userId", .number (.whole 9)), ("targetUserId", .number (.whole 8))]⟩,
               ⟨[("userId", .number (.whole 8)), ("targetUserId", .number (.whole 7))]⟩]
          | .notifications => [⟨[("senderId", .number (.whole 7))]⟩]
          | _ => []
        failing := fun collection => collection = .notifications } }

/-- The user is deleted: both copies in the user's own comment and the copy in the other one show
the placeholder, the user's follows are gone, and the notification is as it was. -/
theorem propagated_acquainted :
    let envelope : Envelope := .carrying (.identityDeleted ⟨7⟩)
    let after := (process (Route.userPropagation.handler .plain services.traced) (.new 1 0) envelope
      ⟨[], acquainted⟩).2.inner
    envelope.event? Route.userPropagation.accepts = some (deleted ⟨7⟩).toEvent ∧
      after.store.documents .comments =
        [⟨[("userId", .number (.whole 7)), ("replyToUserId", .number (.whole 7)),
          ("userNickname", .text "Deleted User"), ("likeCount", .number (.whole 3)),
          ("userAvatar", .text "/static/avatar/deleted.png"),
          ("replyToUserNickname", .text "Deleted User"),
          ("replyToUserAvatar", .text "/static/avatar/deleted.png")]⟩,
         ⟨[("userId", .number (.whole 8)), ("replyToUserId", .number (.whole 7)),
          ("userNickname", .text "Ben"), ("replyToUserNickname", .text "Deleted User"),
          ("replyToUserAvatar", .text "/static/avatar/deleted.png")]⟩] ∧
      after.store.documents .userFollows =
        [⟨[("userId", .number (.whole 9)), ("targetUserId", .number (.whole 8))]⟩] ∧
      after.store.documents .notifications = [⟨[("senderId", .number (.whole 7))]⟩] := by
  intro envelope after
  have carries : envelope.event? Route.userPropagation.accepts = some (deleted ⟨7⟩).toEvent := by
    decide +kernel
  obtain ⟨propagated, _, _⟩ :=
    propagated_exactly .plain (.new 1 0) acquainted envelope (deleted ⟨7⟩) carries
  exact ⟨carries, (propagated.up .comments rfl).trans rfl, (propagated.up .userFollows rfl).trans rfl,
    propagated.down .notifications rfl⟩

end IdentityEvent

end DualStore
