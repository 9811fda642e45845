import DualStore.Proofs.Identity.LastWritten
import DualStore.Proofs.Memory.Service

/-!
Contract: propagation of identities step by step, as far as posts go.

Owns:
- which calls write posts, and the fact that all others leave them alone;
- the start of a handling: it writes the posts in its first call, or it never does.

Does not own: the other collections.
-/

namespace DualStore

open Memory Memory.World Memory.DocumentStore

/-- Whether a call writes the posts. -/
def Call.writesPosts : Call → Bool
  | .updateByUser collection _ _ _ | .deleteByUser collection _ _ => collection = .posts
  | _ => false

theorem Memory.World.post?_answer {command : Call} (spares : command.writesPosts = false)
    (world : World) (id : String) :
    (answer command world).2.store.post? id = world.store.post? id := by
  apply post?_congr
  cases command with
  | updateByUser collection field userId updates =>
      have distinct : collection ≠ .posts := of_decide_eq_false spares
      change (world.store.updateByUser collection field userId updates).2.documents .posts = _
      rw [documents_updateByUser, if_neg fun both => distinct both.1.symm]
  | deleteByUser collection field userId =>
      have distinct : collection ≠ .posts := of_decide_eq_false spares
      change (world.store.deleteByUser collection field userId).2.documents .posts = _
      rw [documents_deleteByUser, if_neg fun both => distinct both.1.symm]
  | insertAuditLog entry moment =>
      exact congrFun (documents_insertAuditLog entry moment.time) .posts
  | upsertSearchHistory userId keyword moment =>
      exact congrFun (documents_upsertSearchHistory keyword moment.time) .posts
  | _ => rfl

namespace UserPropagation

/-- What a handling does to the posts: it never writes them, as the event changes nothing, or it
writes them in its first call and never again. -/
theorem script_cases (context : Context) (event : Event) :
    ((script context event).Calls (·.writesPosts = false) ∧
      ∀ concerns, event.written context concerns = {}) ∨
    ∃ userId update rest, event.rewrite? context = some (userId, update) ∧
      script context event =
        .attempt (.updateByUser .posts postAuthor.userField userId (postAuthor.updates update))
          rest ∧
      rest.Calls (·.writesPosts = false) := by
  have elsewhere : ∀ place ∈ profileCopies.tail, decide (place.collection = .posts) = false := by
    decide
  have purgesElsewhere : ∀ place ∈ purged, decide (place.1 = .posts) = false := by decide
  cases event with
  | identityUpdated identity =>
      cases empty : (AuthorUpdate.ofIdentity identity).isEmpty with
      | true =>
          left
          refine ⟨?_, fun concerns => ?_⟩
          · rw [script, overwriteAll_of_isEmpty empty]
            exact trivial
          · rw [Event.written, Event.rewrite?, AuthorUpdate.eq_empty_of_isEmpty empty]
            exact ite_self _
      | false =>
          right
          refine ⟨identity.userId, .ofIdentity identity, _, rfl, overwriteAll_cons empty, ?_⟩
          exact calls_overwriteAll (fun place member => elsewhere place member) trivial
  | identityDeleted identity =>
      right
      refine ⟨identity.userId, context.placeholder.update, _, rfl, overwriteAll_cons rfl, ?_⟩
      refine calls_overwriteAll (fun place member => ?_) ?_
      · have other : place = commentAuthor ∨ place = commentReply := by simpa using member
        rcases other with rfl | rfl <;> rfl
      · exact calls_purgeAll (fun place member => purgesElsewhere place member) trivial
  | _ => exact Or.inl ⟨trivial, fun _ => rfl⟩

end UserPropagation

end DualStore
