import DualStore.Proofs.Delivery.Process
import DualStore.Proofs.Identity.Propagation
import DualStore.Proofs.Memory.Session

/-!
Contract: what is left of a deleted identity, in whatever order identity events are handled.

Owns:
- deliveries of identity events that are handled without faults, on every route;
- what a list of them does: copies are written over by the last events of their user, and data that
  a deletion removes stays removed;
- from this, exactly when all copies of a deleted identity are anonymous in the end, and deliveries
  after which they are not.

Does not own: content events, which copy an identity anew.
-/

namespace DualStore

open Memory Memory.World Memory.SearchIndex Memory.DocumentStore UserPropagation

/-! ## One delivery -/

/-- While nothing fails, writing author fields over in the index succeeds, and touches nothing
else. -/
theorem IndexSync.run_overwriteAuthor {world : World} (up : world.IsUp) {context : Context}
    {event : Event} {userId : Int64} {update : AuthorUpdate}
    (carries : event.rewrite? context = some (userId, update)) :
    ∃ after, (overwriteAuthor userId update).run services world = (.finished (.ok ()), after) ∧
      after.IsUp ∧ after.store = world.store ∧
      after.index.documents = world.index.documents.map fun d =>
        (event.written context d.concerns).apply d := by
  simp only [← overwritten_eq_written carries]
  unfold overwriteAuthor
  split
  · rename_i empty
    refine ⟨world, rfl, up, rfl, ?_⟩
    have nothing : overwritten userId update = fun d => d := by
      funext d
      rw [AuthorUpdate.eq_empty_of_isEmpty empty, overwritten]
      exact ite_self d
    exact (by rw [nothing, List.map_id'] :
      world.index.documents = world.index.documents.map (overwritten userId update))
  · have toIndex : (Call.updateAuthor userId update).isIndexCall = true := rfl
    refine ⟨_, up.run_call (.updateAuthor userId update), (up.answered _).2,
      store_answer_of_synchronises (Or.inl toIndex), ?_⟩
    rw [(up.answer_index toIndex).2]
    rfl

namespace Memory

/-- A delivery of an identity event, or of no event at all, without faults in its way. -/
inductive Occurrence.DeliversIdentity (context : Context) : Occurrence → Prop where
  | deliver (route : Route) (envelope : Envelope) :
      (∀ event, envelope.event? route.accepts = some event →
        (event.rewrite? context).isSome = true) →
      DeliversIdentity context (.deliver route envelope [])

def Occurrence.delivered? (route : Route) : Occurrence → Option Event
  | .deliver taken envelope _ => if taken = route then envelope.event? route.accepts else none
  | _ => none

def delivered (route : Route) (occurrences : List Occurrence) : List Event :=
  occurrences.filterMap (·.delivered? route)

namespace World

variable {context : Context} {policy : RetryPolicy} {route : Route} {envelope : Envelope}
  {world : World}

/-! ## Lists of deliveries -/

/-- A world after events have been handled on the two routes that identities take. -/
structure Rewritten (context : Context) (start : World) (propagated synchronised : List Event)
    (world : World) : Prop where
  up : world.IsUp
  copies : ∀ place ∈ anonymisedCopies,
    place.Rewritten (fun concerns => lastWritten context concerns propagated)
      (start.store.documents place.collection) (world.store.documents place.collection)
  index : world.index.documents = start.index.documents.map fun d =>
    (lastWritten context d.concerns synchronised).apply d
  gone : ∀ user, .identityDeleted ⟨user⟩ ∈ propagated → ∀ place ∈ purged, Absent user place world

theorem rewritten_start (up : world.IsUp) : Rewritten context world [] [] world where
  up := up
  copies := fun place _ => .refl place _
  index := (List.map_id' _).symm
  gone := by
    intro user member
    cases member

theorem lastWritten_concat (context : Context) (concerns : Int64 → Bool) (events : List Event)
    (event : Event) :
    lastWritten context concerns (events ++ [event]) =
      (event.written context concerns).atop (lastWritten context concerns events) := by
  rw [lastWritten_append, lastWritten, lastWritten, AuthorUpdate.empty_atop]

section Delivered

variable {start : World} {propagated synchronised : List Event} {event : Event}

theorem Rewritten.propagates (rewritten : Rewritten context start propagated synchronised world) :
    Rewritten context start (propagated ++ [event]) synchronised
      (world.answerAll (callsOf context event)) where
  up := rewritten.up.answerAll _
  copies := by
    intro place anonymised
    simp only [lastWritten_concat]
    exact (rewritten.copies place anonymised).trans
      (rewritten_callsOf rewritten.up context event anonymised)
  index := by
    obtain ⟨documents, operations, ended⟩ :=
      answerAll_of_propagates world (propagates_callsOf context event)
    rw [ended]
    exact rewritten.index
  gone := by
    intro user member place known
    rcases List.mem_append.mp member with earlier | here
    · exact answerAll_keeps (Absent user place)
        (fun call listed _ absent =>
          absent.answered known (propagates_callsOf context event call listed))
        (rewritten.gone user earlier place known)
    · obtain rfl := List.mem_singleton.mp here
      refine absent_answerAll rewritten.up known (propagates_callsOf context _) ?_
      rw [callsOf]
      exact List.mem_append_right _ (List.mem_map.mpr ⟨place, known, rfl⟩)

theorem Rewritten.synchronises (rewritten : Rewritten context start propagated synchronised world)
    (isIdentity : (event.rewrite? context).isSome = true) :
    ∃ after, (IndexSync.script context event).run services world = (.finished (.ok ()), after) ∧
      Rewritten context start propagated (synchronised ++ [event]) after := by
  obtain ⟨⟨userId, update⟩, carries⟩ := Option.isSome_iff_exists.mp isIdentity
  have script : IndexSync.script context event = IndexSync.overwriteAuthor userId update := by
    cases event with
    | identityUpdated identity =>
        cases carries
        rfl
    | identityDeleted identity =>
        cases carries
        rfl
    | _ => cases carries
  obtain ⟨after, ran, up, store, documents⟩ :=
    IndexSync.run_overwriteAuthor rewritten.up carries
  refine ⟨after, by rw [script, ran], up, ?_, ?_, ?_⟩
  · rw [store]
    exact rewritten.copies
  · rw [documents, rewritten.index, List.map_map]
    congr 1
    funext d
    rw [lastWritten_concat, AuthorUpdate.apply_atop]
    rfl
  · intro user member place known
    unfold Absent
    rw [store]
    exact rewritten.gone user member place known

/-- Identities are none of the business of the two logs. -/
theorem run_script_of_log (isIdentity : (event.rewrite? context).isSome = true)
    (isLog : route = .auditLog ∨ route = .searchHistory) :
    (route.script context event).run services world = (.finished (.ok ()), world) := by
  rcases isLog with rfl | rfl
  · cases event with
    | auditLogEntry entry => cases isIdentity
    | _ => rfl
  · cases event with
    | searchQueryIssued query => cases isIdentity
    | _ => rfl

theorem Rewritten.occur (rewritten : Rewritten context start propagated synchronised world)
    {occurrence : Occurrence} (delivers : occurrence.DeliversIdentity context) :
    Rewritten context start
      (propagated ++ (occurrence.delivered? .userPropagation).toList)
      (synchronised ++ (occurrence.delivered? .indexSync).toList)
      (world.occur context policy occurrence) := by
  obtain ⟨route, envelope, identity⟩ := delivers
  change Rewritten context start _ _ (deliver context policy route envelope [] world).2
  cases carries : envelope.event? route.accepts with
  | none =>
      rw [(deliver_of_event?_eq_none carries []).2]
      cases route <;> simpa [Occurrence.delivered?, carries] using rewritten
  | some event =>
      have isIdentity := identity event carries
      cases route with
      | userPropagation =>
          rw [(deliver_of_succeeds carries (UserPropagation.run_script world context event)).2]
          have handled : Rewritten context start (propagated ++ [event]) synchronised _ :=
            rewritten.propagates
          simpa [Occurrence.delivered?, carries] using handled
      | indexSync =>
          obtain ⟨after, succeeds, handled⟩ := rewritten.synchronises isIdentity
          rw [(deliver_of_succeeds carries succeeds).2]
          simpa [Occurrence.delivered?, carries] using handled
      | auditLog =>
          rw [(deliver_of_succeeds carries (run_script_of_log isIdentity (Or.inl rfl))).2]
          simpa [Occurrence.delivered?] using rewritten
      | searchHistory =>
          rw [(deliver_of_succeeds carries (run_script_of_log isIdentity (Or.inr rfl))).2]
          simpa [Occurrence.delivered?] using rewritten

theorem Rewritten.after (policy : RetryPolicy) {occurrences : List Occurrence}
    (rewritten : Rewritten context start propagated synchronised world)
    (deliver : ∀ occurrence ∈ occurrences, occurrence.DeliversIdentity context) :
    Rewritten context start (propagated ++ delivered .userPropagation occurrences)
      (synchronised ++ delivered .indexSync occurrences)
      (world.after context policy occurrences) := by
  induction occurrences generalizing world propagated synchronised with
  | nil =>
      change Rewritten context start (propagated ++ []) (synchronised ++ []) world
      rw [List.append_nil, List.append_nil]
      exact rewritten
  | cons occurrence occurrences inductionHypothesis =>
      have split : ∀ route, delivered route (occurrence :: occurrences) =
          (occurrence.delivered? route).toList ++ delivered route occurrences := by
        intro route
        unfold delivered
        cases carried : occurrence.delivered? route with
        | none =>
            rw [List.filterMap_cons_none carried]
            rfl
        | some event =>
            rw [List.filterMap_cons_some carried]
            rfl
      rw [split, split, ← List.append_assoc, ← List.append_assoc]
      exact inductionHypothesis (rewritten.occur (deliver occurrence (by simp)))
        fun later member => deliver later (by simp [member])

end Delivered

/-! ## A deleted identity -/

/-- Nothing shows a user any more: every copy is a placeholder, and purged data does not name the
user. -/
structure Anonymous (context : Context) (user : Int64) (world : World) : Prop where
  copies : ∀ place ∈ anonymisedCopies, ∀ d ∈ world.store.documents place.collection,
    d.names place.userField user = true → place.author d = context.placeholder.author
  index : ∀ d ∈ world.index.documents, d.userId = user →
    d.author = context.placeholder.author
  gone : ∀ place ∈ purged, Absent user place world

section Deleted

variable {user : Int64} {events : List Event}

/-- A field that holds a user holds no other user. -/
theorem names_eq_beq {d : Document} {field : String} (named : d.names field user = true) :
    d.names field = (· == user) := by
  funext other
  rw [Bool.eq_iff_iff, beq_iff_eq]
  exact ⟨fun also => Document.eq_of_names also named, fun same => same ▸ named⟩

theorem concerns_eq_beq {d : IndexDocument} (same : d.userId = user) :
    d.concerns = (· == user) := by
  funext other
  rw [IndexDocument.concerns, same, Bool.eq_iff_iff, decide_eq_true_iff, beq_iff_eq]
  exact eq_comm

/-- The copies of a user at a place are placeholders exactly when the last events of the user wrote
the placeholder, if there are such copies. -/
theorem placeholders_iff {place : Embedding} {before after : List Document}
    (deleted : .identityDeleted ⟨user⟩ ∈ events)
    (rewritten : place.Rewritten (fun concerns => lastWritten context concerns events) before
      after) :
    (∀ d ∈ after, d.names place.userField user = true →
      place.author d = context.placeholder.author) ↔
    ((∃ d ∈ before, d.names place.userField user = true) →
      lastWritten context (· == user) events = context.placeholder.update) := by
  obtain ⟨change, rfl, follows⟩ := rewritten
  obtain ⟨nickname, avatar⟩ :=
    lastWritten_isSome context (· == user) (beq_self_eq_true user) deleted
  have shown : ∀ d, d.names place.userField user = true →
      (place.author (change d) = context.placeholder.author ↔
        lastWritten context (· == user) events = context.placeholder.update) := by
    intro d named
    rw [(follows d).author, names_eq_beq named]
    exact context.placeholder.on_eq_author_iff nickname avatar _
  constructor
  · rintro placeholders ⟨d, stored, named⟩
    refine (shown d named).mp (placeholders (change d) (List.mem_map_of_mem stored) ?_)
    rw [(follows d).names]
    exact named
  · intro last d member named
    obtain ⟨original, stored, rfl⟩ := List.mem_map.mp member
    rw [(follows original).names] at named
    exact (shown original named).mpr (last ⟨original, stored, named⟩)

theorem indexed_placeholders_iff {before after : List IndexDocument}
    (deleted : .identityDeleted ⟨user⟩ ∈ events)
    (rewritten : after = before.map fun d => (lastWritten context d.concerns events).apply d) :
    (∀ d ∈ after, d.userId = user → d.author = context.placeholder.author) ↔
    ((∃ d ∈ before, d.userId = user) →
      lastWritten context (· == user) events = context.placeholder.update) := by
  subst rewritten
  obtain ⟨nickname, avatar⟩ :=
    lastWritten_isSome context (· == user) (beq_self_eq_true user) deleted
  have shown : ∀ d : IndexDocument, d.userId = user →
      (((lastWritten context d.concerns events).apply d).author = context.placeholder.author ↔
        lastWritten context (· == user) events = context.placeholder.update) := by
    intro d same
    rw [AuthorUpdate.author_apply, concerns_eq_beq same]
    exact context.placeholder.on_eq_author_iff nickname avatar _
  constructor
  · rintro placeholders ⟨d, stored, same⟩
    exact (shown d same).mp (placeholders _ (List.mem_map_of_mem stored) same)
  · intro last d member same
    obtain ⟨original, stored, rfl⟩ := List.mem_map.mp member
    exact (shown original same).mpr (last ⟨original, stored, same⟩)

/-- When a deletion is among the identity events handled on both routes, what is purged is gone
for good. The copies of the user are placeholders exactly when, on each route that finds such
copies, the last events of the user wrote the placeholder. -/
theorem anonymous_iff_lastWritten (up : world.IsUp) {occurrences : List Occurrence}
    (deliver : ∀ occurrence ∈ occurrences, occurrence.DeliversIdentity context)
    (propagated : .identityDeleted ⟨user⟩ ∈ delivered .userPropagation occurrences)
    (synchronised : .identityDeleted ⟨user⟩ ∈ delivered .indexSync occurrences) :
    (∀ place ∈ purged, Absent user place (world.after context policy occurrences)) ∧
    ((world.after context policy occurrences).Anonymous context user ↔
      ((∃ place ∈ anonymisedCopies, ∃ d ∈ world.store.documents place.collection,
          d.names place.userField user = true) →
        lastWritten context (· == user) (delivered .userPropagation occurrences) =
          context.placeholder.update) ∧
      ((∃ d ∈ world.index.documents, d.userId = user) →
        lastWritten context (· == user) (delivered .indexSync occurrences) =
          context.placeholder.update)) := by
  have rewritten := (rewritten_start up).after policy deliver
  rw [List.nil_append, List.nil_append] at rewritten
  have gone := rewritten.gone user propagated
  have copies : ∀ place ∈ anonymisedCopies, _ := fun place anonymised =>
    placeholders_iff propagated (rewritten.copies place anonymised)
  have index := indexed_placeholders_iff synchronised rewritten.index
  refine ⟨gone, fun anonymous => ⟨?_, index.mp anonymous.index⟩, fun last => ?_⟩
  · rintro ⟨place, anonymised, stored⟩
    exact (copies place anonymised).mp (anonymous.copies place anonymised) stored
  · refine ⟨fun place anonymised => ?_, index.mpr last.2, gone⟩
    exact (copies place anonymised).mpr fun stored => last.1 ⟨place, anonymised, stored⟩

/-- Deliveries of events, each handled on both routes that identities take. -/
def handledOnBoth (events : List Event) : List Occurrence :=
  events.flatMap fun event =>
    [.deliver .userPropagation (.carrying event) [], .deliver .indexSync (.carrying event) []]

private theorem delivers_handledOnBoth {events : List Event}
    (carried : ∀ event ∈ events, (event.rewrite? context).isSome = true ∧
      (Envelope.carrying event).event? Route.userPropagation.accepts = some event ∧
      (Envelope.carrying event).event? Route.indexSync.accepts = some event) :
    ∀ occurrence ∈ handledOnBoth events, occurrence.DeliversIdentity context := by
  intro occurrence member
  obtain ⟨event, listed, both⟩ := List.mem_flatMap.mp member
  obtain ⟨isIdentity, onPropagation, onIndex⟩ := carried event listed
  have either : occurrence = .deliver .userPropagation (.carrying event) [] ∨
      occurrence = .deliver .indexSync (.carrying event) [] := by
    simpa using both
  rcases either with rfl | rfl
  · refine .deliver _ _ fun read same => ?_
    rw [onPropagation] at same
    cases same
    exact isIdentity
  · refine .deliver _ _ fun read same => ?_
    rw [onIndex] at same
    cases same
    exact isIdentity

/-- A user takes another name and is deleted then: nothing shows the user any more. -/
theorem anonymous_of_deleted_last :
    let occurrences := handledOnBoth
      [.identityUpdated { userId := 7, newDisplayName := some "Bea" }, .identityDeleted ⟨7⟩]
    World.authored.IsUp ∧
      (∀ occurrence ∈ occurrences, occurrence.DeliversIdentity .plain) ∧
      .identityDeleted ⟨7⟩ ∈ delivered .userPropagation occurrences ∧
      .identityDeleted ⟨7⟩ ∈ delivered .indexSync occurrences ∧
      (World.authored.after .plain (.new 1 0) occurrences).Anonymous .plain 7 := by
  intro occurrences
  have up : World.authored.IsUp := ⟨fun collection => by cases collection <;> rfl, rfl⟩
  have deliver : ∀ occurrence ∈ occurrences, occurrence.DeliversIdentity .plain :=
    delivers_handledOnBoth (by decide +kernel)
  have propagated : .identityDeleted ⟨7⟩ ∈ delivered .userPropagation occurrences := by
    decide +kernel
  have synchronised : .identityDeleted ⟨7⟩ ∈ delivered .indexSync occurrences := by
    decide +kernel
  refine ⟨up, deliver, propagated, synchronised, ?_⟩
  refine (anonymous_iff_lastWritten up deliver propagated synchronised).2.mpr
    ⟨fun _ => ?_, fun _ => ?_⟩
  · decide +kernel
  · decide +kernel

/-- The two events the other way round: the name of the deleted user is shown again, in the posts
and in the index. -/
theorem not_anonymous_of_deleted_first :
    let occurrences := handledOnBoth
      [.identityDeleted ⟨7⟩, .identityUpdated { userId := 7, newDisplayName := some "Bea" }]
    World.authored.IsUp ∧
      (∀ occurrence ∈ occurrences, occurrence.DeliversIdentity .plain) ∧
      .identityDeleted ⟨7⟩ ∈ delivered .userPropagation occurrences ∧
      .identityDeleted ⟨7⟩ ∈ delivered .indexSync occurrences ∧
      ¬(World.authored.after .plain (.new 1 0) occurrences).Anonymous .plain 7 := by
  intro occurrences
  refine ⟨⟨fun collection => by cases collection <;> rfl, rfl⟩,
    delivers_handledOnBoth (by decide +kernel), by decide +kernel, by decide +kernel, ?_⟩
  intro anonymous
  have shown : (World.authored.after .plain (.new 1 0) occurrences).index.documents =
      [{ id := "p", userId := 7, userNickname := "Bea",
         userAvatar := "/static/avatar/deleted.png" }] := by decide +kernel
  have placeholder := anonymous.index
  rw [shown] at placeholder
  exact absurd (placeholder _ List.mem_cons_self rfl) (by decide)

end Deleted

end World

end Memory

end DualStore
