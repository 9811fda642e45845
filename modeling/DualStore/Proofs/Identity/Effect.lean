import DualStore.Proofs.Identity.Propagation

/-!
Contract: what the calls of one identity event do to the documents, whichever collections are down.

Owns:
- identity events: their user, what they write and at which places, what they remove, and the calls
  they lead to;
- the documents of a collection after such an event, in one step: the ones it removes are gone, and
  the others are rewritten in place;
- what a rewritten document holds under each key, and the fields that no event touches.

Does not own: deliveries, the index, and what several events do one after the other.
-/

namespace DualStore

open Memory Memory.World Memory.DocumentStore UserPropagation

/-! ## Identity events -/

/-- An event about an identity. -/
inductive IdentityEvent where
  | updated (identity : IdentityUpdated)
  | deleted (identity : IdentityDeleted)

namespace IdentityEvent

def toEvent : IdentityEvent → Event
  | updated identity => .identityUpdated identity
  | deleted identity => .identityDeleted identity

def userId : IdentityEvent → Int64
  | updated identity => identity.userId
  | deleted identity => identity.userId

/-- What an event writes over the copies of its user. -/
def update (context : Context) : IdentityEvent → AuthorUpdate
  | updated identity => .ofIdentity identity
  | deleted _ => context.placeholder.update

/-- The places at which an event writes. -/
def places : IdentityEvent → List Embedding
  | updated _ => profileCopies
  | deleted _ => anonymisedCopies

/-- The fields by which an event removes documents. -/
def removals : IdentityEvent → List (Collection × String)
  | updated _ => []
  | deleted _ => purged

/-- The calls of an event: all that write, then all that remove. -/
def calls (context : Context) (event : IdentityEvent) : List Call :=
  updateCalls event.userId (event.update context) event.places ++
    purgeCalls event.userId event.removals

theorem callsOf_toEvent (context : Context) (event : IdentityEvent) :
    callsOf context event.toEvent = event.calls context := by
  cases event with
  | updated identity => exact (List.append_nil _).symm
  | deleted identity => rfl

/-- What an event does about the index: it writes over the author of all documents of its user. -/
theorem indexSync_script_toEvent (context : Context) (event : IdentityEvent) :
    IndexSync.script context event.toEvent =
      IndexSync.overwriteAuthor event.userId (event.update context) := by
  cases event <;> rfl

theorem mem_profileCopies_of_mem_places {event : IdentityEvent} :
    ∀ place ∈ event.places, place ∈ profileCopies := by
  cases event with
  | updated identity => exact fun _ listed => listed
  | deleted identity =>
      have copies : ∀ place ∈ anonymisedCopies, place ∈ profileCopies := by decide
      exact copies

theorem mem_purged_of_mem_removals {event : IdentityEvent} :
    ∀ place ∈ event.removals, place ∈ purged := by
  cases event with
  | updated identity => exact fun _ listed => by cases listed
  | deleted identity => exact fun _ listed => listed

end IdentityEvent

/-! ## Writing many places at once -/

namespace UserPropagation

theorem mem_updates {place : Embedding} {update : AuthorUpdate} {text : String × String} :
    text ∈ place.updates update ↔
      (∃ nickname, update.nickname = some nickname ∧ text = (place.nicknameField, nickname)) ∨
        ∃ avatar, update.avatar = some avatar ∧ text = (place.avatarField, avatar) := by
  simp [Embedding.updates, eq_comm]

/-- The texts that an update of a user puts into a document of a collection: those of every place
at which the document names the user. -/
def textsAt (places : List Embedding) (collection : Collection) (userId : Int64)
    (update : AuthorUpdate) (d : Document) : List (String × String) :=
  (places.filter fun place =>
    place.collection = collection && d.names place.userField userId).flatMap (·.updates update)

section Texts

variable {places : List Embedding} {collection : Collection} {userId : Int64}
  {update : AuthorUpdate} {d : Document}

theorem mem_textsAt {text : String × String} :
    text ∈ textsAt places collection userId update d ↔
      ∃ place ∈ places, place.collection = collection ∧
        d.names place.userField userId = true ∧ text ∈ place.updates update := by
  simp [textsAt, and_assoc]

theorem textsAt_cons (place : Embedding) :
    textsAt (place :: places) collection userId update d =
      if place.collection = collection ∧ d.names place.userField userId = true then
        place.updates update ++ textsAt places collection userId update d
      else textsAt places collection userId update d := by
  unfold textsAt
  rw [List.filter_cons]
  by_cases found : place.collection = collection ∧ d.names place.userField userId = true
  · simp [found]
  · rw [if_neg found, if_neg (by simpa using found)]

/-- The texts of a user that a document gets depend only on the users that it names. -/
theorem textsAt_congr (known : ∀ place ∈ places, place ∈ profileCopies) {other : Document}
    (names : ∀ field ∈ userFields collection, other.names field userId = d.names field userId) :
    textsAt places collection userId update other = textsAt places collection userId update d := by
  unfold textsAt
  congr 1
  refine List.filter_congr fun place listed => ?_
  by_cases here : place.collection = collection
  · subst here
    rw [names _ (userField_mem_userFields place (known place listed))]
  · simp [here]

theorem not_mem_keys_textsAt (known : ∀ place ∈ places, place ∈ profileCopies) {field : String}
    (isUser : field ∈ userFields collection) :
    field ∉ (textsAt places collection userId update d).map (·.1) := by
  intro member
  obtain ⟨text, written, rfl⟩ := List.mem_map.mp member
  obtain ⟨place, listed, rfl, _, ofPlace⟩ := mem_textsAt.mp written
  obtain ⟨nickname, avatar⟩ := ne_of_mem_userFields place (known place listed) text.1 isUser
  exact not_mem_keys_updates update nickname avatar (List.mem_map_of_mem ofPlace)

/-- Of the texts that a document gets no two contradict each other: no field holds a nickname at
one place and an avatar at another. -/
theorem textsAt_consistent (known : ∀ place ∈ places, place ∈ profileCopies)
    {text other : String × String} (written : text ∈ textsAt places collection userId update d)
    (also : other ∈ textsAt places collection userId update d) (same : other.1 = text.1) :
    other.2 = text.2 := by
  have apart : ∀ place ∈ profileCopies, ∀ other ∈ profileCopies,
      place.collection = other.collection → place.nicknameField ≠ other.avatarField := by decide
  obtain ⟨place, listed, here, _, ofPlace⟩ := mem_textsAt.mp written
  obtain ⟨otherPlace, otherListed, there, _, ofOther⟩ := mem_textsAt.mp also
  have placeKnown := known place listed
  have otherKnown := known otherPlace otherListed
  rcases mem_updates.mp ofPlace with ⟨nickname, given, rfl⟩ | ⟨avatar, given, rfl⟩
  · rcases mem_updates.mp ofOther with ⟨otherNickname, alsoGiven, rfl⟩ | ⟨_, _, rfl⟩
    · exact Option.some.inj (alsoGiven.symm.trans given)
    · exact absurd same.symm (apart place placeKnown otherPlace otherKnown (here.trans there.symm))
  · rcases mem_updates.mp ofOther with ⟨_, _, rfl⟩ | ⟨otherAvatar, alsoGiven, rfl⟩
    · exact absurd same (apart otherPlace otherKnown place placeKnown (there.trans here.symm))
    · exact Option.some.inj (alsoGiven.symm.trans given)

/-- All updates of one event together set, in each document, the texts that it gets. -/
theorem foldl_updateCalls (known : ∀ place ∈ places, place ∈ profileCopies)
    (documents : List Document) :
    (updateCalls userId update places).foldl
        (fun documents call => call.onDocuments collection documents) documents =
      documents.map fun d => d.setTexts (textsAt places collection userId update d) := by
  cases empty : update.isEmpty with
  | true =>
      have nothing : ∀ d, textsAt places collection userId update d = [] := by
        intro d
        obtain rfl := AuthorUpdate.eq_empty_of_isEmpty empty
        exact List.flatMap_eq_nil_iff.mpr fun place _ => rfl
      rw [updateCalls, if_pos empty]
      simp only [nothing]
      exact (List.map_id' documents).symm
  | false =>
      have nonempty : ¬update.isEmpty = true := by
        rw [empty]
        decide
      rw [updateCalls, if_neg nonempty]
      induction places generalizing documents with
      | nil => exact (List.map_id' documents).symm
      | cons place places inductionHypothesis =>
          have later : ∀ place ∈ places, place ∈ profileCopies := fun place listed =>
            known place (List.mem_cons_of_mem _ listed)
          rw [List.map_cons, List.foldl_cons, inductionHypothesis later, Call.onDocuments]
          by_cases here : collection = place.collection
          · subst here
            rw [if_pos rfl, List.map_map]
            refine List.map_congr_left fun d _ => ?_
            -- What is written at this place does not change what the later places find.
            have found : textsAt places place.collection userId update
                (updated place.userField userId (place.updates update) d) =
                textsAt places place.collection userId update d := by
              refine textsAt_congr later fun field isUser => ?_
              obtain ⟨nickname, avatar⟩ :=
                ne_of_mem_userFields place (known place List.mem_cons_self) field isUser
              exact names_updated (not_mem_keys_updates update nickname avatar) d userId
            rw [Function.comp_apply, found, textsAt_cons]
            unfold updated
            split
            · rename_i named
              rw [if_pos ⟨rfl, named⟩, Document.setTexts_append]
            · rename_i unnamed
              rw [if_neg fun both => unnamed both.2]
          · rw [if_neg here]
            refine List.map_congr_left fun d _ => ?_
            rw [textsAt_cons, if_neg fun both => here both.1.symm]

end Texts

end UserPropagation

/-! ## One event -/

namespace IdentityEvent

section Effect

variable (context : Context) (collection : Collection) (event : IdentityEvent)

/-- A document that an event keeps, with the texts that the event sets. -/
def rewrite (d : Document) : Document :=
  d.setTexts (textsAt event.places collection event.userId (event.update context) d)

def removes (d : Document) : Bool :=
  event.removals.any fun place => place.1 = collection && d.names place.2 event.userId

/-- The documents of a collection after an event. -/
def applied (documents : List Document) : List Document :=
  (documents.filter fun d => !event.removes collection d).map (event.rewrite context collection)

/-- What an event leaves of a document that it keeps: the fields it supplies are set at every place
at which the document names its user, and every other field is as it was, in the same order. A
document that names the user at no place is the same document. -/
structure Rewrites (d after : Document) : Prop where
  written : ∀ place ∈ event.places, place.collection = collection →
    d.names place.userField event.userId = true →
      ∀ text ∈ place.updates (event.update context), after.get? text.1 = some (.text text.2)
  kept : ∀ key, (∀ place ∈ event.places, place.collection = collection →
    d.names place.userField event.userId = true →
      key ∉ (place.updates (event.update context)).map (·.1)) → after.get? key = d.get? key
  keys : d.fields.map (·.1) <+: after.fields.map (·.1)
  untouched : (∀ place ∈ event.places, place.collection = collection →
    d.names place.userField event.userId = false) → after = d

end Effect

section Documents

variable {context : Context} {collection : Collection} {event other : IdentityEvent}

theorem rewrites_rewrite (d : Document) :
    event.Rewrites context collection d (event.rewrite context collection d) where
  written := by
    intro place listed here named text written
    have member : text ∈ textsAt event.places collection event.userId (event.update context) d :=
      mem_textsAt.mpr ⟨place, listed, here, named, written⟩
    exact Document.get?_setTexts_of_mem member
      (fun other also => textsAt_consistent mem_profileCopies_of_mem_places member also) d
  kept := by
    intro key untouched
    refine Document.get?_setTexts_of_not_mem (fun member => ?_) d
    obtain ⟨text, written, rfl⟩ := List.mem_map.mp member
    obtain ⟨place, listed, here, named, ofPlace⟩ := mem_textsAt.mp written
    exact untouched place listed here named (List.mem_map_of_mem ofPlace)
  keys := Document.keys_prefix_setTexts _ d
  untouched := by
    intro unnamed
    have nothing :
        textsAt event.places collection event.userId (event.update context) d = [] := by
      refine List.eq_nil_iff_forall_not_mem.mpr fun text written => ?_
      obtain ⟨place, listed, here, named, _⟩ := mem_textsAt.mp written
      rw [unnamed place listed here] at named
      cases named
    rw [rewrite, nothing]
    rfl

/-- An event changes no field by which users are looked for. -/
theorem names_rewrite {field : String} (isUser : field ∈ userFields collection) (d : Document)
    (user : Int64) :
    (event.rewrite context collection d).names field user = d.names field user :=
  Document.names_setTexts_of_not_mem
    (not_mem_keys_textsAt mem_profileCopies_of_mem_places isUser) d user

/-- An event sets the same texts in a document whether or not another one has rewritten it before. -/
theorem rewrite_rewrite (d : Document) :
    event.rewrite context collection (other.rewrite context collection d) =
      (other.rewrite context collection d).setTexts
        (textsAt event.places collection event.userId (event.update context) d) := by
  have found : textsAt event.places collection event.userId (event.update context)
      (other.rewrite context collection d) =
        textsAt event.places collection event.userId (event.update context) d :=
    textsAt_congr mem_profileCopies_of_mem_places fun _ isUser => names_rewrite isUser d _
  rw [rewrite, found]

theorem removes_congr {d after : Document}
    (names : ∀ field ∈ userFields collection,
      after.names field event.userId = d.names field event.userId) :
    event.removes collection after = event.removes collection d := by
  rw [Bool.eq_iff_iff, removes, removes, List.any_eq_true, List.any_eq_true]
  refine exists_congr fun place => and_congr_right fun listed => ?_
  by_cases here : place.1 = collection
  · subst here
    rw [names _ (purged_mem_userFields place (mem_purged_of_mem_removals place listed))]
  · simp [here]

theorem removes_rewrite (d : Document) :
    event.removes collection (other.rewrite context collection d) = event.removes collection d :=
  removes_congr fun _ isUser => names_rewrite isUser d _

/-- Two events one after the other remove what either of them removes, and rewrite the rest. -/
theorem applied_applied (documents : List Document) :
    event.applied context collection (other.applied context collection documents) =
      (documents.filter fun d => !other.removes collection d && !event.removes collection d).map
        fun d => event.rewrite context collection (other.rewrite context collection d) := by
  have later : ((fun d => !event.removes collection d) ∘ other.rewrite context collection) =
      fun d => !event.removes collection d :=
    funext fun d => congrArg (!·) (removes_rewrite d)
  rw [applied, applied, List.filter_map, later, List.filter_filter, List.map_map]
  simp only [Bool.and_comm]
  rfl

theorem removes_deleted_iff {user : Int64} {d : Document} :
    (deleted ⟨user⟩).removes collection d = true ↔
      ∃ place ∈ purged, place.1 = collection ∧ d.names place.2 user = true := by
  simp [removes, removals, userId]

theorem foldl_purgeCalls (userId : Int64) (places : List (Collection × String))
    (documents : List Document) :
    (purgeCalls userId places).foldl
        (fun documents call => call.onDocuments collection documents) documents =
      documents.filter fun d =>
        !places.any fun place => place.1 = collection && d.names place.2 userId := by
  induction places generalizing documents with
  | nil =>
      have all : ∀ d ∈ documents, (!false) = true := fun _ _ => rfl
      exact (List.filter_eq_self.mpr all).symm
  | cons place places inductionHypothesis =>
      change (purgeCalls userId places).foldl _
        (Call.onDocuments collection (.deleteByUser place.1 place.2 userId) documents) = _
      rw [inductionHypothesis, Call.onDocuments]
      by_cases here : collection = place.1
      · subst here
        rw [if_pos rfl, List.filter_filter]
        refine List.filter_congr fun d _ => ?_
        simp [Bool.and_comm]
      · have elsewhere : ¬place.1 = collection := fun equal => here equal.symm
        rw [if_neg here]
        refine List.filter_congr fun d _ => ?_
        simp [elsewhere]

/-- The calls of an event do to the documents of a collection what the event does. -/
theorem foldl_calls (documents : List Document) :
    (event.calls context).foldl (fun documents call => call.onDocuments collection documents)
      documents = event.applied context collection documents := by
  rw [calls, List.foldl_append, foldl_updateCalls mem_profileCopies_of_mem_places,
    foldl_purgeCalls, applied, List.filter_map]
  congr 1
  refine List.filter_congr fun d _ => ?_
  -- Removals come last, and find what they would have found before the writes.
  exact congrArg (!·) (removes_rewrite d)

end Documents

/-! ## The world after one event -/

/-- All calls of an event, put to the stores. -/
def propagate (context : Context) (event : IdentityEvent) (world : World) : World :=
  world.answerAll (event.calls context)

section World

variable (context : Context) (event : IdentityEvent) (world : World)

theorem propagates_calls : ∀ call ∈ event.calls context, call.Propagates := by
  rw [← callsOf_toEvent]
  exact propagates_callsOf context event.toEvent

/-- After an event the world is as it was, but for the documents and the log of operations. -/
theorem propagate_eq : ∃ documents operations, event.propagate context world =
    { world with store := { world.store with documents, operations } } :=
  answerAll_of_propagates world (event.propagates_calls context)

theorem documents_propagate (collection : Collection) :
    (event.propagate context world).store.documents collection =
      if world.store.isDown collection = true then world.store.documents collection
      else event.applied context collection (world.store.documents collection) := by
  rw [propagate, documents_answerAll world collection (event.propagates_calls context), foldl_calls]

theorem isDown_propagate (collection : Collection) :
    (event.propagate context world).store.isDown collection = world.store.isDown collection := by
  obtain ⟨documents, operations, ended⟩ := event.propagate_eq context world
  rw [ended]
  rfl

theorem auditLog_propagate :
    (event.propagate context world).store.auditLog = world.store.auditLog := by
  obtain ⟨documents, operations, ended⟩ := event.propagate_eq context world
  rw [ended]

theorem history_propagate :
    (event.propagate context world).store.history = world.store.history := by
  obtain ⟨documents, operations, ended⟩ := event.propagate_eq context world
  rw [ended]

theorem index_propagate : (event.propagate context world).index = world.index := by
  obtain ⟨documents, operations, ended⟩ := event.propagate_eq context world
  rw [ended]

end World

end IdentityEvent

end DualStore
