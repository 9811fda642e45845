import DualStore.Proofs.Memory.Index
import DualStore.Proofs.Memory.Posts
import DualStore.Proofs.Sync.Script

/-!
Contract: what a sequence of identity events writes over the copies of an identity.

Owns:
- author updates put one atop the other, where the later one wins field by field;
- the update that an identity event carries, and the last update that a list of events writes for
  the users of a copy;
- the copies themselves: in index documents, and at the places where stored documents embed them;
  writing one place leaves the others alone.

Does not own: which copies an event reaches.
-/

namespace DualStore

open DualStore.Memory

/-- The texts of a copied identity. -/
structure Author where
  nickname : String
  avatar : String
deriving DecidableEq, Repr

/-! ## Updates one atop the other -/

namespace AuthorUpdate

/-- Two updates, of which the later one wins. -/
def atop (later earlier : AuthorUpdate) : AuthorUpdate :=
  { nickname := later.nickname.or earlier.nickname, avatar := later.avatar.or earlier.avatar }

def on (update : AuthorUpdate) (author : Author) : Author :=
  { nickname := update.nickname.getD author.nickname, avatar := update.avatar.getD author.avatar }

variable (later earlier first : AuthorUpdate) (author : Author)

@[simp] theorem empty_atop : atop {} earlier = earlier := by
  simp [atop]

@[simp] theorem atop_empty : later.atop {} = later := by
  simp [atop]

@[simp] theorem atop_self : later.atop later = later := by
  simp [atop]

theorem atop_assoc : (later.atop earlier).atop first = later.atop (earlier.atop first) := by
  simp only [atop, Option.or_assoc]

theorem on_atop : (later.atop earlier).on author = later.on (earlier.on author) := by
  simp only [on, atop, Option.getD_or]

theorem apply_atop (d : IndexDocument) :
    (later.atop earlier).apply d = later.apply (earlier.apply d) := by
  simp only [apply, atop, Option.getD_or]

theorem eq_empty_of_isEmpty {update : AuthorUpdate} (empty : update.isEmpty = true) :
    update = {} := by
  obtain ⟨nickname, avatar⟩ := update
  cases nickname <;> cases avatar <;> first | rfl | cases empty

end AuthorUpdate

/-! ## Identity events -/

/-- The update that writes the placeholder over both fields. -/
def Placeholder.update (placeholder : Placeholder) : AuthorUpdate :=
  { nickname := some placeholder.nickname, avatar := some placeholder.avatar }

def Placeholder.author (placeholder : Placeholder) : Author :=
  ⟨placeholder.nickname, placeholder.avatar⟩

/-- Only the update of the placeholder itself makes a placeholder of every author. -/
theorem Placeholder.on_eq_author_iff (placeholder : Placeholder) {update : AuthorUpdate}
    (nickname : update.nickname.isSome = true) (avatar : update.avatar.isSome = true)
    (author : Author) : update.on author = placeholder.author ↔ update = placeholder.update := by
  obtain ⟨writtenNickname, writtenAvatar⟩ := update
  obtain ⟨nicknameText, rfl⟩ := Option.isSome_iff_exists.mp nickname
  obtain ⟨avatarText, rfl⟩ := Option.isSome_iff_exists.mp avatar
  simp [AuthorUpdate.on, Placeholder.author, Placeholder.update]

/-- The user of an identity event and the update that the event carries. -/
def Event.rewrite? (context : Context) : Event → Option (Int64 × AuthorUpdate)
  | .identityUpdated identity => some (identity.userId, .ofIdentity identity)
  | .identityDeleted identity => some (identity.userId, context.placeholder.update)
  | _ => none

/-- What an event writes over a copy that concerns certain users. -/
def Event.written (context : Context) (concerns : Int64 → Bool) (event : Event) : AuthorUpdate :=
  match event.rewrite? context with
  | some (userId, update) => if concerns userId then update else {}
  | none => {}

/-- What a list of events writes over a copy in the end. -/
def lastWritten (context : Context) (concerns : Int64 → Bool) : List Event → AuthorUpdate
  | [] => {}
  | event :: events => (lastWritten context concerns events).atop (event.written context concerns)

section LastWritten

variable (context : Context) (concerns : Int64 → Bool)

theorem lastWritten_append (earlier later : List Event) :
    lastWritten context concerns (earlier ++ later) =
      (lastWritten context concerns later).atop (lastWritten context concerns earlier) := by
  induction earlier with
  | nil => simp [lastWritten]
  | cons event earlier inductionHypothesis =>
      rw [List.cons_append, lastWritten, inductionHypothesis, AuthorUpdate.atop_assoc, lastWritten]

/-- Events that are no identity events write nothing. -/
theorem lastWritten_filter (events : List Event) :
    lastWritten context concerns (events.filter fun event => (event.rewrite? context).isSome) =
      lastWritten context concerns events := by
  induction events with
  | nil => rfl
  | cons event events inductionHypothesis =>
      cases carried : event.rewrite? context with
      | none =>
          have nothing : event.written context concerns = {} := by
            rw [Event.written, carried]
          rw [List.filter_cons_of_neg (by simp [carried]), inductionHypothesis, lastWritten,
            nothing, AuthorUpdate.atop_empty]
      | some rewrite =>
          rw [List.filter_cons_of_pos (by simp [carried]), lastWritten, inductionHypothesis,
            lastWritten]

/-- Events that are handled again, with all that follow them, write what they wrote. -/
theorem lastWritten_append_atop_self (again later : List Event) :
    (lastWritten context concerns (again ++ later)).atop (lastWritten context concerns again) =
      lastWritten context concerns (again ++ later) := by
  rw [lastWritten_append, AuthorUpdate.atop_assoc, AuthorUpdate.atop_self]

/-- Once an identity has been deleted, both fields of its copies have been written. -/
theorem lastWritten_isSome {user : Int64} (concerned : concerns user = true) {events : List Event}
    (deleted : .identityDeleted ⟨user⟩ ∈ events) :
    (lastWritten context concerns events).nickname.isSome = true ∧
      (lastWritten context concerns events).avatar.isSome = true := by
  induction events with
  | nil => cases deleted
  | cons event events inductionHypothesis =>
      rcases List.mem_cons.mp deleted with rfl | later
      · simp [lastWritten, Event.written, Event.rewrite?, concerned, AuthorUpdate.atop,
          Placeholder.update]
      · obtain ⟨nickname, avatar⟩ := inductionHypothesis later
        simp [lastWritten, AuthorUpdate.atop, Option.isSome_or, nickname, avatar]

end LastWritten

/-! ## Copies -/

def IndexDocument.author (d : IndexDocument) : Author := ⟨d.userNickname, d.userAvatar⟩

def ContentRecord.author (record : ContentRecord) : Author :=
  ⟨record.authorName, record.authorAvatar⟩

def IndexDocument.concerns (d : IndexDocument) (userId : Int64) : Bool := d.userId = userId

theorem AuthorUpdate.author_apply (update : AuthorUpdate) (d : IndexDocument) :
    (update.apply d).author = update.on d.author := rfl

theorem AuthorUpdate.apply_empty (d : IndexDocument) : apply {} d = d := rfl

theorem AuthorUpdate.concerns_apply (update : AuthorUpdate) (d : IndexDocument) :
    (update.apply d).concerns = d.concerns := rfl

/-- Writing author fields over by user writes what the event writes. -/
theorem Memory.SearchIndex.overwritten_eq_written {context : Context} {event : Event}
    {userId : Int64} {update : AuthorUpdate} (carries : event.rewrite? context = some (userId, update))
    (d : IndexDocument) :
    SearchIndex.overwritten userId update d = (event.written context d.concerns).apply d := by
  unfold SearchIndex.overwritten Event.written
  rw [carries]
  by_cases same : d.userId = userId
  · simp [IndexDocument.concerns, same]
  · simp [IndexDocument.concerns, same, AuthorUpdate.apply_empty]

namespace UserPropagation

def Embedding.author (place : Embedding) (d : Document) : Author :=
  ⟨d.text place.nicknameField, d.text place.avatarField⟩

theorem author_record (d : Document) : d.record.author = postAuthor.author d := rfl

/-- The three fields of a place are different fields. -/
def Embedding.IsProper (place : Embedding) : Prop :=
  place.nicknameField ≠ place.avatarField ∧ place.userField ≠ place.nicknameField ∧
    place.userField ≠ place.avatarField

/-- The texts of one place are no fields of another. -/
def Embedding.Spares (place other : Embedding) : Prop :=
  ∀ field ∈ [other.userField, other.nicknameField, other.avatarField],
    field ≠ place.nicknameField ∧ field ≠ place.avatarField

instance (place : Embedding) : Decidable place.IsProper := by
  unfold Embedding.IsProper
  infer_instance

instance (place other : Embedding) : Decidable (place.Spares other) := by
  unfold Embedding.Spares
  infer_instance

theorem isProper_of_mem : ∀ place ∈ profileCopies, place.IsProper := by decide

/-- Different places of one collection have no field in common but that of the user. -/
theorem spares_of_mem : ∀ place ∈ profileCopies, ∀ other ∈ profileCopies,
    place.collection = other.collection → place ≠ other → place.Spares other := by decide

/-- A document that differs at a place by an update of the copied texts, and not by its users. -/
structure Embedding.Follows (place : Embedding) (update : AuthorUpdate) (d after : Document) :
    Prop where
  names : ∀ userId, after.names place.userField userId = d.names place.userField userId
  author : place.author after = update.on (place.author d)

section Follows

variable {place : Embedding} {update : AuthorUpdate} {d : Document}

theorem Embedding.Follows.refl (place : Embedding) (d : Document) : place.Follows {} d d :=
  ⟨fun _ => rfl, rfl⟩

theorem Embedding.Follows.trans {later : AuthorUpdate} {between after : Document}
    (first : place.Follows update d between) (second : place.Follows later between after) :
    place.Follows (later.atop update) d after where
  names := fun userId => (second.names userId).trans (first.names userId)
  author := by rw [second.author, first.author, AuthorUpdate.on_atop]

/-- Setting the texts of a place changes its copy. -/
theorem Embedding.follows_setTexts (proper : place.IsProper) (update : AuthorUpdate)
    (d : Document) : place.Follows update d (d.setTexts (place.updates update)) where
  names := Document.names_setTexts_of_not_mem
    (not_mem_keys_updates update proper.2.1 proper.2.2) d
  author := by
    have distinct := proper.1
    have reversed : place.avatarField ≠ place.nicknameField := fun equal => distinct equal.symm
    obtain ⟨nickname, avatar⟩ := update
    cases nickname <;> cases avatar <;>
      simp [Embedding.author, AuthorUpdate.on, Embedding.updates, Document.setTexts,
        Document.text, Document.get?_set, distinct, reversed, Json.Tree.text?]

/-- Setting the texts of another place leaves the copy alone. -/
theorem Embedding.follows_setTexts_of_spares {other : Embedding} (spares : other.Spares place)
    (update : AuthorUpdate) (d : Document) :
    place.Follows {} d (d.setTexts (other.updates update)) := by
  have untouched : ∀ field ∈ [place.userField, place.nicknameField, place.avatarField],
      field ∉ (other.updates update).map (·.1) := by
    intro field listed
    exact not_mem_keys_updates update (spares field listed).1 (spares field listed).2
  refine ⟨Document.names_setTexts_of_not_mem (untouched _ (by simp)) d, ?_⟩
  rw [Embedding.author, Document.text_setTexts_of_not_mem (untouched _ (by simp)),
    Document.text_setTexts_of_not_mem (untouched _ (by simp))]
  rfl

/-- An update by user at a place writes what the event writes. -/
theorem Embedding.follows_updated (proper : place.IsProper) {context : Context} {event : Event}
    {userId : Int64} (carries : event.rewrite? context = some (userId, update)) (d : Document) :
    place.Follows (event.written context (d.names place.userField)) d
      (DocumentStore.updated place.userField userId (place.updates update) d) := by
  unfold DocumentStore.updated Event.written
  rw [carries]
  dsimp only
  split
  · exact Embedding.follows_setTexts proper update d
  · exact .refl place d

theorem Embedding.follows_updated_of_spares {other : Embedding} (spares : other.Spares place)
    (userId : Int64) (update : AuthorUpdate) (d : Document) :
    place.Follows {} d
      (DocumentStore.updated other.userField userId (other.updates update) d) := by
  unfold DocumentStore.updated
  split
  · exact Embedding.follows_setTexts_of_spares spares update d
  · exact .refl place d

end Follows

end UserPropagation

end DualStore
