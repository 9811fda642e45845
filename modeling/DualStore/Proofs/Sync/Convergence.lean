import DualStore.Proofs.Memory.Session

/-!
Contract: what the index says of published content once events that restate its record have been
handled.

Owns:
- payloads that restate a record, and events that are about a record and say nothing else than it
  does;
- the document that each of them leaves: the projection of the record, with the counters of the
  record after a change and without them after a creation or an approval;
- from this, exactly when two lists of such events leave the same document, and two orders of two
  events that do not.

Does not own: events that contradict the record, and records that change in between.
-/

namespace DualStore

/-- A document whose counters start at zero. -/
def IndexDocument.uncounted (d : IndexDocument) : IndexDocument :=
  { d with likeCount := 0, collectCount := 0, commentCount := 0 }

/-- Nobody has engaged with the content of a record. -/
structure ContentRecord.Untouched (record : ContentRecord) : Prop where
  likes : record.likeCount = 0
  collects : record.collectCount = 0
  comments : record.commentCount = 0

/-- The instant at which a payload says that its content was created, if it can be read. -/
def ContentCreated.stated? (created : ContentCreated) (offset : Time.Offset) :
    Option Time.Instant :=
  created.createdAt.bind fun time => (time.resolve offset).map (·.instant)

/-- A payload says of a piece of content what its record says. The creation time may be left out. -/
structure ContentCreated.Restates (created : ContentCreated) (record : ContentRecord)
    (offset : Time.Offset) : Prop where
  id : created.id = record.id
  authorId : created.authorId = record.authorId
  authorName : created.authorName.getD "" = record.authorName
  authorAvatar : created.authorAvatar.getD "" = record.authorAvatar
  title : created.title = record.title
  body : created.body = record.body
  tags : created.tags = record.tags
  contentType : created.contentType = record.contentType
  resources : created.resources = record.resources
  cover : created.coverRef.getD "" = record.cover
  coverWidth : created.coverWidth = record.coverWidth
  coverHeight : created.coverHeight = record.coverHeight
  createdAt : ∀ instant, created.stated? offset = some instant → record.creation? = some instant

/-- An event is about a record and says nothing else than it does. -/
def Event.Restates (record : ContentRecord) (offset : Time.Offset) : Event → Prop
  | .contentCreated created | .contentAuditPassed created => created.Restates record offset
  | .contentUpdated updated => updated.id = record.id
  | _ => False

/-- A delivery for index synchronisation carries an event that restates a record. -/
def Envelope.Restates (record : ContentRecord) (offset : Time.Offset) (envelope : Envelope) :
    Prop :=
  ∃ event, envelope.event? Route.indexSync.accepts = some event ∧ event.Restates record offset

/-- Whether an event tells that content has changed, and leaves it to the record how. -/
def Event.isChange : Event → Bool
  | .contentUpdated _ => true
  | _ => false

/-- What an event about a record leaves in the index: the counters of the record come with a change
only. -/
def Event.projection (event : Event) (record : ContentRecord) (offset : Time.Offset) :
    IndexDocument :=
  if event.isChange then .ofRecord record offset
  else (IndexDocument.ofRecord record offset).uncounted

namespace IndexDocument

variable {record : ContentRecord} {offset : Time.Offset}

/-- A payload that restates a record is projected to what the record is projected to, but without
its counters. -/
theorem ofEvent_eq_uncounted {created : ContentCreated}
    (restates : created.Restates record offset) :
    ofEvent created record offset = (ofRecord record offset).uncounted := by
  have creation : (created.stated? offset).or record.creation? = record.creation? := by
    cases stated : created.stated? offset with
    | none => exact Option.none_or
    | some instant =>
        rw [restates.createdAt instant stated]
        exact Option.some_or
  change ({ ofEvent created record offset with
    createdAt := ((created.stated? offset).or record.creation?).map (·.indexText offset) } :
      IndexDocument) = _
  unfold ofEvent ofRecord uncounted
  dsimp only
  rw [creation, restates.id, restates.authorId, restates.authorName, restates.authorAvatar,
    restates.title, restates.body, restates.tags, restates.contentType, restates.resources,
    restates.cover, restates.coverWidth, restates.coverHeight]

theorem uncounted_ofRecord_eq_iff (record : ContentRecord) (offset : Time.Offset) :
    (ofRecord record offset).uncounted = ofRecord record offset ↔ record.Untouched := by
  constructor
  · intro same
    exact ⟨(congrArg likeCount same).symm, (congrArg collectCount same).symm,
      (congrArg commentCount same).symm⟩
  · rintro ⟨likes, collects, comments⟩
    unfold uncounted ofRecord
    rw [likes, collects, comments]

theorem uncounted_projection (event : Event) :
    (event.projection record offset).uncounted = (ofRecord record offset).uncounted := by
  unfold Event.projection
  split <;> rfl

/-- Two events leave the same document exactly when both or neither of them tells of a change, or
there is nothing to count. -/
theorem projection_eq_iff {first second : Event} :
    first.projection record offset = second.projection record offset ↔
      record.Untouched ∨ first.isChange = second.isChange := by
  unfold Event.projection
  rw [← uncounted_ofRecord_eq_iff record offset]
  cases first.isChange <;> cases second.isChange
  · simp
  · simp
  · simpa using eq_comm
  · simp

end IndexDocument

namespace Memory

/-- Deliveries for index synchronisation, without faults in their way. -/
def synchronised (envelopes : List Envelope) : List Occurrence :=
  envelopes.map (.deliver .indexSync · [])

/-- Whether the last of some deliveries tells that content has changed. -/
def endsWithChange (envelopes : List Envelope) : Bool :=
  (envelopes.getLast?.bind (·.event? Route.indexSync.accepts)).any (·.isChange)

namespace World

open SearchIndex DocumentStore

variable {context : Context} (policy : RetryPolicy) {world : World} {id : String}
  {record : ContentRecord}

/-- While nothing fails, a record that may be indexed is found and what it is projected to is put
into the index. -/
theorem IsUp.run_reconcileWith (up : world.IsUp) (found : world.store.content? id = some record)
    (indexable : record.isIndexable = true) (project : ContentRecord → IndexDocument) :
    (IndexSync.reconcileWith id project).run services world =
      (.finished (.ok ()), (answer (.upsertDocument (project record)) world).2) := by
  have looked : services.answer (.findContent id) world =
      (.replied (.ok (some record)), world) := by
    rw [← found]
    exact up.answer_findContent id
  rw [IndexSync.reconcileWith_eq, Script.call, Script.run, looked]
  dsimp only
  rw [IndexSync.onRecord, if_pos indexable]
  exact up.run_call (.upsertDocument (project record))

/-- An event that restates a record is handled by putting its projection into the index. -/
theorem IsUp.run_of_restates (up : world.IsUp) (immediate : context.auditRequired = false)
    (found : world.store.content? id = some record) (indexable : record.isIndexable = true)
    {event : Event} (restates : event.Restates record context.offset) :
    (IndexSync.script context event).run services world =
      (.finished (.ok ()),
        (answer (.upsertDocument (event.projection record context.offset)) world).2) := by
  have sameId : record.id = id := id_of_content? found
  cases event with
  | contentCreated created =>
      have projected : (Event.contentCreated created).projection record context.offset =
          .ofEvent created record context.offset :=
        (IndexDocument.ofEvent_eq_uncounted restates).symm
      rw [projected, IndexSync.script, immediate, IndexSync.indexCreated, restates.id, sameId]
      exact up.run_reconcileWith found indexable _
  | contentAuditPassed created =>
      have projected : (Event.contentAuditPassed created).projection record context.offset =
          .ofEvent created record context.offset :=
        (IndexDocument.ofEvent_eq_uncounted restates).symm
      rw [projected, IndexSync.script, IndexSync.indexCreated, restates.id, sameId]
      exact up.run_reconcileWith found indexable _
  | contentUpdated updated =>
      rw [IndexSync.script, IndexSync.reconcile, show updated.id = id from restates.trans sameId]
      exact up.run_reconcileWith found indexable _
  | _ => exact restates.elim

section Deliveries

variable (up : world.IsUp) (immediate : context.auditRequired = false)
  (found : world.store.content? id = some record) (indexable : record.isIndexable = true)

include up immediate found indexable

/-- The delivery of an event that restates a record. -/
theorem deliver_of_restates {envelope : Envelope} {event : Event}
    (carries : envelope.event? Route.indexSync.accepts = some event)
    (restates : event.Restates record context.offset) :
    let after := world.occur context policy (.deliver .indexSync envelope [])
    after.IsUp ∧ after.store = world.store ∧
      after.index.get? id = some (event.projection record context.offset) := by
  intro after
  have ended : after = _ :=
    (deliver_of_succeeds carries (up.run_of_restates immediate found indexable restates)).2
  have sameId : (event.projection record context.offset).id = id := by
    rw [← id_of_content? found]
    unfold Event.projection
    split <;> rfl
  rw [ended]
  refine ⟨(up.answered _).2, rfl, ?_⟩
  rw [up.get?_answer, carriedOut, get?_put, if_pos sameId]

theorem after_of_restates {envelopes : List Envelope}
    (restates : ∀ envelope ∈ envelopes, envelope.Restates record context.offset) :
    (world.after context policy (synchronised envelopes)).IsUp ∧
      (world.after context policy (synchronised envelopes)).store = world.store := by
  induction envelopes generalizing world with
  | nil => exact ⟨up, rfl⟩
  | cons envelope envelopes inductionHypothesis =>
      obtain ⟨event, carries, restated⟩ := restates envelope List.mem_cons_self
      obtain ⟨upNext, sameStore, _⟩ :=
        deliver_of_restates policy up immediate found indexable carries restated
      obtain ⟨upAfter, unchanged⟩ := inductionHypothesis upNext (by rw [sameStore]; exact found)
        fun later member => restates later (List.mem_cons_of_mem envelope member)
      exact ⟨upAfter, unchanged.trans sameStore⟩

/-- After deliveries of events that restate a record, the index says what the last of them
leaves. -/
theorem get?_after_of_restates {envelopes : List Envelope} (nonempty : envelopes ≠ [])
    (restates : ∀ envelope ∈ envelopes, envelope.Restates record context.offset) :
    ∃ event : Event, endsWithChange envelopes = event.isChange ∧
      (world.after context policy (synchronised envelopes)).index.get? id =
        some (event.projection record context.offset) := by
  obtain ⟨earlier, last, rfl⟩ : ∃ earlier last, envelopes = earlier ++ [last] :=
    ⟨_, _, (List.dropLast_concat_getLast nonempty).symm⟩
  obtain ⟨upThen, sameStore⟩ := after_of_restates policy up immediate found indexable
    fun envelope member => restates envelope (List.mem_append_left [last] member)
  obtain ⟨event, carries, restated⟩ :=
    restates last (List.mem_append_right earlier List.mem_cons_self)
  refine ⟨event, ?_, ?_⟩
  · unfold endsWithChange
    rw [List.getLast?_concat, Option.bind_some, carries]
    rfl
  · have delivered := deliver_of_restates policy upThen immediate
      (by rw [sameStore]; exact found) indexable carries restated
    unfold synchronised after
    rw [List.map_append, List.foldl_append]
    exact delivered.2.2

/-- Any deliveries of events that restate a record, in any order and as often as may be, leave the
projection of the record, counters aside. Two lists of them leave the same document exactly when
both or neither of them ends with a change, or there is nothing to count. -/
theorem document_eq_iff_endsWithChange {left right : List Envelope} (leftNonempty : left ≠ [])
    (rightNonempty : right ≠ [])
    (restates : ∀ envelope ∈ left ++ right, envelope.Restates record context.offset) :
    let indexed := fun envelopes =>
      (world.after context policy (synchronised envelopes)).index.get? id
    (indexed left).map (·.uncounted) =
        some (IndexDocument.ofRecord record context.offset).uncounted ∧
      (indexed left = indexed right ↔
        record.Untouched ∨ endsWithChange left = endsWithChange right) := by
  intro indexed
  obtain ⟨first, leftEnds, leftLeaves⟩ :=
    get?_after_of_restates policy up immediate found indexable leftNonempty
      fun envelope member => restates envelope (List.mem_append_left right member)
  obtain ⟨second, rightEnds, rightLeaves⟩ :=
    get?_after_of_restates policy up immediate found indexable rightNonempty
      fun envelope member => restates envelope (List.mem_append_right left member)
  have leftIndexed : indexed left = _ := leftLeaves
  have rightIndexed : indexed right = _ := rightLeaves
  rw [leftIndexed, rightIndexed, leftEnds, rightEnds]
  refine ⟨congrArg some (IndexDocument.uncounted_projection first), ?_⟩
  rw [Option.some_inj]
  exact IndexDocument.projection_eq_iff

end Deliveries

/-! ### A post that is liked -/

/-- A published post that has four likes. -/
def likedPost : Document :=
  ⟨[("_id", .text "p"), ("status", .number (.whole 1)), ("userId", .number (.whole 7)),
    ("userNickname", .text "Ann"), ("title", .text "Spring"), ("likeCount", .number (.whole 4)),
    ("createdAt", .text "2024-05-18T12:34:56Z")]⟩

def liked : World := { store := DocumentStore.putPost {} likedPost }

/-- The post as it was announced, at another offset. -/
def announcement : ContentCreated :=
  { id := "p", authorId := 7, authorName := some "Ann", title := "Spring"
    createdAt := some (.text "2024-05-18T20:34:56+08:00") }

def announced : Envelope := .carrying (.contentCreated announcement)

def changed : Envelope := .carrying (.contentUpdated ⟨"p"⟩)

theorem isUp_liked : liked.IsUp := ⟨fun collection => by cases collection <;> rfl, rfl⟩

theorem restates_announced : announced.Restates likedPost.record Context.plain.offset := by
  have sameTime : announcement.stated? Context.plain.offset = likedPost.record.creation? := by
    decide +kernel
  have restates : announcement.Restates likedPost.record Context.plain.offset := by
    constructor
    case createdAt =>
      intro instant stated
      rw [← sameTime, stated]
    all_goals decide +kernel
  exact ⟨.contentCreated announcement, by decide +kernel, restates⟩

theorem restates_changed : changed.Restates likedPost.record Context.plain.offset :=
  ⟨.contentUpdated ⟨"p"⟩, by decide +kernel, rfl⟩

/-- Announced again before a last change, the post is indexed with its likes as if it had only been
announced and changed once. -/
theorem document_eq_of_changedLast :
    let once := [announced, changed]
    let again := [changed, announced, announced, changed]
    liked.IsUp ∧ liked.store.content? "p" = some likedPost.record ∧
      (∀ envelope ∈ once ++ again, envelope.Restates likedPost.record Context.plain.offset) ∧
      (liked.after .plain .none (synchronised once)).index.get? "p" =
        (liked.after .plain .none (synchronised again)).index.get? "p" := by
  intro once again
  have found : liked.store.content? "p" = some likedPost.record := rfl
  have restates : ∀ envelope ∈ once ++ again,
      envelope.Restates likedPost.record Context.plain.offset := by
    simp [once, again, restates_announced, restates_changed]
  have bothChange : endsWithChange once = endsWithChange again := by decide +kernel
  refine ⟨isUp_liked, found, restates, ?_⟩
  exact (document_eq_iff_endsWithChange .none isUp_liked rfl found (by decide +kernel)
    (by simp [once]) (by simp [again]) restates).2.mpr (Or.inr bothChange)

/-- The same two events in the other order: the post loses its likes in the index. -/
theorem document_ne_of_announcedLast :
    liked.IsUp ∧ Context.plain.auditRequired = false ∧
      liked.store.content? "p" = some likedPost.record ∧ likedPost.record.isIndexable = true ∧
      (∀ envelope ∈ [announced, changed],
        envelope.Restates likedPost.record Context.plain.offset) ∧
      (liked.after .plain .none (synchronised [announced, changed])).index.get? "p" ≠
        (liked.after .plain .none (synchronised [changed, announced])).index.get? "p" := by
  refine ⟨isUp_liked, rfl, rfl, by decide +kernel, ?_, by decide +kernel⟩
  simp [restates_announced, restates_changed]

end World

end Memory

end DualStore
