import DualStore.Proofs.Event.RoundTrip
import DualStore.Proofs.Sync.Attempt

/-!
Contract: all that a delivery for index synchronisation may change, whatever is in the way of its
calls.

Owns:
- deliveries that carry no event for a handler, which make no call;
- what an identity event writes;
- the frame of a delivery: the document store stays as it is; a content event concerns its own id
  only, and puts a document there only right after a lookup of a record that may be indexed; an
  identity event concerns the author fields of its user only.

Does not own: what happens to the index where nothing fails.
-/

namespace DualStore

open Memory Json

/-! ## Deliveries without an event -/

/-- A delivery that carries no event for a handler: it has no descriptor, the descriptor names no
kind or one that the handler does not accept, or the body is none of an event of the kind. -/
inductive Envelope.Unhandled (accepts : Kind → Bool) (envelope : Envelope) : Prop where
  | noDescriptor (missing : envelope.descriptor? = none)
  | unknownKind {descriptor : String} (described : envelope.descriptor? = some descriptor)
      (unknown : Kind.ofDescriptor? descriptor = none)
  | foreignKind {descriptor : String} {kind : Kind}
      (described : envelope.descriptor? = some descriptor)
      (known : Kind.ofDescriptor? descriptor = some kind) (foreign : accepts kind = false)
  | undecodable {descriptor : String} {kind : Kind} {failure : Failure}
      (described : envelope.descriptor? = some descriptor)
      (known : Kind.ofDescriptor? descriptor = some kind)
      (failed : Event.decode kind envelope.body = .error failure)

theorem Envelope.Unhandled.event?_eq_none {accepts : Kind → Bool} {envelope : Envelope}
    (unhandled : envelope.Unhandled accepts) : envelope.event? accepts = none := by
  unfold event?
  cases unhandled with
  | noDescriptor missing => rw [missing, Option.bind_none]
  | unknownKind described unknown => rw [described, Option.bind_some, unknown]
  | foreignKind described known foreign =>
      rw [described, Option.bind_some, known]
      exact if_neg (by rw [foreign]; decide)
  | undecodable described known failed =>
      rw [described, Option.bind_some, known]
      dsimp only
      rw [failed]
      exact ite_self none

/-! ## What an identity event writes -/

namespace IdentityEvent

/-- The nickname that an identity event writes: for an update the one that it comes with, unless
that is blank, and for a deletion the placeholder's. -/
def WritesNickname (context : Context) : IdentityEvent → String → Prop
  | updated identity, nickname =>
      identity.newDisplayName = some nickname ∧ Text.isBlank nickname = false
  | deleted _, nickname => nickname = context.placeholder.nickname

/-- The avatar that an identity event writes, as the nickname. -/
def WritesAvatar (context : Context) : IdentityEvent → String → Prop
  | updated identity, avatar => identity.newAvatarRef = some avatar ∧ Text.isBlank avatar = false
  | deleted _, avatar => avatar = context.placeholder.avatar

theorem filter_visible_eq_some_iff {given : Option String} {text : String} :
    (given.filter fun text => !Text.isBlank text) = some text ↔
      given = some text ∧ Text.isBlank text = false := by
  simp [Option.filter_eq_some_iff]

variable {context : Context} {identity : IdentityEvent}

theorem writesNickname_iff {nickname : String} :
    identity.WritesNickname context nickname ↔
      (identity.update context).nickname = some nickname := by
  cases identity with
  | updated identity => exact filter_visible_eq_some_iff.symm
  | deleted identity => exact eq_comm.trans Option.some_inj.symm

theorem writesAvatar_iff {avatar : String} :
    identity.WritesAvatar context avatar ↔ (identity.update context).avatar = some avatar := by
  cases identity with
  | updated identity => exact filter_visible_eq_some_iff.symm
  | deleted identity => exact eq_comm.trans Option.some_inj.symm

/-- Of a document that an event writes over, only the author fields may change. -/
theorem exists_overwritten (document : IndexDocument) :
    ∃ nickname avatar,
      some (SearchIndex.overwritten identity.userId (identity.update context) document) =
        some { document with userNickname := nickname, userAvatar := avatar } ∧
      (nickname = document.userNickname ∨
        (document.userId = identity.userId ∧ identity.WritesNickname context nickname)) ∧
      (avatar = document.userAvatar ∨
        (document.userId = identity.userId ∧ identity.WritesAvatar context avatar)) := by
  by_cases concerned : document.userId = identity.userId
  · refine ⟨_, _, congrArg some (if_pos concerned), ?_, ?_⟩
    · cases written : (identity.update context).nickname with
      | none => exact Or.inl rfl
      | some nickname => exact Or.inr ⟨concerned, writesNickname_iff.mpr written⟩
    · cases written : (identity.update context).avatar with
      | none => exact Or.inl rfl
      | some avatar => exact Or.inr ⟨concerned, writesAvatar_iff.mpr written⟩
  · exact ⟨_, _, congrArg some (SearchIndex.overwritten_of_ne concerned _), Or.inl rfl, Or.inl rfl⟩

/-- An event that writes neither field does nothing. -/
theorem script_of_writes_nothing
    (noNickname : ∀ nickname, ¬identity.WritesNickname context nickname)
    (noAvatar : ∀ avatar, ¬identity.WritesAvatar context avatar) :
    IndexSync.script context identity.toEvent = .done := by
  have isNone : ∀ {written : Option String}, (∀ text, written ≠ some text) → written = none :=
    fun none => Option.eq_none_iff_forall_ne_some.mpr none
  have nickname : (identity.update context).nickname = none :=
    isNone fun text written => noNickname text (writesNickname_iff.mpr written)
  have avatar : (identity.update context).avatar = none :=
    isNone fun text written => noAvatar text (writesAvatar_iff.mpr written)
  rw [identity.indexSync_script_toEvent, IndexSync.overwriteAuthor]
  exact if_pos (by rw [AuthorUpdate.isEmpty, nickname, avatar]; rfl)

end IdentityEvent

/-! ## One delivery -/

namespace IndexSync

open Memory.World

section Deliveries

variable {context : Context} {policy : RetryPolicy} {envelope : Envelope} {faults : List Fault}
  {world : World} {event : Event}

/-- What a delivery that carries an event comes to: its calls are those of its attempts, the
document store is as it was, and the index is as it was or has been changed by the last attempt. -/
theorem delivered (context : Context) (policy : RetryPolicy) (faults : List Fault) (world : World)
    (carries : envelope.event? accepts = some event) :
    let after := (deliverTraced context policy .indexSync envelope faults world).2
    ∃ attempts : List (List TracedCall), ∃ last,
      after.calls = attempts.flatten ++ last ∧
      (∀ attempt ∈ attempts, Attempt context event attempt) ∧ Attempt context event last ∧
      after.inner.inner.store = world.store ∧
      ((∀ key, after.inner.inner.index.get? key = world.index.get? key) ∨
        Change context event last world.index after.inner.inner.index) := by
  let handler := Route.indexSync.handler context services.scheduled.traced
  -- Every failed attempt adds its calls and leaves both stores as they were, so that the last
  -- attempt starts with the stores of the delivery.
  obtain ⟨middle, run, ⟨attempts, made, known, store, same⟩, ended, _⟩ :=
    process_handled handler policy ⟨[], ⟨faults, world⟩⟩
      (fun state => ∃ attempts : List (List TracedCall), state.calls = attempts.flatten ∧
        (∀ attempt ∈ attempts, Attempt context event attempt) ∧
        state.inner.inner.store = world.store ∧
        ∀ key, state.inner.inner.index.get? key = world.index.get? key) carries
      (fun state error failed ⟨attempts, made, known, store, same⟩ => by
        obtain ⟨calls, traced, attempt, storeKept, effect⟩ := attempted_script context event state
        refine ⟨attempts ++ [calls], ?_, ?_, storeKept.trans store, fun key => ?_⟩
        · rw [List.flatten_append, List.flatten_singleton, ← made]
          exact traced
        · intro other member
          rcases List.mem_append.mp member with earlier | isLast
          · exact known other earlier
          · rw [List.mem_singleton.mp isLast]
            exact attempt
        · rcases effect with kept | ⟨succeeded, _⟩
          · exact (kept key).trans (same key)
          · cases failed.symm.trans succeeded) ⟨[], rfl, by simp, rfl, fun _ => rfl⟩
  intro after
  have isAfter : handler.handle event middle = (run, after) := ended
  have attempted : Attempted context event middle (run, after) := by
    rw [← isAfter]
    exact attempted_script context event middle
  obtain ⟨last, traced, attempt, storeKept, effect⟩ := attempted
  refine ⟨attempts, last, ?_, known, attempt, storeKept.trans store, ?_⟩
  · rw [← made]
    exact traced
  · rcases effect with kept | ⟨_, change⟩
    · exact Or.inl fun key => (kept key).trans (same key)
    · exact Or.inr (change.congr same)

/-- A delivery that carries no event makes no call. -/
theorem deliverTraced_of_nothing (nothing : envelope.event? accepts = none) :
    (deliverTraced context policy .indexSync envelope faults world).2 = ⟨[], ⟨faults, world⟩⟩ :=
  (process_of_event?_eq_none nothing).1

/-- A delivery of an event about which nothing is done makes no call. -/
theorem deliverTraced_of_idle (carries : envelope.event? accepts = some event)
    (idle : script context event = .done) :
    (deliverTraced context policy .indexSync envelope faults world).2 = ⟨[], ⟨faults, world⟩⟩ := by
  let handler := Route.indexSync.handler context services.scheduled.traced
  have handled : handler.handle event ⟨[], ⟨faults, world⟩⟩ =
      (.finished (.ok ()), ⟨[], ⟨faults, world⟩⟩) := by
    change (script context event).run _ _ = _
    rw [idle]
    rfl
  have carried : envelope.event? handler.accepts = some event := carries
  unfold deliverTraced
  rw [process_of_event?_eq_some carried, tryHandler_of_succeeds policy handled]

theorem contentId?_of_settles {id : String} (settles : event.settles? context = some id) :
    event.contentId? = some id := by
  cases event with
  | contentCreated created =>
      rw [Event.settles?] at settles
      split at settles
      · cases settles
      · exact settles
  | contentAuditPassed created => exact settles
  | contentUpdated updated => exact settles
  | contentDeleted deleted => exact settles
  | _ => cases settles

theorem contentId?_ne_of_identity {identity : IdentityEvent} (isIdentity : event = identity.toEvent)
    {id : String} : event.contentId? ≠ some id := by
  rw [isIdentity]
  cases identity <;> exact nofun

theorem settles?_ne_of_identity {identity : IdentityEvent} {id : String} :
    identity.toEvent.settles? context ≠ some id := by
  cases identity <;> exact nofun

theorem toEvent_injective {identity other : IdentityEvent}
    (same : identity.toEvent = other.toEvent) : identity = other := by
  cases identity <;> cases other <;> cases same <;> rfl

end Deliveries

/-! ## The frame -/

/-- What the delivery of an event about a piece of content may change: nothing under another key.
The calls are those of the attempts. A document that was not there before comes from the last two
calls, a lookup that was answered with a record that may be indexed, and the call that puts it
there. New content that waits for its approval changes nothing, and a deletion puts nothing. -/
structure ContentFrame (context : Context) (event : Event) (id : String) (world : World)
    (calls : List TracedCall) (after : World) : Prop where
  others : ∀ key, key ≠ id → after.index.get? key = world.index.get? key
  attempts : ∃ attempts : List (List TracedCall), calls = attempts.flatten ∧
    ∀ attempt ∈ attempts, Attempt context event attempt
  written : ∀ document, after.index.get? id = some document →
    world.index.get? id = some document ∨
      ∃ earlier record, record.isIndexable = true ∧
        calls = earlier ++ [⟨.findContent id, .replied (.ok (some record))⟩,
          ⟨.upsertDocument document, .replied (.ok ())⟩]
  waiting : ∀ created, event = .contentCreated created → context.auditRequired = true →
    calls = [] ∧ after = world
  deletion : event.isDeletion = true →
    after.index.get? id = none ∨ after.index.get? id = world.index.get? id

/-- What the delivery of an identity event may change: only nicknames and avatars, only to what the
event writes, and only in the documents of its user. An event that writes neither makes no call. -/
structure IdentityFrame (context : Context) (identity : IdentityEvent) (world : World)
    (calls : List TracedCall) (after : World) : Prop where
  keys : ∀ key, (after.index.get? key).isSome = (world.index.get? key).isSome
  authors : ∀ key document, world.index.get? key = some document →
    ∃ nickname avatar,
      after.index.get? key =
        some { document with userNickname := nickname, userAvatar := avatar } ∧
      (nickname = document.userNickname ∨
        (document.userId = identity.userId ∧ identity.WritesNickname context nickname)) ∧
      (avatar = document.userAvatar ∨
        (document.userId = identity.userId ∧ identity.WritesAvatar context avatar))
  silent : (∀ nickname, ¬identity.WritesNickname context nickname) →
    (∀ avatar, ¬identity.WritesAvatar context avatar) → calls = [] ∧ after = world

section Frames

variable {context : Context} {policy : RetryPolicy} {envelope : Envelope} {faults : List Fault}
  {world : World} {event : Event}

theorem contentFrame_deliver (policy : RetryPolicy) (faults : List Fault) (world : World)
    (carries : envelope.event? accepts = some event) {id : String}
    (about : event.contentId? = some id) :
    let after := (deliverTraced context policy .indexSync envelope faults world).2
    ContentFrame context event id world after.calls after.inner.inner := by
  intro after
  obtain ⟨attempts, last, made, known, attempt, _, effect⟩ :=
    delivered context policy faults world carries
  have ownId : ∀ {other : String}, event.settles? context = some other → other = id := by
    intro other settles
    exact Option.some.inj ((contentId?_of_settles settles).symm.trans about)
  constructor
  case others =>
    intro key other
    rcases effect with kept | change
    · exact kept key
    · cases change with
      | put settles keeps indexable named made effect =>
          rw [effect key, ownId settles, if_neg (Ne.symm other)]
      | removed settles effect => rw [effect key, ownId settles, if_neg (Ne.symm other)]
      | authors isIdentity effect => exact absurd about (contentId?_ne_of_identity isIdentity)
  case attempts =>
    refine ⟨attempts ++ [last], ?_, ?_⟩
    · rw [List.flatten_append, List.flatten_singleton]
      exact made
    · intro other member
      rcases List.mem_append.mp member with earlier | isLast
      · exact known other earlier
      · rw [List.mem_singleton.mp isLast]
        exact attempt
  case written =>
    intro document held
    rcases effect with kept | change
    · exact Or.inl ((kept id).symm.trans held)
    · cases change with
      | put settles keeps indexable named isLast effect =>
          obtain rfl := ownId settles
          rw [effect, if_pos rfl] at held
          cases held
          exact Or.inr ⟨attempts.flatten, _, indexable, by rw [made, isLast]⟩
      | removed settles effect =>
          rw [effect, if_pos (ownId settles)] at held
          cases held
      | authors isIdentity effect => exact absurd about (contentId?_ne_of_identity isIdentity)
  case waiting =>
    rintro created rfl waits
    have unchanged : after = ⟨[], ⟨faults, world⟩⟩ := deliverTraced_of_idle carries (if_pos waits)
    rw [unchanged]
    exact ⟨rfl, rfl⟩
  case deletion =>
    intro deletes
    rcases effect with kept | change
    · exact Or.inr (kept id)
    · cases change with
      | put settles keeps indexable named isLast effect => cases keeps.symm.trans deletes
      | removed settles effect => exact Or.inl (by rw [effect, if_pos (ownId settles)])
      | authors isIdentity effect => exact absurd about (contentId?_ne_of_identity isIdentity)

theorem identityFrame_deliver (policy : RetryPolicy) (faults : List Fault) (world : World)
    {identity : IdentityEvent} (carries : envelope.event? accepts = some identity.toEvent) :
    let after := (deliverTraced context policy .indexSync envelope faults world).2
    IdentityFrame context identity world after.calls after.inner.inner := by
  intro after
  obtain ⟨_, _, _, _, _, _, effect⟩ := delivered context policy faults world carries
  have effectOn : (∀ key, after.inner.inner.index.get? key = world.index.get? key) ∨
      ∀ key, after.inner.inner.index.get? key = (world.index.get? key).map
        (SearchIndex.overwritten identity.userId (identity.update context)) := by
    rcases effect with kept | change
    · exact Or.inl kept
    · cases change with
      | put settles => exact absurd settles settles?_ne_of_identity
      | removed settles => exact absurd settles settles?_ne_of_identity
      | authors isIdentity effect =>
          rw [toEvent_injective isIdentity]
          exact Or.inr effect
  constructor
  case keys =>
    intro key
    rcases effectOn with kept | overwritten
    · rw [kept]
    · rw [overwritten, Option.isSome_map]
  case authors =>
    intro key document held
    rcases effectOn with kept | overwritten
    · exact ⟨_, _, (kept key).trans held, Or.inl rfl, Or.inl rfl⟩
    · rw [overwritten, held, Option.map_some]
      exact IdentityEvent.exists_overwritten document
  case silent =>
    intro noNickname noAvatar
    have unchanged : after = ⟨[], ⟨faults, world⟩⟩ :=
      deliverTraced_of_idle carries (identity.script_of_writes_nothing noNickname noAvatar)
    rw [unchanged]
    exact ⟨rfl, rfl⟩

/-- A delivery for index synchronisation, whatever it carries and whatever is in the way of its
calls: the document store is as it was. Without an event there is no call at all. The event of a
piece of content changes the index at its own id only, and the event of an identity changes the
author fields of its user only. -/
theorem frame_of_delivery (context : Context) (policy : RetryPolicy) (envelope : Envelope)
    (faults : List Fault) (world : World) :
    let calls := callsOfDelivery context policy .indexSync envelope faults world
    let after := (deliver context policy .indexSync envelope faults world).2
    after.store = world.store ∧
      (envelope.Unhandled accepts → calls = [] ∧ after = world) ∧
      (∀ event id, envelope.event? accepts = some event → event.contentId? = some id →
        ContentFrame context event id world calls after) ∧
      (∀ identity : IdentityEvent, envelope.event? accepts = some identity.toEvent →
        IdentityFrame context identity world calls after) := by
  intro calls after
  have isAfter : after =
      (deliverTraced context policy .indexSync envelope faults world).2.inner.inner :=
    congrArg Prod.snd (deliver_eq_traced context policy .indexSync envelope faults world)
  rw [isAfter]
  refine ⟨?_, fun unhandled => ?_, fun event id carries about => ?_, fun identity carries => ?_⟩
  · cases carries : envelope.event? accepts with
    | none => rw [deliverTraced_of_nothing carries]
    | some event =>
        obtain ⟨_, _, _, _, _, store, _⟩ := delivered context policy faults world carries
        exact store
  · have unchanged : (deliverTraced context policy .indexSync envelope faults world).2 =
        ⟨[], ⟨faults, world⟩⟩ := deliverTraced_of_nothing unhandled.event?_eq_none
    refine ⟨congrArg Traced.calls unchanged, ?_⟩
    rw [unchanged]
  · exact contentFrame_deliver policy faults world carries about
  · exact identityFrame_deliver policy faults world carries

/-- An update with a nickname and a blank avatar can only change the nickname, and a change of one
post leaves the other posts alone. -/
theorem frame_of_delivery_authored :
    let renamed : Envelope := .carrying (.identityUpdated ⟨7, some "Bea", some " "⟩)
    let changed : Envelope := .carrying (.contentUpdated ⟨"q"⟩)
    let afterRenamed := (deliver .plain (.new 3 0) .indexSync renamed [] authored).2
    let afterChanged := (deliver .plain (.new 3 0) .indexSync changed [] authored).2
    afterRenamed.store = authored.store ∧
      (∃ nickname, (nickname = "Ann" ∨ nickname = "Bea") ∧ afterRenamed.index.get? "p" =
        some { id := "p", userId := 7, userNickname := nickname }) ∧
      afterChanged.index.get? "p" = authored.index.get? "p" := by
  intro renamed changed afterRenamed afterChanged
  have carriesIdentity : renamed.event? accepts =
      some (IdentityEvent.updated ⟨7, some "Bea", some " "⟩).toEvent := by decide +kernel
  have carriesContent : changed.event? accepts = some (.contentUpdated ⟨"q"⟩) := by decide +kernel
  obtain ⟨store, _, _, ofIdentity⟩ := frame_of_delivery .plain (.new 3 0) renamed [] authored
  obtain ⟨_, _, ofContent, _⟩ := frame_of_delivery .plain (.new 3 0) changed [] authored
  refine ⟨store, ?_, (ofContent _ "q" carriesContent rfl).others "p" (by decide)⟩
  obtain ⟨nickname, avatar, held, ofNickname, ofAvatar⟩ :=
    (ofIdentity _ carriesIdentity).authors "p" _ rfl
  refine ⟨nickname, ?_, ?_⟩
  · rcases ofNickname with same | ⟨_, writes⟩
    · exact Or.inl same
    · exact Or.inr (Option.some.inj writes.1).symm
  · rcases ofAvatar with same | ⟨_, writes⟩
    · rw [held, same]
    · obtain rfl := Option.some.inj writes.1
      exact absurd writes.2 (by decide)

end Frames

end IndexSync

end DualStore
