import DualStore.Event.Kind
import DualStore.Record.Shape

/-!
Contract: the payloads of events and their shapes.

Owns:
- one structure for each payload and, for each, its fields with their names and older names;
- the correspondence between a payload and the values of its record;
- what a payload supplies to others: media references, display name and avatar, blank values
  aside;
- events, which are a kind with its payload.

Does not own: the reading of a record.
-/

namespace DualStore

open DualStore.Record DualStore.Text

/-- A new or newly approved piece of content, in full. -/
structure ContentCreated where
  id : String
  authorId : Int64 := 0
  authorName : Option String := none
  authorAvatar : Option String := none
  title : String := ""
  body : String := ""
  tags : List String := []
  contentType : Int32 := 0
  media : List String := []
  video : Option String := none
  coverRef : Option String := none
  coverWidth : Int32 := 0
  coverHeight : Int32 := 0
  createdAt : Option WrittenTime := none
deriving DecidableEq, Repr

namespace ContentCreated

@[reducible] def fields : List Field :=
  [⟨"id", ["postId"], .identifier⟩,
   ⟨"authorId", ["userId"], .int64OrZero⟩,
   ⟨"authorName", ["userNickname"], .optionalText⟩,
   ⟨"authorAvatar", ["userAvatar"], .optionalText⟩,
   ⟨"title", [], .textOrEmpty⟩,
   ⟨"body", ["content"], .textOrEmpty⟩,
   ⟨"tags", [], .textsOrEmpty⟩,
   ⟨"contentType", ["type"], .int32OrZero⟩,
   ⟨"media", ["images"], .textsOrEmpty⟩,
   ⟨"video", [], .optionalText⟩,
   ⟨"coverRef", ["cover"], .optionalText⟩,
   ⟨"coverWidth", [], .int32OrZero⟩,
   ⟨"coverHeight", [], .int32OrZero⟩,
   ⟨"createdAt", [], .optionalTime⟩]

def ofValues : Values fields → ContentCreated :=
  fun (id, authorId, authorName, authorAvatar, title, body, tags, contentType, media, video,
      coverRef, coverWidth, coverHeight, createdAt, ()) =>
    { id, authorId, authorName, authorAvatar, title, body, tags, contentType, media, video,
      coverRef, coverWidth, coverHeight, createdAt }

def values (p : ContentCreated) : Values fields :=
  (p.id, p.authorId, p.authorName, p.authorAvatar, p.title, p.body, p.tags, p.contentType,
   p.media, p.video, p.coverRef, p.coverWidth, p.coverHeight, p.createdAt, ())

/-- The media references to index: the images, or the video when there are none and it is not
blank. -/
def resources (p : ContentCreated) : List String :=
  if p.media.isEmpty then p.video.toList.filter fun video => !isBlank video else p.media

end ContentCreated

structure ContentUpdated where
  id : String
deriving DecidableEq, Repr

namespace ContentUpdated

@[reducible] def fields : List Field := [⟨"id", ["postId"], .identifier⟩]

def ofValues : Values fields → ContentUpdated := fun (id, ()) => { id }

def values (p : ContentUpdated) : Values fields := (p.id, ())

end ContentUpdated

structure ContentDeleted where
  id : String
  operatorId : Option Int64 := none
deriving DecidableEq, Repr

namespace ContentDeleted

@[reducible] def fields : List Field :=
  [⟨"id", ["postId"], .identifier⟩, ⟨"operatorId", [], .optionalInt64⟩]

def ofValues : Values fields → ContentDeleted := fun (id, operatorId, ()) => { id, operatorId }

def values (p : ContentDeleted) : Values fields := (p.id, p.operatorId, ())

end ContentDeleted

structure IdentityUpdated where
  userId : Int64
  newDisplayName : Option String := none
  newAvatarRef : Option String := none
deriving DecidableEq, Repr

namespace IdentityUpdated

@[reducible] def fields : List Field :=
  [⟨"userId", [], .int64⟩,
   ⟨"newDisplayName", ["newNickname"], .optionalText⟩,
   ⟨"newAvatarRef", ["newAvatar"], .optionalText⟩]

def ofValues : Values fields → IdentityUpdated :=
  fun (userId, newDisplayName, newAvatarRef, ()) => { userId, newDisplayName, newAvatarRef }

def values (p : IdentityUpdated) : Values fields :=
  (p.userId, p.newDisplayName, p.newAvatarRef, ())

/-- The display name to propagate; a blank one is none. -/
def displayName (p : IdentityUpdated) : Option String :=
  p.newDisplayName.filter fun name => !isBlank name

/-- The avatar reference to propagate; a blank one is none. -/
def avatarRef (p : IdentityUpdated) : Option String :=
  p.newAvatarRef.filter fun avatar => !isBlank avatar

end IdentityUpdated

/-- The end of one user's account. -/
structure IdentityDeleted where
  userId : Int64
deriving DecidableEq, Repr

namespace IdentityDeleted

@[reducible] def fields : List Field := [⟨"userId", [], .int64⟩]

def ofValues : Values fields → IdentityDeleted := fun (userId, ()) => { userId }

def values (p : IdentityDeleted) : Values fields := (p.userId, ())

end IdentityDeleted

/-- One access to the platform's interface. -/
structure AuditLogEntry where
  traceId : String := ""
  category : String := ""
  module : Option String := none
  bizId : Option String := none
  actorId : Option Int64 := none
  actorName : Option String := none
  role : Option String := none
  action : String := ""
  resource : String := ""
  ip : Option String := none
  params : Option String := none
  outcome : Int32 := 0
  latencyMs : Int64 := 0
  description : Option String := none
  errorMsg : Option String := none
  timestamp : Option WrittenTime := none
deriving DecidableEq, Repr

namespace AuditLogEntry

@[reducible] def fields : List Field :=
  [⟨"traceId", [], .textOrEmpty⟩,
   ⟨"category", ["logType"], .textOrEmpty⟩,
   ⟨"module", [], .optionalText⟩,
   ⟨"bizId", [], .optionalText⟩,
   ⟨"actorId", ["userId"], .optionalInt64⟩,
   ⟨"actorName", ["username"], .optionalText⟩,
   ⟨"role", [], .optionalText⟩,
   ⟨"action", ["method"], .textOrEmpty⟩,
   ⟨"resource", ["uri"], .textOrEmpty⟩,
   ⟨"ip", [], .optionalText⟩,
   ⟨"params", [], .optionalText⟩,
   ⟨"outcome", ["status"], .int32OrZero⟩,
   ⟨"latencyMs", ["timeCost"], .int64OrZero⟩,
   ⟨"description", [], .optionalText⟩,
   ⟨"errorMsg", [], .optionalText⟩,
   ⟨"timestamp", ["createdAt"], .optionalTime⟩]

def ofValues : Values fields → AuditLogEntry :=
  fun (traceId, category, module, bizId, actorId, actorName, role, action, resource, ip, params,
      outcome, latencyMs, description, errorMsg, timestamp, ()) =>
    { traceId, category, module, bizId, actorId, actorName, role, action, resource, ip, params,
      outcome, latencyMs, description, errorMsg, timestamp }

def values (p : AuditLogEntry) : Values fields :=
  (p.traceId, p.category, p.module, p.bizId, p.actorId, p.actorName, p.role, p.action, p.resource,
   p.ip, p.params, p.outcome, p.latencyMs, p.description, p.errorMsg, p.timestamp, ())

end AuditLogEntry

/-- One search by one user. -/
structure SearchQueryIssued where
  userId : Int64 := 0
  keyword : String := ""
deriving DecidableEq, Repr

namespace SearchQueryIssued

@[reducible] def fields : List Field :=
  [⟨"userId", [], .int64OrZero⟩, ⟨"keyword", [], .textOrEmpty⟩]

def ofValues : Values fields → SearchQueryIssued := fun (userId, keyword, ()) =>
  { userId, keyword }

def values (p : SearchQueryIssued) : Values fields := (p.userId, p.keyword, ())

end SearchQueryIssued

/-- An event is a kind with its payload; approved content comes with the payload of new content. -/
inductive Event where
  | contentCreated (payload : ContentCreated)
  | contentAuditPassed (payload : ContentCreated)
  | contentUpdated (payload : ContentUpdated)
  | contentDeleted (payload : ContentDeleted)
  | identityUpdated (payload : IdentityUpdated)
  | identityDeleted (payload : IdentityDeleted)
  | auditLogEntry (payload : AuditLogEntry)
  | searchQueryIssued (payload : SearchQueryIssued)
deriving DecidableEq, Repr

def Event.kind : Event → Kind
  | contentCreated _ => .contentCreated
  | contentAuditPassed _ => .contentAuditPassed
  | contentUpdated _ => .contentUpdated
  | contentDeleted _ => .contentDeleted
  | identityUpdated _ => .identityUpdated
  | identityDeleted _ => .identityDeleted
  | auditLogEntry _ => .auditLogEntry
  | searchQueryIssued _ => .searchQueryIssued

/-- The shape of the payload that goes with a kind. -/
@[reducible] def Kind.shape : Kind → Shape
  | .contentCreated => ⟨"ContentCreated", ContentCreated.fields⟩
  | .contentAuditPassed => ⟨"ContentCreated", ContentCreated.fields⟩
  | .contentUpdated => ⟨"ContentUpdated", ContentUpdated.fields⟩
  | .contentDeleted => ⟨"ContentDeleted", ContentDeleted.fields⟩
  | .identityUpdated => ⟨"IdentityUpdated", IdentityUpdated.fields⟩
  | .identityDeleted => ⟨"IdentityDeleted", IdentityDeleted.fields⟩
  | .auditLogEntry => ⟨"AuditLogEntry", AuditLogEntry.fields⟩
  | .searchQueryIssued => ⟨"SearchQueryIssued", SearchQueryIssued.fields⟩

def Event.ofValues : (kind : Kind) → Values kind.shape.fields → Event
  | .contentCreated, v => .contentCreated (.ofValues v)
  | .contentAuditPassed, v => .contentAuditPassed (.ofValues v)
  | .contentUpdated, v => .contentUpdated (.ofValues v)
  | .contentDeleted, v => .contentDeleted (.ofValues v)
  | .identityUpdated, v => .identityUpdated (.ofValues v)
  | .identityDeleted, v => .identityDeleted (.ofValues v)
  | .auditLogEntry, v => .auditLogEntry (.ofValues v)
  | .searchQueryIssued, v => .searchQueryIssued (.ofValues v)

def Event.values : (event : Event) → Values event.kind.shape.fields
  | contentCreated payload => payload.values
  | contentAuditPassed payload => payload.values
  | contentUpdated payload => payload.values
  | contentDeleted payload => payload.values
  | identityUpdated payload => payload.values
  | identityDeleted payload => payload.values
  | auditLogEntry payload => payload.values
  | searchQueryIssued payload => payload.values

/-- An event is determined by its kind and its payload values. -/
theorem Event.ofValues_values (event : Event) : Event.ofValues event.kind event.values = event := by
  cases event <;> rfl

theorem Event.kind_ofValues (kind : Kind) (values : Values kind.shape.fields) :
    (Event.ofValues kind values).kind = kind := by
  cases kind <;> rfl

/-- What is read for a kind makes an event exactly if the event is of that kind and its payload has
the values that were read. -/
theorem Event.map_ofValues_eq_some_iff (read : (kind : Kind) → Option (Values kind.shape.fields))
    {kind : Kind} {event : Event} :
    (read kind).map (Event.ofValues kind) = some event ↔
      event.kind = kind ∧ read event.kind = some event.values := by
  constructor
  · intro made
    obtain ⟨values, isRead, rfl⟩ := Option.map_eq_some_iff.mp made
    cases kind <;> exact ⟨rfl, isRead⟩
  · rintro ⟨rfl, isRead⟩
    rw [isRead, Option.map_some, ofValues_values]

/-- Decodes a body into the payload that a kind selects. -/
def Event.decode (kind : Kind) (body : List UInt8) : Except Json.Failure Event :=
  (kind.shape.read body).map (Event.ofValues kind)

end DualStore
