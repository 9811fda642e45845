import DualStore.Event.Payload
import DualStore.Store.Collection
import DualStore.Store.Projection

/-!
Contract: what is asked of a document server, and what its replies mean.

Owns:
- the commands, and the document that each one is sent as;
- the command of every operation on the store: a post is looked up by an object identifier where
  its id spells one, and by the text otherwise;
- the result of an operation as read from the reply.

Does not own: connections to a server.
-/

namespace DualStore

open DualStore.Time

/-- Which documents an update touches: every one that matches, or one that is made when none
matches. -/
inductive UpdateMode where
  | every
  | oneOrNew
deriving DecidableEq, Repr

inductive Command where
  | ping
  | findOne (collection : Collection) (filter : Bson.Fields)
  | update (collection : Collection) (filter changes : Bson.Fields) (mode : UpdateMode)
  | deleteEvery (collection : Collection) (filter : Bson.Fields)
  | insert (collection : Collection) (document : Bson.Fields)
deriving Repr

inductive CommandReply where
  /-- The command succeeded and told nothing. -/
  | done
  /-- The first document that was found. -/
  | found (document : Option Bson.Fields)
  | written (touched changed : Nat)
  /-- The command failed, or the server could not be reached. -/
  | failed (transient : Bool) (detail : String)
deriving Repr

namespace Command

/-- The document that a command is sent as. -/
def fields : Command → Bson.Fields
  | ping => [("ping", .int32 1)]
  | findOne collection filter =>
      [("find", .text collection.name), ("filter", .document filter), ("limit", .int64 1),
       ("singleBatch", .boolean true)]
  | update collection filter changes mode =>
      let option :=
        match mode with
        | .every => ("multi", Bson.boolean true)
        | .oneOrNew => ("upsert", Bson.boolean true)
      [("update", .text collection.name), ("ordered", .boolean true),
       ("updates", .array [.document [("q", .document filter), ("u", .document changes), option]])]
  | deleteEvery collection filter =>
      [("delete", .text collection.name), ("ordered", .boolean true),
       ("deletes", .array [.document [("q", .document filter), ("limit", .int32 0)]])]
  | insert collection document =>
      [("insert", .text collection.name), ("ordered", .boolean true),
       ("documents", .array [.document document])]

/-- The identifier that an id from a message is looked up by. -/
def identifier (id : String) : Bson :=
  match ObjectId.parse? id with
  | some objectId => .objectId objectId
  | none => .text id

def findContent (id : String) : Command := .findOne .posts [("_id", identifier id)]

def userFilter (field : String) (userId : Int64) : Bson.Fields := [(field, .int64 userId)]

/-- Sets a key in fields, in place where it is there already. -/
def setField (key : String) (value : Bson) : Bson.Fields → Bson.Fields
  | [] => [(key, value)]
  | (k, v) :: fields =>
      if k == key then (k, value) :: fields else (k, v) :: setField key value fields

/-- Sets fields of every document of a user; without any field there is nothing to send. -/
def updateByUser? (collection : Collection) (field : String) (userId : Int64)
    (updates : List (String × String)) : Option Command :=
  if updates.isEmpty then none
  else
    let changes := updates.foldl (fun fields u => setField u.1 (.text u.2) fields) []
    some (.update collection (userFilter field userId) [("$set", .document changes)] .every)

def deleteByUser (collection : Collection) (field : String) (userId : Int64) : Command :=
  .deleteEvery collection (userFilter field userId)

/-- The date of a time, rounded down to milliseconds. -/
def date (time : ZonedTime) : Bson := .dateTime (Int64.ofInt time.instant.millis)

def insertAuditLog (entry : AuditLogEntry) (time : ZonedTime) : Command :=
  .insert .apiLogs
    [("traceId", .text entry.traceId),
     ("logType", .text entry.category),
     ("module", .ofText? entry.module),
     ("bizId", .ofText? entry.bizId),
     ("userId", .ofInt64? entry.actorId),
     ("username", .ofText? entry.actorName),
     ("role", .ofText? entry.role),
     ("method", .text entry.action),
     ("uri", .text entry.resource),
     ("ip", .ofText? entry.ip),
     ("params", .ofText? entry.params),
     ("status", .int32 entry.outcome),
     ("timeCost", .int64 entry.latencyMs),
     ("description", .ofText? entry.description),
     ("errorMsg", .ofText? entry.errorMsg),
     ("createdAt", date time)]

/-- Records a query; the creation time is written only with a new record. -/
def upsertSearchHistory (userId : Int64) (keyword : String) (now : ZonedTime) : Command :=
  .update .searchHistories [("userId", .int64 userId), ("keyword", .text keyword)]
    [("$set", .document [("updatedAt", date now)]),
     ("$setOnInsert", .document
       [("userId", .int64 userId), ("keyword", .text keyword), ("createdAt", date now)])]
    .oneOrNew

end Command

namespace CommandReply

/-- The failure of a reply that does not answer its command. -/
def misplaced : StoreError := .client false "unexpected reply"

def acknowledged : CommandReply → Except StoreError Unit
  | failed transient detail => .error (.client transient detail)
  | _ => .ok ()

/-- The record of a post that was looked up. -/
def content : CommandReply → Except StoreError (Option ContentRecord)
  | found none => .ok none
  | found (some document) => (ContentRecord.ofFields document).map some
  | failed transient detail => .error (.client transient detail)
  | _ => .error misplaced

def changedCount : CommandReply → Except StoreError Nat
  | written _ changed => .ok changed
  | failed transient detail => .error (.client transient detail)
  | _ => .error misplaced

def touchedCount : CommandReply → Except StoreError Nat
  | written touched _ => .ok touched
  | failed transient detail => .error (.client transient detail)
  | _ => .error misplaced

end CommandReply

end DualStore
