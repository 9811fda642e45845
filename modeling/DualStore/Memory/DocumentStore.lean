import DualStore.Memory.Document
import DualStore.Sync.Script

/-!
Contract: a document store in memory.

Owns:
- its state: documents by collection, access records, the search history, which collections fail,
  and the log of the writes by user;
- every operation of a document store on it, where a failing collection is left as it is.

Does not own: the order in which operations are called.
-/

namespace DualStore.Memory

open DualStore.Json DualStore.Time

structure HistoryRecord where
  userId : Int64
  keyword : String
  createdAt : ZonedTime
  updatedAt : ZonedTime
deriving DecidableEq, Repr

structure DocumentStore where
  documents : Collection → List Document := fun _ => []
  auditLog : List (AuditLogEntry × ZonedTime) := []
  history : List HistoryRecord := []
  failing : Collection → Bool := fun _ => false
  failEverything : Bool := false
  isShutDown : Bool := false
  operations : List String := []

namespace DocumentStore

def replace (store : DocumentStore) (collection : Collection) (documents : List Document) :
    DocumentStore :=
  { store with
    documents := fun other => if other = collection then documents else store.documents other }

def insert (store : DocumentStore) (collection : Collection) (document : Document) :
    DocumentStore :=
  store.replace collection (store.documents collection ++ [document])

/-- Whether two identifiers are the same; an absent one is no other's same. -/
def sameId (left right : Option Tree) : Bool :=
  match left, right with
  | some left, some right => left == right
  | _, _ => false

/-- Replaces the post with the same identifier, or adds the post. -/
def putPost (store : DocumentStore) (post : Document) : DocumentStore :=
  let id := some ((post.get? "_id").getD .null)
  let others := (store.documents .posts).filter fun d => !sameId (d.get? "_id") id
  (store.replace .posts others).insert .posts post

/-- Makes a collection fail from now on. -/
def failCollection (store : DocumentStore) (collection : Collection) : DocumentStore :=
  { store with failing := fun other => other = collection || store.failing other }

def isDown (store : DocumentStore) (collection : Collection) : Bool :=
  store.failEverything || store.isShutDown || store.failing collection

def downError (collection : Collection) : StoreError :=
  .unavailable (collection.name ++ " is down")

def log (store : DocumentStore) (operation : String) : DocumentStore :=
  { store with operations := store.operations ++ [operation] }

def ping (store : DocumentStore) : Except StoreError Unit :=
  if store.failEverything then .error (.unavailable "ping failed") else .ok ()

/-- The documents of a collection whose field holds a user. -/
def matching (store : DocumentStore) (collection : Collection) (field : String) (userId : Int64) :
    List Document :=
  (store.documents collection).filter fun d => d.names field userId

def findContent (store : DocumentStore) (id : String) :
    Except StoreError (Option ContentRecord) :=
  if store.isDown .posts then .error (downError .posts)
  else
    .ok (((store.documents .posts).find? fun d => (d.get? "_id").bind Tree.text? == some id).map
      Document.record)

def updateByUser (store : DocumentStore) (collection : Collection) (field : String)
    (userId : Int64) (updates : List (String × String)) : Except StoreError Nat × DocumentStore :=
  let store := store.log ("update " ++ collection.name ++ "." ++ field)
  if store.isDown collection then (.error (downError collection), store)
  else
    (.ok (store.matching collection field userId).length,
      store.replace collection ((store.documents collection).map fun d =>
        if d.names field userId then d.setTexts updates else d))

def deleteByUser (store : DocumentStore) (collection : Collection) (field : String)
    (userId : Int64) : Except StoreError Nat × DocumentStore :=
  let store := store.log ("delete " ++ collection.name ++ "." ++ field)
  if store.isDown collection then (.error (downError collection), store)
  else
    (.ok (store.matching collection field userId).length,
      store.replace collection ((store.documents collection).filter fun d =>
        !d.names field userId))

def insertAuditLog (store : DocumentStore) (entry : AuditLogEntry) (time : ZonedTime) :
    Except StoreError Unit × DocumentStore :=
  if store.isDown .apiLogs then (.error (downError .apiLogs), store)
  else (.ok (), { store with auditLog := store.auditLog ++ [(entry, time)] })

/-- A record of the history after a query: a new one begins with the query, an old one keeps the
time of its beginning. -/
def recordQuery (userId : Int64) (keyword : String) (now : ZonedTime) :
    List HistoryRecord → List HistoryRecord
  | [] => [⟨userId, keyword, now, now⟩]
  | r :: rest =>
      if r.userId = userId ∧ r.keyword = keyword then { r with updatedAt := now } :: rest
      else r :: recordQuery userId keyword now rest

def upsertSearchHistory (store : DocumentStore) (userId : Int64) (keyword : String)
    (now : ZonedTime) : Except StoreError Unit × DocumentStore :=
  if store.isDown .searchHistories then (.error (downError .searchHistories), store)
  else (.ok (), { store with history := recordQuery userId keyword now store.history })

end DocumentStore

end DualStore.Memory
