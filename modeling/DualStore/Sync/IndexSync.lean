import DualStore.Sync.Context
import DualStore.Sync.Script

/-!
Contract: the search index follows the document store.

Owns: the scripts of content and identity events. New content is indexed from its payload, changed
content from its record, but only while the record read in the same handling may be indexed;
otherwise the document is removed. Deleted content is removed, and author fields are written over
for all documents of a user.

Does not own: how the index finds the documents of a user.
-/

namespace DualStore.IndexSync

/-- Content and identities belong here. -/
def accepts : Kind → Bool
  | .auditLogEntry | .searchQueryIssued => false
  | _ => true

/-- Removes a document; one that is absent already is as good. -/
def remove (id : String) : Script :=
  .call (.deleteDocument id) fun _ => .done

def put (document : IndexDocument) : Script :=
  .call (.upsertDocument document) fun () => .done

/-- Reads the record of an id; indexes what it is projected to while it may be indexed, and
removes the document of that id otherwise. -/
def reconcileWith (id : String) (project : ContentRecord → IndexDocument) : Script :=
  .call (.findContent id) fun
    | some record => if record.isIndexable then put (project record) else remove id
    | none => remove id

def indexCreated (context : Context) (created : ContentCreated) : Script :=
  reconcileWith created.id fun record => .ofEvent created record context.offset

def reconcile (context : Context) (id : String) : Script :=
  reconcileWith id fun record => .ofRecord record context.offset

/-- Writes author fields over; without any field there is nothing to call. -/
def overwriteAuthor (userId : Int64) (update : AuthorUpdate) : Script :=
  if update.isEmpty then .done else .call (.updateAuthor userId update) fun _ => .done

def script (context : Context) : Event → Script
  | .contentCreated created =>
      if context.auditRequired then .done else indexCreated context created
  | .contentAuditPassed created => indexCreated context created
  | .contentUpdated updated => reconcile context updated.id
  | .contentDeleted deleted => remove deleted.id
  | .identityUpdated identity => overwriteAuthor identity.userId (.ofIdentity identity)
  | .identityDeleted identity =>
      overwriteAuthor identity.userId
        { nickname := some context.placeholder.nickname, avatar := some context.placeholder.avatar }
  | .auditLogEntry _ | .searchQueryIssued _ => .done

end DualStore.IndexSync
