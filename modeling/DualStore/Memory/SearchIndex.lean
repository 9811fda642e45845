import DualStore.Sync.Script

/-!
Contract: a search index in memory.

Owns:
- its state: documents with distinct ids, the count of calls that are still to fail, and the count
  of calls made;
- every operation of a search index on it.

Does not own: the order of its documents, which shows nowhere.
-/

namespace DualStore.Memory

structure SearchIndex where
  documents : List IndexDocument := []
  failures : Nat := 0
  calls : Nat := 0
deriving Repr

namespace SearchIndex

def get? (index : SearchIndex) (id : String) : Option IndexDocument :=
  index.documents.find? fun d => d.id == id

/-- Puts a document into a list, in place where one of its id is there already. -/
def putIn (document : IndexDocument) : List IndexDocument → List IndexDocument
  | [] => [document]
  | d :: documents =>
      if d.id == document.id then document :: documents else d :: putIn document documents

def put (index : SearchIndex) (document : IndexDocument) : SearchIndex :=
  { index with documents := putIn document index.documents }

def erase (index : SearchIndex) (id : String) : SearchIndex :=
  { index with documents := index.documents.filter fun d => d.id != id }

/-- Writes author fields over in every document of a user. -/
def overwriteAuthor (index : SearchIndex) (userId : Int64) (update : AuthorUpdate) : SearchIndex :=
  { index with
    documents := index.documents.map fun d => if d.userId = userId then update.apply d else d }

/-- The answer of an overloaded server. -/
def overloaded : IndexError := .status 503 "service unavailable"

/-- Counts a call, and fails it while calls are to fail. -/
def enter (index : SearchIndex) : Except IndexError Unit × SearchIndex :=
  let index := { index with calls := index.calls + 1 }
  match index.failures with
  | 0 => (.ok (), index)
  | failures + 1 => (.error overloaded, { index with failures })

def failNext (index : SearchIndex) (count : Nat) : SearchIndex := { index with failures := count }

/-- An operation that goes on only when its call does not fail. -/
def entered (index : SearchIndex) (operate : SearchIndex → α × SearchIndex) :
    Except IndexError α × SearchIndex :=
  match index.enter with
  | (.error error, index) => (.error error, index)
  | (.ok (), index) => (.ok (operate index).1, (operate index).2)

/-- Answers a sign of life; making sure that the index exists does no more. -/
def ping (index : SearchIndex) : Except IndexError Unit × SearchIndex :=
  index.entered fun index => ((), index)

def upsert (index : SearchIndex) (document : IndexDocument) :
    Except IndexError Unit × SearchIndex :=
  index.entered fun index => ((), index.put document)

def delete (index : SearchIndex) (id : String) : Except IndexError Removal × SearchIndex :=
  index.entered fun index =>
    (if (index.get? id).isSome then .removed else .notFound, index.erase id)

def updateAuthor (index : SearchIndex) (userId : Int64) (update : AuthorUpdate) :
    Except IndexError Nat × SearchIndex :=
  index.entered fun index =>
    ((index.documents.filter fun d => d.userId = userId).length,
      index.overwriteAuthor userId update)

end SearchIndex

end DualStore.Memory
