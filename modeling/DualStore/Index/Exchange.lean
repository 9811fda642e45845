import DualStore.Index.Document
import DualStore.Index.Path
import DualStore.Json.Diagnosis

/-!
Contract: what is asked of a search server, and what its replies mean.

Owns:
- requests and replies, and exchanges, which are finite programs of requests;
- the exchange of every operation on the index;
- the fields of the index with their types, and the script that writes author fields, whose values
  are parameters and never part of the script.

Does not own: connections to a server.
-/

namespace DualStore

open DualStore.Json DualStore.Record DualStore.Text

inductive Method where
  | head
  | put
  | post
  | delete
deriving DecidableEq, Repr

/-- A request: a method, a resolved path, and a body if any. -/
structure Request where
  method : Method
  path : String
  body : Option Tree := none
deriving Repr

/-- The reply to a request: a status with a body, or a connection that ends. -/
inductive WebReply where
  | answered (status : Nat) (body : List UInt8)
  | closed
deriving DecidableEq, Repr

/-- A program of requests: it ends, or it sends a request and goes on with the reply. -/
inductive Exchange (α : Type) where
  | finish (result : Except IndexError α)
  | send (request : Request) (resume : WebReply → Exchange α)

namespace Exchange

/-- Runs an exchange against a server with a state. -/
def run (serve : Request → σ → WebReply × σ) : Exchange α → σ → Except IndexError α × σ
  | finish result, state => (result, state)
  | send request resume, state =>
      let (reply, state) := serve request state
      (resume reply).run serve state

def refused (status : Nat) (body : List UInt8) : Exchange α :=
  .finish (.error (.status status (String.ofList (Utf8.decodeLossy body))))

def lost : Exchange α := .finish (.error (.connection "connection closed"))

end Exchange

def isSuccess (status : Nat) : Bool := 200 ≤ status && status < 300

structure IndexServer where
  address : Address
  index : String
deriving DecidableEq, Repr

namespace IndexServer

def path (server : IndexServer) (below : List String) : String :=
  Path.resolve server.address (Path.segment server.index :: below)

def documentPath (server : IndexServer) (id : String) : String :=
  server.path ["_doc", Path.segment id]

/-- A field of the index with its type. -/
def typed (name type : String) (more : List (String × Tree)) : String × Tree :=
  (name, .members (("type", .text type) :: more))

/-- The fields of the index. What is only shown is not searched. -/
def mapping : Tree :=
  let shown := [("index", Tree.bool false)]
  let exact := [("fields", Tree.members [typed "keyword" "keyword" []])]
  let dates :=
    [("format", Tree.text "yyyy-MM-dd'T'HH:mm:ss.SSS||strict_date_optional_time||epoch_millis")]
  .members [("mappings", .members [("properties", .members
    [typed "id" "keyword" [],
     typed "userId" "long" [],
     typed "title" "text" [],
     typed "content" "text" [],
     typed "tags" "keyword" [],
     typed "type" "integer" [],
     typed "resources" "keyword" shown,
     typed "cover" "keyword" shown,
     typed "coverWidth" "integer" [],
     typed "coverHeight" "integer" [],
     typed "userNickname" "text" exact,
     typed "userAvatar" "keyword" shown,
     typed "likeCount" "long" [],
     typed "collectCount" "long" [],
     typed "commentCount" "long" [],
     typed "createdAt" "date" dates])])]

/-- The script that writes author fields, with its parameters. -/
def authorScript (update : AuthorUpdate) : Tree :=
  let part (value : Option String) (statement : String) : String :=
    if value.isSome then statement else ""
  let source :=
    part update.nickname "ctx._source.userNickname = params.nickname;" ++
      part update.avatar "ctx._source.userAvatar = params.avatar;"
  let params :=
    (update.nickname.toList.map fun nickname => ("nickname", Tree.text nickname)) ++
      (update.avatar.toList.map fun avatar => ("avatar", Tree.text avatar))
  .members [("source", .text source), ("lang", .text "painless"), ("params", .members params)]

def ping (server : IndexServer) : Exchange Unit :=
  .send ⟨.head, Path.resolve server.address [""], none⟩ fun
    | .closed => .lost
    | .answered status body =>
        if isSuccess status then .finish (.ok ()) else .refused status body

/-- The mark of an answer that the index exists already. -/
def alreadyExists : String := "resource_already_exists_exception"

def occursIn (part : List Char) : List Char → Bool
  | [] => part.isEmpty
  | c :: cs => part.isPrefixOf (c :: cs) || occursIn part cs

/-- Makes sure that the index exists. Between the two requests another process may make it. -/
def ensure (server : IndexServer) : Exchange Unit :=
  .send ⟨.head, server.path [], none⟩ fun
    | .closed => .lost
    | .answered status _ =>
        if isSuccess status then .finish (.ok ())
        else
          .send ⟨.put, server.path [], some mapping⟩ fun
            | .closed => .lost
            | .answered status body =>
                if isSuccess status || occursIn alreadyExists.toList (Utf8.decodeLossy body) then
                  .finish (.ok ())
                else .refused status body

def upsert (server : IndexServer) (document : IndexDocument) : Exchange Unit :=
  .send ⟨.post, server.documentPath document.id, some document.tree⟩ fun
    | .closed => .lost
    | .answered status body =>
        if isSuccess status then .finish (.ok ()) else .refused status body

/-- Removes a document; a status of 404 tells that there was none. -/
def delete (server : IndexServer) (id : String) : Exchange Removal :=
  .send ⟨.delete, server.documentPath id, none⟩ fun
    | .closed => .lost
    | .answered status body =>
        if isSuccess status then .finish (.ok .removed)
        else if status = 404 then .finish (.ok .notFound)
        else .refused status body

/-- Writes author fields of every document of a user, going on past documents that change
meanwhile; the count is that of the documents updated. Without any field nothing is sent. -/
def updateAuthor (server : IndexServer) (userId : Int64) (update : AuthorUpdate) : Exchange Nat :=
  if update.isEmpty then .finish (.ok 0)
  else
    let body : Tree := .members
      [("script", authorScript update),
       ("query", .members [("term", .members [("userId", treeOfInt userId.toInt)])]),
       ("conflicts", .text "proceed")]
    .send ⟨.post, server.path ["_update_by_query"], some body⟩ fun
      | .closed => .lost
      | .answered status body =>
          if isSuccess status then
            match parse body with
            | .ok summary =>
                .finish (.ok (((summary.get? "updated").bind Tree.nat64?).getD 0))
            | .error diagnosis => .finish (.error (.connection diagnosis.message))
          else .refused status body

end IndexServer

end DualStore
