import DualStore.Proofs.Memory.Service
import DualStore.Proofs.Store.Lookup
import DualStore.Remote

/-!
Contract: posts that are kept on a document server, beside an index in memory.

Owns:
- posts that are found only by their identifier, and the services that look them up on their server;
- lookups: each one succeeds, and a record that is found spells its id as records do;
- calls to the index, which are answered as in memory.

Does not own: posts that change.
-/

namespace DualStore

open Memory

/-- Posts on a document server that finds a post only by its identifier. -/
structure FixedPosts where
  find : Bson.Fields → Option Bson.Fields
  found : ∀ {identifier : Bson} {post : Bson.Fields}, find [("_id", identifier)] = some post →
    ∃ stored, post.get? "_id" = some stored ∧ (stored == identifier) = true

namespace FixedPosts

/-- The posts of a list, of which the first that has every field of a filter is found. -/
def ofList (posts : List Bson.Fields) : FixedPosts where
  find filter := posts.find? fun post => filter.all fun field =>
    (post.get? field.1).any (· == field.2)
  found {identifier post} selected := by
    have equal := List.find?_some selected
    simpa [Option.any_eq_true] using equal

/-- The server of the posts. -/
def server (posts : FixedPosts) : Servers World where
  obey command world :=
    match command with
    | .findOne .posts filter => (.found (posts.find filter), world)
    | _ => (.done, world)
  serve _ world := (.closed, world)
  clock := World.readClock

/-- Lookups of content go to the server; all else is in memory. -/
def services (posts : FixedPosts) : Services World where
  answer
    | .findContent id, world =>
        posts.server.command (.findContent id) CommandReply.content world
    | command, world => World.answer command world
  clock := World.readClock

variable (posts : FixedPosts)

def post? (id : String) : Option Bson.Fields := posts.find [("_id", Command.identifier id)]

def record? (id : String) : Option ContentRecord :=
  (posts.post? id).bind fun post => (ContentRecord.ofFields post).toOption

/-- Whether an id has a record that may be indexed. -/
def isEligible (id : String) : Bool := (posts.record? id).any (·.isIndexable)

theorem isEligible_iff {id : String} : posts.isEligible id = true ↔
    ∃ record, posts.record? id = some record ∧ record.isIndexable = true := by
  unfold isEligible
  cases posts.record? id <;> simp

/-! ## Lookups -/

theorem ofFields_of_post? {id : String} {post : Bson.Fields} (found : posts.post? id = some post) :
    ∃ record, ContentRecord.ofFields post = .ok record ∧ record.id = Command.spelling id := by
  obtain ⟨stored, identified, same⟩ := posts.found found
  refine ContentRecord.ofFields_of_idText? ?_
  rw [identified, Command.eq_identifier_of_same same]
  exact Command.idText?_identifier id

/-- The record under an id is spelled as records are. -/
theorem id_of_record? {id : String} {record : ContentRecord}
    (found : posts.record? id = some record) : record.id = Command.spelling id := by
  unfold record? at found
  cases post : posts.post? id with
  | none =>
      rw [post] at found
      cases found
  | some fields =>
      obtain ⟨projected, succeeded, spelled⟩ := posts.ofFields_of_post? post
      rw [post, Option.bind_some, succeeded] at found
      cases found
      exact spelled

theorem answer_findContent (id : String) (world : World) :
    posts.services.answer (.findContent id) world = (.replied (.ok (posts.record? id)), world) := by
  change (Answer.replied
    ((CommandReply.content (.found (posts.post? id))).mapError SyncError.store), world) = _
  unfold record?
  cases post : posts.post? id with
  | none => rfl
  | some fields =>
      obtain ⟨record, succeeded, _⟩ := posts.ofFields_of_post? post
      rw [Option.bind_some, succeeded, CommandReply.content, succeeded]
      rfl

theorem answer_of_isIndexCall {command : Call} (toIndex : command.isIndexCall = true)
    (world : World) :
    posts.services.answer command world = World.services.answer command world := by
  cases command <;> first | rfl | cases toIndex

/-- A script of one call to the index runs as it does in memory. -/
theorem run_indexCall {command : Call} (toIndex : command.isIndexCall = true)
    (state : Scheduled World) :
    (Script.call command fun _ => .done).run posts.services.scheduled state =
      (Script.call command fun _ => .done).run World.services.scheduled state := by
  have calls : (Script.call command fun _ => Script.done).Calls fun other =>
      other.isIndexCall = true :=
    Script.calls_call.mpr ⟨toIndex, fun _ => Script.calls_done⟩
  exact Script.run_congr
    (fun other state toIndex => scheduled_answer_congr (posts.answer_of_isIndexCall toIndex _))
    rfl calls state

end FixedPosts

end DualStore
