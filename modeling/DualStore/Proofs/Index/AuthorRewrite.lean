import DualStore.Proofs.Identity.Effect
import DualStore.Proofs.Index.Addressing
import DualStore.Proofs.Memory.Session
import DualStore.Remote

/-!
Contract: what the acknowledgement of a rewritten author tells.

Owns:
- the one request of a rewriting, and the replies to such requests when they are repeated;
- what a reply is taken for: a summary of what was rewritten, a failure that passes, or one that
  does not;
- the attempts of a delivery: each takes one reply, and the delivery is acknowledged exactly when
  the last one is a summary, whatever that reports;
- from this, when an acknowledgement means that no document was left out.

Does not own: how a server finds the documents and what comes in its way.
-/

namespace DualStore

open DualStore.Json DualStore.Text

/-! ## Replies -/

/-- A summary of a rewriting that left no document out: it counts no conflict of versions and lists
no failure. -/
def Json.Tree.reportsAll (summary : Tree) : Bool :=
  match summary with
  | .members _ =>
      (summary.get? "version_conflicts").all (·.nat64? == some 0) &&
        (summary.get? "failures").all fun failures => failures.items?.any List.isEmpty
  | _ => false

namespace WebReply

/-- The summary in a reply of success. -/
def summary? : WebReply → Option Tree
  | .answered status body => if isSuccess status then (parse body).toOption else none
  | .closed => none

/-- A reply after which a rewriting is tried again: the connection or the summary is lost, or the
server is overloaded or failing. -/
def isRetried : WebReply → Bool
  | .answered status body =>
      if isSuccess status then (parse body).toOption.isNone else status = 429 || 500 ≤ status
  | .closed => true

/-- What a reply to a rewriting is taken for: the count in its summary, or a failure. -/
def rewritten : WebReply → Except IndexError Nat
  | .answered status body =>
      if isSuccess status then
        match parse body with
        | .ok summary => .ok (((summary.get? "updated").bind Tree.nat64?).getD 0)
        | .error diagnosis => .error (.connection diagnosis.message)
      else .error (.status status (String.ofList (Utf8.decodeLossy body)))
  | .closed => .error (.connection "connection closed")

variable {reply : WebReply}

/-- Every summary is taken for a success, whatever it reports. -/
theorem rewritten_ok_iff :
    (∃ count, reply.rewritten = .ok count) ↔ reply.summary?.isSome = true := by
  cases reply with
  | closed => simp [rewritten, summary?]
  | answered status body =>
      by_cases success : isSuccess status = true
      · cases read : parse body <;> simp [rewritten, summary?, success, read, Except.toOption]
      · simp [rewritten, summary?, success]

theorem rewritten_transient_iff :
    (∃ error, reply.rewritten = .error error ∧ error.isTransient = true) ↔
      reply.isRetried = true := by
  cases reply with
  | closed => simp [rewritten, isRetried, IndexError.isTransient]
  | answered status body =>
      by_cases success : isSuccess status = true
      · cases read : parse body <;>
          simp [rewritten, isRetried, success, read, Except.toOption, IndexError.isTransient]
      · simp [rewritten, isRetried, success, IndexError.isTransient]

end WebReply

/-! ## Requests -/

/-- The request to write author fields over all documents of a user. -/
def IndexServer.authorRequest (server : IndexServer) (userId : Int64) (update : AuthorUpdate) :
    Request :=
  ⟨.post, server.path ["_update_by_query"], some (.members
    [("script", IndexServer.authorScript update),
     ("query", .members [("term", .members [("userId", Record.treeOfInt userId.toInt)])]),
     ("conflicts", .text "proceed")])⟩

namespace Servers

/-- The state of the servers after so many requests of one kind. -/
def afterRequests (servers : Servers σ) (request : Request) (number : Nat) (state : σ) : σ :=
  (fun state => (servers.serve request state).2)^[number] state

/-- The reply to a request that has been put to the server so many times before. -/
def reply (servers : Servers σ) (request : Request) (state : σ) (number : Nat) : WebReply :=
  (servers.serve request (servers.afterRequests request number state)).1

/-- Servers that give replies one after the other, whatever is requested. -/
def replying (replies : Nat → WebReply) : Servers Nat :=
  { unreachable with serve := fun _ number => (replies number, number + 1) }

/-- Replies in any order are those of some server. -/
theorem reply_replying (replies : Nat → WebReply) (request : Request) (number : Nat) :
    (replying replies).reply request 0 number = replies number := by
  have counted : (replying replies).afterRequests request number 0 = number := by
    induction number with
    | zero => rfl
    | succ number inductionHypothesis =>
        rw [afterRequests] at inductionHypothesis ⊢
        rw [Function.iterate_succ_apply', inductionHypothesis]
        rfl
  rw [reply, counted]
  rfl

end Servers

/-- A rewriting puts one request to the server and ends with what the reply is taken for. -/
theorem IndexServer.run_updateAuthor (server : IndexServer) (serve : Request → σ → WebReply × σ)
    {userId : Int64} {update : AuthorUpdate} (writes : update.isEmpty = false) (state : σ) :
    (server.updateAuthor userId update).run serve state =
      ((serve (server.authorRequest userId update) state).1.rewritten,
        (serve (server.authorRequest userId update) state).2) := by
  rw [updateAuthor, writes]
  change Exchange.run serve (.send (server.authorRequest userId update) _) state = _
  rw [Exchange.run]
  cases serve (server.authorRequest userId update) state with
  | mk reply after =>
      cases reply with
      | closed => rfl
      | answered status body =>
          dsimp only [WebReply.rewritten]
          by_cases success : isSuccess status = true
          · rw [if_pos success, if_pos success]
            cases parse body <;> rfl
          · rw [if_neg success, if_neg success]
            rfl

namespace IdentityEvent

section Acknowledgement

variable {context : Context} {event : IdentityEvent}

/-- The script of an identity event that writes something is one call. -/
theorem script_rewrite (writes : (event.update context).isEmpty = false) :
    IndexSync.script context event.toEvent =
      .call (.updateAuthor event.userId (event.update context)) fun _ => .done := by
  rw [indexSync_script_toEvent, IndexSync.overwriteAuthor, writes]
  rfl

/-- One attempt to rewrite an author takes one reply. It succeeds with a summary, and fails
transiently for the replies after which it is tried again. -/
theorem handle_rewrite (servers : Servers σ) (server : IndexServer)
    (writes : (event.update context).isEmpty = false) (state : σ) :
    let reply := servers.serve (server.authorRequest event.userId (event.update context)) state
    let handle := (Route.indexSync.handler context (servers.services server)).handle event.toEvent
    (handle state).2 = reply.2 ∧
      ((handle state).1 = .finished (.ok ()) ↔ reply.1.summary?.isSome = true) ∧
      ((handle state).1.FailsTransiently ↔ reply.1.isRetried = true) := by
  intro reply handle
  have answered : (servers.services server).answer
      (.updateAuthor event.userId (event.update context)) state =
        (.replied (reply.1.rewritten.mapError .index), reply.2) := by
    show servers.exchange (server.updateAuthor event.userId (event.update context)) state = _
    rw [Servers.exchange, server.run_updateAuthor servers.serve writes]
  have handled : handle state =
      (.finished ((reply.1.rewritten.mapError .index).map fun _ => ()), reply.2) := by
    show (IndexSync.script context event.toEvent).run (servers.services server) state = _
    rw [script_rewrite writes, Script.call, Script.run, answered]
    cases reply.1.rewritten <;> rfl
  rw [handled, ← WebReply.rewritten_ok_iff, ← WebReply.rewritten_transient_iff]
  refine ⟨rfl, ?_⟩
  cases reply.1.rewritten with
  | ok count =>
      change ((Run.finished (.ok ()) = _) ↔ _) ∧ (Run.FailsTransiently (.finished (.ok ())) ↔ _)
      simp [Run.FailsTransiently]
  | error error =>
      change ((Run.finished (.error (.index error)) = _) ↔ _) ∧
        (Run.FailsTransiently (.finished (.error (.index error))) ↔ _)
      simp [Run.FailsTransiently, SyncError.isTransient]

end Acknowledgement

/-- For every server, whatever it replies: a delivery that writes author fields takes one reply for
each attempt, all but the last being ones after which it is tried again, while attempts are left. It
is acknowledged exactly when the last reply is a summary, and rejected otherwise. An acknowledgement
therefore means that no document was left out exactly when the last reply is no summary of a
rewriting that left some out. -/
theorem acknowledges_all_iff (servers : Servers σ) (server : IndexServer) (context : Context)
    (policy : RetryPolicy) (state : σ) (event : IdentityEvent) (envelope : Envelope)
    (carries : envelope.event? Route.indexSync.accepts = some event.toEvent)
    (writes : (event.update context).isEmpty = false) :
    let request := server.authorRequest event.userId (event.update context)
    let processed :=
      process (Route.indexSync.handler context (servers.services server)) policy envelope state
    let most := max policy.maxAttempts.toNat 1
    let attempts := processed.1.attempts
    let last := servers.reply request state (attempts - 1)
    (0 < attempts ∧ attempts ≤ most) ∧
      processed.2 = servers.afterRequests request attempts state ∧
      (∀ earlier, earlier + 1 < attempts →
        (servers.reply request state earlier).isRetried = true) ∧
      (last.isRetried = true → attempts = most) ∧
      (processed.1.outcome = .ack ↔ last.summary?.isSome = true) ∧
      ((processed.1.outcome = .ack →
          ∃ summary, last.summary? = some summary ∧ summary.reportsAll = true) ↔
        ∀ summary, last.summary? = some summary → summary.reportsAll = true) := by
  intro request processed most attempts last
  let handler := Route.indexSync.handler context (servers.services server)
  have attempt (state : σ) := handle_rewrite servers server writes state
  have after (number : Nat) : afterAttempts (handler.handle event.toEvent) number state =
      servers.afterRequests request number state := by
    rw [afterAttempts, Servers.afterRequests, funext fun state => (attempt state).1]
  obtain ⟨made, tried, ended, counted, acknowledged⟩ := process_tried handler policy state carries
  have count : attempts = made.1.count := counted
  have isLast : handler.handle event.toEvent (servers.afterRequests request (attempts - 1) state) =
      (made.1.run, made.2) := by
    rw [← after, count]
    exact tried.last
  obtain ⟨endsThere, succeeds, fails⟩ :=
    attempt (servers.afterRequests request (attempts - 1) state)
  rw [isLast] at endsThere succeeds fails
  have summarised : processed.1.outcome = .ack ↔ last.summary?.isSome = true :=
    acknowledged.trans succeeds
  refine ⟨⟨?_, ?_⟩, ?_, ?_, ?_, summarised, ?_, ?_⟩
  · rw [count]
    exact tried.tried
  · rw [count]
    exact tried.bounded
  · have ofLast : processed.2 = servers.afterRequests request (attempts - 1 + 1) state := by
      rw [Servers.afterRequests, Function.iterate_succ_apply']
      exact ended.trans endsThere
    rwa [Nat.sub_add_cancel (by rw [count]; exact tried.tried)] at ofLast
  · intro earlier more
    have retried := tried.retried earlier (by rwa [← count])
    rw [after] at retried
    exact (attempt _).2.2.mp retried
  · intro retried
    rw [count]
    exact tried.exhausted (fails.mpr retried)
  · intro complete summary isSummary
    obtain ⟨other, isOther, reportsAll⟩ := complete (summarised.mpr (by rw [isSummary]; rfl))
    cases isSummary.symm.trans isOther
    exact reportsAll
  · intro complete accepted
    obtain ⟨summary, isSummary⟩ := Option.isSome_iff_exists.mp (summarised.mp accepted)
    exact ⟨summary, isSummary, complete summary isSummary⟩

/-! ### A user with a new nickname -/

def renamed : IdentityEvent := .updated ⟨7, "Bea", none⟩

/-- A summary that counts so many documents, and so many conflicts. -/
def summaryOf (updated conflicts : Nat) : WebReply :=
  .answered 200 (Tree.bytes (.members [("updated", .number (.whole updated)),
    ("version_conflicts", .number (.whole conflicts)), ("failures", .items [])]))

/-- What becomes of the new nickname, against a server with these replies. -/
def reportOf (replies : Nat → WebReply) : Report :=
  (process (Route.indexSync.handler .plain ((Servers.replying replies).services .posts)) .default
    (.carrying renamed.toEvent) 0).1

/-- A connection is lost, and the next reply says that two documents were written. -/
theorem acknowledges_all_of_secondReply :
    let replies (number : Nat) : WebReply := if number = 0 then .closed else summaryOf 2 0
    (Envelope.carrying renamed.toEvent).event? Route.indexSync.accepts = some renamed.toEvent ∧
      (renamed.update .plain).isEmpty = false ∧
      (reportOf replies).outcome = .ack ∧ (reportOf replies).attempts = 2 ∧
      ∃ summary, (replies 1).summary? = some summary ∧ summary.reportsAll = true := by
  intro replies
  have carries : (Envelope.carrying renamed.toEvent).event? Route.indexSync.accepts =
      some renamed.toEvent := by decide +kernel
  have writes : (renamed.update .plain).isEmpty = false := by decide
  have acknowledged : (reportOf replies).outcome = .ack := by decide +kernel
  have twice : (reportOf replies).attempts = 2 := by decide +kernel
  have complete : (replies 1).summary?.all Tree.reportsAll = true := by decide +kernel
  have last (request : Request) : (Servers.replying replies).reply request 0
      ((reportOf replies).attempts - 1) = replies 1 := by
    rw [twice, Servers.reply_replying]
  obtain ⟨_, _, _, _, _, reportsAll⟩ := acknowledges_all_iff (Servers.replying replies) .posts
    .plain .default 0 renamed (.carrying renamed.toEvent) carries writes
  refine ⟨carries, writes, acknowledged, twice, ?_⟩
  rw [← last]
  refine reportsAll.mpr (fun summary isSummary => ?_) acknowledged
  rw [← last, Option.all_eq_true] at complete
  exact complete summary isSummary

/-- The only reply says that one document was written and another was left out because it had
changed meanwhile. -/
theorem acknowledges_of_conflict :
    let replies (_ : Nat) : WebReply := summaryOf 1 1
    (reportOf replies).outcome = .ack ∧ (reportOf replies).attempts = 1 ∧
      ¬∃ summary, (replies 0).summary? = some summary ∧ summary.reportsAll = true := by
  intro replies
  refine ⟨by decide +kernel, by decide +kernel, ?_⟩
  rintro ⟨summary, isSummary, reportsAll⟩
  have counted : (replies 0).summary?.all (!·.reportsAll) = true := by decide +kernel
  rw [isSummary] at counted
  simp [reportsAll] at counted

end IdentityEvent

end DualStore
