import DualStore.Index.Exchange
import DualStore.Store.Command
import DualStore.Sync.Script

/-!
Contract: the two stores on servers, as services.

Owns:
- servers with a state, which answer commands and requests;
- the answer to every call: the command or the exchange of the call is put to the server, and the
  reply read.

Does not own: what the servers do.
-/

namespace DualStore

open DualStore.Time

/-- A document server, a search server and a clock, which share a state. -/
structure Servers (σ : Type) where
  obey : Command → σ → CommandReply × σ
  serve : Request → σ → WebReply × σ
  clock : σ → Instant × σ

namespace Servers

def unreachable : Servers σ where
  obey _ state := (.failed true "server not reachable", state)
  serve _ state := (.closed, state)
  clock state := (⟨0, 0⟩, state)

/-- Puts a command to the document server and reads the reply. -/
def command (servers : Servers σ) (command : Command) (read : CommandReply → Except StoreError α)
    (state : σ) : Answer α × σ :=
  let (reply, state) := servers.obey command state
  (.replied ((read reply).mapError .store), state)

def exchange (servers : Servers σ) (exchange : Exchange α) (state : σ) : Answer α × σ :=
  let (result, state) := exchange.run servers.serve state
  (.replied (result.mapError .index), state)

def answer (servers : Servers σ) (index : IndexServer) :
    (call : Call) → σ → Answer call.Reply × σ
  | .findContent id, state => servers.command (.findContent id) CommandReply.content state
  | .updateByUser collection field userId updates, state =>
      match Command.updateByUser? collection field userId updates with
      | none => (.replied (.ok 0), state)
      | some command => servers.command command CommandReply.changedCount state
  | .deleteByUser collection field userId, state =>
      servers.command (.deleteByUser collection field userId) CommandReply.touchedCount state
  | .insertAuditLog entry moment, state =>
      servers.command (.insertAuditLog entry moment.time) CommandReply.acknowledged state
  | .upsertSearchHistory userId keyword moment, state =>
      servers.command (.upsertSearchHistory userId keyword moment.time) CommandReply.acknowledged
        state
  | .upsertDocument document, state => servers.exchange (index.upsert document) state
  | .deleteDocument id, state => servers.exchange (index.delete id) state
  | .updateAuthor userId update, state => servers.exchange (index.updateAuthor userId update) state

def services (servers : Servers σ) (index : IndexServer) : Services σ where
  answer := servers.answer index
  clock := servers.clock

end Servers

end DualStore
