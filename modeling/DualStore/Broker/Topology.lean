import DualStore.Delivery.Header
import DualStore.Settings
import DualStore.Sync.Route

/-!
Contract: what the service needs at the broker.

Owns:
- the topology: an exchange for events, one for dead letters with its queue, and the consumed
  queues with their bindings, routes and worker counts;
- the argument that every consumed queue is declared with, so that rejected deliveries become
  dead letters;
- the topology that settings lead to.

Does not own: the commands that declare a topology.
-/

namespace DualStore

open DualStore.Text

structure QueueSpec where
  name : String
  bindings : List String
  route : Route
  workers : Nat
deriving DecidableEq, Repr

/-- Exchanges, the dead letters, and the consumed queues. -/
structure Topology where
  exchange : String
  deadLetterExchange : String
  deadLetterQueue : String
  queues : List QueueSpec
deriving DecidableEq, Repr

/-- The argument of a queue that names the exchange of its rejected deliveries. -/
def deadLetterArgument : String := "x-dead-letter-exchange"

/-- What every consumed queue is declared with. -/
def Topology.queueArguments (topology : Topology) : HeaderTable :=
  [(deadLetterArgument, .longString (Utf8.encode topology.deadLetterExchange.toList))]

def Settings.topology (settings : Settings) : Topology :=
  { exchange := settings.broker.exchange
    deadLetterExchange := settings.broker.deadLetterExchange
    deadLetterQueue := settings.broker.deadLetterQueue
    queues :=
      [⟨"platform.log.queue", ["log.#"], .auditLog, settings.workers.auditLog⟩,
       ⟨"platform.search.queue", ["search.#"], .searchHistory, settings.workers.searchHistory⟩,
       ⟨"platform.es.sync.queue", ["post.#", "user.update", "user.delete"], .indexSync,
         settings.workers.indexSync⟩,
       ⟨"platform.user.queue", ["user.#"], .userPropagation, settings.workers.userPropagation⟩] }

end DualStore
