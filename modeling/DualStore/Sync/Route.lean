import DualStore.Sync.AuditLog
import DualStore.Sync.IndexSync
import DualStore.Sync.SearchHistory
import DualStore.Sync.UserPropagation

/-!
Contract: the four routes on which deliveries are handled.

Owns: which kinds each route accepts, and the script of an event on a route.

Does not own: the queues that the routes are bound to.
-/

namespace DualStore

inductive Route where
  | auditLog
  | searchHistory
  | indexSync
  | userPropagation
deriving DecidableEq, Repr, Inhabited

namespace Route

def all : List Route := [auditLog, searchHistory, indexSync, userPropagation]

def name : Route → String
  | auditLog => "AuditLog"
  | searchHistory => "SearchHistory"
  | indexSync => "IndexSync"
  | userPropagation => "UserPropagation"

def handlerName : Route → String
  | auditLog => "audit-log"
  | searchHistory => "search-history"
  | indexSync => "index-sync"
  | userPropagation => "user-propagation"

/-- Whether events of a kind belong to a route; others are acknowledged untouched. -/
def accepts : Route → Kind → Bool
  | auditLog => AuditLog.accepts
  | searchHistory => SearchHistory.accepts
  | indexSync => IndexSync.accepts
  | userPropagation => UserPropagation.accepts

def script : Route → Context → Event → Script
  | auditLog => AuditLog.script
  | searchHistory => SearchHistory.script
  | indexSync => IndexSync.script
  | userPropagation => UserPropagation.script

end Route

end DualStore
