import DualStore.Text.Decimal

/-!
Contract: the failures of the document store, the search index and the broker.

Owns:
- one type for each party and one for all;
- the wording of each failure;
- which failures are transient, so that the same operation could succeed later.

Does not own: retrying.
-/

namespace DualStore

open DualStore.Text

/-- A failure of the document store: of its client, where only a lost or unreachable server is
transient; of a document that cannot be read; or of the store as a whole. -/
inductive StoreError where
  | client (transient : Bool) (detail : String)
  | invalidDocument (detail : String)
  | unavailable (detail : String)
deriving DecidableEq, Repr

namespace StoreError

def isTransient : StoreError → Bool
  | client transient _ => transient
  | invalidDocument _ => false
  | unavailable _ => true

def message : StoreError → String
  | client _ detail => "mongodb error: " ++ detail
  | invalidDocument detail => "invalid document: " ++ detail
  | unavailable detail => "document store unavailable: " ++ detail

end StoreError

/-- Why a text is no address. -/
inductive AddressFault where
  | relative
  | emptyHost
  | invalidPort
deriving DecidableEq, Repr

def AddressFault.message : AddressFault → String
  | relative => "relative URL without a base"
  | emptyHost => "empty host"
  | invalidPort => "invalid port number"

/-- A failure of the search index: of its address, of the connection, of a text that is no JSON,
or an answer with a status of failure. -/
inductive IndexError where
  | invalidAddress (fault : AddressFault)
  | connectionSetup (detail : String)
  | connection (detail : String)
  | serialization (detail : String)
  | status (code : Nat) (body : String)
deriving DecidableEq, Repr

namespace IndexError

/-- A lost connection is transient, and so is an overloaded or failing server. -/
def isTransient : IndexError → Bool
  | connection _ => true
  | status code _ => code = 429 || 500 ≤ code
  | invalidAddress _ | connectionSetup _ | serialization _ => false

def message : IndexError → String
  | invalidAddress fault => "invalid Elasticsearch URL: " ++ fault.message
  | connectionSetup detail => "failed to build transport: " ++ detail
  | connection detail => "transport error: " ++ detail
  | serialization detail => "serialization error: " ++ detail
  | status code body => "elasticsearch responded " ++ natText code ++ ": " ++ body

end IndexError

/-- A failure of any party. -/
inductive SyncError where
  | store (error : StoreError)
  | index (error : IndexError)
  | broker (detail : String)
deriving DecidableEq, Repr

namespace SyncError

def isTransient : SyncError → Bool
  | store error => error.isTransient
  | index error => error.isTransient
  | broker _ => true

def message : SyncError → String
  | store error => "document store: " ++ error.message
  | index error => "search index: " ++ error.message
  | broker detail => "broker: " ++ detail

end SyncError

end DualStore
