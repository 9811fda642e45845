import DualStore.Time.Instant

/-!
Contract: what the handlers are configured with.

Owns: the identity written over the copies of a deleted account, and the settings that all
handlers share.

Does not own: where the settings come from.
-/

namespace DualStore

open DualStore.Time

/-- The identity written over the copies of a deleted account. -/
structure Placeholder where
  nickname : String := "Deleted User"
  avatar : String := "/static/avatar/deleted.png"
deriving DecidableEq, Repr, Inhabited

/-- The settings of all handlers: the offset at which times without a zone are read, whether new
content waits for its approval, and the placeholder. -/
structure Context where
  offset : Offset
  auditRequired : Bool
  placeholder : Placeholder
deriving DecidableEq, Repr, Inhabited

end DualStore
