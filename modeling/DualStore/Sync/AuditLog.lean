import DualStore.Sync.Context
import DualStore.Sync.Script

/-!
Contract: the sink for access records.

Owns: the script that appends one entry, at the time it states when that can be read and at the
time on the clock otherwise. A redelivery appends the entry again.

Does not own: any other kind of event.
-/

namespace DualStore.AuditLog

open DualStore.Time

/-- Only access records belong here. -/
def accepts (kind : Kind) : Bool := kind == .auditLogEntry

def append (entry : AuditLogEntry) (moment : Moment) : Script :=
  .call (.insertAuditLog entry moment) fun () => .done

def script (context : Context) : Event → Script
  | .auditLogEntry entry =>
      match entry.timestamp.bind (·.resolve context.offset) with
      | some time => append entry (.stated time)
      | none => .readClock fun now => append entry (.observed ⟨now, context.offset⟩)
  | _ => .done

end DualStore.AuditLog
