import DualStore.Text.Blank

/-!
Contract: the kinds of event, and the type descriptors that name them.

Owns:
- the closed set of kinds, each with its name and the names that older producers use for it;
- the resolution of a dotted type descriptor, of which only the last segment counts.

Does not own: the payload that goes with a kind.
-/

namespace DualStore

open DualStore.Text

inductive Kind where
  | contentCreated
  | contentAuditPassed
  | contentUpdated
  | contentDeleted
  | identityUpdated
  | identityDeleted
  | auditLogEntry
  | searchQueryIssued
deriving DecidableEq, Repr, Inhabited

namespace Kind

def all : List Kind :=
  [contentCreated, contentAuditPassed, contentUpdated, contentDeleted, identityUpdated,
   identityDeleted, auditLogEntry, searchQueryIssued]

def name : Kind → String
  | contentCreated => "ContentCreated"
  | contentAuditPassed => "ContentAuditPassed"
  | contentUpdated => "ContentUpdated"
  | contentDeleted => "ContentDeleted"
  | identityUpdated => "IdentityUpdated"
  | identityDeleted => "IdentityDeleted"
  | auditLogEntry => "AuditLogEntry"
  | searchQueryIssued => "SearchQueryIssued"

/-- The names that older producers use. -/
def aliases : Kind → List String
  | contentCreated => ["PostCreateEvent"]
  | contentAuditPassed => ["PostAuditPassEvent"]
  | contentUpdated => ["PostUpdateEvent"]
  | contentDeleted => ["PostDeleteEvent"]
  | identityUpdated => ["UserUpdateEvent"]
  | identityDeleted => ["UserDeleteEvent"]
  | auditLogEntry => ["ApiLogDoc", "LogEvent"]
  | searchQueryIssued => ["UserSearchEvent"]

def isNamed (kind : Kind) (text : String) : Bool :=
  kind.name == text || kind.aliases.contains text

def ofName? (text : String) : Option Kind := all.find? (·.isNamed text)

/-- What stands behind the last dot of a text; the whole text when it has none. -/
def lastSegment (cs : List Char) : List Char := (cs.reverse.takeWhile (· ≠ '.')).reverse

/-- The kind that a type descriptor names by its last segment, blanks around it aside. -/
def ofDescriptor? (descriptor : String) : Option Kind :=
  ofName? (String.ofList (lastSegment (trimChars descriptor.toList)))

example : ofName? "" = none := by decide
example : ofDescriptor? " com.acme.PostCreateEvent " = some contentCreated := by decide
example : ofDescriptor? "com.acme." = none := by decide

end Kind

end DualStore
