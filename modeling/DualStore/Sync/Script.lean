import DualStore.Fault
import DualStore.Index.Document
import DualStore.Store.Collection

/-!
Contract: what a handler may do, as data.

Owns:
- the calls to the document store and to the search index, each with the type of its reply;
- scripts: finite programs that perform calls, read the clock and end with a result;
- services, which answer calls and tell the time while they change a state of their own, and the
  run of a script against them.

Does not own: which calls an event leads to, and what a service does with a call.
-/

namespace DualStore

open DualStore.Time

/-- A time that a store is told: stated by an event, or observed on the clock. -/
inductive Moment where
  | stated (time : ZonedTime)
  | observed (time : ZonedTime)
deriving DecidableEq, Repr

def Moment.time : Moment → ZonedTime
  | stated time => time
  | observed time => time

/-- One call to the document store or to the search index. -/
inductive Call where
  | findContent (id : String)
  /-- Set fields of every document whose `field` holds the user; the reply counts them. -/
  | updateByUser (collection : Collection) (field : String) (userId : Int64)
      (updates : List (String × String))
  /-- Remove every document whose `field` holds the user; the reply counts them. -/
  | deleteByUser (collection : Collection) (field : String) (userId : Int64)
  | insertAuditLog (entry : AuditLogEntry) (moment : Moment)
  /-- Record a query under its user and keyword. -/
  | upsertSearchHistory (userId : Int64) (keyword : String) (moment : Moment)
  | upsertDocument (document : IndexDocument)
  | deleteDocument (id : String)
  /-- Write author fields of every indexed document of a user; the reply counts them. -/
  | updateAuthor (userId : Int64) (update : AuthorUpdate)
deriving DecidableEq, Repr

namespace Call

/-- What a call replies when it succeeds. -/
@[reducible] def Reply : Call → Type
  | findContent _ => Option ContentRecord
  | updateByUser .. => Nat
  | deleteByUser .. => Nat
  | insertAuditLog .. => Unit
  | upsertSearchHistory .. => Unit
  | upsertDocument _ => Unit
  | deleteDocument _ => Removal
  | updateAuthor .. => Nat

def isIndexCall : Call → Bool
  | upsertDocument _ | deleteDocument _ | updateAuthor .. => true
  | _ => false

end Call

abbrev Handled := Except SyncError Unit

/-- A program of a handler: it ends, or it performs a call and goes on with the reply or the
failure, or it reads the clock and goes on with the time. -/
inductive Script where
  | finish (result : Handled)
  | perform (call : Call) (resume : Except SyncError call.Reply → Script)
  | readClock (resume : Instant → Script)

namespace Script

def done : Script := finish (.ok ())

/-- Performs a call; a failure ends the script. -/
def call (call : Call) (next : call.Reply → Script) : Script :=
  perform call fun
    | .ok reply => next reply
    | .error error => finish (.error error)

/-- Performs a call and goes on whether it fails or not. -/
def attempt (call : Call) (next : Script) : Script :=
  perform call fun _ => next

end Script

/-- The outcome of a call: a reply or a failure, or a panic inside the service. -/
inductive Answer (α : Type) where
  | replied (result : Except SyncError α)
  | panicked (message : String)

/-- Services with a state: they answer calls and tell the time. -/
structure Services (σ : Type) where
  answer : (call : Call) → σ → Answer call.Reply × σ
  clock : σ → Instant × σ

/-- The end of a run: a result, or a panic that goes through the handler. -/
inductive Run where
  | finished (result : Handled)
  | panicked (message : String)
deriving Repr

def Script.run (services : Services σ) : Script → σ → Run × σ
  | finish result, state => (.finished result, state)
  | perform call resume, state =>
      match services.answer call state with
      | (.replied result, state) => (resume result).run services state
      | (.panicked message, state) => (.panicked message, state)
  | readClock resume, state =>
      let (now, state) := services.clock state
      (resume now).run services state

end DualStore
