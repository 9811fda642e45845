import DualStore.Memory.DocumentStore
import DualStore.Memory.SearchIndex

/-!
Contract: the two stores in memory as services, with a clock.

Owns:
- the world: a document store, a search index and a clock whose readings are given;
- the answer of the stores to every call;
- faults put in the way of calls: a schedule decides, call by call, which one fails or panics
  before the stores see it.

Does not own: the scripts.
-/

namespace DualStore.Memory

open DualStore.Time

/-- Two stores, the readings of a clock, and how many of them have been taken. -/
structure World where
  store : DocumentStore := {}
  index : SearchIndex := {}
  readings : Nat → Instant := fun _ => ⟨0, 0⟩
  taken : Nat := 0

namespace World

/-- An answer of the document store, which keeps the store. -/
def storeAnswer (world : World) (result : Except StoreError α × DocumentStore) :
    Answer α × World :=
  (.replied (result.1.mapError .store), { world with store := result.2 })

def indexAnswer (world : World) (result : Except IndexError α × SearchIndex) : Answer α × World :=
  (.replied (result.1.mapError .index), { world with index := result.2 })

def answer : (call : Call) → World → Answer call.Reply × World
  | .findContent id, world => world.storeAnswer (world.store.findContent id, world.store)
  | .updateByUser collection field userId updates, world =>
      world.storeAnswer (world.store.updateByUser collection field userId updates)
  | .deleteByUser collection field userId, world =>
      world.storeAnswer (world.store.deleteByUser collection field userId)
  | .insertAuditLog entry moment, world =>
      world.storeAnswer (world.store.insertAuditLog entry moment.time)
  | .upsertSearchHistory userId keyword moment, world =>
      world.storeAnswer (world.store.upsertSearchHistory userId keyword moment.time)
  | .upsertDocument document, world => world.indexAnswer (world.index.upsert document)
  | .deleteDocument id, world => world.indexAnswer (world.index.delete id)
  | .updateAuthor userId update, world => world.indexAnswer (world.index.updateAuthor userId update)

def readClock (world : World) : Instant × World :=
  (world.readings world.taken, { world with taken := world.taken + 1 })

def services : Services World := { answer, clock := readClock }

end World

end DualStore.Memory

namespace DualStore

/-- What a schedule does to one call: nothing, a failure, or a panic. -/
inductive Fault where
  | pass
  | fail (error : SyncError)
  | panic (message : String)
deriving DecidableEq, Repr

/-- A failure as the party of a call reports it: a failure of another party becomes an answer of
failure with its message as the body, or a document that cannot be read. -/
def SyncError.reportedBy (error : SyncError) (call : Call) : SyncError :=
  match error, call.isIndexCall with
  | .index error, true => .index error
  | .store error, false => .store error
  | error, true => .index (.status 500 error.message)
  | error, false => .store (.invalidDocument error.message)

/-- A state with the faults still to come. -/
structure Scheduled (σ : Type) where
  schedule : List Fault
  inner : σ

/-- Services with faults put in the way of their calls, one for each call. -/
def Services.scheduled (services : Services σ) : Services (Scheduled σ) where
  answer call state :=
    let pass (rest : List Fault) : Answer call.Reply × Scheduled σ :=
      let (answer, inner) := services.answer call state.inner
      (answer, ⟨rest, inner⟩)
    match state.schedule with
    | [] => pass []
    | .pass :: rest => pass rest
    | .fail error :: rest => (.replied (.error (error.reportedBy call)), ⟨rest, state.inner⟩)
    | .panic message :: rest => (.panicked message, ⟨rest, state.inner⟩)
  clock state :=
    let (now, inner) := services.clock state.inner
    (now, { state with inner })

end DualStore
