import DualStore.Delivery.Retry
import DualStore.Sync.Route

/-!
Contract: what becomes of one delivery.

Owns:
- envelopes, outcomes and the dispositions that are counted;
- the decision: a delivery without a descriptor, of an unknown kind, of a kind that the handler
  does not accept, or with a body that cannot be decoded is acknowledged without being handled;
  any other is handled with retries, acknowledged when that succeeds and rejected when it fails;
- the boundary for panics: the delivery is rejected and nothing is counted.

Does not own: the exposition of the counts.
-/

namespace DualStore

open DualStore.Text

/-- A delivery, apart from its broker. -/
structure Envelope where
  descriptor : Option String
  body : List UInt8
  tag : Nat := 0
deriving DecidableEq, Repr

/-- Acknowledged for good, or rejected to the dead letters. -/
inductive Outcome where
  | ack
  | nack
deriving DecidableEq, Repr

inductive Disposition where
  | droppedMalformed
  | droppedUnknown
  | skipped
  | droppedUndecodable
  | ack
  | nack
deriving DecidableEq, Repr

def Disposition.name : Disposition → String
  | droppedMalformed => "dropped_malformed"
  | droppedUnknown => "dropped_unknown"
  | skipped => "skipped"
  | droppedUndecodable => "dropped_undecodable"
  | ack => "ack"
  | nack => "nack"

/-- One count: a disposition of a kind, or of no known kind. -/
structure Count where
  kind : Option Kind
  disposition : Disposition
deriving DecidableEq, Repr

def Count.kindName (count : Count) : String :=
  match count.kind with
  | some kind => kind.name
  | none => "unknown"

/-- What became of a delivery: its outcome, the counts added, the kinds whose duration was
observed, the delays waited for, and the number of handler calls. -/
structure Report where
  outcome : Outcome
  counts : List Count
  observed : List Kind
  delays : List Nat
  attempts : Nat
deriving DecidableEq, Repr

/-- A handler: which kinds it accepts, and what it does about an event in a state. -/
structure Handler (σ : Type) where
  accepts : Kind → Bool
  handle : Event → σ → Run × σ

def Route.handler (route : Route) (context : Context) (services : Services σ) : Handler σ where
  accepts := route.accepts
  handle event state := (route.script context event).run services state

def Report.unhandled (kind : Option Kind) (disposition : Disposition) : Report :=
  { outcome := .ack, counts := [⟨kind, disposition⟩], observed := [], delays := [], attempts := 0 }

def Report.handled (kind : Kind) (attempts : Attempts) : Report :=
  match attempts.run with
  | .finished (.ok ()) =>
      { outcome := .ack, counts := [⟨some kind, .ack⟩], observed := [kind],
        delays := attempts.delays, attempts := attempts.count }
  | .finished (.error _) =>
      { outcome := .nack, counts := [⟨some kind, .nack⟩], observed := [kind],
        delays := attempts.delays, attempts := attempts.count }
  | .panicked _ =>
      { outcome := .nack, counts := [], observed := [],
        delays := attempts.delays, attempts := attempts.count }

/-- The descriptor of an envelope, unless it is missing or blank. -/
def Envelope.descriptor? (envelope : Envelope) : Option String :=
  (envelope.descriptor.map trim).filter (· ≠ "")

def process (handler : Handler σ) (policy : RetryPolicy) (envelope : Envelope) (state : σ) :
    Report × σ :=
  match envelope.descriptor? with
  | none => (.unhandled none .droppedMalformed, state)
  | some descriptor =>
      match Kind.ofDescriptor? descriptor with
      | none => (.unhandled none .droppedUnknown, state)
      | some kind =>
          if handler.accepts kind then
            match Event.decode kind envelope.body with
            | .error _ => (.unhandled (some kind) .droppedUndecodable, state)
            | .ok event =>
                let (attempts, state) := tryHandler policy (handler.handle event) state
                (.handled kind attempts, state)
          else (.unhandled (some kind) .skipped, state)

def processAll (handler : Handler σ) (policy : RetryPolicy) :
    List Envelope → σ → List Report × σ
  | [], state => ([], state)
  | envelope :: envelopes, state =>
      let (report, state) := process handler policy envelope state
      let (reports, state) := processAll handler policy envelopes state
      (report :: reports, state)

end DualStore
