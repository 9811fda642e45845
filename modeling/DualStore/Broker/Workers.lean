import DualStore.Delivery.Dispatch

/-!
Contract: workers that compete for the deliveries of one queue.

Owns:
- the states of a worker, and the state of the group: the stream of deliveries, the flag that asks
  the workers to stop, the deliveries taken, what became of them, and the answers sent;
- the steps of the group, which may follow each other in any order that the state allows. A worker
  looks at the flag before it waits, and answers one delivery before it looks again;
- the answer to a delivery: its tag, and for a rejection that it is not queued again.

Does not own: what a handler does with a delivery.
-/

namespace DualStore

inductive DeliveryAnswer where
  | ack (tag : Nat)
  | nack (tag : Nat) (requeue : Bool)
deriving DecidableEq, Repr

def Outcome.answer (outcome : Outcome) (tag : Nat) : DeliveryAnswer :=
  match outcome with
  | .ack => .ack tag
  | .nack => .nack tag false

inductive WorkerState where
  /-- About to look at the flag. -/
  | checking
  /-- Waiting for the flag to change or for a delivery. -/
  | waiting
  | processing (envelope : Envelope)
  | answering (envelope : Envelope) (outcome : Outcome)
  | stopped
deriving DecidableEq, Repr

def WorkerState.held? : WorkerState → Option Envelope
  | processing envelope | answering envelope _ => some envelope
  | _ => none

/-- A delivery that has been answered, with its outcome and the answer. -/
structure Settled where
  envelope : Envelope
  outcome : Outcome
  answer : DeliveryAnswer
deriving DecidableEq, Repr

/-- What a stream yields: a delivery, or a failure that ends the worker who meets it. -/
inductive StreamItem where
  | delivery (envelope : Envelope)
  | failure
deriving DecidableEq, Repr

structure WorkerGroup where
  stream : List StreamItem
  isOpen : Bool := true
  stopRequested : Bool := false
  requesterGone : Bool := false
  workers : List WorkerState
  taken : List Envelope := []
  settled : List Settled := []
deriving DecidableEq, Repr

/-- A step of the group. A worker is told by its place. -/
inductive GroupStep where
  | arrive (envelope : Envelope)
  | fail
  | close
  /-- The flag is set to a value. -/
  | request (stop : Bool)
  /-- Whoever could set the flag is gone. -/
  | abandon
  /-- A worker looks at the flag. -/
  | check (worker : Nat)
  /-- A waiting worker hears that the flag may have changed. -/
  | hear (worker : Nat)
  /-- A waiting worker takes what comes next. -/
  | take (worker : Nat)
  /-- A waiting worker finds the stream at its end. -/
  | leave (worker : Nat)
  | finish (worker : Nat) (outcome : Outcome)
  | answer (worker : Nat)
deriving DecidableEq, Repr

namespace WorkerGroup

def ofCount (count : Nat) (deliveries : List Envelope) : WorkerGroup :=
  { stream := deliveries.map .delivery, workers := List.replicate count .checking }

def set (group : WorkerGroup) (worker : Nat) (state : WorkerState) : WorkerGroup :=
  { group with workers := group.workers.set worker state }

/-- A step, if the state allows it. -/
def step? (group : WorkerGroup) : GroupStep → Option WorkerGroup
  | .arrive envelope =>
      if group.isOpen then some { group with stream := group.stream ++ [.delivery envelope] }
      else none
  | .fail =>
      if group.isOpen then some { group with stream := group.stream ++ [.failure] } else none
  | .close => some { group with isOpen := false }
  | .request stop =>
      if group.requesterGone then none else some { group with stopRequested := stop }
  | .abandon => some { group with requesterGone := true }
  | .check worker =>
      match group.workers[worker]? with
      | some .checking =>
          some (group.set worker (if group.stopRequested then .stopped else .waiting))
      | _ => none
  | .hear worker =>
      match group.workers[worker]? with
      | some .waiting =>
          some (group.set worker
            (if group.requesterGone || group.stopRequested then .stopped else .checking))
      | _ => none
  | .take worker =>
      match group.workers[worker]?, group.stream with
      | some .waiting, .delivery envelope :: stream =>
          some { group.set worker (.processing envelope) with
            stream, taken := group.taken ++ [envelope] }
      | some .waiting, .failure :: stream => some { group.set worker .stopped with stream }
      | _, _ => none
  | .leave worker =>
      match group.workers[worker]?, group.stream with
      | some .waiting, [] => if group.isOpen then none else some (group.set worker .stopped)
      | _, _ => none
  | .finish worker outcome =>
      match group.workers[worker]? with
      | some (.processing envelope) => some (group.set worker (.answering envelope outcome))
      | _ => none
  | .answer worker =>
      match group.workers[worker]? with
      | some (.answering envelope outcome) =>
          some { group.set worker .checking with
            settled := group.settled ++ [⟨envelope, outcome, outcome.answer envelope.tag⟩] }
      | _ => none

def held (group : WorkerGroup) : List Envelope := group.workers.filterMap WorkerState.held?

def isDone (group : WorkerGroup) : Bool := group.workers.all (· == .stopped)

end WorkerGroup

end DualStore
