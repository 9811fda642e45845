import DualStore.Broker.Topology
import DualStore.Number.Bounds

/-!
Contract: how consumption is started at the broker.

Owns:
- the commands to a broker, each on a channel;
- the plan of a topology: everything is declared on one channel first, then each queue gets a
  channel of its own with a bound on unanswered deliveries and one consumer, which answers by
  hand;
- the start, which sends one command after the other and ends at the first one refused. Closing
  the channel of the declarations may be refused without harm.

Does not own: deliveries, and options of commands that stay at their defaults.
-/

namespace DualStore

/-- A command to a broker. Of an exchange its kind is declared as well, and of an exchange or a
queue whether it outlives the broker. -/
inductive BrokerCommand where
  | openChannel
  | declareExchange (exchange kind : String) (durable : Bool)
  | declareQueue (queue : String) (durable : Bool) (arguments : HeaderTable)
  | bindQueue (queue exchange routingKey : String)
  | closeChannel
  | limitUnanswered (count : Nat)
  | consume (queue tag : String) (manual : Bool)
deriving Repr

/-- A command on a channel; channels are counted from one. -/
structure ChannelCommand where
  channel : Nat
  command : BrokerCommand
deriving Repr

/-- The bound on unanswered deliveries for so many workers: two for each, within 16 bits. -/
def prefetch (workers : Nat) : Nat := min (2 * workers) Number.largestNat16

def QueueSpec.workerCount (queue : QueueSpec) : Nat := max queue.workers 1

def QueueSpec.consumerTag (queue : QueueSpec) : String := "sync-service." ++ queue.name

namespace Topology

/-- The declarations: both exchanges by topic, the queue of dead letters, then each consumed queue
with its bindings. All that is declared is durable. -/
def declarations (topology : Topology) : List BrokerCommand :=
  [.declareExchange topology.exchange "topic" true,
   .declareExchange topology.deadLetterExchange "topic" true,
   .declareQueue topology.deadLetterQueue true [],
   .bindQueue topology.deadLetterQueue topology.deadLetterExchange "#"] ++
    topology.queues.flatMap fun queue =>
      .declareQueue queue.name true topology.queueArguments ::
        queue.bindings.map (.bindQueue queue.name topology.exchange)

def consumption (queue : QueueSpec) : List BrokerCommand :=
  [.openChannel, .limitUnanswered (prefetch queue.workerCount),
   .consume queue.name queue.consumerTag true]

def plan (topology : Topology) : List ChannelCommand :=
  (BrokerCommand.openChannel :: (topology.declarations ++ [.closeChannel])).map (⟨1, ·⟩) ++
    topology.queues.zipIdx.flatMap fun (queue, place) =>
      (consumption queue).map (⟨place + 2, ·⟩)

end Topology

/-- A broker in a state: whether it accepts a command. -/
structure Broker (σ : Type) where
  accept : ChannelCommand → σ → Except String Unit × σ

/-- A start in progress: it goes on with a broker's state and the commands sent, unless one has
been refused. -/
def Starting (σ α : Type) := σ → List ChannelCommand → Except SyncError α × σ × List ChannelCommand

namespace Starting

instance : Monad (Starting σ) where
  pure value := fun state sent => (.ok value, state, sent)
  bind first next := fun state sent =>
    match first state sent with
    | (.ok value, state, sent) => next value state sent
    | (.error error, state, sent) => (.error error, state, sent)

def send (broker : Broker σ) (channel : Nat) (command : BrokerCommand) : Starting σ Unit :=
  fun state sent =>
    let (result, state) := broker.accept ⟨channel, command⟩ state
    (result.mapError .broker, state, sent ++ [⟨channel, command⟩])

/-- Sends a command whose refusal does no harm. -/
def sendLoosely (broker : Broker σ) (channel : Nat) (command : BrokerCommand) : Starting σ Unit :=
  fun state sent =>
    let (_, state) := broker.accept ⟨channel, command⟩ state
    (.ok (), state, sent ++ [⟨channel, command⟩])

def each (act : α → Starting σ Unit) : List α → Starting σ Unit
  | [] => pure ()
  | value :: values => do
      act value
      each act values

def declare (broker : Broker σ) (channel : Nat) (topology : Topology) : Starting σ Unit := do
  each (fun exchange => send broker channel (.declareExchange exchange "topic" true))
    [topology.exchange, topology.deadLetterExchange]
  send broker channel (.declareQueue topology.deadLetterQueue true [])
  send broker channel (.bindQueue topology.deadLetterQueue topology.deadLetterExchange "#")
  each
    (fun queue : QueueSpec => do
      send broker channel (.declareQueue queue.name true topology.queueArguments)
      each (fun key => send broker channel (.bindQueue queue.name topology.exchange key))
        queue.bindings)
    topology.queues

def startConsumer (broker : Broker σ) (channel : Nat) (queue : QueueSpec) : Starting σ Unit := do
  send broker channel .openChannel
  send broker channel (.limitUnanswered (prefetch queue.workerCount))
  send broker channel (.consume queue.name queue.consumerTag true)

def startConsumers (broker : Broker σ) : (channel : Nat) → List QueueSpec → Starting σ Unit
  | _, [] => pure ()
  | channel, queue :: queues => do
      startConsumer broker channel queue
      startConsumers broker (channel + 1) queues

def start (broker : Broker σ) (topology : Topology) : Starting σ Unit := do
  send broker 1 .openChannel
  declare broker 1 topology
  sendLoosely broker 1 .closeChannel
  startConsumers broker 2 topology.queues

end Starting

/-- What a start came to: its result, the broker's state, and the commands that were sent. -/
structure Started (σ : Type) where
  result : Except SyncError Unit
  state : σ
  sent : List ChannelCommand

def Topology.start (topology : Topology) (broker : Broker σ) (state : σ) : Started σ :=
  let (result, state, sent) := Starting.start broker topology state []
  { result, state, sent }

end DualStore
