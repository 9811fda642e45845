import DualStore.Broker.Startup
import Mathlib.Data.List.Infix

/-!
Contract: the commands with which consumption is started, and what each of them rests on.

Owns:
- the start as one plan, followed command by command up to the first refusal;
- what a command rests on: a binding on its queue and its exchange, a consumer on the whole
  topology, on a queue whose rejected deliveries become dead letters, and on a bound of its channel;
- the consumers of a plan, one for each consumed queue.

Does not own: what a broker makes of the commands. A broker is any machine that accepts or refuses
them.
-/

namespace DualStore

open DualStore.Text

/-! ## Following a plan -/

/-- Whether the start ends when the command is refused. Only the channel of the declarations may be
left open. -/
def BrokerCommand.isNeeded : BrokerCommand → Bool
  | closeChannel => false
  | _ => true

namespace Broker

/-- The state in which commands leave a broker. -/
def after (broker : Broker σ) (state : σ) (commands : List ChannelCommand) : σ :=
  commands.foldl (fun state command => (broker.accept command state).2) state

/-- What a broker says to a command that comes after others. -/
def answer (broker : Broker σ) (state : σ) (earlier : List ChannelCommand)
    (command : ChannelCommand) : Except String Unit :=
  (broker.accept command (broker.after state earlier)).1

/-- No command that the start needs is refused. -/
def AcceptsAll (broker : Broker σ) (state : σ) (commands : List ChannelCommand) : Prop :=
  ∀ earlier command later, commands = earlier ++ command :: later →
    command.command.isNeeded = true → broker.answer state earlier command = .ok ()

/-- How a plan is followed: to its end, or up to the first needed command that is refused, which is
then the last one sent. -/
inductive Follows (broker : Broker σ) (state : σ) (plan : List ChannelCommand) : Started σ → Prop
  | completed (accepted : broker.AcceptsAll state plan) :
      Follows broker state plan ⟨.ok (), broker.after state plan, plan⟩
  | refused {earlier later : List ChannelCommand} {command : ChannelCommand} {detail : String}
      (planned : plan = earlier ++ command :: later)
      (accepted : broker.AcceptsAll state earlier)
      (needed : command.command.isNeeded = true)
      (refused : broker.answer state earlier command = .error detail) :
      Follows broker state plan
        ⟨.error (.broker detail), broker.after state (earlier ++ [command]), earlier ++ [command]⟩

variable {broker : Broker σ} {state : σ} {plan first second : List ChannelCommand}

theorem after_append (broker : Broker σ) (state : σ) (first second : List ChannelCommand) :
    broker.after state (first ++ second) = broker.after (broker.after state first) second :=
  List.foldl_append

theorem answer_append (broker : Broker σ) (state : σ) (first earlier : List ChannelCommand)
    (command : ChannelCommand) :
    broker.answer state (first ++ earlier) command =
      broker.answer (broker.after state first) earlier command := by
  rw [answer, answer, after_append]

theorem acceptsAll_nil : broker.AcceptsAll state [] := by
  intro earlier command later split
  simp at split

theorem acceptsAll_single {command : ChannelCommand}
    (accepted : command.command.isNeeded = true → (broker.accept command state).1 = .ok ()) :
    broker.AcceptsAll state [command] := by
  intro earlier other later split needed
  cases earlier with
  | nil =>
      obtain ⟨rfl, -⟩ := List.cons.inj split
      exact accepted needed
  | cons head earlier => simp at split

theorem AcceptsAll.append (accepted : broker.AcceptsAll state first)
    (others : broker.AcceptsAll (broker.after state first) second) :
    broker.AcceptsAll state (first ++ second) := by
  intro earlier command later split needed
  obtain ⟨middle, isEarlier, rest⟩ | ⟨middle, isFirst, rest⟩ := List.append_eq_append_iff.mp split
  · rw [isEarlier, answer_append]
    exact others middle command later rest needed
  · cases middle with
    | nil =>
        rw [List.append_nil] at isFirst
        rw [← isFirst, ← List.append_nil first, answer_append]
        exact others [] command later rest.symm needed
    | cons head middle =>
        obtain ⟨rfl, -⟩ := List.cons.inj rest
        exact accepted earlier _ middle isFirst needed

/-- What is followed to its end leaves what comes next to the state after it. -/
theorem Follows.append {started : Started σ} (accepted : broker.AcceptsAll state first)
    (follows : broker.Follows (broker.after state first) second started) :
    broker.Follows state (first ++ second) { started with sent := first ++ started.sent } := by
  cases follows with
  | completed others =>
      rw [← after_append]
      exact .completed (accepted.append others)
  | @refused earlier later command detail planned others needed refused =>
      rw [← after_append, ← List.append_assoc]
      rw [← answer_append] at refused
      exact .refused (by rw [planned, List.append_assoc]) (accepted.append others) needed refused

/-- What ends with a refusal has ended, whatever else was planned. -/
theorem Follows.extend {detail : SyncError} {state' : σ} {sent : List ChannelCommand}
    (follows : broker.Follows state first ⟨.error detail, state', sent⟩)
    (second : List ChannelCommand) :
    broker.Follows state (first ++ second) ⟨.error detail, state', sent⟩ := by
  cases follows with
  | @refused earlier later command _ planned accepted needed refused =>
      exact .refused (by rw [planned, List.append_assoc, List.cons_append]) accepted needed refused

theorem Follows.sent_prefix {started : Started σ} (follows : broker.Follows state plan started) :
    started.sent <+: plan := by
  cases follows with
  | completed _ => exact List.prefix_rfl
  | @refused earlier later command _ planned _ _ _ => exact ⟨later, by simp [planned]⟩

/-- A start succeeds exactly when no command it needs is refused. -/
theorem Follows.ok_iff {started : Started σ} (follows : broker.Follows state plan started) :
    started.result = .ok () ↔ broker.AcceptsAll state started.sent := by
  cases follows with
  | completed accepted => exact ⟨fun _ => accepted, fun _ => rfl⟩
  | @refused earlier _ command _ _ _ needed refused =>
      constructor
      · intro succeeded
        cases succeeded
      · intro accepted
        have agreed := accepted earlier command [] rfl needed
        rw [refused] at agreed
        cases agreed

theorem Follows.sent_of_ok {started : Started σ} (follows : broker.Follows state plan started)
    (succeeded : started.result = .ok ()) : started.sent = plan := by
  cases follows with
  | completed _ => rfl
  | refused => cases succeeded

end Broker

namespace Starting

/-- What a start in progress does is to follow a plan: it adds what it sends to what was sent
before. -/
def Performs (broker : Broker σ) (act : Starting σ Unit) (plan : List ChannelCommand) : Prop :=
  ∀ state sent, ∃ started : Started σ, broker.Follows state plan started ∧
    act state sent = (started.result, started.state, sent ++ started.sent)

theorem bind_of_ok {act : Starting σ α} {next : α → Starting σ β} {state state' : σ} {value : α}
    {sent sent' : List ChannelCommand} (done : act state sent = (.ok value, state', sent')) :
    (act >>= next) state sent = next value state' sent' := by
  simp only [bind, done]

theorem bind_of_error {act : Starting σ α} {next : α → Starting σ β} {state state' : σ}
    {error : SyncError} {sent sent' : List ChannelCommand}
    (done : act state sent = (.error error, state', sent')) :
    (act >>= next) state sent = (.error error, state', sent') := by
  simp only [bind, done]

section Performs

variable {broker : Broker σ} {first second : Starting σ Unit} {plan next : List ChannelCommand}

theorem performs_pure (broker : Broker σ) : Performs broker (pure ()) [] := by
  intro state sent
  exact ⟨_, .completed Broker.acceptsAll_nil, by rw [List.append_nil]; rfl⟩

theorem performs_send (broker : Broker σ) (channel : Nat) {command : BrokerCommand}
    (needed : command.isNeeded = true) :
    Performs broker (send broker channel command) [⟨channel, command⟩] := by
  intro state sent
  have does : send broker channel command state sent =
      ((broker.accept ⟨channel, command⟩ state).1.mapError .broker,
        (broker.accept ⟨channel, command⟩ state).2, sent ++ [⟨channel, command⟩]) := rfl
  rw [does]
  cases answered : (broker.accept ⟨channel, command⟩ state).1 with
  | ok _ => exact ⟨_, .completed (Broker.acceptsAll_single fun _ => answered), rfl⟩
  | error detail =>
      have first : [ChannelCommand.mk channel command] = [] ++ ⟨channel, command⟩ :: [] := rfl
      exact ⟨_, .refused first Broker.acceptsAll_nil needed answered, rfl⟩

theorem performs_sendLoosely (broker : Broker σ) (channel : Nat) {command : BrokerCommand}
    (needless : command.isNeeded = false) :
    Performs broker (sendLoosely broker channel command) [⟨channel, command⟩] := by
  intro state sent
  refine ⟨_, .completed (Broker.acceptsAll_single fun needed => ?_), rfl⟩
  rw [needless] at needed
  cases needed

/-- One thing after the other: the second is begun only if the first came to its end. -/
theorem Performs.bind (performs : Performs broker first plan)
    (later : Performs broker second next) :
    Performs broker (do first; second) (plan ++ next) := by
  intro state sent
  obtain ⟨started, follows, done⟩ := performs state sent
  cases follows with
  | completed accepted =>
      obtain ⟨rest, followsRest, doneRest⟩ := later (broker.after state plan) (sent ++ plan)
      refine ⟨_, .append accepted followsRest, ?_⟩
      rw [bind_of_ok done, doneRest, List.append_assoc]
  | refused planned accepted needed refused =>
      exact ⟨_, .extend (.refused planned accepted needed refused) next, bind_of_error done⟩

theorem performs_each {act : α → Starting σ Unit} {plans : α → List ChannelCommand}
    (performs : ∀ value, Performs broker (act value) (plans value)) (values : List α) :
    Performs broker (each act values) (values.flatMap plans) := by
  induction values with
  | nil => exact performs_pure broker
  | cons value values inductionHypothesis => exact (performs value).bind inductionHypothesis

theorem performs_sendEach (broker : Broker σ) (channel : Nat) {command : α → BrokerCommand}
    (needed : ∀ value, (command value).isNeeded = true) (values : List α) :
    Performs broker (each (fun value => send broker channel (command value)) values)
      (values.map fun value => ⟨channel, command value⟩) := by
  rw [List.map_eq_flatMap]
  exact performs_each (fun value => performs_send broker channel (needed value)) values

end Performs

theorem performs_declare (broker : Broker σ) (topology : Topology) :
    Performs broker (declare broker 1 topology) (topology.declarations.map (⟨1, ·⟩)) := by
  have planned : topology.declarations.map (ChannelCommand.mk 1) =
      [topology.exchange, topology.deadLetterExchange].map (⟨1, .declareExchange · "topic" true⟩) ++
        ([⟨1, .declareQueue topology.deadLetterQueue true []⟩] ++
          ([⟨1, .bindQueue topology.deadLetterQueue topology.deadLetterExchange "#"⟩] ++
            topology.queues.flatMap fun queue =>
              [⟨1, .declareQueue queue.name true topology.queueArguments⟩] ++
                queue.bindings.map (⟨1, .bindQueue queue.name topology.exchange ·⟩))) := by
    simp [Topology.declarations, List.map_flatMap, Function.comp_def]
  rw [planned]
  exact (performs_sendEach broker 1 (fun _ => rfl) _).bind ((performs_send broker 1 rfl).bind
    ((performs_send broker 1 rfl).bind (performs_each (fun queue =>
      (performs_send broker 1 rfl).bind (performs_sendEach broker 1 (fun _ => rfl) _)) _)))

theorem performs_startConsumer (broker : Broker σ) (channel : Nat) (queue : QueueSpec) :
    Performs broker (startConsumer broker channel queue)
      ((Topology.consumption queue).map (⟨channel, ·⟩)) :=
  (performs_send broker channel rfl).bind
    ((performs_send broker channel rfl).bind (performs_send broker channel rfl))

theorem performs_startConsumers (broker : Broker σ) (queues : List QueueSpec) (place : Nat) :
    Performs broker (startConsumers broker (place + 2) queues)
      ((queues.zipIdx place).flatMap fun (queue, place) =>
        (Topology.consumption queue).map (⟨place + 2, ·⟩)) := by
  induction queues generalizing place with
  | nil => exact performs_pure broker
  | cons queue queues inductionHypothesis =>
      have others := inductionHypothesis (place + 1)
      rw [show place + 1 + 2 = place + 2 + 1 by omega] at others
      exact (performs_startConsumer broker (place + 2) queue).bind others

/-- The start follows the plan of its topology. -/
theorem performs_start (broker : Broker σ) (topology : Topology) :
    Performs broker (start broker topology) topology.plan := by
  have planned : topology.plan =
      [⟨1, .openChannel⟩] ++ (topology.declarations.map (⟨1, ·⟩) ++ ([⟨1, .closeChannel⟩] ++
        (topology.queues.zipIdx 0).flatMap fun (queue, place) =>
          (Topology.consumption queue).map (⟨place + 2, ·⟩))) := by
    simp [Topology.plan]
  rw [planned]
  exact (performs_send broker 1 rfl).bind ((performs_declare broker topology).bind
    ((performs_sendLoosely broker 1 rfl).bind (performs_startConsumers broker topology.queues 0)))

end Starting

/-! ## What commands bring about -/

section BroughtAbout

variable (commands : List ChannelCommand)

/-- Whether a command is among others, on whatever channel. -/
def HasCommand (command : BrokerCommand) : Prop := ∃ channel, ⟨channel, command⟩ ∈ commands

/-- A whole topology, all of it durable: both exchanges, by topic, the queue of dead letters, which
takes whatever comes to their exchange, and each consumed queue with all its bindings. -/
structure Topology.DeclaredBy (topology : Topology) : Prop where
  exchange : HasCommand commands (.declareExchange topology.exchange "topic" true)
  deadLetterExchange :
    HasCommand commands (.declareExchange topology.deadLetterExchange "topic" true)
  deadLetterQueue : ∃ arguments,
    HasCommand commands (.declareQueue topology.deadLetterQueue true arguments)
  deadLetters :
    HasCommand commands (.bindQueue topology.deadLetterQueue topology.deadLetterExchange "#")
  queues : ∀ queue ∈ topology.queues, ∃ arguments,
    HasCommand commands (.declareQueue queue.name true arguments)
  bindings : ∀ queue ∈ topology.queues, ∀ key ∈ queue.bindings,
    HasCommand commands (.bindQueue queue.name topology.exchange key)

/-- A queue whose rejected deliveries go to the exchange of dead letters, which is there as well. -/
def Topology.DeadLetters (topology : Topology) (queue : String) : Prop :=
  HasCommand commands (.declareExchange topology.deadLetterExchange "topic" true) ∧
    ∃ arguments, HasCommand commands (.declareQueue queue true arguments) ∧
      arguments.get? deadLetterArgument =
        some (.longString (Utf8.encode topology.deadLetterExchange.toList))

end BroughtAbout

/-- What a command rests on among those before it. A binding rests on its queue and its exchange. A
consumer, which answers by hand, belongs to one of the consumed queues and rests on the whole
topology, on the dead-lettering of its queue and on a bound of its channel, which is never 0: that
would mean no bound. -/
def ChannelCommand.Supported (topology : Topology) (earlier : List ChannelCommand) :
    ChannelCommand → Prop
  | ⟨_, .bindQueue queue exchange _⟩ =>
      (∃ arguments, HasCommand earlier (.declareQueue queue true arguments)) ∧
        HasCommand earlier (.declareExchange exchange "topic" true)
  | ⟨channel, .consume queue _ manual⟩ =>
      manual = true ∧ topology.DeclaredBy earlier ∧ topology.DeadLetters earlier queue ∧
        ∃ place spec count, topology.queues[place]? = some spec ∧ channel = place + 2 ∧
          queue = spec.name ∧ count = min (2 * max spec.workers 1) 65535 ∧ 0 < count ∧
          ⟨channel, .limitUnanswered count⟩ ∈ earlier
  | _ => True

/-- Commands that come after known ones, each resting on what is before it. -/
def AllSupported (topology : Topology) : (known commands : List ChannelCommand) → Prop
  | _, [] => True
  | known, command :: commands =>
      command.Supported topology known ∧ AllSupported topology (known ++ [command]) commands

section Support

variable {topology : Topology} {known earlier later first second : List ChannelCommand}

theorem HasCommand.mono {command : BrokerCommand} (has : HasCommand earlier command)
    (kept : earlier ⊆ later) : HasCommand later command :=
  has.imp fun _ sent => kept sent

theorem Topology.DeclaredBy.mono (declared : topology.DeclaredBy earlier) (kept : earlier ⊆ later) :
    topology.DeclaredBy later where
  exchange := declared.exchange.mono kept
  deadLetterExchange := declared.deadLetterExchange.mono kept
  deadLetterQueue := declared.deadLetterQueue.imp fun _ has => has.mono kept
  deadLetters := declared.deadLetters.mono kept
  queues := fun queue listed =>
    (declared.queues queue listed).imp fun _ has => has.mono kept
  bindings := fun queue listed key bound => (declared.bindings queue listed key bound).mono kept

theorem Topology.DeadLetters.mono {queue : String}
    (deadLetters : topology.DeadLetters earlier queue) (kept : earlier ⊆ later) :
    topology.DeadLetters later queue :=
  ⟨deadLetters.1.mono kept,
    deadLetters.2.imp fun _ ⟨has, names⟩ => ⟨has.mono kept, names⟩⟩

theorem allSupported_append :
    AllSupported topology known (first ++ second) ↔
      AllSupported topology known first ∧ AllSupported topology (known ++ first) second := by
  induction first generalizing known with
  | nil => simp [AllSupported]
  | cons command first inductionHypothesis =>
      rw [List.cons_append, AllSupported, AllSupported, inductionHypothesis, and_assoc,
        List.append_assoc, List.singleton_append]

/-- Wherever a supported list is cut, the next command rests on what is before the cut. -/
theorem AllSupported.split {command : ChannelCommand}
    (supported : AllSupported topology known (first ++ command :: second)) :
    command.Supported topology (known ++ first) :=
  (allSupported_append.mp supported).2.1

/-! ## The plan is supported -/

theorem allSupported_bindings {queue exchange : String} {arguments : HeaderTable}
    (keys : List String) (hasQueue : HasCommand known (.declareQueue queue true arguments))
    (hasExchange : HasCommand known (.declareExchange exchange "topic" true)) :
    AllSupported topology known (keys.map fun key => ⟨1, .bindQueue queue exchange key⟩) := by
  induction keys generalizing known with
  | nil => trivial
  | cons key keys inductionHypothesis =>
      have kept := List.subset_append_left known [⟨1, .bindQueue queue exchange key⟩]
      exact ⟨⟨⟨arguments, hasQueue⟩, hasExchange⟩,
        inductionHypothesis (hasQueue.mono kept) (hasExchange.mono kept)⟩

theorem allSupported_queues (queues : List QueueSpec)
    (hasExchange : HasCommand known (.declareExchange topology.exchange "topic" true)) :
    AllSupported topology known ((queues.flatMap fun queue =>
      .declareQueue queue.name true topology.queueArguments ::
        queue.bindings.map (.bindQueue queue.name topology.exchange)).map (⟨1, ·⟩)) := by
  induction queues generalizing known with
  | nil => trivial
  | cons queue queues inductionHypothesis =>
      rw [List.flatMap_cons, List.map_append, List.map_cons, List.map_map, allSupported_append]
      have kept := List.subset_append_left known
        [⟨1, .declareQueue queue.name true topology.queueArguments⟩]
      have hasQueue :
          HasCommand (known ++ [⟨1, .declareQueue queue.name true topology.queueArguments⟩])
            (.declareQueue queue.name true topology.queueArguments) := ⟨1, by simp⟩
      exact ⟨⟨trivial, allSupported_bindings queue.bindings hasQueue (hasExchange.mono kept)⟩,
        inductionHypothesis (hasExchange.mono (List.subset_append_left _ _))⟩

theorem allSupported_declarations (topology : Topology) :
    AllSupported topology [⟨1, .openChannel⟩] (topology.declarations.map (⟨1, ·⟩)) := by
  rw [Topology.declarations, List.map_append, allSupported_append]
  refine ⟨⟨trivial, trivial, trivial, ⟨?_, ?_⟩, trivial⟩, ?_⟩
  · exact ⟨[], 1, by simp⟩
  · exact ⟨1, by simp⟩
  · exact allSupported_queues topology.queues ⟨1, by simp⟩

theorem declareQueue_mem_declarations {queue : QueueSpec} (listed : queue ∈ topology.queues) :
    .declareQueue queue.name true topology.queueArguments ∈ topology.declarations :=
  List.mem_append_right _ (List.mem_flatMap.mpr ⟨queue, listed, List.mem_cons_self⟩)

theorem bindQueue_mem_declarations {queue : QueueSpec} {key : String}
    (listed : queue ∈ topology.queues) (bound : key ∈ queue.bindings) :
    .bindQueue queue.name topology.exchange key ∈ topology.declarations :=
  List.mem_append_right _ (List.mem_flatMap.mpr
    ⟨queue, listed, List.mem_cons_of_mem _ (List.mem_map_of_mem bound)⟩)

theorem declaredBy_declarations (topology : Topology) :
    topology.DeclaredBy (topology.declarations.map (⟨1, ·⟩)) where
  exchange := ⟨1, by simp [Topology.declarations]⟩
  deadLetterExchange := ⟨1, by simp [Topology.declarations]⟩
  deadLetterQueue := ⟨[], 1, by simp [Topology.declarations]⟩
  deadLetters := ⟨1, by simp [Topology.declarations]⟩
  queues := fun _ listed =>
    ⟨topology.queueArguments, 1, List.mem_map_of_mem (declareQueue_mem_declarations listed)⟩
  bindings := fun _ listed _ bound =>
    ⟨1, List.mem_map_of_mem (bindQueue_mem_declarations listed bound)⟩

theorem deadLetters_declarations {queue : QueueSpec} (listed : queue ∈ topology.queues) :
    topology.DeadLetters (topology.declarations.map (⟨1, ·⟩)) queue.name :=
  ⟨(declaredBy_declarations topology).deadLetterExchange, topology.queueArguments,
    ⟨1, List.mem_map_of_mem (declareQueue_mem_declarations listed)⟩, rfl⟩

theorem prefetch_pos (workers : Nat) : 0 < prefetch (max workers 1) := by
  simp only [prefetch, Number.largestNat16]
  omega

/-- The consumers of the queues from some place on, once everything is declared. -/
theorem allSupported_consumption (queues : List QueueSpec) (place : Nat)
    (listed : ∀ (index : Nat) queue, queues[index]? = some queue →
      topology.queues[place + index]? = some queue)
    (declared : topology.declarations.map (⟨1, ·⟩) ⊆ known) :
    AllSupported topology known ((queues.zipIdx place).flatMap fun (queue, place) =>
      (Topology.consumption queue).map (⟨place + 2, ·⟩)) := by
  induction queues generalizing place known with
  | nil => trivial
  | cons queue queues inductionHypothesis =>
      have own : topology.queues[place]? = some queue := listed 0 queue rfl
      have before : topology.declarations.map (⟨1, ·⟩) ⊆
          known ++ [⟨place + 2, .openChannel⟩] ++
            [⟨place + 2, .limitUnanswered (prefetch queue.workerCount)⟩] :=
        List.Subset.trans declared
          (List.Subset.trans (List.subset_append_left _ _) (List.subset_append_left _ _))
      have consumes : ChannelCommand.Supported topology
          (known ++ [⟨place + 2, .openChannel⟩] ++
            [⟨place + 2, .limitUnanswered (prefetch queue.workerCount)⟩])
          ⟨place + 2, .consume queue.name queue.consumerTag true⟩ :=
        ⟨rfl, (declaredBy_declarations topology).mono before,
          (deadLetters_declarations (List.mem_of_getElem? own)).mono before,
          place, queue, prefetch queue.workerCount, own, rfl, rfl, rfl, prefetch_pos _, by simp⟩
      rw [List.zipIdx_cons, List.flatMap_cons, allSupported_append]
      refine ⟨⟨trivial, trivial, consumes, trivial⟩, inductionHypothesis (place + 1) ?_ ?_⟩
      · intro index other found
        have later := listed (index + 1) other found
        rwa [show place + (index + 1) = place + 1 + index by omega] at later
      · exact List.Subset.trans declared (List.subset_append_left _ _)

/-- Each command of a plan rests on those before it. -/
theorem allSupported_plan (topology : Topology) : AllSupported topology [] topology.plan := by
  rw [Topology.plan, List.map_cons, List.map_append, allSupported_append]
  refine ⟨⟨trivial, allSupported_append.mpr ⟨allSupported_declarations topology, trivial, trivial⟩⟩,
    allSupported_consumption topology.queues 0 ?_ ?_⟩
  · intro index queue found
    rwa [Nat.zero_add]
  · intro command declared
    exact List.mem_cons_of_mem _ (List.mem_append_left _ declared)

end Support

/-! ## Bounds and consumers -/

/-- A consumer: its channel, its queue, its tag, and whether it answers by hand. -/
structure Consumer where
  channel : Nat
  queue : String
  tag : String
  manual : Bool
deriving DecidableEq, Repr

def ChannelCommand.consumer? : ChannelCommand → Option Consumer
  | ⟨channel, .consume queue tag manual⟩ => some ⟨channel, queue, tag, manual⟩
  | _ => none

/-- One consumer for each consumed queue, in their order, on a channel of its own. -/
def Topology.consumers (topology : Topology) : List Consumer :=
  topology.queues.zipIdx.map fun (queue, place) =>
    ⟨place + 2, queue.name, "sync-service." ++ queue.name, true⟩

/-- What is sent on the channel of the declarations neither consumes nor bounds anything. -/
theorem Topology.mem_declarations {topology : Topology} {command : BrokerCommand}
    (declared : command ∈ BrokerCommand.openChannel :: (topology.declarations ++ [.closeChannel])) :
    (∀ channel, ChannelCommand.consumer? ⟨channel, command⟩ = none) ∧
      ∀ count, command ≠ .limitUnanswered count := by
  simp only [Topology.declarations, List.mem_cons, List.mem_append, List.mem_flatMap, List.mem_map,
    List.not_mem_nil, or_false] at declared
  obtain rfl | ((rfl | rfl | rfl | rfl) | ⟨queue, -, rfl | ⟨key, -, rfl⟩⟩) | rfl := declared <;>
    exact ⟨fun _ => rfl, fun _ same => nomatch same⟩

theorem Topology.consumers_plan (topology : Topology) :
    topology.plan.filterMap ChannelCommand.consumer? = topology.consumers := by
  have none_declared : ((BrokerCommand.openChannel ::
      (topology.declarations ++ [.closeChannel])).map (ChannelCommand.mk 1)).filterMap
        ChannelCommand.consumer? = [] := by
    rw [List.filterMap_map, List.filterMap_eq_nil_iff]
    exact fun command declared => (mem_declarations declared).1 1
  rw [Topology.plan, List.filterMap_append, none_declared, List.nil_append, List.filterMap_flatMap,
    Topology.consumers, List.map_eq_flatMap]
  rfl

/-- A channel of the plan on which deliveries are bounded is the one of a consumed queue, bounded by
the workers of that queue. -/
theorem Topology.limit_plan {topology : Topology} {channel count : Nat}
    (limited : ⟨channel, .limitUnanswered count⟩ ∈ topology.plan) :
    ∃ place spec, topology.queues[place]? = some spec ∧ channel = place + 2 ∧
      count = prefetch spec.workerCount := by
  rw [Topology.plan, List.mem_append] at limited
  cases limited with
  | inl declared =>
      obtain ⟨command, isDeclared, isLimit⟩ := List.mem_map.mp declared
      cases isLimit
      exact absurd rfl ((mem_declarations isDeclared).2 count)
  | inr consumed =>
      obtain ⟨⟨spec, place⟩, listed, own⟩ := List.mem_flatMap.mp consumed
      refine ⟨place, spec, List.mem_zipIdx_iff_getElem?.mp listed, ?_⟩
      simpa [Topology.consumption] using own

/-- For every topology, every broker and every command that it may refuse: the start follows one
plan up to the first refusal of a command it needs, and succeeds exactly if there is none. Whatever
has been sent by then, each command rests on those before it, each channel has one bound, and the
consumers are the first ones of those that the queues are to have: all of them, if the start
succeeds. -/
theorem Topology.start_supported (topology : Topology) (broker : Broker σ) (state : σ) :
    let started := topology.start broker state
    broker.Follows state topology.plan started ∧
      started.sent <+: topology.plan ∧
      (started.result = .ok () ↔ broker.AcceptsAll state started.sent) ∧
      (∀ earlier command later, started.sent = earlier ++ command :: later →
        command.Supported topology earlier) ∧
      (∀ channel count other, ⟨channel, .limitUnanswered count⟩ ∈ started.sent →
        ⟨channel, .limitUnanswered other⟩ ∈ started.sent → count = other) ∧
      started.sent.filterMap ChannelCommand.consumer? <+: topology.consumers ∧
      (started.result = .ok () →
        started.sent.filterMap ChannelCommand.consumer? = topology.consumers) := by
  intro started
  have follows : broker.Follows state topology.plan started := by
    obtain ⟨other, follows, done⟩ := Starting.performs_start broker topology state []
    have same : started = other := by
      simp only [started, Topology.start, done, List.nil_append]
    rw [same]
    exact follows
  have isPrefix := follows.sent_prefix
  refine ⟨follows, isPrefix, follows.ok_iff, ?_, ?_, ?_, ?_⟩
  · intro earlier command later split
    obtain ⟨rest, whole⟩ := isPrefix
    have supported := allSupported_plan topology
    rw [← whole, split, List.append_assoc, List.cons_append] at supported
    exact supported.split
  · intro channel count other limited limitedToo
    obtain ⟨place, spec, found, isPlace, isCount⟩ := limit_plan (isPrefix.subset limited)
    obtain ⟨place', spec', found', isPlace', isCount'⟩ := limit_plan (isPrefix.subset limitedToo)
    obtain rfl : place = place' := by omega
    cases found.symm.trans found'
    rw [isCount, isCount']
  · rw [← consumers_plan]
    exact isPrefix.filterMap _
  · intro succeeded
    rw [follows.sent_of_ok succeeded, consumers_plan]

end DualStore
