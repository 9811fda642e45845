import DualStore.Event.Encoding
import DualStore.Proofs.Delivery.Process
import DualStore.Proofs.Memory.Service

/-!
Contract: runs of the routes over the two stores in memory.

Owns:
- what can occur in a run: the content service puts a post, a delivery is processed on a route with
  faults in the way of its calls, or a store is made to fail;
- the world after a list of occurrences, under one context and one policy of retries;
- deliveries without faults in their way: one that carries no event leaves the world alone, and one
  whose handling succeeds ends where the handling ends.

Does not own: occurrences at the same time; a delivery is processed to its end.
-/

namespace DualStore

/-- Without faults in its way a handling that succeeds is the only attempt. -/
theorem tryHandler_of_runs {σ : Type} {services : Services σ} {route : Route} {context : Context}
    {event : Event} {state after : σ} (policy : RetryPolicy)
    (succeeds : (route.script context event).run services state = (.finished (.ok ()), after)) :
    tryHandler policy ((route.handler context services.scheduled).handle event) ⟨[], state⟩ =
      (⟨.finished (.ok ()), [], 1⟩, ⟨[], after⟩) := by
  refine tryHandler_of_succeeds policy ?_
  change (route.script context event).run services.scheduled ⟨[], state⟩ = _
  rw [run_scheduled_nil, succeeds]

/-- The delivery of an event as its producer writes it. -/
def Envelope.carrying (event : Event) : Envelope :=
  { descriptor := some event.kind.name, body := event.encode }

/-- A context without reviews, in universal time. -/
def Context.plain : Context := { offset := default, auditRequired := false, placeholder := {} }

namespace Memory

/-- A post with nothing but its id and the status of published content. -/
def Document.published (id : String) : Document :=
  ⟨[("_id", .text id), ("status", .number (.whole 1))]⟩

/-- A published post of a user, in the posts and in the index. -/
def World.authored : World :=
  { store :=
      { documents := fun collection =>
          if collection = .posts then
            [⟨[("_id", .text "p"), ("status", .number (.whole 1)), ("userId", .number (.whole 7)),
              ("userNickname", .text "Ann")]⟩]
          else [] }
    index := { documents := [{ id := "p", userId := 7, userNickname := "Ann" }] } }

/-- What can occur in a run. -/
inductive Occurrence where
  | putPost (post : Document)
  | deliver (route : Route) (envelope : Envelope) (faults : List Fault)
  | failCollection (collection : Collection)
  | failEverything (fails : Bool)
  | shutDown
  | failIndex (count : Nat)

def Occurrence.puts (id : String) : Occurrence → Bool
  | .putPost post => DocumentStore.hasId id post
  | _ => false

namespace World

/-- A delivery on a route, with faults in the way of its calls: its report, and the world after
it. -/
def deliver (context : Context) (policy : RetryPolicy) (route : Route) (envelope : Envelope)
    (faults : List Fault) (world : World) : Report × World :=
  let processed :=
    process (route.handler context services.scheduled) policy envelope ⟨faults, world⟩
  (processed.1, processed.2.inner)

def occur (context : Context) (policy : RetryPolicy) (world : World) : Occurrence → World
  | .putPost post => { world with store := world.store.putPost post }
  | .deliver route envelope faults => (deliver context policy route envelope faults world).2
  | .failCollection collection => { world with store := world.store.failCollection collection }
  | .failEverything fails => { world with store := { world.store with failEverything := fails } }
  | .shutDown => { world with store := { world.store with isShutDown := true } }
  | .failIndex count => { world with index := world.index.failNext count }

def after (context : Context) (policy : RetryPolicy) (world : World)
    (occurrences : List Occurrence) : World :=
  occurrences.foldl (occur context policy) world

section Deliver

variable {context : Context} {policy : RetryPolicy} {route : Route} {envelope : Envelope}
  {world : World}

theorem deliver_of_event?_eq_none (nothing : envelope.event? route.accepts = none)
    (faults : List Fault) :
    (deliver context policy route envelope faults world).1.outcome = .ack ∧
      (deliver context policy route envelope faults world).2 = world := by
  have noEvent : envelope.event? (route.handler context services.scheduled).accepts = none :=
    nothing
  obtain ⟨unchanged, acknowledged, _⟩ := process_of_event?_eq_none noEvent
  exact ⟨acknowledged, congrArg Scheduled.inner unchanged⟩

/-- A delivery whose handling succeeds is acknowledged, and ends where the handling ends. -/
theorem deliver_of_succeeds {event : Event} {after : World}
    (carries : envelope.event? route.accepts = some event)
    (succeeds : (route.script context event).run services world = (.finished (.ok ()), after)) :
    (deliver context policy route envelope [] world).1.outcome = .ack ∧
      (deliver context policy route envelope [] world).2 = after := by
  have carried : envelope.event? (route.handler context services.scheduled).accepts = some event :=
    carries
  unfold deliver
  rw [process_of_event?_eq_some carried, tryHandler_of_runs policy succeeds]
  exact ⟨rfl, rfl⟩

end Deliver

end World

end Memory

end DualStore
