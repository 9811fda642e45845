import DualStore.Proofs.Memory.Session
import DualStore.Sync.Trace

/-!
Contract: the calls of a delivery, and that tracing them makes no difference.

Owns:
- processing under an image of the state: where an image of the handler handles the image of each
  state, a delivery is processed alike;
- deliveries with faults in the way of their calls, every call being traced: the report and the
  world are those of the delivery without a trace.

Does not own: which calls an event leads to.
-/

namespace DualStore

open Memory

/-! ## Images of states -/

section Images

variable {σ τ : Type} {image : σ → τ}

theorem tryFrom_image {handle : σ → Run × σ} {imaged : τ → Run × τ}
    (same : ∀ state, imaged (image state) = ((handle state).1, image (handle state).2))
    (policy : RetryPolicy) (attempt : UInt32) (more : Nat) (state : σ) :
    tryFrom policy imaged attempt more (image state) =
      ((tryFrom policy handle attempt more state).1,
        image (tryFrom policy handle attempt more state).2) := by
  induction more generalizing attempt state with
  | zero => rw [tryFrom, tryFrom, same]
  | succ more inductionHypothesis =>
      rw [tryFrom, tryFrom, same]
      rcases handle state with ⟨run, next⟩
      rcases run with ⟨error | succeeded⟩ | message
      · dsimp only
        split
        · rw [inductionHypothesis]
        · rfl
      · rfl
      · rfl

/-- A delivery is processed in the image of a state as in the state. -/
theorem process_image (handler : Handler σ) (imaged : Handler τ)
    (accepts : imaged.accepts = handler.accepts)
    (same : ∀ event state, imaged.handle event (image state) =
      ((handler.handle event state).1, image (handler.handle event state).2))
    (policy : RetryPolicy) (envelope : Envelope) (state : σ) :
    process imaged policy envelope (image state) =
      ((process handler policy envelope state).1,
        image (process handler policy envelope state).2) := by
  cases carries : envelope.event? handler.accepts with
  | none =>
      obtain ⟨kind, disposition, _, unhandled⟩ := process_unhandled carries
      rw [unhandled handler policy state rfl, unhandled imaged policy (image state) accepts]
  | some event =>
      have imagedCarries : envelope.event? imaged.accepts = some event := by
        rw [accepts]
        exact carries
      rw [process_of_event?_eq_some carries, process_of_event?_eq_some imagedCarries, tryHandler,
        tryFrom_image (same event)]
      rfl

end Images

/-! ## Traces -/

/-- A run is not changed by a trace of its calls. -/
theorem Script.run_traced {σ : Type} (services : Services σ) (script : Script)
    (state : Traced σ) :
    script.run services state.inner =
      ((script.run services.traced state).1, (script.run services.traced state).2.inner) := by
  induction script generalizing state with
  | finish result => rfl
  | readClock resume inductionHypothesis =>
      exact inductionHypothesis (services.clock state.inner).1
        { state with inner := (services.clock state.inner).2 }
  | perform call resume inductionHypothesis =>
      have traced : services.traced.answer call state = ((services.answer call state.inner).1,
          ⟨state.calls ++ [⟨call, (services.answer call state.inner).1⟩],
            (services.answer call state.inner).2⟩) := rfl
      rw [run, run, traced]
      rcases services.answer call state.inner with ⟨result | message, after⟩
      · exact inductionHypothesis result ⟨_, after⟩
      · rfl

/-- A call is traced with its answer. A reply is gone on with; any other answer ends the script, and
not with success. -/
theorem Script.run_call_traced_cases {σ : Type} (services : Services σ) (command : Call)
    (next : command.Reply → Script) (state : Traced σ) :
    let ran := (Script.call command next).run services.traced state
    let answered := services.answer command state.inner
    let after : Traced σ := ⟨state.calls ++ [⟨command, answered.1⟩], answered.2⟩
    (∃ reply, answered.1 = .replied (.ok reply) ∧ ran = (next reply).run services.traced after) ∨
      ((∀ reply, answered.1 ≠ .replied (.ok reply)) ∧ ran.1 ≠ .finished (.ok ()) ∧
        ran.2 = after) := by
  intro ran answered after
  have traced : services.traced.answer command state = (answered.1, after) := rfl
  have isRan : ran = (Script.call command next).run services.traced state := rfl
  rw [Script.call, Script.run, traced] at isRan
  rcases answer : answered.1 with ⟨error | reply⟩ | message
  · rw [answer] at isRan
    rw [isRan]
    exact Or.inr ⟨by simp, by simp [Script.run], rfl⟩
  · rw [answer] at isRan
    exact Or.inl ⟨reply, rfl, isRan⟩
  · rw [answer] at isRan
    rw [isRan]
    exact Or.inr ⟨by simp, by simp, rfl⟩

namespace Memory.World

variable (context : Context) (policy : RetryPolicy) (route : Route) (envelope : Envelope)
  (faults : List Fault) (world : World)

/-- A delivery on a route with faults in the way of its calls, every call being traced. -/
def deliverTraced : Report × Traced (Scheduled World) :=
  process (route.handler context services.scheduled.traced) policy envelope ⟨[], ⟨faults, world⟩⟩

/-- The calls of a delivery, in order, with their answers. -/
def callsOfDelivery : List TracedCall :=
  (deliverTraced context policy route envelope faults world).2.calls

/-- A delivery is not changed by a trace of its calls. -/
theorem deliver_eq_traced :
    deliver context policy route envelope faults world =
      ((deliverTraced context policy route envelope faults world).1,
        (deliverTraced context policy route envelope faults world).2.inner.inner) := by
  let traced := route.handler context services.scheduled.traced
  let plain := route.handler context services.scheduled
  have handles : ∀ event state, plain.handle event state.inner =
      ((traced.handle event state).1, (traced.handle event state).2.inner) := fun event state =>
    Script.run_traced services.scheduled (route.script context event) state
  have alike : process plain policy envelope ⟨faults, world⟩ = _ :=
    process_image traced plain rfl handles policy envelope ⟨[], ⟨faults, world⟩⟩
  unfold deliver
  rw [alike]
  rfl

end Memory.World

end DualStore
