import DualStore.Sync.Script

/-!
Contract: the calls of a run, in order, with their answers.

Owns: services that keep a trace of the calls put to them, whatever becomes of each call.

Does not own: the services that answer.
-/

namespace DualStore

/-- A call together with its answer. -/
structure TracedCall where
  call : Call
  answer : Answer call.Reply

/-- A state with the calls made so far. -/
structure Traced (σ : Type) where
  calls : List TracedCall
  inner : σ

/-- Services that keep a trace. -/
def Services.traced (services : Services σ) : Services (Traced σ) where
  answer call state :=
    let (answer, inner) := services.answer call state.inner
    (answer, ⟨state.calls ++ [⟨call, answer⟩], inner⟩)
  clock state :=
    let (now, inner) := services.clock state.inner
    (now, { state with inner })

end DualStore
