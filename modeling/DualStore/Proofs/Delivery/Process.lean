import DualStore.Delivery.Dispatch
import Mathlib.Logic.Function.Iterate

/-!
Contract: one delivery, seen through the event it carries and the last attempt made for it.

Owns:
- the loop of retries: it ends with the run of its last attempt, and keeps what each attempt keeps;
- the number of its attempts: all before the last fail transiently, and none is left when the last
  does as well;
- the event that a delivery carries for a handler, and the two ways of a delivery: one without such
  an event is acknowledged and leaves the state alone, any other is handled by the loop.

Does not own: what a handler does about an event.
-/

namespace DualStore

variable {σ : Type}

/-! ## The loop of retries -/

/-- The loop ends as its last attempt does, which starts in a state that the earlier attempts led
to: whatever each failed attempt keeps holds there. -/
theorem tryFrom_last (policy : RetryPolicy) {handle : σ → Run × σ} (invariant : σ → Prop)
    (kept : ∀ state error, (handle state).1 = .finished (.error error) → invariant state →
      invariant (handle state).2) (attempt : UInt32) (more : Nat)
    {state : σ} (holds : invariant state) :
    ∃ last, invariant last ∧ handle last =
      ((tryFrom policy handle attempt more state).1.run,
        (tryFrom policy handle attempt more state).2) := by
  induction more generalizing attempt state with
  | zero => exact ⟨state, holds, rfl⟩
  | succ more inductionHypothesis =>
      rw [tryFrom]
      split
      · rename_i error next failed
        have holdsNext : invariant next := by
          have afterAttempt := kept state error (congrArg Prod.fst failed) holds
          rw [failed] at afterAttempt
          exact afterAttempt
        split
        · exact inductionHypothesis (attempt + 1) holdsNext
        · exact ⟨state, holds, failed⟩
      · rename_i run next _ ended
        exact ⟨state, holds, ended⟩

theorem tryHandler_last (policy : RetryPolicy) {handle : σ → Run × σ} (invariant : σ → Prop)
    (kept : ∀ state error, (handle state).1 = .finished (.error error) → invariant state →
      invariant (handle state).2) {state : σ} (holds : invariant state) :
    ∃ last, invariant last ∧ handle last =
      ((tryHandler policy handle state).1.run, (tryHandler policy handle state).2) :=
  tryFrom_last policy invariant kept 1 (policy.maxAttempts.toNat - 1) holds

theorem tryHandler_keeps (policy : RetryPolicy) {handle : σ → Run × σ} (invariant : σ → Prop)
    (kept : ∀ state, invariant state → invariant (handle state).2) {state : σ}
    (holds : invariant state) : invariant (tryHandler policy handle state).2 := by
  obtain ⟨last, holdsLast, ended⟩ :=
    tryHandler_last policy invariant (fun state _ _ => kept state) holds
  have afterLast := kept last holdsLast
  rw [ended] at afterLast
  exact afterLast

theorem tryHandler_of_succeeds (policy : RetryPolicy) {handle : σ → Run × σ} {state after : σ}
    (succeeds : handle state = (.finished (.ok ()), after)) :
    tryHandler policy handle state = (⟨.finished (.ok ()), [], 1⟩, after) := by
  unfold tryHandler
  cases policy.maxAttempts.toNat - 1 with
  | zero => rw [tryFrom, succeeds]
  | succ more => rw [tryFrom, succeeds]

/-- The state after so many attempts, each of which starts where the one before has ended. -/
def afterAttempts (handle : σ → Run × σ) (number : Nat) (state : σ) : σ :=
  (fun state => (handle state).2)^[number] state

/-- A failure after which the loop tries again. -/
def Run.FailsTransiently (run : Run) : Prop :=
  ∃ error, run = .finished (.error error) ∧ error.isTransient = true

/-- What the loop comes to: one attempt at least and so many at most, all but the last failing
transiently. It ends as the last does, and gives up on a transient failure only when no other
attempt is allowed. -/
structure Tried (handle : σ → Run × σ) (state : σ) (most : Nat) (made : Attempts × σ) : Prop where
  tried : 0 < made.1.count
  bounded : made.1.count ≤ most
  retried : ∀ number, number + 1 < made.1.count →
    (handle (afterAttempts handle number state)).1.FailsTransiently
  last : handle (afterAttempts handle (made.1.count - 1) state) = (made.1.run, made.2)
  exhausted : made.1.run.FailsTransiently → made.1.count = most

section Tried

variable {handle : σ → Run × σ} {state next : σ} {most : Nat} {run : Run}

/-- An attempt that the loop ends with. -/
theorem Tried.once (handled : handle state = (run, next)) (allowed : 0 < most)
    (ends : run.FailsTransiently → most = 1) : Tried handle state most (⟨run, [], 1⟩, next) where
  tried := Nat.one_pos
  bounded := allowed
  retried := fun number more => absurd (Nat.lt_of_succ_lt_succ more) (Nat.not_lt_zero number)
  last := handled
  exhausted := fun failed => (ends failed).symm

/-- An attempt that fails transiently, and those after it. -/
theorem Tried.again {later : Attempts × σ} (handled : handle state = (run, next))
    (failed : run.FailsTransiently) (tried : Tried handle next most later) (delay : Nat) :
    Tried handle state (most + 1)
      (⟨later.1.run, delay :: later.1.delays, later.1.count + 1⟩, later.2) where
  tried := Nat.succ_pos _
  bounded := Nat.succ_le_succ tried.bounded
  retried := fun number more => by
    cases number with
    | zero => rwa [afterAttempts, Function.iterate_zero_apply, handled]
    | succ number =>
        rw [afterAttempts, Function.iterate_succ_apply, handled]
        exact tried.retried number (Nat.lt_of_succ_lt_succ more)
  last := by
    have isLater := tried.last
    obtain ⟨count, isCount⟩ := Nat.exists_eq_add_of_lt tried.tried
    rw [isCount] at isLater ⊢
    rw [Nat.zero_add, Nat.add_sub_cancel] at isLater ⊢
    rw [afterAttempts, Function.iterate_succ_apply, handled]
    exact isLater
  exhausted := fun failedToo => congrArg (· + 1) (tried.exhausted failedToo)

theorem tried_tryFrom (policy : RetryPolicy) (handle : σ → Run × σ) (attempt : UInt32) (more : Nat)
    (state : σ) : Tried handle state (more + 1) (tryFrom policy handle attempt more state) := by
  induction more generalizing attempt state with
  | zero => exact .once rfl Nat.one_pos fun _ => rfl
  | succ more inductionHypothesis =>
      rw [tryFrom]
      split
      · rename_i error next failed
        split
        · rename_i isTransient
          exact .again failed ⟨error, rfl, isTransient⟩ (inductionHypothesis (attempt + 1) next) _
        · rename_i isPermanent
          refine .once failed (Nat.succ_pos _) ?_
          rintro ⟨other, same, isTransient⟩
          cases same
          exact absurd isTransient isPermanent
      · rename_i run next isNoError ended
        refine .once ended (Nat.succ_pos _) ?_
        rintro ⟨error, isError, -⟩
        exact (isNoError error isError).elim

theorem tried_tryHandler (policy : RetryPolicy) (handle : σ → Run × σ) (state : σ) :
    Tried handle state (max policy.maxAttempts.toNat 1) (tryHandler policy handle state) := by
  have tried := tried_tryFrom policy handle 1 (policy.maxAttempts.toNat - 1) state
  rwa [show policy.maxAttempts.toNat - 1 + 1 = max policy.maxAttempts.toNat 1 by omega] at tried

end Tried

/-! ## The event of a delivery -/

/-- The event that a delivery carries for a handler: its descriptor names a kind that the handler
accepts, and its body can be decoded as one of that kind. -/
def Envelope.event? (envelope : Envelope) (accepts : Kind → Bool) : Option Event :=
  match envelope.descriptor?.bind Kind.ofDescriptor? with
  | some kind => if accepts kind then (Event.decode kind envelope.body).toOption else none
  | none => none

/-- Whether a disposition is one of deliveries that reach their handler. -/
def Disposition.isHandled : Disposition → Bool
  | ack | nack => true
  | droppedMalformed | droppedUnknown | skipped | droppedUndecodable => false

theorem Event.kind_of_decode {kind : Kind} {body : List UInt8} {event : Event}
    (decoded : Event.decode kind body = .ok event) : event.kind = kind := by
  unfold Event.decode at decoded
  cases values : kind.shape.read body with
  | error failure =>
      rw [values] at decoded
      cases decoded
  | ok fields =>
      rw [values] at decoded
      cases decoded
      exact Event.kind_ofValues kind fields

section Process

variable {handler : Handler σ} {policy : RetryPolicy} {envelope : Envelope} {state : σ}

/-- A delivery without an event for the handler is reported as one that is not handled, and leaves
the state alone. The report depends on nothing but the kinds that the handler accepts. -/
theorem process_unhandled {accepts : Kind → Bool} (nothing : envelope.event? accepts = none) :
    ∃ kind disposition, disposition.isHandled = false ∧
      ∀ {σ : Type} (handler : Handler σ) (policy : RetryPolicy) (state : σ),
        handler.accepts = accepts →
          process handler policy envelope state = (.unhandled kind disposition, state) := by
  unfold Envelope.event? at nothing
  unfold process
  cases descriptor : envelope.descriptor? with
  | none => exact ⟨none, .droppedMalformed, rfl, fun _ _ _ _ => rfl⟩
  | some text =>
      rw [descriptor, Option.bind_some] at nothing
      dsimp only
      cases named : Kind.ofDescriptor? text with
      | none => exact ⟨none, .droppedUnknown, rfl, fun _ _ _ _ => rfl⟩
      | some kind =>
          rw [named] at nothing
          dsimp only at nothing ⊢
          by_cases accepted : accepts kind = true
          · rw [if_pos accepted] at nothing
            cases decoded : Event.decode kind envelope.body with
            | error failure =>
                refine ⟨some kind, .droppedUndecodable, rfl, fun handler policy state same => ?_⟩
                rw [same, if_pos accepted]
            | ok event =>
                rw [decoded] at nothing
                cases nothing
          · refine ⟨some kind, .skipped, rfl, fun handler policy state same => ?_⟩
            rw [same, if_neg accepted]

/-- A delivery without an event for the handler is acknowledged without an attempt, and leaves the
state alone. -/
theorem process_of_event?_eq_none (nothing : envelope.event? handler.accepts = none) :
    (process handler policy envelope state).2 = state ∧
      (process handler policy envelope state).1.outcome = .ack ∧
      (process handler policy envelope state).1.attempts = 0 := by
  obtain ⟨kind, disposition, _, unhandled⟩ := process_unhandled nothing
  rw [unhandled handler policy state rfl]
  exact ⟨rfl, rfl, rfl⟩

theorem process_of_event?_eq_some {event : Event}
    (carries : envelope.event? handler.accepts = some event) :
    process handler policy envelope state =
      (.handled event.kind (tryHandler policy (handler.handle event) state).1,
        (tryHandler policy (handler.handle event) state).2) := by
  unfold Envelope.event? at carries
  unfold process
  cases descriptor : envelope.descriptor? with
  | none =>
      rw [descriptor] at carries
      cases carries
  | some text =>
      rw [descriptor, Option.bind_some] at carries
      cases named : Kind.ofDescriptor? text with
      | none =>
          rw [named] at carries
          cases carries
      | some kind =>
          rw [named] at carries
          dsimp only
          rw [named]
          dsimp only at carries ⊢
          split
          · rename_i accepted
            rw [if_pos accepted] at carries
            cases decoded : Event.decode kind envelope.body with
            | error failure =>
                rw [decoded] at carries
                cases carries
            | ok decodedEvent =>
                rw [decoded] at carries
                cases carries
                rw [Event.kind_of_decode decoded]
          · rename_i refused
            rw [if_neg refused] at carries
            cases carries

/-- A delivery that has been handled is acknowledged exactly when its last attempt succeeded. -/
theorem Report.outcome_handled_eq_ack_iff {kind : Kind} {attempts : Attempts} :
    (Report.handled kind attempts).outcome = .ack ↔ attempts.run = .finished (.ok ()) := by
  unfold handled
  split
  · rename_i succeeded
    simp [succeeded]
  · rename_i error failed
    simp [failed]
  · rename_i message panicked
    simp [panicked]

theorem Report.attempts_handled {kind : Kind} {attempts : Attempts} :
    (Report.handled kind attempts).attempts = attempts.count := by
  unfold handled
  split <;> rfl

/-- A delivery that carries an event is what the loop makes of it: it counts its attempts, and is
acknowledged exactly when the last one succeeds. -/
theorem process_tried (handler : Handler σ) (policy : RetryPolicy) (state : σ) {event : Event}
    (carries : envelope.event? handler.accepts = some event) :
    ∃ made, Tried (handler.handle event) state (max policy.maxAttempts.toNat 1) made ∧
      (process handler policy envelope state).2 = made.2 ∧
      (process handler policy envelope state).1.attempts = made.1.count ∧
      ((process handler policy envelope state).1.outcome = .ack ↔
        made.1.run = .finished (.ok ())) := by
  rw [process_of_event?_eq_some carries]
  exact ⟨_, tried_tryHandler policy (handler.handle event) state, rfl, Report.attempts_handled,
    Report.outcome_handled_eq_ack_iff⟩

theorem process_keeps (invariant : σ → Prop)
    (kept : ∀ event state, invariant state → invariant (handler.handle event state).2)
    (holds : invariant state) : invariant (process handler policy envelope state).2 := by
  cases carries : envelope.event? handler.accepts with
  | none =>
      rw [(process_of_event?_eq_none carries).1]
      exact holds
  | some event =>
      rw [process_of_event?_eq_some carries]
      exact tryHandler_keeps policy invariant (kept event) holds

/-- A delivery that carries an event ends as its last attempt does, which starts in a state with
whatever the failed attempts before it keep, and is acknowledged exactly when that attempt
succeeds. -/
theorem process_handled (handler : Handler σ) (policy : RetryPolicy) (state : σ)
    (invariant : σ → Prop) {event : Event}
    (carries : envelope.event? handler.accepts = some event)
    (kept : ∀ state error, (handler.handle event state).1 = .finished (.error error) →
      invariant state → invariant (handler.handle event state).2)
    (holds : invariant state) :
    ∃ last run, invariant last ∧
      handler.handle event last = (run, (process handler policy envelope state).2) ∧
      ((process handler policy envelope state).1.outcome = .ack ↔ run = .finished (.ok ())) := by
  rw [process_of_event?_eq_some carries]
  obtain ⟨last, holdsLast, ended⟩ := tryHandler_last policy invariant kept holds
  exact ⟨last, _, holdsLast, ended, Report.outcome_handled_eq_ack_iff⟩

/-- An acknowledged delivery that carries an event ends where an attempt that succeeded ends, and
that attempt starts in a state with whatever the handling of the event keeps. -/
theorem process_acknowledged (handler : Handler σ) (invariant : σ → Prop) {event : Event}
    (carries : envelope.event? handler.accepts = some event)
    (kept : ∀ state, invariant state → invariant (handler.handle event state).2)
    (holds : invariant state)
    (acknowledged : (process handler policy envelope state).1.outcome = .ack) :
    ∃ last, invariant last ∧ handler.handle event last =
      (.finished (.ok ()), (process handler policy envelope state).2) := by
  obtain ⟨last, run, holdsLast, ended, succeeds⟩ :=
    process_handled handler policy state invariant carries (fun state _ _ => kept state) holds
  rw [succeeds.mp acknowledged] at ended
  exact ⟨last, holdsLast, ended⟩

end Process

end DualStore
