import DualStore.Proofs.Delivery.Process
import DualStore.Proofs.Memory.Session
import Mathlib.Order.Bounds.Defs

/-!
Contract: the loop of retries, turn by turn.

Owns:
- one turn of the loop, and the journal of what it does: it calls the handler, and waits before it
  calls again;
- after as many turns as attempts are counted the loop has ended as it is computed in one go, with
  the delays in their order between the calls and none behind the last;
- the number of an attempt never exceeds how many are allowed;
- for handlers that give scripted results, which attempt is the last.

Does not own: how long a delay is.
-/

namespace DualStore

variable {σ : Type}

/-! ## Turns -/

/-- What the loop does: it calls the handler with an event, or waits for so many milliseconds. -/
inductive Activity where
  | called (event : Event)
  | waited (delay : Nat)
deriving DecidableEq

/-- The loop between two turns: the number of the attempt that it has come to, the state that the
attempts have led to, what has been done, and the end once it is reached. -/
structure Retrying (σ : Type) where
  attempt : UInt32
  state : σ
  journal : List Activity
  ended : Option Run

namespace Retrying

def start (state : σ) : Retrying σ := ⟨1, state, [], none⟩

/-- A turn calls the handler. It waits and goes on to the next attempt after a transient failure
while another attempt is allowed, and ends otherwise. -/
def turn (policy : RetryPolicy) (handler : Handler σ) (event : Event) (loop : Retrying σ) :
    Retrying σ :=
  match loop.ended with
  | some _ => loop
  | none =>
      let called := loop.journal ++ [.called event]
      match handler.handle event loop.state with
      | (.finished (.error error), state) =>
          if error.isTransient && loop.attempt < policy.maxAttempts then
            ⟨loop.attempt + 1, state, called ++ [.waited (policy.delay loop.attempt)], none⟩
          else ⟨loop.attempt, state, called, some (.finished (.error error))⟩
      | (run, state) => ⟨loop.attempt, state, called, some run⟩

section Turn

variable {policy : RetryPolicy} {handler : Handler σ} {event : Event} {attempt : UInt32}
  {state next : σ} {journal : List Activity} {run : Run}

theorem turn_again (handled : handler.handle event state = (run, next))
    (failed : run.FailsTransiently) (allowed : attempt < policy.maxAttempts) :
    turn policy handler event ⟨attempt, state, journal, none⟩ =
      ⟨attempt + 1, next, journal ++ [.called event] ++ [.waited (policy.delay attempt)],
        none⟩ := by
  obtain ⟨error, rfl, isTransient⟩ := failed
  rw [turn]
  dsimp only
  rw [handled]
  dsimp only
  rw [isTransient, Bool.true_and, if_pos (decide_eq_true allowed)]

theorem turn_last (handled : handler.handle event state = (run, next))
    (ends : run.FailsTransiently → policy.maxAttempts ≤ attempt) :
    turn policy handler event ⟨attempt, state, journal, none⟩ =
      ⟨attempt, next, journal ++ [.called event], some run⟩ := by
  rw [turn]
  dsimp only
  rw [handled]
  split
  · rename_i error after same
    obtain ⟨rfl, rfl⟩ := Prod.mk.inj same
    refine if_neg fun goesOn => ?_
    rw [Bool.and_eq_true, decide_eq_true_eq] at goesOn
    exact UInt32.not_lt.mpr (ends ⟨error, rfl, goesOn.1⟩) goesOn.2
  · rename_i other after _ same
    obtain ⟨rfl, rfl⟩ := Prod.mk.inj same
    rfl

theorem toNat_next (allowed : attempt < policy.maxAttempts) :
    (attempt + 1).toNat = attempt.toNat + 1 := by
  have below := UInt32.lt_iff_toNat_lt.mp allowed
  have bounded := policy.maxAttempts.toNat_lt
  rw [UInt32.toNat_add, UInt32.toNat_one, Nat.mod_eq_of_lt (by omega)]

/-- Between the first attempt and the last that is allowed. -/
def Within (policy : RetryPolicy) (loop : Retrying σ) : Prop :=
  1 ≤ loop.attempt.toNat ∧ loop.attempt.toNat ≤ policy.maxAttempts.toNat

theorem Within.turn {loop : Retrying σ} (within : Within policy loop) :
    Within policy (turn policy handler event loop) := by
  unfold Retrying.turn
  split
  · exact within
  · split
    · split
      · rename_i goesOn
        rw [Bool.and_eq_true, decide_eq_true_eq] at goesOn
        refine ⟨?_, ?_⟩ <;> rw [toNat_next goesOn.2]
        · exact Nat.le_succ_of_le within.1
        · exact UInt32.lt_iff_toNat_lt.mp goesOn.2
      · exact within
    · exact within

theorem Within.turns {loop : Retrying σ} (within : Within policy loop) (turns : Nat) :
    Within policy ((Retrying.turn policy handler event)^[turns] loop) := by
  induction turns with
  | zero => exact within
  | succ turns inductionHypothesis =>
      rw [Function.iterate_succ_apply']
      exact inductionHypothesis.turn

end Turn

/-! ## The whole loop -/

/-- For each delay a call, and the wait after it. -/
def rounds (event : Event) (delays : List Nat) : List Activity :=
  delays.flatMap fun delay => [.called event, .waited delay]

/-- The loop ends with what has been made: after as many turns as attempts are counted and no
earlier, with a delay behind each call but the last. -/
structure Ends (policy : RetryPolicy) (handler : Handler σ) (event : Event) (loop : Retrying σ)
    (made : Attempts × σ) : Prop where
  goesOn : ∀ turns < made.1.count, ((turn policy handler event)^[turns] loop).ended = none
  endsThere : ∃ attempt, attempt.toNat + 1 = loop.attempt.toNat + made.1.count ∧
    (turn policy handler event)^[made.1.count] loop =
      ⟨attempt, made.2, loop.journal ++ rounds event made.1.delays ++ [.called event],
        some made.1.run⟩
  delays : made.1.delays = (List.range' loop.attempt.toNat (made.1.count - 1)).map
    fun number => policy.delay (.ofNat number)

section Ends

variable {policy : RetryPolicy} {handler : Handler σ} {event : Event} {attempt : UInt32}
  {state next : σ} {journal : List Activity} {run : Run}

theorem Ends.once (handled : handler.handle event state = (run, next))
    (ends : run.FailsTransiently → policy.maxAttempts ≤ attempt) :
    Ends policy handler event ⟨attempt, state, journal, none⟩ (⟨run, [], 1⟩, next) where
  goesOn := fun turns before => by
    rw [Nat.lt_one_iff.mp before]
    rfl
  endsThere := by
    refine ⟨attempt, rfl, ?_⟩
    rw [Function.iterate_one, turn_last handled ends]
    simp [rounds]
  delays := rfl

theorem Ends.again {later : Attempts × σ} (handled : handler.handle event state = (run, next))
    (failed : run.FailsTransiently) (allowed : attempt < policy.maxAttempts)
    (tried : 0 < later.1.count)
    (ends : Ends policy handler event ⟨attempt + 1, next,
      journal ++ [.called event] ++ [.waited (policy.delay attempt)], none⟩ later) :
    Ends policy handler event ⟨attempt, state, journal, none⟩
      (⟨later.1.run, policy.delay attempt :: later.1.delays, later.1.count + 1⟩, later.2) where
  goesOn := fun turns before => by
    cases turns with
    | zero => rfl
    | succ turns =>
        rw [Function.iterate_succ_apply, turn_again handled failed allowed]
        exact ends.goesOn turns (Nat.lt_of_succ_lt_succ before)
  endsThere := by
    obtain ⟨last, isLast, endsThere⟩ := ends.endsThere
    refine ⟨last, ?_, ?_⟩
    · rw [isLast]
      dsimp only
      rw [toNat_next allowed]
      omega
    · rw [Function.iterate_succ_apply, turn_again handled failed allowed, endsThere]
      simp [rounds]
  delays := by
    obtain ⟨count, isCount⟩ := Nat.exists_eq_add_of_lt tried
    have delays := ends.delays
    dsimp only at delays ⊢
    rw [toNat_next allowed, isCount] at delays
    rw [delays, isCount, Nat.zero_add, Nat.add_sub_cancel, Nat.add_sub_cancel, List.range'_succ,
      List.map_cons, UInt32.ofNat_toNat]

/-- The loop in turns ends with what is computed in one go. -/
theorem ends_tryFrom (more : Nat)
    (allowed : attempt.toNat + more = policy.maxAttempts.toNat) :
    Ends policy handler event ⟨attempt, state, journal, none⟩
      (tryFrom policy (handler.handle event) attempt more state) := by
  induction more generalizing attempt state journal with
  | zero => exact .once rfl fun _ => UInt32.le_iff_toNat_le.mpr (Nat.le_of_eq allowed.symm)
  | succ more inductionHypothesis =>
      have isAllowed : attempt < policy.maxAttempts := UInt32.lt_iff_toNat_lt.mpr (by omega)
      rw [tryFrom]
      split
      · rename_i error next failed
        split
        · rename_i isTransient
          refine .again failed ⟨error, rfl, isTransient⟩ isAllowed
            (tried_tryFrom policy _ (attempt + 1) more next).tried (inductionHypothesis ?_)
          rw [toNat_next isAllowed]
          omega
        · rename_i isPermanent
          refine .once failed ?_
          rintro ⟨other, same, isTransient⟩
          cases same
          exact absurd isTransient isPermanent
      · rename_i run next isNoError ended
        refine .once ended ?_
        rintro ⟨error, isError, -⟩
        exact (isNoError error isError).elim

end Ends

end Retrying

/-! ## Scripted results -/

theorem toNat_max_one (n : UInt32) : (max n 1).toNat = max n.toNat 1 := by
  change (if n ≤ 1 then 1 else n).toNat = _
  split
  · rename_i few
    have atMost := UInt32.le_iff_toNat_le.mp few
    exact (Nat.max_eq_right atMost).symm
  · rename_i more
    rw [UInt32.le_iff_toNat_le] at more
    exact (Nat.max_eq_left (Nat.le_of_not_le more)).symm

theorem RetryPolicy.toNat_maxAttempts_new {maxAttempts : UInt32} {backoffMs : UInt64} :
    (RetryPolicy.new maxAttempts backoffMs).maxAttempts.toNat = max maxAttempts.toNat 1 :=
  toNat_max_one maxAttempts

/-- A handler that gives results one after the other, the first numbered one, and keeps the events
that it was called with. -/
def Handler.scripted (accepts : Kind → Bool) (results : Nat → Handled) : Handler (List Event) where
  accepts := accepts
  handle event calls := (.finished (results (calls.length + 1)), calls ++ [event])

theorem afterAttempts_scripted (accepts : Kind → Bool) (results : Nat → Handled) (event : Event)
    (number : Nat) :
    afterAttempts ((Handler.scripted accepts results).handle event) number [] =
      List.replicate number event := by
  induction number with
  | zero => rfl
  | succ number inductionHypothesis =>
      rw [afterAttempts] at inductionHypothesis ⊢
      rw [Function.iterate_succ_apply', inductionHypothesis, List.replicate_succ']
      rfl

theorem handle_afterAttempts_scripted (accepts : Kind → Bool) (results : Nat → Handled)
    (event : Event) (number : Nat) :
    let handle := (Handler.scripted accepts results).handle event
    handle (afterAttempts handle number []) =
      (.finished (results (number + 1)), List.replicate (number + 1) event) := by
  intro handle
  rw [afterAttempts_scripted]
  change (Run.finished (results ((List.replicate number event).length + 1)), _) = _
  rw [List.length_replicate, List.replicate_succ']

/-- For every number of attempts, every backoff and every script of results: let `last` be the least
number of an attempt that either is the last allowed or does not fail transiently. The loop ends
after exactly so many turns, each of which calls the handler with the same event. It waits for the
delay of each attempt before the last, in their order and between the calls, and the number of the
attempt stays within what is allowed. The delivery ends with the result of the last attempt, and is
acknowledged exactly when that is a success. -/
theorem retries_exactly (maxAttempts : UInt32) (backoffMs : UInt64) (accepts : Kind → Bool)
    (results : Nat → Handled) (event : Event) (envelope : Envelope)
    (carries : envelope.event? accepts = some event) :
    let policy := RetryPolicy.new maxAttempts backoffMs
    let most := max maxAttempts.toNat 1
    let handler := Handler.scripted accepts results
    let loop (turns : Nat) := (Retrying.turn policy handler event)^[turns] (.start [])
    ∃ last, IsLeast {number | 0 < number ∧
        (number = most ∨ ¬(Run.finished (results number)).FailsTransiently)} last ∧
      let delays := (List.range' 1 (last - 1)).map fun number => policy.delay (.ofNat number)
      (∀ turns < last, (loop turns).ended = none) ∧
        (loop last).ended = some (.finished (results last)) ∧
        (loop last).journal = Retrying.rounds event delays ++ [.called event] ∧
        (∀ turns, 1 ≤ (loop turns).attempt.toNat ∧ (loop turns).attempt.toNat ≤ most) ∧
        process handler policy envelope [] =
          (.handled event.kind ⟨.finished (results last), delays, last⟩,
            List.replicate last event) ∧
        ((process handler policy envelope []).1.outcome = .ack ↔ results last = .ok ()) := by
  intro policy most handler loop
  let made := tryHandler policy (handler.handle event) []
  have allowed : policy.maxAttempts.toNat = most := RetryPolicy.toNat_maxAttempts_new
  have positive : 0 < most := Nat.lt_of_lt_of_le Nat.one_pos (Nat.le_max_right _ 1)
  have tried : Tried (handler.handle event) [] most made := by
    have tried := tried_tryHandler policy (handler.handle event) []
    rwa [allowed, Nat.max_eq_left positive] at tried
  have ends : Retrying.Ends policy handler event (.start []) made := by
    refine Retrying.ends_tryFrom (policy.maxAttempts.toNat - 1) ?_
    rw [allowed, UInt32.toNat_one, Nat.add_sub_cancel' positive]
  have isMade : made = (⟨.finished (results made.1.count), made.1.delays, made.1.count⟩,
      List.replicate made.1.count event) := by
    have isLast := tried.last
    rw [handle_afterAttempts_scripted, Nat.sub_add_cancel tried.tried] at isLast
    obtain ⟨isRun, isState⟩ := Prod.mk.inj isLast
    rw [isRun, isState]
  have retried (number : Nat) (isAttempt : 0 < number) (notLast : number < made.1.count) :
      (Run.finished (results number)).FailsTransiently := by
    have failed := tried.retried (number - 1) (by omega)
    rwa [handle_afterAttempts_scripted, Nat.sub_add_cancel isAttempt] at failed
  have isRun : made.1.run = .finished (results made.1.count) := congrArg (·.1.run) isMade
  have isDelays : made.1.delays =
      (List.range' 1 (made.1.count - 1)).map fun number => policy.delay (.ofNat number) :=
    ends.delays
  obtain ⟨attempt, -, endsThere⟩ := ends.endsThere
  refine ⟨made.1.count, ⟨⟨tried.tried, ?_⟩, ?_⟩, ends.goesOn, ?_, ?_, ?_, ?_, ?_⟩
  · by_cases failed : (Run.finished (results made.1.count)).FailsTransiently
    · rw [← isRun] at failed
      exact Or.inl (tried.exhausted failed)
    · exact Or.inr failed
  · rintro number ⟨isAttempt, isLast⟩
    by_contra before
    rcases isLast with isMost | notFailed
    · exact before (isMost ▸ tried.bounded)
    · exact notFailed (retried number isAttempt (Nat.not_le.mp before))
  · rw [← isRun]
    exact congrArg (·.ended) endsThere
  · rw [← isDelays]
    exact congrArg (·.journal) endsThere
  · intro turns
    have within : Retrying.Within policy (Retrying.start ([] : List Event)) :=
      ⟨Nat.le_refl 1, by rw [allowed]; exact positive⟩
    have bounds : Retrying.Within policy (loop turns) := within.turns turns
    rwa [Retrying.Within, allowed] at bounds
  · rw [process_of_event?_eq_some carries, ← isDelays]
    exact congrArg (fun made => (Report.handled event.kind made.1, made.2)) isMade
  · rw [process_of_event?_eq_some carries, Report.outcome_handled_eq_ack_iff]
    change made.1.run = _ ↔ _
    rw [isRun, Run.finished.injEq]

/-- Two transient failures and a success: three calls, and a wait after each of the first two. -/
theorem retries_exactly_thirdSucceeds :
    let event := Event.contentUpdated ⟨"p"⟩
    let results (number : Nat) : Handled :=
      if number < 3 then .error (.store (.unavailable "down")) else .ok ()
    let report := (process (.scripted (fun _ => true) results) (.new 5 200)
      (.carrying event) []).1
    (Envelope.carrying event).event? (fun _ => true) = some event ∧
      report.outcome = .ack ∧ report.attempts = 3 ∧ report.delays = [200, 400] := by
  intro event results report
  have carries : (Envelope.carrying event).event? (fun _ => true) = some event := by
    decide +kernel
  obtain ⟨last, ⟨⟨isAttempt, isLast⟩, least⟩, _, _, _, _, processed, acknowledged⟩ :=
    retries_exactly 5 200 (fun _ => true) results event (.carrying event) carries
  have third : last = 3 := by
    apply Nat.le_antisymm
    · refine least ⟨by decide, Or.inr ?_⟩
      rintro ⟨error, failed, -⟩
      cases failed
    · by_contra before
      have isFailure : results last = .error (.store (.unavailable "down")) :=
        if_pos (Nat.not_le.mp before)
      rcases isLast with isMost | succeeds
      · change last = 5 at isMost
        omega
      · exact succeeds ⟨_, congrArg _ isFailure, rfl⟩
  subst third
  refine ⟨carries, acknowledged.mpr rfl, ?_, ?_⟩
  · exact congrArg (·.1.attempts) processed
  · have delays : report.delays = (List.range' 1 2).map
        fun number => (RetryPolicy.new 5 200).delay (.ofNat number) :=
      congrArg (·.1.delays) processed
    rw [delays]
    decide

end DualStore
