import DualStore.Broker.Workers
import Mathlib.Data.List.Nodup

/-!
Contract: the account of the deliveries that a group of workers takes.

Owns:
- runs of a group, step by step, and what a run has seen arrive and has seen processed;
- what a single step does to the deliveries: one arrives, is taken, is done or is answered, or none
  of them changes hands;
- the account, which every run keeps: no delivery is lost from the stream, each one taken is held by
  a worker or answered, and answers follow the outcome of processing.

Does not own: how an outcome comes about.
-/

namespace DualStore

def StreamItem.delivery? : StreamItem → Option Envelope
  | delivery envelope => some envelope
  | failure => none

def DeliveryAnswer.tag : DeliveryAnswer → Nat
  | ack tag => tag
  | nack tag _ => tag

/-- The delivery whose processing is over, with its outcome, while the answer is still to come. -/
def WorkerState.processed? : WorkerState → Option (Envelope × Outcome)
  | answering envelope outcome => some (envelope, outcome)
  | _ => none

def GroupStep.arrived? : GroupStep → Option Envelope
  | arrive envelope => some envelope
  | _ => none

namespace WorkerGroup

/-! ## Runs -/

def run? : WorkerGroup → List GroupStep → Option WorkerGroup
  | group, [] => some group
  | group, step :: steps => (group.step? step).bind fun next => next.run? steps

/-- The deliveries in the stream. -/
def pending (group : WorkerGroup) : List Envelope := group.stream.filterMap StreamItem.delivery?

/-- The deliveries whose processing is over and whose answers are still to come. -/
def unanswered (group : WorkerGroup) : List (Envelope × Outcome) :=
  group.workers.filterMap WorkerState.processed?

/-- The number of workers that hold a delivery. -/
def holders (group : WorkerGroup) (envelope : Envelope) : Nat :=
  group.workers.countP fun worker => worker.held? == some envelope

/-- The answers sent that carry a tag. -/
def answersTo (group : WorkerGroup) (tag : Nat) : List DeliveryAnswer :=
  (group.settled.map (·.answer)).filter (·.tag = tag)

/-- What a step says about a delivery: the outcome with which its processing ends. -/
def processed? (group : WorkerGroup) : GroupStep → Option (Envelope × Outcome)
  | .finish worker outcome =>
      (group.workers[worker]?.bind WorkerState.held?).map fun envelope => (envelope, outcome)
  | _ => none

/-- The deliveries whose processing ends in a run, each with its outcome. -/
def processedIn : WorkerGroup → List GroupStep → List (Envelope × Outcome)
  | _, [] => []
  | group, step :: steps =>
      match group.step? step with
      | some next => (group.processed? step).toList ++ next.processedIn steps
      | none => []

/-! ## What a step does to the deliveries -/

/-- A worker turns from one state to another: whatever is counted over the workers, what it showed
before gives way to what it shows now. -/
theorem perm_set {α : Type} (shown : WorkerState → Option α) {group : WorkerGroup} {worker : Nat}
    {old : WorkerState} (found : group.workers[worker]? = some old) (new : WorkerState) :
    ((shown old).toList ++ (group.set worker new).workers.filterMap shown).Perm
      ((shown new).toList ++ group.workers.filterMap shown) := by
  obtain ⟨known, isOld⟩ := List.getElem?_eq_some_iff.mp found
  have before : group.workers =
      group.workers.take worker ++ old :: group.workers.drop (worker + 1) := by
    rw [← isOld, ← List.drop_eq_getElem_cons known, List.take_append_drop]
  have after : (group.set worker new).workers =
      group.workers.take worker ++ new :: group.workers.drop (worker + 1) := by
    rw [set, List.set_eq_take_append_cons_drop, if_pos known]
  have split : ∀ state : WorkerState,
      ((group.workers.take worker ++ state :: group.workers.drop (worker + 1)).filterMap
        shown).Perm ((shown state).toList ++ ((group.workers.take worker).filterMap shown ++
          (group.workers.drop (worker + 1)).filterMap shown)) := by
    intro state
    rw [List.filterMap_append, List.filterMap_cons]
    cases shown state with
    | none => exact List.Perm.refl _
    | some value => exact List.perm_middle
  rw [after]
  conv => rhs; rw [before]
  refine ((split new).append_left _).trans (List.Perm.trans ?_ ((split old).symm.append_left _))
  rw [← List.append_assoc, ← List.append_assoc (shown new).toList]
  exact List.perm_append_comm.append_right _

/-- What a step can do: something arrives or the flag changes, a worker without a delivery turns, or
a delivery is taken, done or answered. -/
inductive Moved (group next : WorkerGroup) : GroupStep → Prop where
  | outside {step : GroupStep} :
      group.processed? step = none → next.workers = group.workers → next.taken = group.taken →
      next.settled = group.settled → next.pending = group.pending ++ step.arrived?.toList →
      Moved group next step
  | turn {step : GroupStep} {worker : Nat} {old : WorkerState} (new : WorkerState) :
      step.arrived? = none → group.processed? step = none →
      group.workers[worker]? = some old → old.held? = none → new.held? = none →
      next.workers = (group.set worker new).workers → next.taken = group.taken →
      next.settled = group.settled → next.pending = group.pending → Moved group next step
  | take {worker : Nat} {envelope : Envelope} :
      group.workers[worker]? = some .waiting →
      next.workers = (group.set worker (.processing envelope)).workers →
      next.taken = group.taken ++ [envelope] → next.settled = group.settled →
      group.pending = envelope :: next.pending → Moved group next (.take worker)
  | finish {worker : Nat} {envelope : Envelope} {outcome : Outcome} :
      group.workers[worker]? = some (.processing envelope) →
      next.workers = (group.set worker (.answering envelope outcome)).workers →
      next.taken = group.taken → next.settled = group.settled → next.pending = group.pending →
      Moved group next (.finish worker outcome)
  | answer {worker : Nat} {envelope : Envelope} {outcome : Outcome} :
      group.workers[worker]? = some (.answering envelope outcome) →
      next.workers = (group.set worker .checking).workers → next.taken = group.taken →
      next.settled = group.settled ++ [⟨envelope, outcome, outcome.answer envelope.tag⟩] →
      next.pending = group.pending → Moved group next (.answer worker)

theorem moved_of_step? {group next : WorkerGroup} {step : GroupStep}
    (stepped : group.step? step = some next) : Moved group next step := by
  cases step with
  | arrive envelope =>
      rw [step?] at stepped
      split at stepped
      · cases stepped
        exact .outside rfl rfl rfl rfl (by simp [pending, GroupStep.arrived?, StreamItem.delivery?])
      · cases stepped
  | fail =>
      rw [step?] at stepped
      split at stepped
      · cases stepped
        exact .outside rfl rfl rfl rfl (by simp [pending, GroupStep.arrived?, StreamItem.delivery?])
      · cases stepped
  | close =>
      cases stepped
      exact .outside rfl rfl rfl rfl (List.append_nil _).symm
  | request stop =>
      rw [step?] at stepped
      split at stepped
      · cases stepped
      · cases stepped
        exact .outside rfl rfl rfl rfl (List.append_nil _).symm
  | abandon =>
      cases stepped
      exact .outside rfl rfl rfl rfl (List.append_nil _).symm
  | check worker =>
      rw [step?] at stepped
      split at stepped
      · rename_i found
        cases stepped
        exact .turn _ rfl rfl found rfl (by split <;> rfl) rfl rfl rfl rfl
      · cases stepped
  | hear worker =>
      rw [step?] at stepped
      split at stepped
      · rename_i found
        cases stepped
        exact .turn _ rfl rfl found rfl (by split <;> rfl) rfl rfl rfl rfl
      · cases stepped
  | take worker =>
      rw [step?] at stepped
      split at stepped
      · rename_i envelope stream found headed
        cases stepped
        exact .take found rfl rfl rfl (by simp [pending, headed, StreamItem.delivery?])
      · rename_i stream found headed
        cases stepped
        have passed : group.pending = stream.filterMap StreamItem.delivery? := by
          rw [pending, headed]
          rfl
        exact .turn .stopped rfl rfl found rfl rfl rfl rfl rfl passed.symm
      · cases stepped
  | leave worker =>
      rw [step?] at stepped
      split at stepped
      · rename_i found _
        split at stepped
        · cases stepped
        · cases stepped
          exact .turn .stopped rfl rfl found rfl rfl rfl rfl rfl rfl
      · cases stepped
  | finish worker outcome =>
      rw [step?] at stepped
      split at stepped
      · rename_i envelope found
        cases stepped
        exact .finish found rfl rfl rfl rfl
      · cases stepped
  | answer worker =>
      rw [step?] at stepped
      split at stepped
      · rename_i envelope outcome found
        cases stepped
        exact .answer found rfl rfl rfl rfl
      · cases stepped

/-! ## The account -/

/-- What a group owes and has paid, after the deliveries that arrived and those processed so far. -/
structure Account (arrived : List Envelope) (processed : List (Envelope × Outcome)) (count : Nat)
    (group : WorkerGroup) : Prop where
  unlost : arrived = group.taken ++ group.pending
  shared : group.taken.Perm (group.held ++ group.settled.map (·.envelope))
  processed : processed.Perm
    (group.unanswered ++ group.settled.map fun settled => (settled.envelope, settled.outcome))
  answered : ∀ settled ∈ group.settled,
    settled.answer = settled.outcome.answer settled.envelope.tag
  sized : group.workers.length = count

theorem account_ofCount (count : Nat) (deliveries : List Envelope) :
    Account deliveries [] count (ofCount count deliveries) where
  unlost := by
    induction deliveries with
    | nil => rfl
    | cons envelope deliveries inductionHypothesis =>
        exact congrArg (envelope :: ·) inductionHypothesis
  shared := by
    have idle : (ofCount count deliveries).held = [] := by
      simp [held, ofCount, List.filterMap_replicate, WorkerState.held?]
    rw [idle]
    exact List.Perm.refl _
  processed := by
    have idle : (ofCount count deliveries).unanswered = [] := by
      simp [unanswered, ofCount, List.filterMap_replicate, WorkerState.processed?]
    rw [idle]
    exact List.Perm.refl _
  answered := fun _ settled => absurd settled List.not_mem_nil
  sized := List.length_replicate

theorem processed?_of_held? {state : WorkerState} (empty : state.held? = none) :
    state.processed? = none := by
  cases state <;> first | rfl | cases empty

/-- What leaves the hands of the workers and what comes into them, against what is given to them and
what they give away. -/
theorem perm_exchanged {α : Type} [DecidableEq α]
    {before after leaving entering given away : List α}
    (exchanged : (leaving ++ after).Perm (entering ++ before))
    (balanced : (leaving ++ given).Perm (entering ++ away)) (others : List α) :
    (before ++ others ++ given).Perm (after ++ (others ++ away)) := by
  rw [List.perm_iff_count] at exchanged balanced ⊢
  intro item
  have exchangedItem := exchanged item
  have balancedItem := balanced item
  simp only [List.count_append] at exchangedItem balancedItem ⊢
  omega

section

variable {arrived : List Envelope} {processed : List (Envelope × Outcome)} {count : Nat}
  {group next : WorkerGroup}

/-- The account is kept by a worker that turns from one state to another, if what it takes and what
it pays make up the difference in what it holds. -/
theorem Account.turned {worker : Nat} {old new : WorkerState}
    (account : Account arrived processed count group) (takes : List Envelope) (pays : List Settled)
    (ends : List (Envelope × Outcome)) (found : group.workers[worker]? = some old)
    (workers : next.workers = (group.set worker new).workers)
    (taken : next.taken = group.taken ++ takes) (settled : next.settled = group.settled ++ pays)
    (pending : group.pending = takes ++ next.pending)
    (handed : (old.held?.toList ++ takes).Perm (new.held?.toList ++ pays.map (·.envelope)))
    (ended : (old.processed?.toList ++ ends).Perm
      (new.processed?.toList ++ pays.map fun paid => (paid.envelope, paid.outcome)))
    (paid : ∀ paid ∈ pays, paid.answer = paid.outcome.answer paid.envelope.tag) :
    Account arrived (processed ++ ends) count next := by
  have held := perm_set WorkerState.held? found new
  have unanswered := perm_set WorkerState.processed? found new
  rw [← workers] at held unanswered
  refine ⟨?_, ?_, ?_, ?_, ?_⟩
  · rw [account.unlost, taken, pending, List.append_assoc]
  · rw [taken, settled, List.map_append]
    exact (account.shared.append_right takes).trans (perm_exchanged held handed _)
  · rw [settled, List.map_append]
    exact (account.processed.append_right ends).trans (perm_exchanged unanswered ended _)
  · rw [settled]
    intro answered member
    rcases List.mem_append.mp member with earlier | now
    · exact account.answered answered earlier
    · exact paid answered now
  · rw [workers, set, List.length_set]
    exact account.sized

/-- The account is kept by what happens outside the workers. -/
theorem Account.unturned {step : GroupStep} (account : Account arrived processed count group)
    (workers : next.workers = group.workers) (taken : next.taken = group.taken)
    (settled : next.settled = group.settled)
    (pending : next.pending = group.pending ++ step.arrived?.toList) :
    Account (arrived ++ step.arrived?.toList) processed count next := by
  have held : next.held = group.held := congrArg (List.filterMap _) workers
  have unanswered : next.unanswered = group.unanswered := congrArg (List.filterMap _) workers
  refine ⟨?_, ?_, ?_, ?_, ?_⟩
  · rw [account.unlost, taken, pending, List.append_assoc]
  · rw [taken, held, settled]
    exact account.shared
  · rw [unanswered, settled]
    exact account.processed
  · rw [settled]
    exact account.answered
  · rw [workers]
    exact account.sized

theorem Account.moved {step : GroupStep} (account : Account arrived processed count group)
    (moved : Moved group next step) :
    Account (arrived ++ step.arrived?.toList) (processed ++ (group.processed? step).toList) count
      next := by
  cases moved with
  | outside quiet workers taken settled pending =>
      rw [quiet, Option.toList_none, List.append_nil]
      exact account.unturned workers taken settled pending
  | turn new quiet silent found emptyOld emptyNew workers taken settled pending =>
      rw [quiet, silent, Option.toList_none, Option.toList_none, List.append_nil]
      refine account.turned [] [] [] found workers ?_ ?_ pending.symm ?_ ?_ nofun
      · rw [taken, List.append_nil]
      · rw [settled, List.append_nil]
      · rw [emptyOld, emptyNew]
        exact .refl _
      · rw [processed?_of_held? emptyOld, processed?_of_held? emptyNew]
        exact .refl _
  | @take worker envelope found workers taken settled pending =>
      show Account (arrived ++ []) (processed ++ []) count next
      rw [List.append_nil arrived]
      refine account.turned [envelope] [] [] found workers taken ?_ pending ?_ ?_ nofun
      · rw [settled, List.append_nil]
      · exact .refl _
      · exact .refl _
  | @finish worker envelope outcome found workers taken settled pending =>
      have ends : group.processed? (.finish worker outcome) = some (envelope, outcome) := by
        rw [processed?, found]
        rfl
      rw [ends]
      show Account (arrived ++ []) (processed ++ [(envelope, outcome)]) count next
      rw [List.append_nil arrived]
      refine account.turned [] [] [(envelope, outcome)] found workers ?_ ?_ pending.symm ?_ ?_ nofun
      · rw [taken, List.append_nil]
      · rw [settled, List.append_nil]
      · exact .refl _
      · exact .refl _
  | @answer worker envelope outcome found workers taken settled pending =>
      show Account (arrived ++ []) (processed ++ []) count next
      rw [List.append_nil arrived]
      refine account.turned [] [⟨envelope, outcome, outcome.answer envelope.tag⟩] [] found workers
        ?_ settled pending.symm ?_ ?_ ?_
      · rw [taken, List.append_nil]
      · exact .refl _
      · exact .refl _
      · intro paid isNow
        cases List.mem_singleton.mp isNow
        rfl

end

theorem Account.ran {arrived : List Envelope} {processed : List (Envelope × Outcome)}
    {count : Nat} {start group : WorkerGroup} {steps : List GroupStep}
    (account : Account arrived processed count start) (ran : start.run? steps = some group) :
    Account (arrived ++ steps.filterMap GroupStep.arrived?) (processed ++ start.processedIn steps)
      count group := by
  induction steps generalizing start arrived processed with
  | nil =>
      cases ran
      rw [List.filterMap_nil, processedIn, List.append_nil, List.append_nil]
      exact account
  | cons step steps inductionHypothesis =>
      obtain ⟨next, stepped, later⟩ := Option.bind_eq_some_iff.mp ran
      have counted := inductionHypothesis (account.moved (moved_of_step? stepped)) later
      rw [List.append_assoc, List.append_assoc] at counted
      rw [processedIn, stepped]
      have arrivals : (step :: steps).filterMap GroupStep.arrived? =
          step.arrived?.toList ++ steps.filterMap GroupStep.arrived? := by
        rw [List.filterMap_cons]
        cases step.arrived? <;> rfl
      rw [arrivals]
      exact counted

/-! ## Every delivery that is taken -/

theorem count_held (group : WorkerGroup) (envelope : Envelope) :
    group.held.count envelope = group.holders envelope := List.count_filterMap

theorem fst_mem_held {group : WorkerGroup} {envelope : Envelope} {outcome : Outcome}
    (ended : (envelope, outcome) ∈ group.unanswered) : envelope ∈ group.held := by
  obtain ⟨state, member, shows⟩ := List.mem_filterMap.mp ended
  refine List.mem_filterMap.mpr ⟨state, member, ?_⟩
  cases state with
  | answering other result =>
      cases shows
      rfl
  | checking => cases shows
  | waiting => cases shows
  | processing other => cases shows
  | stopped => cases shows

theorem Outcome.tag_answer (outcome : Outcome) (tag : Nat) : (outcome.answer tag).tag = tag := by
  cases outcome <;> rfl

section

variable {arrived : List Envelope} {processed : List (Envelope × Outcome)} {count : Nat}
  {group : WorkerGroup}

theorem Account.mem_taken (account : Account arrived processed count group) {settled : Settled}
    (member : settled ∈ group.settled) : settled.envelope ∈ group.taken :=
  account.shared.mem_iff.mpr
    (List.mem_append_right _ (List.mem_map.mpr ⟨settled, member, rfl⟩))

theorem Account.count_taken (account : Account arrived processed count group)
    (envelope : Envelope) :
    group.taken.count envelope =
      group.holders envelope + (group.settled.map (·.envelope)).count envelope := by
  rw [account.shared.count_eq, List.count_append, count_held]

/-- Where no two deliveries have one tag, the answers to a tag are those to its delivery. -/
theorem Account.answersTo_eq (account : Account arrived processed count group)
    (distinct : (arrived.map (·.tag)).Nodup) {envelope : Envelope}
    (taken : envelope ∈ group.taken) :
    group.answersTo envelope.tag =
      (group.settled.filter (·.envelope = envelope)).map (·.answer) := by
  unfold answersTo
  rw [List.filter_map]
  refine congrArg (List.map _) (List.filter_congr fun settled member => ?_)
  have carries : settled.answer.tag = settled.envelope.tag := by
    rw [account.answered settled member]
    exact Outcome.tag_answer _ _
  have arrives : ∀ {delivery : Envelope}, delivery ∈ group.taken → delivery ∈ arrived := by
    intro delivery known
    rw [account.unlost]
    exact List.mem_append_left _ known
  rw [Function.comp, carries]
  refine decide_eq_decide.mpr ⟨fun same => ?_, fun same => by rw [same]⟩
  exact List.inj_on_of_nodup_map distinct (arrives (account.mem_taken member)) (arrives taken) same

/-- A delivery whose answer has been sent, and nothing else with it. -/
theorem Account.answered_of_settled (account : Account arrived processed count group)
    (distinct : (arrived.map (·.tag)).Nodup) {envelope : Envelope}
    (taken : envelope ∈ group.taken) (free : group.holders envelope = 0)
    (once : (group.settled.map (·.envelope)).count envelope = 1) :
    ∃ outcome, processed.filter (·.1 = envelope) = [(envelope, outcome)] ∧
      group.answersTo envelope.tag = [outcome.answer envelope.tag] := by
  have single : (group.settled.filter (·.envelope = envelope)).length = 1 := by
    rw [← List.countP_eq_length_filter, ← once, List.count, List.countP_map]
    exact List.countP_congr fun settled _ => by simp
  obtain ⟨settled, isOnly⟩ := List.length_eq_one_iff.mp single
  have member : settled ∈ group.settled.filter (·.envelope = envelope) := by
    rw [isOnly]
    exact List.mem_singleton_self settled
  obtain ⟨known, isOwn⟩ := List.mem_filter.mp member
  have own : settled.envelope = envelope := of_decide_eq_true isOwn
  refine ⟨settled.outcome, ?_, ?_⟩
  · have notHeld : envelope ∉ group.held := by
      rw [← List.count_eq_zero, count_held]
      exact free
    have none : group.unanswered.filter (·.1 = envelope) = [] := by
      refine List.filter_eq_nil_iff.mpr fun ended member same => notHeld ?_
      rw [← of_decide_eq_true same]
      exact fst_mem_held member
    have ended := account.processed.filter (·.1 = envelope)
    rw [List.filter_append, none, List.nil_append, List.filter_map] at ended
    have paired : (group.settled.filter ((fun ended : Envelope × Outcome => decide (ended.1 =
        envelope)) ∘ fun settled => (settled.envelope, settled.outcome))) = [settled] := isOnly
    rw [paired, List.map_singleton, own] at ended
    exact List.perm_singleton.mp ended
  · rw [account.answersTo_eq distinct taken, isOnly, List.map_singleton,
      account.answered settled known, own]

end

theorem held_of_isDone {group : WorkerGroup} (done : group.isDone = true) : group.held = [] := by
  refine List.filterMap_eq_nil_iff.mpr fun state member => ?_
  have stopped := List.all_eq_true.mp done state member
  rw [eq_of_beq stopped]
  rfl

/-- Every delivery that a group takes is answered once. In every state that a run comes to, the
deliveries that arrived are those taken and those still in the stream, in this order; each one taken
is held by a worker or has been answered, with the tag that it carries and as processing ended;
where no two deliveries have one tag, one worker holds it and no answer carries its tag, or none
does and one answer carries it, an acknowledgement or a rejection for good, as the one ending of
its processing says; no more deliveries are held than there are workers, and none is once all have
stopped. -/
theorem taken_answered_once {count : Nat} {deliveries : List Envelope} {steps : List GroupStep}
    {group : WorkerGroup} (ran : (ofCount count deliveries).run? steps = some group) :
    deliveries ++ steps.filterMap GroupStep.arrived? = group.taken ++ group.pending ∧
    (∀ envelope, group.taken.count envelope =
      group.holders envelope + (group.settled.map (·.envelope)).count envelope) ∧
    ((ofCount count deliveries).processedIn steps).Perm
      (group.unanswered ++ group.settled.map fun settled => (settled.envelope, settled.outcome)) ∧
    (∀ settled ∈ group.settled, settled.answer =
      match settled.outcome with
      | .ack => .ack settled.envelope.tag
      | .nack => .nack settled.envelope.tag false) ∧
    (((deliveries ++ steps.filterMap GroupStep.arrived?).map (·.tag)).Nodup →
      ∀ envelope ∈ group.taken,
        (group.holders envelope = 1 ∧ group.answersTo envelope.tag = []) ∨
        (group.holders envelope = 0 ∧ ∃ outcome,
          ((ofCount count deliveries).processedIn steps).filter (·.1 = envelope) =
            [(envelope, outcome)] ∧
          group.answersTo envelope.tag = [outcome.answer envelope.tag])) ∧
    group.held.length ≤ count ∧
    (group.isDone = true → group.taken.Perm (group.settled.map (·.envelope))) := by
  have account := (account_ofCount count deliveries).ran ran
  rw [List.nil_append] at account
  refine ⟨account.unlost, account.count_taken, account.processed, ?_, ?_, ?_, ?_⟩
  · intro settled member
    rw [account.answered settled member]
    rfl
  · intro distinct envelope taken
    have takenOnce : group.taken.count envelope = 1 := by
      refine List.count_eq_one_of_mem ?_ taken
      have distinctTaken := distinct.of_map
      rw [account.unlost] at distinctTaken
      exact distinctTaken.of_append_left
    -- It was taken once, so it is held once or answered once, and not both.
    have shared := account.count_taken envelope
    rw [takenOnce] at shared
    have either : (group.settled.map (·.envelope)).count envelope = 0 ∨
        (group.settled.map (·.envelope)).count envelope = 1 := by omega
    rcases either with unanswered | answered
    · refine Or.inl ⟨by omega, ?_⟩
      rw [account.answersTo_eq distinct taken, List.map_eq_nil_iff]
      refine List.filter_eq_nil_iff.mpr fun settled member same => ?_
      refine List.count_eq_zero.mp unanswered (List.mem_map.mpr ⟨settled, member, ?_⟩)
      exact of_decide_eq_true same
    · have free : group.holders envelope = 0 := by omega
      exact Or.inr ⟨free, account.answered_of_settled distinct taken free answered⟩
  · rw [← account.sized]
    exact List.length_filterMap_le _ _
  · intro done
    have shared := account.shared
    rw [held_of_isDone done, List.nil_append] at shared
    exact shared

/-- Two workers take two deliveries; the second is rejected while the first is still in process, and
the flag is set before that one is acknowledged. -/
theorem taken_answered_once_of_stopped :
    let first : Envelope := ⟨some "ContentDeleted", [], 1⟩
    let second : Envelope := ⟨some "ContentUpdated", [], 2⟩
    let steps : List GroupStep :=
      [.check 0, .take 0, .arrive second, .check 1, .take 1, .finish 1 .nack, .answer 1,
       .request true, .finish 0 .ack, .answer 0, .check 1, .check 0]
    ∃ group, (ofCount 2 [first]).run? steps = some group ∧ group.isDone = true ∧
      group.taken.Perm (group.settled.map (·.envelope)) ∧
      group.answersTo 1 = [.ack 1] ∧ group.answersTo 2 = [.nack 2 false] ∧
      ∃ outcome, ((ofCount 2 [first]).processedIn steps).filter (·.1 = second) =
        [(second, outcome)] ∧ group.answersTo 2 = [outcome.answer 2] := by
  intro first second steps
  refine ⟨_, rfl, rfl, ?_, rfl, rfl, ?_⟩
  · exact (taken_answered_once (rfl : (ofCount 2 [first]).run? steps = some _)).2.2.2.2.2.2 rfl
  · have account := (taken_answered_once (rfl : (ofCount 2 [first]).run? steps = some _)).2.2.2.2.1
      (by decide) second (List.mem_cons_of_mem _ (List.mem_singleton_self _))
    rcases account with ⟨_, unanswered⟩ | ⟨_, answered⟩
    · exact absurd unanswered (by decide)
    · exact answered

end WorkerGroup

end DualStore
