import DualStore.Delivery.Metrics
import DualStore.Proofs.Delivery.Process
import Mathlib.Algebra.BigOperators.Group.List.Lemmas
import Mathlib.Algebra.GroupWithZero.Nat

/-!
Contract: no delivery is lost or counted twice between its handler and the counters.

Owns:
- the results of the handler calls that are made for each delivery of a run;
- the account of one delivery: its outcome, its counts, the durations observed and its calls go
  together;
- the counters after a run: their growth over all labels, and under each outcome, against the
  number of deliveries.

Does not own: what a handler does about an event, and the delays between its calls.
-/

namespace DualStore

/-! ## Counters over all their labels -/

theorem Disposition.name_injective : ∀ left right : Disposition,
    left.name = right.name → left = right := by
  intro left right
  cases left <;> cases right <;> decide

namespace Metrics

section Tally

variable {α : Type} [DecidableEq α]

/-- The sum of a counter over some of its labels. Each value is one count under the label that it
is, and a label is shown with the number of its occurrences. -/
def tally (values : List α) (labels : α → Bool) : Nat :=
  (((distinct values).filter labels).map values.count).sum

private theorem distinct_from (values seen : List α) (unrepeated : seen.Nodup) :
    let all := values.foldl (fun seen value => if value ∈ seen then seen else seen ++ [value]) seen
    all.Nodup ∧ ∀ value, value ∈ all ↔ value ∈ seen ∨ value ∈ values := by
  induction values generalizing seen with
  | nil => simpa using unrepeated
  | cons value values inductionHypothesis =>
      rw [List.foldl_cons]
      by_cases known : value ∈ seen
      · rw [if_pos known]
        obtain ⟨nodup, members⟩ := inductionHypothesis seen unrepeated
        refine ⟨nodup, fun other => (members other).trans ?_⟩
        constructor
        · rintro (early | late)
          · exact Or.inl early
          · exact Or.inr (List.mem_cons_of_mem value late)
        · rintro (early | late)
          · exact Or.inl early
          · rcases List.mem_cons.mp late with rfl | later
            · exact Or.inl known
            · exact Or.inr later
      · rw [if_neg known]
        have extended : (seen ++ [value]).Nodup :=
          List.nodup_append.mpr ⟨unrepeated, List.nodup_singleton value, fun other early new same =>
            by
              intro equal
              rw [List.mem_singleton] at same
              exact known (same ▸ equal ▸ early)⟩
        obtain ⟨nodup, members⟩ := inductionHypothesis (seen ++ [value]) extended
        refine ⟨nodup, fun other => (members other).trans ?_⟩
        rw [List.mem_append, List.mem_singleton, List.mem_cons, or_assoc]

/-- Summed over labels, a counter tells how many values have one of these labels. -/
theorem tally_eq_countP (values : List α) (labels : α → Bool) :
    tally values labels = values.countP labels := by
  obtain ⟨nodup, members⟩ := distinct_from values [] List.nodup_nil
  have same : (distinct values).Perm values.dedup := by
    refine (List.perm_ext_iff_of_nodup nodup values.nodup_dedup).mpr fun value => ?_
    rw [List.mem_dedup]
    exact (members value).trans (or_iff_right List.not_mem_nil)
  have summed := List.sum_map_count_dedup_filter_eq_countP labels values
  rw [← summed]
  exact ((same.filter labels).map values.count).sum_eq

end Tally

/-- The counter of deliveries, over all labels. -/
def Record.total (record : Record) : Nat := tally record.deliveries fun _ => true

/-- The counter of deliveries, over the labels of one disposition. -/
def Record.totalOf (disposition : Disposition) (record : Record) : Nat :=
  tally record.deliveries fun d => d.outcome == disposition.name

/-- The count of handler durations, over all labels. -/
def Record.observations (record : Record) : Nat :=
  tally (record.durations.map fun d => (d.queue, d.kind)) fun _ => true

section Growth

variable (record : Record) (queue : String) (report : Report) (micros : Nat)

theorem Record.total_add :
    (record.add queue report micros).total = record.total + report.counts.length := by
  rw [total, total, tally_eq_countP, tally_eq_countP, add]
  simp

theorem Record.totalOf_add (disposition : Disposition) :
    (record.add queue report micros).totalOf disposition =
      record.totalOf disposition + report.counts.countP (·.disposition = disposition) := by
  have named : ∀ count : Count, ((Delivery.ofCount queue count).outcome == disposition.name) =
      decide (count.disposition = disposition) := by
    intro count
    rw [Bool.eq_iff_iff, beq_iff_eq, decide_eq_true_iff]
    exact ⟨Disposition.name_injective _ _, fun same => congrArg Disposition.name same⟩
  rw [totalOf, totalOf, tally_eq_countP, tally_eq_countP, add, List.countP_append,
    List.countP_map]
  congr 2
  exact funext named

theorem Record.observations_add :
    (record.add queue report micros).observations =
      record.observations + report.observed.length := by
  rw [observations, observations, tally_eq_countP, tally_eq_countP, add]
  simp

/-- A measure to which every delivery adds its share grows by all the shares. -/
theorem Record.addAll_of_add {measure : Record → Nat} {share : Report → Nat}
    (added : ∀ record report micros,
      measure (record.add queue report micros) = measure record + share report)
    (processed : List (Report × Nat)) :
    measure (record.addAll queue processed) =
      measure record + ((processed.map (·.1)).map share).sum := by
  unfold addAll
  induction processed generalizing record with
  | nil => rfl
  | cons each processed inductionHypothesis =>
      rw [List.foldl_cons, inductionHypothesis, added, List.map_cons, List.map_cons, List.sum_cons,
        Nat.add_assoc]

variable (processed : List (Report × Nat))

theorem Record.total_addAll :
    (record.addAll queue processed).total =
      record.total + ((processed.map (·.1)).map fun report => report.counts.length).sum :=
  record.addAll_of_add queue (fun record => record.total_add queue) processed

theorem Record.totalOf_addAll (disposition : Disposition) :
    (record.addAll queue processed).totalOf disposition =
      record.totalOf disposition + ((processed.map (·.1)).map fun report =>
        report.counts.countP (·.disposition = disposition)).sum :=
  record.addAll_of_add queue
    (fun record report micros => record.totalOf_add queue report micros disposition) processed

theorem Record.observations_addAll :
    (record.addAll queue processed).observations =
      record.observations + ((processed.map (·.1)).map fun report => report.observed.length).sum :=
  record.addAll_of_add queue (fun record => record.observations_add queue) processed

end Growth

end Metrics

/-! ## The calls made for a delivery -/

/-- One call of a handler: the event, and how the call ended. -/
structure HandlerCall where
  event : Event
  run : Run

def Run.isError : Run → Bool
  | finished (.error _) => true
  | _ => false

def Run.isPanic : Run → Bool
  | panicked _ => true
  | _ => false

theorem Run.isPanic_of_isError {run : Run} (failed : run.isError = true) :
    run.isPanic = false := by
  cases run with
  | finished result => rfl
  | panicked message => cases failed

/-- A handler that keeps its calls, in order. -/
def Handler.recorded {σ : Type} (handler : Handler σ) : Handler (List HandlerCall × σ) where
  accepts := handler.accepts
  handle event state :=
    let (run, inner) := handler.handle event state.2
    (run, (state.1 ++ [⟨event, run⟩], inner))

/-- A delivery of a run, with what became of it and the handler calls made for it. -/
structure Processed where
  envelope : Envelope
  report : Report
  calls : List HandlerCall

/-- The last handler call returned an error. -/
def Processed.failed (delivery : Processed) : Bool :=
  delivery.calls.getLast?.any (·.run.isError)

/-- Some handler call panicked. -/
def Processed.panicked (delivery : Processed) : Bool :=
  delivery.calls.any (·.run.isPanic)

section Recorded

variable {σ : Type} (handler : Handler σ) (policy : RetryPolicy)

/-- The deliveries of a run, each with the calls made for it alone. -/
def processEach : List Envelope → σ → List Processed
  | [], _ => []
  | envelope :: envelopes, state =>
      let processed := process handler.recorded policy envelope ([], state)
      ⟨envelope, processed.1, processed.2.1⟩ :: processEach envelopes processed.2.2

/-- The loop of retries makes calls for one event only. All but the last return errors, and the
last one ends the loop as it ends itself. -/
theorem tryFrom_recorded (event : Event) (attempt : UInt32) (more : Nat)
    (calls : List HandlerCall) (state : σ) :
    ∃ earlier : List HandlerCall,
      (∀ call ∈ earlier, call.event = event ∧ call.run.isError = true) ∧
      let tried := tryFrom policy (handler.handle event) attempt more state
      tried.1.count = earlier.length + 1 ∧
      tryFrom policy (handler.recorded.handle event) attempt more (calls, state) =
        (tried.1, (calls ++ (earlier ++ [⟨event, tried.1.run⟩]), tried.2)) := by
  induction more generalizing attempt calls state with
  | zero =>
      refine ⟨[], by simp, ?_⟩
      rcases called : handler.handle event state with ⟨run, after⟩
      simp [tryFrom, Handler.recorded, called]
  | succ more inductionHypothesis =>
      rcases called : handler.handle event state with ⟨run, after⟩
      have recorded : handler.recorded.handle event (calls, state) =
          (run, (calls ++ [⟨event, run⟩], after)) := by
        simp [Handler.recorded, called]
      rw [tryFrom, tryFrom, recorded, called]
      rcases run with ⟨error | success⟩ | message
      · dsimp only
        by_cases transient : error.isTransient = true
        · rw [if_pos transient, if_pos transient]
          obtain ⟨earlier, failed, count, same⟩ :=
            inductionHypothesis (attempt + 1) (calls ++ [⟨event, .finished (.error error)⟩]) after
          refine ⟨⟨event, .finished (.error error)⟩ :: earlier, ?_, ?_, ?_⟩
          · intro call member
            rcases List.mem_cons.mp member with rfl | later
            · exact ⟨rfl, rfl⟩
            · exact failed call later
          · rw [List.length_cons]
            exact congrArg (· + 1) count
          · rw [same]
            simp
        · rw [if_neg transient, if_neg transient]
          exact ⟨[], by simp, rfl, by simp⟩
      · exact ⟨[], by simp, rfl, by simp⟩
      · exact ⟨[], by simp, rfl, by simp⟩

/-! ## The account of one delivery -/

/-- The outcome, the counts, the observed durations and the handler calls of one delivery go
together. -/
structure Processed.Accounted (accepts : Kind → Bool) (delivery : Processed) : Prop where
  rejected : delivery.report.outcome = .nack ↔
    (∃ event, delivery.envelope.event? accepts = some event) ∧
      (delivery.failed = true ∨ delivery.panicked = true)
  counted : delivery.report.counts.length = if delivery.panicked = true then 0 else 1
  countedRejected : delivery.report.counts.countP (·.disposition = .nack) +
      (if delivery.panicked = true then 1 else 0) =
    if delivery.report.outcome = .nack then 1 else 0
  observed : delivery.report.observed.length =
    delivery.report.counts.countP (·.disposition = .ack) +
      delivery.report.counts.countP (·.disposition = .nack)
  called : delivery.calls = [] ↔
    ∃ count ∈ delivery.report.counts, count.disposition.isHandled = false
  attempts : delivery.report.attempts = delivery.calls.length
  carried : ∀ call ∈ delivery.calls, delivery.envelope.event? accepts = some call.event

/-- A delivery that is handled: the last call decides, since all calls before it returned errors. -/
theorem Processed.accounted_handled {accepts : Kind → Bool} {envelope : Envelope} {event : Event}
    (carries : envelope.event? accepts = some event) (attempts : Attempts)
    {earlier : List HandlerCall}
    (errors : ∀ call ∈ earlier, call.event = event ∧ call.run.isError = true)
    (counted : attempts.count = earlier.length + 1) :
    Processed.Accounted accepts
      ⟨envelope, .handled event.kind attempts, earlier ++ [⟨event, attempts.run⟩]⟩ := by
  obtain ⟨run, delays, count⟩ := attempts
  obtain rfl : count = earlier.length + 1 := counted
  have calm : earlier.any (·.run.isPanic) = false := by
    rw [List.any_eq_false]
    intro call member
    rw [Run.isPanic_of_isError (errors call member).2]
    decide
  have panicked : ∀ report : Report,
      Processed.panicked ⟨envelope, report, earlier ++ [⟨event, run⟩]⟩ = run.isPanic := by
    intro report
    rw [Processed.panicked, List.any_append, calm]
    simp
  have failed : ∀ report : Report,
      Processed.failed ⟨envelope, report, earlier ++ [⟨event, run⟩]⟩ = run.isError := by
    intro report
    simp [Processed.failed]
  have carried : ∀ call ∈ earlier ++ [⟨event, run⟩], envelope.event? accepts = some call.event := by
    intro call member
    rw [carries]
    rcases List.mem_append.mp member with before | last
    · rw [(errors call before).1]
    · rw [List.mem_singleton.mp last]
  rcases run with ⟨error | success⟩ | message
  all_goals
    constructor
    case carried => exact carried
    all_goals simp [panicked, failed, carries, Report.handled, Run.isPanic, Run.isError,
      Disposition.isHandled]

/-- Keeping the calls of a handler changes neither what becomes of a delivery nor the state after
it. -/
theorem process_recorded (envelope : Envelope) (state : σ) :
    ∃ calls, process handler.recorded policy envelope ([], state) =
        ((process handler policy envelope state).1,
          (calls, (process handler policy envelope state).2)) ∧
      Processed.Accounted handler.accepts
        ⟨envelope, (process handler policy envelope state).1, calls⟩ := by
  cases carries : envelope.event? handler.accepts with
  | none =>
      obtain ⟨kind, disposition, unhandled, ran⟩ := process_unhandled carries
      rw [ran handler policy state rfl, ran handler.recorded policy ([], state) rfl]
      refine ⟨[], rfl, ?_⟩
      have other : disposition ≠ .ack ∧ disposition ≠ .nack := by
        constructor <;> rintro rfl <;> cases unhandled
      constructor <;>
        simp [Report.unhandled, Processed.panicked, carries, other, unhandled]
  | some event =>
      have recordedCarries : envelope.event? handler.recorded.accepts = some event := carries
      obtain ⟨earlier, failed, counted, same⟩ :=
        tryFrom_recorded handler policy event 1 (policy.maxAttempts.toNat - 1) [] state
      rw [process_of_event?_eq_some carries, process_of_event?_eq_some recordedCarries]
      refine ⟨_, ?_, Processed.accounted_handled carries _ failed counted⟩
      rw [tryHandler, same]
      rfl

/-! ## The account of a run -/

section Run

/-- In a run every delivery is accounted for, and reported as if the calls were not kept. -/
theorem processEach_accounted (envelopes : List Envelope) (state : σ) :
    let run := processEach handler policy envelopes state
    run.map (·.envelope) = envelopes ∧
      run.map (·.report) = (processAll handler policy envelopes state).1 ∧
      ∀ delivery ∈ run, delivery.Accounted handler.accepts := by
  induction envelopes generalizing state with
  | nil => exact ⟨rfl, rfl, by simp [processEach]⟩
  | cons envelope envelopes inductionHypothesis =>
      obtain ⟨calls, recorded, accounted⟩ := process_recorded handler policy envelope state
      obtain ⟨same, reported, rest⟩ :=
        inductionHypothesis (process handler policy envelope state).2
      rw [processEach, recorded]
      refine ⟨congrArg (envelope :: ·) same, ?_, ?_⟩
      · rw [List.map_cons, reported]
        rfl
      · intro delivery member
        rcases List.mem_cons.mp member with rfl | later
        · exact accounted
        · exact rest delivery later

variable {accepts : Kind → Bool} {run : List Processed}

theorem sum_counted (accounted : ∀ delivery ∈ run, delivery.Accounted accepts) :
    ((run.map (·.report)).map fun report => report.counts.length).sum + run.countP (·.panicked) =
      run.length := by
  induction run with
  | nil => rfl
  | cons delivery run inductionHypothesis =>
      have here := (accounted delivery (by simp)).counted
      have rest := inductionHypothesis fun later member => accounted later (by simp [member])
      simp only [List.map_cons, List.sum_cons, List.countP_cons, List.length_cons, here]
      split <;> omega

theorem sum_countedRejected (accounted : ∀ delivery ∈ run, delivery.Accounted accepts) :
    ((run.map (·.report)).map fun report => report.counts.countP (·.disposition = .nack)).sum +
        run.countP (·.panicked) =
      run.countP (·.report.outcome = .nack) := by
  induction run with
  | nil => rfl
  | cons delivery run inductionHypothesis =>
      have here := (accounted delivery (by simp)).countedRejected
      have rest := inductionHypothesis fun later member => accounted later (by simp [member])
      simp only [List.map_cons, List.sum_cons, List.countP_cons, decide_eq_true_eq]
      omega

theorem sum_observed (accounted : ∀ delivery ∈ run, delivery.Accounted accepts) :
    ((run.map (·.report)).map fun report => report.observed.length).sum =
      ((run.map (·.report)).map fun report => report.counts.countP (·.disposition = .ack)).sum +
        ((run.map (·.report)).map fun report =>
          report.counts.countP (·.disposition = .nack)).sum := by
  induction run with
  | nil => rfl
  | cons delivery run inductionHypothesis =>
      have here := (accounted delivery (by simp)).observed
      have rest := inductionHypothesis fun later member => accounted later (by simp [member])
      simp only [List.map_cons, List.sum_cons]
      omega

/-- What a run adds to the counters when each of its deliveries is accounted for. -/
theorem growth_of_accounted (accounted : ∀ delivery ∈ run, delivery.Accounted accepts)
    {processed : List (Report × Nat)} (told : processed.map (·.1) = run.map (·.report))
    (record : Metrics.Record) (queue : String) :
    let after := record.addAll queue processed
    after.total + run.countP (·.panicked) = record.total + run.length ∧
    after.totalOf .nack + run.countP (·.panicked) =
      record.totalOf .nack + run.countP (·.report.outcome = .nack) ∧
    after.observations + (record.totalOf .ack + record.totalOf .nack) =
      record.observations + (after.totalOf .ack + after.totalOf .nack) := by
  have counted := sum_counted accounted
  have rejected := sum_countedRejected accounted
  have observed := sum_observed accounted
  simp only [Metrics.Record.total_addAll, Metrics.Record.totalOf_addAll,
    Metrics.Record.observations_addAll, told]
  omega

end Run

end Recorded

/-- Over any run each delivery has one outcome. It is rejected exactly when it carries an event for
the handler and its last handler call returned an error or one of its calls panicked, and it is
counted once unless a call panicked. The counter grows over all labels by the deliveries that did
not panic, and under rejection by the rejected ones among these; as many durations are observed as
deliveries are counted as acknowledged or rejected. Exactly the deliveries that are counted as
dropped or skipped made no handler call, and every call is made for the event of its delivery. -/
theorem deliveries_conserved {σ : Type} (handler : Handler σ) (policy : RetryPolicy)
    (envelopes : List Envelope) (state : σ) (record : Metrics.Record) (queue : String)
    (elapsed : Nat → Nat) :
    let run := processEach handler policy envelopes state
    let reports := (processAll handler policy envelopes state).1
    let after := record.addAll queue (reports.zipIdx.map fun each => (each.1, elapsed each.2))
    let panics := run.countP (·.panicked)
    (run.map (·.envelope) = envelopes ∧ run.map (·.report) = reports) ∧
    (∀ delivery ∈ run,
      (delivery.report.outcome = .nack ↔
        (∃ event, delivery.envelope.event? handler.accepts = some event) ∧
          (delivery.failed = true ∨ delivery.panicked = true)) ∧
      delivery.report.counts.length = (if delivery.panicked = true then 0 else 1) ∧
      (delivery.calls = [] ↔
        ∃ count ∈ delivery.report.counts, count.disposition.isHandled = false) ∧
      delivery.report.attempts = delivery.calls.length ∧
      ∀ call ∈ delivery.calls, delivery.envelope.event? handler.accepts = some call.event) ∧
    after.total + panics = record.total + envelopes.length ∧
    after.totalOf .nack + panics =
      record.totalOf .nack + run.countP (·.report.outcome = .nack) ∧
    after.observations + (record.totalOf .ack + record.totalOf .nack) =
      record.observations + (after.totalOf .ack + after.totalOf .nack) := by
  intro run reports after panics
  obtain ⟨same, reported, accounted⟩ := processEach_accounted handler policy envelopes state
  have told : (reports.zipIdx.map fun each => (each.1, elapsed each.2)).map (·.1) =
      run.map (·.report) := by
    rw [List.map_map]
    exact (List.zipIdx_map_fst 0 reports).trans reported.symm
  have length : run.length = envelopes.length := by
    rw [← same, List.length_map]
  refine ⟨⟨same, reported⟩, fun delivery member => ?_, ?_⟩
  · have account := accounted delivery member
    exact ⟨account.rejected, account.counted, account.called, account.attempts, account.carried⟩
  · rw [← length]
    exact growth_of_accounted accounted told record queue

end DualStore
