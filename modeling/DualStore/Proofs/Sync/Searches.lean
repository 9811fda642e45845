import DualStore.Proofs.Memory.History
import DualStore.Proofs.Memory.Session
import DualStore.Proofs.Sync.SingleWrite
import DualStore.Sync.Trace

/-!
Contract: the search history over runs of deliveries, whatever is in the way of their calls.

Owns:
- runs on the route of searches, with the trace of all calls, and the writes among them that
  succeeded;
- what one delivery does: it records the query that it carries with one write, told a reading of the
  clock, or it changes no record;
- from this, what the history holds after a run under each user and keyword.

Does not own: other routes, none of which changes the history.
-/

namespace DualStore

open Memory Time

/-- The write that a call has made to the history, unless it failed. -/
def TracedCall.queryWrite? : TracedCall → Option QueryWrite
  | ⟨.upsertSearchHistory userId keyword moment, .replied (.ok _)⟩ =>
      some ⟨⟨userId, keyword⟩, moment.time⟩
  | _ => none

theorem TracedCall.queryWrite?_of_failed {call : Call} {answer : Answer call.Reply}
    (failed : ∀ reply, answer ≠ .replied (.ok reply)) :
    (TracedCall.mk call answer).queryWrite? = none := by
  unfold queryWrite?
  split
  · rename_i same
    cases same
    exact absurd rfl (failed _)
  · rfl

/-- The writes to the history among calls. -/
def queryWrites (calls : List TracedCall) : List QueryWrite :=
  calls.filterMap TracedCall.queryWrite?

theorem queryWrites_concat (calls : List TracedCall) (call : TracedCall) :
    queryWrites (calls ++ [call]) = queryWrites calls ++ call.queryWrite?.toList := by
  cases made : call.queryWrite? <;> simp [queryWrites, made]

def SearchQueryIssued.key (query : SearchQueryIssued) : QueryKey := ⟨query.userId, query.keyword⟩

namespace Memory.World

/-- A delivery on the route of searches with faults in the way of its calls, every call being
traced: its report, and what it leads to. -/
def search (context : Context) (policy : RetryPolicy) (state : Traced World)
    (delivery : Envelope × List Fault) : Report × Traced World :=
  let processed := process (Route.searchHistory.handler context services.scheduled.traced) policy
    delivery.1 ⟨state.calls, ⟨delivery.2, state.inner⟩⟩
  (processed.1, ⟨processed.2.calls, processed.2.inner.inner⟩)

def searchAll (context : Context) (policy : RetryPolicy) (state : Traced World)
    (deliveries : List (Envelope × List Fault)) : Traced World :=
  deliveries.foldl (fun state delivery => (search context policy state delivery).2) state

/-- The query of a delivery that is acknowledged and carries one of a known user whose keyword is
not blank. -/
def recordedQuery? (context : Context) (policy : RetryPolicy) (state : Traced World)
    (delivery : Envelope × List Fault) : Option SearchQueryIssued :=
  match (search context policy state delivery).1.outcome,
    delivery.1.event? Route.searchHistory.accepts with
  | .ack, some (.searchQueryIssued query) =>
      if 0 < query.userId ∧ Text.isBlank query.keyword = false then some query else none
  | _, _ => none

def recordedQueries (context : Context) (policy : RetryPolicy) :
    Traced World → List (Envelope × List Fault) → List SearchQueryIssued
  | _, [] => []
  | state, delivery :: deliveries =>
      (recordedQuery? context policy state delivery).toList ++
        recordedQueries context policy (search context policy state delivery).2 deliveries

/-- The readings of the clock do not decrease. -/
def ClockAdvances (world : World) : Prop :=
  ∀ first second, first ≤ second → world.readings first ≤ world.readings second

/-- The clock of a world has reached a time. -/
def HasReached (world : World) (time : ZonedTime) : Prop :=
  time.instant ≤ world.readings world.taken

/-! ## One attempt -/

section Attempt

/-- A world in which a write has been made to the history. -/
def written (write : QueryWrite) (world : World) : World :=
  { world with
    store := { world.store with history := DocumentStore.write write world.store.history } }

/-- A script of one call is traced with its answer, and succeeds exactly when that is a reply. -/
theorem run_call_traced {σ : Type} (services : Services σ) (command : Call) (state : Traced σ) :
    let ran := (Script.call command fun _ => .done).run services.traced state
    let answered := services.answer command state.inner
    ran.2 = ⟨state.calls ++ [⟨command, answered.1⟩], answered.2⟩ ∧
      (ran.1 = .finished (.ok ()) ↔ ∃ reply, answered.1 = .replied (.ok reply)) := by
  have traced : services.traced.answer command state = ((services.answer command state.inner).1,
      ⟨state.calls ++ [⟨command, (services.answer command state.inner).1⟩],
        (services.answer command state.inner).2⟩) := rfl
  rw [Script.call, Script.run, traced]
  rcases services.answer command state.inner with ⟨⟨error | reply⟩ | message, after⟩
  · simp [Script.run]
  · simp [Script.run, Script.done]
  · simp

/-- A call that writes to the history has no reply and changes nothing, or it is answered with one
and has written. -/
theorem scheduled_answer_write (userId : Int64) (keyword : String) (moment : Moment)
    (state : Scheduled World) :
    let answered := services.scheduled.answer (.upsertSearchHistory userId keyword moment) state
    ((∀ reply, answered.1 ≠ .replied (.ok reply)) ∧ answered.2.inner = state.inner) ∨
      (answered.1 = .replied (.ok ()) ∧
        answered.2.inner = state.inner.written ⟨⟨userId, keyword⟩, moment.time⟩) := by
  dsimp only
  rcases scheduled_answer_cases services (.upsertSearchHistory userId keyword moment) state with
    ⟨kept, noReply⟩ | ⟨rest, passed⟩
  · exact Or.inl ⟨noReply, kept⟩
  · have direct : services.answer (.upsertSearchHistory userId keyword moment) state.inner =
        state.inner.storeAnswer
          (state.inner.store.upsertSearchHistory userId keyword moment.time) := rfl
    rw [passed, direct, DocumentStore.upsertSearchHistory]
    split
    · exact Or.inl ⟨fun reply replied => (by cases replied), rfl⟩
    · exact Or.inr ⟨rfl, rfl⟩

/-- A script that writes to the history: it does not succeed and nothing has changed, or it succeeds
with this one write. -/
theorem run_write_traced (userId : Int64) (keyword : String) (moment : Moment)
    (state : Traced (Scheduled World)) :
    let ran := (Script.call (.upsertSearchHistory userId keyword moment) fun _ => .done).run
      services.scheduled.traced state
    (ran.1 ≠ .finished (.ok ()) ∧ ran.2.inner.inner = state.inner.inner ∧
        queryWrites ran.2.calls = queryWrites state.calls) ∨
      (ran.1 = .finished (.ok ()) ∧
        ran.2.inner.inner = state.inner.inner.written ⟨⟨userId, keyword⟩, moment.time⟩ ∧
        queryWrites ran.2.calls =
          queryWrites state.calls ++ [⟨⟨userId, keyword⟩, moment.time⟩]) := by
  obtain ⟨ended, succeeds⟩ := run_call_traced services.scheduled
    (.upsertSearchHistory userId keyword moment) state
  dsimp only
  rw [ended, ne_eq, succeeds, queryWrites_concat]
  rcases scheduled_answer_write userId keyword moment state.inner with
    ⟨noReply, kept⟩ | ⟨replied, written⟩
  · refine Or.inl ⟨fun ⟨reply, replied⟩ => noReply reply replied, kept, ?_⟩
    rw [TracedCall.queryWrite?_of_failed noReply]
    exact List.append_nil _
  · refine Or.inr ⟨⟨(), replied⟩, written, ?_⟩
    rw [replied]
    rfl

variable {context : Context} {query : SearchQueryIssued}

/-- An attempt to record a query: it does not succeed and has only read the clock, or it succeeds
with one write, told that reading. -/
theorem run_recording (context : Context) (known : SearchHistory.isRecorded query = true)
    (state : Traced (Scheduled World)) :
    let world := state.inner.inner
    let write : QueryWrite := ⟨query.key, ⟨world.readings world.taken, context.offset⟩⟩
    let ran := (SearchHistory.script context (.searchQueryIssued query)).run
      services.scheduled.traced state
    (ran.1 ≠ .finished (.ok ()) ∧ ran.2.inner.inner = world.later 1 ∧
        queryWrites ran.2.calls = queryWrites state.calls) ∨
      (ran.1 = .finished (.ok ()) ∧ ran.2.inner.inner = (world.later 1).written write ∧
        queryWrites ran.2.calls = queryWrites state.calls ++ [write]) := by
  rw [SearchHistory.script, if_pos known]
  exact run_write_traced query.userId query.keyword
    (.observed ⟨state.inner.inner.readings state.inner.inner.taken, context.offset⟩)
    ⟨state.calls, ⟨state.inner.schedule, state.inner.inner.later 1⟩⟩

end Attempt

/-! ## One delivery -/

/-- What a delivery comes to: it changes no record, or it has recorded a query with one write, told
a reading of the clock. -/
inductive Searched (context : Context) (state : Traced World) (query : Option SearchQueryIssued)
    (after : Traced World) : Prop where
  | passed (readings : Nat) (nothing : query = none)
      (unchanged : after.inner = state.inner.later readings)
      (writes : queryWrites after.calls = queryWrites state.calls)
  | recorded {issued : SearchQueryIssued} (readings : Nat) (own : query = some issued)
      (changed : after.inner = ((state.inner.later readings).later 1).written
        ⟨issued.key, ⟨state.inner.readings (state.inner.taken + readings), context.offset⟩⟩)
      (writes : queryWrites after.calls = queryWrites state.calls ++
        [⟨issued.key, ⟨state.inner.readings (state.inner.taken + readings), context.offset⟩⟩])

section Delivery

variable {context : Context} {policy : RetryPolicy} {state : Traced World}
  {delivery : Envelope × List Fault}

theorem isRecorded_iff {query : SearchQueryIssued} : SearchHistory.isRecorded query = true ↔
    0 < query.userId ∧ Text.isBlank query.keyword = false := by
  simp [SearchHistory.isRecorded]

/-- An event that is no query to record changes nothing. -/
theorem searched_of_done {event : Event}
    (carries : delivery.1.event? Route.searchHistory.accepts = some event)
    (idle : SearchHistory.script context event = .done)
    (nothing : recordedQuery? context policy state delivery = none) :
    Searched context state (recordedQuery? context policy state delivery)
      (search context policy state delivery).2 := by
  have ran : (Route.searchHistory.handler context services.scheduled.traced).handle event
      ⟨state.calls, ⟨delivery.2, state.inner⟩⟩ =
        (.finished (.ok ()), ⟨state.calls, ⟨delivery.2, state.inner⟩⟩) := by
    show (SearchHistory.script context event).run _ _ = _
    rw [idle]
    rfl
  have carried : delivery.1.event?
      (Route.searchHistory.handler context services.scheduled.traced).accepts = some event :=
    carries
  have same : (search context policy state delivery).2 = state := by
    unfold search
    rw [process_of_event?_eq_some carried, tryHandler_of_succeeds policy ran]
  rw [same]
  exact .passed 0 nothing rfl rfl

theorem recordedQuery?_of_query {query : SearchQueryIssued}
    (carries : delivery.1.event? Route.searchHistory.accepts = some (.searchQueryIssued query))
    (known : SearchHistory.isRecorded query = true) :
    recordedQuery? context policy state delivery =
      if (search context policy state delivery).1.outcome = .ack then some query else none := by
  unfold recordedQuery?
  rw [carries]
  cases (search context policy state delivery).1.outcome with
  | ack => exact if_pos (isRecorded_iff.mp known)
  | nack => rfl

/-- A delivery that carries a query to record: it is rejected and has only read the clock, or it is
acknowledged and has recorded the query. -/
theorem searched_of_query {query : SearchQueryIssued}
    (carries : delivery.1.event? Route.searchHistory.accepts = some (.searchQueryIssued query))
    (known : SearchHistory.isRecorded query = true) :
    Searched context state (recordedQuery? context policy state delivery)
      (search context policy state delivery).2 := by
  let handler := Route.searchHistory.handler context services.scheduled.traced
  let start : Traced (Scheduled World) := ⟨state.calls, ⟨delivery.2, state.inner⟩⟩
  have carried : delivery.1.event? handler.accepts = some (.searchQueryIssued query) := carries
  -- Every failed attempt leaves a state of this form, so that the last attempt starts in one.
  obtain ⟨last, run, ⟨readings, started, before⟩, ended, acknowledged⟩ :=
    process_handled handler policy start
      (fun current => (∃ readings, current.inner.inner = state.inner.later readings ∧
        queryWrites current.calls = queryWrites state.calls)) carried
      (fun current error failed ⟨readings, same, writes⟩ => by
        rcases run_recording context known current with ⟨_, unchanged, kept⟩ | ⟨succeeded, _, _⟩
        · refine ⟨readings + 1, ?_, kept.trans writes⟩
          rw [← later_later, ← same]
          exact unchanged
        · cases failed.symm.trans succeeded) ⟨0, rfl, rfl⟩
  have ran : (SearchHistory.script context (.searchQueryIssued query)).run
      services.scheduled.traced last = _ := ended
  have answer : (search context policy state delivery).1.outcome = .ack ↔
      run = .finished (.ok ()) := acknowledged
  have own : recordedQuery? context policy state delivery =
      if (search context policy state delivery).1.outcome = .ack then some query else none :=
    recordedQuery?_of_query carries known
  have attempt := run_recording context known last
  rw [ran, started, before] at attempt
  rcases attempt with ⟨failed, unchanged, writes⟩ | ⟨succeeded, changed, writes⟩
  · have rejected : ¬(search context policy state delivery).1.outcome = .ack := mt answer.mp failed
    rw [own, if_neg rejected]
    refine .passed (readings + 1) rfl ?_ writes
    rw [← later_later]
    exact unchanged
  · rw [own, if_pos (answer.mpr succeeded)]
    exact .recorded readings rfl changed writes

theorem searched_search (context : Context) (policy : RetryPolicy) (state : Traced World)
    (delivery : Envelope × List Fault) :
    Searched context state (recordedQuery? context policy state delivery)
      (search context policy state delivery).2 := by
  cases carries : delivery.1.event? Route.searchHistory.accepts with
  | none =>
      have noEvent : delivery.1.event?
          (Route.searchHistory.handler context services.scheduled.traced).accepts = none := carries
      have unchanged : (search context policy state delivery).2 = state := by
        dsimp only [search]
        rw [(process_of_event?_eq_none noEvent).1]
      rw [unchanged]
      exact .passed 0 (by simp [recordedQuery?, carries]) rfl rfl
  | some event =>
      cases event with
      | searchQueryIssued query =>
          by_cases known : SearchHistory.isRecorded query = true
          · exact searched_of_query carries known
          · apply searched_of_done carries (if_neg known)
            rw [isRecorded_iff] at known
            unfold recordedQuery?
            rw [carries]
            split
            · rename_i same
              cases same
              exact if_neg known
            · rfl
      | _ =>
          apply searched_of_done carries rfl
          simp [recordedQuery?, carries]

end Delivery

/-! ## Runs -/

/-- What a run that began in a world has come to. -/
structure Recorded (context : Context) (world : World) (queries : List SearchQueryIssued)
    (state : Traced World) : Prop where
  readings : state.inner.readings = world.readings
  started : world.taken ≤ state.inner.taken
  /-- Each query has been recorded with one write, in their order. -/
  keys : (queryWrites state.calls).map (·.key) = queries.map (·.key)
  /-- Each write was told a reading of the clock, taken after those of the writes before it. -/
  times : ∃ taken : List Nat, taken.Pairwise (· < ·) ∧
    (∀ reading ∈ taken, world.taken ≤ reading ∧ reading < state.inner.taken) ∧
    (queryWrites state.calls).map (·.time) =
      taken.map fun reading => ⟨world.readings reading, context.offset⟩
  /-- A record begins with the first write under its key unless there was one before, and the last
  write is the one that changed it last. -/
  records : ∀ key, state.inner.store.queried? key =
    recordAfter key (world.store.queried? key) (timesOf key (queryWrites state.calls))

section Run

variable {context : Context} {policy : RetryPolicy} {world : World}
  {queries : List SearchQueryIssued} {state after : Traced World}

theorem Recorded.step (recorded : Recorded context world queries state)
    {query : Option SearchQueryIssued} (searched : Searched context state query after) :
    Recorded context world (queries ++ query.toList) after := by
  obtain ⟨readings, started, keys, ⟨taken, increasing, within, told⟩, records⟩ := recorded
  cases searched with
  | passed more nothing unchanged writes =>
      have later : after.inner.taken = state.inner.taken + more := by rw [unchanged]; rfl
      subst nothing
      refine ⟨?_, by omega, ?_, ⟨taken, increasing, ?_, ?_⟩, ?_⟩
      · rw [unchanged]
        exact readings
      · simpa [writes] using keys
      · intro reading member
        have := within reading member
        omega
      · rw [writes]
        exact told
      · intro key
        rw [writes, unchanged]
        exact records key
  | @recorded issued more own changed writes =>
      have later : after.inner.taken = state.inner.taken + more + 1 := by rw [changed]; rfl
      subst own
      refine ⟨?_, by omega, ?_, ⟨taken ++ [state.inner.taken + more], ?_, ?_, ?_⟩, ?_⟩
      · rw [changed]
        exact readings
      · simp [writes, keys]
      · refine List.pairwise_append.mpr ⟨increasing, List.pairwise_singleton _ _, ?_⟩
        intro reading member last isLast
        have := within reading member
        rw [List.mem_singleton] at isLast
        omega
      · intro reading member
        rcases List.mem_append.mp member with earlier | last
        · have := within reading earlier
          omega
        · rw [List.mem_singleton] at last
          omega
      · simp [writes, told, readings]
      · intro key
        have written : after.inner.store.queried? key =
            recordAfter key (state.inner.store.queried? key) (if issued.key = key then
              [⟨state.inner.readings (state.inner.taken + more), context.offset⟩] else []) := by
          rw [changed]
          exact find?_write state.inner.store.history _
        rw [written, writes, timesOf_concat, records]
        split
        · rw [recordAfter_concat]
        · simp [recordAfter]

theorem Recorded.run (recorded : Recorded context world queries state)
    (deliveries : List (Envelope × List Fault)) :
    Recorded context world (queries ++ recordedQueries context policy state deliveries)
      (searchAll context policy state deliveries) := by
  induction deliveries generalizing queries state with
  | nil => simpa [recordedQueries, searchAll] using recorded
  | cons delivery deliveries inductionHypothesis =>
      rw [recordedQueries, ← List.append_assoc]
      exact inductionHypothesis (recorded.step (searched_search context policy state delivery))

theorem Recorded.isSome_iff (recorded : Recorded context world queries state) (key : QueryKey) :
    (state.inner.store.queried? key).isSome = true ↔
      (world.store.queried? key).isSome = true ∨ key ∈ queries.map (·.key) := by
  rw [recorded.records, isSome_recordAfter, ← recorded.keys]
  simp [timesOf, List.filter_eq_nil_iff]

/-- The times of the writes under a key are readings of the clock, none of which was taken before
the run or before that of an earlier write. -/
theorem Recorded.readings_of_key (recorded : Recorded context world queries state)
    (key : QueryKey) : ∃ taken : List Nat, taken.Pairwise (· < ·) ∧
      (∀ reading ∈ taken, world.taken ≤ reading) ∧
      timesOf key (queryWrites state.calls) =
        taken.map fun reading => ⟨world.readings reading, context.offset⟩ := by
  obtain ⟨taken, increasing, within, told⟩ := recorded.times
  have among : (timesOf key (queryWrites state.calls)).Sublist
      (taken.map fun reading => ⟨world.readings reading, context.offset⟩) := by
    rw [← told]
    exact List.filter_sublist.map _
  obtain ⟨own, isOwn, same⟩ := List.sublist_map_iff.mp among
  refine ⟨own, increasing.sublist isOwn, ?_, same⟩
  intro reading member
  exact (within reading (isOwn.subset member)).1

/-- While the clock advances, a record that was not changed before it began stays so exactly if the
last write under its key was told no time before its beginning. -/
theorem Recorded.ordered_iff (recorded : Recorded context world queries state)
    (advances : world.ClockAdvances) (key : QueryKey)
    (ordered : Ordered (world.store.queried? key)) :
    Ordered (state.inner.store.queried? key) ↔
      ∀ record ∈ world.store.queried? key,
        ∀ time ∈ (timesOf key (queryWrites state.calls)).getLast?,
          record.createdAt.instant ≤ time.instant := by
  obtain ⟨taken, increasing, _, told⟩ := recorded.readings_of_key key
  rw [recorded.records]
  apply ordered_recordAfter_iff ordered
  rw [told, List.pairwise_map]
  exact increasing.imp fun before => advances _ _ (Nat.le_of_lt before)

/-- While the clock advances from where the record of a key began, that record does not come to be
changed before it began. -/
theorem Recorded.ordered (recorded : Recorded context world queries state)
    (advances : world.ClockAdvances) (key : QueryKey)
    (reached : ∀ record ∈ world.store.queried? key, world.HasReached record.createdAt)
    (ordered : Ordered (world.store.queried? key)) : Ordered (state.inner.store.queried? key) := by
  obtain ⟨taken, _, within, told⟩ := recorded.readings_of_key key
  rw [recorded.ordered_iff advances key ordered, told]
  intro record member time isLast
  obtain ⟨reading, read, rfl⟩ := List.mem_map.mp (List.mem_of_getLast? isLast)
  exact Instant.le_trans (reached record member) (advances _ _ (within reading read))

end Run

/-- After any run of deliveries on the route of searches, whatever is in the way of their calls: the
history holds the keys that it held and those of the queries recorded, and each record has the times
of the first and of the last write under its key. While the clock advances, a record comes to be
changed before it began exactly if it was there already and the clock was then still behind its
beginning at the last write, so never once the clock has reached it. A delivery that has recorded no
query has changed no record. -/
theorem queried_searchAll (context : Context) (policy : RetryPolicy) (world : World)
    (deliveries : List (Envelope × List Fault)) :
    let queries := recordedQueries context policy ⟨[], world⟩ deliveries
    let after := searchAll context policy ⟨[], world⟩ deliveries
    Recorded context world queries after ∧
      (∀ key, (after.inner.store.queried? key).isSome = true ↔
        (world.store.queried? key).isSome = true ∨ key ∈ queries.map (·.key)) ∧
      (world.ClockAdvances → ∀ key, Ordered (world.store.queried? key) →
        (Ordered (after.inner.store.queried? key) ↔
          ∀ record ∈ world.store.queried? key,
            ∀ time ∈ (timesOf key (queryWrites after.calls)).getLast?,
              record.createdAt.instant ≤ time.instant)) ∧
      (world.ClockAdvances → ∀ key,
        (∀ record ∈ world.store.queried? key, world.HasReached record.createdAt) →
        Ordered (world.store.queried? key) → Ordered (after.inner.store.queried? key)) ∧
      ∀ state delivery, recordedQuery? context policy state delivery = none →
        (search context policy state delivery).2.inner.store = state.inner.store := by
  intro queries after
  have begun : Recorded context world [] ⟨[], world⟩ :=
    ⟨rfl, Nat.le_refl _, rfl, ⟨[], List.Pairwise.nil, by simp, rfl⟩, fun key => rfl⟩
  have recorded : Recorded context world queries after := begun.run deliveries
  refine ⟨recorded, recorded.isSome_iff, recorded.ordered_iff, recorded.ordered,
    fun state delivery nothing => ?_⟩
  cases searched_search context policy state delivery with
  | passed _ _ unchanged _ =>
      rw [unchanged]
      rfl
  | recorded _ own _ _ => cases nothing.symm.trans own

/-! ### A user who has searched before -/

/-- A search that was recorded some time ago, and a clock that shows a second more at each
reading. -/
def searchedAt (begun changed : Int) : World :=
  { store := { history := [⟨7, "tea", ⟨⟨begun, 0⟩, default⟩, ⟨⟨changed, 0⟩, default⟩⟩] }
    readings := fun taken => ⟨10 + taken, 0⟩ }

theorem clockAdvances_searchedAt (begun changed : Int) :
    (searchedAt begun changed).ClockAdvances := by
  intro first second before
  rw [Instant.le_iff]
  simp only [searchedAt]
  omega

theorem ordered_searchedAt {begun changed : Int} (inOrder : begun ≤ changed) :
    Ordered ((searchedAt begun changed).store.queried? ⟨7, "tea"⟩) := by
  simp [Ordered, searchedAt, DocumentStore.queried?, HistoryRecord.key, Instant.le_iff]
  omega

/-- The same search is lost at first and recorded at the second attempt; one that differs in a blank
is kept apart, one of nothing but blanks is passed over, and one that panics changes nothing. -/
theorem queried_searchedBefore :
    let searchedBefore := searchedAt 0 5
    let delivery (keyword : String) (faults : List Fault) : Envelope × List Fault :=
      (.carrying (.searchQueryIssued ⟨7, keyword⟩), faults)
    let deliveries := [delivery "tea" [.fail (.store (.unavailable "lost"))], delivery " tea" [],
      delivery "  " [], delivery "tea" [.panic "lost"]]
    let after := searchAll .plain (.new 2 0) ⟨[], searchedBefore⟩ deliveries
    searchedBefore.ClockAdvances ∧ Ordered (searchedBefore.store.queried? ⟨7, "tea"⟩) ∧
      after.inner.store.queried? ⟨7, "tea"⟩ =
        some ⟨7, "tea", ⟨⟨0, 0⟩, default⟩, ⟨⟨11, 0⟩, default⟩⟩ ∧
      after.inner.store.queried? ⟨7, " tea"⟩ =
        some ⟨7, " tea", ⟨⟨12, 0⟩, default⟩, ⟨⟨12, 0⟩, default⟩⟩ ∧
      (after.inner.store.queried? ⟨7, "  "⟩).isSome = false ∧
      Ordered (after.inner.store.queried? ⟨7, "tea"⟩) ∧
      (search .plain (.new 2 0) after (delivery "tea" [.panic "lost"])).2.inner.store =
        after.inner.store := by
  intro searchedBefore delivery deliveries after
  have advances : searchedBefore.ClockAdvances := clockAdvances_searchedAt 0 5
  have reached : ∀ record ∈ searchedBefore.store.queried? ⟨7, "tea"⟩,
      searchedBefore.HasReached record.createdAt := by
    simp [HasReached, searchedBefore, searchedAt, DocumentStore.queried?, HistoryRecord.key,
      Instant.le_iff]
  have began : Ordered (searchedBefore.store.queried? ⟨7, "tea"⟩) := ordered_searchedAt (by decide)
  obtain ⟨_, _, _, ordered, unchanged⟩ :=
    queried_searchAll .plain (.new 2 0) searchedBefore deliveries
  exact ⟨advances, began, by decide +kernel, by decide +kernel, by decide +kernel,
    ordered advances _ reached began, unchanged after _ (by decide +kernel)⟩

/-- A clock that advances, but has not come to where the record of a search begins: the search is
recorded once more, and its record comes to be changed before it began. -/
theorem unordered_of_clockBehind :
    let clockBehind := searchedAt 100 100
    let after := searchAll .plain (.new 1 0) ⟨[], clockBehind⟩
      [(.carrying (.searchQueryIssued ⟨7, "tea"⟩), [])]
    clockBehind.ClockAdvances ∧ Ordered (clockBehind.store.queried? ⟨7, "tea"⟩) ∧
      after.inner.store.queried? ⟨7, "tea"⟩ =
        some ⟨7, "tea", ⟨⟨100, 0⟩, default⟩, ⟨⟨10, 0⟩, default⟩⟩ ∧
      ¬Ordered (after.inner.store.queried? ⟨7, "tea"⟩) := by
  intro clockBehind after
  have changed : after.inner.store.queried? ⟨7, "tea"⟩ =
      some ⟨7, "tea", ⟨⟨100, 0⟩, default⟩, ⟨⟨10, 0⟩, default⟩⟩ := by
    decide +kernel
  refine ⟨clockAdvances_searchedAt 100 100, ordered_searchedAt (by decide), changed, ?_⟩
  intro ordered
  have inOrder : (⟨100, 0⟩ : Instant) ≤ ⟨10, 0⟩ := ordered _ changed
  simp only [Instant.le_iff] at inOrder
  omega

end Memory.World

end DualStore
