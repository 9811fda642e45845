import DualStore.Proofs.Memory.Session
import DualStore.Proofs.Sync.SingleWrite

/-!
Contract: faults and retries show in nothing but the outcome of a delivery and the time.

Owns:
- a delivery on any route but propagation, whatever faults are in its way: rejected, it has only
  read the clock; acknowledged, it has done what one handling without faults does at a later reading
  of the clock;
- the access records over whole runs: one for each acknowledged delivery that carries one, in order,
  and none for any other occurrence.

Does not own: propagation, which goes on after a failure and so may be carried out in part.
-/

namespace DualStore

/-! ## One delivery -/

/-- The call that appends an access record. -/
def Call.isAppend : Call → Bool
  | insertAuditLog .. => true
  | _ => false

theorem Call.isIndexCall_of_records {command : Call} (records : command.Records) :
    command.isIndexCall = false := by
  cases records <;> rfl

namespace Memory.World

section Deliver

variable {route : Route} {envelope : Envelope} {world : World}

/-- Besides propagation only index synchronisation calls the index, so that failures still to come
there concern no other route. -/
theorem quiet_script (single : route ≠ .userPropagation)
    (quiet : route = .indexSync → world.index.failures = 0) (context : Context) (event : Event) :
    (route.script context event).Calls fun command =>
      command.isIndexCall = true → world.index.failures = 0 := by
  have ofRecords : ∀ command : Call, command.Records →
      command.isIndexCall = true → world.index.failures = 0 := by
    intro command records toIndex
    rw [Call.isIndexCall_of_records records] at toIndex
    cases toIndex
  cases route with
  | auditLog => exact (AuditLog.calls_script context event).mono ofRecords
  | searchHistory => exact (SearchHistory.calls_script context event).mono ofRecords
  | indexSync =>
      have ofAny : ∀ command : Call, command.Synchronises →
          command.isIndexCall = true → world.index.failures = 0 := fun _ _ _ => quiet rfl
      exact (IndexSync.calls_script context event).mono ofAny
  | userPropagation => exact absurd rfl single

/-- A delivery that carries an event: rejected, it has only read the clock; acknowledged, it ends
where one run without faults ends that starts at a later reading of the clock. -/
theorem deliver_handled (context : Context) (policy : RetryPolicy) (faults : List Fault)
    (single : route ≠ .userPropagation) (quiet : route = .indexSync → world.index.failures = 0)
    {event : Event} (carries : envelope.event? route.accepts = some event) :
    let delivered := deliver context policy route envelope faults world
    (delivered.1.outcome = .nack ∧ ∃ readings, delivered.2 = world.later readings) ∨
      (delivered.1.outcome = .ack ∧ ∃ readings,
        (route.script context event).run services (world.later readings) =
          (.finished (.ok ()), delivered.2)) := by
  intro delivered
  -- Every failed attempt leaves a world of this form, so that the last attempt starts in one.
  have attempt : ∀ state : Scheduled World, (∃ readings, state.inner = world.later readings) →
      _ := fun state reached =>
    run_scheduled_of_writesLast (route.writesLast_script single context event) state <| by
      obtain ⟨readings, same⟩ := reached
      rw [same]
      exact quiet_script single quiet context event
  have carried : envelope.event? (route.handler context services.scheduled).accepts = some event :=
    carries
  obtain ⟨last, run, ⟨readings, started⟩, ended, acknowledged⟩ :=
    process_handled (route.handler context services.scheduled) policy ⟨faults, world⟩
      (fun state : Scheduled World => ∃ readings, state.inner = world.later readings) carried
      (fun state error failed reached => by
        rcases attempt state reached with ⟨succeeded, _⟩ | ⟨_, more, ended⟩
        · exact absurd (succeeded.symm.trans failed) (by simp)
        · obtain ⟨readings, same⟩ := reached
          refine ⟨readings + more, ?_⟩
          rw [← later_later, ← same]
          exact ended) ⟨0, rfl⟩
  change (route.script context event).run services.scheduled last = _ at ended
  change delivered.1.outcome = .ack ↔ run = .finished (.ok ()) at acknowledged
  have final :
      ((route.script context event).run services.scheduled last).2.inner = delivered.2 := by
    rw [ended]
    rfl
  have result : ((route.script context event).run services.scheduled last).1 = run := by
    rw [ended]
  rcases attempt last ⟨readings, started⟩ with ⟨succeeded, same⟩ | ⟨failed, more, unchanged⟩
  · rw [result] at succeeded
    rw [final, started] at same
    exact Or.inr ⟨acknowledged.mpr succeeded, readings, same⟩
  · rw [result] at failed
    refine Or.inl ⟨?_, readings + more, ?_⟩
    · cases outcome : delivered.1.outcome with
      | nack => rfl
      | ack => exact absurd (acknowledged.mp outcome) failed
    · rw [← final, unchanged, started, later_later]

end Deliver

/-! ## Access records over whole runs -/

section AccessRecords

variable {context : Context} {policy : RetryPolicy} {world : World}

theorem auditLog_answer {command : Call} (other : command.isAppend = false) :
    (answer command world).2.store.auditLog = world.store.auditLog := by
  cases command with
  | insertAuditLog entry moment => cases other
  | updateByUser collection field userId updates =>
      change (world.store.updateByUser collection field userId updates).2.auditLog = _
      dsimp only [DocumentStore.updateByUser]
      split <;> rfl
  | deleteByUser collection field userId =>
      change (world.store.deleteByUser collection field userId).2.auditLog = _
      dsimp only [DocumentStore.deleteByUser]
      split <;> rfl
  | upsertSearchHistory userId keyword moment =>
      change (world.store.upsertSearchHistory userId keyword moment.time).2.auditLog = _
      unfold DocumentStore.upsertSearchHistory
      split <;> rfl
  | _ => rfl

/-- Only the route of access records appends any. -/
theorem isAppend_of_route {route : Route} (other : route ≠ .auditLog) (context : Context)
    (event : Event) :
    (route.script context event).Calls fun command => command.isAppend = false := by
  cases route with
  | auditLog => exact absurd rfl other
  | searchHistory =>
      cases event with
      | searchQueryIssued query =>
          rw [Route.script, SearchHistory.script]
          split
          · exact fun now => Script.calls_call.mpr ⟨rfl, fun _ => Script.calls_done⟩
          · exact Script.calls_done
      | _ => exact Script.calls_done
  | indexSync =>
      refine (IndexSync.calls_script context event).mono fun command synchronises => ?_
      rcases synchronises with toIndex | ⟨id, rfl⟩
      · cases command <;> first | rfl | cases toIndex
      · rfl
  | userPropagation =>
      refine (UserPropagation.calls_script context event).mono fun command propagates => ?_
      cases propagates <;> rfl

theorem auditLog_deliver_of_ne {route : Route} (other : route ≠ .auditLog) (envelope : Envelope)
    (faults : List Fault) :
    (deliver context policy route envelope faults world).2.store.auditLog =
      world.store.auditLog :=
  process_keeps (fun state : Scheduled World => state.inner.store.auditLog = world.store.auditLog)
    (fun event _ same => run_scheduled_keeps services
      (fun current => current.store.auditLog = world.store.auditLog)
      (fun _ _ unrelated same => (auditLog_answer unrelated).trans same) (fun _ same => same)
      (isAppend_of_route other context event) same) rfl

/-- A handling of an access record that succeeds appends it once. -/
theorem auditLog_of_run {entry : AuditLogEntry} {after : World}
    (ran : (AuditLog.script context (.auditLogEntry entry)).run services world =
      (.finished (.ok ()), after)) :
    after.store.auditLog.map (·.1) = world.store.auditLog.map (·.1) ++ [entry] := by
  have appended : ∀ moment start, (AuditLog.append entry moment).run services start =
      (.finished (.ok ()), after) → start.store.auditLog = world.store.auditLog →
      after.store.auditLog.map (·.1) = world.store.auditLog.map (·.1) ++ [entry] := by
    intro moment start ran same
    obtain ⟨ended, succeeds⟩ :=
      Script.run_call_done services (.insertAuditLog entry moment) start
    change ((AuditLog.append entry moment).run services start).2 = _ at ended
    obtain ⟨reply, next, answered⟩ := succeeds (congrArg Prod.fst ran)
    rw [ran] at ended
    have replied := congrArg Prod.fst answered
    change (start.storeAnswer (start.store.insertAuditLog entry moment.time)).1 = _ at replied
    change after = (start.storeAnswer (start.store.insertAuditLog entry moment.time)).2 at ended
    rw [ended]
    unfold DocumentStore.insertAuditLog at replied ⊢
    split
    · rename_i down
      rw [if_pos down] at replied
      cases replied
    · change (start.store.auditLog ++ [(entry, moment.time)]).map (·.1) = _
      rw [same, List.map_append]
      rfl
  rw [AuditLog.script] at ran
  split at ran
  · exact appended _ world ran rfl
  · exact appended _ _ ran rfl

/-- The access record of a delivery that is acknowledged on the route of access records. -/
def acknowledgedRecord? (context : Context) (policy : RetryPolicy) (world : World) :
    Occurrence → Option AuditLogEntry
  | .deliver .auditLog envelope faults =>
      match (deliver context policy .auditLog envelope faults world).1.outcome,
        envelope.event? Route.auditLog.accepts with
      | .ack, some (.auditLogEntry entry) => some entry
      | _, _ => none
  | _ => none

/-- The access records of all deliveries of a run that are acknowledged, in order. -/
def acknowledgedRecords (context : Context) (policy : RetryPolicy) :
    World → List Occurrence → List AuditLogEntry
  | _, [] => []
  | world, occurrence :: occurrences =>
      (acknowledgedRecord? context policy world occurrence).toList ++
        acknowledgedRecords context policy (world.occur context policy occurrence) occurrences

theorem auditLog_deliver (envelope : Envelope) (faults : List Fault) :
    (deliver context policy .auditLog envelope faults world).2.store.auditLog.map (·.1) =
      world.store.auditLog.map (·.1) ++
        (acknowledgedRecord? context policy world (.deliver .auditLog envelope faults)).toList := by
  rw [acknowledgedRecord?]
  cases carries : envelope.event? Route.auditLog.accepts with
  | none =>
      rw [(deliver_of_event?_eq_none carries faults).2]
      simp
  | some event =>
      have offIndex : Route.auditLog = .indexSync → world.index.failures = 0 := fun onIndex => by
        cases onIndex
      rcases deliver_handled context policy faults (by decide) offIndex carries with
        ⟨rejected, readings, unchanged⟩ | ⟨acknowledged, readings, ran⟩
      · rw [unchanged, rejected]
        exact (List.append_nil _).symm
      · rw [acknowledged]
        cases event with
        | auditLogEntry entry =>
            have handled : (AuditLog.script context (.auditLogEntry entry)).run services
                (world.later readings) = _ := ran
            have appended := auditLog_of_run handled
            exact appended
        | _ =>
            -- The route does nothing about any other event.
            have unchanged := congrArg Prod.snd ran
            rw [← unchanged]
            exact (List.append_nil _).symm

theorem auditLog_occur (occurrence : Occurrence) :
    (world.occur context policy occurrence).store.auditLog.map (·.1) =
      world.store.auditLog.map (·.1) ++
        (acknowledgedRecord? context policy world occurrence).toList := by
  have unchanged : ∀ {after : World}, after.store.auditLog = world.store.auditLog →
      after.store.auditLog.map (·.1) = world.store.auditLog.map (·.1) ++ [] := by
    intro after same
    rw [same, List.append_nil]
  cases occurrence with
  | deliver route envelope faults =>
      cases route with
      | auditLog => exact auditLog_deliver envelope faults
      | _ => exact unchanged (auditLog_deliver_of_ne (by decide) envelope faults)
  | _ => exact unchanged rfl

theorem auditLog_after (occurrences : List Occurrence) :
    (world.after context policy occurrences).store.auditLog.map (·.1) =
      world.store.auditLog.map (·.1) ++ acknowledgedRecords context policy world occurrences := by
  induction occurrences generalizing world with
  | nil => exact (List.append_nil _).symm
  | cons occurrence occurrences inductionHypothesis =>
      rw [acknowledgedRecords, ← List.append_assoc, ← auditLog_occur]
      exact inductionHypothesis

end AccessRecords

/-! ## Transparency -/

/-- On every route but propagation a delivery that is rejected leaves both stores alone, and one
that is acknowledged has done what the same delivery does without faults and without retries at a
later reading of the clock. Over any run, one access record has been appended for each delivery
that was acknowledged with one, and none besides. -/
theorem transparent_deliver (context : Context) (policy : RetryPolicy) {route : Route}
    (single : route ≠ .userPropagation) (envelope : Envelope) (faults : List Fault) (world : World)
    (quiet : route = .indexSync → world.index.failures = 0) :
    let delivered := deliver context policy route envelope faults world
    (delivered.1.outcome = .nack →
      delivered.2.store = world.store ∧ delivered.2.index = world.index) ∧
    (delivered.1.outcome = .ack → ∃ readings,
      let once := deliver context .none route envelope [] (world.later readings)
      once.1.outcome = .ack ∧ once.2 = delivered.2) ∧
    ∀ occurrences, (world.after context policy occurrences).store.auditLog.map (·.1) =
      world.store.auditLog.map (·.1) ++ acknowledgedRecords context policy world occurrences := by
  intro delivered
  cases carries : envelope.event? route.accepts with
  | none =>
      obtain ⟨acknowledged, unchanged⟩ := deliver_of_event?_eq_none carries faults
      obtain ⟨onceAcknowledged, onceUnchanged⟩ := deliver_of_event?_eq_none carries []
      refine ⟨fun rejected => ?_, fun _ => ⟨0, onceAcknowledged, ?_⟩, auditLog_after⟩
      · cases acknowledged.symm.trans rejected
      · exact onceUnchanged.trans unchanged.symm
  | some event =>
      rcases deliver_handled context policy faults single quiet carries with
        ⟨rejected, readings, unchanged⟩ | ⟨acknowledged, readings, ran⟩
      · refine ⟨fun _ => ?_, fun acknowledged => ?_, auditLog_after⟩
        · rw [show delivered.2 = world.later readings from unchanged]
          exact ⟨rfl, rfl⟩
        · cases acknowledged.symm.trans rejected
      · refine ⟨fun rejected => ?_, fun _ => ⟨readings, ?_⟩, auditLog_after⟩
        · cases acknowledged.symm.trans rejected
        · exact deliver_of_succeeds carries ran

/-- The write of a changed post is lost. Without another attempt the post is not indexed; with one
it is, as if nothing had been lost. -/
theorem transparent_deliver_of_lost :
    let world : World := { store := DocumentStore.putPost {} (.published "p") }
    let envelope := Envelope.carrying (.contentUpdated ⟨"p"⟩)
    let faults : List Fault := [.pass, .fail (.index (.connection "lost"))]
    let delivered := fun policy => deliver .plain policy .indexSync envelope faults world
    Route.indexSync ≠ .userPropagation ∧ world.index.failures = 0 ∧
      (delivered (.new 1 0)).1.outcome = .nack ∧ (delivered (.new 1 0)).2.index = world.index ∧
      (delivered (.new 2 0)).1.outcome = .ack ∧
      ∃ readings, (deliver .plain .none .indexSync envelope [] (world.later readings)).2 =
        (delivered (.new 2 0)).2 := by
  intro world envelope faults delivered
  have single : Route.indexSync ≠ .userPropagation := by decide
  have rejected : (delivered (.new 1 0)).1.outcome = .nack := by decide +kernel
  have acknowledged : (delivered (.new 2 0)).1.outcome = .ack := by decide +kernel
  have once := (transparent_deliver .plain (.new 1 0) single envelope faults world
    fun _ => rfl).1
  have twice := (transparent_deliver .plain (.new 2 0) single envelope faults world
    fun _ => rfl).2.1
  obtain ⟨readings, _, same⟩ := twice acknowledged
  exact ⟨single, rfl, rejected, (once rejected).2, acknowledged, readings, same⟩

end Memory.World

end DualStore
