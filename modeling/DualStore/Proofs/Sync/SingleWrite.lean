import DualStore.Proofs.Memory.Service

/-!
Contract: scripts whose only write is their last step.

Owns:
- the scripts that look up and read the clock, then make at most one call that writes, and that end
  with any failure; those of every route but propagation are of this kind;
- one run of such a script over the stores in memory, with faults in the way of its calls: it
  succeeds and has done what a run without faults does, or it does not succeed and has only read
  the clock.

Does not own: attempts after the first.
-/

namespace DualStore

/-- A lookup writes nothing. -/
def Call.isLookup : Call → Bool
  | findContent _ => true
  | _ => false

/-- The calls that the store in memory logs before it looks whether the collection is down. -/
def Call.isLogged : Call → Bool
  | updateByUser .. | deleteByUser .. => true
  | _ => false

namespace Script

/-- A failure ends the script, and its only write is its last step. -/
def WritesLast : Script → Prop
  | finish _ => True
  | perform command resume =>
      (∀ error, resume (.error error) = finish (.error error)) ∧
        ((command.isLookup = true ∧ ∀ reply, (resume (.ok reply)).WritesLast) ∨
          (command.isLogged = false ∧ ∀ reply, resume (.ok reply) = done))
  | readClock resume => ∀ now, (resume now).WritesLast

theorem writesLast_done : done.WritesLast := trivial

theorem writesLast_lookup {id : String} {next : Option ContentRecord → Script}
    (goesOn : ∀ reply, (next reply).WritesLast) :
    (Script.call (.findContent id) next).WritesLast :=
  ⟨fun _ => rfl, Or.inl ⟨rfl, goesOn⟩⟩

theorem writesLast_call {command : Call} (unlogged : command.isLogged = false) :
    (Script.call command fun _ => done).WritesLast :=
  ⟨fun _ => rfl, Or.inr ⟨unlogged, fun _ => rfl⟩⟩

end Script

/-! ## The routes -/

theorem IndexSync.writesLast_script (context : Context) (event : Event) :
    (IndexSync.script context event).WritesLast := by
  refine script_rule Script.writesLast_done (fun {command} toIndex => ?_) Script.writesLast_lookup
    context event
  refine Script.writesLast_call ?_
  cases command <;> first | rfl | cases toIndex

theorem AuditLog.writesLast_script (context : Context) (event : Event) :
    (AuditLog.script context event).WritesLast := by
  cases event with
  | auditLogEntry entry =>
      rw [script]
      split
      · exact Script.writesLast_call rfl
      · exact fun now => Script.writesLast_call rfl
  | _ => exact Script.writesLast_done

theorem SearchHistory.writesLast_script (context : Context) (event : Event) :
    (SearchHistory.script context event).WritesLast := by
  cases event with
  | searchQueryIssued query =>
      rw [script]
      split
      · exact fun now => Script.writesLast_call rfl
      · exact Script.writesLast_done
  | _ => exact Script.writesLast_done

theorem Route.writesLast_script {route : Route} (single : route ≠ .userPropagation)
    (context : Context) (event : Event) : (route.script context event).WritesLast := by
  cases route with
  | auditLog => exact AuditLog.writesLast_script context event
  | searchHistory => exact SearchHistory.writesLast_script context event
  | indexSync => exact IndexSync.writesLast_script context event
  | userPropagation => exact absurd rfl single

/-! ## One run over the stores in memory -/

namespace Memory.World

/-- A world in which more readings of the clock have been taken. -/
def later (world : World) (readings : Nat) : World := { world with taken := world.taken + readings }

theorem later_later (world : World) (first second : Nat) :
    (world.later first).later second = world.later (first + second) := by
  unfold later
  rw [Nat.add_assoc]

section Answers

variable {world : World} {command : Call}

/-- While no call to the index is to fail, a call that fails has changed nothing, the log of writes
by user aside. -/
theorem answer_eq_of_error (unlogged : command.isLogged = false)
    (quiet : command.isIndexCall = true → world.index.failures = 0) {error : SyncError}
    (failed : (answer command world).1 = .replied (.error error)) :
    (answer command world).2 = world := by
  have indexCall : command.isIndexCall = true → (answer command world).2 = world := by
    intro toIndex
    obtain ⟨⟨reply, replied⟩, _⟩ := answer_index_of_quiet (quiet toIndex) toIndex
    rw [replied] at failed
    cases failed
  cases command with
  | findContent id => rfl
  | updateByUser collection field userId updates => cases unlogged
  | deleteByUser collection field userId => cases unlogged
  | insertAuditLog entry moment =>
      change (world.storeAnswer (world.store.insertAuditLog entry moment.time)).1 = _ at failed
      change (world.storeAnswer (world.store.insertAuditLog entry moment.time)).2 = world
      unfold DocumentStore.insertAuditLog at failed ⊢
      split
      · rfl
      · rename_i up
        rw [if_neg up] at failed
        cases failed
  | upsertSearchHistory userId keyword moment =>
      change (world.storeAnswer
        (world.store.upsertSearchHistory userId keyword moment.time)).1 = _ at failed
      change (world.storeAnswer
        (world.store.upsertSearchHistory userId keyword moment.time)).2 = world
      unfold DocumentStore.upsertSearchHistory at failed ⊢
      split
      · rfl
      · rename_i up
        rw [if_neg up] at failed
        cases failed
  | upsertDocument document => exact indexCall rfl
  | deleteDocument id => exact indexCall rfl
  | updateAuthor userId update => exact indexCall rfl

end Answers

/-- A run of a script whose only write is its last step, with faults in its way. Either it succeeds
as a run without faults does, and ends where that ends; or it does not succeed, and nothing has
changed but the readings taken of the clock. -/
theorem run_scheduled_of_writesLast {script : Script} (writesLast : script.WritesLast)
    (state : Scheduled World)
    (quiet : script.Calls fun command =>
      command.isIndexCall = true → state.inner.index.failures = 0) :
    let ran := script.run services.scheduled state
    (ran.1 = .finished (.ok ()) ∧
        script.run services state.inner = (.finished (.ok ()), ran.2.inner)) ∨
      (ran.1 ≠ .finished (.ok ()) ∧ ∃ readings, ran.2.inner = state.inner.later readings) := by
  induction script generalizing state with
  | finish result =>
      by_cases succeeded : result = .ok ()
      · subst succeeded
        exact Or.inl ⟨rfl, rfl⟩
      · refine Or.inr ⟨fun same => succeeded (Run.finished.inj same), 0, rfl⟩
  | readClock resume inductionHypothesis =>
      have goesOn := inductionHypothesis (services.clock state.inner).1 (writesLast _)
        ⟨state.schedule, state.inner.later 1⟩ (quiet _)
      rcases goesOn with ⟨succeeded, same⟩ | ⟨failed, readings, ended⟩
      · exact Or.inl ⟨succeeded, same⟩
      · refine Or.inr ⟨failed, 1 + readings, ?_⟩
        rw [← later_later]
        exact ended
  | perform command resume inductionHypothesis =>
      obtain ⟨ends, goesOn⟩ := writesLast
      obtain ⟨quietHere, quietLater⟩ := quiet
      rcases scheduled_answer_cases services command state with ⟨kept, noReply⟩ | ⟨rest, passed⟩
      · -- A fault in the way of the call: there is no reply to go on with.
        right
        rcases answered : services.scheduled.answer command state with ⟨answer, after⟩
        rw [answered] at kept noReply
        rw [Script.run, answered]
        rcases answer with ⟨error | reply⟩ | message
        · dsimp only
          rw [ends]
          exact ⟨by simp [Script.run], 0, kept⟩
        · exact absurd rfl (noReply reply)
        · exact ⟨by simp, 0, kept⟩
      · obtain ⟨result, replied⟩ := answer_eq_replied command state.inner
        have direct : services.answer command state.inner =
            (.replied result, (answer command state.inner).2) := replied
        rw [direct] at passed
        rw [Script.run, passed, Script.run, direct]
        dsimp only
        cases result with
        | error error =>
            have unlogged : command.isLogged = false := by
              rcases goesOn with ⟨lookup, _⟩ | ⟨unlogged, _⟩
              · cases command <;> first | rfl | cases lookup
              · exact unlogged
            have unchanged := answer_eq_of_error unlogged quietHere (congrArg Prod.fst direct)
            rw [ends]
            exact Or.inr ⟨by simp [Script.run], 0, unchanged⟩
        | ok reply =>
            rcases goesOn with ⟨lookup, later⟩ | ⟨_, last⟩
            · have unchanged : (answer command state.inner).2 = state.inner := by
                cases command <;> first | rfl | cases lookup
              rw [unchanged]
              exact inductionHypothesis (.ok reply) (later reply) ⟨rest, state.inner⟩
                (quietLater _)
            · rw [last]
              exact Or.inl ⟨rfl, rfl⟩

end Memory.World

end DualStore
