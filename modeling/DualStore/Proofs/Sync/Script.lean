import DualStore.Sync.Route

/-!
Contract: what holds of the run of a script, whatever the services reply.

Owns:
- the calls that a script can come to, and which calls the scripts of each route can come to;
- the three forms that scripts of index synchronisation take;
- the rule that a run keeps what each of its possible calls and the clock keep;
- the run of the ways in which scripts are put together.

Does not own: what any service does with a call.
-/

namespace DualStore

namespace Script

/-- Every call that a script can come to has a property, whatever is replied. -/
def Calls (property : Call → Prop) : Script → Prop
  | finish _ => True
  | perform call resume => property call ∧ ∀ result, (resume result).Calls property
  | readClock resume => ∀ now, (resume now).Calls property

section Calls

variable {property : Call → Prop} {command : Call} {next : Script}

@[simp] theorem calls_done : done.Calls property := trivial

theorem Calls.mono {other : Call → Prop} (implies : ∀ call, property call → other call)
    {script : Script} (calls : script.Calls property) : script.Calls other := by
  induction script with
  | finish result => exact trivial
  | perform call resume inductionHypothesis =>
      exact ⟨implies call calls.1, fun result => inductionHypothesis result (calls.2 result)⟩
  | readClock resume inductionHypothesis =>
      exact fun now => inductionHypothesis now (calls now)

theorem calls_call {next : command.Reply → Script} :
    (Script.call command next).Calls property ↔
      property command ∧ ∀ reply, (next reply).Calls property := by
  constructor
  · intro calls
    exact ⟨calls.1, fun reply => calls.2 (.ok reply)⟩
  · intro both
    refine ⟨both.1, fun result => ?_⟩
    cases result with
    | ok reply => exact both.2 reply
    | error error => exact trivial

theorem calls_attempt :
    (Script.attempt command next).Calls property ↔ property command ∧ next.Calls property :=
  ⟨fun calls => ⟨calls.1, calls.2 (.error (.broker ""))⟩, fun both => ⟨both.1, fun _ => both.2⟩⟩

end Calls

section Run

variable {σ : Type} (services : Services σ)

/-- A run keeps what the services keep at every call that the script can come to, and at the
clock. -/
theorem run_keeps {property : Call → Prop} (invariant : σ → Prop)
    (answered : ∀ call state, property call → invariant state →
      invariant (services.answer call state).2)
    (ticked : ∀ state, invariant state → invariant (services.clock state).2)
    {script : Script} (calls : script.Calls property) {state : σ} (holds : invariant state) :
    invariant (script.run services state).2 := by
  induction script generalizing state with
  | finish result => exact holds
  | perform call resume inductionHypothesis =>
      have afterCall := answered call state calls.1 holds
      unfold run
      split
      · rename_i result next answer
        rw [answer] at afterCall
        exact inductionHypothesis result (calls.2 result) afterCall
      · rename_i message next answer
        rw [answer] at afterCall
        exact afterCall
  | readClock resume inductionHypothesis =>
      unfold run
      exact inductionHypothesis _ (calls _) (ticked state holds)

/-- Services that agree on the calls that a script can come to, and on the clock, run it alike. -/
theorem run_congr {services other : Services σ} {property : Call → Prop}
    (sameAnswer : ∀ call state, property call →
      services.answer call state = other.answer call state)
    (sameClock : services.clock = other.clock) {script : Script}
    (calls : script.Calls property) (state : σ) :
    script.run services state = script.run other state := by
  induction script generalizing state with
  | finish result => rfl
  | perform call resume inductionHypothesis =>
      rw [run, run, sameAnswer call state calls.1]
      split
      · exact inductionHypothesis _ (calls.2 _) _
      · rfl
  | readClock resume inductionHypothesis =>
      rw [run, run, sameClock]
      exact inductionHypothesis _ (calls _) _

/-- A call that is answered with a reply goes on with it; any other answer ends the script, and
not with success. -/
theorem run_call_cases (command : Call) (next : command.Reply → Script) (state : σ) :
    (∃ reply after, services.answer command state = (.replied (.ok reply), after) ∧
      (call command next).run services state = (next reply).run services after) ∨
    (((call command next).run services state).1 ≠ .finished (.ok ()) ∧
      ((call command next).run services state).2 = (services.answer command state).2) := by
  unfold call
  rw [run]
  split
  · rename_i result after answer
    cases result with
    | ok reply => exact Or.inl ⟨reply, after, answer, rfl⟩
    | error error =>
        right
        rw [answer]
        exact ⟨by simp [run], rfl⟩
  · rename_i message after answer
    right
    rw [answer]
    exact ⟨by simp, rfl⟩

/-- A script of one call succeeds only when the call is answered with a reply, and ends where the
answer leaves the services. -/
theorem run_call_done (command : Call) (state : σ) :
    ((call command fun _ => done).run services state).2 = (services.answer command state).2 ∧
      (((call command fun _ => done).run services state).1 = .finished (.ok ()) →
        ∃ reply after, services.answer command state = (.replied (.ok reply), after)) := by
  rcases run_call_cases services command (fun _ => done) state with
    ⟨reply, after, answer, ran⟩ | ⟨failed, ended⟩
  · rw [ran, answer]
    exact ⟨rfl, fun _ => ⟨reply, after, rfl⟩⟩
  · exact ⟨ended, fun succeeded => absurd succeeded failed⟩

/-- A script that attempts calls one after the other, whatever becomes of each. -/
def attempts (calls : List Call) (next : Script) : Script := calls.foldr attempt next

theorem attempts_append (first later : List Call) (next : Script) :
    attempts (first ++ later) next = attempts first (attempts later next) := List.foldr_append

end Run

end Script

/-- The state after calls have been put to services, whatever they answer. -/
def Services.answerAll {σ : Type} (services : Services σ) (calls : List Call) (state : σ) : σ :=
  calls.foldl (fun state call => (services.answer call state).2) state

/-- Services that do not panic answer all calls that a script attempts. -/
theorem Script.run_attempts {σ : Type} {services : Services σ}
    (replies : ∀ call state, ∃ result, (services.answer call state).1 = .replied result)
    (calls : List Call) (next : Script) (state : σ) :
    (attempts calls next).run services state = next.run services (services.answerAll calls state) := by
  induction calls generalizing state with
  | nil => rfl
  | cons call calls inductionHypothesis =>
      obtain ⟨result, replied⟩ := replies call state
      have answered : services.answer call state =
          (.replied result, (services.answer call state).2) := Prod.ext replied rfl
      change (attempt call (attempts calls next)).run services state = _
      rw [attempt, run, answered]
      exact inductionHypothesis _

/-! ## The calls of each route -/

/-- The calls of index synchronisation: lookups of content, and calls to the index. -/
def Call.Synchronises (command : Call) : Prop :=
  command.isIndexCall = true ∨ ∃ id, command = .findContent id

/-- The calls of propagation: updates of copies of an identity, and removals of purged data. -/
inductive Call.Propagates : Call → Prop where
  | update (place : UserPropagation.Embedding) (userId : Int64) (update : AuthorUpdate) :
      place ∈ UserPropagation.profileCopies →
      Propagates (.updateByUser place.collection place.userField userId (place.updates update))
  | purge (place : Collection × String) (userId : Int64) :
      place ∈ UserPropagation.purged → Propagates (.deleteByUser place.1 place.2 userId)

inductive Call.Records : Call → Prop where
  | access (entry : AuditLogEntry) (moment : Moment) : Records (.insertAuditLog entry moment)
  | query (userId : Int64) (keyword : String) (moment : Moment) :
      Records (.upsertSearchHistory userId keyword moment)

/-- What index synchronisation does about the record of an id. -/
def IndexSync.onRecord (id : String) (project : ContentRecord → IndexDocument) :
    Option ContentRecord → Script
  | some record => if record.isIndexable then put (project record) else remove id
  | none => remove id

theorem IndexSync.reconcileWith_eq (id : String) (project : ContentRecord → IndexDocument) :
    reconcileWith id project = .call (.findContent id) (onRecord id project) := by
  unfold reconcileWith
  congr 1
  funext reply
  cases reply <;> rfl

/-- Every script of index synchronisation is empty, or one call to the index, or a lookup followed
by such a script. -/
theorem IndexSync.script_rule {property : Script → Prop} (ends : property .done)
    (indexes : ∀ {command : Call}, command.isIndexCall = true →
      property (.call command fun _ => .done))
    (looksUp : ∀ {id : String} {next : Option ContentRecord → Script},
      (∀ reply, property (next reply)) → property (.call (.findContent id) next))
    (context : Context) (event : Event) : property (script context event) := by
  have reconciles : ∀ id project, property (reconcileWith id project) := by
    intro id project
    rw [reconcileWith_eq]
    refine looksUp fun reply => ?_
    cases reply with
    | none => exact indexes rfl
    | some record =>
        rw [onRecord]
        split
        · exact indexes rfl
        · exact indexes rfl
  have overwrites : ∀ userId update, property (overwriteAuthor userId update) := by
    intro userId update
    unfold overwriteAuthor
    split
    · exact ends
    · exact indexes rfl
  cases event with
  | contentCreated created =>
      rw [script]
      split
      · exact ends
      · exact reconciles _ _
  | contentAuditPassed created => exact reconciles _ _
  | contentUpdated updated => exact reconciles _ _
  | contentDeleted deleted => exact indexes rfl
  | identityUpdated identity => exact overwrites _ _
  | identityDeleted identity => exact overwrites _ _
  | auditLogEntry entry => exact ends
  | searchQueryIssued query => exact ends

theorem IndexSync.calls_script (context : Context) (event : Event) :
    (IndexSync.script context event).Calls Call.Synchronises := by
  refine script_rule Script.calls_done (fun toIndex => ?_) (fun goesOn => ?_) context event
  · exact Script.calls_call.mpr ⟨Or.inl toIndex, fun _ => Script.calls_done⟩
  · exact Script.calls_call.mpr ⟨Or.inr ⟨_, rfl⟩, goesOn⟩

theorem UserPropagation.not_mem_keys_updates {place : Embedding} (update : AuthorUpdate)
    {key : String} (nickname : key ≠ place.nicknameField) (avatar : key ≠ place.avatarField) :
    key ∉ (place.updates update).map (·.1) := by
  obtain ⟨writtenNickname, writtenAvatar⟩ := update
  cases writtenNickname <;> cases writtenAvatar <;> simp [Embedding.updates, nickname, avatar]

theorem UserPropagation.overwriteAll_of_isEmpty {userId : Int64} {update : AuthorUpdate}
    {places : List Embedding} {next : Script} (empty : update.isEmpty = true) :
    overwriteAll userId update places next = next :=
  if_pos empty

theorem UserPropagation.overwriteAll_cons {userId : Int64} {update : AuthorUpdate}
    {place : Embedding} {places : List Embedding} {next : Script}
    (filled : update.isEmpty = false) :
    overwriteAll userId update (place :: places) next =
      .attempt (.updateByUser place.collection place.userField userId (place.updates update))
        (overwriteAll userId update places next) := by
  have nonempty : ¬update.isEmpty = true := by
    rw [filled]
    decide
  rw [overwriteAll, if_neg nonempty, overwriteAll, if_neg nonempty, List.foldr_cons]

theorem UserPropagation.calls_overwriteAll {property : Call → Prop} {userId : Int64}
    {update : AuthorUpdate} {places : List Embedding} {next : Script}
    (allowed : ∀ place ∈ places, property
      (.updateByUser place.collection place.userField userId (place.updates update)))
    (rest : next.Calls property) :
    (overwriteAll userId update places next).Calls property := by
  cases empty : update.isEmpty with
  | true =>
      rw [overwriteAll_of_isEmpty empty]
      exact rest
  | false =>
      induction places with
      | nil =>
          unfold overwriteAll
          split <;> exact rest
      | cons place places inductionHypothesis =>
          rw [overwriteAll_cons empty]
          refine Script.calls_attempt.mpr ⟨allowed place (by simp), ?_⟩
          exact inductionHypothesis fun other member => allowed other (by simp [member])

theorem UserPropagation.calls_purgeAll {property : Call → Prop} {userId : Int64}
    {places : List (Collection × String)} {next : Script}
    (allowed : ∀ place ∈ places, property (.deleteByUser place.1 place.2 userId))
    (rest : next.Calls property) :
    (purgeAll userId places next).Calls property := by
  unfold purgeAll
  induction places with
  | nil => exact rest
  | cons place places inductionHypothesis =>
      rw [List.foldr_cons]
      refine Script.calls_attempt.mpr ⟨allowed place (by simp), ?_⟩
      exact inductionHypothesis fun other member => allowed other (by simp [member])

theorem UserPropagation.calls_script (context : Context) (event : Event) :
    (UserPropagation.script context event).Calls Call.Propagates := by
  cases event with
  | identityUpdated identity =>
      exact calls_overwriteAll (fun place member => .update place _ _ member) trivial
  | identityDeleted identity =>
      have copies : ∀ place ∈ anonymisedCopies, place ∈ profileCopies := by decide
      refine calls_overwriteAll (fun place member => .update place _ _ (copies place member)) ?_
      exact calls_purgeAll (fun place member => .purge place _ member) trivial
  | _ => exact trivial

theorem AuditLog.calls_script (context : Context) (event : Event) :
    (AuditLog.script context event).Calls Call.Records := by
  cases event with
  | auditLogEntry entry =>
      have appended : ∀ moment, (append entry moment).Calls Call.Records := fun moment =>
        Script.calls_call.mpr ⟨.access entry moment, fun _ => Script.calls_done⟩
      rw [script]
      split
      · exact appended _
      · exact fun now => appended _
  | _ => exact trivial

theorem SearchHistory.calls_script (context : Context) (event : Event) :
    (SearchHistory.script context event).Calls Call.Records := by
  cases event with
  | searchQueryIssued query =>
      rw [script]
      split
      · exact fun now => Script.calls_call.mpr ⟨.query _ _ _, fun _ => Script.calls_done⟩
      · exact Script.calls_done
  | _ => exact trivial

end DualStore
