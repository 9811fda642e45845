import DualStore.Proofs.Concurrency.Synchronising
import DualStore.Proofs.Memory.Session
import DualStore.Proofs.Sync.Eligibility

/-!
Contract: removed content that comes back when workers overtake each other.

Owns:
- the threat to an id whose record may not be indexed: it is in the index, or some worker has read
  its record while that could still be indexed and is about to put it there;
- how steps change the threat: only a removal ends it, and only one that no worker contests;
- from this, exactly when an id is absent once all workers are idle, and a run in which it is not.

Does not own: workers of other routes.
-/

namespace DualStore.Memory.Crew

open SearchIndex DocumentStore IndexSync

def KeepsId (record : ContentRecord) (document : IndexDocument) : Prop := document.id = record.id

/-- Every worker synchronises the index, and nothing fails. -/
structure Synchronising (crew : Crew) : Prop where
  up : crew.world.IsUp
  routes : ∀ route ∈ crew.routes, route = .indexSync
  points : ∀ worker script, crew.rest? worker = some script → Point KeepsId script

section Steps

variable {context : Context} {crew next : Crew} {step : CrewStep} {id : String}

theorem synchronising_fresh {world : World} (up : world.IsUp) (count : Nat) :
    (fresh world (List.replicate count .indexSync)).Synchronising where
  up := up
  routes := by
    intro route member
    rw [routes_fresh] at member
    exact List.eq_of_mem_replicate member
  points := by
    intro worker script busy
    rw [rest?_fresh] at busy
    cases busy

theorem keepsId_script (context : Context) (event : Event) :
    Point KeepsId (IndexSync.script context event) :=
  point_script context event (fun _ => rfl) fun _ _ _ same => same.symm

/-- A worker that is about to put an id into the index. -/
def Writes (id : String) (crew : Crew) (worker : Nat) : Prop :=
  ∃ document, crew.next? worker = some (.upsertDocument document) ∧ document.id = id

/-- A worker that will remove an id whose record may not be indexed. -/
def Removes (id : String) (crew : Crew) (worker : Nat) : Prop :=
  crew.next? worker = some (.deleteDocument id) ∨ crew.next? worker = some (.findContent id)

/-- An id that is in the index or about to be put there. -/
def Threatened (id : String) (crew : Crew) : Prop :=
  (crew.world.index.get? id).isSome = true ∨ ∃ worker, crew.Writes id worker

theorem Synchronising.stepped (synchronising : crew.Synchronising) {worker : Nat} {script : Script}
    (busy : crew.rest? worker = some script) :
    Stepped KeepsId crew.world script (script.advance World.services crew.world).1
      (script.advance World.services crew.world).2 :=
  stepped_advance synchronising.up (synchronising.points worker script busy)

/-- A handling that ends has succeeded, so its delivery is acknowledged. -/
theorem Synchronising.succeeds (synchronising : crew.Synchronising) {worker : Nat}
    {script : Script} (busy : crew.rest? worker = some script) {run : Run}
    (ends : (script.advance World.services crew.world).1 = .ended run) :
    run = .finished (.ok ()) :=
  (synchronising.stepped busy).ended run ends

theorem Synchronising.route {worker : Nat} {route : Route} (synchronising : crew.Synchronising)
    (known : crew.routes[worker]? = some route) : route = .indexSync :=
  synchronising.routes route (List.mem_of_getElem? known)

theorem Synchronising.moved (synchronising : crew.Synchronising)
    (moved : Moved context crew next step) : next.Synchronising where
  routes := by
    rw [moved.routes]
    exact synchronising.routes
  up := by
    cases moved with
    | begin _ _ _ world =>
        rw [world]
        exact synchronising.up
    | advance busy _ world =>
        rw [world]
        exact (synchronising.stepped busy).up
    | put _ world =>
        rw [world]
        exact ⟨synchronising.up.collections, synchronising.up.index⟩
    | drop _ world =>
        rw [world]
        exact ⟨synchronising.up.collections, synchronising.up.index⟩
  points := by
    intro worker script busy
    cases moved with
    | @begin taker event route known idle turned world =>
        by_cases same : worker = taker
        · subst same
          rw [turned.own] at busy
          cases busy
          obtain rfl := synchronising.route known
          exact keepsId_script context event
        · rw [turned.others worker same] at busy
          exact synchronising.points worker script busy
    | @advance taker _ pending turned world =>
        by_cases same : worker = taker
        · subst same
          rw [turned.own] at busy
          exact (synchronising.stepped pending).point script busy
        · rw [turned.others worker same] at busy
          exact synchronising.points worker script busy
    | put workers _ =>
        rw [rest?, workers, ← rest?] at busy
        exact synchronising.points worker script busy
    | drop workers _ =>
        rw [rest?, workers, ← rest?] at busy
        exact synchronising.points worker script busy

theorem Synchronising.isEligible_moved (synchronising : crew.Synchronising)
    (moved : Moved context crew next step) (unchanged : step.changes id = false) :
    next.world.store.isEligible id = crew.world.store.isEligible id := by
  cases moved with
  | begin _ _ _ world => rw [world]
  | advance busy _ world => rw [world, (synchronising.stepped busy).store]
  | put _ world =>
      rw [world]
      exact isEligible_congr (post?_putPost_of_ne unchanged)
  | drop _ world =>
      rw [world]
      have distinct : _ ≠ id := ne_of_beq_false unchanged
      exact isEligible_congr (post?_dropPost_of_ne distinct)

theorem Synchronising.get?_advanced {worker : Nat} (synchronising : crew.Synchronising)
    (moved : Moved context crew next (.advance worker)) :
    next.world.index.get? id = (carried (crew.next? worker) crew.world.index).get? id := by
  cases moved with
  | advance busy _ world =>
      rw [world, (synchronising.stepped busy).index, next?_of_busy busy]

/-- The document of an id changes only when a worker makes a call. -/
theorem Synchronising.get?_moved (synchronising : crew.Synchronising)
    (moved : Moved context crew next step) (id : String) :
    (∃ worker, step = .advance worker ∧
      next.world.index.get? id = (carried (crew.next? worker) crew.world.index).get? id) ∨
    next.world.index.get? id = crew.world.index.get? id := by
  cases step with
  | advance worker => exact Or.inl ⟨worker, rfl, synchronising.get?_advanced moved⟩
  | begin worker event =>
      cases moved with
      | begin _ _ _ world => exact Or.inr (by rw [world])
  | put post =>
      cases moved with
      | put _ world => exact Or.inr (by rw [world])
  | drop dropped =>
      cases moved with
      | drop _ world => exact Or.inr (by rw [world])

/-- Handling starts with a lookup, a removal or a rewrite, never with putting a document. -/
theorem next?_script_ne_upsert (event : Event) (document : IndexDocument) :
    (IndexSync.script context event).next? ≠ some (.upsertDocument document) := by
  have rewrites : ∀ userId update,
      (IndexSync.overwriteAuthor userId update).next? ≠ some (.upsertDocument document) := by
    intro userId update makes
    unfold IndexSync.overwriteAuthor at makes
    split at makes
    · cases makes
    · cases makes
  intro makes
  cases event with
  | contentCreated created =>
      rw [IndexSync.script] at makes
      split at makes
      · cases makes
      · cases makes
  | identityUpdated identity => exact rewrites _ _ makes
  | identityDeleted identity => exact rewrites _ _ makes
  | _ => cases makes

/-- Only a lookup whose record may be indexed is followed by putting a document, under the id of
that record. -/
theorem eligible_of_upsert {world after : World} {script : Script} {stage : Stage}
    (stepped : Stepped KeepsId world script stage after) {document : IndexDocument}
    (puts : stage.next? = some (.upsertDocument document)) :
    world.store.isEligible document.id = true := by
  by_cases lookup : ∃ read, script.next? = some (.findContent read)
  · obtain ⟨read, makes⟩ := lookup
    cases eligible : world.store.isEligible read with
    | false =>
        rw [stepped.removing read makes eligible] at puts
        cases puts
    | true =>
        obtain ⟨record, projected, found, keepsId, putsProjected⟩ :=
          stepped.putting read makes eligible
        rw [putsProjected] at puts
        cases puts
        rw [keepsId, id_of_content? found, eligible]
  · rw [stepped.finishing fun read makes => lookup ⟨read, makes⟩] at puts
    cases puts

/-- While its record may not be indexed, no worker sets out to put an id into the index. -/
theorem Synchronising.writes_of_moved (synchronising : crew.Synchronising)
    (ineligible : crew.world.store.isEligible id = false) (moved : Moved context crew next step)
    {worker : Nat} (writes : next.Writes id worker) : crew.Writes id worker := by
  obtain ⟨document, pending, sameId⟩ := writes
  have kept : next.rest? worker = crew.rest? worker → crew.Writes id worker := by
    intro same
    rw [next?, same, ← next?] at pending
    exact ⟨document, pending, sameId⟩
  cases moved with
  | @begin taker event route known idle turned world =>
      by_cases same : worker = taker
      · subst same
        obtain rfl := synchronising.route known
        rw [next?, turned.own] at pending
        exact absurd pending (next?_script_ne_upsert event document)
      · exact kept (turned.others worker same)
  | @advance taker script busy turned world =>
      by_cases same : worker = taker
      · subst same
        rw [next?_of_rest? turned.own] at pending
        have eligible := eligible_of_upsert (synchronising.stepped busy) pending
        rw [sameId, ineligible] at eligible
        cases eligible
      · exact kept (turned.others worker same)
  | put workers _ =>
      apply kept
      rw [rest?, workers, ← rest?]
  | drop workers _ =>
      apply kept
      rw [rest?, workers, ← rest?]

/-- No new threat arises while the record of an id may not be indexed. -/
theorem Synchronising.threatened_of_moved (synchronising : crew.Synchronising)
    (ineligible : crew.world.store.isEligible id = false) (moved : Moved context crew next step)
    (threatened : next.Threatened id) : crew.Threatened id := by
  rcases threatened with indexed | ⟨worker, writes⟩
  · rcases synchronising.get?_moved moved id with ⟨worker, _, called⟩ | same
    · rw [called, isSome_get?_carried] at indexed
      rcases indexed with ⟨document, pending, sameId⟩ | ⟨held, _⟩
      · exact Or.inr ⟨worker, document, pending, sameId⟩
      · exact Or.inl held
    · rw [same] at indexed
      exact Or.inl indexed
  · exact Or.inr ⟨worker, synchronising.writes_of_moved ineligible moved writes⟩

/-- A threat lasts unless a worker removes the id. -/
theorem Synchronising.threatened_moved (synchronising : crew.Synchronising)
    (moved : Moved context crew next step) (threatened : crew.Threatened id)
    (spared : ∀ worker, step = .advance worker →
      crew.next? worker ≠ some (.deleteDocument id)) : next.Threatened id := by
  rcases threatened with indexed | ⟨writer, document, pending, sameId⟩
  · left
    rcases synchronising.get?_moved moved id with ⟨worker, turn, called⟩ | same
    · rw [called, isSome_get?_carried]
      exact Or.inr ⟨indexed, spared worker turn⟩
    · rw [same]
      exact indexed
  · by_cases turn : step = .advance writer
    · left
      subst turn
      rw [synchronising.get?_advanced moved, isSome_get?_carried]
      exact Or.inl ⟨document, pending, sameId⟩
    · exact Or.inr ⟨writer, document, moved.next?_of_pending pending turn, sameId⟩

theorem Synchronising.removes_moved (synchronising : crew.Synchronising)
    (ineligible : crew.world.store.isEligible id = false) (moved : Moved context crew next step)
    {worker : Nat} (removes : crew.Removes id worker)
    (spared : step = .advance worker → crew.next? worker ≠ some (.deleteDocument id)) :
    next.Removes id worker := by
  by_cases turn : step = .advance worker
  · rcases removes with deletes | looksUp
    · exact absurd deletes (spared turn)
    · subst turn
      cases moved with
      | advance busy turned _ =>
          left
          rw [next?_of_busy busy] at looksUp
          rw [next?_of_rest? turned.own]
          exact (synchronising.stepped busy).removing id looksUp ineligible
  · rcases removes with deletes | looksUp
    · exact Or.inl (moved.next?_of_pending deletes turn)
    · exact Or.inr (moved.next?_of_pending looksUp turn)

/-- The handling of an event that settles an id starts with removing it or with its lookup. -/
theorem next?_script_of_settles {event : Event} (settles : event.settles? context = some id) :
    (IndexSync.script context event).next? = some (.deleteDocument id) ∨
      (IndexSync.script context event).next? = some (.findContent id) := by
  cases event with
  | contentCreated created =>
      rw [Event.settles?] at settles
      rw [IndexSync.script]
      split at settles
      · cases settles
      · cases settles
        rw [if_neg (by assumption)]
        exact Or.inr rfl
  | contentAuditPassed created =>
      cases settles
      exact Or.inr rfl
  | contentUpdated updated =>
      cases settles
      exact Or.inr rfl
  | contentDeleted deleted =>
      cases settles
      exact Or.inl rfl
  | _ => cases settles

theorem Synchronising.removes_begun (synchronising : crew.Synchronising) {worker : Nat}
    {event : Event} (moved : Moved context crew next (.begin worker event))
    (settles : event.settles? context = some id) : next.Removes id worker := by
  cases moved with
  | begin known _ turned _ =>
      obtain rfl := synchronising.route known
      unfold Removes
      rw [next?, turned.own]
      exact next?_script_of_settles settles

end Steps

/-! ## Runs -/

section Runs

variable {context : Context} {crew final : Crew} {steps : List CrewStep} {id : String}

/-- Nothing is done about an id whose record may not be indexed but to remove it. -/
structure Withdrawn (id : String) (crew : Crew) : Prop where
  synchronising : crew.Synchronising
  ineligible : crew.world.store.isEligible id = false

theorem Withdrawn.moved {next : Crew} {step : CrewStep} (withdrawn : crew.Withdrawn id)
    (unchanged : step.changes id = false) (moved : Moved context crew next step) :
    next.Withdrawn id where
  synchronising := withdrawn.synchronising.moved moved
  ineligible :=
    (withdrawn.synchronising.isEligible_moved moved unchanged).trans withdrawn.ineligible

theorem Withdrawn.ran (withdrawn : crew.Withdrawn id)
    (unchanged : ∀ step ∈ steps, step.changes id = false)
    (ran : crew.run? context steps = some final) : final.Withdrawn id :=
  run?_keeps (Withdrawn id)
    (fun _ _ step member stepped withdrawn =>
      withdrawn.moved (unchanged step member) (moved_of_step? stepped)) ran withdrawn

theorem Withdrawn.unthreatened_ran (withdrawn : crew.Withdrawn id)
    (unchanged : ∀ step ∈ steps, step.changes id = false)
    (ran : crew.run? context steps = some final) (unthreatened : ¬crew.Threatened id) :
    ¬final.Threatened id := by
  have kept := run?_keeps (fun crew => crew.Withdrawn id ∧ ¬crew.Threatened id)
    (fun crew next step member stepped holds => ?_) ran ⟨withdrawn, unthreatened⟩
  · exact kept.2
  · have moved := moved_of_step? stepped
    refine ⟨holds.1.moved (unchanged step member) moved, fun threatened => holds.2 ?_⟩
    exact holds.1.synchronising.threatened_of_moved holds.1.ineligible moved threatened

theorem threatened_of_isIdle (idle : crew.isIdle = true) (threatened : crew.Threatened id) :
    (crew.world.index.get? id).isSome = true := by
  rcases threatened with indexed | ⟨worker, document, pending, _⟩
  · exact indexed
  · rw [next?_of_isIdle idle] at pending
    cases pending

/-- Something is still due about an id: it is threatened, or a worker will remove it, or a delivery
that settles it will be taken. -/
def Due (context : Context) (id : String) (steps : List CrewStep) (crew : Crew) : Prop :=
  crew.Threatened id ∨ (∃ worker, crew.Removes id worker) ∨
    ∃ worker event, .begin worker event ∈ steps ∧ event.settles? context = some id

/-- Every step but a removal hands on what is due. -/
theorem Withdrawn.due_moved {next : Crew} {step : CrewStep} (withdrawn : crew.Withdrawn id)
    (moved : Moved context crew next step)
    (spared : ∀ worker, step = .advance worker → crew.next? worker ≠ some (.deleteDocument id))
    (due : crew.Due context id (step :: steps)) : next.Due context id steps := by
  have synchronising := withdrawn.synchronising
  rcases due with threatened | ⟨worker, removes⟩ | ⟨worker, event, member, settles⟩
  · exact Or.inl (synchronising.threatened_moved moved threatened spared)
  · exact Or.inr (Or.inl ⟨worker,
      synchronising.removes_moved withdrawn.ineligible moved removes (spared worker)⟩)
  · rcases List.mem_cons.mp member with rfl | member
    · exact Or.inr (Or.inl ⟨worker, synchronising.removes_begun moved settles⟩)
    · exact Or.inr (Or.inr ⟨worker, event, member, settles⟩)

/-- A removal that some other worker contests leaves the id threatened. -/
theorem writes_moved_of_contested {next : Crew} {worker other : Nat}
    (moved : Moved context crew next (.advance worker))
    (deletes : crew.next? worker = some (.deleteDocument id)) (writes : crew.Writes id other) :
    next.Writes id other := by
  obtain ⟨document, pending, sameId⟩ := writes
  refine ⟨document, moved.next?_of_pending pending ?_, sameId⟩
  intro same
  cases same
  rw [deletes] at pending
  cases pending

theorem isSome_of_due (idle : crew.isIdle = true) (due : crew.Due context id []) :
    (crew.world.index.get? id).isSome = true := by
  rcases due with threatened | ⟨worker, removes⟩ | ⟨worker, event, member, _⟩
  · exact threatened_of_isIdle idle threatened
  · unfold Removes at removes
    rw [next?_of_isIdle idle] at removes
    rcases removes with deletes | looksUp
    · cases deletes
    · cases looksUp
  · cases member

/-- An id that is absent in the end, though something was due about it, has been removed while no
worker was about to put it back. -/
theorem Withdrawn.exists_uncontested (withdrawn : crew.Withdrawn id)
    (unchanged : ∀ step ∈ steps, step.changes id = false)
    (ran : crew.run? context steps = some final) (idle : final.isIdle = true)
    (absent : final.world.index.get? id = none) (due : crew.Due context id steps) :
    ∃ worker before there later,
      crew.Makes context steps worker (.deleteDocument id) before there later ∧
        ∀ other, ¬there.Writes id other := by
  induction steps generalizing crew with
  | nil =>
      cases ran
      have indexed := isSome_of_due idle due
      rw [absent] at indexed
      cases indexed
  | cons step steps inductionHypothesis =>
      obtain ⟨next, stepped, rest⟩ := run?_cons.mp ran
      have moved := moved_of_step? stepped
      have handedOn : next.Due context id steps → ∃ worker before there later,
          crew.Makes context (step :: steps) worker (.deleteDocument id) before there later ∧
            ∀ other, ¬there.Writes id other := by
        intro dueNext
        obtain ⟨worker, before, there, later, makes, uncontested⟩ :=
          inductionHypothesis (withdrawn.moved (unchanged step (by simp)) moved)
            (fun other member => unchanged other (by simp [member])) rest dueNext
        exact ⟨worker, step :: before, there, later, makes.after stepped, uncontested⟩
      -- What is due is handed on from step to step; only an uncontested removal ends it.
      by_cases removal : ∃ worker, step = .advance worker ∧
          crew.next? worker = some (.deleteDocument id)
      · obtain ⟨worker, rfl, deletes⟩ := removal
        by_cases contested : ∃ other, crew.Writes id other
        · obtain ⟨other, writes⟩ := contested
          exact handedOn (Or.inl (Or.inr ⟨other, writes_moved_of_contested moved deletes writes⟩))
        · exact ⟨worker, [], crew, steps, .here deletes,
            fun other writes => contested ⟨other, writes⟩⟩
      · exact handedOn (withdrawn.due_moved moved
          (fun worker turn deletes => removal ⟨worker, turn, deletes⟩) due)

/-- A removal that no worker contests leaves nothing behind that could bring the id back. -/
theorem Withdrawn.absent_of_uncontested {worker : Nat} {before later : List CrewStep}
    {there : Crew} (withdrawn : crew.Withdrawn id)
    (unchanged : ∀ step ∈ steps, step.changes id = false)
    (ran : crew.run? context steps = some final)
    (makes : crew.Makes context steps worker (.deleteDocument id) before there later)
    (uncontested : ∀ other, ¬there.Writes id other) : final.world.index.get? id = none := by
  obtain ⟨next, stepped, rest⟩ := makes.goesOn ran
  have moved := moved_of_step? stepped
  have member : ∀ step, step ∈ before ∨ step = .advance worker ∨ step ∈ later → step ∈ steps := by
    intro step
    rw [makes.split]
    simp
  have withdrawnThere : there.Withdrawn id :=
    withdrawn.ran (fun step early => unchanged step (member step (Or.inl early))) makes.reached
  -- After the removal the id is not in the index, and nobody is about to put it there.
  have unthreatened : ¬next.Threatened id := by
    rintro (indexed | ⟨other, writes⟩)
    · rw [withdrawnThere.synchronising.get?_advanced moved, isSome_get?_carried,
        makes.pending] at indexed
      rcases indexed with ⟨document, puts, _⟩ | ⟨_, spared⟩
      · cases puts
      · exact spared rfl
    · exact uncontested other (withdrawnThere.synchronising.writes_of_moved
        withdrawnThere.ineligible moved writes)
  have unthreatenedFinal : ¬final.Threatened id :=
    (withdrawnThere.moved (unchanged _ (member _ (Or.inr (Or.inl rfl)))) moved).unthreatened_ran
      (fun step late => unchanged step (member step (Or.inr (Or.inr late)))) rest unthreatened
  cases found : final.world.index.get? id with
  | none => rfl
  | some document =>
      refine absurd (Or.inl ?_) unthreatenedFinal
      rw [found]
      rfl

/-- A run of workers that synchronise the index, to its end. Its later part does not change the
post of an id, whose record may not be indexed, and contains a delivery that settles the id. -/
structure Drained (context : Context) (world : World) (count : Nat) (id : String)
    (before after : List CrewStep) (changed final : Crew) : Prop where
  up : world.IsUp
  reached : (fresh world (List.replicate count .indexSync)).run? context before = some changed
  ran : changed.run? context after = some final
  idle : final.isIdle = true
  unchanged : ∀ step ∈ after, step.changes id = false
  ineligible : final.world.store.isEligible id = false
  taken : ∃ worker event, .begin worker event ∈ after ∧ event.settles? context = some id

theorem Drained.withdrawn {world : World} {count : Nat} {before after : List CrewStep}
    {changed : Crew} (drained : Drained context world count id before after changed final) :
    changed.Withdrawn id := by
  have synchronising : changed.Synchronising :=
    run?_keeps Synchronising
      (fun _ _ _ _ stepped synchronising => synchronising.moved (moved_of_step? stepped))
      drained.reached (synchronising_fresh drained.up count)
  have sameRecord := run?_keeps
    (fun crew => crew.Synchronising ∧
      crew.world.store.isEligible id = changed.world.store.isEligible id)
    (fun crew next step member stepped holds => ?_) drained.ran ⟨synchronising, rfl⟩
  · exact ⟨synchronising, sameRecord.2.symm.trans drained.ineligible⟩
  · have moved := moved_of_step? stepped
    exact ⟨holds.1.moved moved,
      (holds.1.isEligible_moved moved (drained.unchanged step member)).trans holds.2⟩

/-- Once all workers are idle, content that may not be indexed is absent exactly when, after its
last change, it has been removed while no worker was about to put it back. -/
theorem absent_iff_uncontested {world : World} {count : Nat} {before after : List CrewStep}
    {changed : Crew} (drained : Drained context world count id before after changed final) :
    final.world.index.get? id = none ↔
      ∃ worker earlier there later,
        changed.Makes context after worker (.deleteDocument id) earlier there later ∧
          ∀ other, ¬there.Writes id other := by
  constructor
  · intro absent
    exact drained.withdrawn.exists_uncontested drained.unchanged drained.ran drained.idle absent
      (Or.inr (Or.inr drained.taken))
  · rintro ⟨worker, earlier, there, later, makes, uncontested⟩
    exact drained.withdrawn.absent_of_uncontested drained.unchanged drained.ran makes uncontested

/-- A new post is read by a worker that is to index it, and is dropped then. -/
def readThenDropped : List CrewStep :=
  [.put (.published "p"), .begin 0 (.contentCreated { id := "p" }), .advance 0, .drop "p"]

/-- Another worker takes the deletion, but the first one goes on before it. -/
def putThenRemoved : List CrewStep :=
  [.begin 1 (.contentDeleted ⟨"p", none⟩), .advance 0, .advance 1, .advance 0, .advance 1]

/-- Another worker takes the deletion and is done with it before the first one goes on. -/
def removedThenPut : List CrewStep :=
  [.begin 1 (.contentDeleted ⟨"p", none⟩), .advance 1, .advance 1, .advance 0, .advance 0]

private theorem isUp_empty : World.IsUp {} where
  collections := fun collection => by cases collection <;> rfl
  index := rfl

/-- The post is absent in the end, since its removal has not been contested. -/
theorem absent_of_putThenRemoved :
    ∃ changed final, Drained .plain {} 2 "p" readThenDropped putThenRemoved changed final ∧
      final.world.index.get? "p" = none ∧
        ∃ worker earlier there later,
          changed.Makes .plain putThenRemoved worker (.deleteDocument "p") earlier there later ∧
            ∀ other, ¬there.Writes "p" other := by
  let changed := ((fresh {} (List.replicate 2 .indexSync)).run? .plain readThenDropped).get
    (by decide +kernel)
  let final := (changed.run? .plain putThenRemoved).get (by decide +kernel)
  have drained : Drained .plain {} 2 "p" readThenDropped putThenRemoved changed final :=
    { up := isUp_empty
      reached := (Option.some_get _).symm
      ran := (Option.some_get _).symm
      idle := by decide +kernel
      unchanged := by decide +kernel
      ineligible := by decide +kernel
      taken := ⟨1, .contentDeleted ⟨"p", none⟩, by simp [putThenRemoved], rfl⟩ }
  have absent : final.world.index.get? "p" = none := by decide +kernel
  exact ⟨changed, final, drained, absent, (absent_iff_uncontested drained).mp absent⟩

/-- The create has been overtaken by its deletion, which is acknowledged, and still the post is in
the index once both workers are idle. -/
theorem indexed_of_removedThenPut :
    ∃ changed final, Drained .plain {} 2 "p" readThenDropped removedThenPut changed final ∧
      CrewStep.begin 1 (.contentDeleted ⟨"p", none⟩) ∈ removedThenPut ∧
        (final.world.index.get? "p").isSome = true := by
  let changed := ((fresh {} (List.replicate 2 .indexSync)).run? .plain readThenDropped).get
    (by decide +kernel)
  let final := (changed.run? .plain removedThenPut).get (by decide +kernel)
  refine ⟨changed, final, ?_, by simp [removedThenPut], by decide +kernel⟩
  exact
    { up := isUp_empty
      reached := (Option.some_get _).symm
      ran := (Option.some_get _).symm
      idle := by decide +kernel
      unchanged := by decide +kernel
      ineligible := by decide +kernel
      taken := ⟨1, .contentDeleted ⟨"p", none⟩, by simp [removedThenPut], rfl⟩ }

end Runs

end DualStore.Memory.Crew
