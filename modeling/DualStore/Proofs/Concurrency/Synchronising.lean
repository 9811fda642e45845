import DualStore.Proofs.Concurrency.Crew
import DualStore.Proofs.Memory.Service

/-!
Contract: index synchronisation step by step, while nothing fails.

Owns:
- the scripts that a handling passes through, each of which makes one call and is done, except that
  a lookup is followed by what is done about the record it found;
- what a step from such a script does to the world, and which call comes next.

Does not own: several handlings at the same time.
-/

namespace DualStore.IndexSync

open Memory Memory.World Memory.SearchIndex Memory.DocumentStore

/-- The scripts that a handling passes through. What a lookup goes on with may be assumed to project
records as `projects` says. -/
inductive Point (projects : ContentRecord → IndexDocument → Prop) : Script → Prop where
  | done : Point projects .done
  | remove (id : String) : Point projects (remove id)
  | put (document : IndexDocument) : Point projects (put document)
  | rewrite (userId : Int64) (update : AuthorUpdate) :
      Point projects (.call (.updateAuthor userId update) fun _ => .done)
  | lookup (id : String) (project : ContentRecord → IndexDocument) :
      (∀ record, record.id = id → projects record (project record)) →
      Point projects (reconcileWith id project)

section Points

variable {projects : ContentRecord → IndexDocument → Prop}

theorem point_script (context : Context) (event : Event)
    (fromRecord : ∀ record, projects record (.ofRecord record context.offset))
    (fromEvent : ∀ created, event = .contentCreated created ∨ event = .contentAuditPassed created →
      ∀ record, record.id = created.id → projects record (.ofEvent created record context.offset)) :
    Point projects (script context event) := by
  have rewrites : ∀ userId update, Point projects (overwriteAuthor userId update) := by
    intro userId update
    unfold overwriteAuthor
    split
    · exact .done
    · exact .rewrite userId update
  cases event with
  | contentCreated created =>
      rw [script]
      split
      · exact .done
      · exact .lookup created.id _ (fromEvent created (Or.inl rfl))
  | contentAuditPassed created => exact .lookup created.id _ (fromEvent created (Or.inr rfl))
  | contentUpdated updated => exact .lookup updated.id _ fun record _ => fromRecord record
  | contentDeleted deleted => exact .remove deleted.id
  | identityUpdated identity => exact rewrites _ _
  | identityDeleted identity => exact rewrites _ _
  | auditLogEntry entry => exact .done
  | searchQueryIssued query => exact .done

/-- The index after the next call of a script, if there is one. -/
def carried (next? : Option Call) (index : SearchIndex) : SearchIndex :=
  next?.elim index fun call => carriedOut call index

@[simp] theorem carried_none (index : SearchIndex) : carried none index = index := rfl

@[simp] theorem carried_upsert (document : IndexDocument) (index : SearchIndex) :
    carried (some (.upsertDocument document)) index = index.put document := rfl

@[simp] theorem carried_delete (id : String) (index : SearchIndex) :
    carried (some (.deleteDocument id)) index = index.erase id := rfl

/-- An id is in the index after a call when it is put there, or when it was there and is not
removed. -/
theorem isSome_get?_carried (next? : Option Call) (index : SearchIndex) (id : String) :
    ((carried next? index).get? id).isSome = true ↔
      (∃ document, next? = some (.upsertDocument document) ∧ document.id = id) ∨
        (index.get? id).isSome = true ∧ next? ≠ some (.deleteDocument id) := by
  cases next? with
  | none => simp [carried]
  | some call =>
      change ((carriedOut call index).get? id).isSome = true ↔ _
      cases call with
      | upsertDocument document =>
          rw [carriedOut, get?_put]
          by_cases same : document.id = id <;> simp [same]
      | deleteDocument removed =>
          rw [carriedOut, get?_erase]
          by_cases same : removed = id <;> simp [same]
      | updateAuthor userId update =>
          rw [carriedOut, get?_overwriteAuthor, Option.isSome_map]
          simp
      | _ => simp [carriedOut]

/-- What a step from a point leads to. -/
structure Stepped (projects : ContentRecord → IndexDocument → Prop) (world : World)
    (script : Script) (stage : Stage) (after : World) : Prop where
  store : after.store = world.store
  up : after.IsUp
  index : ∀ id, after.index.get? id = (carried script.next? world.index).get? id
  point : ∀ rest, stage.rest? = some rest → Point projects rest
  ended : ∀ run, stage = .ended run → run = .finished (.ok ())
  removing : ∀ id, script.next? = some (.findContent id) → world.store.isEligible id = false →
    stage.next? = some (.deleteDocument id)
  putting : ∀ id, script.next? = some (.findContent id) → world.store.isEligible id = true →
    ∃ record document, world.store.content? id = some record ∧ projects record document ∧
      stage.next? = some (.upsertDocument document)
  finishing : (∀ id, script.next? ≠ some (.findContent id)) → stage.next? = none

private theorem stepped_indexCall {world : World} (up : world.IsUp) {command : Call}
    (toIndex : command.isIndexCall = true) :
    let script := Script.call command fun _ => .done
    Stepped projects world script (script.advance services world).1
      (script.advance services world).2 := by
  intro script
  obtain ⟨⟨reply, replied⟩, upAfter⟩ := up.answered command
  have advanced : script.advance services world = (.going .done, (answer command world).2) :=
    Script.advance_call services replied
  have noLookup : ∀ id, script.next? ≠ some (.findContent id) := by
    intro id equal
    cases Option.some.inj equal
    cases toIndex
  rw [advanced]
  refine ⟨store_answer_of_synchronises (Or.inl toIndex), upAfter, up.get?_answer command, ?_, ?_,
    ?_, ?_, fun _ => rfl⟩
  · intro rest same
    cases same
    exact .done
  · intro run same
    cases same
  · intro id makes
    exact absurd makes (noLookup id)
  · intro id makes
    exact absurd makes (noLookup id)

theorem onRecord_of_ineligible {store : DocumentStore} {read : String}
    (project : ContentRecord → IndexDocument) (ineligible : store.isEligible read = false) :
    onRecord read project (store.content? read) = remove read := by
  cases found : store.content? read with
  | none => rfl
  | some record =>
      rw [onRecord]
      split
      · rename_i indexable
        rw [isEligible_iff.mpr ⟨record, found, indexable⟩] at ineligible
        cases ineligible
      · rfl

theorem onRecord_of_eligible {store : DocumentStore} {read : String}
    (project : ContentRecord → IndexDocument) (eligible : store.isEligible read = true) :
    ∃ record, store.content? read = some record ∧
      onRecord read project (store.content? read) = put (project record) := by
  obtain ⟨record, found, indexable⟩ := isEligible_iff.mp eligible
  refine ⟨record, found, ?_⟩
  rw [found, onRecord, if_pos indexable]

/-- A lookup changes nothing, and decides what is done next. -/
private theorem stepped_lookup {world : World} (up : world.IsUp) (read : String)
    (project : ContentRecord → IndexDocument)
    (keepsProjection : ∀ record, record.id = read → projects record (project record)) :
    Stepped projects world (reconcileWith read project)
      (.going (onRecord read project (world.store.content? read))) world := by
  have ofLookup : ∀ {id}, (reconcileWith read project).next? = some (.findContent id) →
      read = id := by
    intro id makes
    cases makes
    rfl
  refine ⟨rfl, up, fun _ => rfl, ?_, ?_, ?_, ?_, ?_⟩
  · intro rest same
    cases same
    cases eligible : world.store.isEligible read with
    | false =>
        rw [onRecord_of_ineligible project eligible]
        exact .remove read
    | true =>
        obtain ⟨record, _, puts⟩ := onRecord_of_eligible project eligible
        rw [puts]
        exact .put _
  · intro run same
    cases same
  · intro id makes ineligible
    obtain rfl := ofLookup makes
    exact congrArg Script.next? (onRecord_of_ineligible project ineligible)
  · intro id makes eligible
    obtain rfl := ofLookup makes
    obtain ⟨record, found, puts⟩ := onRecord_of_eligible project eligible
    exact ⟨record, project record, found, keepsProjection record (id_of_content? found),
      congrArg Script.next? puts⟩
  · intro noLookup
    exact absurd rfl (noLookup read)

theorem stepped_advance {world : World} (up : world.IsUp) {script : Script}
    (point : Point projects script) :
    Stepped projects world script (script.advance services world).1
      (script.advance services world).2 := by
  cases point with
  | done =>
      refine ⟨rfl, up, fun _ => rfl, ?_, ?_, ?_, ?_, fun _ => rfl⟩
      · intro rest same
        cases same
      · intro run same
        cases same
        rfl
      · intro id makes
        cases makes
      · intro id makes
        cases makes
  | remove id => exact stepped_indexCall up rfl
  | put document => exact stepped_indexCall up rfl
  | rewrite userId update => exact stepped_indexCall up rfl
  | lookup read project keepsProjection =>
      have answered := up.answer_findContent read
      have advanced : (reconcileWith read project).advance services world =
          (.going (onRecord read project (world.store.content? read)), world) := by
        rw [reconcileWith_eq, Script.advance_call services (congrArg Prod.fst answered)]
        exact congrArg (Prod.mk _) (congrArg Prod.snd answered)
      rw [advanced]
      exact stepped_lookup up read project keepsProjection

end Points

end DualStore.IndexSync
