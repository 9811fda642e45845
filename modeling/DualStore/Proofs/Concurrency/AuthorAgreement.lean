import DualStore.Proofs.Concurrency.Propagating
import DualStore.Proofs.Concurrency.Synchronising
import DualStore.Proofs.Memory.Session

/-!
Contract: the author in the index and the author in the posts, when identity events reach them over
two queues.

Owns:
- pairs of workers, one that synchronises the index and one that propagates identities, each of
  which handles its own queue in order;
- what the index holds after the last reading of a post: the author that was read, with the events
  handled since written over;
- what the posts hold: the author at the start, with the events propagated so far written over;
- from both, exactly when the two agree in the end, and a run in which they do not.

Does not own: workers that share a queue.
-/

namespace DualStore.Memory.Crew

open SearchIndex DocumentStore IndexSync UserPropagation

def KeepsAuthor (record : ContentRecord) (document : IndexDocument) : Prop :=
  document.id = record.id ∧ document.userId = record.authorId ∧ document.author = record.author

/-- Events that are handled without a payload of content: identities, and changed content. -/
def IsBare (context : Context) (event : Event) : Prop :=
  (event.rewrite? context).isSome = true ∨ ∃ updated, event = .contentUpdated updated

theorem keepsAuthor_script {context : Context} {event : Event} (bare : IsBare context event) :
    Point KeepsAuthor (IndexSync.script context event) := by
  refine point_script context event (fun _ => ⟨rfl, rfl, rfl⟩) fun created same => ?_
  exfalso
  rcases same with rfl | rfl <;>
    · rcases bare with carries | ⟨updated, same⟩
      · cases carries
      · cases same

/-! ## Pairs of workers -/

/-- The first worker synchronises the index, the second one propagates identities, and nothing
fails. -/
structure Paired (crew : Crew) : Prop where
  up : crew.world.IsUp
  routes : crew.routes = [.indexSync, .userPropagation]
  points : ∀ script, crew.rest? 0 = some script → Point KeepsAuthor script
  calls : ∀ script, crew.rest? 1 = some script → script.Calls Call.Propagates

/-- The steps of a pair, one worker at a time. -/
inductive PairMoved (context : Context) (crew next : Crew) : CrewStep → Prop where
  | indexBegins {event : Event} :
      crew.rest? 0 = none → next.rest? 0 = some (IndexSync.script context event) →
      next.rest? 1 = crew.rest? 1 → next.world = crew.world →
      PairMoved context crew next (.begin 0 event)
  | indexAdvances {script : Script} :
      crew.rest? 0 = some script →
      next.rest? 0 = (script.advance World.services crew.world).1.rest? →
      next.rest? 1 = crew.rest? 1 →
      next.world = (script.advance World.services crew.world).2 →
      PairMoved context crew next (.advance 0)
  | propagationBegins {event : Event} :
      crew.rest? 1 = none → next.rest? 1 = some (UserPropagation.script context event) →
      next.rest? 0 = crew.rest? 0 → next.world = crew.world →
      PairMoved context crew next (.begin 1 event)
  | propagationAdvances {script : Script} :
      crew.rest? 1 = some script →
      next.rest? 1 = (script.advance World.services crew.world).1.rest? →
      next.rest? 0 = crew.rest? 0 →
      next.world = (script.advance World.services crew.world).2 →
      PairMoved context crew next (.advance 1)
  | contentChanges {step : CrewStep} :
      (∀ worker, step.begun? worker = none) → (∀ worker, step ≠ .advance worker) →
      next.rest? 0 = crew.rest? 0 → next.rest? 1 = crew.rest? 1 →
      next.world.index = crew.world.index → next.world.IsUp →
      (∀ id, step.changes id = false →
        next.world.store.post? id = crew.world.store.post? id) →
      PairMoved context crew next step

section Steps

variable {context : Context} {crew next : Crew} {step : CrewStep} {id : String}

private theorem pair_cases {first second route : Route} {worker : Nat}
    (known : [first, second][worker]? = some route) :
    worker = 0 ∧ route = first ∨ worker = 1 ∧ route = second := by
  rcases worker with _ | _ | worker
  · exact Or.inl ⟨rfl, (Option.some.inj known).symm⟩
  · exact Or.inr ⟨rfl, (Option.some.inj known).symm⟩
  · cases known

theorem Paired.pairMoved (paired : crew.Paired) (moved : Moved context crew next step) :
    PairMoved context crew next step := by
  cases moved with
  | begin known idle turned world =>
      rw [paired.routes] at known
      rcases pair_cases known with ⟨rfl, rfl⟩ | ⟨rfl, rfl⟩
      · exact .indexBegins idle turned.own (turned.others 1 (by decide)) world
      · exact .propagationBegins idle turned.own (turned.others 0 (by decide)) world
  | advance busy turned world =>
      obtain ⟨route, known⟩ := route_of_busy busy
      rw [paired.routes] at known
      rcases pair_cases known with ⟨rfl, _⟩ | ⟨rfl, _⟩
      · exact .indexAdvances busy turned.own (turned.others 1 (by decide)) world
      · exact .propagationAdvances busy turned.own (turned.others 0 (by decide)) world
  | put workers world =>
      refine .contentChanges (fun _ => rfl) (fun _ same => by cases same) ?_ ?_ ?_ ?_ ?_
      · rw [rest?, workers, ← rest?]
      · rw [rest?, workers, ← rest?]
      · rw [world]
      · rw [world]
        exact ⟨paired.up.collections, paired.up.index⟩
      · intro id unchanged
        rw [world]
        exact post?_putPost_of_ne unchanged
  | drop workers world =>
      refine .contentChanges (fun _ => rfl) (fun _ same => by cases same) ?_ ?_ ?_ ?_ ?_
      · rw [rest?, workers, ← rest?]
      · rw [rest?, workers, ← rest?]
      · rw [world]
      · rw [world]
        exact ⟨paired.up.collections, paired.up.index⟩
      · intro id unchanged
        rw [world]
        exact post?_dropPost_of_ne (ne_of_beq_false unchanged)

theorem Paired.stepped (paired : crew.Paired) {script : Script}
    (busy : crew.rest? 0 = some script) :
    Stepped KeepsAuthor crew.world script (script.advance World.services crew.world).1
      (script.advance World.services crew.world).2 :=
  stepped_advance paired.up (paired.points script busy)

/-- Propagation never touches the index, and nothing fails after it. -/
theorem Paired.propagated (paired : crew.Paired) {script : Script}
    (busy : crew.rest? 1 = some script) :
    (script.advance World.services crew.world).2.index = crew.world.index ∧
      (script.advance World.services crew.world).2.IsUp := by
  rcases World.advance_cases script crew.world with ⟨call, makes, advanced⟩ | ⟨_, store, index⟩
  · have toStore : call.isIndexCall = false := by
      cases (paired.calls script busy).next? makes <;> rfl
    rw [advanced]
    exact ⟨World.index_answer_of_isIndexCall_eq_false toStore, (paired.up.answered call).2⟩
  · refine ⟨index, fun collection => ?_, ?_⟩
    · rw [store]
      exact paired.up.collections collection
    · rw [index]
      exact paired.up.index

theorem Paired.moved (paired : crew.Paired) (moved : Moved context crew next step)
    (bare : ∀ event, step = .begin 0 event → IsBare context event) : next.Paired := by
  have routes : next.routes = [.indexSync, .userPropagation] := moved.routes.trans paired.routes
  cases paired.pairMoved moved with
  | @indexBegins event _ own other world =>
      refine ⟨?_, routes, fun script busy => ?_, fun script busy => ?_⟩
      · rw [world]
        exact paired.up
      · rw [own] at busy
        cases busy
        exact keepsAuthor_script (bare event rfl)
      · rw [other] at busy
        exact paired.calls script busy
  | indexAdvances pending own other world =>
      have stepped := paired.stepped pending
      refine ⟨?_, routes, fun script busy => ?_, fun script busy => ?_⟩
      · rw [world]
        exact stepped.up
      · rw [own] at busy
        exact stepped.point script busy
      · rw [other] at busy
        exact paired.calls script busy
  | @propagationBegins event _ own other world =>
      refine ⟨?_, routes, fun script busy => ?_, fun script busy => ?_⟩
      · rw [world]
        exact paired.up
      · rw [other] at busy
        exact paired.points script busy
      · rw [own] at busy
        cases busy
        exact UserPropagation.calls_script context event
  | propagationAdvances pending own other world =>
      refine ⟨?_, routes, fun script busy => ?_, fun script busy => ?_⟩
      · rw [world]
        exact (paired.propagated pending).2
      · rw [other] at busy
        exact paired.points script busy
      · rw [own] at busy
        exact (paired.calls _ pending).advance busy
  | contentChanges _ _ first second _ up _ =>
      refine ⟨up, routes, fun script busy => ?_, fun script busy => ?_⟩
      · rw [first] at busy
        exact paired.points script busy
      · rw [second] at busy
        exact paired.calls script busy

/-! ### The author in the index -/

/-- The document of an id once the next call of the first worker has been made. -/
def settled? (id : String) (crew : Crew) : Option IndexDocument :=
  (carried (crew.next? 0) crew.world.index).get? id

theorem get?_carried_script {event : Event} (bare : IsBare context event) (index : SearchIndex) :
    (carried (IndexSync.script context event).next? index).get? id =
      (index.get? id).map fun d => (event.written context d.concerns).apply d := by
  have rewrites : ∀ userId update, event.rewrite? context = some (userId, update) →
      (carried (IndexSync.overwriteAuthor userId update).next? index).get? id =
        (index.get? id).map fun d => (event.written context d.concerns).apply d := by
    intro userId update carries
    simp only [← overwritten_eq_written carries]
    unfold IndexSync.overwriteAuthor
    split
    · rename_i empty
      have nothing : overwritten userId update = fun d => d := by
        funext d
        rw [AuthorUpdate.eq_empty_of_isEmpty empty, overwritten]
        exact ite_self d
      change index.get? id = (index.get? id).map (overwritten userId update)
      rw [nothing, Option.map_id']
    · exact get?_overwriteAuthor userId update
  cases event with
  | identityUpdated identity => exact rewrites _ _ rfl
  | identityDeleted identity => exact rewrites _ _ rfl
  | contentUpdated updated => exact Option.map_id'.symm
  | _ =>
      exfalso
      rcases bare with carries | ⟨updated, same⟩
      · cases carries
      · cases same

/-- A step of the first worker that is no reading of an id leaves what is settled about it. -/
theorem Paired.settled?_advanced (paired : crew.Paired) {script : Script}
    (busy : crew.rest? 0 = some script)
    (own : next.rest? 0 = (script.advance World.services crew.world).1.rest?)
    (world : next.world = (script.advance World.services crew.world).2)
    (noReading : crew.next? 0 ≠ some (.findContent id)) :
    next.settled? id = crew.settled? id := by
  have stepped := paired.stepped busy
  have pending := next?_of_busy busy
  have indexed : next.world.index.get? id = crew.settled? id := by
    rw [world, stepped.index, settled?, pending]
  rw [pending] at noReading
  by_cases lookup : ∃ read, script.next? = some (.findContent read)
  · obtain ⟨read, makes⟩ := lookup
    have other : read ≠ id := by
      intro same
      rw [same] at makes
      exact noReading makes
    cases eligible : crew.world.store.isEligible read with
    | false =>
        rw [settled?, next?_of_rest? own, stepped.removing read makes eligible, carried_delete,
          get?_erase, if_neg other, indexed]
    | true =>
        obtain ⟨record, document, found, keeps, puts⟩ := stepped.putting read makes eligible
        have distinct : document.id ≠ id := by
          rw [keeps.1, id_of_content? found]
          exact other
        rw [settled?, next?_of_rest? own, puts, carried_upsert, get?_put, if_neg distinct, indexed]
  · rw [settled?, next?_of_rest? own, stepped.finishing fun read makes => lookup ⟨read, makes⟩,
      carried_none, indexed]

/-- A step that is no reading of an id writes over its author what the step begins to write. -/
theorem Paired.settled?_moved (paired : crew.Paired) (moved : PairMoved context crew next step)
    (bare : ∀ event, step = .begin 0 event → IsBare context event)
    (noReading : step = .advance 0 → crew.next? 0 ≠ some (.findContent id)) :
    next.settled? id = (crew.settled? id).map fun d =>
      (lastWritten context d.concerns (step.begun? 0).toList).apply d := by
  have unwritten : step.begun? 0 = none →
      (crew.settled? id).map (fun d =>
        (lastWritten context d.concerns (step.begun? 0).toList).apply d) = crew.settled? id := by
    intro begun
    rw [begun]
    exact Option.map_id'
  have kept : next.rest? 0 = crew.rest? 0 → next.world.index = crew.world.index →
      next.settled? id = crew.settled? id := by
    intro rest index
    rw [settled?, next?, rest, index, ← next?, ← settled?]
  cases moved with
  | @indexBegins event idle own other world =>
      -- The call is only pending now, but what is settled looks past it.
      rw [settled?, next?_of_busy own, world, get?_carried_script (bare event rfl), settled?,
        next?_of_resting idle, carried_none]
      change _ = (crew.world.index.get? id).map fun d =>
        ((AuthorUpdate.atop {} (event.written context d.concerns))).apply d
      simp only [AuthorUpdate.empty_atop]
  | indexAdvances busy own other world =>
      rw [unwritten rfl]
      exact paired.settled?_advanced busy own world (noReading rfl)
  | propagationBegins idle own other world =>
      rw [unwritten rfl]
      exact kept other (by rw [world])
  | propagationAdvances busy own other world =>
      rw [unwritten rfl]
      refine kept other ?_
      rw [world]
      exact (paired.propagated busy).1
  | contentChanges begun _ first _ index _ _ =>
      rw [unwritten (begun 0)]
      exact kept first index

/-- Reading the record of an id settles its document: there is none, or it bears the author of the
record. -/
theorem Paired.settled?_read (paired : crew.Paired)
    (moved : PairMoved context crew next (.advance 0))
    (reads : crew.next? 0 = some (.findContent id)) {d : IndexDocument}
    (settled : next.settled? id = some d) :
    ∃ record, crew.world.store.content? id = some record ∧ KeepsAuthor record d := by
  cases moved with
  | @indexAdvances script busy own other world =>
      have stepped := paired.stepped busy
      rw [next?_of_busy busy] at reads
      rw [settled?, next?_of_rest? own] at settled
      cases eligible : crew.world.store.isEligible id with
      | false =>
          rw [stepped.removing id reads eligible, carried_delete, get?_erase, if_pos rfl] at settled
          cases settled
      | true =>
          obtain ⟨record, document, found, keeps, puts⟩ := stepped.putting id reads eligible
          rw [puts, carried_upsert, get?_put, if_pos (keeps.1.trans (id_of_content? found))]
            at settled
          cases settled
          exact ⟨record, found, keeps⟩
  | contentChanges _ noAdvance => exact absurd rfl (noAdvance 0)

/-! ### The author in the posts -/

/-- The events that have reached the posts, of those that the second worker has taken: all but the
last one while its write to the posts is pending. -/
def written (crew : Crew) (begun : List Event) : List Event :=
  if (crew.next? 1).any Call.writesPosts then begun.dropLast else begun

/-- The post of an id at the start and now: the events that have reached the posts have been
written over its author. -/
def Followed (context : Context) (events : List Event) (start now : Option Document) : Prop :=
  Option.Rel (fun d after =>
    postAuthor.Follows (lastWritten context (d.names postAuthor.userField) events) d after) start now

theorem followed_nil (post : Option Document) : Followed context [] post post := by
  cases post with
  | none => exact .none
  | some d => exact .some (.refl postAuthor d)

theorem Followed.append {events : List Event} {event : Event} {userId : Int64}
    {update : AuthorUpdate} {start now : Option Document}
    (followed : Followed context events start now)
    (carries : event.rewrite? context = some (userId, update)) :
    Followed context (events ++ [event]) start
      (now.map (updated postAuthor.userField userId (postAuthor.updates update))) := by
  cases followed with
  | none => exact .none
  | @some d after follows =>
      refine .some ?_
      have proper := isProper_of_mem postAuthor (by decide)
      have second := Embedding.follows_updated proper carries after
      rw [funext follows.names] at second
      rw [lastWritten_append, lastWritten, lastWritten, AuthorUpdate.empty_atop]
      exact follows.trans second

theorem Followed.append_of_written {events : List Event} {event : Event}
    {start now : Option Document} (followed : Followed context events start now)
    (nothing : ∀ concerns, event.written context concerns = {}) :
    Followed context (events ++ [event]) start now := by
  cases followed with
  | none => exact .none
  | some follows =>
      refine .some ?_
      rw [lastWritten_append, lastWritten, lastWritten, nothing, AuthorUpdate.empty_atop,
        AuthorUpdate.empty_atop]
      exact follows

/-- Where the second worker stands: the events that have reached the posts are written there, and
what is left to do leaves them alone or begins with writing the last event. -/
structure Propagated (context : Context) (start : World) (id : String) (begun : List Event)
    (crew : Crew) : Prop where
  followed : Followed context (crew.written begun) (start.store.post? id)
    (crew.world.store.post? id)
  point : ∀ script, crew.rest? 1 = some script → script.Calls (·.writesPosts = false) ∨
    ∃ earlier event userId update rest, begun = earlier ++ [event] ∧
      event.rewrite? context = some (userId, update) ∧
      script = .attempt
        (.updateByUser .posts postAuthor.userField userId (postAuthor.updates update)) rest ∧
      rest.Calls (·.writesPosts = false)

def SparesPosts (crew : Crew) : Prop :=
  ∀ rest, crew.rest? 1 = some rest → rest.Calls (·.writesPosts = false)

theorem sparesPosts_of_busy {script : Script} (busy : crew.rest? 1 = some script)
    (calls : script.Calls (·.writesPosts = false)) : crew.SparesPosts := by
  intro rest goesOn
  rw [busy] at goesOn
  cases goesOn
  exact calls

theorem sparesPosts_of_resting (resting : crew.rest? 1 = none) : crew.SparesPosts := by
  intro rest goesOn
  rw [resting] at goesOn
  cases goesOn

theorem SparesPosts.written_eq (spares : crew.SparesPosts) (begun : List Event) :
    crew.written begun = begun := by
  have sparesNext : (crew.next? 1).any Call.writesPosts = false := by
    cases pending : crew.next? 1 with
    | none => rfl
    | some call =>
        obtain ⟨rest, busy, makes⟩ := Option.bind_eq_some_iff.mp pending
        exact (spares rest busy).next? makes
  unfold written
  rw [sparesNext]
  rfl

theorem Propagated.unmoved {start : World} {begun : List Event}
    (propagated : Propagated context start id begun crew) (rest : next.rest? 1 = crew.rest? 1)
    (post : next.world.store.post? id = crew.world.store.post? id) :
    Propagated context start id begun next where
  followed := by
    have sameWritten : next.written begun = crew.written begun := by
      rw [written, next?, rest, ← next?, ← written]
    rw [sameWritten, post]
    exact propagated.followed
  point := by
    intro script busy
    rw [rest] at busy
    exact propagated.point script busy

theorem Propagated.begins {start : World} {begun : List Event} {event : Event}
    (propagated : Propagated context start id begun crew) (idle : crew.rest? 1 = none)
    (own : next.rest? 1 = some (UserPropagation.script context event))
    (world : next.world = crew.world) :
    Propagated context start id (begun ++ [event]) next := by
  have followed := propagated.followed
  rw [(sparesPosts_of_resting idle).written_eq] at followed
  rcases UserPropagation.script_cases context event with
    ⟨calls, nothing⟩ | ⟨userId, update, rest, carries, script, calls⟩
  · refine ⟨?_, fun script busy => ?_⟩
    · rw [(sparesPosts_of_busy own calls).written_eq, world]
      exact followed.append_of_written nothing
    · rw [own] at busy
      cases busy
      exact Or.inl calls
  · refine ⟨?_, fun started busy => ?_⟩
    · have pending : next.written (begun ++ [event]) = begun := by
        rw [written, next?, own, script]
        exact List.dropLast_concat
      rw [pending, world]
      exact followed
    · rw [own] at busy
      cases busy
      exact Or.inr ⟨begun, event, userId, update, rest, rfl, carries, script, calls⟩

/-- A step that is not to write the posts leaves them alone, and so do all that follow. -/
theorem Propagated.advances_sparing {start : World} {begun : List Event} {script : Script}
    (propagated : Propagated context start id begun crew) (busy : crew.rest? 1 = some script)
    (calls : script.Calls (·.writesPosts = false))
    (own : next.rest? 1 = (script.advance World.services crew.world).1.rest?)
    (world : next.world = (script.advance World.services crew.world).2) :
    Propagated context start id begun next := by
  have spares : next.SparesPosts := by
    intro rest goesOn
    rw [own] at goesOn
    exact calls.advance goesOn
  have post : next.world.store.post? id = crew.world.store.post? id := by
    rw [world]
    rcases World.advance_cases script crew.world with ⟨call, makes, advanced⟩ | ⟨_, store, _⟩
    · rw [advanced]
      exact World.post?_answer (calls.next? makes) crew.world id
    · rw [store]
  refine ⟨?_, fun rest goesOn => Or.inl (spares rest goesOn)⟩
  have followed := propagated.followed
  rw [(sparesPosts_of_busy busy calls).written_eq] at followed
  rw [spares.written_eq, post]
  exact followed

/-- The step that is to write the posts writes the last event over them. -/
theorem Propagated.advances_writing {start : World} {earlier : List Event} {event : Event}
    {userId : Int64} {update : AuthorUpdate} {rest : Script}
    (propagated : Propagated context start id (earlier ++ [event]) crew) (up : crew.world.IsUp)
    (busy : crew.rest? 1 = some (.attempt
      (.updateByUser .posts postAuthor.userField userId (postAuthor.updates update)) rest))
    (carries : event.rewrite? context = some (userId, update))
    (calls : rest.Calls (·.writesPosts = false)) (own : next.rest? 1 = some rest)
    (world : next.world = (World.answer
      (.updateByUser .posts postAuthor.userField userId (postAuthor.updates update))
      crew.world).2) :
    Propagated context start id (earlier ++ [event]) next := by
  have spares := sparesPosts_of_busy own calls
  have untouched : "_id" ∉ (postAuthor.updates update).map (·.1) :=
    not_mem_keys_updates update (by decide) (by decide)
  have post : next.world.store.post? id = (crew.world.store.post? id).map
      (updated postAuthor.userField userId (postAuthor.updates update)) := by
    rw [world]
    change (crew.world.store.updateByUser .posts _ _ _).2.post? id = _
    rw [post?_updateByUser untouched, if_pos ⟨rfl, up.collections .posts⟩]
  have pending : crew.written (earlier ++ [event]) = earlier := by
    rw [written, next?_of_busy busy]
    exact List.dropLast_concat
  refine ⟨?_, fun script goesOn => Or.inl (spares script goesOn)⟩
  have followed := propagated.followed
  rw [pending] at followed
  rw [spares.written_eq, post]
  exact followed.append carries

theorem Propagated.advances {start : World} {begun : List Event} {script : Script}
    (propagated : Propagated context start id begun crew) (up : crew.world.IsUp)
    (busy : crew.rest? 1 = some script)
    (own : next.rest? 1 = (script.advance World.services crew.world).1.rest?)
    (world : next.world = (script.advance World.services crew.world).2) :
    Propagated context start id begun next := by
  rcases propagated.point script busy with
    calls | ⟨earlier, event, userId, update, rest, rfl, carries, rfl, calls⟩
  · exact propagated.advances_sparing busy calls own world
  · obtain ⟨⟨count, replied⟩, _⟩ := up.answered
      (.updateByUser .posts postAuthor.userField userId (postAuthor.updates update))
    rw [Script.advance_attempt World.services rest replied] at own world
    exact propagated.advances_writing up busy carries calls own world

theorem Propagated.moved {start : World} {begun : List Event}
    (propagated : Propagated context start id begun crew) (paired : crew.Paired)
    (unchanged : step.changes id = false) (moved : PairMoved context crew next step) :
    Propagated context start id (begun ++ (step.begun? 1).toList) next := by
  have nothingBegun : step.begun? 1 = none → begun ++ (step.begun? 1).toList = begun := by
    intro begunNone
    rw [begunNone]
    exact List.append_nil begun
  cases moved with
  | indexBegins _ _ other world =>
      rw [nothingBegun rfl]
      exact propagated.unmoved other (by rw [world])
  | indexAdvances busy _ other world =>
      rw [nothingBegun rfl]
      exact propagated.unmoved other (by rw [world, (paired.stepped busy).store])
  | propagationBegins idle own _ world => exact propagated.begins idle own world
  | propagationAdvances busy own _ world =>
      rw [nothingBegun rfl]
      exact propagated.advances paired.up busy own world
  | contentChanges begunNone _ _ second _ _ post =>
      rw [nothingBegun (begunNone 1)]
      exact propagated.unmoved second (post id unchanged)

end Steps

/-! ## Runs -/

section Runs

variable {context : Context} {crew final : Crew} {steps : List CrewStep} {id : String}

def isIdentity (context : Context) (event : Event) : Bool := (event.rewrite? context).isSome

theorem mem_begunBy {worker : Nat} {event : Event} (member : .begin worker event ∈ steps) :
    event ∈ begunBy worker steps := by
  refine List.mem_filterMap.mpr ⟨_, member, ?_⟩
  exact if_pos rfl

theorem Paired.ran (paired : crew.Paired) (ran : crew.run? context steps = some final)
    (bare : ∀ event ∈ begunBy 0 steps, IsBare context event) : final.Paired := by
  refine run?_keeps Paired (fun crew next step member stepped paired => ?_) ran paired
  refine paired.moved (moved_of_step? stepped) fun event same => bare event (mem_begunBy ?_)
  rw [← same]
  exact member

/-- Without a reading of an id, a run writes over its author in the index what it begins to
handle. -/
theorem Paired.settled?_ran (paired : crew.Paired) (ran : crew.run? context steps = some final)
    (bare : ∀ event ∈ begunBy 0 steps, IsBare context event)
    (never : ∀ before there later,
      ¬crew.Makes context steps 0 (.findContent id) before there later) :
    final.settled? id = (crew.settled? id).map fun d =>
      (lastWritten context d.concerns (begunBy 0 steps)).apply d := by
  induction steps generalizing crew with
  | nil =>
      cases ran
      exact Option.map_id'.symm
  | cons step steps inductionHypothesis =>
      obtain ⟨next, stepped, rest⟩ := run?_cons.mp ran
      have moved := moved_of_step? stepped
      have bareStep : ∀ event, step = .begin 0 event → IsBare context event := by
        intro event same
        refine bare event (mem_begunBy ?_)
        rw [same]
        exact List.mem_cons_self
      have bareRest : ∀ event ∈ begunBy 0 steps, IsBare context event := by
        intro event member
        refine bare event ?_
        rw [begunBy_cons]
        exact List.mem_append_right _ member
      have noReading : step = .advance 0 → crew.next? 0 ≠ some (.findContent id) := by
        rintro rfl reads
        exact never [] crew steps (.here reads)
      have neverRest : ∀ before there later,
          ¬next.Makes context steps 0 (.findContent id) before there later :=
        fun before there later makes => never (step :: before) there later (makes.after stepped)
      rw [inductionHypothesis (paired.moved moved bareStep) rest bareRest neverRest,
        paired.settled?_moved (paired.pairMoved moved) bareStep noReading, Option.map_map,
        begunBy_cons]
      congr 1
      funext d
      rw [lastWritten_append, AuthorUpdate.apply_atop]
      rfl

theorem Paired.propagated_ran {start : World} (paired : crew.Paired)
    (ran : crew.run? context steps = some final)
    (bare : ∀ event ∈ begunBy 0 steps, IsBare context event)
    (unchanged : ∀ step ∈ steps, step.changes id = false) {begun : List Event}
    (propagated : Propagated context start id begun crew) :
    Propagated context start id (begun ++ begunBy 1 steps) final := by
  have tracked := run?_tracks 1
    (fun begun crew => crew.Paired ∧ Propagated context start id begun crew)
    (fun begun crew next step member stepped holds => ?_) ran ⟨paired, propagated⟩
  · exact tracked.2
  · have moved := moved_of_step? stepped
    refine ⟨holds.1.moved moved fun event same => bare event (mem_begunBy ?_),
      holds.2.moved holds.1 (unchanged step member) (holds.1.pairMoved moved)⟩
    rw [← same]
    exact member

/-- The last time that the index took over the author of an id from the posts: the start, or the
last reading of the record. -/
inductive Copied (context : Context) (start : Crew) (steps : List CrewStep) (id : String) :
    List CrewStep → Crew → List CrewStep → Prop where
  | start :
      (∀ before there later,
        ¬start.Makes context steps 0 (.findContent id) before there later) →
      Copied context start steps id [] start steps
  | reading {before : List CrewStep} {there : Crew} {later : List CrewStep} :
      start.Makes context steps 0 (.findContent id) before there later →
      (∀ before' there' later',
        start.Makes context steps 0 (.findContent id) before' there' later' →
        later.length ≤ later'.length) →
      Copied context start steps id before there later

theorem exists_copied (id : String) (ran : crew.run? context steps = some final) :
    ∃ before there later, Copied context crew steps id before there later := by
  rcases exists_last_makes 0 (.findContent id) ran with never | ⟨before, there, later, makes, last⟩
  · exact ⟨[], crew, steps, .start never⟩
  · exact ⟨before, there, later, .reading makes last⟩

section Copied

variable {start there : Crew} {before later : List CrewStep}

theorem Copied.reached (copied : Copied context start steps id before there later) :
    start.run? context before = some there := by
  cases copied with
  | start _ => rfl
  | reading makes _ => exact makes.reached

theorem Copied.mem_of_before (copied : Copied context start steps id before there later) :
    ∀ step ∈ before, step ∈ steps := by
  cases copied with
  | start _ =>
      intro step member
      cases member
  | reading makes _ =>
      intro step member
      rw [makes.split]
      exact List.mem_append_left _ member

/-- Both queues go on after the last reading where they stood before it. -/
theorem Copied.begunBy_eq (copied : Copied context start steps id before there later)
    (worker : Nat) : begunBy worker steps = begunBy worker before ++ begunBy worker later := by
  cases copied with
  | start _ => rfl
  | reading makes _ =>
      rw [makes.split, begunBy_append, begunBy_cons]
      rfl

end Copied

/-- The identity events that the first worker has taken but that have not reached the posts. -/
def missed (context : Context) (before : List CrewStep) (there : Crew) : List Event :=
  ((begunBy 0 before).filter (isIdentity context)).drop (there.written (begunBy 1 before)).length

/-- Two queues of the same events: whatever one of them is ahead of the other, the events that a
reading missed and those handled after it make up for the events that have not been written yet. -/
theorem lastWritten_missed (context : Context) (concerns : Int64 → Bool)
    {reached earlier later : List Event}
    (queued : reached <+: (earlier ++ later).filter (isIdentity context)) :
    (lastWritten context concerns
        ((earlier.filter (isIdentity context)).drop reached.length ++ later)).atop
      (lastWritten context concerns reached) =
    lastWritten context concerns (earlier ++ later) := by
  have unfiltered : ∀ events, lastWritten context concerns (events.filter (isIdentity context)) =
      lastWritten context concerns events := lastWritten_filter context concerns
  rw [List.filter_append] at queued
  rw [lastWritten_append, AuthorUpdate.atop_assoc, lastWritten_append context concerns earlier,
    ← unfiltered earlier, ← unfiltered later]
  generalize earlier.filter (isIdentity context) = told at *
  generalize later.filter (isIdentity context) = rest at *
  -- Which of the two queues is ahead decides what has been missed and what is repeated.
  rcases Nat.le_total reached.length told.length with behind | ahead
  · obtain ⟨missed, rfl⟩ := List.prefix_of_prefix_length_le queued (List.prefix_append told rest)
      behind
    rw [List.drop_left, ← lastWritten_append]
  · obtain ⟨extra, rfl⟩ := List.prefix_of_prefix_length_le (List.prefix_append told rest) queued
      ahead
    obtain ⟨remaining, rfl⟩ := (List.prefix_append_right_inj told).mp queued
    rw [List.drop_of_length_le ahead, lastWritten, AuthorUpdate.empty_atop, lastWritten_append
      context concerns told, ← AuthorUpdate.atop_assoc, lastWritten_append_atop_self]

/-- A run of a pair that drains both queues. At the start the index has the author of an id from
the posts; then events are published, and each worker takes its own in their order. -/
structure PairDrained (context : Context) (world : World) (published : List Event) (id : String)
    (steps : List CrewStep) (final : Crew) : Prop where
  up : world.IsUp
  copied : ∀ d, world.index.get? id = some d → ∃ record, world.store.content? id = some record ∧
    d.userId = record.authorId ∧ d.author = record.author
  bare : ∀ event ∈ published, IsBare context event
  ran : (fresh world [.indexSync, .userPropagation]).run? context steps = some final
  idle : final.isIdle = true
  unchanged : ∀ step ∈ steps, step.changes id = false
  indexQueue : begunBy 0 steps = published
  propagationQueue : begunBy 1 steps = published.filter (isIdentity context)

section Agreement

variable {world : World} {published : List Event} {before later : List CrewStep} {there : Crew}

theorem paired_fresh (up : world.IsUp) : (fresh world [.indexSync, .userPropagation]).Paired where
  up := up
  routes := routes_fresh world _
  points := by
    intro script busy
    rw [rest?_fresh] at busy
    cases busy
  calls := by
    intro script busy
    rw [rest?_fresh] at busy
    cases busy

theorem settled?_of_rest? (idle : crew.rest? 0 = none) :
    crew.settled? id = crew.world.index.get? id := by
  rw [settled?, next?_of_resting idle, carried_none]

theorem propagated_fresh (context : Context) (world : World) (id : String) :
    Propagated context world id [] (fresh world [.indexSync, .userPropagation]) := by
  have spares := sparesPosts_of_resting (rest?_fresh world [.indexSync, .userPropagation] 1)
  refine ⟨?_, fun script busy => Or.inl (spares script busy)⟩
  rw [spares.written_eq]
  exact followed_nil _

theorem PairDrained.bareSteps (drained : PairDrained context world published id steps final) :
    ∀ event ∈ begunBy 0 steps, IsBare context event := by
  rw [drained.indexQueue]
  exact drained.bare

theorem PairDrained.bareBefore (drained : PairDrained context world published id steps final)
    (copied : Copied context (fresh world [.indexSync, .userPropagation]) steps id before there
      later) :
    ∀ event ∈ begunBy 0 before, IsBare context event := by
  intro event member
  refine drained.bareSteps event ?_
  rw [copied.begunBy_eq]
  exact List.mem_append_left _ member

theorem PairDrained.bareLater (drained : PairDrained context world published id steps final)
    (copied : Copied context (fresh world [.indexSync, .userPropagation]) steps id before there
      later) :
    ∀ event ∈ begunBy 0 later, IsBare context event := by
  intro event member
  refine drained.bareSteps event ?_
  rw [copied.begunBy_eq]
  exact List.mem_append_right _ member

/-- The events that have reached the posts stand first in the queue of identity events. -/
theorem PairDrained.written_prefix
    (drained : PairDrained context world published id steps final)
    (copied : Copied context (fresh world [.indexSync, .userPropagation]) steps id before there
      later) :
    there.written (begunBy 1 before) <+:
      (begunBy 0 before ++ begunBy 0 later).filter (isIdentity context) := by
  rw [← copied.begunBy_eq, drained.indexQueue, ← drained.propagationQueue, copied.begunBy_eq 1]
  refine List.IsPrefix.trans ?_ (List.prefix_append _ _)
  unfold written
  split
  · exact List.dropLast_prefix _
  · exact List.prefix_refl _

theorem PairDrained.author_indexed (drained : PairDrained context world published id steps final)
    (copied : Copied context (fresh world [.indexSync, .userPropagation]) steps id before there
      later)
    {d : IndexDocument} (indexed : final.world.index.get? id = some d) :
    ∃ read, there.world.store.post? id = some read ∧
      d.author = (lastWritten context d.concerns (begunBy 0 later)).on (postAuthor.author read) := by
  have bareBefore := drained.bareBefore copied
  have bareLater := drained.bareLater copied
  have paired := paired_fresh drained.up
  have settled : final.settled? id = some d := by
    rw [settled?_of_rest? (rest?_of_isIdle drained.idle 0)]
    exact indexed
  -- After the last reading the index only takes in what the first worker begins to handle.
  cases copied with
  | start never =>
      rw [paired.settled?_ran drained.ran drained.bareSteps never,
        settled?_of_rest? (rest?_fresh world _ 0)] at settled
      obtain ⟨first, found, rfl⟩ := Option.map_eq_some_iff.mp settled
      obtain ⟨record, content, sameUser, sameAuthor⟩ := drained.copied first found
      obtain ⟨read, post, rfl⟩ := Option.map_eq_some_iff.mp content
      refine ⟨read, post, ?_⟩
      rw [AuthorUpdate.author_apply, AuthorUpdate.concerns_apply, sameAuthor, author_record]
  | reading makes last =>
      obtain ⟨next, stepped, rest⟩ := makes.goesOn drained.ran
      have moved := moved_of_step? stepped
      have pairedThere := paired.ran makes.reached bareBefore
      have pairedNext := pairedThere.moved moved fun event same => by cases same
      have never := makes.never_again last stepped
      rw [pairedNext.settled?_ran rest bareLater never] at settled
      obtain ⟨first, found, rfl⟩ := Option.map_eq_some_iff.mp settled
      obtain ⟨record, content, keeps⟩ :=
        pairedThere.settled?_read (pairedThere.pairMoved moved) makes.pending found
      obtain ⟨read, post, rfl⟩ := Option.map_eq_some_iff.mp content
      refine ⟨read, post, ?_⟩
      rw [AuthorUpdate.author_apply, AuthorUpdate.concerns_apply, keeps.2.2, author_record]

theorem PairDrained.author_posted (drained : PairDrained context world published id steps final)
    (copied : Copied context (fresh world [.indexSync, .userPropagation]) steps id before there
      later)
    {read : Document} (post : there.world.store.post? id = some read) :
    ∃ record, final.world.store.content? id = some record ∧
      record.author = (lastWritten context (read.names postAuthor.userField)
        (missed context before there ++ begunBy 0 later)).on (postAuthor.author read) := by
  have paired := paired_fresh drained.up
  have atStart := propagated_fresh context world id
  have atThere := (paired.propagated_ran copied.reached (drained.bareBefore copied)
    (fun step member => drained.unchanged step (copied.mem_of_before step member)) atStart).followed
  have atFinal :=
    (paired.propagated_ran drained.ran drained.bareSteps drained.unchanged atStart).followed
  have allWritten : final.written (begunBy 1 steps) = begunBy 1 steps :=
    (sparesPosts_of_resting (rest?_of_isIdle drained.idle 1)).written_eq _
  rw [List.nil_append] at atThere atFinal
  rw [post] at atThere
  rw [allWritten] at atFinal
  -- The posts at the start, at the last reading and in the end, one following the other.
  generalize world.store.post? id = first at atThere atFinal
  cases atThere with
  | @some origin _ followsThere =>
      generalize last : final.world.store.post? id = lastPost at atFinal
      cases atFinal with
      | @some _ post followsFinal =>
          refine ⟨post.record, by rw [content?, last]; rfl, ?_⟩
          have sameNames : read.names postAuthor.userField = origin.names postAuthor.userField :=
            funext followsThere.names
          rw [author_record, followsFinal.author, followsThere.author, sameNames,
            ← AuthorUpdate.on_atop, missed, lastWritten_missed context _
              (drained.written_prefix copied),
            ← copied.begunBy_eq, drained.propagationQueue, drained.indexQueue]
          exact congrArg (AuthorUpdate.on · _) (lastWritten_filter context _ published)

/-- Once both queues are drained, the author of an indexed document is that of its record exactly
when the identity events that its last reading missed make no difference. -/
theorem author_eq_iff_missed (drained : PairDrained context world published id steps final)
    {d : IndexDocument} (indexed : final.world.index.get? id = some d) :
    ∃ before there later read record,
      Copied context (fresh world [.indexSync, .userPropagation]) steps id before there later ∧
        there.world.store.post? id = some read ∧ final.world.store.content? id = some record ∧
        (d.author = record.author ↔
          (lastWritten context d.concerns (begunBy 0 later)).on (postAuthor.author read) =
            (lastWritten context (read.names postAuthor.userField)
              (missed context before there ++ begunBy 0 later)).on (postAuthor.author read)) := by
  obtain ⟨before, there, later, copied⟩ := exists_copied id drained.ran
  obtain ⟨read, post, authorIndexed⟩ := drained.author_indexed copied indexed
  obtain ⟨record, content, authorPosted⟩ := drained.author_posted copied post
  refine ⟨before, there, later, read, record, copied, post, content, ?_⟩
  rw [authorIndexed, authorPosted]

/-- The user takes another name, and the post changes. -/
def renamedThenUpdated : List Event :=
  [.identityUpdated { userId := 7, newDisplayName := some "Bea" }, .contentUpdated ⟨"p"⟩]

/-- The name reaches the posts before the index is told of it. -/
def propagatedFirst : List CrewStep :=
  .begin 1 (.identityUpdated { userId := 7, newDisplayName := some "Bea" }) ::
    List.replicate 7 (.advance 1) ++
    [.begin 0 (.identityUpdated { userId := 7, newDisplayName := some "Bea" }), .advance 0,
      .advance 0, .begin 0 (.contentUpdated ⟨"p"⟩), .advance 0, .advance 0, .advance 0]

/-- The changed post is read before the name has reached it. -/
def readFirst : List CrewStep :=
  [.begin 0 (.identityUpdated { userId := 7, newDisplayName := some "Bea" }), .advance 0,
    .advance 0, .begin 0 (.contentUpdated ⟨"p"⟩), .advance 0, .advance 0, .advance 0] ++
    .begin 1 (.identityUpdated { userId := 7, newDisplayName := some "Bea" }) ::
    List.replicate 7 (.advance 1)

private theorem pairDrained_authored {steps : List CrewStep}
    (ran : (fresh World.authored [.indexSync, .userPropagation]).run? .plain steps = some final)
    (idle : final.isIdle = true) (unchanged : ∀ step ∈ steps, step.changes "p" = false)
    (indexQueue : begunBy 0 steps = renamedThenUpdated)
    (propagationQueue : begunBy 1 steps = renamedThenUpdated.filter (isIdentity .plain)) :
    PairDrained .plain World.authored renamedThenUpdated "p" steps final where
  up := ⟨fun collection => by cases collection <;> rfl, rfl⟩
  copied := by
    intro d indexed
    have isDocument : World.authored.index.get? "p" =
        some { id := "p", userId := 7, userNickname := "Ann" } := by decide +kernel
    rw [isDocument] at indexed
    cases indexed
    refine ⟨{ id := "p", authorId := 7, authorName := "Ann", status := 1 }, ?_, rfl, rfl⟩
    decide +kernel
  bare := by
    intro event member
    have either : event = .identityUpdated { userId := 7, newDisplayName := some "Bea" } ∨
        event = .contentUpdated ⟨"p"⟩ := by
      simpa [renamedThenUpdated] using member
    rcases either with rfl | rfl
    · exact Or.inl rfl
    · exact Or.inr ⟨_, rfl⟩
  ran := ran
  idle := idle
  unchanged := unchanged
  indexQueue := indexQueue
  propagationQueue := propagationQueue

/-- Nothing has been missed when the name reaches the posts first. -/
theorem author_eq_of_propagatedFirst :
    ∃ final d, PairDrained .plain World.authored renamedThenUpdated "p" propagatedFirst final ∧
      final.world.index.get? "p" = some d ∧
      ∃ before there later read record,
        Copied .plain (fresh World.authored [.indexSync, .userPropagation]) propagatedFirst "p"
            before there later ∧
          there.world.store.post? "p" = some read ∧
          final.world.store.content? "p" = some record ∧
          (d.author = record.author ↔
            (lastWritten .plain d.concerns (begunBy 0 later)).on (postAuthor.author read) =
              (lastWritten .plain (read.names postAuthor.userField)
                (missed .plain before there ++ begunBy 0 later)).on (postAuthor.author read)) := by
  let final := ((fresh World.authored [.indexSync, .userPropagation]).run? .plain
    propagatedFirst).get (by decide +kernel)
  have drained : PairDrained .plain World.authored renamedThenUpdated "p" propagatedFirst final :=
    pairDrained_authored (Option.some_get _).symm (by decide +kernel) (by decide +kernel)
      (by decide +kernel) (by decide +kernel)
  have indexed : final.world.index.get? "p" =
      some { id := "p", userId := 7, userNickname := "Bea" } := by decide +kernel
  exact ⟨final, _, drained, indexed, author_eq_iff_missed drained indexed⟩

/-- When the changed post is read first, the index goes back to the old name for good. -/
theorem author_ne_of_readFirst :
    ∃ final d record,
      PairDrained .plain World.authored renamedThenUpdated "p" readFirst final ∧
        final.world.index.get? "p" = some d ∧ final.world.store.content? "p" = some record ∧
        record.isIndexable = true ∧ d.author ≠ record.author := by
  let final := ((fresh World.authored [.indexSync, .userPropagation]).run? .plain
    readFirst).get (by decide +kernel)
  have drained : PairDrained .plain World.authored renamedThenUpdated "p" readFirst final :=
    pairDrained_authored (Option.some_get _).symm (by decide +kernel) (by decide +kernel)
      (by decide +kernel) (by decide +kernel)
  refine ⟨final, { id := "p", userId := 7, userNickname := "Ann" },
    { id := "p", authorId := 7, authorName := "Bea", status := 1 }, drained, ?_, ?_, ?_, ?_⟩
  · decide +kernel
  · decide +kernel
  · decide
  · decide

end Agreement

end Runs

end DualStore.Memory.Crew
