import DualStore.Memory.World
import DualStore.Proofs.Memory.Posts
import DualStore.Proofs.Sync.Script

/-!
Contract: workers that handle deliveries side by side, over the two stores in memory.

Owns:
- the steps of a script, one for each call, and the fact that they make up its run;
- crews: a world and workers, each of which handles one delivery at a time;
- the steps of a crew, in which workers, the content service and the broker take turns in any
  order, and what a step can change;
- the calls made in a run, and the last time that a call is made.

Does not own: which calls hurt each other.
-/

namespace DualStore

/-! ## The steps of a script -/

/-- What a step leaves of a script: the rest of it, or its end. -/
inductive Stage where
  | going (rest : Script)
  | ended (run : Run)

def Stage.rest? : Stage → Option Script
  | going rest => some rest
  | ended _ => none

namespace Script

variable {σ : Type}

/-- One step of a script: a call, a reading of the clock, or its end. -/
def advance (services : Services σ) : Script → σ → Stage × σ
  | finish result, state => (.ended (.finished result), state)
  | perform call resume, state =>
      match services.answer call state with
      | (.replied result, after) => (.going (resume result), after)
      | (.panicked message, after) => (.ended (.panicked message), after)
  | readClock resume, state =>
      (.going (resume (services.clock state).1), (services.clock state).2)

def next? : Script → Option Call
  | perform call _ => some call
  | _ => none

/-- A script that is carried out step by step ends as its run does. -/
theorem run_advance (services : Services σ) (script : Script) (state : σ) :
    script.run services state =
      match script.advance services state with
      | (.going rest, after) => rest.run services after
      | (.ended run, after) => (run, after) := by
  cases script with
  | finish result => rfl
  | readClock resume => rfl
  | perform command resume =>
      rw [run, advance]
      rcases services.answer command state with ⟨answer, after⟩
      cases answer <;> rfl

theorem advance_call (services : Services σ) {command : Call} {next : command.Reply → Script}
    {state : σ} {reply : command.Reply}
    (replied : (services.answer command state).1 = .replied (.ok reply)) :
    (call command next).advance services state =
      (.going (next reply), (services.answer command state).2) := by
  have answered : services.answer command state =
      (.replied (.ok reply), (services.answer command state).2) := Prod.ext replied rfl
  rw [call, advance, answered]

theorem advance_attempt (services : Services σ) {command : Call} (next : Script) {state : σ}
    {result : Except SyncError command.Reply}
    (replied : (services.answer command state).1 = .replied result) :
    (attempt command next).advance services state =
      (.going next, (services.answer command state).2) := by
  have answered : services.answer command state =
      (.replied result, (services.answer command state).2) := Prod.ext replied rfl
  rw [attempt, advance, answered]

theorem Calls.next? {property : Call → Prop} {script : Script} {call : Call}
    (calls : script.Calls property) (makes : script.next? = some call) : property call := by
  cases script with
  | perform command resume =>
      cases makes
      exact calls.1
  | finish result => cases makes
  | readClock resume => cases makes

theorem Calls.advance {services : Services σ} {property : Call → Prop} {script rest : Script}
    {state : σ} (calls : script.Calls property)
    (goesOn : (script.advance services state).1.rest? = some rest) : rest.Calls property := by
  cases script with
  | finish result => cases goesOn
  | readClock resume =>
      cases goesOn
      exact calls _
  | perform command resume =>
      rw [Script.advance] at goesOn
      split at goesOn
      · rename_i result after _
        cases goesOn
        exact calls.2 result
      · cases goesOn

end Script

def Stage.next? (stage : Stage) : Option Call := stage.rest?.bind Script.next?

namespace Memory

/-- A step puts the next call to the stores, or leaves both of them alone. -/
theorem World.advance_cases (script : Script) (world : World) :
    (∃ call, script.next? = some call ∧
      (script.advance services world).2 = (answer call world).2) ∨
    (script.next? = none ∧ (script.advance services world).2.store = world.store ∧
      (script.advance services world).2.index = world.index) := by
  cases script with
  | finish result => exact Or.inr ⟨rfl, rfl, rfl⟩
  | readClock resume => exact Or.inr ⟨rfl, rfl, rfl⟩
  | perform command resume =>
      left
      refine ⟨command, rfl, ?_⟩
      rw [Script.advance]
      split
      · rename_i result after answered
        exact (congrArg Prod.snd answered).symm
      · rename_i message after answered
        exact (congrArg Prod.snd answered).symm

/-! ## Crews -/

/-- A worker of a route, with what is left to do about the delivery that it handles. -/
structure Worker where
  route : Route
  rest : Option Script := none

structure Crew where
  world : World
  workers : List Worker

/-- One step of a crew: a worker takes a delivery or goes one step on with it, or the content
service puts or drops a post. -/
inductive CrewStep where
  | begin (worker : Nat) (event : Event)
  | advance (worker : Nat)
  | put (post : Document)
  | drop (id : String)

namespace CrewStep

/-- Whether a step changes the post of an id. -/
def changes (id : String) : CrewStep → Bool
  | put post => DocumentStore.hasId id post
  | drop dropped => dropped == id
  | _ => false

/-- The event of a delivery that a worker takes. -/
def begun? (worker : Nat) : CrewStep → Option Event
  | begin taker event => if taker = worker then some event else none
  | _ => none

end CrewStep

namespace Crew

/-- Idle workers of the given routes. -/
def fresh (world : World) (routes : List Route) : Crew := ⟨world, routes.map ({ route := · })⟩

def routes (crew : Crew) : List Route := crew.workers.map (·.route)

/-- What is left to do for a worker. -/
def rest? (crew : Crew) (worker : Nat) : Option Script := crew.workers[worker]?.bind (·.rest)

def next? (crew : Crew) (worker : Nat) : Option Call := (crew.rest? worker).bind Script.next?

def isIdle (crew : Crew) : Bool := crew.workers.all (·.rest.isNone)

/-- Gives a worker something to do, or nothing. -/
def setRest (crew : Crew) (worker : Nat) (rest : Option Script) : Crew :=
  { crew with workers := crew.workers.modify worker fun turned => { turned with rest } }

/-- One step; a worker takes a delivery only while it is idle. -/
def step? (context : Context) (crew : Crew) : CrewStep → Option Crew
  | .begin worker event =>
      match crew.workers[worker]? with
      | some ⟨route, none⟩ => some (crew.setRest worker (some (route.script context event)))
      | _ => none
  | .advance worker =>
      match crew.rest? worker with
      | some script =>
          let (stage, world) := script.advance World.services crew.world
          some { crew.setRest worker stage.rest? with world }
      | none => none
  | .put post =>
      some { crew with world := { crew.world with store := crew.world.store.putPost post } }
  | .drop id =>
      some { crew with world := { crew.world with store := crew.world.store.dropPost id } }

def run? (context : Context) : Crew → List CrewStep → Option Crew
  | crew, [] => some crew
  | crew, step :: steps => (crew.step? context step).bind fun next => next.run? context steps

/-- The events of the deliveries that a worker takes, in their order. -/
def begunBy (worker : Nat) (steps : List CrewStep) : List Event :=
  steps.filterMap (·.begun? worker)

/-- A worker makes a call in a run: the steps before it lead to a crew in which it is the next
call of the worker. -/
structure Makes (context : Context) (crew : Crew) (steps : List CrewStep) (worker : Nat)
    (call : Call) (before : List CrewStep) (there : Crew) (later : List CrewStep) : Prop where
  split : steps = before ++ .advance worker :: later
  reached : crew.run? context before = some there
  pending : there.next? worker = some call

theorem rest?_fresh (world : World) (routes : List Route) (worker : Nat) :
    (fresh world routes).rest? worker = none := by
  unfold rest? fresh
  rw [List.getElem?_map]
  cases routes[worker]? <;> rfl

theorem routes_fresh (world : World) (routes : List Route) :
    (fresh world routes).routes = routes := by
  rw [Crew.routes, fresh, List.map_map]
  exact List.map_id routes

/-! ### What a step changes -/

variable {context : Context} {crew next : Crew} {step : CrewStep}

/-- Only one worker turns, and none changes its route. -/
structure Turned (crew next : Crew) (worker : Nat) (rest : Option Script) : Prop where
  routes : next.routes = crew.routes
  own : next.rest? worker = rest
  others : ∀ other, other ≠ worker → next.rest? other = crew.rest? other

theorem turned_setRest {worker : Nat} (known : worker < crew.workers.length)
    (rest : Option Script) : Turned crew (crew.setRest worker rest) worker rest where
  routes := by
    unfold routes setRest
    apply List.ext_getElem?
    intro other
    rw [List.getElem?_map, List.getElem?_map, List.getElem?_modify]
    cases crew.workers[other]? with
    | none => rfl
    | some turned =>
        by_cases same : worker = other <;> simp [same]
  own := by
    simp [rest?, setRest, known]
  others := by
    intro other distinct
    have apart : worker ≠ other := fun equal => distinct equal.symm
    simp [rest?, setRest, apart]

inductive Moved (context : Context) (crew next : Crew) : CrewStep → Prop where
  | begin {worker : Nat} {event : Event} {route : Route} :
      crew.routes[worker]? = some route → crew.rest? worker = none →
      Turned crew next worker (some (route.script context event)) → next.world = crew.world →
      Moved context crew next (.begin worker event)
  | advance {worker : Nat} {script : Script} :
      crew.rest? worker = some script →
      Turned crew next worker (script.advance World.services crew.world).1.rest? →
      next.world = (script.advance World.services crew.world).2 →
      Moved context crew next (.advance worker)
  | put {post : Document} :
      next.workers = crew.workers →
      next.world = { crew.world with store := crew.world.store.putPost post } →
      Moved context crew next (.put post)
  | drop {id : String} :
      next.workers = crew.workers →
      next.world = { crew.world with store := crew.world.store.dropPost id } →
      Moved context crew next (.drop id)

theorem moved_of_step? (stepped : crew.step? context step = some next) :
    Moved context crew next step := by
  cases step with
  | begin worker event =>
      rw [step?] at stepped
      split at stepped
      · rename_i route found
        obtain ⟨known, _⟩ := List.getElem?_eq_some_iff.mp found
        cases stepped
        have isRoute : crew.routes[worker]? = some route := by
          rw [routes, List.getElem?_map, found]
          rfl
        have idle : crew.rest? worker = none := by
          rw [rest?, found]
          rfl
        exact .begin isRoute idle (turned_setRest known _) rfl
      · cases stepped
  | advance worker =>
      rw [step?] at stepped
      split at stepped
      · rename_i script busy
        obtain ⟨turned, found, _⟩ := Option.bind_eq_some_iff.mp busy
        obtain ⟨known, _⟩ := List.getElem?_eq_some_iff.mp found
        cases stepped
        have turns := turned_setRest known (script.advance World.services crew.world).1.rest?
        exact .advance busy ⟨turns.routes, turns.own, turns.others⟩ rfl
      · cases stepped
  | put post =>
      cases stepped
      exact .put rfl rfl
  | drop id =>
      cases stepped
      exact .drop rfl rfl

theorem Moved.routes (moved : Moved context crew next step) : next.routes = crew.routes := by
  cases moved with
  | begin _ _ turned _ => exact turned.routes
  | advance _ turned _ => exact turned.routes
  | put workers _ => rw [Crew.routes, workers, Crew.routes]
  | drop workers _ => rw [Crew.routes, workers, Crew.routes]

theorem route_of_busy {worker : Nat} {script : Script} (busy : crew.rest? worker = some script) :
    ∃ route, crew.routes[worker]? = some route := by
  obtain ⟨turned, found, _⟩ := Option.bind_eq_some_iff.mp busy
  refine ⟨turned.route, ?_⟩
  rw [routes, List.getElem?_map, found]
  rfl

/-- A worker that is busy stays as it is until it advances. -/
theorem Moved.rest?_of_busy (moved : Moved context crew next step) {worker : Nat} {script : Script}
    (busy : crew.rest? worker = some script) (waits : step ≠ .advance worker) :
    next.rest? worker = some script := by
  cases moved with
  | @begin taker event route _ idle turned _ =>
      have distinct : worker ≠ taker := by
        intro same
        rw [same, idle] at busy
        cases busy
      rw [turned.others worker distinct, busy]
  | @advance taker _ _ turned _ =>
      have distinct : worker ≠ taker := fun same => waits (by rw [same])
      rw [turned.others worker distinct, busy]
  | put workers _ => rw [rest?, workers, ← busy, rest?]
  | drop workers _ => rw [rest?, workers, ← busy, rest?]

theorem next?_of_rest? {worker : Nat} {stage : Stage} (rest : crew.rest? worker = stage.rest?) :
    crew.next? worker = stage.next? := by
  rw [next?, rest]
  rfl

theorem next?_of_busy {worker : Nat} {script : Script} (busy : crew.rest? worker = some script) :
    crew.next? worker = script.next? := by
  rw [next?, busy]
  rfl

theorem next?_of_resting {worker : Nat} (resting : crew.rest? worker = none) :
    crew.next? worker = none := by
  rw [next?, resting]
  rfl

theorem Moved.next?_of_pending (moved : Moved context crew next step) {worker : Nat} {call : Call}
    (pending : crew.next? worker = some call) (waits : step ≠ .advance worker) :
    next.next? worker = some call := by
  obtain ⟨script, busy, makes⟩ := Option.bind_eq_some_iff.mp pending
  rw [next?, moved.rest?_of_busy busy waits]
  exact makes

/-! ### Runs -/

theorem run?_cons {steps : List CrewStep} {final : Crew} :
    crew.run? context (step :: steps) = some final ↔
      ∃ next, crew.step? context step = some next ∧ next.run? context steps = some final :=
  Option.bind_eq_some_iff

theorem run?_append (crew : Crew) (before later : List CrewStep) :
    crew.run? context (before ++ later) =
      (crew.run? context before).bind fun there => there.run? context later := by
  induction before generalizing crew with
  | nil => rfl
  | cons step before inductionHypothesis =>
      rw [List.cons_append, run?, run?]
      cases crew.step? context step with
      | none => rfl
      | some next => exact inductionHypothesis next

/-- What every step keeps holds after a run. -/
theorem run?_keeps (invariant : Crew → Prop) {steps : List CrewStep} {final : Crew}
    (kept : ∀ (crew next : Crew), ∀ step ∈ steps, crew.step? context step = some next →
      invariant crew → invariant next)
    (ran : crew.run? context steps = some final) (holds : invariant crew) : invariant final := by
  induction steps generalizing crew with
  | nil =>
      cases ran
      exact holds
  | cons step steps inductionHypothesis =>
      obtain ⟨next, stepped, rest⟩ := run?_cons.mp ran
      exact inductionHypothesis
        (fun crew next later member => kept crew next later (by simp [member]))
        rest (kept crew next step (by simp) stepped holds)

theorem rest?_of_isIdle (idle : crew.isIdle = true) (worker : Nat) : crew.rest? worker = none := by
  unfold rest?
  cases found : crew.workers[worker]? with
  | none => rfl
  | some resting =>
      have member := List.mem_of_getElem? found
      have none := List.all_eq_true.mp idle resting member
      exact Option.isNone_iff_eq_none.mp none

theorem next?_of_isIdle (idle : crew.isIdle = true) (worker : Nat) : crew.next? worker = none := by
  exact next?_of_resting (rest?_of_isIdle idle worker)

section Makes

variable {steps before later : List CrewStep} {worker : Nat} {call : Call} {there : Crew}

theorem Makes.here (pending : crew.next? worker = some call) :
    crew.Makes context (.advance worker :: steps) worker call [] crew steps :=
  ⟨rfl, rfl, pending⟩

theorem Makes.after (stepped : crew.step? context step = some next)
    (makes : next.Makes context steps worker call before there later) :
    crew.Makes context (step :: steps) worker call (step :: before) there later where
  split := by rw [makes.split, List.cons_append]
  reached := run?_cons.mpr ⟨next, stepped, makes.reached⟩
  pending := makes.pending

/-- The crew after a call has been made goes on with the later steps. -/
theorem Makes.goesOn {final : Crew}
    (makes : crew.Makes context steps worker call before there later)
    (ran : crew.run? context steps = some final) :
    ∃ next, there.step? context (.advance worker) = some next ∧
      next.run? context later = some final := by
  rw [makes.split, run?_append, makes.reached] at ran
  exact run?_cons.mp ran

/-- A call in a run is its first step, or it is made after that. -/
theorem Makes.cases (stepped : crew.step? context step = some next)
    (makes : crew.Makes context (step :: steps) worker call before there later) :
    (step = .advance worker ∧ crew.next? worker = some call ∧ later = steps) ∨
      ∃ between, next.Makes context steps worker call between there later := by
  obtain ⟨split, reached, pending⟩ := makes
  cases before with
  | nil =>
      left
      obtain ⟨sameStep, sameSteps⟩ := List.cons.inj split
      cases reached
      exact ⟨sameStep, pending, sameSteps.symm⟩
  | cons first between =>
      right
      obtain ⟨rfl, sameSteps⟩ := List.cons.inj split
      obtain ⟨other, steppedOther, rest⟩ := run?_cons.mp reached
      rw [stepped] at steppedOther
      cases steppedOther
      exact ⟨between, sameSteps, rest, pending⟩

/-- A call that is made in a run is made there for the last time at some step. -/
theorem exists_last_makes {final : Crew} (worker : Nat) (call : Call)
    (ran : crew.run? context steps = some final) :
    (∀ before there later, ¬crew.Makes context steps worker call before there later) ∨
      ∃ before there later, crew.Makes context steps worker call before there later ∧
        ∀ before' there' later', crew.Makes context steps worker call before' there' later' →
          later.length ≤ later'.length := by
  induction steps generalizing crew with
  | nil =>
      left
      intro before there later makes
      have split := makes.split
      simp at split
  | cons step steps inductionHypothesis =>
      obtain ⟨next, stepped, rest⟩ := run?_cons.mp ran
      -- A call made in the rest comes later than one made in the first step.
      rcases inductionHypothesis rest with never | ⟨before, there, later, makes, last⟩
      · by_cases turn : step = .advance worker ∧ crew.next? worker = some call
        · obtain ⟨rfl, pending⟩ := turn
          refine Or.inr ⟨[], crew, steps, .here pending, ?_⟩
          intro before' there' later' other
          rcases other.cases stepped with ⟨_, _, same⟩ | ⟨between, makes⟩
          · exact Nat.le_of_eq (by rw [same])
          · exact absurd makes (never between there' later')
        · left
          intro before there later makes
          rcases makes.cases stepped with ⟨same, pending, _⟩ | ⟨between, makes⟩
          · exact turn ⟨same, pending⟩
          · exact never between there later makes
      · refine Or.inr ⟨step :: before, there, later, makes.after stepped, ?_⟩
        intro before' there' later' other
        rcases other.cases stepped with ⟨_, _, same⟩ | ⟨between, makesOther⟩
        · rw [same, makes.split, List.length_append, List.length_cons]
          omega
        · exact last between there' later' makesOther

/-- After a call has been made for the last time it is not made again. -/
theorem Makes.never_again (makes : crew.Makes context steps worker call before there later)
    (last : ∀ before' there' later', crew.Makes context steps worker call before' there' later' →
      later.length ≤ later'.length)
    (stepped : there.step? context (.advance worker) = some next)
    (before' : List CrewStep) (there' : Crew) (later' : List CrewStep) :
    ¬next.Makes context later worker call before' there' later' := by
  intro again
  have shorter := again.split
  have atLeast := last (before ++ .advance worker :: before') there' later'
    { split := by
        rw [makes.split, shorter]
        simp
      reached := by
        rw [run?_append, makes.reached]
        exact run?_cons.mpr ⟨next, stepped, again.reached⟩
      pending := again.pending }
  rw [shorter, List.length_append, List.length_cons] at atLeast
  omega

theorem begunBy_append (worker : Nat) (before later : List CrewStep) :
    begunBy worker (before ++ later) = begunBy worker before ++ begunBy worker later :=
  List.filterMap_append

theorem begunBy_cons (worker : Nat) (step : CrewStep) (steps : List CrewStep) :
    begunBy worker (step :: steps) = (step.begun? worker).toList ++ begunBy worker steps := by
  unfold begunBy
  cases begun : step.begun? worker with
  | none => rw [List.filterMap_cons_none begun]; rfl
  | some event => rw [List.filterMap_cons_some begun]; rfl

/-- What every step keeps, given the deliveries that a worker has taken so far, holds after a
run. -/
theorem run?_tracks (worker : Nat) (invariant : List Event → Crew → Prop) {final : Crew}
    {begun : List Event}
    (kept : ∀ begun (crew next : Crew), ∀ step ∈ steps, crew.step? context step = some next →
      invariant begun crew → invariant (begun ++ (step.begun? worker).toList) next)
    (ran : crew.run? context steps = some final) (holds : invariant begun crew) :
    invariant (begun ++ begunBy worker steps) final := by
  induction steps generalizing crew begun with
  | nil =>
      cases ran
      simpa [begunBy] using holds
  | cons step steps inductionHypothesis =>
      obtain ⟨next, stepped, rest⟩ := run?_cons.mp ran
      rw [begunBy_cons, ← List.append_assoc]
      exact inductionHypothesis
        (fun begun crew next later member => kept begun crew next later (by simp [member])) rest
        (kept begun crew next step (by simp) stepped holds)

end Makes

end Crew

end Memory

end DualStore
