import Alignak.HardProblems

/-!
# Event and problem identifiers

`update_event_and_problem_id`, at the end of each consumption, numbers the
changes of state and the problems from two counters of the class.
-/

namespace Alignak.Scheduling

/-- `SchedulingItem.current_event_id` and `SchedulingItem.current_problem_id`. -/
structure Counters where
  event : Nat := 0
  problem : Nat := 0
  deriving DecidableEq, Repr

structure Ids where
  currentEventId : Nat := 0
  lastEventId : Nat := 0
  currentProblemId : Nat := 0
  lastProblemId : Nat := 0
  deriving DecidableEq, Repr

namespace Counters

variable (c : Counters) (ids : Ids)

def newEvent : Counters × Ids :=
  ({ c with event := c.event + 1 }, { ids with lastEventId := ids.currentEventId, currentEventId := c.event + 1 })

def newProblem : Counters × Ids :=
  ({ c with problem := c.problem + 1 }, { ids with lastProblemId := ids.currentProblemId, currentProblemId := c.problem + 1 })

def updateEventAndProblemId (t : ItemType) (x : CheckState) : Counters × Ids :=
  if x.state ≠ x.lastState ∧ x.lastState ≠ .pending ∨ x.state ≠ okUp t ∧ x.lastState = .pending then
    let (c, ids) := c.newEvent ids
    if x.state ≠ okUp t ∧ x.lastState = .pending then c.newProblem ids
    -- a transition between non-OK states
    else if okUp t ≠ x.state ∧ okUp t ≠ x.lastState then (c, ids)
    else if x.state = okUp t then (c, { ids with lastProblemId := ids.currentProblemId, currentProblemId := 0 })
    else c.newProblem ids
  else (c, ids)

end Counters

/-- A scheduler with the identifiers of its items; `events` and `problems` are
the identifiers that all the changes of state and all the problems have had. -/
structure Numbered where
  world : World
  counters : Counters
  ids : Nat → Ids
  events : List Nat
  problems : List Nat

namespace Numbered

variable (conf : Conf)

/-- The consumption of a result of item `i` ends. -/
def update (i : Nat) (w : World) (s : Numbered) : Numbered :=
  let x := w.checkState i
  let new := s.counters.updateEventAndProblemId (s.ids i) (conf.myType i) x
  { world := w
    counters := new.1
    ids := Function.update s.ids i new.2
    events := if x.state ≠ x.lastState then s.events ++ [new.2.currentEventId] else s.events
    problems := if okLike (conf.myType i) x.lastState = true ∧ x.state ≠ okUp (conf.myType i) then
        s.problems ++ [new.2.currentProblemId] else s.problems }

def consumed (ev : Event) (s : Numbered) : Option Nat :=
  match ev with
  | .consumeResult c => if mustWait conf s.world c then none else some (s.world.check c).ref
  | _ => none

def after (ev : Event) (w : World) (s : Numbered) : Numbered :=
  match s.consumed conf ev with
  | some i => s.update conf i w
  | none => { s with world := w }

def restart (w : World) (s : Numbered) : Numbered := { s with world := w, counters := {} }

end Numbered

structure Restarted (w w' : World) : Prop where
  state : ∀ i, (w'.checkState i).state = (w.checkState i).state
  lastState : ∀ i, (w'.checkState i).lastState = (w.checkState i).lastState
  stateType : ∀ i, (w'.checkState i).stateType = (w.checkState i).stateType
  attempt : ∀ i, (w'.checkState i).attempt = (w.checkState i).attempt
  beforeImpact : ∀ i, (w'.checkState i).stateBeforeImpact = .pending
  changed : ∀ i, (w'.checkState i).stateChangedSinceImpact = false
  problem : ∀ i, w'.problem i = {}
  check : ∀ c, (w'.check c).status = .zombie

inductive IdEvent
  | scheduler (env : Env) (ev : Event)
  | restart

section
variable (conf : Conf)

inductive IdStep (s : Numbered) : IdEvent → Numbered → Prop
  | scheduler {env : Env} {ev : Event} {w' : World} (h : Step conf env s.world ev w') :
      IdStep s (.scheduler env ev) (s.after conf ev w')
  | restart {w' : World} (h : Restarted s.world w') : IdStep s .restart (s.restart w')

structure IdTurn where
  before : Numbered
  event : IdEvent
  after : Numbered

inductive IdRun (s₀ : Numbered) : List IdTurn → Numbered → Prop
  | nil : IdRun s₀ [] s₀
  | snoc {trace : List IdTurn} {s s' : Numbered} {ev : IdEvent} (h : IdRun s₀ trace s) (hs : IdStep conf s ev s') :
      IdRun s₀ (trace ++ [⟨s, ev, s'⟩]) s'

structure Numbered.Initial (s : Numbered) : Prop where
  world : Scheduling.Initial s.world
  counters : s.counters = {}
  ids : ∀ i, s.ids i = {}
  events : s.events = []
  problems : s.problems = []

/-- What is asked of the consumption of a result of item `i`. -/
structure IdsRight (i : Nat) (s s' : Numbered) : Prop where
  nonZero : (s'.ids i).currentProblemId ≠ 0 ↔ (s'.world.checkState i).state ≠ okUp (conf.myType i)
  sameProblem : okLike (conf.myType i) (s'.world.checkState i).lastState = false →
    (s'.world.checkState i).state ≠ okUp (conf.myType i) → (s'.ids i).currentProblemId = (s.ids i).currentProblemId
  newProblem : okLike (conf.myType i) (s'.world.checkState i).lastState = true →
    (s'.world.checkState i).state ≠ okUp (conf.myType i) → (s'.ids i).currentProblemId ∉ s.problems
  newEvent : (s'.world.checkState i).state ≠ (s'.world.checkState i).lastState → (s'.ids i).currentEventId ∉ s.events
  sameEvent : (s'.world.checkState i).state = (s'.world.checkState i).lastState →
    (s'.ids i).currentEventId = (s.ids i).currentEventId
  others : ∀ j, j ≠ i → s'.ids j = s.ids j

def IdTurn.Right (t : IdTurn) : Prop :=
  match t.event with
  | .scheduler _ ev => ∀ i, t.before.consumed conf ev = some i → IdsRight conf i t.before t.after
  | .restart => True

def IdTurn.Allowed (t : IdTurn) : Prop :=
  match t.event with
  | .scheduler _ _ => True
  | .restart => t.before.counters.event = 0

end

end Alignak.Scheduling
