import Alignak.SatelliteLink
import Alignak.SchedulingItem
import Mathlib.Data.List.Induction

/-!
# Pollers and reactionners

A satellite takes actions from its schedulers, gives each one to a worker, and
keeps what the workers return for the scheduler, until it pushes it.
-/

namespace Alignak.Satellites

open Dispatching (SatelliteLink Response Answer Raised HTTPClientException)
open Scheduling (ActStatus)

structure Action where
  uuid : Nat
  moduleType : Nat
  status : ActStatus
  myScheduler : Nat
  myWorker : Option Nat
  deriving DecidableEq, Repr

structure SchedulerLink extends SatelliteLink where
  instanceId : Nat
  active : Bool
  maxCheckAttempts : Int
  actions : Dict Nat Action := Dict.empty
  waitHomerun : Dict Nat Action := Dict.empty

structure Worker where
  moduleName : Nat
  isAlive : Bool
  deriving DecidableEq, Repr

/-- What `create_and_launch_worker` finds for the name of a module. -/
inductive ModuleKind
  | fork
  | workerCapable
  | notWorker
  | unknown
  deriving DecidableEq, Repr

structure Conf where
  minWorkers : Nat
  moduleKind : Nat → ModuleKind

/-- `returnsQueue` are the results of the workers that wait to be managed, and
`held` what each worker has. -/
structure Satellite where
  schedulers : Dict Nat SchedulerLink
  workers : Dict Nat Worker
  qByMod : Dict Nat (List Nat)
  held : Nat → List Action
  returnsQueue : List Action
  rrQid : Nat
  nextWorker : Nat
  interrupted : Bool

/-- The exceptions that a turn of the satellite raises. -/
inductive Exn
  | link (e : Raised)
  | keyError
  | notWorkerMod
  deriving DecidableEq, Repr

abbrev Sat := EStateM Exn Satellite

/-! ## A decorated call -/

/-- `valid_connection` and `communicate` around a request that returns what the
daemon gives. -/
def call {α : Type} (maxCheckAttempts : Int) (x : SatelliteLink) (r : Response α) : SatelliteLink × Except Raised (Answer α) :=
  if !x.con || x.runningId == 0 then (x, .error .linkError)
  else if !x.alive then (x, .ok .none)
  else if !x.reachable then (x.addFailedCheckAttempt maxCheckAttempts, .ok .false)
  else
    match r.request with
    | .ok a => (x, .ok (.got a))
    | .error .connection => (x.setDead, .ok .none)
    | .error .timeout => (x.addFailedCheckAttempt maxCheckAttempts, .ok .false)
    | .error .data => (x, .error .systemExit)
    | .error .other => (x.addFailedCheckAttempt maxCheckAttempts, .ok .none)

namespace Satellite

variable (s : Satellite)

def setScheduler (u : Nat) (x : SchedulerLink) : Satellite := { s with schedulers := s.schedulers.set u x }

end Satellite

section
variable (conf : Conf)

/-! ## Results -/

def manageActionReturn (a : Action) (s : Satellite) : Satellite :=
  match s.schedulers.get? a.myScheduler with
  | none => s
  | some link => s.setScheduler a.myScheduler
      { link with actions := link.actions.erase a.uuid, waitHomerun := link.waitHomerun.set a.uuid a }

def pushLink (response : Response Bool) (u : Nat) (link : SchedulerLink) : Sat Unit :=
  if link.active ∧ link.waitHomerun.entries ≠ [] then
    match call link.maxCheckAttempts link.toSatelliteLink response with
    | (x, .error e) => do
      modify fun s => s.setScheduler u { link with toSatelliteLink := x }
      throw (.link e)
    | (x, .ok _) => modify fun s => s.setScheduler u { link with toSatelliteLink := x, waitHomerun := Dict.empty }
  else pure ()

def pushResultsTo (response : Response Bool) (u : Nat) : Sat Unit := do
  match (← get).schedulers.get? u with
  | none => throw .keyError
  | some link => pushLink response u link

def pushResults (response : Nat → Response Bool) : Sat Unit := do
  (← get).schedulers.keys.forM fun u => pushResultsTo (response u) u

/-! ## Actions -/

def getQueueForTheAction (a : Action) : Sat (Option Nat) := do
  let s ← get
  match s.qByMod.get? a.moduleType with
  | none => throw .keyError
  | some queues =>
    if queues = [] then return none
    else
      let rrQid := (s.rrQid + 1) % queues.length
      modify fun s => { s with rrQid := rrQid }
      return queues[rrQid]?

def assignToAQueue (a : Action) : Sat Action := do
  match ← getQueueForTheAction a with
  | none => return a
  | some worker => do
    let a := { a with myWorker := some worker, status := .queued }
    modify fun s => { s with held := Function.update s.held worker (s.held worker ++ [a]) }
    return a

def keepAction (u : Nat) (a : Action) (s : Satellite) : Satellite :=
  match s.schedulers.get? u with
  | none => s
  | some link => s.setScheduler u { link with actions := link.actions.set a.uuid a }

/-- A known action is left out. -/
def addAction (u : Nat) (a : Action) : Sat Unit := do
  match (← get).schedulers.get? u with
  | none => throw .keyError
  | some link =>
    if (link.actions.get? a.uuid).isNone then
      let a := { a with myScheduler := u }
      modify (keepAction u a)
      modify (keepAction u (← assignToAQueue a))

def addActions (actions : List Action) (schedulerInstanceId : Nat) : Sat Unit := do
  match (← get).schedulers.entries.find? fun e => e.2.instanceId == schedulerInstanceId with
  | none => pure ()
  | some e => actions.forM (addAction e.1)

/-! ## Workers -/

def requeueActions (worker u : Nat) : Sat Unit := do
  match (← get).schedulers.get? u with
  | none => throw .keyError
  | some link => link.actions.values.forM fun a => do
      if a.status = .queued ∧ a.myWorker = some worker then modify (keepAction u (← assignToAQueue a))

def delZombieWorker (worker : Nat) : Sat Unit := do
  let s ← get
  match s.workers.get? worker with
  | none => throw .keyError
  | some x =>
    match s.qByMod.get? x.moduleName with
    | none => throw .keyError
    | some queues =>
      modify fun s => { s with qByMod := s.qByMod.set x.moduleName (queues.erase worker) }
      s.schedulers.keys.forM (requeueActions worker)
      modify fun s => { s with workers := s.workers.erase worker }

def checkAndDelZombieWorkers : Sat Unit := do
  let s ← get
  let wToDel := s.workers.keys.filter fun worker =>
    !s.interrupted && match s.workers.get? worker with
      | none => false
      | some x => !x.isAlive
  wToDel.forM delZombieWorker

def createAndLaunchWorker (moduleName : Nat) : Sat Unit := do
  match conf.moduleKind moduleName with
  | .notWorker => throw .notWorkerMod
  | .unknown => pure ()
  | .fork | .workerCapable => modify fun s => { s with
      workers := s.workers.set s.nextWorker ⟨moduleName, true⟩
      qByMod := s.qByMod.set moduleName ((s.qByMod.get? moduleName).getD [] ++ [s.nextWorker])
      held := Function.update s.held s.nextWorker []
      nextWorker := s.nextWorker + 1 }

def adjustWorkerNumberByLoad : Sat Unit := do
  let s ← get
  if s.interrupted then return
  let toDel ← s.qByMod.keys.foldlM (fun toDel mod => do
    let todo := conf.minWorkers - (((← get).qByMod.get? mod).getD []).length
    if conf.moduleKind mod = .notWorker ∧ 0 < todo then return toDel ++ [mod]
    else
      (List.replicate todo mod).forM (createAndLaunchWorker conf)
      return toDel) []
  modify fun s => { s with qByMod := toDel.foldl (fun q mod => q.erase mod) s.qByMod }

/-! ## Runs -/

inductive Event
  | addActions (actions : List Action) (schedulerInstanceId : Nat)
  | workerReturns (worker : Nat) (a : Action) (status : ActStatus)
  | workerDies (worker : Nat)
  | manageReturn
  | checkAndDelZombieWorkers
  | adjustWorkerNumberByLoad
  | pushResults (response : Nat → Response Bool)
  | linkChanges (u : Nat) (x : SatelliteLink) (active : Bool)

def workerReturns (worker : Nat) (a : Action) (status : ActStatus) (s : Satellite) : Satellite :=
  if a ∈ s.held worker then
    { s with
      held := Function.update s.held worker ((s.held worker).erase a)
      returnsQueue := s.returnsQueue ++ [{ a with status := status }] }
  else s

def workerDies (worker : Nat) (s : Satellite) : Satellite :=
  match s.workers.get? worker with
  | none => s
  | some x => { s with
      workers := s.workers.set worker { x with isAlive := false }, held := Function.update s.held worker [] }

def manageReturn (s : Satellite) : Satellite :=
  match s.returnsQueue with
  | [] => s
  | a :: l => manageActionReturn a { s with returnsQueue := l }

def linkChanges (u : Nat) (x : SatelliteLink) (active : Bool) (s : Satellite) : Satellite :=
  match s.schedulers.get? u with
  | none => s
  | some link => s.setScheduler u { link with toSatelliteLink := x, active := active }

def runEvent : Event → Sat Unit
  | .addActions actions schedulerInstanceId => addActions actions schedulerInstanceId
  | .workerReturns worker a status => modify (workerReturns worker a status)
  | .workerDies worker => modify (workerDies worker)
  | .manageReturn => modify manageReturn
  | .checkAndDelZombieWorkers => checkAndDelZombieWorkers
  | .adjustWorkerNumberByLoad => adjustWorkerNumberByLoad conf
  | .pushResults response => pushResults response
  | .linkChanges u x active => modify (linkChanges u x active)

structure Turn where
  state : Satellite
  event : Event

/-- What is raised goes to the log or to the caller, with the state that is
reached. -/
def Turn.after (t : Turn) : Satellite := stateAfter (runEvent conf t.event t.state)

inductive Run (s₀ : Satellite) : List Turn → Satellite → Prop
  | nil : Run s₀ [] s₀
  | snoc {trace : List Turn} {s : Satellite} (h : Run s₀ trace s) (ev : Event) :
      Run s₀ (trace ++ [⟨s, ev⟩]) (Turn.after conf ⟨s, ev⟩)

/-! ### Parts of a run -/

variable {conf : Conf} {s₀ s s' : Satellite} {l l' : List Turn} {t : Turn}

theorem Run.snoc_inv (h : Run conf s₀ (l ++ [t]) s) : Run conf s₀ l t.state ∧ s = t.after conf := by
  generalize hl : l ++ [t] = trace at h
  cases h with
  | nil => simp at hl
  | snoc h ev =>
    obtain ⟨rfl, he⟩ := List.append_inj' hl rfl
    cases he
    exact ⟨h, rfl⟩

theorem Run.before (h : Run conf s₀ (l ++ l') s) : ∃ s', Run conf s₀ l s' := by
  induction l' using List.reverseRecOn generalizing s with
  | nil => exact ⟨s, by rwa [List.append_nil] at h⟩
  | append_singleton l' t ih =>
    rw [← List.append_assoc] at h
    exact ih h.snoc_inv.1

theorem Run.eq (h : Run conf s₀ l s) (h' : Run conf s₀ l s') : s = s' := by
  induction h generalizing s' with
  | nil =>
    generalize hl : ([] : List Turn) = trace at h'
    cases h' with
    | nil => rfl
    | snoc _ _ => simp at hl
  | snoc h ev _ => exact h'.snoc_inv.2.symm

end

end Alignak.Satellites
