import Alignak.ConsumeResults
import Mathlib.Data.List.Sort

/-!
# Runs of the checks

The passes of a tick, the pollers and the external commands that create, change
and drop checks, with the events of `Alignak.Scheduling` that leave the checks
alone.
-/

namespace Alignak.Checking

open Scheduling

structure PassiveResult where
  exitStatus : Int
  output : String
  longOutput : String
  perfData : String
  timestamp : Int

inductive Event
  | getNewActions
  | schedule
  | scheduleCheck (i : Nat) (force : Bool) (checkTime : Int)
  | processCheckResult (i : Nat) (r : PassiveResult)
  | disableActiveChecks (i : Nat)
  | enableActiveChecks (i : Nat)
  | changePassiveChecks (i : Nat) (enabled : Bool)
  | getToRunChecks (tagged : Nat → Bool)
  | manageResults (action : Action)
  | checkFreshness
  | manageInternalChecks
  | consumeResults
  | deleteZombieChecks
  | cleanQueues
  | checkOrphaned (late : Nat → Bool)
  | items (ev : Scheduling.Event)

section
variable (conf : Conf) (env : Env)

def getNewActions (w : World) : World :=
  conf.allMyHostsAndServices.foldl (fun w i =>
    let w := (w.item i).actions.foldl (fun w c => addCheck c w) w
    w.modifyItem i fun x => { x with actions := [] }) w

def addLaunched (c : Option Nat) (w : World) : World :=
  match c with
  | some c => addCheck c w
  | none => w

def scheduleItem (i : Nat) : Sched Unit := do
  let chk ← schedule conf env i false none
  modify (addLaunched chk)

/-- `process_host_check_result` and `process_service_check_result`. -/
def processCheckResult (i : Nat) (r : PassiveResult) : Sched Unit := do
  let w ← get
  if !env.acceptPassiveChecks (conf.myType i) || !(w.item i).passiveChecksEnabled ||
      decide (r.timestamp < (w.items.checkState i).lastChk) then pure ()
  else
    match ← launchCheck conf env i env.now none true false with
    | none => pure ()
    | some c =>
      modify fun w => (w.modifyCheck c fun x =>
        { x with exitStatus := r.exitStatus, status := .waitConsume, checkTime := r.timestamp }).modifyData c fun x =>
        { x with output := r.output, longOutput := r.longOutput, perfData := r.perfData, passiveCheck := true }
      modify (addCheck c)

def endInProgress (i c : Nat) : Sched Unit := do
  let w ← get
  if c ∈ w.checks then
    modify fun v => (v.modifyCheck c fun x =>
      { x with status := .waitConsume, exitStatus := (w.items.checkState i).stateId, checkTime := env.now }).modifyData c fun x =>
      { x with output := (w.item i).output, executionTime := 0, perfData := (w.item i).perfData }
  else throw .keyError

def disableActiveChecks (i : Nat) : Sched Unit := do
  if ((← get).item i).activeChecksEnabled then
    modify fun w => w.modifyItem i fun x => { x with activeChecksEnabled := false }
    ((← get).item i).checksInProgress.forM (endInProgress env i)

def World.launchable (w : World) (c : Nat) : Bool := decide ((w.data c).tToGo ≤ env.now)

def getToRunChecks (tagged : Nat → Bool) (w : World) : World :=
  w.checks.foldl (fun w c =>
    if !(w.data c).internal && tagged c && (w.check c).status == .scheduled && w.launchable env c then w.setStatus c .polled
    else w) w

def checkItemFreshness (i : Nat) : Sched Unit := do
  let w ← get
  let x := w.item i
  guarded (x.passiveChecksEnabled && !x.activeChecksEnabled && !x.inChecking && env.isFreshnessExpired i) (do
    match ← launchCheck conf env i env.now none false false with
    | none => pure ()
    | some c =>
      let o := env.freshnessOutcome i
      modify fun w => (w.modifyCheck c fun x =>
        { x with freshnessExpiryCheck := true, checkTime := o.checkTime, exitStatus := o.exitStatus }).modifyData c fun x =>
        { x with output := o.output }
      modify (addCheck c))

def World.internalReady (w : World) (c : Nat) : Bool :=
  (w.data c).internal && w.launchable env c && (w.check c).status == .scheduled

def manageInternalCheck (w : World) (c : Nat) : World :=
  if w.internalReady env c then
    if (w.item (w.check c).ref).activeChecksEnabled then
      (getReturnFrom c (env.manageInternalCheck c) w).setStatus c .waitConsume
    else w.setStatus c .zombie
  else w

def manageInternalChecks (w : World) : World := w.checks.foldl (manageInternalCheck env) w

def deleteZombieChecks (w : World) : World := { w with checks := w.checks.filter fun c => (w.check c).status != .zombie }

def maxChecks : Nat := 5 * conf.allMyHostsAndServices.length

def toDelChecks (w : World) : List Nat :=
  if maxChecks conf ≠ 0 ∧ maxChecks conf < w.checks.length then
    (w.checks.insertionSort fun c d => (w.data c).creationTime ≤ (w.data d).creationTime).take (w.checks.length - maxChecks conf)
  else []

/-- `remove_in_progress_check` gets the check, which is in no list of
identifiers; and the identifiers that the check depends on have no links. -/
def dropCheck (c : Nat) : Sched Unit := do
  let w ← get
  modify (updateInChecking (w.check c).ref)
  tellDependants c
  if ((← get).data c).dependOn = [] then modify fun w => { w with checks := w.checks.erase c }
  else throw .attributeError

def cleanQueues : Sched Unit := do
  let w ← get
  guarded (conf.tickCleanQueues ≠ 0) ((toDelChecks conf w).forM dropCheck)

/-- `late` are the checks that no poller has answered for too long. -/
def checkOrphaned (late : Nat → Bool) (w : World) : World :=
  w.checks.foldl (fun w c => if (w.check c).status == .polled && late c then w.setStatus c .scheduled else w) w

def runEvent : Event → Sched Unit
  | .getNewActions => modify (getNewActions conf)
  | .schedule => conf.allMyHostsAndServices.forM (scheduleItem conf env)
  | .scheduleCheck i force checkTime => do
    let _ ← schedule conf env i force (some checkTime)
  | .processCheckResult i r => processCheckResult conf env i r
  | .disableActiveChecks i => disableActiveChecks env i
  | .enableActiveChecks i => modify fun w => w.modifyItem i fun x => { x with activeChecksEnabled := true }
  | .changePassiveChecks i enabled => modify fun w => w.modifyItem i fun x => { x with passiveChecksEnabled := enabled }
  | .getToRunChecks tagged => modify (getToRunChecks env tagged)
  | .manageResults action => modify fun w => (manageResults conf action w).2
  | .checkFreshness => conf.allMyHostsAndServices.forM (checkItemFreshness conf env)
  | .manageInternalChecks => modify (manageInternalChecks env)
  | .consumeResults => consumeResults conf env
  | .deleteZombieChecks => modify deleteZombieChecks
  | .cleanQueues => cleanQueues conf
  | .checkOrphaned late => modify (checkOrphaned late)
  | .items ev => onItems (Scheduling.runEvent conf.toConf env.toEnv ev)

/-- The events of the external commands: one that raises is dropped, with the
state that it has reached. -/
def Event.isCommand : Event → Bool
  | .scheduleCheck _ _ _ | .processCheckResult _ _ | .disableActiveChecks _ | .items (.command _) => true
  | _ => false

def Event.Enabled (w : World) : Event → Prop
  | .items (.receiveResult _ _) => False
  | .items (.consumeResult _) => False
  | .items ev => ev.Enabled w.items
  | _ => True

inductive Step (w : World) : Event → World → Prop
  | returned {ev : Event} {w' : World} (enabled : ev.Enabled w) (h : runEvent conf env ev w = .ok () w') : Step w ev w'
  | dropped {ev : Event} {e : Exn} {w' : World} (enabled : ev.Enabled w) (command : ev.isCommand = true)
      (h : runEvent conf env ev w = .error e w') : Step w ev w'

section
variable {conf} {env} {w v : World} {ev : Event}

theorem Step.after (hs : Step conf env w ev v) : v = stateAfter (runEvent conf env ev w) := by
  cases hs with
  | returned _ hr => rw [hr]; rfl
  | dropped _ _ hr => rw [hr]; rfl

theorem Step.enabled (hs : Step conf env w ev v) : ev.Enabled w := by
  cases hs with
  | returned he _ => exact he
  | dropped he _ _ => exact he

end

structure Turn where
  world : World
  env : Env
  event : Event

inductive Run (w₀ : World) : List Turn → World → Prop
  | nil : Run w₀ [] w₀
  | snoc {trace : List Turn} {w w' : World} {env : Env} {ev : Event} (h : Run w₀ trace w) (hs : Step conf env w ev w') :
      Run w₀ (trace ++ [⟨w, env, ev⟩]) w'

structure Initial (w : World) : Prop where
  items : Scheduling.Initial w.items
  checks : w.checks = []
  inProgress : ∀ i, (w.item i).checksInProgress = [] ∧ (w.item i).inChecking = false ∧ (w.item i).actions = []
  nextCheck : w.nextCheck = 0

/-! ## Runs that are executed -/

def turns (w : World) : List (Env × Event) → List Turn
  | [] => []
  | (env, ev) :: l => ⟨w, env, ev⟩ :: turns (stateAfter (runEvent conf env ev w)) l

def worldAfter (w : World) : List (Env × Event) → World
  | [] => w
  | (env, ev) :: l => worldAfter (stateAfter (runEvent conf env ev w)) l

def Event.ofItems : Event → Bool
  | .items _ => true
  | _ => false

def executes (w : World) : List (Env × Event) → Bool
  | [] => true
  | (env, ev) :: l => !ev.ofItems && returns (runEvent conf env ev w) && executes (stateAfter (runEvent conf env ev w)) l

theorem Run.append {w₀ : World} {trace : List Turn} : ∀ {l : List (Env × Event)} {w : World}, Run conf w₀ trace w →
    executes conf w l = true → Run conf w₀ (trace ++ turns conf w l) (worldAfter conf w l)
  | [], _, h, _ => by
    rw [turns, List.append_nil]
    exact h
  | (env, ev) :: l, w, h, he => by
    simp only [executes, Bool.and_eq_true, Bool.not_eq_true'] at he
    have henabled : ev.Enabled w := by
      cases ev with
      | items e => cases he.1.1
      | _ => trivial
    have hs : Step conf env w ev (stateAfter (runEvent conf env ev w)) := .returned henabled (eq_ok_of_returns he.1.2)
    have hr := Run.append (h.snoc hs) he.2
    rw [List.append_assoc] at hr
    exact hr

theorem run_of_executes {w₀ : World} {l : List (Env × Event)} (h : executes conf w₀ l = true) :
    Run conf w₀ (turns conf w₀ l) (worldAfter conf w₀ l) := Run.append conf Run.nil h

end

end Alignak.Checking
