import Alignak.Scheduler

/-!
# The checks of the scheduler

A check is launched by its item, waits in the item's actions until the scheduler
takes it, goes to a poller, and comes back as a result that the item consumes.
-/

namespace Alignak.Checking

open Scheduling

structure CheckDependency where
  item : Nat
  status : List Criterion
  period : Option Nat
  inheritsParent : Bool
  deriving DecidableEq, Repr

structure Conf extends Scheduling.Conf where
  chkDependOf : Nat → List CheckDependency
  hasCheckCommand : Nat → Bool
  fullName : Nat → String
  processPerfData : Nat → Bool
  timeoutExitStatus : Int
  tickCleanQueues : Nat

structure Outcome where
  exitStatus : Int
  output : String
  longOutput : String
  perfData : String
  checkTime : Int
  executionTime : Rat
  uTime : Rat
  sTime : Rat
  deriving DecidableEq, Repr

structure Env extends Scheduling.Env where
  cachedCheckHorizon : ItemType → Int
  executeChecks : ItemType → Bool
  acceptPassiveChecks : ItemType → Bool
  /-- The command line of the item starts with an underscore. -/
  isInternalCommand : Nat → Bool
  checkInterval : Nat → Int
  /-- What the interval, the period and the random spread give. -/
  nextChk : Nat → Option Int
  manageInternalCheck : Nat → Outcome
  /-- The item's freshness has expired, in its check period. -/
  isFreshnessExpired : Nat → Bool
  freshnessOutcome : Nat → Outcome

structure CheckData where
  output : String
  longOutput : String
  perfData : String
  executionTime : Rat
  uTime : Rat
  sTime : Rat
  tToGo : Int
  creationTime : Int
  passiveCheck : Bool
  internal : Bool
  dependOn : List Nat
  deriving DecidableEq, Repr

structure ItemChecks where
  checksInProgress : List Nat := []
  inChecking : Bool := false
  actions : List Nat := []
  activeChecksEnabled : Bool := true
  passiveChecksEnabled : Bool := true
  output : String := ""
  perfData : String := ""
  deriving DecidableEq, Repr

/-- `checks` are the keys of `Scheduler.checks`. `consumed` is no data of the
source: it lists the checks whose result an item has taken. -/
structure World where
  items : Scheduling.World
  checks : List Nat
  data : Nat → CheckData
  item : Nat → ItemChecks
  nextCheck : Nat
  consumed : List Nat

abbrev Sched := EStateM Exn World

def onItems {α : Type} (m : Scheduling.Sched α) : Sched α := fun w =>
  match m w.items with
  | .ok a s => .ok a { w with items := s }
  | .error e s => .error e { w with items := s }

namespace World

variable (w : World)

def check (c : Nat) : Scheduling.Check := w.items.check c

def modifyCheck (c : Nat) (f : Scheduling.Check → Scheduling.Check) : World :=
  { w with items := w.items.setCheck c (f (w.items.check c)) }

def modifyData (c : Nat) (f : CheckData → CheckData) : World := { w with data := Function.update w.data c (f (w.data c)) }

def modifyItem (i : Nat) (f : ItemChecks → ItemChecks) : World := { w with item := Function.update w.item i (f (w.item i)) }

def setStatus (c : Nat) (s : ActStatus) : World := w.modifyCheck c fun x => { x with status := s }

end World

/-! ## Launching a check -/

def updateInChecking (i : Nat) (w : World) : World :=
  w.modifyItem i fun x => { x with inChecking := x.checksInProgress != [] }

def removeInProgressCheck (i c : Nat) (w : World) : World :=
  updateInChecking i (w.modifyItem i fun x => { x with checksInProgress := x.checksInProgress.erase c })

def addCheck (c : Nat) (w : World) : World := if c ∈ w.checks then w else { w with checks := w.checks ++ [c] }

section
variable (conf : Conf) (env : Env)

/-- `none`: the recursion over the dependencies does not end. -/
def doIRaiseDependency (w : World) : Nat → Nat → List Criterion → Bool → Option Bool
  | 0, _, _, _ => none
  | fuel + 1, i, status, inheritParents =>
    if status.any (isState (conf.myType i) (w.items.checkState i).state) then some true
    else if !inheritParents then some false
    else (conf.chkDependOf i).anyM fun dep => do
      let raised ← doIRaiseDependency w fuel dep.item dep.status dep.inheritsParent
      return raised && env.periodValid dep.period env.now

def isNoCheckDependent (w : World) (i : Nat) : Option Bool :=
  (conf.chkDependOf i).anyM fun dep =>
    if env.periodValid dep.period env.now then
      doIRaiseDependency conf env w (conf.allMyHostsAndServices.length + 1) dep.item dep.status dep.inheritsParent
    else some false

/-- The new check `w.nextCheck` of an item, which goes to the item's actions. -/
def newCheck (i : Nat) (timestamp : Int) (refCheck : Option Nat) (dependencyCheck internal : Bool) (w : World) : World :=
  let w := w.modifyItem i fun x => { x with actions := x.actions ++ [w.nextCheck] }
  { w with
    items := w.items.setCheck w.nextCheck
      { ref := i, status := .scheduled, exitStatus := 3, checkTime := 0, freshnessExpiryCheck := false
        dependencyCheck := dependencyCheck, dependOnMe := refCheck.toList }
    data := Function.update w.data w.nextCheck
      { output := "", longOutput := "", perfData := "", executionTime := 0, uTime := 0, sTime := 0, tToGo := timestamp
        creationTime := env.now, passiveCheck := false, internal := internal, dependOn := [] }
    nextCheck := w.nextCheck + 1 }

def forcedCheck (w : World) (i : Nat) (force : Bool) : Option Nat :=
  if force && (w.item i).inChecking then (w.item i).checksInProgress.head?.filter (· ∈ w.checks) else none

def isNotLaunched (w : World) (i : Nat) (dependent : Bool) : Bool :=
  !conf.hasCheckCommand i && (conf.myType i == .service || (w.item i).activeChecksEnabled) ||
  dependent && conf.myType i == .host && (w.item i).passiveChecksEnabled && !(w.item i).activeChecksEnabled

def launchDependencyCheck (i : Nat) (timestamp : Int) (refCheck : Option Nat) : Sched (Option Nat) := do
  let w ← get
  match (w.item i).checksInProgress with
  | [] => throw .indexError
  | c :: _ =>
    if c ∈ w.checks then
      modify (newCheck env i timestamp refCheck true (w.data c).internal)
      return some w.nextCheck
    else throw .keyError

def launchNewCheck (i : Nat) (timestamp : Int) (refCheck : Option Nat) (dependent : Bool) : Sched (Option Nat) := do
  let w ← get
  if isNotLaunched conf w i dependent then return none
  else
    let internal := (w.items.settings i).gotBusinessRule || env.isInternalCommand i
    modify (newCheck env i timestamp refCheck false internal)
    modify fun v => v.modifyItem i fun x => { x with checksInProgress := x.checksInProgress ++ [w.nextCheck] }
    modify (updateInChecking i)
    return some w.nextCheck

def launchCheck (i : Nat) (timestamp : Int) (refCheck : Option Nat) (force dependent : Bool) : Sched (Option Nat) := do
  modify (updateInChecking i)
  let w ← get
  match forcedCheck w i force with
  | some c =>
    modify fun w => w.modifyData c fun x => { x with tToGo := env.now }
    return some c
  | none =>
    if !force && (w.item i).inChecking && refCheck.isSome then launchDependencyCheck env i timestamp refCheck
    else if force then launchNewCheck conf env i timestamp refCheck dependent
    else match isNoCheckDependent conf env w i with
      | none => throw .diverges
      | some true => return none
      | some false => launchNewCheck conf env i timestamp refCheck dependent

def schedule (i : Nat) (force : Bool) (forceTime : Option Int) : Sched (Option Nat) := do
  let x := (← get).item i
  if x.inChecking && !(force || (forceTime.getD 0) != 0) then return none
  else if (!x.activeChecksEnabled || !env.executeChecks (conf.myType i)) && !force then return none
  else if env.checkInterval i == 0 && conf.myType i == .service && !force then return none
  else match (if forceTime.isSome then forceTime else env.nextChk i) with
    | none => return none
    | some t => launchCheck conf env i t none force false

/-! ## The result of a check -/

structure Action where
  uuid : Nat
  status : ActStatus
  outcome : Outcome
  passiveCheck : Bool
  deriving DecidableEq, Repr

def typeName : ItemType → String
  | .host => "host"
  | .service => "service"

def timeoutOutput (i : Nat) : String := "(" ++ typeName (conf.myType i) ++ " " ++ conf.fullName i ++ " check timed out)"

def timedOut (i : Nat) (o : Outcome) : Outcome :=
  { o with longOutput := o.output, output := timeoutOutput conf i, exitStatus := conf.timeoutExitStatus }

def getReturnFrom (c : Nat) (o : Outcome) (w : World) : World :=
  (w.modifyCheck c fun x => { x with exitStatus := o.exitStatus, checkTime := o.checkTime }).modifyData c fun x =>
    { x with output := o.output, longOutput := o.longOutput, perfData := o.perfData
             executionTime := o.executionTime, uTime := o.uTime, sTime := o.sTime }

def manageResults (action : Action) (w : World) : Action × World :=
  let c := action.uuid
  if c ∈ w.checks then
    if action.status = .timeout then
      ({ action with outcome := timedOut conf (w.check c).ref action.outcome }, w.setStatus c .waitConsume)
    else if action.passiveCheck then (action, w.setStatus c .waitConsume)
    else (action, (getReturnFrom c action.outcome w).setStatus c .waitConsume)
  else (action, w)

/-! ## The consumption of a check -/

structure Raised where
  new : List Nat
  checking : List Nat

def raiseDependency (c i : Nat) (raised : Raised) (dep : Dependency) : Sched Raised := do
  let w ← get
  let x := w.item dep.item
  if !env.periodValid dep.period env.now ||
      decide (env.now - env.cachedCheckHorizon (conf.myType i) ≤ (w.items.checkState dep.item).lastStateUpdate) ||
      !x.activeChecksEnabled then return raised
  else if !x.inChecking then
    match ← launchCheck conf env dep.item env.now (some c) false true with
    | none => return raised
    | some n => return { raised with new := raised.new ++ [n] }
  else match x.checksInProgress with
    | [] => return raised
    | u :: _ =>
      if u ∈ w.checks then
        modify fun w => w.modifyCheck u fun x => { x with dependOnMe := x.dependOnMe ++ [c] }
        return { raised with checking := raised.checking ++ [u] }
      else throw .keyError

def raiseDependenciesCheck (c i : Nat) : Sched Raised :=
  (conf.actDependOf i).foldlM (fun raised dep => raiseDependency conf env c i raised dep) ⟨[], []⟩

def takeCheck (c : Nat) (w : World) : World :=
  let i := (w.check c).ref
  let x := w.data c
  let w := removeInProgressCheck i c w
  { w.modifyItem i fun y => { y with output := x.output, perfData := if conf.processPerfData i then x.perfData else y.perfData }
    with consumed := w.consumed ++ [c] }

def consumeResult (c : Nat) : Sched (List Nat) := do
  let w ← get
  if mustWait conf.toConf w.items c then
    onItems (Scheduling.consumeResult conf.toConf env.toEnv c)
    let raised ← raiseDependenciesCheck conf env c (w.check c).ref
    modify fun w => w.modifyData c fun x => { x with dependOn := x.dependOn ++ (raised.new ++ raised.checking) }
    return raised.new
  else
    modify (takeCheck conf c)
    onItems (Scheduling.consumeResult conf.toConf env.toEnv c)
    return []

def consumeAndAdd (c : Nat) : Sched Unit := do
  let depChecks ← consumeResult conf env c
  modify fun w => depChecks.foldl (fun w d => addCheck d w) w

end

end Alignak.Checking
