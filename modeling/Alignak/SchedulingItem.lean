import Alignak.Dict
import Alignak.Exn
import Mathlib.Logic.Function.Basic

/-!
# Hosts and services at run time

The running properties of the hosts and services, in the groups in which the
functions of the scheduler change them, with the actions and checks that it
holds.
-/

namespace Alignak.Scheduling

inductive ItemType
  | host
  | service
  deriving DecidableEq, Repr

inductive State
  | pending
  | up
  | down
  | ok
  | warning
  | critical
  | unknown
  | unreachable
  deriving DecidableEq, Repr

inductive StateType
  | soft
  | hard
  deriving DecidableEq, Repr

inductive NotificationType
  | problem
  | recovery
  | acknowledgement
  | flappingStart
  | flappingStop
  | flappingDisabled
  | downtimeStart
  | downtimeEnd
  | downtimeCancelled
  | custom
  deriving DecidableEq, Repr

inductive ActStatus
  | scheduled
  | launched
  | polled
  | queued
  | waitDepend
  | waitingMe
  | timeout
  | done
  | zombie
  | waitConsume
  deriving DecidableEq, Repr

inductive Criterion
  | letter (c : Char)
  | name (s : State)
  deriving DecidableEq, Repr

structure Dependency where
  item : Nat
  status : List Criterion
  period : Option Nat
  deriving DecidableEq, Repr

structure Conf where
  hosts : List Nat
  services : List Nat
  nodup : (hosts ++ services).Nodup
  host : Nat → Nat
  hostServices : Nat → List Nat
  actDependOf : Nat → List Dependency
  actDependOfMe : Nat → List Dependency
  isVolatile : Nat → Bool
  resultmodulations : Nat → List Nat
  enableProblemImpactsStatesChange : Bool

def Conf.allMyHostsAndServices (conf : Conf) : List Nat := conf.hosts ++ conf.services

def Conf.myType (conf : Conf) (i : Nat) : ItemType := if i ∈ conf.hosts then .host else .service

structure Settings where
  maxCheckAttempts : Int := 1
  flapDetectionEnabled : Bool := true
  flapDetectionOptions : List Char := []
  lowFlapThreshold : Int := 25
  highFlapThreshold : Int := 50
  notificationsEnabled : Bool := true
  notificationOptions : List Char := []
  notificationPeriod : Option Nat := none
  firstNotificationDelay : Int := 0
  notificationInterval : Int := 60
  contacts : List Nat := []
  maintenancePeriod : Option Nat := none
  gotBusinessRule : Bool := false
  businessRuleSmartNotifications : Bool := false
  businessRuleDowntimeAsAck : Bool := false

structure CheckState where
  state : State := .pending
  stateId : Int := 0
  stateType : StateType := .hard
  stateTypeId : Int := 0
  attempt : Int := 0
  lastState : State := .pending
  lastStateType : StateType := .hard
  lastHardState : State := .pending
  lastHardStateId : Int := 0
  lastChk : Int := 0
  lastStateUpdate : Int := 0
  lastStateChange : Int := 0
  lastTime : State → Int := fun _ => 0
  returnCode : Int := 0
  stateBeforeImpact : State := .pending
  stateIdBeforeImpact : Int := 0
  stateChangedSinceImpact : Bool := false
  inHardUnknownReachPhase : Bool := false
  wasInHardUnknownReachPhase : Bool := false
  stateBeforeHardUnknownReachPhase : State := .ok

structure ProblemState where
  isProblem : Bool := false
  isImpact : Bool := false
  sourceProblems : List Nat := []
  impacts : List Nat := []
  deriving DecidableEq, Repr

structure Downtime where
  ref : Nat
  fixed : Bool
  startTime : Int
  endTime : Int
  realEndTime : Int
  duration : Int
  triggerId : Option Nat
  activateMe : List Nat
  isInEffect : Bool
  canBeDeleted : Bool
  commentId : Option Nat := none
  deriving DecidableEq, Repr

structure DowntimeState where
  downtimes : Dict Nat Downtime := Dict.empty
  scheduledDowntimeDepth : Int := 0
  inScheduledDowntime : Bool := false
  inMaintenance : Option Nat := none

structure Comment where
  ref : Nat
  entryType : Nat
  deriving DecidableEq, Repr

structure Acknowledge where
  sticky : Bool
  endTime : Int
  commentId : Nat
  deriving DecidableEq, Repr

structure AckState where
  problemHasBeenAcknowledged : Bool := false
  acknowledgement : Option Acknowledge := none
  inScheduledDowntimeDuringLastCheck : Bool := false
  deriving DecidableEq, Repr

structure AlertState where
  notificationsInProgress : List Nat := []
  actions : List Nat := []
  currentNotificationNumber : Int := 0
  notifiedContactsIds : List Nat := []
  lastNotification : Int := 0
  isFlapping : Bool := false
  flappingChanges : List Bool := []
  deriving DecidableEq, Repr

structure Notification where
  type : NotificationType
  status : ActStatus
  ref : Nat
  contact : Option Nat
  tToGo : Option Int
  notifNb : Int
  escalated : Bool
  deriving DecidableEq, Repr

structure Check where
  ref : Nat
  status : ActStatus
  exitStatus : Int
  checkTime : Int
  freshnessExpiryCheck : Bool
  dependencyCheck : Bool
  dependOnMe : List Nat
  deriving DecidableEq, Repr

/-- The properties of each item, and what the scheduler holds: `actions` are
the notifications of `Scheduler.actions`. -/
structure World where
  settings : Nat → Settings
  checkState : Nat → CheckState
  problem : Nat → ProblemState
  downtime : Nat → DowntimeState
  ack : Nat → AckState
  alert : Nat → AlertState
  notification : Nat → Notification
  check : Nat → Check
  actions : List Nat
  nextNotification : Nat
  nextDowntime : Nat
  comments : Nat → Dict Nat Comment := fun _ => Dict.empty
  nextComment : Nat := 0

/-- A function of the source that can raise: the state is the one it has reached. -/
abbrev Sched := EStateM Exn World

/-- What one step of the scheduler reads from outside: the clock, the program
wide switches, and the objects that the items refer to. -/
structure Env where
  now : Int
  intervalLength : Int
  enableNotifications : ItemType → Bool
  enableFlapDetection : ItemType → Bool
  flapHistory : Nat
  isTimeValid : Nat → Int → Bool
  getNextValidTime : Nat → Int → Option Int
  getNextInvalidTime : Nat → Int → Option Int
  moduleReturn : Nat → Int → Int
  isEscalable : Nat → Notification → CheckState → Bool
  getEscalableContacts : Nat → Notification → CheckState → List Nat
  getNextNotificationTime : Nat → Notification → CheckState → Int
  getNotificationCommands : Nat → ItemType → List Nat
  wantNotification : Nat → Nat → Nat → CheckState → NotificationType → Bool

def Env.periodValid (env : Env) (period : Option Nat) (t : Int) : Bool :=
  match period with
  | none => true
  | some p => env.isTimeValid p t

def okUp : ItemType → State
  | .host => .up
  | .service => .ok

def okLike (t : ItemType) (s : State) : Bool := s == okUp t || s == .pending

def Host.isState (state : State) : Criterion → Bool
  | .name s => s == state
  | .letter c => c == 'o' && state == .up || c == 'd' && state == .down || (c == 'u' || c == 'x') && state == .unreachable

def Service.isState (state : State) : Criterion → Bool
  | .name s => s == state
  | .letter c => c == 'o' && state == .ok || c == 'c' && state == .critical || c == 'w' && state == .warning ||
      c == 'u' && state == .unknown || c == 'x' && state == .unreachable

def isState : ItemType → State → Criterion → Bool
  | .host => Host.isState
  | .service => Service.isState

/-! ## One item's check state -/

namespace CheckState

variable (x : CheckState)

def addAttempt (maxCheckAttempts : Int) : CheckState := { x with attempt := min (x.attempt + 1) maxCheckAttempts }

def isMaxAttempts (maxCheckAttempts : Int) : Bool := decide (maxCheckAttempts ≤ x.attempt)

def setUnreachable (now : Int) : CheckState :=
  { x with stateId := 4, state := .unreachable,
           lastTime := fun s => if s = .unreachable then now else x.lastTime s }

def setImpactState (conf : Conf) (now : Int) : CheckState :=
  if conf.enableProblemImpactsStatesChange then
    setUnreachable { x with stateBeforeImpact := x.state, stateIdBeforeImpact := x.stateId, stateChangedSinceImpact := false } now
  else x

def unsetImpactState (conf : Conf) : CheckState :=
  if conf.enableProblemImpactsStatesChange && !x.stateChangedSinceImpact then
    { x with state := x.stateBeforeImpact, stateId := x.stateIdBeforeImpact }
  else x

def lastStateOf (conf : Conf) (isImpact : Bool) : State :=
  if conf.enableProblemImpactsStatesChange && isImpact && !x.stateChangedSinceImpact then x.stateBeforeImpact else x.state

def setState (s : State) (stateId : Int) : CheckState :=
  { x with state := s, stateId := stateId, lastTime := fun t => if t = s then x.lastStateUpdate else x.lastTime t }

def leaveHardUnknownPhase : CheckState :=
  { x with wasInHardUnknownReachPhase := x.inHardUnknownReachPhase
           inHardUnknownReachPhase := x.inHardUnknownReachPhase && x.stateType == .hard && x.lastStateType == .hard }

def endHardUnknownPhase : CheckState :=
  if x.inHardUnknownReachPhase ∧ x.state ≠ .unknown ∧ x.state ≠ .unreachable then { x with inHardUnknownReachPhase := false }
  else x

def denyHardUnknownPhase : CheckState :=
  if !x.inHardUnknownReachPhase ∧ x.wasInHardUnknownReachPhase ∧ x.state ≠ x.stateBeforeHardUnknownReachPhase then
    { x with wasInHardUnknownReachPhase := false }
  else x

def updateHardUnknownPhaseState : CheckState :=
  let x := x.leaveHardUnknownPhase
  if !x.inHardUnknownReachPhase ∧
      (x.state = .unknown ∧ x.lastState ≠ .unknown ∨ x.state = .unreachable ∧ x.lastState ≠ .unreachable) then
    { x with inHardUnknownReachPhase := true, stateBeforeHardUnknownReachPhase := x.lastState }
  else x.endHardUnknownPhase.denyHardUnknownPhase

end CheckState

namespace Host

def stateOfExitStatus (status : Int) : State × Int × Char :=
  if status = 0 then (.up, 0, 'u')
  else if status = 2 ∨ status = 3 then (.down, 1, 'd')
  else if status = 4 then (.unreachable, 4, 'x')
  else (.down, 1, 'd')

def lastTimeNonOkOrUp (x : CheckState) : Int :=
  if x.lastTime .up < x.lastTime .down then x.lastTime .down else 0

end Host

namespace Service

def stateOfExitStatus (status : Int) : State × Int × Char :=
  if status = 0 then (.ok, 0, 'o')
  else if status = 1 then (.warning, 1, 'w')
  else if status = 2 then (.critical, 2, 'c')
  else if status = 3 then (.unknown, 3, 'u')
  else if status = 4 then (.unreachable, 4, 'x')
  else (.critical, 2, 'c')

def lastTimeNonOkOrUp (x : CheckState) : Int :=
  let nonOkTimes := [x.lastTime .warning, x.lastTime .critical, x.lastTime .unknown].filter fun t => decide (x.lastTime .ok < t)
  nonOkTimes.min?.getD 0

end Service

def stateOfExitStatus : ItemType → Int → State × Int × Char
  | .host => Host.stateOfExitStatus
  | .service => Service.stateOfExitStatus

def lastTimeNonOkOrUp : ItemType → CheckState → Int
  | .host => Host.lastTimeNonOkOrUp
  | .service => Service.lastTimeNonOkOrUp

/-! ## The world -/

namespace World

variable (w : World) (i : Nat)

def modifySettings (f : Settings → Settings) : World := { w with settings := Function.update w.settings i (f (w.settings i)) }

def modifyCheckState (f : CheckState → CheckState) : World :=
  { w with checkState := Function.update w.checkState i (f (w.checkState i)) }

def modifyProblem (f : ProblemState → ProblemState) : World :=
  { w with problem := Function.update w.problem i (f (w.problem i)) }

def modifyDowntime (f : DowntimeState → DowntimeState) : World :=
  { w with downtime := Function.update w.downtime i (f (w.downtime i)) }

def modifyAck (f : AckState → AckState) : World := { w with ack := Function.update w.ack i (f (w.ack i)) }

def modifyAlert (f : AlertState → AlertState) : World := { w with alert := Function.update w.alert i (f (w.alert i)) }

def setNotificationStatus (n : Nat) (s : ActStatus) : World :=
  { w with notification := Function.update w.notification n { w.notification n with status := s } }

def setCheck (c : Nat) (x : Check) : World := { w with check := Function.update w.check c x }

def addComment (x : Comment) : World :=
  { w with comments := Function.update w.comments i ((w.comments i).set w.nextComment x), nextComment := w.nextComment + 1 }

def delComment (c : Nat) : World := { w with comments := Function.update w.comments i ((w.comments i).erase c) }

section
variable {i} {j : Nat}

@[simp] theorem modifySettings_self {f : Settings → Settings} :
    (w.modifySettings i f).settings i = f (w.settings i) := Function.update_self ..

theorem modifySettings_ne {f : Settings → Settings} (h : j ≠ i) :
    (w.modifySettings i f).settings j = w.settings j := Function.update_of_ne h ..

@[simp] theorem modifyCheckState_self {f : CheckState → CheckState} :
    (w.modifyCheckState i f).checkState i = f (w.checkState i) := Function.update_self ..

theorem modifyCheckState_ne {f : CheckState → CheckState} (h : j ≠ i) :
    (w.modifyCheckState i f).checkState j = w.checkState j := Function.update_of_ne h ..

@[simp] theorem modifyProblem_self {f : ProblemState → ProblemState} :
    (w.modifyProblem i f).problem i = f (w.problem i) := Function.update_self ..

theorem modifyProblem_ne {f : ProblemState → ProblemState} (h : j ≠ i) :
    (w.modifyProblem i f).problem j = w.problem j := Function.update_of_ne h ..

@[simp] theorem modifyDowntime_self {f : DowntimeState → DowntimeState} :
    (w.modifyDowntime i f).downtime i = f (w.downtime i) := Function.update_self ..

theorem modifyDowntime_ne {f : DowntimeState → DowntimeState} (h : j ≠ i) :
    (w.modifyDowntime i f).downtime j = w.downtime j := Function.update_of_ne h ..

@[simp] theorem modifyAck_self {f : AckState → AckState} :
    (w.modifyAck i f).ack i = f (w.ack i) := Function.update_self ..

theorem modifyAck_ne {f : AckState → AckState} (h : j ≠ i) :
    (w.modifyAck i f).ack j = w.ack j := Function.update_of_ne h ..

@[simp] theorem modifyAlert_self {f : AlertState → AlertState} :
    (w.modifyAlert i f).alert i = f (w.alert i) := Function.update_self ..

theorem modifyAlert_ne {f : AlertState → AlertState} (h : j ≠ i) :
    (w.modifyAlert i f).alert j = w.alert j := Function.update_of_ne h ..

end

end World

end Alignak.Scheduling
