import Alignak.SchedulingItem
import Mathlib.Order.Bounds.Basic
import Mathlib.Algebra.Order.Ring.Rat
import Mathlib.Tactic.Linarith

/-!
# Escalations and the next notification

A notification is repeated after the interval of its item, or earlier when an
escalation that counts in time begins before.
-/

namespace Alignak.Scheduling

inductive EscalationRange
  | numbers (firstNotification lastNotification : Int)
  | times (firstNotificationTime lastNotificationTime : Int)
  deriving DecidableEq, Repr

structure Escalation where
  escalationName : String
  range : EscalationRange
  notificationInterval : Int
  escalationPeriod : Option Nat
  escalationOptions : List Char
  deriving DecidableEq, Repr

/-- The table of `is_eligible`. -/
def eligibleLetter : State → Option Char
  | .warning => some 'w'
  | .unknown => some 'u'
  | .critical => some 'c'
  | .down => some 'd'
  | .unreachable => some 'x'
  | .ok => some 'o'
  | .up => some 'o'
  | .pending => none

/-- The table of `get_next_notif_time`. -/
def nextTimeLetter : State → Option Char
  | .warning => some 'w'
  | .unknown => some 'u'
  | .critical => some 'c'
  | .down => some 'd'
  | .unreachable => some 'u'
  | .ok => some 'o'
  | .up => some 'o'
  | .pending => none

structure RepeatEnv where
  now : Rat
  later : Rat
  intervalLength : Int
  isTimeValid : Nat → Rat → Bool

structure RepeatedItem where
  state : State
  notificationInterval : Int
  escalations : List Escalation

structure RepeatedNotification where
  tToGo : Rat
  notifNb : Int
  creationTime : Rat
  alreadyStartEscalations : List String

namespace Escalation

variable (env : RepeatEnv) (x : Escalation)

/-- A state without a letter is never left out. -/
def hasOption (letter : Option Char) : Bool :=
  match letter with
  | some c => x.escalationOptions.contains c
  | none => true

def inPeriod (timestamp : Rat) : Bool :=
  match x.escalationPeriod with
  | some p => env.isTimeValid p timestamp
  | none => true

def inRange (notifNumber : Int) (inNotifTime : Rat) : Bool :=
  match x.range with
  | .numbers firstNotification lastNotification =>
    !(decide (notifNumber < firstNotification)) && !(lastNotification != 0 && decide (lastNotification < notifNumber))
  | .times firstNotificationTime lastNotificationTime =>
    !(decide (inNotifTime < firstNotificationTime * env.intervalLength)) &&
      !(lastNotificationTime != 0 && decide ((lastNotificationTime * env.intervalLength : Rat) < inNotifTime))

def isEligible (timestamp : Rat) (status : State) (notifNumber : Int) (inNotifTime : Rat) : Bool :=
  x.inRange env notifNumber inNotifTime && x.hasOption (eligibleLetter status) && x.inPeriod env timestamp

def start (creationTime : Rat) : Option Rat :=
  match x.range with
  | .numbers _ _ => none
  | .times firstNotificationTime _ => some (firstNotificationTime * env.intervalLength + creationTime)

def getNextNotifTime (tWished : Rat) (status : State) (creationTime : Rat) : Option Rat :=
  match x.start env creationTime with
  | none => none
  | some start =>
    if !x.hasOption (nextTimeLetter status) then none
    else if tWished < start then none
    else if !x.inPeriod env start then none
    else some start

end Escalation

section
variable (env : RepeatEnv) (item : RepeatedItem) (notif : RepeatedNotification)

def activeInterval : Int :=
  item.escalations.foldl (fun interval x =>
    if x.isEligible env notif.tToGo item.state notif.notifNb (env.later - notif.creationTime) &&
        (x.notificationInterval != -1 && decide (x.notificationInterval < interval)) then x.notificationInterval
    else interval) item.notificationInterval

def standardTime : Rat :=
  let delay : Rat := activeInterval env item notif * env.intervalLength
  if notif.tToGo + delay < env.now then env.now + delay else notif.tToGo + delay

def earlier (stdTime : Rat) (res : Rat) (x : Escalation) : Rat :=
  if x.escalationName ∈ notif.alreadyStartEscalations then res
  else match x.getNextNotifTime env stdTime item.state notif.creationTime with
    | none => res
    | some nextT => if env.now < nextT ∧ nextT < res then nextT else res

def getNextNotificationTime : Rat :=
  item.escalations.foldl (earlier env item notif (standardTime env item notif)) (standardTime env item notif)

/-! ## What is asked for -/

/-- The escalation counts in time, has not been raised, and becomes eligible at the instant after now. -/
def BecomesEligible (x : Escalation) (t : Rat) : Prop :=
  x.escalationName ∉ notif.alreadyStartEscalations ∧ x.start env notif.creationTime = some t ∧ env.now < t ∧
    x.isEligible env t item.state notif.notifNb (t - notif.creationTime) = true

def repeatTimes : Set Rat :=
  insert (standardTime env item notif) {t | ∃ x ∈ item.escalations, BecomesEligible env item notif x t}

end

end Alignak.Scheduling
