import Alignak.Effect
import Alignak.Dict
import Mathlib.Logic.Function.Basic

/-!
# Satellite links

A link to a daemon of the framework, as the arbiter has it.
-/

namespace Alignak.Dispatching

/-- What a function of the source raises. -/
inductive Raised
  | dispatcherError
  | linkError
  | systemExit
  | attributeError
  | keyError
  deriving DecidableEq, Repr

inductive Response (α : Type)
  | content (a : α)
  | refused (status : Nat)
  | timeout
  | connectionError
  | otherError
  deriving DecidableEq, Repr

/-- The exceptions of the HTTP client. -/
inductive HTTPClientException
  | connection
  | timeout
  | data
  | other
  deriving DecidableEq, Repr

/-- `HTTPClient.get` and `HTTPClient.post`: the last handler also catches the
exception that is raised for a status that is not 200. -/
def Response.request {α : Type} : Response α → Except HTTPClientException α
  | .content a => .ok a
  | .refused _ => .error .other
  | .timeout => .error .timeout
  | .connectionError => .error .connection
  | .otherError => .error .other

/-- The result of a decorated call: `None`, `False`, or what the daemon gave. -/
inductive Answer (α : Type)
  | none
  | false
  | got (a : α)
  deriving DecidableEq, Repr

structure Managed where
  managedConfId : Nat
  pushFlavor : Nat
  deriving DecidableEq, Repr

structure SatSchedulerCfg where
  scheduler : Nat
  managedConfId : Nat
  pushFlavor : Nat
  deriving DecidableEq, Repr

inductive CfgToManage
  | whole
  | part (p : Nat)
  deriving DecidableEq, Repr

/-- `putConfDone` is a history variable: the last call of `put_conf` on the
link has succeeded. The source drops the result of this call. -/
structure SatelliteLink where
  con : Bool := false
  runningId : Nat := 0
  alive : Bool := false
  reachable : Bool := false
  attempt : Int := 0
  lastCheck : Int := 0
  needConf : Bool := true
  configurationSent : Bool := false
  cfgManaged : Option (List Managed) := none
  cfgToManage : Option CfgToManage := none
  schedulers : Dict Nat (Option SatSchedulerCfg) := Dict.empty
  putConfDone : Bool := false

structure Part where
  isAssigned : Bool := false
  schedulerLink : Option Nat := none
  pushFlavor : Nat := 0
  deriving DecidableEq, Repr

namespace SatelliteLink

variable (x : SatelliteLink)

def setAlive : SatelliteLink := { x with alive := true, reachable := true, attempt := 0 }

def setDead : SatelliteLink := { x with alive := false, reachable := false, attempt := 0, con := false }

def addFailedCheckAttempt (maxCheckAttempts : Int) : SatelliteLink :=
  let x := { x with reachable := false, attempt := x.attempt + 1 }
  if maxCheckAttempts ≤ x.attempt then x.setDead else x

def manages (p : Nat) (part : Part) : Bool :=
  match x.cfgManaged with
  | none => false
  | some managed => managed.any fun m => m.managedConfId == p && m.pushFlavor == part.pushFlavor

end SatelliteLink

end Alignak.Dispatching
