import Mathlib.Data.List.Nodup
import Mathlib.Data.List.Perm.Basic
import Mathlib.Data.List.Range
import Mathlib.Data.Rat.Defs
import Mathlib.Algebra.Order.Ring.Rat
import Mathlib.Logic.Function.Basic
import Mathlib.Tactic.Common

/-!
# The broker

A loop turn asks the schedulers for their initial broks, then collects the broks
of the broker itself, of the arbiters and of the satellites in one list.
-/

namespace Alignak.Broker

structure Brok where
  data : String
  instanceId : Option String
  prepared : Bool
  /-- The attribute is missing on a new brok. -/
  toBeSent : Option Bool
  deriving Repr

structure Conf where
  schedulers : List Nat
  pollers : List Nat
  reactionners : List Nat
  receivers : List Nat
  instanceId : Nat → String
  externalModules : List Nat
  internalModules : List Nat
  external_nodup : externalModules.Nodup
  internal_nodup : internalModules.Nodup

/-- A call of a satellite. A link that is not alive returns `None`. -/
inductive Answer (α : Type)
  | returned (value : Option α)
  | linkError
  deriving Repr

structure World where
  gotInitialBroks : Bool
  brok : Nat → Brok
  nextBrok : Nat
  externalBroks : List Nat
  internalBroks : List Nat
  arbiterBroks : List Nat
  /-- The broks of the external modules, in their `from_q`. -/
  fromQueues : List Nat
  /-- The batches in the queue of an external module. -/
  put : Nat → List (List Nat)
  /-- The broks that an internal module has been called with. -/
  handed : Nat → List Nat
  toRestart : List Nat
  /-- What each turn has collected, with the modules whose queue took a batch. -/
  collected : List (List Nat × (Nat → Bool))
  /-- An exception has left the main loop. -/
  ended : Bool

def World.arrived (w : World) : List Nat := w.collected.flatMap Prod.fst

structure Env where
  getBroks : Nat → Answer (List String)
  queueAccepts : Nat → Bool
  raises : Nat → Nat → Bool
  now : Nat → Rat

def World.modifyBrok (b : Nat) (f : Brok → Brok) (w : World) : World :=
  { w with brok := Function.update w.brok b (f (w.brok b)) }

def World.newBroks (data : List String) (instanceId : Option String) (w : World) : List Nat × World :=
  ((List.range data.length).map (w.nextBrok + ·),
    { w with
      brok := fun b => if w.nextBrok ≤ b ∧ b < w.nextBrok + data.length
        then ⟨data.getD (b - w.nextBrok) "", instanceId, false, none⟩ else w.brok b
      nextBrok := w.nextBrok + data.length })

/-! ## Initial broks -/

section
variable {σ : Type} (ask : Nat → σ → Answer Nat × σ)

def askInitialBroks : List Nat → World → σ → World × σ × Bool
  | [], w, s => (w, s, true)
  | i :: is, w, s =>
    match ask i s with
    | (.linkError, s) => askInitialBroks is w s
    | (.returned myInitialBroks, s) =>
      if myInitialBroks.getD 0 = 0 then (w, s, false)
      else askInitialBroks is { w with gotInitialBroks := true } s

end

/-! ## Collection -/

def World.extendExternal (broks : List Nat) (w : World) : World :=
  { w with externalBroks := w.externalBroks ++ broks }

def getInternalBroks (w : World) : World := { w.extendExternal w.internalBroks with internalBroks := [] }

def getArbiterBroks (w : World) : World := { w.extendExternal w.arbiterBroks with arbiterBroks := [] }

def getBroksOf (conf : Conf) (env : Env) (w : World) (i : Nat) : World :=
  match env.getBroks i with
  | .linkError | .returned none => w
  | .returned (some data) =>
    let (broks, w) := w.newBroks data (some (conf.instanceId i))
    w.extendExternal broks

def getNewBroks (conf : Conf) (env : Env) (w : World) : World :=
  [conf.schedulers, conf.pollers, conf.reactionners, conf.receivers].foldl
    (fun w satellites => satellites.foldl (getBroksOf conf env) w) w

def collect (conf : Conf) (env : Env) (w : World) : World :=
  let v := getNewBroks conf env (getArbiterBroks (getInternalBroks w))
  { v with collected := w.collected ++ [(v.externalBroks.drop w.externalBroks.length, env.queueAccepts)] }

/-! ## The external modules -/

def World.broksToSend (w : World) : List Nat := w.externalBroks.filter fun b => (w.brok b).toBeSent.getD true

def putTo (env : Env) (broks : List Nat) (w : World) (m : Nat) : World :=
  if env.queueAccepts m then { w with put := Function.update w.put m (w.put m ++ [broks]) }
  else { w with toRestart := w.toRestart ++ [m] }

def sendBroks (conf : Conf) (env : Env) (w : World) : World :=
  let broks := w.broksToSend
  let w := conf.externalModules.foldl (putTo env broks) w
  broks.foldl (fun w b => w.modifyBrok b fun x => { x with toBeSent := some false }) w

/-! ## The internal modules -/

def handTo (env : Env) (b : Nat) (w : World) (m : Nat) : World :=
  let w := { w with handed := Function.update w.handed m (w.handed m ++ [b]) }
  if env.raises m b then { w with toRestart := w.toRestart ++ [m] } else w

def manageBrok (conf : Conf) (env : Env) (b : Nat) (w : World) : World :=
  conf.internalModules.foldl (handTo env b) (w.modifyBrok b fun x => { x with prepared := true })

/-- The loop until the time limit; `i` counts the readings of the clock. -/
def manageBroks (conf : Conf) (env : Env) : Nat → Nat → World → World
  | 0, _, w => w
  | fuel + 1, i, w =>
    match w.externalBroks with
    | [] => w
    | b :: broks =>
      if 4 / 5 < env.now i - env.now 0 then w
      else
        let w := { w with externalBroks := broks }
        if conf.internalModules ≠ [] then manageBroks conf env fuel (i + 1) (manageBrok conf env b w)
        else if (w.brok b).toBeSent.getD false then manageBroks conf env fuel (i + 1) (w.extendExternal [b])
        else manageBroks conf env fuel (i + 1) w

/-! ## The loop turn -/

section
variable {σ : Type} (conf : Conf)

def manage (env : Env) (w : World) : World :=
  let w := sendBroks conf env (collect conf env w)
  manageBroks conf env w.externalBroks.length 1 w

/-- `add` asks the broker for `broks_lock`, which it does not have: the first brok is an `AttributeError`. -/
def getObjectsFromFromQueues (w : World) : World :=
  match w.fromQueues with
  | [] => w
  | _ :: broks => { w with fromQueues := broks, ended := true }

def doLoopTurn (ask : Nat → σ → Answer Nat × σ) (env : Env) (w : World) (s : σ) : World × σ :=
  let (w, s, goesOn) := if w.gotInitialBroks then (w, s, true) else askInitialBroks ask conf.schedulers w s
  if goesOn then (getObjectsFromFromQueues (manage conf env w), s) else (w, s)

end

/-! ## Runs -/

inductive Event
  /-- An external module puts a brok in its `from_q`. -/
  | raised (data : String)
  /-- An arbiter pushes its broks. -/
  | pushed (data : List String) (instanceId : Option String)
  | turn (ask : Nat → Unit → Answer Nat × Unit) (env : Env)

def World.step (conf : Conf) (w : World) (e : Event) : World :=
  if w.ended then w
  else match e with
    | .raised data => { (w.newBroks [data] none).2 with fromQueues := w.fromQueues ++ (w.newBroks [data] none).1 }
    | .pushed data instanceId =>
      { (w.newBroks data instanceId).2 with arbiterBroks := w.arbiterBroks ++ (w.newBroks data instanceId).1 }
    | .turn ask env => (doLoopTurn conf ask env w ()).1

end Alignak.Broker
