import Mathlib.Data.List.Nodup
import Mathlib.Data.List.Perm.Basic
import Mathlib.Data.List.Flatten
import Mathlib.Logic.Function.Basic
import Mathlib.Tactic.Common

/-!
# The broks of a scheduler

One brok is in the lists of all the brokers, with the flags that the functions
of `scheduler.py` and `schedulerdaemon.py` keep on it.
-/

namespace Alignak.Broks

structure Content where
  type : String
  data : String
  deriving DecidableEq, Repr

structure Brok where
  content : Content
  creationTime : Int
  instanceId : Option String
  toSend : Bool
  sentToExternals : Bool
  got : Bool
  deriving Repr

structure BrokerLink where
  uuid : String
  name : String
  broks : List Nat
  initialized : Bool
  deriving Repr

def BrokerLink.append (b : Nat) (l : BrokerLink) : BrokerLink := { l with broks := l.broks ++ [b] }

structure ExternalModule where
  wantBrok : Content → Bool
  toQ : Option (List (List Nat))

def ExternalModule.put (broks : List Nat) (m : ExternalModule) : ExternalModule :=
  { m with toQ := m.toQ.map (· ++ [broks]) }

def ExternalModule.broks (m : ExternalModule) : List Nat := (m.toQ.getD []).flatten

structure World where
  instanceId : String
  brok : Nat → Brok
  nextBrok : Nat
  brokers : List BrokerLink
  modules : List ExternalModule
  events : List Nat
  nbBroks : Nat
  /-- What the requests of a broker have been answered. -/
  given : String → List Nat

def World.modifyBrok (b : Nat) (f : Brok → Brok) (w : World) : World :=
  { w with brok := Function.update w.brok b (f (w.brok b)) }

def World.modifyBroks (broks : List Nat) (f : Brok → Brok) (w : World) : World :=
  broks.foldl (fun w b => w.modifyBrok b f) w

def World.newBrok (content : Content) (creationTime : Int) (w : World) : World :=
  { w with
    brok := Function.update w.brok w.nextBrok ⟨content, creationTime, none, false, false, false⟩
    nextBrok := w.nextBrok + 1 }

/-! ## Additions -/

def World.addEvent (b : Nat) (w : World) : World :=
  if (w.brok b).content.type = "monitoring_log" then { w with events := w.events ++ [b] } else w

def World.addFor (b : Nat) (brokerUuid : String) (w : World) : World :=
  if brokerUuid ∈ w.brokers.map BrokerLink.uuid then
    { w with
      brokers := w.brokers.map fun l => if l.uuid = brokerUuid then l.append b else l
      nbBroks := w.nbBroks + 1 }
  else w

def World.addForAll (b : Nat) (w : World) : World :=
  { w with brokers := w.brokers.map (BrokerLink.append b), nbBroks := w.nbBroks + w.brokers.length }

def addBrok (b : Nat) (brokerUuid : Option String) (w : World) : World :=
  let w := (w.modifyBrok b fun x => { x with instanceId := some w.instanceId }).addEvent b
  match brokerUuid.filter (· ≠ "") with
  | some uuid => w.addFor b uuid
  | none => w.addForAll b

/-! ## The passes for the modules -/

def World.unsent (w : World) : List Nat :=
  w.brokers.flatMap fun l => l.broks.filter fun b => !(w.brok b).sentToExternals

def Brok.setToSend (x : Brok) : Brok := { x with toSend := true }

def Brok.setSent (x : Brok) : Brok :=
  if x.sentToExternals then x else { x with toSend := false, sentToExternals := true }

def World.putToModules (broks : List Nat) (w : World) : World :=
  { w with modules := w.modules.map fun m => m.put (broks.filter fun b => m.wantBrok (w.brok b).content) }

def sendBroksToModules (w : World) : World :=
  let broks := w.unsent
  let w := w.modifyBroks broks Brok.setToSend
  if broks = [] then w
  else (w.putToModules broks).modifyBroks (w.brokers.flatMap BrokerLink.broks) Brok.setSent

/-! ## The requests of the brokers -/

def Brok.setGot (x : Brok) : Brok := { x with got := true }

def World.answer (l : BrokerLink) (w : World) : List Nat :=
  (l.broks.mergeSort fun a b => (w.brok a).creationTime ≤ (w.brok b).creationTime).filter fun b =>
    (w.brok b).sentToExternals

def cleanLinks (brokerName : String) (got : Nat → Bool) : List BrokerLink → List BrokerLink
  | [] => []
  | l :: ls =>
    if brokerName = l.name then { l with broks := l.broks.filter fun b => !got b } :: ls
    else l :: cleanLinks brokerName got ls

def giveBroks (brokerName : String) (w : World) : List Nat × World :=
  if brokerName = "" then ([], w)
  else match w.brokers.find? fun l => brokerName = l.name with
    | none => ([], w)
    | some l =>
      let res := w.answer l
      let w := w.modifyBroks res Brok.setGot
      (res, { w with brokers := cleanLinks brokerName (fun b => (w.brok b).got) w.brokers })

/-! ## Runs -/

inductive Event
  | addBrok (content : Content) (creationTime : Int) (brokerUuid : Option String)
  | sendBroksToModules
  | giveBroks (brokerName : String)
  deriving Repr

def World.step (w : World) : Event → World
  | .addBrok content creationTime brokerUuid => addBrok w.nextBrok brokerUuid (w.newBrok content creationTime)
  | .sendBroksToModules => Broks.sendBroksToModules w
  | .giveBroks brokerName =>
    let (res, v) := Broks.giveBroks brokerName w
    { v with given := Function.update v.given brokerName (v.given brokerName ++ res) }

def World.run (w : World) (events : List Event) : World := events.foldl World.step w

/-- The brokers and the modules are known, and nothing has been raised yet. -/
structure Initial (w : World) : Prop where
  names : (w.brokers.map BrokerLink.name).Nodup
  named : ∀ l ∈ w.brokers, l.name ≠ ""
  links : ∀ l ∈ w.brokers, l.broks = []
  queues : ∀ m ∈ w.modules, m.broks = []
  given : ∀ name, w.given name = []

end Alignak.Broks
