import Alignak.Exn
import Alignak.Numerals
import Mathlib.Data.List.MinMax

/-!
# Business rule nodes

The tree of a business rule and its state, after `dependencynode.py`. A leaf
watches a host or a service; the state of the other nodes is combined from the
states of their sons.
-/

namespace Alignak

inductive ItemKind
  | host
  | service
  deriving DecidableEq, Repr

inductive Operator
  | or
  | and
  | of
  deriving DecidableEq, Repr

structure OfValues where
  ok : List Char
  warn : List Char
  crit : List Char
  deriving DecidableEq, Repr

/-- `object` is the operand of a name that was not found. -/
inductive DependencyNode (ν : Type)
  | leaf (kind : ItemKind) (uuid : ν) (notValue : Bool)
  | object (notValue : Bool) (error : String)
  | level (operand : Option Operator) (sons : List (Option (DependencyNode ν))) (ofValues : OfValues) (isOfMul : Bool)
      (notValue : Bool) (configurationErrors : List String)

structure Watched where
  lastHardStateId : Nat
  problemHasBeenAcknowledged : Bool
  inScheduledDowntime : Bool
  deriving DecidableEq, Repr

structure RuleItems (ν : Type) where
  watched : ItemKind → ν → Watched
  reaches : Nat → Nat → Int → Bool

namespace DependencyNode

def getReverseState (state : Nat) : Nat :=
  if state = 1 then 1 else if state = 0 then 2 else if state = 2 then 0 else state

def maskedState (item : Watched) (state : Nat) : Nat :=
  if item.problemHasBeenAcknowledged || item.inScheduledDowntime then 0 else state

def getHostNodeState (item : Watched) (notValue : Bool) : Nat :=
  let state := maskedState item (if item.lastHardStateId = 1 then 2 else item.lastHardStateId)
  if notValue then if state ≠ 0 then 0 else 2 else state

def getServiceNodeState (item : Watched) (notValue : Bool) : Nat :=
  let state := maskedState item item.lastHardStateId
  if notValue then if state = 2 then 0 else if state = 0 then 2 else state else state

def bestState (states : List Nat) : Except Exn Nat :=
  match states.min? with
  | some state => .ok state
  | none => .error .valueError

def worstState (states : List Nat) : Except Exn Nat :=
  if 2 ∈ states then .ok 2
  else match states.max? with
    | some state => .ok state
    | none => .error .valueError

/-- `int` of a text. -/
def intOf (text : List Char) : Except Exn Int := (Numerals.toInt text).mapError fun _ => .valueError

def fromTotal (total n : Int) : Int := if n < 0 then max (total + n) 0 else n

def getStateFor (reaches : Nat → Nat → Int → Bool) (nbTot nbReal : Nat) (nbSearch : List Char) : Except Exn Bool :=
  if nbSearch.getLast? = some '%' then do
    let n ← intOf nbSearch.dropLast
    if nbTot = 0 then .error .zeroDivisionError else return reaches nbReal nbTot (fromTotal 100 n)
  else do
    let n ← intOf nbSearch
    return decide (fromTotal nbTot n ≤ nbReal)

def xofState (reaches : Nat → Nat → Int → Bool) (ofValues : OfValues) (isOfMul : Bool) (states : List Nat) : Except Exn Nat := do
  let nbOk := states.count 0
  let nbWarn := states.count 1
  let nbCrit := states.count 2
  let okApply ← getStateFor reaches states.length nbOk ofValues.ok
  let warnApply ← getStateFor reaches states.length (nbWarn + nbCrit) ofValues.warn
  let critApply ← getStateFor reaches states.length nbCrit ofValues.crit
  if critApply then return 2
  else if warnApply then return 1
  else if okApply then return 0
  else if isOfMul then return 0
  else worstState states

def combinedState (reaches : Nat → Nat → Int → Bool) (operand : Operator) (ofValues : OfValues) (isOfMul : Bool)
    (states : List Nat) : Except Exn Nat :=
  match operand with
  | .or => bestState states
  | .and => worstState states
  | .of => xofState reaches ofValues isOfMul states

section
variable {ν : Type} (items : RuleItems ν)

mutual
def getState : DependencyNode ν → Except Exn Nat
  | leaf .host uuid notValue => .ok (getHostNodeState (items.watched .host uuid) notValue)
  | leaf .service uuid notValue => .ok (getServiceNodeState (items.watched .service uuid) notValue)
  | object _ _ => .ok 4
  | level none _ _ _ _ _ => .ok 4
  | level (some operand) sons ofValues isOfMul notValue _ => do
    let states ← statesOf sons
    let state ← combinedState items.reaches operand ofValues isOfMul states
    return if notValue then getReverseState state else state

def statesOf : List (Option (DependencyNode ν)) → Except Exn (List Nat)
  | [] => .ok []
  | none :: _ => .error .attributeError
  | some son :: sons => do
    let state ← getState son
    let states ← statesOf sons
    return state :: states
end

mutual
/-- The sons that the parser has returned as `None` are not looked at. -/
def isValid : DependencyNode ν → Bool
  | leaf _ _ _ => true
  | object _ _ => false
  | level _ sons _ _ _ _ => !sons.isEmpty && allValid sons

def allValid : List (Option (DependencyNode ν)) → Bool
  | [] => true
  | none :: sons => allValid sons
  | some son :: sons => isValid son && allValid sons
end

mutual
/-- The messages of a node, after `is_valid` has gathered those of its sons. -/
def gatheredErrors : DependencyNode ν → List String
  | leaf _ _ _ => []
  | object _ error => [error]
  | level _ sons _ _ _ configurationErrors => configurationErrors ++ invalidErrors sons

def invalidErrors : List (Option (DependencyNode ν)) → List String
  | [] => []
  | none :: sons => invalidErrors sons
  | some son :: sons => if isValid son then invalidErrors sons else gatheredErrors son ++ invalidErrors sons
end

/-- The assignment `son.not_value = True`. -/
def withNot : DependencyNode ν → DependencyNode ν
  | leaf kind uuid _ => leaf kind uuid true
  | object _ error => object true error
  | level operand sons ofValues isOfMul _ errors => level operand sons ofValues isOfMul true errors

def switchZeros (nbSons : Nat) (values : OfValues) : OfValues :=
  let switch := fun value => if value = ['0'] then Nat.toDigits 10 nbSons else value
  ⟨switch values.ok, switch values.warn, switch values.crit⟩

end

end DependencyNode

end Alignak
