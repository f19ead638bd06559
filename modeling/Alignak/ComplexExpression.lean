import Alignak.Exn
import Alignak.Strip
import Mathlib.Data.Finset.Lattice.Basic
import Mathlib.Data.Finset.SDiff
import Mathlib.Data.Finset.Dedup

/-!
# Expressions of hosts groups

The expressions of `complexexpression.py`, by which services select the hosts
that they are on.
-/

namespace Alignak.ComplexExpression

structure ExpressionScope where
  inHostgroups : Bool
  ctx : String
  allElements : List (List Char × Bool)
  findByName : List Char → Option (List (List Char))
  findHostsThatUseTemplate : List Char → List (List Char)

inductive Operator
  | and
  | or
  deriving DecidableEq, Repr

inductive ComplexExpressionNode
  | leaf (notValue : Bool) (content : Option (List (List Char))) (configurationErrors : List String)
  | level (operand : Option Operator) (sons : List ComplexExpressionNode)

namespace ComplexExpressionNode

def notValue : ComplexExpressionNode → Bool
  | .leaf notValue _ _ => notValue
  | .level _ _ => false

def combine (operand : Operator) (members : List (Finset (List Char))) : Finset (List Char) :=
  (members.foldl (fun (res : Nat × Finset (List Char)) nodeMembers =>
    (res.1 + 1, match operand with
      | .or => res.2 ∪ nodeMembers
      | .and => if res.1 = 0 then nodeMembers else res.2 ∩ nodeMembers)) (0, ∅)).2

def exclude (res : Finset (List Char)) (members : List (Finset (List Char))) : Finset (List Char) := members.foldl (· \ ·) res

mutual

def resolveElements : ComplexExpressionNode → Finset (List Char)
  | .leaf _ content _ => (content.getD []).toFinset
  | .level operand sons =>
    let members := resolveSons sons
    exclude (combine (operand.getD .or) ((members.filter fun son => !son.1).map Prod.snd))
      ((members.filter fun son => son.1).map Prod.snd)

def resolveSons : List ComplexExpressionNode → List (Bool × Finset (List Char))
  | [] => []
  | son :: sons => (son.notValue, resolveElements son) :: resolveSons sons

end

end ComplexExpressionNode

/-! ## A level of the text -/

structure Scan where
  operand : Option Operator
  texts : List (List Char)
  tmp : List Char
  inPar : Bool
  stackedPar : Int

namespace Scan

def start : Scan := ⟨none, [], [], false, 0⟩

variable (s : Scan)

def addText : Scan := { s with texts := s.texts ++ [s.tmp], tmp := [] }

def cut (operator : Operator) (char : Char) : Scan :=
  if s.inPar then { s with tmp := s.tmp ++ [char] }
  else
    let s := { s with tmp := strip s.tmp, operand := some operator }
    if s.tmp ≠ [] then s.addText else s

def openPar : Scan :=
  let s := { s with stackedPar := s.stackedPar + 1, inPar := true, tmp := strip s.tmp }
  -- a text before the parenthesis is an error that is printed only
  if s.stackedPar = 1 ∧ s.tmp ≠ [] then s
  else if 1 < s.stackedPar then { s with tmp := s.tmp ++ ['('] }
  else s

def closePar : Scan :=
  let s := { s with stackedPar := s.stackedPar - 1 }
  if s.stackedPar < 0 then s
  else if s.stackedPar = 0 then { s with tmp := strip s.tmp, inPar := false }.addText
  else { s with tmp := s.tmp ++ [')'] }

def step (char : Char) : Scan :=
  if char = ',' ∨ char = '|' then s.cut .or char
  else if char = '&' ∨ char = '+' then s.cut .and char
  else if char = '(' then s.openPar
  else if char = ')' then s.closePar
  else { s with tmp := s.tmp ++ [char] }

def finish : Scan :=
  let s := { s with tmp := strip s.tmp }
  if s.tmp ≠ [] then s.addText else s

def run (pattern : List Char) : Scan := (pattern.foldl step s).finish

end Scan

/-! ## The factory -/

section
variable (scope : ExpressionScope)

def stripAndUniq (tab : List (List Char)) : List (List Char) :=
  tab.foldl (fun list elt => if strip elt ≠ [] ∧ strip elt ∉ list then list ++ [strip elt] else list) []

def allHosts : List (List Char) := (scope.allElements.filter fun h => decide (h.1 ≠ []) && !h.2).map Prod.fst

def findObject (pattern : List Char) : Option (List (List Char)) × Option String :=
  let pattern := strip pattern
  if pattern = ['*'] then (some (allHosts scope), none)
  else if scope.inHostgroups then
    match scope.findByName pattern with
    | none => (none, some ("Error : cannot find the " ++ scope.ctx ++ " of the expression '" ++ String.ofList pattern ++ "'"))
    | some hosts =>
      let elts := stripAndUniq hosts
      (some (if ['*'] ∈ elts then (elts ++ allHosts scope).erase ['*'] else elts), none)
  else (some (scope.findHostsThatUseTemplate pattern), none)

def isComplex (pattern : List Char) : Bool := pattern.any ("()+&|,".toList.contains ·)

def evalSimplePattern (pattern : List Char) : ComplexExpressionNode :=
  let (notValue, pattern) := match pattern with
    | '!' :: rest => (true, rest)
    | rest => (false, rest)
  match findObject scope pattern with
  | (some obj, _) => .leaf notValue (some obj) []
  | (none, error) => .leaf notValue none error.toList

/-- The fuel bounds the depth of the parentheses. -/
def evalCorPattern : Nat → List Char → Except Exn ComplexExpressionNode
  | 0, _ => .error .diverges
  | fuel + 1, pattern =>
    if isComplex (strip pattern) then do
      let s := Scan.start.run (strip pattern)
      let sons ← s.texts.mapM (evalCorPattern fuel)
      return .level s.operand sons
    else .ok (evalSimplePattern scope (strip pattern))

def evaluateHostgroupExpression (expr : List Char) : Except Exn (Finset (List Char)) := do
  let exprTree ← evalCorPattern scope (expr.length + 1) expr
  return exprTree.resolveElements

end

end Alignak.ComplexExpression
