import Alignak.DependencyNode

/-!
# Business rules

The parser of `bp_rule` texts, the factory of `dependencynode.py`.
-/

namespace Alignak

/-- A selection answers its items or the text of a `re.error`; what else its
expression raises is not caught. -/
structure RuleScope (ν : Type) where
  boundHostName : List Char
  findHost : List Char → Option ν
  findService : List Char → List Char → Option ν
  selectHosts : List Char → Except Exn (Except String (List ν))
  selectServices : List Char → List Char → Except Exn (Except String (List ν))

/-! ## The of-prefix -/

def takeOne (char : Char) (pattern : List Char) : List Char × List Char :=
  if pattern.head? = some char then ([char], pattern.tail) else ([], pattern)

/-- A match of `(-?\d*%?)`, as long as it can be. -/
def thresholdPrefix (pattern : List Char) : List Char × List Char :=
  let (sign, pattern) := takeOne '-' pattern
  let (digits, pattern) := pattern.span Numerals.isDecimal
  let (percent, pattern) := takeOne '%' pattern
  (sign ++ digits ++ percent, pattern)

structure XofPrefix where
  values : OfValues
  isOfMul : Bool
  rest : List Char
  deriving DecidableEq, Repr

/-- The last group `.+` takes the rest of the line; it takes back a space
where the line ends there. -/
def lineAfter (pattern : List Char) : Option (List Char) :=
  let line := (pattern.dropWhile (· = ' ')).takeWhile (· ≠ '\n')
  if line ≠ [] then some line
  else if pattern.head? = some ' ' then some [' ']
  else none

def afterOf (pattern : List Char) : Option (List Char) :=
  match pattern.dropWhile (· = ' ') with
  | 'o' :: 'f' :: ':' :: rest => lineAfter rest
  | _ => none

@[irreducible] def evalXofPattern (pattern : List Char) : Option XofPrefix :=
  let (first, rest) := thresholdPrefix pattern
  let (second, rest) := thresholdPrefix (rest.dropWhile (· = ','))
  let (third, rest) := thresholdPrefix (rest.dropWhile (· = ','))
  if first.any Numerals.isDecimal then
    (afterOf rest).map fun line =>
      if second ≠ [] ∧ third ≠ [] then ⟨⟨first, second, third⟩, true, line⟩ else ⟨⟨first, ['0'], ['0']⟩, false, line⟩
  else none

/-! ## A level of the text -/

/-- The node that is built, and the variables of the loop. `isNone` says that
the loop has returned `None`. -/
structure RuleScan (α : Type) where
  operand : Option Operator
  sons : List α
  tmp : List Char
  inPar : Bool
  sonIsNot : Bool
  stackedParenthesis : Int
  isNone : Bool

namespace RuleScan

def start {α : Type} (operand : Option Operator) : RuleScan α := ⟨operand, [], [], false, false, 0, false⟩

variable {m : Type → Type} [Monad m] {α : Type} (newSon : Bool → List Char → m α) (s : RuleScan α)

def addSon : m (RuleScan α) := do
  let son ← newSon s.sonIsNot s.tmp
  return { s with sons := s.sons ++ [son], sonIsNot := false, tmp := [] }

def openParenthesis : RuleScan α :=
  let s := { s with stackedParenthesis := s.stackedParenthesis + 1, inPar := true, tmp := strip s.tmp }
  -- a text before the parenthesis is an error that is printed only
  if s.stackedParenthesis = 1 ∧ s.tmp ≠ [] then s
  else if 1 < s.stackedParenthesis then { s with tmp := s.tmp ++ ['('] }
  else s

def closeParenthesis : m (RuleScan α) :=
  let s := { s with stackedParenthesis := s.stackedParenthesis - 1 }
  if s.stackedParenthesis < 0 then pure s
  else if s.stackedParenthesis = 0 then addSon newSon { s with tmp := strip s.tmp, inPar := false }
  else pure { s with tmp := s.tmp ++ [')'] }

def markNot : RuleScan α :=
  let s := { s with tmp := strip s.tmp }
  if s.tmp ≠ [] ∧ s.tmp.head? ≠ some '!' then s else { s with sonIsNot := true }

def cut (operator : Operator) : m (RuleScan α) :=
  let s := { s with tmp := strip s.tmp }
  if s.operand ≠ none ∧ s.operand ≠ some .of ∧ s.operand ≠ some operator then pure { s with isNone := true }
  else
    let s := { s with operand := if s.operand ≠ some .of then some operator else s.operand }
    if s.tmp ≠ [] then s.addSon newSon else pure s

def step (char : Char) : m (RuleScan α) :=
  if char = '(' then pure s.openParenthesis
  else if char = ')' then s.closeParenthesis newSon
  else if s.inPar then pure { s with tmp := s.tmp ++ [char] }
  else if char = '!' then pure s.markNot
  else if char = '&' then s.cut newSon .and
  else if char = '|' then s.cut newSon .or
  else pure { s with tmp := s.tmp ++ [char] }

def run : List Char → RuleScan α → m (RuleScan α)
  | [], s => pure s
  | char :: chars, s => do
    let s ← s.step newSon char
    if s.isNone then return s else run chars s

def finish : m (RuleScan α) :=
  let s := { s with tmp := strip s.tmp }
  if s.tmp ≠ [] then addSon newSon s else pure s

end RuleScan

/-! ## The factory -/

namespace DependencyNodeFactory

/-- The flags before a colon, or a star: `^([grlt]+|\*):`. -/
def isHostExpression (pattern : List Char) : Bool :=
  match pattern with
  | '*' :: rest => rest.head? = some ':'
  | _ =>
    let (flags, rest) := pattern.span ("grlt".toList.contains ·)
    !flags.isEmpty && rest.head? = some ':'

/-- After a comma the flags and a colon, or a star alone: `,\s*([grl]+:.*|\*)$`. -/
def isServiceExpression (pattern : List Char) : Bool :=
  pattern.tails.any fun tail =>
    match tail with
    | ',' :: rest =>
      let rest := rest.dropWhile isSpace
      let (flags, colon) := rest.span ("grl".toList.contains ·)
      rest = ['*'] || (!flags.isEmpty && colon.head? = some ':' && !colon.contains '\n')
    | _ => false

section
variable {ν : Type} (scope : RuleScope ν)

def quoted (text : List Char) : String := String.ofList text

def orBound (name : List Char) : List Char := if name = [] then scope.boundHostName else name

def findObject (pattern : List Char) : Except String (ItemKind × ν) :=
  let elts := pattern.splitOn ','
  let hostName := orBound scope (strip (elts.headD []))
  match elts[1]? with
  | some description =>
    match scope.findService hostName (strip description) with
    | some uuid => .ok (.service, uuid)
    | none => .error ("business rule uses unknown service " ++ quoted hostName ++ "/" ++ quoted (strip description))
  | none =>
    match scope.findHost hostName with
    | some uuid => .ok (.host, uuid)
    | none => .error ("business rule uses unknown host " ++ quoted hostName)

/-- The selected items, or the error of an empty selection. A pattern of more
than two elements cannot be unpacked. -/
def expandExpression (pattern : List Char) : Except Exn (Except String (ItemKind × List ν)) :=
  let selected := fun (kind : ItemKind) (items : Except String (List ν)) =>
    match items with
    | .error regerr => .error ("business rule uses invalid regex " ++ quoted pattern ++ ": " ++ regerr)
    | .ok [] => .error ("business rule got an empty result for pattern '" ++ quoted pattern ++ "'")
    | .ok items => .ok (kind, items)
  match (pattern.splitOn ',').map strip with
  | [hostExpr] => (scope.selectHosts (orBound scope hostExpr)).map (selected .host)
  | [hostExpr, serviceExpr] => (scope.selectServices (orBound scope hostExpr) serviceExpr).map (selected .service)
  | _ => .error .valueError

def evalSimpleCorPattern (pattern : List Char) : Except Exn (DependencyNode ν) :=
  let (xof, pattern) := match evalXofPattern pattern with
    | some xof => (some xof, xof.rest)
    | none => (none, pattern)
  let (notValue, pattern) := match pattern with
    | '!' :: rest => (true, rest)
    | rest => (false, rest)
  if isHostExpression pattern || isServiceExpression pattern then do
    let expanded ← expandExpression scope pattern
    let (sons, errors) := match expanded with
      | .error error => ([], [error])
      | .ok (kind, items) => (items.map fun uuid => some (.leaf kind uuid false), [])
    match xof with
    | some xof => return .level (some .of) sons (DependencyNode.switchZeros sons.length xof.values) xof.isOfMul notValue errors
    | none =>
      return .level (some .and) sons (DependencyNode.switchZeros sons.length ⟨['0'], ['0'], ['0']⟩) false notValue errors
  else
    -- the operand of an of-rule is overwritten here
    match findObject scope pattern with
    | .ok (kind, uuid) => .ok (.leaf kind uuid notValue)
    | .error error => .ok (.object notValue error)

/-- The mark of a son that is not goes to the node, and raises where there is none. -/
def markSon (sonIsNot : Bool) (son : Option (DependencyNode ν)) : Except Exn (Option (DependencyNode ν)) :=
  if sonIsNot then
    match son with
    | none => .error .attributeError
    | some son => .ok (some son.withNot)
  else .ok son

def newSon (eval : List Char → Except Exn (Option (DependencyNode ν))) (sonIsNot : Bool) (tmp : List Char) :
    Except Exn (Option (DependencyNode ν)) := do
  let son ← eval tmp
  markSon sonIsNot son

def startNode (pattern : List Char) : XofPrefix × Option Operator :=
  match evalXofPattern pattern with
  | some xof => (xof, some .of)
  | none => (⟨⟨['0'], ['0'], ['0']⟩, false, pattern⟩, none)

def levelNode (node : XofPrefix) (s : RuleScan (Option (DependencyNode ν))) : DependencyNode ν :=
  .level s.operand s.sons (DependencyNode.switchZeros s.sons.length node.values) node.isOfMul false []

def evalComplexCorPattern (eval : List Char → Except Exn (Option (DependencyNode ν))) (pattern : List Char) :
    Except Exn (Option (DependencyNode ν)) := do
  let (node, operand) := startNode pattern
  let s ← (RuleScan.start operand).run (newSon eval) node.rest
  if s.isNone then return none
  else
    let s ← s.finish (newSon eval)
    return some (levelNode node s)

def isComplex (pattern : List Char) : Bool := pattern.any ("()&|".toList.contains ·)

def evalCorPattern : Nat → List Char → Except Exn (Option (DependencyNode ν))
  | 0, _ => .error .diverges
  | fuel + 1, pattern =>
    let pattern := strip pattern
    if isComplex pattern then evalComplexCorPattern (evalCorPattern fuel) pattern
    else (evalSimpleCorPattern scope pattern).map some

end

end DependencyNodeFactory

end Alignak
