import Alignak.Dict
import Alignak.Digraph
import Alignak.Exn

/-!
# Graphs and their loops

A graph gives each node its sons. The search for loops marks the nodes that it
is in, and a son that is marked so closes a loop.
-/

namespace Alignak

structure Graph (κ : Type) [DecidableEq κ] where
  nodes : Dict κ (List κ)
  closed : ∀ x l, nodes.get? x = some l → ∀ y ∈ l, y ∈ nodes.keys

namespace Graph

variable {κ : Type} [DecidableEq κ]

def empty : Graph κ := ⟨Dict.empty, fun _ _ h => nomatch h⟩

def sons (g : Graph κ) (x : κ) : List κ := (g.nodes.get? x).getD []

def addNode (g : Graph κ) (node : κ) : Graph κ where
  nodes := g.nodes.set node []
  closed := by
    intro x l hl y hy
    rw [Dict.get?_set] at hl
    split at hl
    · cases hl
      cases hy
    · exact Dict.mem_keys_set.mpr (Or.inr (g.closed x l hl y hy))

def addSon (g : Graph κ) (fromNode toNode : κ) (h : toNode ∈ g.nodes.keys) : Graph κ where
  nodes := g.nodes.set fromNode (g.sons fromNode ++ [toNode])
  closed := by
    intro x l hl y hy
    apply Dict.mem_keys_set.mpr
    right
    rw [Dict.get?_set] at hl
    split at hl
    · cases hl
      rcases List.mem_append.mp hy with hy | hy
      · unfold sons at hy
        cases hn : g.nodes.get? fromNode with
        | none =>
          rw [hn] at hy
          cases hy
        | some l =>
          rw [hn] at hy
          exact g.closed _ l hn y hy
      · rw [List.mem_singleton.mp hy]
        exact h
    · exact g.closed x l hl y hy

def addEdge (g : Graph κ) (fromNode toNode : κ) : Graph κ :=
  if h : toNode ∈ g.nodes.keys then g.addSon fromNode toNode h
  else (g.addNode toNode).addSon fromNode toNode (Dict.mem_keys_set.mpr (Or.inl rfl))

inductive LoopStatus
  | unchecked
  | temporaryChecked
  | ok
  | nearLoop
  | loopInside
  deriving DecidableEq, Repr

def markLoop (root child : κ) (status : κ → LoopStatus) : κ → LoopStatus :=
  if status child = .temporaryChecked then Function.update (Function.update status child .loopInside) root .loopInside
  else if status child = .nearLoop ∨ status child = .loopInside then
    Function.update (if status root ≠ .loopInside then Function.update status root .nearLoop else status) child .loopInside
  else status

def checkSon (search : κ → (κ → LoopStatus) → Except Exn (κ → LoopStatus)) (root : κ) (status : κ → LoopStatus) (child : κ) :
    Except Exn (κ → LoopStatus) := do
  let status ← if status child = .unchecked then search child status else .ok status
  return markLoop root child status

def dfsLoopSearch (g : Graph κ) : Nat → κ → (κ → LoopStatus) → Except Exn (κ → LoopStatus)
  | 0, _, _ => .error .diverges
  | fuel + 1, root, status => do
    let status ← (g.sons root).foldlM (checkSon (dfsLoopSearch g fuel) root) (Function.update status root .temporaryChecked)
    return if status root = .temporaryChecked then Function.update status root .ok else status

def checkNode (g : Graph κ) (node : κ) (status : κ → LoopStatus) : Except Exn (κ → LoopStatus) :=
  if status node = .unchecked then g.dfsLoopSearch g.nodes.keys.length node status else .ok status

def findNode (g : Graph κ) (found : (κ → LoopStatus) × List κ) (node : κ) : Except Exn ((κ → LoopStatus) × List κ) := do
  let status ← g.checkNode node found.1
  return (status, if status node = .loopInside then found.2 ++ [node] else found.2)

def loopCheck (g : Graph κ) : Except Exn (List κ) := do
  let found ← g.nodes.keys.foldlM g.findNode (fun _ => .unchecked, [])
  return found.2

/-! ## The edges that are added -/

variable {g : Graph κ} {x y : κ}

theorem sons_addNode_of_ne {node : κ} (h : x ≠ node) : (g.addNode node).sons x = g.sons x := by
  unfold sons addNode
  rw [Dict.get?_set_ne h]

theorem sons_addSon (g : Graph κ) {a b : κ} (hb : b ∈ g.nodes.keys) : (g.addSon a b hb).sons x = if x = a then g.sons x ++ [b] else g.sons x := by
  show ((g.nodes.set a (g.sons a ++ [b])).get? x).getD [] = _
  rw [Dict.get?_set]
  split
  next h => rw [h]; rfl
  next => rfl

theorem sons_addNode_of_new {node : κ} (h : node ∉ g.nodes.keys) : (g.addNode node).sons x = g.sons x := by
  by_cases hx : x = node
  · subst hx
    unfold sons addNode
    rw [Dict.get?_set_self, Dict.get?_eq_none.mpr h]
    rfl
  · exact sons_addNode_of_ne hx

theorem mem_sons_addEdge {a b : κ} : y ∈ (g.addEdge a b).sons x ↔ y ∈ g.sons x ∨ (x = a ∧ y = b) := by
  have hsons : (g.addEdge a b).sons x = if x = a then g.sons x ++ [b] else g.sons x := by
    unfold addEdge
    split
    next h => exact sons_addSon g h
    next h => exact (sons_addSon (g.addNode b) _).trans (by rw [sons_addNode_of_new h])
  rw [hsons]
  split
  next h => simp [h]
  next h => simp [h]

end Graph

end Alignak
