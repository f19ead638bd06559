import Alignak.Exn
import Alignak.Strip
import Mathlib.Logic.Relation
import Mathlib.Logic.Function.Basic

/-!
# The explosion of the groups

Each group gets the members of its sub-groups, as `explode` of `hostgroup.py`,
`contactgroup.py` and `servicegroup.py` does, over list objects that several
groups may hold.
-/

namespace Alignak.Explosion

inductive Kind
  | hostgroup
  | contactgroup
  | servicegroup
  deriving DecidableEq, Repr

inductive Ref
  | declared (group : Nat)
  | new (n : Nat)
  deriving DecidableEq, Repr

/-- The groups before the explosion; `declared` is none for a group without the
attribute `members`. -/
structure Groups where
  items : List Nat
  declared : Nat → Option (List String)
  groupMembers : Nat → List String
  nameToItem : String → Option Nat
  indexed : ∀ name g, nameToItem name = some g → g ∈ items

structure Heap where
  members : Nat → Option Ref
  lists : Ref → List String
  next : Nat

structure World where
  heap : Heap
  recTag : Nat → Bool
  alreadyExploded : Nat → Bool

inductive Value
  | list (ref : Ref)
  | newList
  | text (s : String)

def Heap.alloc (l : List String) (h : Heap) : Ref × Heap :=
  (.new h.next, { h with lists := Function.update h.lists (.new h.next) l, next := h.next + 1 })

/-- `get_hosts` makes a list for a missing attribute, the other kinds return an
empty text. -/
def getMembers (kind : Kind) (g : Nat) (h : Heap) : Value :=
  match h.members g with
  | some ref => .list ref
  | none =>
    match kind with
    | .hostgroup => .newList
    | .contactgroup | .servicegroup => .text ""

def Value.asList (value : Value) (h : Heap) : Ref × Heap :=
  match value with
  | .list ref => (ref, h)
  | .newList => h.alloc []
  | .text s => h.alloc [s]

def Heap.addList (g : Nat) (members : Ref) (h : Heap) : Heap :=
  match h.members g with
  | none => { h with members := Function.update h.members g (some members) }
  | some own =>
    if h.lists own = [] then { h with members := Function.update h.members g (some members) }
    else { h with lists := Function.update h.lists own (h.lists own ++ h.lists members) }

def addMembers (g : Nat) (value : Value) (h : Heap) : Heap := (value.asList h).2.addList g (value.asList h).1

def addSubs (explode : Nat → World → Except Exn (Value × World)) (groups : Groups) (g : Nat) :
    List String → World → Except Exn World
  | [], w => .ok w
  | name :: names, w =>
    match groups.nameToItem (stripString name) with
    | none => addSubs explode groups g names w
    | some sub =>
      match explode sub w with
      | .error e => .error e
      | .ok (value, w) => addSubs explode groups g names { w with heap := addMembers g value w.heap }

/-- `get_hosts_by_explosion`, `get_contacts_by_explosion` and `get_services_by_explosion`;
a group that is tagged is not exploded again. -/
def getByExplosion (kind : Kind) (groups : Groups) : Nat → Nat → World → Except Exn (Value × World)
  | 0, _, _ => .error .diverges
  | fuel + 1, g, w =>
    let w := { w with alreadyExploded := Function.update w.alreadyExploded g true }
    let exploded :=
      if w.recTag g then .ok w
      else addSubs (getByExplosion kind groups fuel) groups g (groups.groupMembers g)
        { w with recTag := Function.update w.recTag g true }
    match exploded with
    | .error e => .error e
    | .ok w => .ok (getMembers kind g w.heap, w)

def explodeItem (kind : Kind) (groups : Groups) (w : World) (g : Nat) : Except Exn World :=
  if w.alreadyExploded g then .ok w
  else (getByExplosion kind groups (groups.items.length + 1) g { w with recTag := fun _ => false }).map (·.2)

def Groups.heap (groups : Groups) : Heap where
  members g := (groups.declared g).map fun _ => .declared g
  lists
    | .declared g => (groups.declared g).getD []
    | .new _ => []
  next := 0

def explode (kind : Kind) (groups : Groups) : Except Exn Heap :=
  (groups.items.foldlM (explodeItem kind groups) ⟨groups.heap, fun _ => false, fun _ => false⟩).map (·.heap)

def Heap.membersOf (h : Heap) (g : Nat) : List String :=
  match h.members g with
  | none => []
  | some ref => h.lists ref

/-! ## The members of a hierarchy -/

namespace Groups

variable (groups : Groups)

def subs (g : Nat) : List Nat := (groups.groupMembers g).filterMap fun name => groups.nameToItem (stripString name)

def Sub (g h : Nat) : Prop := h ∈ groups.subs g

def Acyclic : Prop := ∀ g, ¬ Relation.TransGen groups.Sub g g

def own (g : Nat) : List String := (groups.declared g).getD []

def IsMember (g : Nat) (m : String) : Prop := ∃ h, Relation.ReflTransGen groups.Sub g h ∧ m ∈ groups.own h

def Void (kind : Kind) (g : Nat) : Prop := kind ≠ .hostgroup ∧ groups.declared g = none ∧ groups.subs g = []

def Gives (kind : Kind) (g : Nat) (m : String) : Prop := groups.IsMember g m ∨ groups.Void kind g ∧ m = ""

/-- What is needed of a group: the empty names are members, and where it takes the list of a
sub-group, the later ones give nothing that is not in that sub-group. -/
structure Fits (kind : Kind) (p : Nat) : Prop where
  gives : ∀ c ∈ groups.subs p, ∀ m, groups.Gives kind c m → groups.IsMember p m
  taken : groups.own p = [] → ∀ xs c ys, groups.subs p = xs ++ c :: ys → (∀ b ∈ xs, ∀ m, ¬ groups.Gives kind b m) →
    (∃ m, groups.Gives kind c m) → ¬ groups.Void kind c → ∀ b ∈ ys, ∀ m, groups.Gives kind b m → groups.IsMember c m

end Groups

end Alignak.Explosion
