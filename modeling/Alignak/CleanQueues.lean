import Alignak.SchedulingItem
import Mathlib.Algebra.Order.Ring.Rat
import Mathlib.Data.List.Sort

/-!
# Cleaning the queues of the scheduler

`clean_queues` drops elements of the queues of checks, of broks and of actions
that are too long.
-/

namespace Alignak.Cleaning

open Scheduling

structure Keys where
  list : List Nat
  nodup : list.Nodup

def Keys.erase (k : Nat) (keys : Keys) : Keys := ⟨keys.list.erase k, keys.nodup.erase k⟩

structure Check where
  creationTime : Rat
  refType : ItemType
  ref : Nat
  dependOn : List Nat
  dependOnMe : List Nat
  deriving DecidableEq, Repr

inductive ActionKind
  | notification
  | eventhandler
  deriving DecidableEq, Repr

structure Action where
  creationTime : Rat
  isA : ActionKind
  ref : Nat
  status : ActStatus
  deriving DecidableEq, Repr

structure Brok where
  uuid : Nat
  creationTime : Rat
  deriving DecidableEq, Repr

structure Item where
  checksInProgress : List Nat
  inChecking : Bool
  notificationsInProgress : Keys

structure Queues where
  hosts : List Nat
  services : List Nat
  contacts : List Nat
  tickCleanQueues : Nat
  item : Nat → Item
  checks : Keys
  check : Nat → Check
  brokers : List (List Brok)
  actions : Keys
  action : Nat → Action
  nbChecksDropped : Nat
  nbBroksDropped : Nat
  nbActionsDropped : Nat

namespace Queues

variable (w : Queues)

def maxChecks : Nat := 5 * (w.hosts.length + w.services.length)

def maxBroks : Nat := 5 * (w.hosts.length + w.services.length)

def maxActions : Nat := 5 * w.contacts.length * (w.hosts.length + w.services.length)

def modifyItem (i : Nat) (f : Item → Item) : Queues := { w with item := Function.update w.item i (f (w.item i)) }

def modifyCheck (c : Nat) (f : Check → Check) : Queues := { w with check := Function.update w.check c (f (w.check c)) }

def modifyAction (n : Nat) (f : Action → Action) : Queues := { w with action := Function.update w.action n (f (w.action n)) }

/-- `self.hosts` or `self.services`. -/
def itemsOf : ItemType → List Nat
  | .host => w.hosts
  | .service => w.services

end Queues

section
variable {α : Type} (creationTime : α → Rat)

def byCreationTime (l : List α) : List α := l.insertionSort fun a b => creationTime a ≤ creationTime b

/-- What is before the last `limit` elements, when there are more. -/
def toDel (limit : Nat) (l : List α) : List α :=
  if limit ≠ 0 ∧ limit < l.length then (byCreationTime creationTime l).take (l.length - limit) else []

end

/-! ## The checks -/

def toDelChecks (w : Queues) : List Nat := toDel (fun c => (w.check c).creationTime) w.maxChecks w.checks.list

def removeInProgressCheck (i : Nat) (w : Queues) : Queues :=
  w.modifyItem i fun item => { item with inChecking := item.checksInProgress.length ≠ 0 }

/-- `dependent_checks.depend_on.remove(chk.uuid)`. -/
def forget (c : Nat) (w : Queues) (dependent : Nat) : Except Exn Queues :=
  if c ∈ (w.check dependent).dependOn then
    .ok (w.modifyCheck dependent fun chk => { chk with dependOn := chk.dependOn.erase c })
  else .error .valueError

/-- An identifier in `depend_on` has no attribute `depend_on_me`. -/
def dropCheck (w : Queues) (c : Nat) : Except Exn Queues := do
  let chk := w.check c
  if chk.ref ∉ w.itemsOf chk.refType then .error .keyError
  else
    let w ← chk.dependOnMe.foldlM (forget c) (removeInProgressCheck chk.ref w)
    if (w.check c).dependOn ≠ [] then .error .attributeError
    else return { w with checks := w.checks.erase c }

/-! ## The broks -/

def cleanBroks (limit : Nat) (broks : List Brok) : List Brok :=
  if limit ≠ 0 ∧ limit < broks.length then (byCreationTime Brok.creationTime broks).take limit else broks

/-! ## The actions -/

def toDelActions (w : Queues) : List Nat := toDel (fun n => (w.action n).creationTime) w.maxActions w.actions.list

def removeInProgressNotification (i n : Nat) (w : Queues) : Queues :=
  if n ∈ (w.item i).notificationsInProgress.list then
    (w.modifyAction n fun act => { act with status := .zombie }).modifyItem i fun item =>
      { item with notificationsInProgress := item.notificationsInProgress.erase n }
  else w

/-- What `find_item_by_id` finds beside the hosts and the services, or `None`,
has no notifications in progress. -/
def dropAction (w : Queues) (n : Nat) : Except Exn Queues :=
  match (w.action n).isA with
  | .eventhandler => .ok { w with actions := w.actions.erase n }
  | .notification =>
    if (w.action n).ref ∈ w.hosts ∨ (w.action n).ref ∈ w.services then
      let w := removeInProgressNotification (w.action n).ref n w
      .ok { w with actions := w.actions.erase n }
    else .error .attributeError

def cleanQueues (w : Queues) : Except Exn Queues :=
  if w.tickCleanQueues = 0 then .ok w
  else do
    let w ← (toDelChecks w).foldlM dropCheck { w with nbChecksDropped := (toDelChecks w).length }
    let w := { w with nbBroksDropped := 0, brokers := w.brokers.map (cleanBroks w.maxBroks) }
    (toDelActions w).foldlM dropAction { w with nbActionsDropped := (toDelActions w).length }

/-! ## What is claimed -/

section
variable {α : Type} (creationTime : α → Rat)

def KeepsRecent (limit : Nat) (old kept : List α) : Prop :=
  ∃ dropped, (kept ++ dropped).Perm old ∧ kept.length = limit ∧ ∀ d ∈ dropped, ∀ k ∈ kept, creationTime d ≤ creationTime k

def Trimmed (limit : Nat) (old kept : List α) : Prop :=
  (limit ≠ 0 ∧ limit < old.length → KeepsRecent creationTime limit old kept) ∧
    (¬ (limit ≠ 0 ∧ limit < old.length) → kept = old)

end

structure Cleaned (w w' : Queues) : Prop where
  checks : Trimmed (fun c => (w.check c).creationTime) w.maxChecks w.checks.list w'.checks.list
  broks : List.Forall₂ (Trimmed Brok.creationTime w.maxBroks) w.brokers w'.brokers
  actions : Trimmed (fun n => (w.action n).creationTime) w.maxActions w.actions.list w'.actions.list
  inProgress : ∀ c ∈ w.checks.list, c ∉ w'.checks.list → c ∉ (w'.item (w.check c).ref).checksInProgress
  unlinked : ∀ c ∈ w.checks.list, c ∉ w'.checks.list → ∀ a ∈ w'.checks.list,
    c ∉ (w'.check a).dependOn ∧ c ∉ (w'.check a).dependOnMe
  notifications : ∀ n ∈ w.actions.list, n ∉ w'.actions.list → n ∉ (w'.item (w.action n).ref).notificationsInProgress.list

/-! ## When it is so -/

/-- A check can be dropped after those of `before`: the checks that it holds
depend on it, and all that it depends on have been dropped and held it. -/
structure Droppable (w : Queues) (before : List Nat) (c : Nat) : Prop where
  known : (w.check c).ref ∈ w.itemsOf (w.check c).refType
  told : ∀ a, (w.check c).dependOnMe.count a ≤ (w.check a).dependOn.count c
  free : ∀ b, (w.check c).dependOn.count b ≤ if b ∈ before ++ [c] then (w.check b).dependOnMe.count c else 0

structure Unlinked (w : Queues) (c : Nat) : Prop where
  idle : c ∉ (w.item (w.check c).ref).checksInProgress
  dependOn : ∀ a ∈ w.checks.list, a ∉ toDelChecks w → (w.check a).dependOn.count c ≤ (w.check c).dependOnMe.count a
  dependOnMe : ∀ a ∈ w.checks.list, a ∉ toDelChecks w → c ∉ (w.check a).dependOnMe

structure Cleanable (w : Queues) : Prop where
  droppable : ∀ before c after, toDelChecks w = before ++ c :: after → Droppable w before c
  unlinked : ∀ c ∈ toDelChecks w, Unlinked w c
  broks : ∀ broks ∈ w.brokers, w.maxBroks ≠ 0 ∧ w.maxBroks < broks.length → ∀ a ∈ broks, ∀ b ∈ broks, a.creationTime = b.creationTime
  notifications : ∀ n ∈ toDelActions w, (w.action n).isA = .notification → (w.action n).ref ∈ w.hosts ∨ (w.action n).ref ∈ w.services
  eventhandlers : ∀ n ∈ toDelActions w, (w.action n).isA = .eventhandler →
    n ∉ (w.item (w.action n).ref).notificationsInProgress.list

end Alignak.Cleaning
