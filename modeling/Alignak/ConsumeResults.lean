import Alignak.ChecksInProgress

/-!
# The dependencies of the checks that are consumed

`consume_results` consumes the results that wait, and then resolves the
dependencies in rounds: the checks that others wait for tell them, and those
that wait for nothing any more are consumed.
-/

namespace Alignak.Checking

open Scheduling

section
variable (conf : Conf) (env : Env)

def consumeWaiting (c : Nat) : Sched Unit := do
  guarded (((← get).check c).status = .waitConsume) (consumeAndAdd conf env c)

def firstPass : Sched Unit := do (← get).checks.forM (consumeWaiting conf env)

/-- The check `d` does not wait for `c` any more. -/
def tellDependant (c d : Nat) : Sched Unit := do
  if c ∈ ((← get).data d).dependOn then modify fun w => w.modifyData d fun x => { x with dependOn := x.dependOn.erase c }
  else throw .valueError

def tellDependants (c : Nat) : Sched Unit := do ((← get).check c).dependOnMe.forM (tellDependant c)

def resolveCheck (haveResolved : Bool) (c : Nat) : Sched Bool := do
  let x := (← get).check c
  if x.status = .waitingMe then
    tellDependants c
    modify fun w => w.setStatus c .zombie
    return haveResolved || x.dependOnMe != []
  else return haveResolved

def resolveWaitingMe : Sched Bool := do (← get).checks.foldlM resolveCheck false

def World.ready (w : World) (c : Nat) : Bool := (w.check c).status == .waitDepend && (w.data c).dependOn == []

def consumeIfReady (c : Nat) : Sched Unit := do guarded ((← get).ready c = true) (consumeAndAdd conf env c)

def consumeReady : Sched Unit := do (← get).checks.forM (consumeIfReady conf env)

def resolveLoop : Nat → Sched Unit
  | 0 => throw .diverges
  | fuel + 1 => do
    let haveResolved ← resolveWaitingMe
    consumeReady conf env
    guarded (haveResolved = true) (resolveLoop fuel)

def consumeResults : Sched Unit := do
  firstPass conf env
  resolveLoop conf env ((← get).checks.length + 2)

end

/-! ## Statuses -/

def waiting (s : ActStatus) : Prop := s = .waitConsume ∨ s = .waitDepend ∨ s = .waitingMe

section
variable {conf : Conf} {w v : World} {c d : Nat}

theorem ready_iff : w.ready c = true ↔ (w.check c).status = .waitDepend ∧ (w.data c).dependOn = [] := by
  unfold World.ready
  rw [Bool.and_eq_true, beq_iff_eq, beq_iff_eq]

theorem finished_cases (x : Scheduling.Check) : finishedStatus x = .waitingMe ∧ x.dependOnMe ≠ [] ∨
    finishedStatus x = .zombie ∧ x.dependOnMe = [] := by
  unfold finishedStatus
  by_cases h : x.dependOnMe = []
  · right
    exact ⟨if_neg (not_not.mpr h), h⟩
  · left
    exact ⟨if_pos h, h⟩

theorem Finished.status (h : Finished conf c w v) : (v.check c).status = finishedStatus (w.check c) := by
  obtain ⟨e, he⟩ := h.check
  rw [he, Function.update_self]

theorem Finished.check_ne (h : Finished conf c w v) (hd : d ≠ c) : v.check d = w.check d := by
  obtain ⟨e, he⟩ := h.check
  rw [he, Function.update_of_ne hd]

end

end Alignak.Checking
