import Alignak.SchedulingItem
import Alignak.Effect
import Mathlib.Data.Rat.Floor
import Mathlib.Algebra.Order.Field.Rat
import Mathlib.Tactic.Linarith

/-!
# Changes of the system time

A daemon whose clock has jumped shifts its times by the difference; the pass of
the scheduler daemon is behind a test of an attribute `conf`.
-/

namespace Alignak.TimeChange

open Scheduling (ActStatus)

inductive ActionKind
  | check
  | notification
  | eventhandler
  deriving DecidableEq, Repr

/-- `state` is no attribute of an action until the pass sets it. -/
structure TimedAction where
  isA : ActionKind
  status : ActStatus
  state : Option String := none
  ref : Option Nat
  tToGo : Option Rat
  exitStatus : Int := 3
  output : String := ""
  checkTime : Rat := 0
  executionTime : Rat := 0
  creationTime : Rat := 0
  deriving DecidableEq

structure TimedItem where
  checkPeriod : Option Nat
  notificationPeriod : Option Nat
  lastNotification : Rat := 0
  lastStateChange : Rat := 0
  lastHardStateChange : Rat := 0
  nextChk : Rat := 0
  deriving DecidableEq

structure TimedWorld where
  programStart : Rat
  hosts : List Nat
  services : List Nat
  item : Nat → Option TimedItem
  checks : Dict Nat TimedAction
  actions : Dict Nat TimedAction

/-- The clock, and `get_next_valid_time_from_t` of the timeperiods. -/
structure TimeEnv where
  now : Rat
  nextValid : Nat → Rat → Option Rat

def instanceAttributes : List String :=
  ["actions", "alignak_name", "checks", "external_commands_manager", "instance_id", "instance_name", "must_schedule", "my_daemon",
    "nb_actions_dropped", "nb_actions_launched", "nb_actions_results", "nb_actions_results_passive", "nb_actions_results_timeout",
    "nb_broks", "nb_broks_dropped", "nb_checks", "nb_checks_dropped", "nb_checks_launched", "nb_checks_results",
    "nb_checks_results_active", "nb_checks_results_passive", "nb_checks_results_timeout", "nb_event_handlers", "nb_external_commands",
    "nb_internal_checks", "nb_notifications", "need_dump_environment", "need_objects_dump", "program_start", "push_flavor",
    "pushed_conf", "raised_initial_broks", "recurrent_works", "stats", "ticks", "waiting_results"]

/-- The lists of objects that `load_conf` takes from the configuration. -/
def loadedObjects : List String :=
  ["timeperiods", "services", "servicegroups", "commands", "hosts", "hostgroups", "contacts", "contactgroups", "notificationways",
    "checkmodulations", "macromodulations", "servicedependencies", "hostdependencies", "realms", "modules", "resultmodulations",
    "businessimpactmodulations", "escalations", "serviceescalations", "hostescalations", "hostsextinfo", "servicesextinfo"]

def hasattr (name : String) : Bool := (instanceAttributes ++ loadedObjects).contains name

def shifted (difference t : Rat) : Rat := max 0 (t + difference)

def movedTime (env : TimeEnv) (period : Option Nat) (difference t : Rat) : Option Rat :=
  match period with
  | some p => env.nextValid p (shifted difference t)
  | none => some (shifted difference t)

namespace TimedWorld

variable (w : TimedWorld)

def modifyItem (i : Nat) (f : TimedItem → TimedItem) : TimedWorld :=
  { w with item := Function.update w.item i ((w.item i).map f) }

def setCheck (c : Nat) (chk : TimedAction) : TimedWorld := { w with checks := w.checks.set c chk }

def setAction (a : Nat) (act : TimedAction) : TimedWorld := { w with actions := w.actions.set a act }

end TimedWorld

section
variable (env : TimeEnv) (difference : Rat)

/-- `SchedulingItem.compensate_system_time_change` -/
def TimedItem.compensate (x : TimedItem) : TimedItem :=
  { x with lastNotification := shifted difference x.lastNotification
           lastStateChange := shifted difference x.lastStateChange
           lastHardStateChange := shifted difference x.lastHardStateChange }

/-- What the pass writes where there is no more valid time: `state`, and not the status. -/
def TimedAction.refuse (act : TimedAction) : TimedAction :=
  { act with state := some "waitconsume", exitStatus := 2,
             output := "(Error: there is no available check time after time change!)", checkTime := env.now, executionTime := 0 }

/-- An item that is not found is `None`, without periods. -/
def compensateCheck (c : Nat) : EStateM Exn TimedWorld Unit := do
  match (← get).checks.get? c with
  | none => pure ()
  | some chk =>
    match chk.status, chk.tToGo with
    | .scheduled, some tToGo =>
      match chk.ref.bind (← get).item with
      | none => throw .attributeError
      | some ref =>
        match movedTime env ref.checkPeriod difference tToGo with
        | none => modify fun w => w.setCheck c (chk.refuse env)
        | some newT =>
          modify fun w => (w.setCheck c { chk with tToGo := some newT }).modifyItem (chk.ref.getD 0) fun x => { x with nextChk := newT }
    | _, _ => pure ()

def actionPeriod (act : TimedAction) : EStateM Exn TimedWorld (Option Nat) := do
  if act.isA = .notification then
    match act.ref.bind (← get).item with
    | none => throw .attributeError
    | some ref => return ref.notificationPeriod
  else return none

def compensateAction (a : Nat) : EStateM Exn TimedWorld Unit := do
  match (← get).actions.get? a with
  | none => pure ()
  | some act =>
    if act.status = .scheduled then
      match act.tToGo with
      | none => throw .typeError
      | some tToGo => do
        let period ← actionPeriod act
        let act := if act.isA = .notification then { act with creationTime := act.creationTime + difference } else act
        match movedTime env period difference tToGo with
        | none => modify fun w => w.setAction a (act.refuse env)
        | some newT => modify fun w => w.setAction a { act with tToGo := some newT }

def compensateSystemTimeChange : EStateM Exn TimedWorld Unit := do
  modify fun w => { w with programStart := max 0 (w.programStart + difference) }
  if !hasattr "conf" then return ()
  let w ← get
  w.hosts.forM fun i => modify fun w => w.modifyItem i (TimedItem.compensate difference)
  w.services.forM fun i => modify fun w => w.modifyItem i (TimedItem.compensate difference)
  (← get).checks.keys.forM (compensateCheck env difference)
  (← get).actions.keys.forM (compensateAction env difference)

/-! ## What is asked for -/

/-- The action is scheduled at its moved time, or an error result that waits to be consumed. -/
def Moved (period : Option Nat) (t : Rat) (act : TimedAction) : Prop :=
  (∀ u, movedTime env period difference t = some u → act.status = .scheduled ∧ act.tToGo = some u) ∧
    (movedTime env period difference t = none → act.status = .waitConsume ∧ act.exitStatus = 2)

def CheckMoved (w w' : TimedWorld) (c : Nat) : Prop := ∀ chk t i x, w.checks.get? c = some chk → chk.status = .scheduled →
  chk.tToGo = some t → chk.ref = some i → w.item i = some x → ∃ chk' x', w'.checks.get? c = some chk' ∧ w'.item i = some x' ∧
    Moved env difference x.checkPeriod t chk' ∧ (chk'.status = .scheduled → chk'.tToGo = some x'.nextChk)

def NotificationMoved (w w' : TimedWorld) (a : Nat) : Prop := ∀ act t i x, w.actions.get? a = some act → act.isA = .notification →
  act.status = .scheduled → act.tToGo = some t → act.ref = some i → w.item i = some x → ∃ act', w'.actions.get? a = some act' ∧
    Moved env difference x.notificationPeriod t act'

/-- The pass returns and moves what is scheduled, and nothing else among the actions. -/
def Compensates (w : TimedWorld) : Prop := ∃ w', compensateSystemTimeChange env difference w = .ok ⟨⟩ w' ∧
  (∀ c, CheckMoved env difference w w' c) ∧ (∀ a, NotificationMoved env difference w w' a) ∧
    ∀ a act, w.actions.get? a = some act → act.status ≠ .scheduled → w'.actions.get? a = some act

def NothingMoves (w : TimedWorld) : Prop :=
  (∀ c chk t i x, w.checks.get? c = some chk → chk.status = .scheduled → chk.tToGo = some t → chk.ref = some i → w.item i = some x →
    movedTime env x.checkPeriod difference t = some t ∧ x.nextChk = t) ∧
  ∀ a act t i x, w.actions.get? a = some act → act.isA = .notification → act.status = .scheduled → act.tToGo = some t →
    act.ref = some i → w.item i = some x → movedTime env x.notificationPeriod difference t = some t

end

section
variable {env : TimeEnv} {difference : Rat} {w : TimedWorld} {c a i : Nat} {chk act : TimedAction} {x : TimedItem} {t : Rat}

/-! ## The pass -/

theorem compensateSystemTimeChange_eq (env : TimeEnv) (difference : Rat) (w : TimedWorld) :
    compensateSystemTimeChange env difference w = .ok ⟨⟩ { w with programStart := max 0 (w.programStart + difference) } := by
  have hconf : hasattr "conf" = false := by decide
  unfold compensateSystemTimeChange
  rw [hconf]
  rfl

theorem nothingMoves_of_compensates (h : Compensates env difference w) : NothingMoves env difference w := by
  obtain ⟨w', hw', hchecks, hnotifications, -⟩ := h
  rw [compensateSystemTimeChange_eq] at hw'
  cases hw'
  refine ⟨fun c chk t i x hc hs ht hi hx => ?_, fun a act t i x ha hn hs ht hi hx => ?_⟩
  · obtain ⟨chk', x', hc', hx', hmoved, hnext⟩ := hchecks c chk t i x hc hs ht hi hx
    have hchk : chk = chk' := Option.some.inj (hc.symm.trans hc')
    have hitem : x = x' := Option.some.inj (hx.symm.trans hx')
    subst hchk hitem
    cases hm : movedTime env x.checkPeriod difference t with
    | none =>
      have hwait := (hmoved.2 hm).1
      rw [hs] at hwait
      cases hwait
    | some u =>
      have hu := (hmoved.1 u hm).2
      have hn := hnext hs
      rw [ht] at hu hn
      exact ⟨hu.symm, (Option.some.inj hn).symm⟩
  · obtain ⟨act', ha', hmoved⟩ := hnotifications a act t i x ha hn hs ht hi hx
    have hact : act = act' := Option.some.inj (ha.symm.trans ha')
    subst hact
    cases hm : movedTime env x.notificationPeriod difference t with
    | none =>
      have hwait := (hmoved.2 hm).1
      rw [hs] at hwait
      cases hwait
    | some u =>
      have hu := (hmoved.1 u hm).2
      rw [ht] at hu
      exact hu.symm

theorem Moved.refl {period : Option Nat} (hm : movedTime env period difference t = some t) (hs : act.status = .scheduled)
    (ht : act.tToGo = some t) : Moved env difference period t act := by
  refine ⟨fun u hu => ⟨hs, ?_⟩, fun hnone => ?_⟩
  · rw [ht, ← hm, hu]
  · rw [hm] at hnone
    cases hnone

/-- The pass does what is asked for exactly when nothing has to move. -/
theorem compensates_iff : Compensates env difference w ↔ NothingMoves env difference w := by
  refine ⟨nothingMoves_of_compensates, fun ⟨hchecks, hnotifications⟩ => ?_⟩
  refine ⟨_, compensateSystemTimeChange_eq env difference w, fun c chk t i x hc hs ht hi hx => ?_,
    fun a act t i x ha hn hs ht hi hx => ?_, fun a act ha _ => ha⟩
  · obtain ⟨hm, hnext⟩ := hchecks c chk t i x hc hs ht hi hx
    exact ⟨chk, x, hc, hx, Moved.refl hm hs ht, fun _ => by rw [ht, hnext]⟩
  · exact ⟨act, ha, Moved.refl (hnotifications a act t i x ha hn hs ht hi hx) hs ht⟩

end

/-! ## A jump of a thousand seconds -/

def jumpEnv : TimeEnv := ⟨2000, fun _ t => some ⌊t⌋⟩

def oneCheck : TimedWorld where
  programStart := 0
  hosts := [0]
  services := []
  item := fun _ => some { checkPeriod := none, notificationPeriod := none, nextChk := 1000 }
  checks := Dict.empty.set 0 { isA := .check, status := .scheduled, ref := some 0, tToGo := some 1000 }
  actions := Dict.empty

/-- The check stays at 1000. -/
theorem jump_not_compensated : (∃ w, compensateSystemTimeChange jumpEnv 1000 oneCheck = .ok ⟨⟩ w ∧ w.checks = oneCheck.checks) ∧
    ¬ Compensates jumpEnv 1000 oneCheck := by
  refine ⟨⟨_, compensateSystemTimeChange_eq jumpEnv 1000 oneCheck, rfl⟩, fun h => ?_⟩
  have hmoved := (nothingMoves_of_compensates h).1 0 _ 1000 0 _ (Dict.get?_set_self (d := Dict.empty)) rfl rfl rfl rfl
  exact absurd hmoved.1 (by decide +kernel)

end Alignak.TimeChange
