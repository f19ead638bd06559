import Alignak.SoftAttempts
import Mathlib.Data.Int.Bitwise

/-!
# The commands that change an item

The external commands write the attributes of an item as they are, an
identifier, an object, a number or a truth value, where the scheduler expects
one kind for each.
-/

namespace Alignak.Scheduling

/-- The attributes of `DICT_MODATTR`. -/
inductive Attribute
  | notificationsEnabled
  | activeChecksEnabled
  | passiveChecksEnabled
  | eventHandlerEnabled
  | flapDetectionEnabled
  | processPerformanceData
  | eventHandler
  | checkCommand
  | checkInterval
  | retryInterval
  | maxCheckAttempts
  | checkFreshness
  | checkPeriod
  | customs
  | notificationPeriod
  deriving DecidableEq, Repr

/-- What an attribute holds. A timeperiod is the object itself, and `other` are
the objects of the other attributes. -/
inductive Value
  | none
  | bool (b : Bool)
  | int (n : Int)
  | uuid (p : Nat)
  | timeperiod (p : Nat)
  | other (truthy : Bool)
  deriving DecidableEq, Repr

def Value.truthy : Value → Bool
  | .none => false
  | .bool b => b
  | .int n => n != 0
  | .uuid _ => true
  | .timeperiod _ => true
  | .other truthy => truthy

def Value.toInt : Value → Int
  | .bool b => if b then 1 else 0
  | .int n => n
  | _ => 0

def modattrs : List (Nat × Attribute) := [
  (0, .notificationsEnabled),
  (1, .activeChecksEnabled),
  (2, .passiveChecksEnabled),
  (3, .eventHandlerEnabled),
  (4, .flapDetectionEnabled),
  (6, .processPerformanceData),
  (13, .checkFreshness),
  (8, .eventHandler),
  (9, .checkCommand),
  (10, .checkInterval),
  (11, .retryInterval),
  (12, .maxCheckAttempts),
  (13, .checkFreshness),
  (14, .checkPeriod),
  (15, .customs),
  (16, .notificationPeriod)]

structure Items where
  world : World
  attrs : Nat → Attribute → Value
  modifiedAttributes : Nat → Int

namespace Items

variable (s : Items)

def setAttribute (i : Nat) (a : Attribute) (v : Value) : Items :=
  { s with attrs := Function.update s.attrs i (Function.update (s.attrs i) a v) }

/-- `timeperiods[period]`, for a period that is set: what counts as false finds nothing. -/
def findPeriod (timeperiods : List Nat) (period : Value) : Except Exn (Option Nat) :=
  match period with
  | .uuid p => if p ∈ timeperiods then .ok (some p) else .error .keyError
  | period => if period.truthy then .error .keyError else .ok none

def view (timeperiods : List Nat) : World :=
  { s.world with settings := fun i => { s.world.settings i with
      maxCheckAttempts := (s.attrs i .maxCheckAttempts).toInt
      notificationsEnabled := (s.attrs i .notificationsEnabled).truthy
      flapDetectionEnabled := (s.attrs i .flapDetectionEnabled).truthy
      notificationPeriod := ((findPeriod timeperiods (s.attrs i .notificationPeriod)).toOption).join } }

end Items

/-! ## Commands -/

def toggle (changes : Int) (attrs : Attribute → Value) (m : Nat × Attribute) : Attribute → Value :=
  if changes.testBit m.1 then Function.update attrs m.2 (.bool !(attrs m.2).truthy) else attrs

def toggled (changes : Int) (attrs : Attribute → Value) : Attribute → Value := modattrs.foldl (toggle changes) attrs

/-- `change_host_modattr` and `change_svc_modattr`. -/
def changeModattr (i : Nat) (changes : Int) (s : Items) : Items where
  world := s.world
  attrs := Function.update s.attrs i (toggled changes (s.attrs i))
  modifiedAttributes := Function.update s.modifiedAttributes i (Int.xor (s.modifiedAttributes i) changes)

def markModified (i bit : Nat) (s : Items) : Items :=
  { s with modifiedAttributes := Function.update s.modifiedAttributes i (Int.lor (s.modifiedAttributes i) (2 ^ bit)) }

/-- `change_host_check_timeperiod` and `change_svc_check_timeperiod`: the object
that the name of the command stands for. -/
def changeCheckTimeperiod (i timeperiod : Nat) (s : Items) : Items :=
  (markModified i 14 s).setAttribute i .checkPeriod (.timeperiod timeperiod)

def changeSvcNotificationTimeperiod (i notificationTimeperiod : Nat) (s : Items) : Items :=
  (markModified i 16 s).setAttribute i .notificationPeriod (.timeperiod notificationTimeperiod)

/-- `change_max_host_check_attempts` and `change_max_svc_check_attempts`. -/
def changeMaxAttempts (conf : Conf) (i : Nat) (checkAttempts : Int) (s : Items) : Items :=
  let s := (markModified i 12 s).setAttribute i .maxCheckAttempts (.int checkAttempts)
  { s with world := s.world.modifyCheckState i fun x =>
      if x.stateType = .hard ∧ x.state = okUp (conf.myType i) ∧ 1 < x.attempt then { x with attempt := checkAttempts } else x }

/-! ## Runs -/

inductive ItemEvent
  | scheduler (ev : Event)
  | schedule (i : Nat)
  | changeModattr (i : Nat) (changes : Int)
  | changeCheckTimeperiod (i timeperiod : Nat)
  | changeSvcNotificationTimeperiod (i notificationTimeperiod : Nat)
  | changeMaxAttempts (i : Nat) (checkAttempts : Int)

section
variable (conf : Conf) (timeperiods : List Nat) (env : Env)

def runScheduler (ev : Event) (s : Items) : EStateM.Result Exn Items Unit :=
  match runEvent conf env ev (s.view timeperiods) with
  | .ok _ w => .ok ⟨⟩ { s with world := w }
  | .error e w => .error e { s with world := w }

/-- `consume_results` looks for the notification period of the item first, and
`schedule` for its check period. -/
def runItemEvent : ItemEvent → EStateM Exn Items Unit
  | .scheduler (.consumeResult k) => fun s =>
    match Items.findPeriod timeperiods (s.attrs (s.world.check k).ref .notificationPeriod) with
    | .error e => .error e s
    | .ok _ => runScheduler conf timeperiods env (.consumeResult k) s
  | .scheduler ev => runScheduler conf timeperiods env ev
  | .schedule i => fun s =>
    match Items.findPeriod timeperiods (s.attrs i .checkPeriod) with
    | .error e => .error e s
    | .ok _ => .ok ⟨⟩ s
  | .changeModattr i changes => modify (changeModattr i changes)
  | .changeCheckTimeperiod i timeperiod => modify (changeCheckTimeperiod i timeperiod)
  | .changeSvcNotificationTimeperiod i notificationTimeperiod =>
    modify (changeSvcNotificationTimeperiod i notificationTimeperiod)
  | .changeMaxAttempts i checkAttempts => modify (changeMaxAttempts conf i checkAttempts)

def ItemEvent.Enabled (s : Items) : ItemEvent → Prop
  | .scheduler (.consumeResult _) => True
  | .scheduler (.command (.changeMaxCheckAttempts ..)) => False
  | .scheduler _ => ∀ i, ∃ period, Items.findPeriod timeperiods (s.attrs i .notificationPeriod) = .ok period
  | _ => True

structure ItemTurn where
  state : Items
  env : Env
  event : ItemEvent

/-- What is raised is logged or ends the daemon, with the state that is reached. -/
def ItemTurn.after (t : ItemTurn) : Items := stateAfter (runItemEvent conf timeperiods t.env t.event t.state)

inductive ItemRun (s₀ : Items) : List ItemTurn → Items → Prop
  | nil : ItemRun s₀ [] s₀
  | snoc {trace : List ItemTurn} {s : Items} (h : ItemRun s₀ trace s) (env : Env) {ev : ItemEvent}
      (enabled : ev.Enabled timeperiods s) : ItemRun s₀ (trace ++ [⟨s, env, ev⟩]) (ItemTurn.after conf timeperiods ⟨s, env, ev⟩)

end

end Alignak.Scheduling
