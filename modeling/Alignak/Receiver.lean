import Alignak.ExternalCommands
import Alignak.Satellite

/-!
# The receiver

External commands reach the schedulers through three lists: those that the
receiver has got, those that wait in the link of a scheduler, and those whose
push has failed. A receiver looks for the host of a command, and has no other
object.
-/

namespace Alignak.Receiving

open Dispatching (SatelliteLink Response Answer Raised)
open Satellites (call)
open ExternalCommandManager (commands header argTexts splitSemicolon toInt)

abbrev Command := List Char

def globalCommands : List String :=
  ["change_contact_modsattr", "change_contact_modhattr", "change_contact_modattr",
   "change_contact_host_notification_timeperiod", "change_contact_svc_notification_timeperiod",
   "change_custom_contact_var", "change_global_host_event_handler", "change_global_svc_event_handler",
   "del_contact_downtime", "del_host_comment", "del_host_downtime", "del_svc_comment", "del_svc_downtime",
   "disable_contactgroup_host_notifications", "disable_contactgroup_svc_notifications",
   "disable_contact_host_notifications", "disable_contact_svc_notifications", "disable_event_handlers",
   "disable_failure_prediction", "disable_flap_detection", "disable_hostgroup_host_checks",
   "disable_hostgroup_host_notifications", "disable_hostgroup_passive_host_checks",
   "disable_hostgroup_passive_svc_checks", "disable_hostgroup_svc_checks", "disable_hostgroup_svc_notifications",
   "disable_host_freshness_checks", "disable_notifications", "disable_performance_data",
   "disable_servicegroup_host_checks", "disable_servicegroup_host_notifications",
   "disable_servicegroup_passive_host_checks", "disable_servicegroup_passive_svc_checks",
   "disable_servicegroup_svc_checks", "disable_servicegroup_svc_notifications", "disable_service_freshness_checks",
   "enable_contactgroup_host_notifications", "enable_contactgroup_svc_notifications",
   "enable_contact_host_notifications", "enable_contact_svc_notifications", "enable_event_handlers",
   "enable_failure_prediction", "enable_flap_detection", "enable_hostgroup_host_checks",
   "enable_hostgroup_host_notifications", "enable_hostgroup_passive_host_checks", "enable_hostgroup_passive_svc_checks",
   "enable_hostgroup_svc_checks", "enable_hostgroup_svc_notifications", "enable_host_freshness_checks",
   "enable_notifications", "enable_performance_data", "enable_servicegroup_host_checks",
   "enable_servicegroup_host_notifications", "enable_servicegroup_passive_host_checks",
   "enable_servicegroup_passive_svc_checks", "enable_servicegroup_svc_checks", "enable_servicegroup_svc_notifications",
   "enable_service_freshness_checks", "process_file", "read_state_information", "restart_program", "reload_config",
   "save_state_information", "schedule_contact_downtime", "schedule_hostgroup_host_downtime",
   "schedule_hostgroup_svc_downtime", "schedule_servicegroup_host_downtime", "schedule_servicegroup_svc_downtime",
   "shutdown_program", "start_accepting_passive_host_checks", "start_accepting_passive_svc_checks",
   "start_executing_host_checks", "start_executing_svc_checks", "stop_accepting_passive_host_checks",
   "stop_accepting_passive_svc_checks", "stop_executing_host_checks", "stop_executing_svc_checks", "add_simple_poller"]

def internalCommands : List String := ["restart_program", "reload_config", "add_simple_poller"]

/-! ## Resolution -/

section
variable {ν W : Type} (manager : ExternalCommandManager ν W)

inductive Received
  | dispatched (hostName : List Char)
  | args (read obsolete : Nat)
  deriving DecidableEq, Repr

def Received.add : Received → Received
  | .dispatched hostName => .dispatched hostName
  | .args read obsolete => .args (read + 1) obsolete

def Received.addObsolete : Received → Received
  | .dispatched hostName => .dispatched hostName
  | .args read obsolete => .args read (obsolete + 1)

def readArgs : Option (List Char) → List ArgType → List (List Char) → Except Exn Received
  | _, _, [] => .ok (.args 0 0)
  | some tmpHost, _, elt :: _ => if elt = [] then .error .indexError else .ok (.dispatched tmpHost)
  | none, [], _ :: _ => .error .indexError
  | none, .host :: _, elt :: _ => .ok (.dispatched (strip elt))
  | none, .service :: types, elt :: elts =>
    if strip elt = [] then .error .indexError else readArgs (some (strip elt)) types elts
  | none, .toInt :: types, elt :: elts => do
    let _ ← toInt (strip elt)
    (readArgs none types elts).map Received.add
  | none, .obsolete :: types, _ :: elts => (readArgs none types elts).map Received.addObsolete
  | none, .toBool :: types, _ :: elts => (readArgs none types elts).map Received.add
  | none, .author :: types, _ :: elts => (readArgs none types elts).map Received.add
  | none, .plain :: types, _ :: elts => (readArgs none types elts).map Received.add
  | none, _ :: _, _ :: _ => .error .attributeError

inductive Resolution
  | nothing
  | global
  | forHost (hostName : List Char)
  deriving DecidableEq, Repr

def Received.resolution (cName : String) (types : List ArgType) : Received → Except Exn Resolution
  | .dispatched hostName => .ok (.forHost hostName)
  | .args read obsolete =>
    if read = types.length - obsolete ∧ cName ∈ internalCommands then .error .attributeError else .ok .nothing

def resolveCommand (extCmd : Command) : Except Exn Resolution :=
  let command := strip extCmd
  match header manager ((splitSemicolon command none).headD []) with
  | none => .ok .nothing
  | some (_, cName) =>
    let cName := String.ofList cName
    match commands.lookup cName with
    | none => .ok .nothing
    | some types =>
      if cName ∈ globalCommands ∧ cName ∉ internalCommands then .ok .global
      else
        match readArgs none types (argTexts types command) with
        | .error .indexError => .ok .nothing
        | .error e => .error e
        | .ok received => received.resolution cName types

end

/-! ## Links -/

/-- The link of the receiver to a scheduler. `resolved` and `delivered` are
history variables: the commands that were put in `pushedCommands`, and those
that the scheduler has got, in their order. -/
structure SchedulerLink extends SatelliteLink where
  active : Bool
  maxCheckAttempts : Int
  pushedCommands : List Command := []
  resolved : List Command := []
  delivered : List Command := []

def SchedulerLink.append (link : SchedulerLink) (extCmd : Command) : SchedulerLink :=
  { link with pushedCommands := link.pushedCommands ++ [extCmd], resolved := link.resolved ++ [extCmd] }

structure Receiver where
  schedulers : Dict Nat SchedulerLink
  hostsSchedulers : Dict (List Char) Nat
  unprocessedExternalCommands : List Command
  externalCommands : List Command

inductive Raise
  | link (e : Raised)
  | python (e : Exn)
  deriving DecidableEq, Repr

abbrev Rec := EStateM Raise Receiver

def Receiver.setScheduler (s : Receiver) (u : Nat) (link : SchedulerLink) : Receiver :=
  { s with schedulers := s.schedulers.set u link }

def getSchedulerFromHostname (s : Receiver) (hostName : List Char) : Option (Nat × SchedulerLink) := do
  let u ← s.hostsSchedulers.get? hostName
  let link ← s.schedulers.get? u
  return (u, link)

def dispatch (extCmd : Command) (resolution : Resolution) (s : Receiver) : Receiver :=
  match resolution with
  | .nothing => s
  | .global => { s with schedulers := s.schedulers.mapValues fun _ link => link.append extCmd }
  | .forHost hostName =>
    match getSchedulerFromHostname s hostName with
    | none => s
    | some (u, link) => s.setScheduler u (link.append extCmd)

section
variable {ν W : Type} (manager : ExternalCommandManager ν W)

def processCommand (extCmd : Command) : Rec Unit :=
  match resolveCommand manager extCmd with
  | .error e => throw (.python e)
  | .ok resolution => modify (dispatch extCmd resolution)

/-! ## Pushes -/

/-- A link error leaves the commands unsent, and so does an answer that is none
of the scheduler. An answer of the scheduler is never empty. -/
def pushLink (response : Response Unit) (u : Nat) (link : SchedulerLink) : Rec Unit :=
  if link.active = false ∨ link.pushedCommands = [] then pure ()
  else
    match call link.maxCheckAttempts link.toSatelliteLink response with
    | (x, .ok (.got _)) => modify fun s => s.setScheduler u
        { link with toSatelliteLink := x, pushedCommands := [], delivered := link.delivered ++ link.pushedCommands }
    | (x, .error .linkError) | (x, .ok _) => modify fun s =>
        { s.setScheduler u { link with toSatelliteLink := x, pushedCommands := [] } with
          externalCommands := s.externalCommands ++ link.pushedCommands }
    | (x, .error e) => do
      modify fun s => s.setScheduler u { link with toSatelliteLink := x }
      throw (.link e)

def pushTo (response : Response Unit) (u : Nat) : Rec Unit := do
  match (← get).schedulers.get? u with
  | none => throw (.python .keyError)
  | some link => pushLink response u link

def pushExternalCommandsToSchedulers (response : Nat → Response Unit) : Rec Unit := do
  let s ← get
  if s.unprocessedExternalCommands = [] then return
  modify fun s => { s with unprocessedExternalCommands := [] }
  s.unprocessedExternalCommands.forM (processCommand manager)
  (← get).schedulers.keys.forM fun u => pushTo (response u) u

/-! ## Runs -/

def add (extCmd : Command) (s : Receiver) : Receiver :=
  { s with unprocessedExternalCommands := s.unprocessedExternalCommands ++ [extCmd] }

def linkChanges (u : Nat) (x : SatelliteLink) (active : Bool) (s : Receiver) : Receiver :=
  match s.schedulers.get? u with
  | none => s
  | some link => s.setScheduler u { link with toSatelliteLink := x, active := active }

inductive Event
  | add (extCmd : Command)
  | pushExternalCommandsToSchedulers (response : Nat → Response Unit)
  | getExternalCommands
  | linkChanges (u : Nat) (x : SatelliteLink) (active : Bool)

def runEvent : Event → Rec Unit
  | .add extCmd => modify (add extCmd)
  | .pushExternalCommandsToSchedulers response => pushExternalCommandsToSchedulers manager response
  | .getExternalCommands => modify fun s => { s with externalCommands := [] }
  | .linkChanges u x active => modify (linkChanges u x active)

structure Turn where
  state : Receiver
  event : Event

def Turn.after (t : Turn) : Receiver := stateAfter (runEvent manager t.event t.state)

inductive Run (s₀ : Receiver) : List Turn → Receiver → Prop
  | nil : Run s₀ [] s₀
  | snoc {trace : List Turn} {s : Receiver} (h : Run s₀ trace s) (ev : Event) :
      Run s₀ (trace ++ [⟨s, ev⟩]) (Turn.after manager ⟨s, ev⟩)

end

end Alignak.Receiving
