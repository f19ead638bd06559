import Alignak.Exn
import Alignak.Numerals

/-!
# External commands

The command lines that a scheduler is given, after `external_command.py`: the
table of the commands and their arguments, the parser, and the run over a batch.
-/

namespace Alignak

inductive ArgType
  | host
  | service
  | contact
  | timePeriod
  | obsolete
  | toBool
  | toInt
  | author
  | plain
  | command
  | hostGroup
  | serviceGroup
  | contactGroup
  deriving DecidableEq, Repr

namespace ExternalCommandManager

def commands : List (String × List ArgType) := [
  ("change_contact_modsattr", [.contact, .plain]),
  ("change_contact_modhattr", [.contact, .plain]),
  ("change_contact_modattr", [.contact, .plain]),
  ("change_contact_host_notification_timeperiod", [.contact, .timePeriod]),
  ("add_svc_comment", [.service, .obsolete, .author, .plain]),
  ("add_host_comment", [.host, .obsolete, .author, .plain]),
  ("acknowledge_svc_problem", [.service, .toInt, .toBool, .obsolete, .author, .plain]),
  ("acknowledge_host_problem", [.host, .toInt, .toBool, .obsolete, .author, .plain]),
  ("acknowledge_svc_problem_expire", [.service, .toInt, .toBool, .obsolete, .toInt, .author, .plain]),
  ("acknowledge_host_problem_expire", [.host, .toInt, .toBool, .obsolete, .toInt, .author, .plain]),
  ("change_contact_svc_notification_timeperiod", [.contact, .timePeriod]),
  ("change_custom_contact_var", [.contact, .plain, .plain]),
  ("change_custom_host_var", [.host, .plain, .plain]),
  ("change_custom_svc_var", [.service, .plain, .plain]),
  ("change_global_host_event_handler", [.command]),
  ("change_global_svc_event_handler", [.command]),
  ("change_host_check_command", [.host, .command]),
  ("change_host_check_timeperiod", [.host, .timePeriod]),
  ("change_host_event_handler", [.host, .command]),
  ("change_host_snapshot_command", [.host, .command]),
  ("change_host_modattr", [.host, .toInt]),
  ("change_max_host_check_attempts", [.host, .toInt]),
  ("change_max_svc_check_attempts", [.service, .toInt]),
  ("change_normal_host_check_interval", [.host, .toInt]),
  ("change_normal_svc_check_interval", [.service, .toInt]),
  ("change_retry_host_check_interval", [.host, .toInt]),
  ("change_retry_svc_check_interval", [.service, .toInt]),
  ("change_svc_check_command", [.service, .command]),
  ("change_svc_check_timeperiod", [.service, .timePeriod]),
  ("change_svc_event_handler", [.service, .command]),
  ("change_svc_snapshot_command", [.service, .command]),
  ("change_svc_modattr", [.service, .toInt]),
  ("change_svc_notification_timeperiod", [.service, .timePeriod]),
  ("delay_host_notification", [.host, .toInt]),
  ("delay_svc_notification", [.service, .toInt]),
  ("del_all_contact_downtimes", [.contact]),
  ("del_all_host_comments", [.host]),
  ("del_all_host_downtimes", [.host]),
  ("del_all_svc_comments", [.service]),
  ("del_all_svc_downtimes", [.service]),
  ("del_contact_downtime", [.plain]),
  ("del_host_comment", [.plain]),
  ("del_host_downtime", [.plain]),
  ("del_svc_comment", [.plain]),
  ("del_svc_downtime", [.plain]),
  ("disable_all_notifications_beyond_host", [.host]),
  ("disable_contactgroup_host_notifications", [.contactGroup]),
  ("disable_contactgroup_svc_notifications", [.contactGroup]),
  ("disable_contact_host_notifications", [.contact]),
  ("disable_contact_svc_notifications", [.contact]),
  ("disable_event_handlers", []),
  ("disable_failure_prediction", []),
  ("disable_flap_detection", []),
  ("disable_hostgroup_host_checks", [.hostGroup]),
  ("disable_hostgroup_host_notifications", [.hostGroup]),
  ("disable_hostgroup_passive_host_checks", [.hostGroup]),
  ("disable_hostgroup_passive_svc_checks", [.hostGroup]),
  ("disable_hostgroup_svc_checks", [.hostGroup]),
  ("disable_hostgroup_svc_notifications", [.hostGroup]),
  ("disable_host_and_child_notifications", [.host]),
  ("disable_host_check", [.host]),
  ("disable_host_event_handler", [.host]),
  ("disable_host_flap_detection", [.host]),
  ("disable_host_freshness_check", [.host]),
  ("disable_host_freshness_checks", []),
  ("disable_host_notifications", [.host]),
  ("disable_host_svc_checks", [.host]),
  ("disable_host_svc_notifications", [.host]),
  ("disable_notifications", []),
  ("disable_passive_host_checks", [.host]),
  ("disable_passive_svc_checks", [.service]),
  ("disable_performance_data", []),
  ("disable_servicegroup_host_checks", [.serviceGroup]),
  ("disable_servicegroup_host_notifications", [.serviceGroup]),
  ("disable_servicegroup_passive_host_checks", [.serviceGroup]),
  ("disable_servicegroup_passive_svc_checks", [.serviceGroup]),
  ("disable_servicegroup_svc_checks", [.serviceGroup]),
  ("disable_servicegroup_svc_notifications", [.serviceGroup]),
  ("disable_service_flap_detection", [.service]),
  ("disable_service_freshness_checks", []),
  ("disable_svc_check", [.service]),
  ("disable_svc_event_handler", [.service]),
  ("disable_svc_flap_detection", [.service]),
  ("disable_svc_freshness_check", [.service]),
  ("disable_svc_notifications", [.service]),
  ("enable_all_notifications_beyond_host", [.host]),
  ("enable_contactgroup_host_notifications", [.contactGroup]),
  ("enable_contactgroup_svc_notifications", [.contactGroup]),
  ("enable_contact_host_notifications", [.contact]),
  ("enable_contact_svc_notifications", [.contact]),
  ("enable_event_handlers", []),
  ("enable_failure_prediction", []),
  ("enable_flap_detection", []),
  ("enable_hostgroup_host_checks", [.hostGroup]),
  ("enable_hostgroup_host_notifications", [.hostGroup]),
  ("enable_hostgroup_passive_host_checks", [.hostGroup]),
  ("enable_hostgroup_passive_svc_checks", [.hostGroup]),
  ("enable_hostgroup_svc_checks", [.hostGroup]),
  ("enable_hostgroup_svc_notifications", [.hostGroup]),
  ("enable_host_and_child_notifications", [.host]),
  ("enable_host_check", [.host]),
  ("enable_host_event_handler", [.host]),
  ("enable_host_flap_detection", [.host]),
  ("enable_host_freshness_check", [.host]),
  ("enable_host_freshness_checks", []),
  ("enable_host_notifications", [.host]),
  ("enable_host_svc_checks", [.host]),
  ("enable_host_svc_notifications", [.host]),
  ("enable_notifications", []),
  ("enable_passive_host_checks", [.host]),
  ("enable_passive_svc_checks", [.service]),
  ("enable_performance_data", []),
  ("enable_servicegroup_host_checks", [.serviceGroup]),
  ("enable_servicegroup_host_notifications", [.serviceGroup]),
  ("enable_servicegroup_passive_host_checks", [.serviceGroup]),
  ("enable_servicegroup_passive_svc_checks", [.serviceGroup]),
  ("enable_servicegroup_svc_checks", [.serviceGroup]),
  ("enable_servicegroup_svc_notifications", [.serviceGroup]),
  ("enable_service_freshness_checks", []),
  ("enable_svc_check", [.service]),
  ("enable_svc_event_handler", [.service]),
  ("enable_svc_flap_detection", [.service]),
  ("enable_svc_freshness_check", [.service]),
  ("enable_svc_notifications", [.service]),
  ("process_file", [.plain, .toBool]),
  ("process_host_check_result", [.host, .toInt, .plain]),
  ("process_host_output", [.host, .plain]),
  ("process_service_check_result", [.service, .toInt, .plain]),
  ("process_service_output", [.service, .plain]),
  ("read_state_information", []),
  ("remove_host_acknowledgement", [.host]),
  ("remove_svc_acknowledgement", [.service]),
  ("restart_program", []),
  ("reload_config", []),
  ("save_state_information", []),
  ("schedule_and_propagate_host_downtime", [.host, .toInt, .toInt, .toBool, .toInt, .toInt, .author, .plain]),
  ("schedule_and_propagate_triggered_host_downtime", [.host, .toInt, .toInt, .toBool, .toInt, .toInt, .author, .plain]),
  ("schedule_contact_downtime", [.contact, .toInt, .toInt, .author, .plain]),
  ("schedule_forced_host_check", [.host, .toInt]),
  ("schedule_forced_host_svc_checks", [.host, .toInt]),
  ("schedule_forced_svc_check", [.service, .toInt]),
  ("schedule_hostgroup_host_downtime", [.hostGroup, .toInt, .toInt, .toBool, .plain, .toInt, .author, .plain]),
  ("schedule_hostgroup_svc_downtime", [.hostGroup, .toInt, .toInt, .toBool, .plain, .toInt, .author, .plain]),
  ("schedule_host_check", [.host, .toInt]),
  ("schedule_host_downtime", [.host, .toInt, .toInt, .toBool, .plain, .toInt, .author, .plain]),
  ("schedule_host_svc_checks", [.host, .toInt]),
  ("schedule_host_svc_downtime", [.host, .toInt, .toInt, .toBool, .plain, .toInt, .author, .plain]),
  ("schedule_servicegroup_host_downtime", [.serviceGroup, .toInt, .toInt, .toBool, .plain, .toInt, .author, .plain]),
  ("schedule_servicegroup_svc_downtime", [.serviceGroup, .toInt, .toInt, .toBool, .plain, .toInt, .author, .plain]),
  ("schedule_svc_check", [.service, .toInt]),
  ("schedule_svc_downtime", [.service, .toInt, .toInt, .toBool, .plain, .toInt, .author, .plain]),
  ("send_custom_host_notification", [.host, .toInt, .author, .plain]),
  ("send_custom_svc_notification", [.service, .toInt, .author, .plain]),
  ("set_host_notification_number", [.host, .toInt]),
  ("set_svc_notification_number", [.service, .toInt]),
  ("shutdown_program", []),
  ("start_accepting_passive_host_checks", []),
  ("start_accepting_passive_svc_checks", []),
  ("start_executing_host_checks", []),
  ("start_executing_svc_checks", []),
  ("stop_accepting_passive_host_checks", []),
  ("stop_accepting_passive_svc_checks", []),
  ("stop_executing_host_checks", []),
  ("stop_executing_svc_checks", []),
  ("launch_svc_event_handler", [.service]),
  ("launch_host_event_handler", [.host]),
  ("add_simple_host_dependency", [.host, .host]),
  ("del_host_dependency", [.host, .host]),
  ("add_simple_poller", [.plain, .plain, .plain, .plain])]

def unimplemented : List String :=
  ["disable_failure_prediction", "enable_failure_prediction", "add_simple_host_dependency", "del_host_dependency", "add_simple_poller"]

/-! ## Texts -/

/-- The loop of `split_semicolon`: a part that ends with a backslash is joined to the next one, and so are those after `maxsplit`. -/
def joinParts (maxsplit : Nat) : Nat → List Char → List (List Char) → List (List Char)
  | _, part, [] => [part]
  | i, part, next :: parts =>
    if part.getLast? = some '\\' then joinParts maxsplit i (part.dropLast ++ ';' :: next) parts
    else if maxsplit ≤ i then joinParts maxsplit i (part ++ ';' :: next) parts
    else part :: joinParts maxsplit (i + 1) next parts

def splitSemicolon (line : List Char) (maxsplit : Option Nat) : List (List Char) :=
  match line.splitOn ';' with
  | [] => []
  | part :: parts => joinParts (maxsplit.getD (parts.length + 1)) 0 part parts

/-- Python's `str.split` at white space. -/
def words (text : List Char) : List (List Char) := (text.splitOnP isSpace).filter (· ≠ [])

/-- `str.lower`, as far as a text of Latin letters can come of it: the Kelvin sign is lowered to one. -/
def lower (text : List Char) : List Char := text.map fun c => if c = '\u212a' then 'k' else c.toLower

def raised : Numerals.Failure → Exn
  | .value => .valueError
  | .overflow => .overflowError

/-- `int` of a text. -/
def readInt (text : List Char) : Except Exn Int := (Numerals.toInt text).mapError raised

/-- `int(float(val))` -/
def readFloat (val : List Char) : Except Exn Int := ((Numerals.toFloat val).bind Numerals.truncate).mapError raised

def toInt (val : List Char) : Except Exn Int :=
  match readInt val with
  | .ok n => .ok n
  | .error _ => readFloat val

def readTimestamp (text : List Char) : Option Int :=
  match readInt text with
  | .ok timestamp => some timestamp
  | .error _ => (readInt text.tail.dropLast).toOption

def toBool (val : List Char) : Bool := ["1".toList, "on".toList, "true".toList, "True".toList].contains val

end ExternalCommandManager

/-! ## The manager -/

inductive Arg (ν : Type)
  | object (uuid : ν)
  | bool (val : Bool)
  | int (val : Int)
  | text (val : List Char)
  deriving DecidableEq, Repr

structure Call (ν : Type) where
  currentTimestamp : Int
  name : String
  args : List (Arg ν)
  deriving DecidableEq, Repr

structure Directory (ν : Type) where
  host : List Char → Option ν
  service : List Char → List Char → Option ν
  contact : List Char → Option ν
  timePeriod : List Char → Option ν
  hostGroup : List Char → Option ν
  serviceGroup : List Char → Option ν
  contactGroup : List Char → Option ν
  command : List Char → Bool

/-- The manager of a scheduler, an `applyer`. A method changes the world `W`
and returns, or raises after some of its changes. -/
structure ExternalCommandManager (ν W : Type) where
  directory : Directory ν
  now : Int
  perform : Call ν → W → W × Option Exn

namespace ExternalCommandManager

variable {ν W : Type} (manager : ExternalCommandManager ν W)

structure ReadArgs (ν : Type) where
  args : List (Arg ν)
  obsoleteArg : Nat

def ReadArgs.add (arg : Arg ν) (read : ReadArgs ν) : ReadArgs ν := { read with args := arg :: read.args }

def ReadArgs.addFound (found : Option (Arg ν)) (read : ReadArgs ν) : ReadArgs ν :=
  match found with
  | some arg => read.add arg
  | none => read

def serviceName (elt : List Char) : List Char := if elt.getLast? = some '\n' then elt.dropLast else elt

def found (type : ArgType) (val : List Char) : Option (Arg ν) :=
  match type with
  | .contact => (manager.directory.contact val).map .object
  | .timePeriod => (manager.directory.timePeriod val).map .object
  | .hostGroup => (manager.directory.hostGroup val).map .object
  | .serviceGroup => (manager.directory.serviceGroup val).map .object
  | .contactGroup => (manager.directory.contactGroup val).map .object
  | .command => if manager.directory.command val then some (.text val) else none
  | .toBool => some (.bool (toBool val))
  | _ => some (.text val)

def readArgs : Option (List Char) → List ArgType → List (List Char) → Except Exn (Option (ReadArgs ν))
  | _, _, [] => .ok (some ⟨[], 0⟩)
  | some tmpHost, types, elt :: elts =>
    if elt = [] then .error .indexError
    else match manager.directory.service tmpHost (serviceName elt) with
      | none => .ok none
      | some uuid => (readArgs none types elts).map (·.map (·.add (.object uuid)))
  | none, [], _ :: _ => .error .indexError
  | none, .host :: types, elt :: elts =>
    match manager.directory.host (strip elt) with
    | none => .ok none
    | some uuid => (readArgs none types elts).map (·.map (·.add (.object uuid)))
  | none, .service :: types, elt :: elts =>
    if strip elt = [] then .error .indexError else readArgs (some (strip elt)) types elts
  | none, .toInt :: types, elt :: elts => do
    let n ← toInt (strip elt)
    (readArgs none types elts).map (·.map (·.add (.int n)))
  | none, .obsolete :: types, _ :: elts =>
    (readArgs none types elts).map (·.map fun read => { read with obsoleteArg := read.obsoleteArg + 1 })
  | none, type :: types, elt :: elts =>
    (readArgs none types elts).map (·.map (·.addFound (manager.found type (strip elt))))

def header (elt : List Char) : Option (Int × List Char) :=
  match words elt with
  | [timestamp, name] => (readTimestamp timestamp).map fun timestamp => (timestamp, lower name)
  | [name] => some (manager.now, lower name)
  | _ => none

def argTexts (types : List ArgType) (command : List Char) : List (List Char) :=
  (splitSemicolon command (some (if types.contains .service then types.length + 1 else types.length))).tail

def getCommandAndArgs (command : List Char) : Except Exn (Option (Call ν)) :=
  match manager.header ((splitSemicolon command none).headD []) with
  | none => .ok none
  | some (timestamp, cName) =>
    match commands.lookup (String.ofList cName) with
    | none => .ok none
    | some types =>
      match manager.readArgs none types (argTexts types command) with
      | .error .indexError => .ok none
      | .error e => .error e
      | .ok none => .ok none
      | .ok (some read) =>
        if read.args.length = types.length - read.obsoleteArg then .ok (some ⟨timestamp, String.ofList cName, read.args⟩)
        else .ok none

def callMethod (call : Call ν) (w : W) : W × Option Exn :=
  if call.name ∈ unimplemented then (w, some .attributeError) else manager.perform call w

def resolveCommand (cmdLine : List Char) (w : W) : W × Option Exn :=
  match manager.getCommandAndArgs (strip cmdLine) with
  | .error e => (w, some e)
  | .ok none => (w, none)
  | .ok (some call) => manager.callMethod call w

/-- The loop of the scheduler, with the exception that has stopped it. -/
def runExternalCommands : List (List Char) → W → W × Option Exn
  | [], w => (w, none)
  | command :: cmds, w =>
    match manager.resolveCommand command w with
    | (w, some e) => (w, some e)
    | (w, none) => runExternalCommands cmds w

end ExternalCommandManager

end Alignak
