import Alignak.AlignakObject
import Alignak.SchedulingItem

/-!
# The retention of the hosts and services

What `get_retention_data` saves of an item and what
`restore_retention_data_item` makes of it in the item of another run, which has
an identifier of its own. The objects of a table are saved as dictionaries, and
built again from them.
-/

namespace Alignak.Retention

open Scheduling (ItemType)

/-! ## The objects of an item -/

structure Env where
  now : Int
  /-- The identifier for a new object of a class, built from one entry of the data. -/
  newObjectId : String → String → String
  logActions : Bool
  /-- The identifier of the contact of a name. -/
  contactUuid : String → Option String

section
variable (env : Env)

def attr (o : Attributes) (p : String) : Value := (o.get? p).getD .none

def Value.sub : Value → Value → Value
  | .int a, .int b => .int (a - b)
  | _, _ => .none

/-! ### Downtimes -/

def downtimeClass : ObjectClass where
  properties := [
    ("activate_me", some (.str "")),
    ("entry_time", some (.int 0)),
    ("fixed", some (.bool true)),
    ("start_time", some (.int 0)),
    ("duration", some (.int 0)),
    ("trigger_id", some (.str "")),
    ("end_time", some (.int 0)),
    ("real_end_time", some (.int 0)),
    ("author", some (.str "Alignak")),
    ("comment", some (.str "")),
    ("is_in_effect", some (.bool false)),
    ("has_been_triggered", some (.bool false)),
    ("can_be_deleted", some (.bool false)),
    ("ref", some (.str "unset")),
    ("ref_type", some (.str "unset")),
    ("comment_id", some (.str ""))]

def createdDowntime (o : Attributes) : Attributes :=
  let o := (o.set "activate_me" (.list [])).set "entry_time" (.int env.now)
  let o := if attr o "trigger_id" ≠ .str "" ∧ attr o "trigger_id" ≠ .str "0" then o.set "fixed" (.bool false) else o
  let o := if (attr o "fixed").truthy then o.set "duration" (Value.sub (attr o "end_time") (attr o "start_time")) else o
  (((o.set "real_end_time" (attr o "end_time")).set "is_in_effect" (.bool false)).set
    "has_been_triggered" (.bool false)).set "can_be_deleted" (.bool false)

def newDowntime (newId : String) (params : Attributes) : Attributes :=
  let o := downtimeClass.fillDefault (downtimeClass.init newId params)
  if params.contains "uuid" then o else createdDowntime env o

/-! ### Comments -/

def commentClass : ObjectClass where
  properties := [
    ("entry_time", some (.int 0)),
    ("entry_type", none),
    ("author", some (.str "Alignak")),
    ("comment", some (.str "")),
    ("comment_type", none),
    ("source", some (.int 0)),
    ("expires", some (.bool false)),
    ("ref", some (.str "unset")),
    ("ref_type", some (.str "unset"))]

def newComment (newId : String) (params : Attributes) : Attributes :=
  let o := commentClass.init newId params
  commentClass.fillDefault (if (attr o "entry_time").truthy then o else o.set "entry_time" (.int env.now))

/-! ### Acknowledgements -/

def acknowledgeClass : ObjectClass where
  properties := [
    ("sticky", some (.bool true)),
    ("notify", some (.bool false)),
    ("end_time", some (.int 0)),
    ("author", some (.str "Alignak")),
    ("comment", some (.str "")),
    ("comment_id", some (.str ""))]

def newAcknowledge (newId : String) (params : Attributes) : Attributes :=
  acknowledgeClass.fillDefault (acknowledgeClass.init newId params)

/-- `Acknowledge.serialize` names the attributes one by one. -/
def serializedByAcknowledge : List String := ["uuid", "ref", "sticky", "notify", "end_time", "author", "comment"]

def serializeAcknowledge (o : Attributes) : Except Exn Attributes :=
  serializedByAcknowledge.foldlM (fun res p =>
    match o.get? p with
    | none => .error .attributeError
    | some v => .ok (res.set p v)) Dict.empty

/-! ### Notifications -/

def notificationClass : ObjectClass where
  properties := [
    ("is_a", some (.str "notification")),
    ("type", some (.str "PROBLEM")),
    ("internal", some (.bool false)),
    ("creation_time", some (.float 0)),
    ("_is_orphan", some (.bool false)),
    ("_in_timeout", some (.bool false)),
    ("status", some (.str "scheduled")),
    ("exit_status", some (.int 3)),
    ("output", some (.str "")),
    ("long_output", some (.str "")),
    ("perf_data", some (.str "")),
    ("t_to_go", some (.float 0)),
    ("check_time", some (.int 0)),
    ("last_poll", some (.int 0)),
    ("execution_time", some (.float 0)),
    ("wait_time", some (.float (1 / 1000))),
    ("u_time", some (.float 0)),
    ("s_time", some (.float 0)),
    ("reactionner_tag", some (.str "None")),
    ("env", some (.dict [])),
    ("module_type", some (.str "fork")),
    ("my_worker", some (.str "none")),
    ("command", some (.str "UNSET")),
    ("timeout", some (.int 10)),
    ("ref", some (.str "unset")),
    ("ref_type", some (.str "unset")),
    ("my_scheduler", some (.str "unassigned")),
    ("start_time", some (.int 0)),
    ("end_time", some (.int 0)),
    ("contact_name", some (.str "")),
    ("host_name", some (.str "")),
    ("service_description", some (.str "")),
    ("reason_type", some (.int 1)),
    ("state", some (.int 0)),
    ("ack_author", some (.str "")),
    ("ack_data", some (.str "")),
    ("escalated", some (.bool false)),
    ("command_call", some .none),
    ("contact", some .none),
    ("notif_nb", some (.int 1)),
    ("enable_environment_macros", some (.bool false)),
    ("already_start_escalations", some (.list [])),
    ("author", some (.str "n/a")),
    ("author_name", some (.str "n/a")),
    ("author_alias", some (.str "n/a")),
    ("author_comment", some (.str "n/a")),
    ("recipients", some (.list []))]

def newNotification (newId : String) (params : Attributes) : Attributes :=
  let o := notificationClass.init newId params
  let o := if params.contains "creation_time" then o else o.set "creation_time" (.float env.now)
  let o := if params.contains "log_actions" then o else o.set "log_actions" (.bool env.logActions)
  notificationClass.fillDefault (notificationClass.fillDefault o)

def serializeNotification (o : Attributes) : Except Exn Attributes := do
  let res ← notificationClass.serialize o
  return if res.contains "command_call" then res.set "command_call" (.str "n/a") else res

end

/-! ## The properties that are retained -/

inductive Table
  | downtimes
  | comments
  | notificationsInProgress
  deriving DecidableEq, Repr

inductive Retained
  | value (name : String)
  | table (t : Table)
  | acknowledgement
  deriving DecidableEq, Repr

/-- The retained properties of `SchedulingItem`, in its configuration. -/
def schedulingItemProperties : List Retained :=
  [.value "active_checks_enabled", .value "passive_checks_enabled", .value "event_handler_enabled",
   .value "flap_detection_enabled", .value "process_perf_data", .value "notifications_enabled"]

/-- Those of `Item` and `SchedulingItem` at run time. -/
def schedulingItemRunningProperties : List Retained :=
  [.table .downtimes, .value "modified_attributes", .value "last_chk", .value "next_chk",
   .value "in_maintenance", .value "latency", .value "attempt", .value "state_id",
   .value "current_event_id", .value "last_event_id", .value "last_state", .value "last_state_type",
   .value "last_state_id", .value "last_state_change", .value "last_hard_state_change",
   .value "last_hard_state", .value "last_hard_state_id", .value "state_type", .value "state_type_id",
   .value "duration_sec", .value "output", .value "long_output", .value "is_flapping",
   .value "last_state_update", .table .notificationsInProgress, .table .comments,
   .value "flapping_changes", .value "flapping_comment_id", .value "percent_state_change",
   .value "problem_has_been_acknowledged", .acknowledgement, .value "acknowledgement_type",
   .value "has_been_checked", .value "should_be_scheduled", .value "last_problem_id",
   .value "current_problem_id", .value "execution_time", .value "last_notification",
   .value "current_notification_number", .value "current_notification_id",
   .value "check_flapping_recovery_notification", .value "scheduled_downtime_depth",
   .value "pending_flex_downtime", .value "timeout", .value "start_time", .value "end_time",
   .value "early_timeout", .value "return_code", .value "perf_data", .value "last_perf_data",
   .value "notified_contacts", .value "in_scheduled_downtime",
   .value "in_scheduled_downtime_during_last_check", .value "in_hard_unknown_reach_phase",
   .value "was_in_hard_unknown_reach_phase", .value "last_snapshot", .value "freshness_expired",
   .value "freshness_log_raised"]

def retainedProperties : ItemType → List Retained
  | .host => schedulingItemProperties ++ schedulingItemRunningProperties ++
    [.value "state", .value "last_time_up", .value "last_time_down", .value "last_time_unreachable",
     .value "state_before_hard_unknown_reach_phase"]
  | .service => schedulingItemProperties ++ schedulingItemRunningProperties ++
    [.value "state", .value "last_time_ok", .value "last_time_warning", .value "last_time_critical",
     .value "last_time_unknown", .value "last_time_unreachable",
     .value "state_before_hard_unknown_reach_phase"]

structure Item where
  uuid : String
  values : String → Value
  tables : Table → Dict String Attributes
  acknowledgement : Option Attributes
  checksInProgress : List String
  notifiedContactsIds : List String

structure ItemData where
  values : Dict String Value
  tables : Table → Option (Dict String Attributes)
  acknowledgement : Option Attributes

def ItemData.empty : ItemData := ⟨Dict.empty, fun _ => none, none⟩

/-! ## Saving -/

def uuidOf (o : Attributes) : Except Exn String :=
  match o.get? "uuid" with
  | some (.str u) => .ok u
  | _ => .error .attributeError

def Table.serialize : Table → Attributes → Except Exn Attributes
  | .downtimes => downtimeClass.serialize
  | .comments => commentClass.serialize
  | .notificationsInProgress => serializeNotification

def dictToSerializedDict (t : Table) (d : Dict String Attributes) : Except Exn (Dict String Attributes) :=
  d.values.foldlM (fun result elt => do
    let s ← t.serialize elt
    let u ← uuidOf elt
    return result.set u s) Dict.empty

def toSerialized : Option Attributes → Except Exn Attributes
  | none => .ok Dict.empty
  | some a => serializeAcknowledge a

/-- What `get_retention_data` does for one host, or one service. -/
def itemRetentionData (t : ItemType) (item : Item) : Except Exn ItemData :=
  (retainedProperties t).foldlM (fun data p =>
    match p with
    | .value name => .ok { data with values := data.values.set name (item.values name) }
    | .table t => do
      let d ← dictToSerializedDict t (item.tables t)
      return { data with tables := Function.update data.tables t (some d) }
    | .acknowledgement => do
      let a ← toSerialized item.acknowledgement
      return { data with acknowledgement := some a }) ItemData.empty

/-! ## Restoring -/

def fromSerialized (a : Attributes) : Attributes := if a.entries.isEmpty then Dict.empty else a

section
variable (env : Env)

def Item.setValue (i : Item) (p : String) (v : Value) : Item := { i with values := Function.update i.values p v }

def Item.setObject (i : Item) (t : Table) (k : String) (o : Attributes) : Item :=
  { i with tables := Function.update i.tables t ((i.tables t).set k o) }

/-- `add_downtime` and `add_comment`. -/
def Item.addObject (i : Item) (t : Table) (o : Attributes) : Except Exn Item := do
  let u ← uuidOf o
  return i.setObject t u o

def restoreProperty (data : ItemData) (item : Item) : Retained → Item
  | .value name =>
    match data.values.get? name with
    | none => item
    | some v => item.setValue name v
  | .table t =>
    match data.tables t with
    | none => item
    | some d => { item with tables := Function.update item.tables t d }
  | .acknowledgement =>
    match data.acknowledgement with
    | none => item
    | some a => { item with acknowledgement := some (fromSerialized a) }

def restoreProperties (t : ItemType) (data : ItemData) (item : Item) : Item :=
  (retainedProperties t).foldl (restoreProperty data) item

def addNotification (n : Attributes) (actions : Dict String Attributes) : Except Exn (Dict String Attributes) := do
  let u ← uuidOf n
  return if actions.contains u then actions else actions.set u n

def restoreNotification (s : Item × Dict String Attributes) (e : String × Attributes) :
    Except Exn (Item × Dict String Attributes) := do
  let notification := newNotification env (env.newObjectId "notification" e.1) (e.2.set "ref" (.str s.1.uuid))
  let actions ← addNotification notification s.2
  return (s.1.setObject .notificationsInProgress e.1 notification, actions)

def restoreNotifications (item : Item) (actions : Dict String Attributes) : Except Exn (Item × Dict String Attributes) :=
  (item.tables .notificationsInProgress).entries.foldlM (restoreNotification env) (item, actions)

def Item.updateInChecking (i : Item) : Item := i.setValue "in_checking" (.bool (i.checksInProgress.length != 0))

def hasUuid (s : String) : Bool := s.toList.tails.any fun t => "uuid".toList.isPrefixOf t

/-- The comment of a downtime that is restored: one that is not in the data is
forgotten in the data alone, and a name with `uuid` in it is taken for a comment. -/
def checkComment (comments : Dict String Attributes) (downtime : Attributes) : Except Exn Unit :=
  match downtime.get? "comment_id" with
  | none => .error .keyError
  | some (.str c) =>
    let c := if c ≠ "" ∧ comments.contains c = false then "" else c
    if hasUuid c then .error .attributeError else .ok ()
  | some _ => .error .typeError

def restoreDowntime (comments : Dict String Attributes) (item : Item) (e : String × Attributes) : Except Exn Item := do
  let downtime := e.2.set "ref" (.str item.uuid)
  let myDowntime := newDowntime env (env.newObjectId "downtime" e.1) downtime
  checkComment comments downtime
  item.addObject .downtimes myDowntime

def restoreComment (item : Item) (e : String × Attributes) : Except Exn Item :=
  item.addObject .comments (newComment env (env.newObjectId "comment" e.1) (e.2.set "ref" (.str item.uuid)))

def restoreAcknowledgement (item : Item) : Item :=
  match item.acknowledgement with
  | none => item
  | some a =>
    { item with acknowledgement := some (newAcknowledge (env.newObjectId "acknowledge" item.uuid)
        (a.set "ref" (.str item.uuid))) }

def relinkContact (new : List String × List String) (name : String) : List String × List String :=
  match env.contactUuid name with
  | none => new
  | some uuid =>
    (if name ∈ new.1 then new.1 else new.1 ++ [name], if uuid ∈ new.2 then new.2 else new.2 ++ [uuid])

def relinkContacts (names : List String) : List String × List String := names.foldl (relinkContact env) ([], [])

def restoreContacts (item : Item) : Except Exn Item :=
  match item.values "notified_contacts" with
  | .list names =>
    let new := relinkContacts env names
    .ok { item.setValue "notified_contacts" (.list new.1) with notifiedContactsIds := new.2 }
  | _ => .error .typeError

def ItemData.table (data : ItemData) (t : Table) : Except Exn (Dict String Attributes) :=
  match data.tables t with
  | none => .error .keyError
  | some d => .ok d

def restoreRetentionDataItem (t : ItemType) (data : ItemData) (item : Item) (actions : Dict String Attributes) :
    Except Exn (Item × Dict String Attributes) := do
  let item := restoreProperties t data item
  let (item, actions) ← restoreNotifications env item actions
  let item := item.updateInChecking
  let downtimes ← data.table .downtimes
  let comments ← data.table .comments
  let item ← downtimes.entries.foldlM (restoreDowntime env comments) item
  let item ← comments.entries.foldlM (restoreComment env) item
  let item ← restoreContacts env (restoreAcknowledgement env item)
  return (item, actions)

end

end Alignak.Retention
