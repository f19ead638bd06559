import Alignak.CheckRuns
import Mathlib.Data.Int.Bitwise

/-!
# Commands on groups

The commands on the members of a hosts group, on those of a services group and
on the services of a host: each is a loop that runs a command of one item.
-/

namespace Alignak.Groups

structure Conf extends part : Checking.Conf where
  hostServices_nodup : ∀ h, (hostServices h).Nodup
  host_of_mem : ∀ h, ∀ s ∈ hostServices h, host s = h

structure Group where
  members : List Nat
  nodup : members.Nodup

/-- `broks` are the items whose status broks have been sent. -/
structure World where
  checking : Checking.World
  modifiedAttributes : Nat → Int
  broks : List Nat

abbrev Sched := EStateM Exn World

def onChecking (m : Checking.Sched Unit) : Sched Unit := fun w =>
  match m w.checking with
  | .ok _ s => .ok ⟨⟩ { w with checking := s }
  | .error e s => .error e { w with checking := s }

namespace World

variable (w : World)

def activeChecksEnabled (i : Nat) : Bool := (w.checking.item i).activeChecksEnabled

def passiveChecksEnabled (i : Nat) : Bool := (w.checking.item i).passiveChecksEnabled

def notificationsEnabled (i : Nat) : Bool := (w.checking.items.settings i).notificationsEnabled

def setActiveChecks (i : Nat) (enabled : Bool) : World :=
  { w with checking := w.checking.modifyItem i fun x => { x with activeChecksEnabled := enabled } }

def setPassiveChecks (i : Nat) (enabled : Bool) : World :=
  { w with checking := w.checking.modifyItem i fun x => { x with passiveChecksEnabled := enabled } }

def setNotifications (i : Nat) (enabled : Bool) : World :=
  let items := w.checking.items.modifySettings i fun x => { x with notificationsEnabled := enabled }
  { w with checking := { w.checking with items := items } }

/-- The bits of `DICT_MODATTR`. -/
def markModified (i bit : Nat) : World :=
  { w with modifiedAttributes := Function.update w.modifiedAttributes i (Int.lor (w.modifiedAttributes i) (2 ^ bit)) }

def sendStatusBrok (i : Nat) : World := { w with broks := w.broks ++ [i] }

@[simp] theorem sendStatusBrok_checking (i : Nat) : (w.sendStatusBrok i).checking = w.checking := rfl

@[simp] theorem markModified_checking (i bit : Nat) : (w.markModified i bit).checking = w.checking := rfl

end World

/-! ## Commands of one item -/

structure DowntimeArgs where
  startTime : Int
  endTime : Int
  fixed : Bool
  triggerId : Option Nat
  duration : Int

section
variable (conf : Conf) (env : Checking.Env)

def disableHostCheck (i : Nat) : Sched Unit := do
  guarded ((← get).activeChecksEnabled i = true) (do
    modify fun w => w.markModified i 1
    onChecking (Checking.disableActiveChecks env i)
    modify fun w => w.sendStatusBrok i)

def disableSvcCheck (i : Nat) : Sched Unit := do
  guarded ((← get).activeChecksEnabled i = true) (do
    onChecking (Checking.disableActiveChecks env i)
    modify fun w => (w.markModified i 1).sendStatusBrok i)

/-- `enable_host_check` and `enable_svc_check`. -/
def enableCheck (i : Nat) : Sched Unit := modify fun w =>
  if w.activeChecksEnabled i then w else ((w.setActiveChecks i true).markModified i 1).sendStatusBrok i

def enableHostCheck : Nat → Sched Unit := enableCheck

def enableSvcCheck : Nat → Sched Unit := enableCheck

def changePassiveChecks (enabled : Bool) (i : Nat) : Sched Unit := modify fun w =>
  if w.passiveChecksEnabled i = enabled then w else ((w.markModified i 2).setPassiveChecks i enabled).sendStatusBrok i

def disablePassiveHostChecks : Nat → Sched Unit := changePassiveChecks false

def disablePassiveSvcChecks : Nat → Sched Unit := changePassiveChecks false

def enablePassiveHostChecks : Nat → Sched Unit := changePassiveChecks true

def enablePassiveSvcChecks : Nat → Sched Unit := changePassiveChecks true

def changeNotifications (enabled : Bool) (i : Nat) : Sched Unit := modify fun w =>
  if w.notificationsEnabled i = enabled then w else ((w.markModified i 0).setNotifications i enabled).sendStatusBrok i

def disableHostNotifications : Nat → Sched Unit := changeNotifications false

def disableSvcNotifications : Nat → Sched Unit := changeNotifications false

def enableHostNotifications : Nat → Sched Unit := changeNotifications true

def enableSvcNotifications : Nat → Sched Unit := changeNotifications true

def schedule (force : Bool) (checkTime : Int) (i : Nat) : Sched Unit := do
  onChecking (do let _ ← Checking.schedule conf.part env i force (some checkTime))
  modify fun w => w.sendStatusBrok i

def scheduleSvcCheck (checkTime : Int) : Nat → Sched Unit := schedule conf env false checkTime

def scheduleForcedSvcCheck (checkTime : Int) : Nat → Sched Unit := schedule conf env true checkTime

/-- The brok is sent before the triggers are looked up, which may fail. -/
def scheduleDowntime (args : DowntimeArgs) (i : Nat) : Sched Unit := do
  modify fun w => w.sendStatusBrok i
  onChecking (Checking.onItems
    (Scheduling.scheduleDowntime conf.part.toConf i args.fixed args.startTime args.endTime args.duration args.triggerId))

def scheduleHostDowntime (args : DowntimeArgs) : Nat → Sched Unit := scheduleDowntime conf args

def scheduleSvcDowntime (args : DowntimeArgs) : Nat → Sched Unit := scheduleDowntime conf args

end

/-! ## Loops -/

/-- `self.daemon.hosts[host_id]` and `self.daemon.services[service_id]`. -/
def lookUp (known : List Nat) (i : Nat) : Sched Nat := if i ∈ known then pure i else throw .keyError

def attributeOf (_identifier : Nat) : Sched Nat := throw .attributeError

section
variable (conf : Conf) (f : Nat → Sched Unit)

def eachHost (hostgroup : Group) : Sched Unit := hostgroup.members.forM fun i => guarded (i ∈ conf.hosts) (f i)

def eachService (host : Nat) : Sched Unit := (conf.hostServices host).forM fun i => guarded (i ∈ conf.services) (f i)

/-- The loops over the services of a host send the status of each one themselves. -/
def thenBrok (i : Nat) : Sched Unit := do
  f i
  modify fun w => w.sendStatusBrok i

def eachLinkedService (host : Nat) : Sched Unit :=
  (conf.hostServices host).forM fun i => do f (← lookUp conf.services i)

def eachHostService (hostgroup : Group) : Sched Unit := eachHost conf (eachService conf f) hostgroup

def eachServiceHost (servicegroup : Group) : Sched Unit :=
  servicegroup.members.forM fun i => guarded (i ∈ conf.services) (do f (← lookUp conf.hosts (conf.host i)))

def eachMember (servicegroup : Group) : Sched Unit := servicegroup.members.forM fun i => do f (← lookUp conf.services i)

end

/-! ## Commands of a group -/

section
variable (conf : Conf) (env : Checking.Env)

def disableHostgroupHostChecks (hostgroup : Group) : Sched Unit := eachHost conf (disableHostCheck env) hostgroup

def disableHostgroupHostNotifications (hostgroup : Group) : Sched Unit := eachHost conf disableHostNotifications hostgroup

def disableHostgroupPassiveHostChecks (hostgroup : Group) : Sched Unit := eachHost conf disablePassiveHostChecks hostgroup

def disableHostgroupPassiveSvcChecks (hostgroup : Group) : Sched Unit := eachHostService conf disablePassiveSvcChecks hostgroup

def disableHostgroupSvcChecks (hostgroup : Group) : Sched Unit := eachHostService conf (disableSvcCheck env) hostgroup

def disableHostgroupSvcNotifications (hostgroup : Group) : Sched Unit := eachHostService conf disableSvcNotifications hostgroup

def disableHostSvcChecks (host : Nat) : Sched Unit := eachService conf (thenBrok (disableSvcCheck env)) host

def disableHostSvcNotifications (host : Nat) : Sched Unit := eachService conf (thenBrok disableSvcNotifications) host

def disableServicegroupHostChecks (servicegroup : Group) : Sched Unit := eachServiceHost conf (disableHostCheck env) servicegroup

def disableServicegroupHostNotifications (servicegroup : Group) : Sched Unit :=
  eachServiceHost conf disableHostNotifications servicegroup

def disableServicegroupPassiveHostChecks (servicegroup : Group) : Sched Unit :=
  eachServiceHost conf disablePassiveHostChecks servicegroup

def disableServicegroupPassiveSvcChecks (servicegroup : Group) : Sched Unit :=
  eachMember conf disablePassiveSvcChecks servicegroup

def disableServicegroupSvcChecks (servicegroup : Group) : Sched Unit := eachMember conf (disableSvcCheck env) servicegroup

def disableServicegroupSvcNotifications (servicegroup : Group) : Sched Unit :=
  eachMember conf disableSvcNotifications servicegroup

def enableHostgroupHostChecks (hostgroup : Group) : Sched Unit := eachHost conf enableHostCheck hostgroup

def enableHostgroupHostNotifications (hostgroup : Group) : Sched Unit := eachHost conf enableHostNotifications hostgroup

def enableHostgroupPassiveHostChecks (hostgroup : Group) : Sched Unit := eachHost conf enablePassiveHostChecks hostgroup

def enableHostgroupPassiveSvcChecks (hostgroup : Group) : Sched Unit := eachHostService conf enablePassiveSvcChecks hostgroup

def enableHostgroupSvcChecks (hostgroup : Group) : Sched Unit := eachHostService conf enableSvcCheck hostgroup

def enableHostgroupSvcNotifications (hostgroup : Group) : Sched Unit := eachHostService conf enableSvcNotifications hostgroup

def enableHostSvcChecks (host : Nat) : Sched Unit := eachService conf (thenBrok enableSvcCheck) host

def enableHostSvcNotifications (host : Nat) : Sched Unit :=
  eachService conf (thenBrok enableSvcNotifications) host

def enableServicegroupHostChecks (servicegroup : Group) : Sched Unit := eachServiceHost conf enableHostCheck servicegroup

def enableServicegroupHostNotifications (servicegroup : Group) : Sched Unit :=
  eachServiceHost conf enableHostNotifications servicegroup

def enableServicegroupPassiveHostChecks (servicegroup : Group) : Sched Unit :=
  eachServiceHost conf enablePassiveHostChecks servicegroup

def enableServicegroupPassiveSvcChecks (servicegroup : Group) : Sched Unit := eachMember conf enablePassiveSvcChecks servicegroup

def enableServicegroupSvcChecks (servicegroup : Group) : Sched Unit := eachMember conf enableSvcCheck servicegroup

def enableServicegroupSvcNotifications (servicegroup : Group) : Sched Unit := eachMember conf enableSvcNotifications servicegroup

def scheduleForcedHostSvcChecks (host : Nat) (checkTime : Int) : Sched Unit :=
  eachLinkedService conf (thenBrok (scheduleForcedSvcCheck conf env checkTime)) host

def scheduleHostSvcChecks (host : Nat) (checkTime : Int) : Sched Unit :=
  eachLinkedService conf (thenBrok (scheduleSvcCheck conf env checkTime)) host

def scheduleHostgroupHostDowntime (hostgroup : Group) (args : DowntimeArgs) : Sched Unit :=
  eachHost conf (scheduleHostDowntime conf args) hostgroup

def scheduleHostgroupSvcDowntime (hostgroup : Group) (args : DowntimeArgs) : Sched Unit :=
  eachHost conf (eachLinkedService conf (scheduleSvcDowntime conf args)) hostgroup

def scheduleHostSvcDowntime (host : Nat) (args : DowntimeArgs) : Sched Unit :=
  (conf.hostServices host).forM fun serv => do scheduleSvcDowntime conf args (← attributeOf serv)

def scheduleServicegroupHostDowntime (servicegroup : Group) (args : DowntimeArgs) : Sched Unit := do
  let hosts ← servicegroup.members.mapM attributeOf
  hosts.forM (scheduleHostDowntime conf args)

def scheduleServicegroupSvcDowntime (servicegroup : Group) (args : DowntimeArgs) : Sched Unit :=
  servicegroup.members.forM fun serv => do scheduleSvcDowntime conf args (← attributeOf serv)

inductive GroupCommand
  | disableHostgroupHostChecks (hostgroup : Group)
  | disableHostgroupHostNotifications (hostgroup : Group)
  | disableHostgroupPassiveHostChecks (hostgroup : Group)
  | disableHostgroupPassiveSvcChecks (hostgroup : Group)
  | disableHostgroupSvcChecks (hostgroup : Group)
  | disableHostgroupSvcNotifications (hostgroup : Group)
  | disableHostSvcChecks (host : Nat)
  | disableHostSvcNotifications (host : Nat)
  | disableServicegroupHostChecks (servicegroup : Group)
  | disableServicegroupHostNotifications (servicegroup : Group)
  | disableServicegroupPassiveHostChecks (servicegroup : Group)
  | disableServicegroupPassiveSvcChecks (servicegroup : Group)
  | disableServicegroupSvcChecks (servicegroup : Group)
  | disableServicegroupSvcNotifications (servicegroup : Group)
  | enableHostgroupHostChecks (hostgroup : Group)
  | enableHostgroupHostNotifications (hostgroup : Group)
  | enableHostgroupPassiveHostChecks (hostgroup : Group)
  | enableHostgroupPassiveSvcChecks (hostgroup : Group)
  | enableHostgroupSvcChecks (hostgroup : Group)
  | enableHostgroupSvcNotifications (hostgroup : Group)
  | enableHostSvcChecks (host : Nat)
  | enableHostSvcNotifications (host : Nat)
  | enableServicegroupHostChecks (servicegroup : Group)
  | enableServicegroupHostNotifications (servicegroup : Group)
  | enableServicegroupPassiveHostChecks (servicegroup : Group)
  | enableServicegroupPassiveSvcChecks (servicegroup : Group)
  | enableServicegroupSvcChecks (servicegroup : Group)
  | enableServicegroupSvcNotifications (servicegroup : Group)
  | scheduleForcedHostSvcChecks (host : Nat) (checkTime : Int)
  | scheduleHostSvcChecks (host : Nat) (checkTime : Int)
  | scheduleHostgroupHostDowntime (hostgroup : Group) (args : DowntimeArgs)
  | scheduleHostgroupSvcDowntime (hostgroup : Group) (args : DowntimeArgs)
  | scheduleHostSvcDowntime (host : Nat) (args : DowntimeArgs)
  | scheduleServicegroupHostDowntime (servicegroup : Group) (args : DowntimeArgs)
  | scheduleServicegroupSvcDowntime (servicegroup : Group) (args : DowntimeArgs)

def runGroup : GroupCommand → Sched Unit
  | .disableHostgroupHostChecks hostgroup => disableHostgroupHostChecks conf env hostgroup
  | .disableHostgroupHostNotifications hostgroup => disableHostgroupHostNotifications conf hostgroup
  | .disableHostgroupPassiveHostChecks hostgroup => disableHostgroupPassiveHostChecks conf hostgroup
  | .disableHostgroupPassiveSvcChecks hostgroup => disableHostgroupPassiveSvcChecks conf hostgroup
  | .disableHostgroupSvcChecks hostgroup => disableHostgroupSvcChecks conf env hostgroup
  | .disableHostgroupSvcNotifications hostgroup => disableHostgroupSvcNotifications conf hostgroup
  | .disableHostSvcChecks host => disableHostSvcChecks conf env host
  | .disableHostSvcNotifications host => disableHostSvcNotifications conf host
  | .disableServicegroupHostChecks servicegroup => disableServicegroupHostChecks conf env servicegroup
  | .disableServicegroupHostNotifications servicegroup => disableServicegroupHostNotifications conf servicegroup
  | .disableServicegroupPassiveHostChecks servicegroup => disableServicegroupPassiveHostChecks conf servicegroup
  | .disableServicegroupPassiveSvcChecks servicegroup => disableServicegroupPassiveSvcChecks conf servicegroup
  | .disableServicegroupSvcChecks servicegroup => disableServicegroupSvcChecks conf env servicegroup
  | .disableServicegroupSvcNotifications servicegroup => disableServicegroupSvcNotifications conf servicegroup
  | .enableHostgroupHostChecks hostgroup => enableHostgroupHostChecks conf hostgroup
  | .enableHostgroupHostNotifications hostgroup => enableHostgroupHostNotifications conf hostgroup
  | .enableHostgroupPassiveHostChecks hostgroup => enableHostgroupPassiveHostChecks conf hostgroup
  | .enableHostgroupPassiveSvcChecks hostgroup => enableHostgroupPassiveSvcChecks conf hostgroup
  | .enableHostgroupSvcChecks hostgroup => enableHostgroupSvcChecks conf hostgroup
  | .enableHostgroupSvcNotifications hostgroup => enableHostgroupSvcNotifications conf hostgroup
  | .enableHostSvcChecks host => enableHostSvcChecks conf host
  | .enableHostSvcNotifications host => enableHostSvcNotifications conf host
  | .enableServicegroupHostChecks servicegroup => enableServicegroupHostChecks conf servicegroup
  | .enableServicegroupHostNotifications servicegroup => enableServicegroupHostNotifications conf servicegroup
  | .enableServicegroupPassiveHostChecks servicegroup => enableServicegroupPassiveHostChecks conf servicegroup
  | .enableServicegroupPassiveSvcChecks servicegroup => enableServicegroupPassiveSvcChecks conf servicegroup
  | .enableServicegroupSvcChecks servicegroup => enableServicegroupSvcChecks conf servicegroup
  | .enableServicegroupSvcNotifications servicegroup => enableServicegroupSvcNotifications conf servicegroup
  | .scheduleForcedHostSvcChecks host checkTime => scheduleForcedHostSvcChecks conf env host checkTime
  | .scheduleHostSvcChecks host checkTime => scheduleHostSvcChecks conf env host checkTime
  | .scheduleHostgroupHostDowntime hostgroup args => scheduleHostgroupHostDowntime conf hostgroup args
  | .scheduleHostgroupSvcDowntime hostgroup args => scheduleHostgroupSvcDowntime conf hostgroup args
  | .scheduleHostSvcDowntime host args => scheduleHostSvcDowntime conf host args
  | .scheduleServicegroupHostDowntime servicegroup args => scheduleServicegroupHostDowntime conf servicegroup args
  | .scheduleServicegroupSvcDowntime servicegroup args => scheduleServicegroupSvcDowntime conf servicegroup args

end

end Alignak.Groups
