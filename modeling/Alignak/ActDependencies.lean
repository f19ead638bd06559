import Alignak.Graph
import Alignak.SchedulingItem

/-!
# The dependencies between hosts and services

The hosts depend on their parents and by host dependencies, the services on
their host and by service dependencies.
-/

namespace Alignak.ActDependencies

open Scheduling (Dependency Criterion)

/-- An empty name of a parent is `none`. -/
structure Host where
  uuid : Nat
  parents : List (Option Nat)
  activeChecksEnabled : Bool
  deriving DecidableEq

structure Service where
  uuid : Nat
  host : Option Nat
  hostDependencyEnabled : Bool
  deriving DecidableEq

/-- A host dependency, or a service dependency with the descriptions in place
of the host names. A name that no item has stays as it is. -/
structure ItemDependency where
  hostName : Option Nat
  dependentHostName : Option Nat
  notificationFailureCriteria : List Criterion
  dependencyPeriod : Option Nat
  deriving DecidableEq

structure Conf where
  hosts : List Host
  services : List Service
  hostdependencies : List ItemDependency
  servicedependencies : List ItemDependency
  nodup : (hosts.map Host.uuid ++ services.map Service.uuid).Nodup

structure Links where
  actDependOf : Nat → List Dependency
  actDependOfMe : Nat → List Dependency

def Links.empty : Links := ⟨fun _ => [], fun _ => []⟩

def Links.add (links : Links) (son parent : Nat) (status : List Criterion) (period : Option Nat) : Links where
  actDependOf := Function.update links.actDependOf son (links.actDependOf son ++ [⟨parent, status, period⟩])
  actDependOfMe := Function.update links.actDependOfMe parent (links.actDependOfMe parent ++ [⟨son, status, period⟩])

/-! ## Linking -/

def failureStates : List Criterion := [.letter 'd', .letter 'x', .letter 's', .letter 'f']

def Conf.host? (conf : Conf) (uuid : Nat) : Option Host := conf.hosts.find? fun host => host.uuid == uuid

/-- `self[parent_id]` of a host that is not there raises. -/
def applyParent (conf : Conf) (host : Host) (links : Links) (parentId : Option Nat) : Except Exn Links :=
  match parentId with
  | none => .ok links
  | some parentId => match conf.host? parentId with
    | none => .error .keyError
    | some parent => .ok (if parent.activeChecksEnabled then links.add host.uuid parentId failureStates none else links)

/-- `Hosts.apply_dependencies`. -/
def applyHosts (conf : Conf) (links : Links) : Except Exn Links :=
  conf.hosts.foldlM (fun links host => host.parents.foldlM (applyParent conf host) links) links

def applyService (conf : Conf) (links : Links) (service : Service) : Except Exn Links :=
  match service.host with
  | none => .ok links
  | some hostId =>
    if service.hostDependencyEnabled then
      match conf.host? hostId with
      | none => .error .keyError
      | some host => .ok (if host.activeChecksEnabled then links.add service.uuid hostId failureStates none else links)
    else .ok links

/-- `Services.apply_dependencies`. -/
def applyServices (conf : Conf) (links : Links) : Except Exn Links := conf.services.foldlM (applyService conf) links

def linkHost (conf : Conf) (links : Links) (hostdep : ItemDependency) : Links :=
  match hostdep.hostName, hostdep.dependentHostName with
  | some parent, some son =>
    if (conf.host? parent).isSome && (conf.host? son).isSome then
      links.add son parent hostdep.notificationFailureCriteria hostdep.dependencyPeriod
    else links
  | _, _ => links

def linkifyHostByHostDep (conf : Conf) (links : Links) : Links := conf.hostdependencies.foldl (linkHost conf) links

def Conf.service? (conf : Conf) (uuid : Nat) : Option Service := conf.services.find? fun service => service.uuid == uuid

/-- `add_act_dependency` reads `son` and `parent`, and has no value of them for a service that is not known. -/
def linkService (conf : Conf) (links : Links) (svcdep : ItemDependency) : Except Exn Links :=
  match svcdep.hostName, svcdep.dependentHostName with
  | some parent, some son =>
    if (conf.service? parent).isSome && (conf.service? son).isSome then
      .ok (links.add son parent svcdep.notificationFailureCriteria svcdep.dependencyPeriod)
    else .error .keyError
  | _, _ => .ok links

def linkifyServiceBySvcDep (conf : Conf) (links : Links) : Except Exn Links :=
  conf.servicedependencies.foldlM (linkService conf) links

def actDependencies (conf : Conf) : Except Exn Links := do
  let links ← linkifyServiceBySvcDep conf Links.empty
  let links := linkifyHostByHostDep conf links
  let links ← applyHosts conf links
  applyServices conf links

/-! ## The check -/

def addNodes {ι : Type} (obj1 : ι → Option Nat) (items : List ι) (g : Graph (Option Nat)) : Graph (Option Nat) :=
  items.foldl (fun g item => if (obj1 item).isSome then g.addNode (obj1 item) else g) g

def addEdges {ι : Type} (obj1 : ι → Option Nat) (obj2 : ι → List (Option Nat)) (items : List ι) (g : Graph (Option Nat)) :
    Graph (Option Nat) :=
  items.foldl (fun g item => (obj2 item).foldl (fun g obj => g.addEdge (obj1 item) obj) g) g

def noLoopInParents {ι : Type} (obj1 : ι → Option Nat) (obj2 : ι → List (Option Nat)) (items : List ι) :
    Except Exn (List (Option Nat)) :=
  (addEdges obj1 obj2 items (addNodes obj1 items Graph.empty)).loopCheck

def loopInParents (conf : Conf) : Except Exn (List (Option Nat)) :=
  noLoopInParents (fun host => some host.uuid) Host.parents conf.hosts

def loopInDependencies (dependencies : List ItemDependency) : Except Exn (List (Option Nat)) :=
  noLoopInParents ItemDependency.hostName (fun dep => (dep.dependentHostName.map some).toList) dependencies

def isCorrect (conf : Conf) : Prop :=
  loopInParents conf = .ok [] ∧ loopInDependencies conf.hostdependencies = .ok [] ∧
  loopInDependencies conf.servicedependencies = .ok []

instance (conf : Conf) : Decidable (isCorrect conf) := inferInstanceAs (Decidable (_ ∧ _ ∧ _))

end Alignak.ActDependencies
