import Alignak.DependencyCopies

/-!
# What definitions of dependencies ask for

A definition of host dependencies asks for a dependency for each of its parents
and each of its dependents.
-/

namespace Alignak.Dependencies

structure Carried where
  inheritsParent : Option (List Char)
  executionFailureCriteria : Option (List Char)
  notificationFailureCriteria : Option (List Char)
  dependencyPeriod : Option Ref
  deriving DecidableEq, Repr

def carried (y : LinkedDependency) : Carried :=
  ⟨y.inheritsParent, y.executionFailureCriteria, y.notificationFailureCriteria, y.dependencyPeriod⟩

def asked (timeperiods : Directory (List Char)) (x : ConfigItem) : Carried where
  inheritsParent := some (x.attrOr "inherits_parent" "0")
  executionFailureCriteria := some (x.attrOr "execution_failure_criteria" "n")
  notificationFailureCriteria := some (x.attrOr "notification_failure_criteria" "n")
  dependencyPeriod := some (link timeperiods (x.attrOr "dependency_period" ""))

section
variable {π : Type} (definitions : List ConfigItem) (pairs : ConfigItem → List π)

/-- The run completes, with an error for each unknown group. Each pair of each
definition has exactly one dependency, which carries what the definition asks
for. -/
def Faithful (timeperiods : Directory (List Char)) (unknown : ConfigItem → List (List Char)) (links : π → LinkedDependency → Bool)
    (run : Except Exn Linked) : Prop :=
  ∃ l, run = .ok l ∧ ∀ x ∈ definitions, (∀ message ∈ unknown x, message ∈ l.errors) ∧
    ∀ p ∈ pairs x, (l.dependencies.filter (links p)).map carried = [asked timeperiods x]

end

/-- The definitions of a collection, each under the name that it was indexed
with. -/
structure Definitions (c : ItemCollection) : Prop extends Slots c where
  items : ∀ x ∈ c.items.values, x.isATemplate = false

section
variable {π : Type} (c : ItemCollection) (pairs : ConfigItem → List π) (relation : π → List Char)

def Unpaired (x : ConfigItem) : Prop :=
  ∀ x' ∈ c.items.values, ∀ p ∈ pairs x', c.nameToItem.get? (.text (relation p)) ≠ some x

/-- The dependencies of the definitions do not come into conflict with each
other, or with the definitions. `order` is the definition order of a
dependency, and `renamed` the name of a definition after its turn. -/
structure Separate (format : List Char → Int → Except Exn (List Char)) (timeperiods : Directory (List Char))
    (order : ConfigItem → Int) (renamed : ConfigItem → List Char) : Prop where
  plain : ∀ x ∈ c.items.values, ∀ p ∈ pairs x, cloneNames format (.text (relation p)) = .ok []
  alike : ∀ x ∈ c.items.values, ∀ p ∈ pairs x, ∀ x' ∈ c.items.values, ∀ p' ∈ pairs x', relation p = relation p' →
    p = p' ∧ asked timeperiods x = asked timeperiods x'
  taken : ∀ done x rest, c.items.values = done ++ x :: rest → ∀ p ∈ pairs x, ∀ y,
    c.nameToItem.get? (.text (relation p)) = some y → renamed y = relation p ∧ (y ∈ rest → y.order < order x) ∧
      ∃ x' ∈ c.items.values, p ∈ pairs x' ∧ order x' ≤ y.order

end

/-! ## Hosts -/

section
variable (groups : Hostgroups)

def hostPairs (x : ConfigItem) : List (List Char × List Char) :=
  (sonHosts groups x).flatMap fun son => (fatherHosts groups x).map fun father => (father, son)

def hostRelationOf (p : List Char × List Char) : List Char := p.1 ++ "->".toList ++ p.2

def linksHosts (hosts : Directory (List Char)) (p : List Char × List Char) (y : LinkedDependency) : Bool :=
  decide (y.hostName = some (link hosts p.1) ∧ y.dependentHostName = some (link hosts p.2))

structure HostsSeparate (format : List Char → Int → Except Exn (List Char)) (timeperiods : Directory (List Char))
    (c : ItemCollection) : Prop where
  separate : Separate c (hostPairs groups) hostRelationOf format timeperiods (fun _ => 1) ConfigItem.hostRelation
  /-- A definition with an error has no known dependents, and stays. -/
  known : ∀ x ∈ c.items.values, hostErrors groups x ≠ [] → sonHosts groups x = [] ∧ Unpaired c (hostPairs groups) hostRelationOf x
  /-- A definition without dependents does not name a pair itself. -/
  alone : ∀ y ∈ c.items.values, sonHosts groups y = [] → Unpaired c (hostPairs groups) hostRelationOf y →
    ∀ x ∈ c.items.values, ∀ p ∈ hostPairs groups x, ¬ (y.attr "host_name" = some p.1 ∧ y.attr "dependent_host_name" = some p.2)

/-! ## Services -/

def namesOf (x : ConfigItem) (prop : String) : List (List Char) := splitNames (x.attrOr prop "")

def parentServices (x : ConfigItem) : List ServiceName :=
  (listed x "host_name" ++ members groups (listed x "hostgroup_name")).flatMap fun h => (listed x "service_description").map (ServiceName.mk h)

def dependentServices (x : ConfigItem) : List ServiceName :=
  (members groups (listed x "dependent_hostgroup_name") ++ listed (withDependentHosts x) "dependent_host_name").flatMap fun h =>
    (namesOf x "dependent_service_description").map (ServiceName.mk h)

def servicePairs (x : ConfigItem) : List (ServiceName × ServiceName) :=
  if perHost x then
    (members groups (namesOf x "hostgroup_name")).flatMap fun h => (namesOf x "dependent_service_description").flatMap fun d =>
      (namesOf x "service_description").map fun n => (⟨h, n⟩, ⟨h, d⟩)
  else (dependentServices groups x).flatMap fun dependent => (parentServices groups x).map fun parent => (parent, dependent)

def serviceRelationOf (p : ServiceName × ServiceName) : List Char :=
  p.1.hostName ++ '/' :: p.1.serviceDescription ++ "->".toList ++ p.2.hostName ++ '/' :: p.2.serviceDescription

def Services.find (services : Services) (s : ServiceName) : Option Nat := services.directory.find (s.hostName, s.serviceDescription)

def linksServices (services : Services) (p : ServiceName × ServiceName) (y : LinkedDependency) : Bool :=
  decide ((services.find p.1).isSome ∧ (services.find p.2).isSome ∧ y.serviceDescription = (services.find p.1).map Ref.id ∧
    y.dependentServiceDescription = (services.find p.2).map Ref.id)

def groupErrors (x : ConfigItem) : List (List Char) :=
  (unknownGroups groups (namesOf x "hostgroup_name")).map
    (unknownGroup "ERROR: the servicedependecy got an unknown hostgroup_name ")

def serviceErrors (x : ConfigItem) : List (List Char) :=
  if perHost x then groupErrors groups x
  else (unknownGroups groups (listed x "hostgroup_name")).map (unknownGroup "A servicedependecy got an unknown hostgroup_name ") ++
    (unknownGroups groups (listed x "dependent_hostgroup_name")).map
      (unknownGroup "A servicedependecy got an unknown dependent_hostgroup_name ")

def preparedService (x : ConfigItem) : ConfigItem := if perHost x then x else withDependentHosts x

structure ServicesSeparate (format : List Char → Int → Except Exn (List Char)) (services : Services)
    (timeperiods : Directory (List Char)) (c : ItemCollection) : Prop where
  separate : Separate c (servicePairs groups) serviceRelationOf format timeperiods ConfigItem.order fun x => (preparedService x).serviceRelation
  /-- The properties that are read without looking whether they are there. -/
  described : ∀ x ∈ c.items.values, (x.attr "dependent_service_description").isSome = true ∧
    (perHost x → (x.attr "service_description").isSome = true)
  known : ∀ x ∈ c.items.values, perHost x ∨ serviceErrors groups x = []
  found : ∀ x ∈ c.items.values, ∀ p ∈ servicePairs groups x, (services.find p.1).isSome = true ∧ (services.find p.2).isSome = true
  timeless : ∀ x ∈ c.items.values, ∀ p ∈ servicePairs groups x, x.attrOr "dependency_period" "" = []

end

/-! ## Both -/

inductive Kind
  | host
  | service
  deriving DecidableEq, Repr

structure Setting where
  groups : Hostgroups
  hosts : Directory (List Char)
  timeperiods : Directory (List Char)
  services : Services
  format : List Char → Int → Except Exn (List Char)

section
variable (w : Setting) (c : ItemCollection)

def Kind.Faithful : Kind → Prop
  | host => Dependencies.Faithful c.items.values (hostPairs w.groups) w.timeperiods (hostErrors w.groups) (linksHosts w.hosts)
    (hostdependencies w.groups w.hosts w.timeperiods w.format c)
  | service => Dependencies.Faithful c.items.values (servicePairs w.groups) w.timeperiods (serviceErrors w.groups)
    (linksServices w.services) (servicedependencies w.groups w.timeperiods w.services w.format c)

def Kind.Separate : Kind → Prop
  | host => HostsSeparate w.groups w.format w.timeperiods c
  | service => ServicesSeparate w.groups w.format w.services w.timeperiods c

end

end Alignak.Dependencies
