import Alignak.ServiceDependencies

/-!
# The definitions of dependencies

A definition names several hosts, services and groups; `explode` adds a
dependency for each pair of a parent and a dependent, and removes the
definitions.
-/

namespace Alignak

def ItemClass.hostdependency : ItemClass := ⟨"host_relation", some "host_relation", false⟩

namespace Dependencies

/-- `find_by_name` of the host groups, with the hosts of each. -/
abbrev Hostgroups := List Char → Option (List (List Char))

structure Directory (κ : Type) where
  find : κ → Option Nat
  injective : ∀ k k' u, find k = some u → find k' = some u → k = k'

inductive Ref
  | name (t : List Char)
  | id (u : Nat)
  deriving DecidableEq, Repr

def splitNames (t : List Char) : List (List Char) := (t.splitOn ',').map strip

def listed (x : ConfigItem) (prop : String) : List (List Char) :=
  if x.attrOr prop "" = [] then [] else splitNames (x.attrOr prop "")

section
variable (groups : Hostgroups)

def members (names : List (List Char)) : List (List Char) := names.flatMap fun g => ((groups g).getD []).map strip

def unknownGroups (names : List (List Char)) : List (List Char) := names.filter fun g => (groups g).isNone

end

def unknownGroup (start : String) (g : List Char) : List Char := start.toList ++ '\'' :: g ++ ['\'']

/-- `errors` are those of the collection, and `itemErrors` those of its items. -/
structure Exploding where
  collection : ItemCollection
  errors : List (List Char) := []
  itemErrors : List (Nat × List Char) := []
  toBeRemoved : List Nat := []

def copyItem (properties : List String) (x : ConfigItem) : ConfigItem :=
  { x with attrs := x.attrs.filter fun a => properties.contains a.1 }

def itemProperties : List String := ["name", "imported_from", "use"]

def dependencyProperties : List String :=
  itemProperties ++ ["dependent_host_name", "dependent_hostgroup_name", "host_name", "hostgroup_name", "inherits_parent",
    "execution_failure_criteria", "notification_failure_criteria", "dependency_period"]

def servicedependencyProperties : List String :=
  dependencyProperties ++ ["dependent_service_description", "service_description", "explode_hostgroup"]

section
variable (cls : ItemClass) (format : List Char → Int → Except Exn (List Char))

def Exploding.add (s : Exploding) (copy : ConfigItem) : Except Exn Exploding := do
  let collection ← addItem cls format { copy with uuid := s.collection.nextUuid } true s.collection
  return { s with collection := collection }

def Exploding.remove (s : Exploding) (id : Nat) : Exploding := { s with toBeRemoved := s.toBeRemoved ++ [id] }

/-- `del self[id]` swallows the error of a missing key. -/
def delItem (c : ItemCollection) (id : Nat) : ItemCollection :=
  match c.items.get? id with
  | none => c
  | some x =>
    let c := unindexItem cls x c
    { c with items := c.items.erase id }

def modifyItem (x x' : ConfigItem) (c : ItemCollection) : ItemCollection :=
  { c with
    items := c.items.set x.uuid x'
    nameToItem := c.nameToItem.mapValues fun _ y => if y.uuid = x.uuid then x' else y }

def explodeOne (turn : Exploding → ConfigItem → Except Exn Exploding) (s : Exploding) (id : Nat) : Except Exn Exploding :=
  match s.collection.items.get? id with
  | none => .error .keyError
  | some x => turn s x

def explodeAll (turn : Exploding → ConfigItem → Except Exn Exploding) (c : ItemCollection) : Except Exn Exploding := do
  let s ← c.items.keys.foldlM (explodeOne turn) ({ collection := c } : Exploding)
  return { s with collection := s.toBeRemoved.foldl (delItem cls) s.collection }

end

/-! ## Host dependencies -/

def hostCopy (x : ConfigItem) (dependentHostName hostName : List Char) : ConfigItem :=
  { ((copyItem dependencyProperties x).setAttr "dependent_host_name" dependentHostName).setAttr "host_name" hostName with
    definitionOrder := some 1 }

section
variable (groups : Hostgroups) (format : List Char → Int → Except Exn (List Char))

def sonHosts (x : ConfigItem) : List (List Char) :=
  members groups (listed x "dependent_hostgroup_name") ++ listed x "dependent_host_name"

def fatherHosts (x : ConfigItem) : List (List Char) := members groups (listed x "hostgroup_name") ++ listed x "host_name"

def hostErrors (x : ConfigItem) : List (List Char) :=
  (unknownGroups groups (listed x "dependent_hostgroup_name")).map
      (unknownGroup "A hostdependency got an unknown dependent_hostgroup_name ") ++
    (unknownGroups groups (listed x "hostgroup_name")).map (unknownGroup "A hostdependency got an unknown hostgroup_name ")

def explodeHost (s : Exploding) (x : ConfigItem) : Except Exn Exploding :=
  (sonHosts groups x).foldlM (fun s son => do
    let s ← (fatherHosts groups x).foldlM (fun s father => s.add .hostdependency format (hostCopy x (strip son) father)) s
    return s.remove x.uuid) { s with itemErrors := s.itemErrors ++ (hostErrors groups x).map fun e => (x.uuid, e) }

end

/-! ## Service dependencies -/

def serviceCopy (x : ConfigItem) (dependent parent : ServiceName) : ConfigItem :=
  ((((copyItem servicedependencyProperties x).setAttr "host_name" parent.hostName).setAttr "service_description"
    parent.serviceDescription).setAttr "dependent_host_name" dependent.hostName).setAttr "dependent_service_description"
    dependent.serviceDescription

def splitAttr (x : ConfigItem) (prop : String) : Except Exn (List (List Char)) :=
  match x.attr prop with
  | none => .error .attributeError
  | some t => .ok (splitNames t)

-- The source also compares `explode_hostgroup` with the text `1`, which the bool of a loaded definition never equals.
def perHost (x : ConfigItem) : Prop := (x.attr "hostgroup_name").isSome = true ∧ (x.attr "dependent_hostgroup_name").isNone = true

instance (x : ConfigItem) : Decidable (perHost x) := inferInstanceAs (Decidable (_ ∧ _))

section
variable (groups : Hostgroups) (format : List Char → Int → Except Exn (List Char))

def explodeGroup (x : ConfigItem) (snames depSnames : List (List Char)) (s : Exploding) (hgName : List Char) : Except Exn Exploding :=
  match groups hgName with
  | none => .ok { s with errors := s.errors ++ [unknownGroup "ERROR: the servicedependecy got an unknown hostgroup_name " hgName] }
  | some hosts => (hosts.map strip).foldlM (fun s h => depSnames.foldlM (fun s d => snames.foldlM (fun s n =>
      s.add .servicedependency format (serviceCopy x ⟨h, d⟩ ⟨h, n⟩)) s) s) s

def explodeHostgroup (s : Exploding) (x : ConfigItem) : Except Exn Exploding := do
  let snames ← splitAttr x "service_description"
  let depSnames ← splitAttr x "dependent_service_description"
  let hgNames ← splitAttr x "hostgroup_name"
  hgNames.foldlM (explodeGroup groups format x snames depSnames) s

/-- The error of an unknown group is asked of the group, which is None. -/
def membersOf (names : List (List Char)) : Except Exn (List (List Char)) :=
  if unknownGroups groups names = [] then .ok (members groups names) else .error .attributeError

def withDependentHosts (x : ConfigItem) : ConfigItem :=
  if (x.attr "dependent_host_name").isNone then x.setAttr "dependent_host_name" (x.attrOr "host_name" "") else x

def explodeServices (s : Exploding) (x : ConfigItem) : Except Exn Exploding := do
  let fatherHosts ← membersOf groups (listed x "hostgroup_name")
  let couples := (listed x "host_name" ++ fatherHosts).flatMap fun h => (listed x "service_description").map (ServiceName.mk h)
  let sonHosts ← membersOf groups (listed x "dependent_hostgroup_name")
  let y := withDependentHosts x
  let s := { s with collection := modifyItem x y s.collection }
  let depSnames ← splitAttr y "dependent_service_description"
  let depCouples := (sonHosts ++ listed y "dependent_host_name").flatMap fun h => depSnames.map fun d => ServiceName.mk (strip h) (strip d)
  depCouples.foldlM (fun s dependent => do
    let s ← couples.foldlM (fun s parent => s.add .servicedependency format (serviceCopy y dependent parent)) s
    return s.remove x.uuid) s

def explodeService (s : Exploding) (x : ConfigItem) : Except Exn Exploding :=
  if perHost x then do
    let s ← explodeHostgroup groups format s x
    return s.remove x.uuid
  else explodeServices groups format s x

end

/-! ## Defaults and links -/

def fillDefault (x : ConfigItem) : ConfigItem :=
  [("dependent_hostgroup_name", ""), ("hostgroup_name", ""), ("inherits_parent", "0"), ("execution_failure_criteria", "n"),
    ("notification_failure_criteria", "n"), ("dependency_period", "")].foldl
    (fun x d => if (x.attr d.1).isSome then x else x.setAttr d.1 d.2.toList) x

structure LinkedDependency where
  hostName : Option Ref
  serviceDescription : Option Ref
  dependentHostName : Option Ref
  dependentServiceDescription : Option Ref
  inheritsParent : Option (List Char)
  executionFailureCriteria : Option (List Char)
  notificationFailureCriteria : Option (List Char)
  dependencyPeriod : Option Ref
  deriving DecidableEq, Repr

/-- What `add_act_dependency` and `add_chk_dependency` are called with. -/
structure Registration where
  dependent : Nat
  parent : Nat
  notificationFailureCriteria : Option (List Char)
  executionFailureCriteria : Option (List Char)
  dependencyPeriod : Option Ref
  inheritsParent : Option (List Char)
  deriving DecidableEq, Repr

structure Linked where
  dependencies : List LinkedDependency
  errors : List (List Char)
  registrations : List Registration

def link (d : Directory (List Char)) (t : List Char) : Ref :=
  if t = [] then .name [] else
    match d.find t with
    | some u => .id u
    | none => .name t

def badName (d : Directory (List Char)) (prop : String) (x : ConfigItem) : List (List Char) :=
  match x.attr prop with
  | none => []
  | some t => if t ≠ [] ∧ (d.find t).isNone then [unknownGroup ("got a bad " ++ prop ++ " definition ") t] else []

def linkedItem (x : ConfigItem) : LinkedDependency where
  hostName := (x.attr "host_name").map .name
  serviceDescription := (x.attr "service_description").map .name
  dependentHostName := (x.attr "dependent_host_name").map .name
  dependentServiceDescription := (x.attr "dependent_service_description").map .name
  inheritsParent := x.attr "inherits_parent"
  executionFailureCriteria := x.attr "execution_failure_criteria"
  notificationFailureCriteria := x.attr "notification_failure_criteria"
  dependencyPeriod := (x.attr "dependency_period").map .name

def register (dependent parent : Nat) (y : LinkedDependency) : Registration :=
  ⟨dependent, parent, y.notificationFailureCriteria, y.executionFailureCriteria, y.dependencyPeriod, y.inheritsParent⟩

def linkHost (hosts timeperiods : Directory (List Char)) (x : ConfigItem) : LinkedDependency :=
  { linkedItem x with
    hostName := (x.attr "host_name").map (link hosts)
    dependentHostName := (x.attr "dependent_host_name").map (link hosts)
    dependencyPeriod := (x.attr "dependency_period").map (link timeperiods) }

def hostRegistration (y : LinkedDependency) : Option Registration :=
  match y.dependentHostName, y.hostName with
  | some (.id d), some (.id p) => some (register d p y)
  | _, _ => none

def Exploding.reported (s : Exploding) : List (List Char) :=
  s.errors ++ (s.itemErrors.filter fun e => s.collection.items.contains e.1).map Prod.snd

def linkHosts (hosts timeperiods : Directory (List Char)) (s : Exploding) : Linked :=
  let items := s.collection.items.values.map fillDefault
  { dependencies := items.map (linkHost hosts timeperiods)
    errors := s.reported ++ items.flatMap fun x =>
      badName hosts "host_name" x ++ badName hosts "dependent_host_name" x ++ badName timeperiods "dependency_period" x
    registrations := items.filterMap fun x => hostRegistration (linkHost hosts timeperiods x) }

structure Services where
  directory : Directory (List Char × List Char)
  /-- A host has a name. -/
  named : ∀ description, directory.find ([], description) = none
  /-- The host is known, and the service is excluded from it. -/
  excluded : List Char → List Char → Bool

def lookService (services : Services) (x : ConfigItem) (hostName description : String) : Except (List (List Char)) Nat :=
  match x.attr description, x.attr hostName with
  | some d, some h =>
    match services.directory.find (h, d) with
    | some u => .ok u
    | none => .error (if services.excluded h d then [] else ["Service ".toList ++ d ++ " not found for host ".toList ++ h])
  | _, _ => .error []

def linkServices (services : Services) (x : ConfigItem) : Except (List (List Char)) (Nat × Nat) := do
  let dependent ← lookService services x "dependent_host_name" "dependent_service_description"
  let parent ← lookService services x "host_name" "service_description"
  return (dependent, parent)

def linkService (timeperiods : Directory (List Char)) (x : ConfigItem) (ids : Nat × Nat) : LinkedDependency :=
  { linkedItem x with
    serviceDescription := some (.id ids.2)
    dependentServiceDescription := some (.id ids.1)
    dependencyPeriod := some (link timeperiods []) }

def linkServicedependencies (services : Services) (timeperiods : Directory (List Char)) (s : Exploding) : Linked :=
  let items := s.collection.items.values.map fillDefault
  let found := items.filterMap fun x => (linkServices services x).toOption.map fun ids => (linkService timeperiods x ids, ids)
  { dependencies := found.map Prod.fst
    errors := s.reported ++ items.flatMap fun x => match linkServices services x with
      | .error e => e
      | .ok _ => []
    registrations := found.map fun f => register f.2.1 f.2.2 f.1 }

/-! ## Both passes -/

section
variable (groups : Hostgroups) (hosts timeperiods : Directory (List Char)) (services : Services)
  (format : List Char → Int → Except Exn (List Char)) (c : ItemCollection)

def hostdependencies : Except Exn Linked := do
  let s ← explodeAll .hostdependency (explodeHost groups format) c
  return linkHosts hosts timeperiods s

def servicedependencies : Except Exn Linked := do
  let s ← explodeAll .servicedependency (explodeService groups format) c
  return linkServicedependencies services timeperiods s

end

end Dependencies

end Alignak
