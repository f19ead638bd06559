import Alignak.ItemIndex

/-!
# The dependencies that a service lists

A service names the services that it depends on as a flat list: a host and a
description, for each.
-/

namespace Alignak

def ItemClass.servicedependency : ItemClass := ⟨"service_relation", some "service_relation", false⟩

structure ServiceName where
  hostName : List Char
  serviceDescription : List Char
  deriving DecidableEq, Repr

/-- What `register_service_dependencies` reads of a service. -/
structure DependentService where
  hostName : List Char
  serviceDescription : Option (List Char)
  serviceDependencies : List (List Char)
  deriving DecidableEq, Repr

def standardDependency (dependent parent : ServiceName) (uuid : Nat) : ConfigItem where
  uuid := uuid
  register := true
  definitionOrder := none
  attrs := [("host_name", parent.hostName), ("service_description", parent.serviceDescription),
    ("dependent_host_name", dependent.hostName), ("dependent_service_description", dependent.serviceDescription),
    ("notification_failure_criteria", "u,c,w".toList), ("inherits_parent", "1".toList)]

section
variable (format : List Char → Int → Except Exn (List Char)) (service : DependentService)

def addServiceDependency (dependent parent : ServiceName) (servicedependencies : ItemCollection) : Except Exn ItemCollection :=
  addItem .servicedependency format (standardDependency dependent parent servicedependencies.nextUuid) true servicedependencies

structure Registration where
  i : Nat
  hostName : List Char
  servicedependencies : ItemCollection

def registerTurn (s : Registration) (elt : List Char) : Except Exn Registration :=
  -- %2=0 is for hosts, and the turn ends before the counter moves
  if s.i % 2 = 0 then .ok { s with hostName := elt }
  else match service.serviceDescription with
    | none => .ok { s with i := s.i + 1 }
    | some description => do
      let servicedependencies ←
        addServiceDependency format ⟨service.hostName, description⟩ ⟨s.hostName, elt⟩ s.servicedependencies
      return { s with i := s.i + 1, servicedependencies := servicedependencies }

def registerServiceDependencies (servicedependencies : ItemCollection) : Except Exn ItemCollection := do
  let s ← (service.serviceDependencies.map strip).foldlM (registerTurn format service) ⟨0, service.hostName, servicedependencies⟩
  return s.servicedependencies

end

/-! ## What is asked for -/

def flatPairs (pairs : List ServiceName) : List (List Char) := pairs.flatMap fun p => [p.hostName, p.serviceDescription]

def IsDependency (dependent parent : ServiceName) (x : ConfigItem) : Prop :=
  x.attr "host_name" = some parent.hostName ∧ x.attr "service_description" = some parent.serviceDescription ∧
    x.attr "dependent_host_name" = some dependent.hostName ∧
    x.attr "dependent_service_description" = some dependent.serviceDescription

instance decidableIsDependency (dependent parent : ServiceName) (x : ConfigItem) : Decidable (IsDependency dependent parent x) :=
  inferInstanceAs (Decidable (_ ∧ _ ∧ _ ∧ _))

/-- The items of `c'` that are not in `c`. -/
def newItems (c c' : ItemCollection) : List ConfigItem := c'.items.values.filter fun x => !c.items.values.contains x

def RegistersPairs (dependent : ServiceName) (pairs : List ServiceName) (c c' : ItemCollection) : Prop :=
  ∀ p ∈ pairs, (newItems c c').countP (fun x => decide (IsDependency dependent ⟨strip p.hostName, strip p.serviceDescription⟩ x)) = 1

section
variable {format : List Char → Int → Except Exn (List Char)} {service : DependentService} {c c' : ItemCollection}

theorem foldlM_registerTurn (elements : List (List Char)) (s : Registration) (hs : s.i = 0) :
    ∃ hostName, elements.foldlM (registerTurn format service) s = .ok { s with hostName := hostName } := by
  induction elements generalizing s with
  | nil => exact ⟨s.hostName, rfl⟩
  | cons elt elements ih =>
    have hturn : registerTurn format service s elt = .ok { s with hostName := elt } := by
      unfold registerTurn
      rw [if_pos (by rw [hs])]
    obtain ⟨hostName, hrest⟩ := ih { s with hostName := elt } hs
    refine ⟨hostName, ?_⟩
    rw [List.foldlM_cons, hturn]
    exact hrest

theorem registerServiceDependencies_same : registerServiceDependencies format service c = .ok c := by
  obtain ⟨hostName, hrun⟩ := @foldlM_registerTurn format service (service.serviceDependencies.map strip)
    ⟨0, service.hostName, c⟩ rfl
  unfold registerServiceDependencies
  rw [hrun]
  rfl

theorem newItems_same : newItems c c = [] := by
  refine List.filter_eq_nil_iff.mpr fun x hx => ?_
  rw [List.contains_iff_mem.mpr hx]
  decide

/-- The pairs of a service are registered exactly when there is none. -/
theorem registersPairs_iff {pairs : List ServiceName} {hostName description : List Char} :
    (∃ c', registerServiceDependencies format ⟨hostName, some description, flatPairs pairs⟩ c = .ok c' ∧
      RegistersPairs ⟨hostName, description⟩ pairs c c') ↔ pairs = [] := by
  constructor
  · rintro ⟨c', hok, hpairs⟩
    rw [registerServiceDependencies_same] at hok
    cases hok
    refine List.eq_nil_iff_forall_not_mem.mpr fun p hp => ?_
    have hone := hpairs p hp
    rw [newItems_same] at hone
    cases hone
  · rintro rfl
    exact ⟨c, registerServiceDependencies_same, fun p hp => absurd hp List.not_mem_nil⟩

end

def webOnDb : DependentService := ⟨"srv1".toList, some "web".toList, ["srv2".toList, "db".toList]⟩

theorem dependency_unregistered : registerServiceDependencies decimal webOnDb {} = .ok {} ∧
      ¬ RegistersPairs ⟨"srv1".toList, "web".toList⟩ [⟨"srv2".toList, "db".toList⟩] {} {} := by
  refine ⟨registerServiceDependencies_same, fun h => ?_⟩
  have hone := h _ List.mem_cons_self
  rw [newItems_same] at hone
  cases hone

end Alignak
