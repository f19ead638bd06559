import Alignak.ActDependencies
import Alignak.LoopCheck

/-!
# Cycles of dependencies

A cycle stays within the services, where the check finds it, or within the
hosts, where it may go through parents and host dependencies in turn.
-/

namespace Alignak.ActDependencies

open Relation

/-- `x` has `y` in its `act_depend_of`. -/
def Depends (links : Links) (x y : Nat) : Prop := ∃ dep ∈ links.actDependOf x, dep.item = y

section
variable {conf : Conf} {links links' : Links} {x y : Nat}

def ParentLink (conf : Conf) (x y : Nat) : Prop :=
  ∃ host ∈ conf.hosts, host.uuid = x ∧ some y ∈ host.parents ∧ ∃ parent, conf.host? y = some parent ∧ parent.activeChecksEnabled = true

def HostDependencyLink (conf : Conf) (x y : Nat) : Prop :=
  ∃ dep ∈ conf.hostdependencies, dep.dependentHostName = some x ∧ dep.hostName = some y ∧
    (conf.host? x).isSome = true ∧ (conf.host? y).isSome = true

def ServiceHostLink (conf : Conf) (x y : Nat) : Prop :=
  ∃ service ∈ conf.services, service.uuid = x ∧ service.host = some y ∧ service.hostDependencyEnabled = true ∧
    ∃ host, conf.host? y = some host ∧ host.activeChecksEnabled = true

def ServiceDependencyLink (conf : Conf) (x y : Nat) : Prop :=
  ∃ dep ∈ conf.servicedependencies, dep.dependentHostName = some x ∧ dep.hostName = some y ∧
    (conf.service? x).isSome = true ∧ (conf.service? y).isSome = true

def HostLink (conf : Conf) (x y : Nat) : Prop := ParentLink conf x y ∨ HostDependencyLink conf x y

/-! ## What linking adds -/

theorem depends_add {son parent : Nat} {status : List Scheduling.Criterion} {period : Option Nat} :
    Depends (links.add son parent status period) x y ↔ Depends links x y ∨ (x = son ∧ y = parent) := by
  unfold Depends Links.add
  by_cases hx : x = son
  · subst hx
    simp only [Function.update_self, List.mem_append, List.mem_singleton]
    constructor
    · rintro ⟨dep, hd | rfl, hy⟩
      · exact Or.inl ⟨dep, hd, hy⟩
      · exact Or.inr ⟨trivial, hy.symm⟩
    · rintro (⟨dep, hd, hy⟩ | ⟨-, hy⟩)
      · exact ⟨dep, Or.inl hd, hy⟩
      · exact ⟨_, Or.inr rfl, hy.symm⟩
  · simp [hx]

def Adds {α : Type} (f : Links → α → Except Exn Links) (r : α → Nat → Nat → Prop) : Prop :=
  ∀ links a links', f links a = .ok links' → ∀ x y, Depends links' x y ↔ Depends links x y ∨ r a x y

theorem Adds.loop {α : Type} {f : Links → α → Except Exn Links} {r : α → Nat → Nat → Prop} (h : Adds f r) (l : List α) {links links' : Links}
    (hr : l.foldlM f links = .ok links') : Depends links' x y ↔ Depends links x y ∨ ∃ a ∈ l, r a x y := by
  induction l generalizing links with
  | nil =>
    cases hr
    simp
  | cons a l ih =>
    rw [List.foldlM_cons] at hr
    cases hf : f links a with
    | error e =>
      rw [hf] at hr
      cases hr
    | ok next =>
      rw [hf] at hr
      rw [ih hr, h links a next hf x y, or_assoc, List.exists_mem_cons_iff]

theorem applyParent_adds {host : Host} : Adds (applyParent conf host) fun parentId x y =>
    x = host.uuid ∧ parentId = some y ∧ ∃ parent, conf.host? y = some parent ∧ parent.activeChecksEnabled = true := by
  intro links parentId links' h x y
  unfold applyParent at h
  cases parentId with
  | none =>
    cases h
    simp
  | some p =>
    simp only at h
    split at h
    next => cases h
    next parent hp =>
      cases h
      by_cases ha : parent.activeChecksEnabled = true
      · rw [if_pos ha, depends_add]
        refine or_congr_right ⟨?_, ?_⟩
        · rintro ⟨hx, rfl⟩
          exact ⟨hx, rfl, parent, hp, ha⟩
        · rintro ⟨hx, hy, -⟩
          exact ⟨hx, (Option.some.inj hy).symm⟩
      · rw [if_neg ha]
        refine (or_iff_left ?_).symm
        rintro ⟨-, hy, parent', hp', ha'⟩
        cases hy
        rw [hp] at hp'
        cases hp'
        exact ha ha'

theorem applyHosts_adds (h : applyHosts conf links = .ok links') :
    Depends links' x y ↔ Depends links x y ∨ ParentLink conf x y := by
  have hhost : Adds (fun links (host : Host) => host.parents.foldlM (applyParent conf host) links) fun host x y => ∃ p ∈ host.parents,
      x = host.uuid ∧ p = some y ∧ ∃ parent, conf.host? y = some parent ∧ parent.activeChecksEnabled = true :=
    fun _ host _ h _ _ => applyParent_adds.loop host.parents h
  rw [hhost.loop conf.hosts h]
  unfold ParentLink
  refine or_congr_right ⟨?_, ?_⟩
  · rintro ⟨host, hm, p, hp, rfl, rfl, hact⟩
    exact ⟨host, hm, rfl, hp, hact⟩
  · rintro ⟨host, hm, rfl, hp, hact⟩
    exact ⟨host, hm, _, hp, rfl, rfl, hact⟩

theorem applyService_adds : Adds (applyService conf) fun service x y => service.uuid = x ∧ service.host = some y ∧
    service.hostDependencyEnabled = true ∧ ∃ host, conf.host? y = some host ∧ host.activeChecksEnabled = true := by
  intro links service links' h x y
  beta_reduce
  unfold applyService at h
  cases hs : service.host with
  | none =>
    rw [hs] at h
    cases h
    simp
  | some p =>
    rw [hs] at h
    by_cases he : service.hostDependencyEnabled = true
    · simp only [he, if_true] at h
      split at h
      next => cases h
      next host hp =>
        cases h
        by_cases ha : host.activeChecksEnabled = true
        · rw [if_pos ha, depends_add]
          refine or_congr_right ⟨?_, ?_⟩
          · rintro ⟨rfl, rfl⟩
            exact ⟨rfl, rfl, he, host, hp, ha⟩
          · rintro ⟨rfl, hy, -⟩
            exact ⟨rfl, (Option.some.inj hy).symm⟩
        · rw [if_neg ha]
          refine (or_iff_left ?_).symm
          rintro ⟨-, hy, -, host', hp', ha'⟩
          cases hy
          rw [hp] at hp'
          cases hp'
          exact ha ha'
    · simp only [he] at h
      cases h
      simp [he]

theorem applyServices_adds (h : applyServices conf links = .ok links') :
    Depends links' x y ↔ Depends links x y ∨ ServiceHostLink conf x y := applyService_adds.loop conf.services h

theorem linkHost_adds {dep : ItemDependency} : Depends (linkHost conf links dep) x y ↔ Depends links x y ∨
    (dep.dependentHostName = some x ∧ dep.hostName = some y ∧ (conf.host? x).isSome = true ∧ (conf.host? y).isSome = true) := by
  unfold linkHost
  split
  next parent son hp hs =>
    rw [hp, hs]
    by_cases hk : ((conf.host? parent).isSome && (conf.host? son).isSome) = true
    · rw [if_pos hk, depends_add]
      rw [Bool.and_eq_true] at hk
      refine or_congr_right ⟨?_, ?_⟩
      · rintro ⟨rfl, rfl⟩
        exact ⟨rfl, rfl, hk.2, hk.1⟩
      · rintro ⟨hx, hy, -⟩
        exact ⟨(Option.some.inj hx).symm, (Option.some.inj hy).symm⟩
    · rw [if_neg hk]
      refine (or_iff_left ?_).symm
      rintro ⟨hx, hy, h1, h2⟩
      cases hx
      cases hy
      exact hk (by rw [h1, h2]; rfl)
  next hne =>
    refine (or_iff_left ?_).symm
    rintro ⟨hx, hy, -⟩
    exact hne _ _ hy hx

theorem linkifyHostByHostDep_adds :
    Depends (linkifyHostByHostDep conf links) x y ↔ Depends links x y ∨ HostDependencyLink conf x y := by
  have hstep : Adds (fun links dep => .ok (linkHost conf links dep)) fun dep x y => dep.dependentHostName = some x ∧
      dep.hostName = some y ∧ (conf.host? x).isSome = true ∧ (conf.host? y).isSome = true := by
    intro links dep links' h x y
    cases h
    exact linkHost_adds
  exact hstep.loop conf.hostdependencies (foldlM_eq_foldl conf.hostdependencies links fun _ _ _ => rfl)

theorem linkService_adds : Adds (linkService conf) fun dep x y => dep.dependentHostName = some x ∧ dep.hostName = some y ∧
    (conf.service? x).isSome = true ∧ (conf.service? y).isSome = true := by
  intro links dep links' h x y
  beta_reduce
  unfold linkService at h
  split at h
  next parent son hp hs =>
    rw [hp, hs]
    split at h
    next hk =>
      cases h
      rw [depends_add]
      rw [Bool.and_eq_true] at hk
      refine or_congr_right ⟨?_, ?_⟩
      · rintro ⟨rfl, rfl⟩
        exact ⟨rfl, rfl, hk.2, hk.1⟩
      · rintro ⟨hx, hy, -⟩
        exact ⟨(Option.some.inj hx).symm, (Option.some.inj hy).symm⟩
    next => cases h
  next hne =>
    cases h
    refine (or_iff_left ?_).symm
    rintro ⟨hx, hy, -⟩
    exact hne _ _ hy hx

theorem linkifyServiceBySvcDep_adds (h : linkifyServiceBySvcDep conf links = .ok links') :
    Depends links' x y ↔ Depends links x y ∨ ServiceDependencyLink conf x y := linkService_adds.loop conf.servicedependencies h

theorem depends_iff (h : actDependencies conf = .ok links) : Depends links x y ↔
    HostLink conf x y ∨ ServiceHostLink conf x y ∨ ServiceDependencyLink conf x y := by
  unfold actDependencies at h
  cases h1 : linkifyServiceBySvcDep conf Links.empty with
  | error e =>
    rw [h1] at h
    cases h
  | ok links₁ =>
    rw [h1] at h
    cases h2 : applyHosts conf (linkifyHostByHostDep conf links₁) with
    | error e =>
      change (applyHosts conf (linkifyHostByHostDep conf links₁) >>= _) = _ at h
      rw [h2] at h
      cases h
    | ok links₂ =>
      change (applyHosts conf (linkifyHostByHostDep conf links₁) >>= _) = _ at h
      rw [h2] at h
      have hempty : ¬ Depends Links.empty x y := fun ⟨_, hd, _⟩ => nomatch hd
      rw [applyServices_adds h, applyHosts_adds h2, linkifyHostByHostDep_adds, linkifyServiceBySvcDep_adds h1]
      unfold HostLink
      tauto

/-! ## The relations that are checked -/

section
variable {ι : Type} {obj1 : ι → Option Nat} {obj2 : ι → List (Option Nat)} {g : Graph (Option Nat)} {a b : Option Nat}

theorem mem_sons_edges {l : List (Option Nat)} {from' : Option Nat} :
    b ∈ (l.foldl (fun g obj => g.addEdge from' obj) g).sons a ↔ b ∈ g.sons a ∨ (a = from' ∧ b ∈ l) := by
  induction l generalizing g with
  | nil => simp
  | cons obj l ih =>
    rw [List.foldl_cons, ih, Graph.mem_sons_addEdge, List.mem_cons, or_assoc, ← and_or_left]

theorem mem_sons_addEdges {items : List ι} :
    b ∈ (addEdges obj1 obj2 items g).sons a ↔ b ∈ g.sons a ∨ ∃ item ∈ items, a = obj1 item ∧ b ∈ obj2 item := by
  unfold addEdges
  induction items generalizing g with
  | nil => simp
  | cons item items ih => rw [List.foldl_cons, ih, mem_sons_edges, or_assoc, List.exists_mem_cons_iff]

theorem acyclic_of_noLoop {items : List ι} (h : noLoopInParents obj1 obj2 items = .ok []) :
    Acyclic fun a b => ∃ item ∈ items, a = obj1 item ∧ b ∈ obj2 item := by
  obtain ⟨inLoop, hrun, hacyclic⟩ := Graph.loopCheck_acyclic (addEdges obj1 obj2 items (addNodes obj1 items Graph.empty))
  have hnil : inLoop = [] := by
    have hsame := hrun.symm.trans h
    cases hsame
    rfl
  intro a ha
  refine hacyclic hnil a (TransGen.mono (fun _ _ hab => ?_) a a ha)
  exact mem_sons_addEdges.mpr (Or.inr hab)

end

theorem serviceDependencies_acyclic (h : loopInDependencies conf.servicedependencies = .ok []) :
    Acyclic (ServiceDependencyLink conf) := by
  intro x hx
  refine acyclic_of_noLoop h (some x) (TransGen.lift some (fun a b hab => ?_) x x (transGen_swap.mpr hx))
  obtain ⟨dep, hd, hson, hparent, -⟩ := hab
  exact ⟨dep, hd, hparent.symm, by simp [hson]⟩

/-! ## Hosts and services -/

theorem not_service_and_host (h : (conf.host? x).isSome = true) : ∀ service ∈ conf.services, service.uuid ≠ x := by
  intro service hs e
  obtain ⟨host, hh, he⟩ := List.find?_isSome.mp h
  have hdisjoint := (List.nodup_append.mp conf.nodup).2.2
  refine hdisjoint host.uuid (List.mem_map_of_mem hh) service.uuid (List.mem_map_of_mem hs) ?_
  rw [e]
  exact beq_iff_eq.mp he

theorem HostLink.hosts (h : HostLink conf x y) : (conf.host? x).isSome = true ∧ (conf.host? y).isSome = true := by
  rcases h with ⟨host, hm, rfl, -, parent, hp, -⟩ | ⟨dep, -, -, -, hx, hy⟩
  · exact ⟨(List.find?_isSome.mpr ⟨host, hm, by simp⟩), by rw [hp]; rfl⟩
  · exact ⟨hx, hy⟩

theorem service_not_host {service : Service} (h : service ∈ conf.services) (e : service.uuid = x) : ¬ (conf.host? x).isSome = true :=
  fun hx => not_service_and_host hx service h e

theorem ServiceHostLink.kinds (h : ServiceHostLink conf x y) :
    ¬ (conf.host? x).isSome = true ∧ (conf.host? y).isSome = true := by
  obtain ⟨service, hm, hx, -, -, host, hh, -⟩ := h
  exact ⟨service_not_host hm hx, by rw [hh]; rfl⟩

theorem ServiceDependencyLink.services (h : ServiceDependencyLink conf x y) :
    ¬ (conf.host? x).isSome = true ∧ ¬ (conf.host? y).isSome = true := by
  obtain ⟨dep, -, -, -, hx, hy⟩ := h
  obtain ⟨service, hs, he⟩ := List.find?_isSome.mp hx
  obtain ⟨service', hs', he'⟩ := List.find?_isSome.mp hy
  exact ⟨service_not_host hs (beq_iff_eq.mp he), service_not_host hs' (beq_iff_eq.mp he')⟩

theorem hostLinks_of_host (hb : actDependencies conf = .ok links) (hx : (conf.host? x).isSome = true)
    (h : TransGen (Depends links) x y) : TransGen (HostLink conf) x y := by
  have hstep : ∀ {a b}, (conf.host? a).isSome = true → Depends links a b → HostLink conf a b := by
    intro a b ha hab
    rcases (depends_iff hb).mp hab with hl | hl | hl
    · exact hl
    · exact absurd ha hl.kinds.1
    · exact absurd ha hl.services.1
  suffices hboth : TransGen (HostLink conf) x y ∧ (conf.host? y).isSome = true from hboth.1
  induction h with
  | single hab =>
    have hl := hstep hx hab
    exact ⟨.single hl, hl.hosts.2⟩
  | tail _ hbc ih =>
    have hl := hstep ih.2 hbc
    exact ⟨ih.1.tail hl, hl.hosts.2⟩

theorem serviceLinks_of_service (hb : actDependencies conf = .ok links) (h : TransGen (Depends links) x y)
    (hy : ¬ (conf.host? y).isSome = true) : TransGen (ServiceDependencyLink conf) x y := by
  have hstep : ∀ {a b}, ¬ (conf.host? b).isSome = true → Depends links a b → ServiceDependencyLink conf a b := by
    intro a b hn hab
    rcases (depends_iff hb).mp hab with hl | hl | hl
    · exact absurd hl.hosts.2 hn
    · exact absurd hl.kinds.2 hn
    · exact hl
  induction h with
  | single hab => exact .single (hstep hy hab)
  | tail _ hbc ih =>
    have hl := hstep hy hbc
    exact (ih hl.services.1).tail hl

/-- In a configuration that passes the checks, the dependencies have a cycle exactly when the links between the
hosts have one, the parents and the host dependencies taken together. -/
theorem actDependencies_acyclic_iff (hb : actDependencies conf = .ok links) (hc : isCorrect conf) :
    Acyclic (Depends links) ↔ Acyclic (HostLink conf) := by
  constructor
  · intro h x hx
    exact h x (TransGen.mono (fun _ _ hl => (depends_iff hb).mpr (Or.inl hl)) x x hx)
  · intro h x hx
    by_cases hhost : (conf.host? x).isSome = true
    · exact h x (hostLinks_of_host hb hhost hx)
    · exact serviceDependencies_acyclic hc.2.2 x (serviceLinks_of_service hb hx hhost)

end

def twoServices : Conf where
  hosts := [⟨0, [some 1], true⟩, ⟨1, [], true⟩]
  services := [⟨2, some 0, true⟩, ⟨3, some 0, true⟩]
  hostdependencies := []
  servicedependencies := [⟨some 2, some 3, [], none⟩]
  nodup := by decide

theorem twoServices_acyclic : ∃ links, actDependencies twoServices = .ok links ∧ Acyclic (Depends links) := by
  have hb : actDependencies twoServices = .ok _ := rfl
  have hc : isCorrect twoServices := by decide
  refine ⟨_, hb, (actDependencies_acyclic_iff hb hc).mpr ?_⟩
  refine acyclic_of_rank (fun x => if x = 0 then 1 else 0) fun x y h => ?_
  rcases h with ⟨host, hm, rfl, hy, -⟩ | ⟨dep, hd, -⟩
  · unfold twoServices at hm
    rcases List.mem_cons.mp hm with rfl | hm
    · rw [Option.some.inj (List.mem_singleton.mp hy)]
      decide
    · rw [List.mem_singleton.mp hm] at hy
      cases hy
  · cases hd

def parentAndDependency : Conf where
  hosts := [⟨0, [some 1], true⟩, ⟨1, [], true⟩]
  services := []
  hostdependencies := [⟨some 0, some 1, [], none⟩]
  servicedependencies := []
  nodup := by decide

theorem parentAndDependency_cycle : isCorrect parentAndDependency ∧
    ∃ links, actDependencies parentAndDependency = .ok links ∧ Depends links 0 1 ∧ Depends links 1 0 := by
  refine ⟨by decide, _, rfl, ⟨⟨1, failureStates, none⟩, ?_, rfl⟩, ⟨⟨0, [], none⟩, ?_, rfl⟩⟩
  · decide
  · decide

end Alignak.ActDependencies
