import Alignak.DependencyPairs
import Alignak.Loops

/-!
# How definitions of dependencies are expanded

The two ways to expand a definition of service dependencies, and the one for
host dependencies, are expansions whose copies are the pairs of the definition.
-/

namespace Alignak

/-! ## Attributes -/

section
variable {x : ConfigItem} {name : String}

theorem lookup_filter_key {κ ν : Type} [DecidableEq κ] (q : κ → Bool) (l : List (κ × ν)) (k : κ) :
    (l.filter fun a => q a.1).lookup k = if q k then l.lookup k else none := by
  induction l with
  | nil => simp
  | cons a l ih =>
    rw [List.filter_cons, List.lookup_cons]
    by_cases hk : k = a.1
    · subst hk
      by_cases hq : q a.1 = true
      · rw [if_pos hq, if_pos hq, List.lookup_cons, beq_self_eq_true]
      · rw [if_neg hq, ih, if_neg hq, if_neg hq]
    · rw [beq_false_of_ne hk]
      by_cases hq : q a.1 = true
      · rw [if_pos hq, List.lookup_cons, beq_false_of_ne hk, ih]
      · rw [if_neg hq, ih]

theorem ConfigItem.attr_setAttr (x : ConfigItem) (name : String) (value : List Char) (n : String) :
    (x.setAttr name value).attr n = if n = name then some value else x.attr n := by
  unfold ConfigItem.attr ConfigItem.setAttr
  rw [List.lookup_cons]
  by_cases hn : n = name
  · simp [hn]
  · rw [if_neg hn, beq_false_of_ne hn]
    have hfilter := lookup_filter_key (fun a : String => decide (a ≠ name)) x.attrs n
    simpa [hn] using hfilter

theorem ConfigItem.attrOr_eq (x : ConfigItem) (name default : String) : x.attrOr name default = (x.attr name).getD default.toList := rfl

end

namespace Dependencies

section
variable {x : ConfigItem} {name : String}

theorem attr_copyItem (properties : List String) (x : ConfigItem) (name : String) :
    (copyItem properties x).attr name = if properties.contains name then x.attr name else none :=
  lookup_filter_key (fun a => properties.contains a) x.attrs name

theorem attr_fillDefaults (defaults : List (String × String)) (x : ConfigItem) (name : String) :
    (defaults.foldl (fun x d => if (x.attr d.1).isSome then x else x.setAttr d.1 d.2.toList) x).attr name =
      (x.attr name).or ((defaults.lookup name).map String.toList) := by
  induction defaults generalizing x with
  | nil => simp
  | cons d defaults ih =>
    rw [List.foldl_cons, ih, List.lookup_cons]
    by_cases hn : name = d.1
    · subst hn
      cases hx : x.attr d.1 with
      | none => simp [ConfigItem.attr_setAttr]
      | some v => simp [hx]
    · rw [beq_false_of_ne hn]
      split
      · rfl
      · rw [ConfigItem.attr_setAttr, if_neg hn]

theorem attr_fillDefault (x : ConfigItem) (name : String) : (fillDefault x).attr name =
    (x.attr name).or (([("dependent_hostgroup_name", ""), ("hostgroup_name", ""), ("inherits_parent", "0"),
      ("execution_failure_criteria", "n"), ("notification_failure_criteria", "n"), ("dependency_period", "")].lookup name).map
        String.toList) := attr_fillDefaults _ x name

end

/-! ## Loops over copies -/

section
variable {e : Expansion} {s : Exploding} {c : ItemCollection}

theorem addCopies_append (rs rs' : List ConfigItem) (c : ItemCollection) :
    e.addCopies (rs ++ rs') c = e.addCopies rs c >>= e.addCopies rs' := List.foldlM_append

theorem foldlM_add {rs : List ConfigItem} (h : e.addCopies rs s.collection = .ok c) :
    rs.foldlM (fun s r => s.add e.cls e.format r) s = .ok { s with collection := c } := by
  induction rs generalizing s with
  | nil =>
    cases h
    rfl
  | cons r rs ih =>
    unfold Expansion.addCopies at h
    rw [List.foldlM_cons] at h ⊢
    cases hadd : addItem e.cls e.format { r with uuid := s.collection.nextUuid } true s.collection with
    | error err =>
      rw [hadd] at h
      cases h
    | ok c₁ =>
      rw [hadd] at h
      have hs : s.add e.cls e.format r = .ok { s with collection := c₁ } := by
        unfold Exploding.add
        rw [hadd]
        rfl
      rw [hs]
      exact @ih { s with collection := c₁ } h

theorem foldlM_turns {α β : Type} (id : Nat) (g : List β) (k : α → β → ConfigItem) {l : List α}
    (h : e.addCopies (l.flatMap fun a => g.map (k a)) s.collection = .ok c) :
    l.foldlM (fun (s : Exploding) a => (do
      let s ← g.foldlM (fun s b => s.add e.cls e.format (k a b)) s
      return s.remove id : Except Exn Exploding)) s = .ok { s with collection := c, toBeRemoved := s.toBeRemoved ++ l.map fun _ => id } := by
  induction l generalizing s with
  | nil =>
    cases h
    simp [pure, Except.pure]
  | cons a l ih =>
    rw [List.flatMap_cons, addCopies_append] at h
    cases hadd : e.addCopies (g.map (k a)) s.collection with
    | error err =>
      rw [hadd] at h
      cases h
    | ok c₁ =>
      rw [hadd] at h
      have hone := foldlM_add hadd
      rw [List.foldlM_map] at hone
      rw [List.foldlM_cons, hone]
      have hrest := @ih (Exploding.remove { s with collection := c₁ } id) h
      refine hrest.trans ?_
      simp [Exploding.remove]

end

/-! ## Copies for pairs -/

structure PairCopies {π : Type} (e : Expansion) (pairs : ConfigItem → List π) (relation : π → List Char) (order : ConfigItem → Int)
    (named : ConfigItem → List Char) (copy : ConfigItem → π → ConfigItem) : Prop where
  name : ∀ x, x.isATemplate = false → getName e.cls true x = .text (named x)
  removed : ∀ x, removedKey e.cls x = some (.text (named x))
  ne : ∀ x, named x ≠ []
  mem : ∀ x r, r ∈ e.copies x ↔ ∃ p ∈ pairs x, r = copy x p
  item : ∀ x p, (copy x p).isATemplate = x.isATemplate
  order : ∀ x p, (copy x p).order = order x
  relation : ∀ x p, named (copy x p) = relation p
  prepares : ∀ x, e.Prepares x
  gone : ∀ x, ∀ u ∈ e.gone x, u = x.uuid

section
variable {π : Type} {e : Expansion} {pairs : ConfigItem → List π} {relation : π → List Char} {order : ConfigItem → Int}
  {named : ConfigItem → List Char} {copy : ConfigItem → π → ConfigItem} {timeperiods : Directory (List Char)} {c : ItemCollection}
  {x : ConfigItem}

theorem PairCopies.getName (hc : PairCopies e pairs relation order named copy) (hx : x.isATemplate = false) (p : π) :
    getName e.cls true (copy x p) = .text (relation p) := by
  rw [hc.name _ ((hc.item x p).trans hx), hc.relation]

theorem PairCopies.apart (hc : PairCopies e pairs relation order named copy) (hd : Definitions c)
    (h : Separate c pairs relation e.format timeperiods order fun x => named (e.prepared x))
    (ht : ∀ x ∈ c.items.values, e.Turns x) : e.Apart c := by
  refine ⟨fun x _ => hc.prepares x, ht, fun x _ => hc.gone x, fun x hx r hr => ?_, fun done x rest hsplit r hr y hy => ?_,
    fun x hx r hr y hy => ?_⟩
  · obtain ⟨p, hp, rfl⟩ := (hc.mem x r).mp hr
    have hitem := (hc.item x p).trans (hd.items x hx)
    refine ⟨hitem, ?_, ?_, ?_⟩
    · rw [hc.name _ hitem]
      simp [IndexName.isEmpty, hc.ne]
    · rw [hc.name _ hitem]
      exact hc.removed _
    · rw [hc.getName (hd.items x hx)]
      exact h.plain x hx p hp
  · obtain ⟨p, hp, rfl⟩ := (hc.mem x r).mp hr
    have hx : x ∈ c.items.values := by
      rw [hsplit]
      exact List.mem_append_right _ List.mem_cons_self
    rw [hc.getName (hd.items x hx)] at hy ⊢
    obtain ⟨hrenamed, hlater, -⟩ := h.taken done x rest hsplit p hp y hy
    refine ⟨?_, fun hyr => (hlater hyr).trans_eq (hc.order x p).symm⟩
    rw [← hrenamed]
    exact hc.removed _
  · obtain ⟨p, hp, rfl⟩ := (hc.mem x r).mp hr
    rw [hc.getName (hd.items x hx)] at hy ⊢
    obtain ⟨done, rest, hsplit⟩ := List.append_of_mem hx
    obtain ⟨-, -, x', hx', hp', ho⟩ := h.taken done x rest hsplit p hp y hy
    exact ⟨x', hx', copy x' p, (hc.mem x' _).mpr ⟨p, hp', rfl⟩, hc.getName (hd.items x' hx') p, (hc.order x' p).trans_le ho⟩

end

/-! ## Hosts -/

variable {names : List (List Char)} {h : List Char}

section
variable (groups : Hostgroups) (format : List Char → Int → Except Exn (List Char)) {x r : ConfigItem} {c : ItemCollection}

def hostExpansion : Expansion where
  cls := .hostdependency
  format := format
  prepared := id
  prepare _ c := c
  copies x := (sonHosts groups x).flatMap fun son => (fatherHosts groups x).map fun father => hostCopy x (strip son) father
  errors _ := []
  itemErrors x := (hostErrors groups x).map fun message => (x.uuid, message)
  gone x := (sonHosts groups x).map fun _ => x.uuid
  turn := explodeHost groups format

theorem host_turns (x : ConfigItem) : (hostExpansion groups format).Turns x := by
  intro s c h
  have hloop := @foldlM_turns (hostExpansion groups format)
    { s with itemErrors := s.itemErrors ++ (hostErrors groups x).map fun message => (x.uuid, message) } c _ _ x.uuid
    (fatherHosts groups x) (fun son father => hostCopy x (strip son) father) (sonHosts groups x) h
  refine Eq.trans ?_ (hloop.trans ?_)
  · rfl
  · simp [hostExpansion]

theorem host_prepares (x : ConfigItem) : (hostExpansion groups format).Prepares x where
  uuid := rfl
  order := rfl
  slots _ _ h _ := h
  next _ := rfl
  names c n _ hx m := by
    by_cases hm : m = n
    · rw [if_pos hm, hm]
      exact hx
    · rw [if_neg hm]
      rfl

variable {groups format}

theorem strip_members (hh : h ∈ members groups names) : strip h = h := by
  obtain ⟨g, -, hg⟩ := List.mem_flatMap.mp hh
  obtain ⟨m, -, rfl⟩ := List.mem_map.mp hg
  exact strip_strip m

theorem strip_splitNames {t : List Char} (hh : h ∈ splitNames t) : strip h = h := by
  obtain ⟨m, -, rfl⟩ := List.mem_map.mp hh
  exact strip_strip m

theorem strip_listed {prop : String} (hh : h ∈ listed x prop) : strip h = h := by
  unfold listed at hh
  split at hh
  · cases hh
  · exact strip_splitNames hh

theorem mem_hostCopies : r ∈ (hostExpansion groups format).copies x ↔ ∃ p ∈ hostPairs groups x, r = hostCopy x p.2 p.1 := by
  have hstrip : ∀ son ∈ sonHosts groups x, strip son = son := by
    intro son hson
    rcases List.mem_append.mp hson with h | h
    · exact strip_members h
    · exact strip_listed h
  unfold hostExpansion hostPairs
  simp only [List.mem_flatMap, List.mem_map]
  constructor
  · rintro ⟨son, hson, father, hfather, rfl⟩
    exact ⟨(father, son), ⟨son, hson, father, hfather, rfl⟩, by rw [hstrip son hson]⟩
  · rintro ⟨p, ⟨son, hson, father, hfather, rfl⟩, rfl⟩
    exact ⟨son, hson, father, hfather, by rw [hstrip son hson]⟩

theorem getName_hostdependency (hx : x.isATemplate = false) : getName .hostdependency true x = .text x.hostRelation := by
  simp [getName, ItemClass.hostdependency, hx, ConfigItem.property]

theorem hostRelation_ne_nil (x : ConfigItem) : x.hostRelation ≠ [] := by
  unfold ConfigItem.hostRelation
  simp

theorem removedKey_hostdependency (x : ConfigItem) : removedKey .hostdependency x = some (.text x.hostRelation) := by
  have hempty : (IndexName.text x.hostRelation).isEmpty = false := by
    simp [IndexName.isEmpty, hostRelation_ne_nil]
  have hproperty : x.property ItemClass.hostdependency.myNameProperty = some (.text x.hostRelation) := rfl
  unfold removedKey
  rw [hproperty]
  simp [hempty]

theorem attr_hostCopy (x : ConfigItem) (d p : List Char) (name : String) : (hostCopy x d p).attr name =
    if name = "host_name" then some p else if name = "dependent_host_name" then some d
    else if dependencyProperties.contains name then x.attr name else none := by
  have hattr : (hostCopy x d p).attr name =
    (((copyItem dependencyProperties x).setAttr "dependent_host_name" d).setAttr "host_name" p).attr name := rfl
  rw [hattr, ConfigItem.attr_setAttr, ConfigItem.attr_setAttr, attr_copyItem]

theorem hostCopy_relation (x : ConfigItem) (d p : List Char) : (hostCopy x d p).hostRelation = hostRelationOf (p, d) := by
  simp [ConfigItem.hostRelation, ConfigItem.attrOr, attr_hostCopy, hostRelationOf]

theorem host_copies : PairCopies (hostExpansion groups format) (hostPairs groups) hostRelationOf (fun _ => 1) ConfigItem.hostRelation
    fun x p => hostCopy x p.2 p.1 where
  name _ := getName_hostdependency
  removed := removedKey_hostdependency
  ne := hostRelation_ne_nil
  mem _ _ := mem_hostCopies
  item _ _ := rfl
  order _ _ := rfl
  relation x p := hostCopy_relation x p.2 p.1
  prepares := host_prepares groups format
  gone x u hu := by
    obtain ⟨-, -, e⟩ := List.mem_map.mp hu
    exact e.symm

end

/-! ## Services -/

section
variable (groups : Hostgroups) (format : List Char → Int → Except Exn (List Char)) {x r : ConfigItem} {c : ItemCollection}

def hostgroupCopies (x : ConfigItem) (hosts depSnames snames : List (List Char)) : List ConfigItem :=
  hosts.flatMap fun h => depSnames.flatMap fun d => snames.map fun n => serviceCopy x ⟨h, d⟩ ⟨h, n⟩

def serviceExpansion : Expansion where
  cls := .servicedependency
  format := format
  prepared := preparedService
  prepare x c := if perHost x then c else modifyItem x (withDependentHosts x) c
  copies x :=
    if perHost x then
      hostgroupCopies x (members groups (namesOf x "hostgroup_name")) (namesOf x "dependent_service_description") (namesOf x "service_description")
    else (dependentServices groups x).flatMap fun d => (parentServices groups x).map fun p => serviceCopy (withDependentHosts x) d p
  errors x := if perHost x then groupErrors groups x else []
  itemErrors _ := []
  gone x := if perHost x then [x.uuid] else (dependentServices groups x).map fun _ => x.uuid
  turn := explodeService groups format

theorem foldlM_groups (x : ConfigItem) (depSnames snames : List (List Char)) {s : Exploding}
    (h : (serviceExpansion groups format).addCopies (hostgroupCopies x (members groups names) depSnames snames) s.collection = .ok c) :
    names.foldlM (explodeGroup groups format x snames depSnames) s = .ok { s with
      collection := c
      errors := s.errors ++ (unknownGroups groups names).map
        (unknownGroup "ERROR: the servicedependecy got an unknown hostgroup_name ") } := by
  induction names generalizing s with
  | nil =>
    cases h
    simp [unknownGroups, pure, Except.pure]
  | cons g names ih =>
    cases hg : groups g with
    | none =>
      have hmembers : members groups (g :: names) = members groups names := by
        simp [members, hg]
      have hone : explodeGroup groups format x snames depSnames s g = .ok { s with
          errors := s.errors ++ [unknownGroup "ERROR: the servicedependecy got an unknown hostgroup_name " g] } := by
        simp [explodeGroup, hg]
      rw [hmembers] at h
      rw [List.foldlM_cons, hone]
      refine (@ih { s with
        errors := s.errors ++ [unknownGroup "ERROR: the servicedependecy got an unknown hostgroup_name " g] } h).trans ?_
      simp [unknownGroups, hg]
    | some hosts =>
      have hmembers : members groups (g :: names) = hosts.map strip ++ members groups names := by
        simp [members, hg]
      unfold hostgroupCopies at h
      rw [hmembers, List.flatMap_append, addCopies_append] at h
      cases hadd : (serviceExpansion groups format).addCopies
          ((hosts.map strip).flatMap fun h => depSnames.flatMap fun d => snames.map fun n => serviceCopy x ⟨h, d⟩ ⟨h, n⟩) s.collection with
      | error err =>
        rw [hadd] at h
        cases h
      | ok c₁ =>
        rw [hadd] at h
        have hone : explodeGroup groups format x snames depSnames s g = .ok { s with collection := c₁ } := by
          have hloop := foldlM_add hadd
          rw [← foldlM_nested] at hloop
          simp only [← foldlM_nested, List.foldlM_map] at hloop
          unfold explodeGroup
          rw [hg]
          simp only [List.foldlM_map]
          exact hloop
        rw [List.foldlM_cons, hone]
        refine (@ih { s with collection := c₁ } h).trans ?_
        simp [unknownGroups, hg]

theorem attr_withDependentHosts (x : ConfigItem) {name : String} (h : name ≠ "dependent_host_name") :
    (withDependentHosts x).attr name = x.attr name := by
  unfold withDependentHosts
  split
  · rw [ConfigItem.attr_setAttr, if_neg h]
  · rfl

theorem splitAttr_ok {prop : String} (h : (x.attr prop).isSome = true) : splitAttr x prop = .ok (namesOf x prop) := by
  obtain ⟨t, ht⟩ := Option.isSome_iff_exists.mp h
  simp [splitAttr, namesOf, ConfigItem.attrOr, ht]

theorem membersOf_ok (h : unknownGroups groups names = []) :
    membersOf groups names = .ok (members groups names) := if_pos h

theorem dependentServices_strip (x : ConfigItem) : (members groups (listed x "dependent_hostgroup_name") ++
    listed (withDependentHosts x) "dependent_host_name").flatMap (fun h => (namesOf x "dependent_service_description").map fun d =>
      ServiceName.mk (strip h) (strip d)) = dependentServices groups x := by
  unfold dependentServices
  refine List.flatMap_congr fun h hh => List.map_congr_left fun d hd => ?_
  have hhost : strip h = h := by
    rcases List.mem_append.mp hh with hh | hh
    · exact strip_members hh
    · exact strip_listed hh
  rw [hhost, strip_splitNames hd]

theorem explodeServices_eq (hdep : (x.attr "dependent_service_description").isSome = true)
    (hfathers : unknownGroups groups (listed x "hostgroup_name") = [])
    (hsons : unknownGroups groups (listed x "dependent_hostgroup_name") = []) (s : Exploding) :
    explodeServices groups format s x = (dependentServices groups x).foldlM (fun (s : Exploding) d => (do
      let s ← (parentServices groups x).foldlM (fun s p => s.add .servicedependency format (serviceCopy (withDependentHosts x) d p)) s
      return s.remove x.uuid : Except Exn Exploding)) { s with collection := modifyItem x (withDependentHosts x) s.collection } := by
  have hattr := @attr_withDependentHosts x "dependent_service_description" (by decide)
  have hsplit : splitAttr (withDependentHosts x) "dependent_service_description" = .ok (namesOf x "dependent_service_description") := by
    rw [splitAttr_ok (by rw [hattr]; exact hdep)]
    simp only [namesOf, ConfigItem.attrOr, hattr]
  unfold explodeServices
  rw [membersOf_ok groups hfathers, membersOf_ok groups hsons]
  simp only [bind, Except.bind, hsplit, dependentServices_strip]
  rfl

theorem service_turns (hdep : (x.attr "dependent_service_description").isSome = true)
    (hper : perHost x → (x.attr "service_description").isSome = true)
    (hknown : perHost x ∨ serviceErrors groups x = []) : (serviceExpansion groups format).Turns x := by
  intro s c h
  by_cases hp : perHost x
  · simp only [serviceExpansion, hp, if_true] at h ⊢
    have hloop := foldlM_groups groups format x _ _ h
    unfold explodeService explodeHostgroup
    rw [if_pos hp, splitAttr_ok (hper hp), splitAttr_ok hdep, splitAttr_ok hp.1]
    refine Eq.trans (congrArg (fun t : Except Exn Exploding => t >>= fun s => Except.ok (s.remove x.uuid)) hloop) ?_
    simp [Exploding.remove, groupErrors, bind, Except.bind]
  · simp only [serviceExpansion, hp, if_false] at h ⊢
    have herrors := hknown.resolve_left hp
    unfold serviceErrors at herrors
    rw [if_neg hp, List.append_eq_nil_iff, List.map_eq_nil_iff, List.map_eq_nil_iff] at herrors
    unfold explodeService
    rw [if_neg hp, explodeServices_eq groups format hdep herrors.1 herrors.2]
    have hloop := @foldlM_turns (serviceExpansion groups format) { s with collection := modifyItem x (withDependentHosts x) s.collection }
      c _ _ x.uuid (parentServices groups x) (fun d p => serviceCopy (withDependentHosts x) d p) (dependentServices groups x) h
    refine Eq.trans hloop ?_
    simp

theorem service_prepares (x : ConfigItem) : (serviceExpansion groups format).Prepares x := by
  have hself : (withDependentHosts x).uuid = x.uuid ∧ (withDependentHosts x).order = x.order := by
    unfold withDependentHosts
    split <;> exact ⟨rfl, rfl⟩
  have hprepared : (serviceExpansion groups format).prepared x = if perHost x then x else withDependentHosts x := rfl
  have hprepare : ∀ c, (serviceExpansion groups format).prepare x c = if perHost x then c else modifyItem x (withDependentHosts x) c :=
    fun c => rfl
  by_cases hp : perHost x
  · simp only [hp, if_true] at hprepared hprepare
    refine ⟨by rw [hprepared], by rw [hprepared], fun c n h _ => by rw [hprepare]; exact h, fun c => by rw [hprepare],
      fun c n _ hx m => ?_⟩
    rw [hprepared, hprepare]
    by_cases hm : m = n
    · rw [if_pos hm, hm]
      exact hx
    · rw [if_neg hm]
  · simp only [hp, if_false] at hprepared hprepare
    refine ⟨by rw [hprepared]; exact hself.1, by rw [hprepared]; exact hself.2, fun c n h hx => ?_, fun c => by rw [hprepare]; rfl,
      fun c n h hx m => ?_⟩
    · rw [hprepare]
      exact modifyItem_slots h hx hself.1
    · rw [hprepared, hprepare]
      exact modifyItem_names h hx m

variable {groups format}

theorem mem_serviceCopies : r ∈ (serviceExpansion groups format).copies x ↔
    ∃ p ∈ servicePairs groups x, r = serviceCopy (preparedService x) p.2 p.1 := by
  unfold serviceExpansion servicePairs preparedService hostgroupCopies
  by_cases hp : perHost x
  · simp only [hp, if_true, List.mem_flatMap, List.mem_map]
    constructor
    · rintro ⟨h, hh, d, hd, n, hn, rfl⟩
      exact ⟨_, ⟨h, hh, d, hd, n, hn, rfl⟩, rfl⟩
    · rintro ⟨p, ⟨h, hh, d, hd, n, hn, rfl⟩, rfl⟩
      exact ⟨h, hh, d, hd, n, hn, rfl⟩
  · simp only [hp, if_false, List.mem_flatMap, List.mem_map]
    constructor
    · rintro ⟨d, hd, p, hp, rfl⟩
      exact ⟨_, ⟨d, hd, p, hp, rfl⟩, rfl⟩
    · rintro ⟨_, ⟨d, hd, p, hp, rfl⟩, rfl⟩
      exact ⟨d, hd, p, hp, rfl⟩

theorem getName_servicedependency (hx : x.isATemplate = false) : getName .servicedependency true x = .text x.serviceRelation := by
  simp [getName, ItemClass.servicedependency, hx, ConfigItem.property]

theorem serviceRelation_ne_nil (x : ConfigItem) : x.serviceRelation ≠ [] := by
  unfold ConfigItem.serviceRelation
  simp

theorem removedKey_servicedependency (x : ConfigItem) : removedKey .servicedependency x = some (.text x.serviceRelation) := by
  have hempty : (IndexName.text x.serviceRelation).isEmpty = false := by
    simp [IndexName.isEmpty, serviceRelation_ne_nil]
  have hproperty : x.property ItemClass.servicedependency.myNameProperty = some (.text x.serviceRelation) := rfl
  unfold removedKey
  rw [hproperty]
  simp [hempty]

theorem attr_serviceCopy (x : ConfigItem) (d p : ServiceName) (name : String) : (serviceCopy x d p).attr name =
    if name = "dependent_service_description" then some d.serviceDescription
    else if name = "dependent_host_name" then some d.hostName
    else if name = "service_description" then some p.serviceDescription
    else if name = "host_name" then some p.hostName
    else if servicedependencyProperties.contains name then x.attr name else none := by
  unfold serviceCopy
  rw [ConfigItem.attr_setAttr, ConfigItem.attr_setAttr, ConfigItem.attr_setAttr, ConfigItem.attr_setAttr, attr_copyItem]

theorem serviceCopy_relation (x : ConfigItem) (d p : ServiceName) : (serviceCopy x d p).serviceRelation = serviceRelationOf (p, d) := by
  simp [ConfigItem.serviceRelation, ConfigItem.attrOr, attr_serviceCopy, serviceRelationOf]

theorem preparedService_same (x : ConfigItem) :
    (preparedService x).isATemplate = x.isATemplate ∧ (preparedService x).order = x.order := by
  unfold preparedService withDependentHosts
  split
  · exact ⟨rfl, rfl⟩
  · split <;> exact ⟨rfl, rfl⟩

theorem serviceCopy_same (x : ConfigItem) (d p : ServiceName) :
    (serviceCopy x d p).isATemplate = x.isATemplate ∧ (serviceCopy x d p).order = x.order := ⟨rfl, rfl⟩

theorem service_copies : PairCopies (serviceExpansion groups format) (servicePairs groups) serviceRelationOf ConfigItem.order
    ConfigItem.serviceRelation fun x p => serviceCopy (preparedService x) p.2 p.1 where
  name _ := getName_servicedependency
  removed := removedKey_servicedependency
  ne := serviceRelation_ne_nil
  mem _ _ := mem_serviceCopies
  item x p := (serviceCopy_same (preparedService x) p.2 p.1).1.trans (preparedService_same x).1
  order x p := (serviceCopy_same (preparedService x) p.2 p.1).2.trans (preparedService_same x).2
  relation x p := serviceCopy_relation (preparedService x) p.2 p.1
  prepares := service_prepares groups format
  gone x u hu := by
    unfold serviceExpansion at hu
    simp only at hu
    split at hu
    · exact List.mem_singleton.mp hu
    · obtain ⟨-, -, e⟩ := List.mem_map.mp hu
      exact e.symm

end

end Dependencies

end Alignak
