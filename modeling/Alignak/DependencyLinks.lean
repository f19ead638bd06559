import Alignak.DependencyExpansions

/-!
# The dependencies that are left

After the expansion the names are linked. Each pair of a definition is then one
dependency, when the dependencies of the definitions are separate.
-/

namespace Alignak.Dependencies

/-! ## One dependency for a pair -/

section
variable {π : Type} {e : Expansion} {pairs : ConfigItem → List π} {relation : π → List Char} {order : ConfigItem → Int}
  {named renamed : ConfigItem → List Char} {copy : ConfigItem → π → ConfigItem} {format : List Char → Int → Except Exn (List Char)}
  {timeperiods : Directory (List Char)} {c : ItemCollection} {s : Exploding} {x : ConfigItem} {p : π}
  {g : ConfigItem → Option LinkedDependency} {links : π → LinkedDependency → Bool}

theorem filterMap_filter_eq {α β : Type} {f : α → Option β} {q : β → Bool} {l : List α} {a : α} {b : β} (hn : l.Nodup) (ha : a ∈ l)
    (hb : f a = some b) (hq : q b = true) (hu : ∀ a' ∈ l, ∀ b', f a' = some b' → q b' = true → a' = a) :
    (l.filterMap f).filter q = [b] := by
  have hother : ∀ l' : List α, (∀ a' ∈ l', a' ∈ l) → a ∉ l' → (l'.filterMap f).filter q = [] := by
    intro l' hs hnot
    refine List.filter_eq_nil_iff.mpr fun b' hb' hq' => ?_
    obtain ⟨a', ha', e⟩ := List.mem_filterMap.mp hb'
    exact hnot (hu a' (hs a' ha') b' e hq' ▸ ha')
  obtain ⟨before, after, hsplit⟩ := List.append_of_mem ha
  rw [hsplit] at hn hother ⊢
  obtain ⟨hbefore, hafter⟩ : a ∉ before ∧ a ∉ after := by
    rw [List.nodup_append] at hn
    exact ⟨fun h => hn.2.2 a h a List.mem_cons_self rfl, (List.nodup_cons.mp hn.2.1).1⟩
  rw [List.filterMap_append, List.filter_append, hother before (fun a' h => List.mem_append_left _ h) hbefore,
    List.filterMap_cons_some hb, List.filter_cons_of_pos hq, hother after (fun a' h => List.mem_append_right _ (List.mem_cons_of_mem _ h)) hafter]
  rfl

theorem PairCopies.untaken (hc : PairCopies e pairs relation order named copy) (hd : Definitions c) :
    e.Untaken c x ↔ Unpaired c pairs relation x := by
  constructor
  · intro h x' hx' p hp
    have hfree := h x' hx' _ ((hc.mem x' _).mpr ⟨p, hp, rfl⟩)
    rwa [hc.getName (hd.items x' hx')] at hfree
  · intro h x' hx' r hr
    obtain ⟨p, hp, rfl⟩ := (hc.mem x' r).mp hr
    rw [hc.getName (hd.items x' hx')]
    exact h x' hx' p hp

structure LinksCopies (e : Expansion) (c : ItemCollection) (timeperiods : Directory (List Char)) (pairs : ConfigItem → List π)
    (relation : π → List Char) (named : ConfigItem → List Char) (copy : ConfigItem → π → ConfigItem)
    (links : π → LinkedDependency → Bool) (g : ConfigItem → Option LinkedDependency) : Prop where
  linked : ∀ x ∈ c.items.values, ∀ p ∈ pairs x, ∀ u,
    ∃ w, g { copy x p with uuid := u } = some w ∧ links p w = true ∧ carried w = asked timeperiods x
  known : ∀ y w p, g y = some w → links p w = true → named y = relation p
  alone : ∀ x ∈ c.items.values, e.gone x = [] → Unpaired c pairs relation x → ∀ w, g (e.prepared x) = some w →
    ∀ x' ∈ c.items.values, ∀ p ∈ pairs x', links p w = false

theorem LinksCopies.one (hg : LinksCopies e c timeperiods pairs relation named copy links g)
    (hc : PairCopies e pairs relation order named copy) (hd : Definitions c) (h : Separate c pairs relation format timeperiods order renamed)
    (hs : e.Exploded c s) (hx : x ∈ c.items.values) (hp : p ∈ pairs x) :
    ((s.collection.items.values.filterMap g).filter (links p)).map carried = [asked timeperiods x] := by
  obtain ⟨y, hy, hcopy, hname⟩ := hs.copied x hx _ ((hc.mem x _).mpr ⟨p, hp, rfl⟩)
  rw [hc.getName (hd.items x hx)] at hname
  obtain ⟨⟨x', hx', r, hr, hyr⟩, -⟩ := id hcopy
  obtain ⟨p', hp', rfl⟩ := (hc.mem x' r).mp hr
  -- the pair may also be one of another definition, which asks for the same then
  have hname' : getName e.cls true y = .text (relation p') := by
    rw [hyr]
    exact hc.getName (hd.items x' hx') p'
  rw [hname] at hname'
  obtain ⟨rfl, hasked⟩ := h.alike x hx p hp x' hx' p' hp' (IndexName.text.inj hname')
  obtain ⟨w, hw, hlinks, hcarried⟩ := hg.linked x' hx' p hp' y.uuid
  rw [← hyr] at hw
  rw [filterMap_filter_eq hs.nodup hy hw hlinks]
  · rw [List.map_singleton, hcarried, hasked]
  · intro z hz w' hw' hlinks'
    rcases hs.only z hz with hzc | ⟨x₁, hx1, rfl, hgone, hfree⟩
    · refine hs.unique z hz y hy hzc hcopy ?_
      obtain ⟨⟨x₂, hx2, r₂, hr2, hzr⟩, -⟩ := id hzc
      obtain ⟨p₂, hp2, rfl⟩ := (hc.mem x₂ r₂).mp hr2
      have hitem : z.isATemplate = false := by
        rw [hzr]
        exact (hc.item x₂ p₂).trans (hd.items x₂ hx2)
      rw [hname, hc.name z hitem, hg.known z w' p hw' hlinks']
    · rw [hg.alone x₁ hx1 hgone ((hc.untaken hd).mp hfree) w' hw' x hx p hp] at hlinks'
      cases hlinks'

end

/-! ## Defaults -/

section
variable {x y : ConfigItem} {name : String}

theorem attr_fillDefault_name (h : name ∈ ["host_name", "dependent_host_name", "service_description", "dependent_service_description"]) :
    (fillDefault x).attr name = x.attr name := by
  rw [attr_fillDefault]
  simp only [List.mem_cons, List.not_mem_nil, or_false] at h
  rcases h with rfl | rfl | rfl | rfl <;> exact Option.or_none

def carriedDefaults : List (String × String) :=
  [("inherits_parent", "0"), ("execution_failure_criteria", "n"), ("notification_failure_criteria", "n"), ("dependency_period", "")]

theorem attr_fillDefault_carried {d : String × String} (h : d ∈ carriedDefaults) (he : y.attr d.1 = x.attr d.1) :
    (fillDefault y).attr d.1 = some (x.attrOr d.1 d.2) := by
  rw [attr_fillDefault, he, ConfigItem.attrOr_eq]
  simp only [carriedDefaults, List.mem_cons, List.not_mem_nil, or_false] at h
  rcases h with rfl | rfl | rfl | rfl <;> cases x.attr _ <;> rfl

theorem link_cases (d : Directory (List Char)) (t : List Char) :
    link d t = .name t ∨ ∃ u, d.find t = some u ∧ link d t = .id u := by
  unfold link
  by_cases ht : t = []
  · rw [if_pos ht, ht]
    exact .inl rfl
  · rw [if_neg ht]
    cases d.find t with
    | none => exact .inl rfl
    | some u => exact .inr ⟨u, rfl, rfl⟩

theorem link_injective {d : Directory (List Char)} {t t' : List Char} (h : link d t = link d t') : t = t' := by
  rcases link_cases d t with e | ⟨u, hu, e⟩ <;> rcases link_cases d t' with e' | ⟨u', hu', e'⟩ <;> rw [e, e'] at h
  · exact Ref.name.inj h
  · cases h
  · cases h
  · rw [← Ref.id.inj h] at hu'
    exact d.injective t t' u hu hu'

end

/-! ## Hosts -/

section
variable {groups : Hostgroups} {format : List Char → Int → Except Exn (List Char)} {hosts timeperiods : Directory (List Char)}
  {c : ItemCollection} {s : Exploding} {x : ConfigItem}

theorem linkHosts_dependencies (s : Exploding) : (linkHosts hosts timeperiods s).dependencies =
    s.collection.items.values.filterMap fun x => some (linkHost hosts timeperiods (fillDefault x)) := by
  rw [List.filterMap_eq_map']
  exact List.map_map

theorem linksHosts_iff {p : List Char × List Char} :
    linksHosts hosts p (linkHost hosts timeperiods (fillDefault x)) = true ↔
      x.attr "host_name" = some p.1 ∧ x.attr "dependent_host_name" = some p.2 := by
  have hattr : ∀ name t, (fillDefault x).attr name = x.attr name →
      (((fillDefault x).attr name).map (link hosts) = some (link hosts t) ↔ x.attr name = some t) := by
    intro name t e
    rw [e]
    constructor
    · intro h
      obtain ⟨t', ht', hl⟩ := Option.map_eq_some_iff.mp h
      rw [ht', link_injective hl]
    · intro h
      rw [h]
      rfl
  have hlinked : ∀ y, (linkHost hosts timeperiods y).hostName = (y.attr "host_name").map (link hosts) ∧
      (linkHost hosts timeperiods y).dependentHostName = (y.attr "dependent_host_name").map (link hosts) := fun _ => ⟨rfl, rfl⟩
  unfold linksHosts
  rw [decide_eq_true_eq, (hlinked _).1, (hlinked _).2]
  exact and_congr (hattr "host_name" p.1 (attr_fillDefault_name (by decide)))
    (hattr "dependent_host_name" p.2 (attr_fillDefault_name (by decide)))

theorem hosts_linked (h : HostsSeparate groups format timeperiods c) :
    LinksCopies (hostExpansion groups format) c timeperiods (hostPairs groups) hostRelationOf ConfigItem.hostRelation
      (fun x p => hostCopy x p.2 p.1) (linksHosts hosts) fun x => some (linkHost hosts timeperiods (fillDefault x)) := by
  refine ⟨fun x _ p _ u => ⟨_, rfl, ?_, ?_⟩, fun y w p hw hl => ?_, fun x hx hgone hfree w hw x' hx' p hp => ?_⟩
  · rw [linksHosts_iff]
    exact ⟨(attr_hostCopy x p.2 p.1 "host_name").trans rfl, (attr_hostCopy x p.2 p.1 "dependent_host_name").trans rfl⟩
  · have hattr : ∀ d ∈ carriedDefaults, (fillDefault { hostCopy x p.2 p.1 with uuid := u }).attr d.1 = some (x.attrOr d.1 d.2) := by
      intro d hd
      refine attr_fillDefault_carried hd ((attr_hostCopy x p.2 p.1 d.1).trans ?_)
      simp only [carriedDefaults, List.mem_cons, List.not_mem_nil, or_false] at hd
      rcases hd with rfl | rfl | rfl | rfl <;> rfl
    have hlinked := hattr ("dependency_period", "") (by decide)
    unfold carried asked linkHost linkedItem
    simp only at hlinked ⊢
    rw [hattr ("inherits_parent", "0") (by decide), hattr ("execution_failure_criteria", "n") (by decide),
      hattr ("notification_failure_criteria", "n") (by decide), hlinked]
    rfl
  · obtain rfl := (Option.some.inj hw).symm
    obtain ⟨hparent, hdependent⟩ := linksHosts_iff.mp hl
    simp [ConfigItem.hostRelation, ConfigItem.attrOr, hparent, hdependent, hostRelationOf]
  · obtain rfl := (Option.some.inj hw).symm
    have hsons : sonHosts groups x = [] := List.map_eq_nil_iff.mp hgone
    rw [← Bool.not_eq_true, linksHosts_iff]
    exact h.alone x hx hsons hfree x' hx' p hp

end

/-! ## Services -/

section
variable {groups : Hostgroups} {format : List Char → Int → Except Exn (List Char)} {services : Services}
  {timeperiods : Directory (List Char)} {c : ItemCollection} {s : Exploding} {x : ConfigItem}

theorem lookService_ok {hostName description : String} {u : Nat} : lookService services x hostName description = .ok u ↔
    ∃ t : ServiceName, x.attr hostName = some t.hostName ∧ x.attr description = some t.serviceDescription ∧ services.find t = some u := by
  unfold lookService Services.find
  cases hd : x.attr description with
  | none => simp
  | some d =>
    cases hh : x.attr hostName with
    | none => simp
    | some h =>
      cases hf : services.directory.find (h, d) with
      | none =>
        simp only [hf, reduceCtorEq, false_iff]
        rintro ⟨t, e, e', e''⟩
        cases e
        cases e'
        rw [hf] at e''
        cases e''
      | some u' =>
        simp only [hf, Except.ok.injEq]
        constructor
        · rintro rfl
          exact ⟨⟨h, d⟩, rfl, rfl, hf⟩
        · rintro ⟨t, e, e', e''⟩
          cases e
          cases e'
          rw [hf] at e''
          exact Option.some.inj e''

structure NamesServices (x : ConfigItem) (p : ServiceName × ServiceName) : Prop where
  hostName : x.attr "host_name" = some p.1.hostName
  serviceDescription : x.attr "service_description" = some p.1.serviceDescription
  dependentHostName : x.attr "dependent_host_name" = some p.2.hostName
  dependentServiceDescription : x.attr "dependent_service_description" = some p.2.serviceDescription

theorem linkServices_ok {ids : Nat × Nat} : linkServices services x = .ok ids ↔
    ∃ p, NamesServices x p ∧ services.find p.2 = some ids.1 ∧ services.find p.1 = some ids.2 := by
  unfold linkServices
  constructor
  · intro h
    cases hd : lookService services x "dependent_host_name" "dependent_service_description" with
    | error err =>
      rw [hd] at h
      cases h
    | ok u =>
      cases hp : lookService services x "host_name" "service_description" with
      | error err =>
        rw [hd, hp] at h
        cases h
      | ok v =>
        rw [hd, hp] at h
        cases h
        obtain ⟨d, hd1, hd2, hdf⟩ := lookService_ok.mp hd
        obtain ⟨q, hq1, hq2, hqf⟩ := lookService_ok.mp hp
        exact ⟨(q, d), ⟨hq1, hq2, hd1, hd2⟩, hdf, hqf⟩
  · rintro ⟨p, hn, hdf, hpf⟩
    rw [lookService_ok.mpr ⟨p.2, hn.dependentHostName, hn.dependentServiceDescription, hdf⟩,
      lookService_ok.mpr ⟨p.1, hn.hostName, hn.serviceDescription, hpf⟩]
    rfl

def linkedService (services : Services) (timeperiods : Directory (List Char)) (x : ConfigItem) : Option LinkedDependency :=
  (linkServices services (fillDefault x)).toOption.map fun ids => linkService timeperiods (fillDefault x) ids

theorem linkServicedependencies_dependencies (s : Exploding) : (linkServicedependencies services timeperiods s).dependencies =
    s.collection.items.values.filterMap (linkedService services timeperiods) := by
  unfold linkServicedependencies
  simp only [List.map_filterMap, List.filterMap_map]
  refine List.filterMap_congr fun x _ => ?_
  unfold linkedService
  rw [Function.comp_apply, Option.map_map]
  rfl

theorem namesServices_fillDefault {p : ServiceName × ServiceName} : NamesServices (fillDefault x) p ↔ NamesServices x p := by
  have hattr : ∀ name ∈ ["host_name", "dependent_host_name", "service_description", "dependent_service_description"],
      (fillDefault x).attr name = x.attr name := fun name => attr_fillDefault_name
  constructor
  · intro h
    refine ⟨?_, ?_, ?_, ?_⟩
    · rw [← hattr _ (by decide)]
      exact h.hostName
    · rw [← hattr _ (by decide)]
      exact h.serviceDescription
    · rw [← hattr _ (by decide)]
      exact h.dependentHostName
    · rw [← hattr _ (by decide)]
      exact h.dependentServiceDescription
  · intro h
    exact ⟨(hattr _ (by decide)).trans h.hostName, (hattr _ (by decide)).trans h.serviceDescription,
      (hattr _ (by decide)).trans h.dependentHostName, (hattr _ (by decide)).trans h.dependentServiceDescription⟩

theorem linkedService_iff {w : LinkedDependency} : linkedService services timeperiods x = some w ↔
    ∃ p u v, NamesServices x p ∧ services.find p.2 = some u ∧ services.find p.1 = some v ∧
      w = linkService timeperiods (fillDefault x) (u, v) := by
  unfold linkedService
  rw [Option.map_eq_some_iff]
  constructor
  · rintro ⟨ids, hids, rfl⟩
    cases hl : linkServices services (fillDefault x) with
    | error err =>
      rw [hl] at hids
      cases hids
    | ok found =>
      rw [hl] at hids
      cases hids
      obtain ⟨p, hn, hd, hp⟩ := linkServices_ok.mp hl
      exact ⟨p, ids.1, ids.2, namesServices_fillDefault.mp hn, hd, hp, rfl⟩
  · rintro ⟨p, u, v, hn, hd, hp, rfl⟩
    refine ⟨(u, v), ?_, rfl⟩
    have hl : linkServices services (fillDefault x) = .ok (u, v) :=
      linkServices_ok.mpr ⟨p, namesServices_fillDefault.mpr hn, hd, hp⟩
    rw [hl]
    rfl

theorem NamesServices.relation {p : ServiceName × ServiceName} (h : NamesServices x p) : x.serviceRelation = serviceRelationOf p := by
  simp [ConfigItem.serviceRelation, ConfigItem.attrOr, serviceRelationOf, h.hostName, h.serviceDescription, h.dependentHostName,
    h.dependentServiceDescription]

theorem attr_preparedService (x : ConfigItem) {name : String} (h : name ≠ "dependent_host_name") :
    (preparedService x).attr name = x.attr name := by
  unfold preparedService
  split
  · rfl
  · exact attr_withDependentHosts x h

theorem Services.find_injective {t t' : ServiceName} {u : Nat} (h : services.find t = some u) (h' : services.find t' = some u) : t = t' := by
  have hpair := services.directory.injective _ _ u h h'
  cases t
  cases t'
  cases hpair
  rfl

theorem linksServices_iff {p : ServiceName × ServiceName} {u v : Nat} : linksServices services p (linkService timeperiods x (u, v)) = true ↔
    services.find p.2 = some u ∧ services.find p.1 = some v := by
  unfold linksServices linkService
  rw [decide_eq_true_eq]
  constructor
  · rintro ⟨hp, hd, e, e'⟩
    obtain ⟨v', hv⟩ := Option.isSome_iff_exists.mp hp
    obtain ⟨u', hu⟩ := Option.isSome_iff_exists.mp hd
    rw [hv] at e
    rw [hu] at e'
    cases e
    cases e'
    exact ⟨hu, hv⟩
  · rintro ⟨hu, hv⟩
    rw [hu, hv]
    exact ⟨rfl, rfl, rfl, rfl⟩

theorem splitNames_ne_nil (t : List Char) : splitNames t ≠ [] := by
  unfold splitNames
  rw [ne_eq, List.map_eq_nil_iff]
  exact List.splitOn_ne_nil ',' t

theorem dependentHost_empty {t : List Char} (hs : dependentServices groups x = [])
    (ht : (withDependentHosts x).attr "dependent_host_name" = some t) : t = [] := by
  unfold dependentServices at hs
  by_contra hne
  have hlisted : listed (withDependentHosts x) "dependent_host_name" = splitNames t := by
    simp [listed, ConfigItem.attrOr, ht, hne]
  obtain ⟨h, hh⟩ := List.exists_mem_of_ne_nil _ (splitNames_ne_nil t)
  have hnil := List.flatMap_eq_nil_iff.mp hs h (List.mem_append_right _ (hlisted ▸ hh))
  exact splitNames_ne_nil _ (List.map_eq_nil_iff.mp hnil)

theorem services_linked (h : ServicesSeparate groups format services timeperiods c) :
    LinksCopies (serviceExpansion groups format) c timeperiods (servicePairs groups) serviceRelationOf ConfigItem.serviceRelation
      (fun x p => serviceCopy (preparedService x) p.2 p.1) (linksServices services) (linkedService services timeperiods) := by
  refine ⟨fun x hx p hp u => ?_, fun y w p hw hl => ?_, fun x hx hgone hfree w hw x' hx' p hp => ?_⟩
  · obtain ⟨hparent, hdependent⟩ := h.found x hx p hp
    obtain ⟨v, hv⟩ := Option.isSome_iff_exists.mp hparent
    obtain ⟨t, ht⟩ := Option.isSome_iff_exists.mp hdependent
    have hcopy := attr_serviceCopy (preparedService x) p.2 p.1
    have hnames : NamesServices { serviceCopy (preparedService x) p.2 p.1 with uuid := u } p :=
      ⟨hcopy "host_name", hcopy "service_description", hcopy "dependent_host_name", hcopy "dependent_service_description"⟩
    refine ⟨_, linkedService_iff.mpr ⟨p, t, v, hnames, ht, hv, rfl⟩, linksServices_iff.mpr ⟨ht, hv⟩, ?_⟩
    have hattr : ∀ d ∈ carriedDefaults, (fillDefault { serviceCopy (preparedService x) p.2 p.1 with uuid := u }).attr d.1 =
        some (x.attrOr d.1 d.2) := by
      intro d hd
      refine attr_fillDefault_carried hd ((hcopy d.1).trans ?_)
      simp only [carriedDefaults, List.mem_cons, List.not_mem_nil, or_false] at hd
      rcases hd with rfl | rfl | rfl | rfl <;> exact attr_preparedService x (by decide)
    unfold carried asked linkService linkedItem
    rw [h.timeless x hx p hp, hattr ("inherits_parent", "0") (by decide), hattr ("execution_failure_criteria", "n") (by decide),
      hattr ("notification_failure_criteria", "n") (by decide)]
  · obtain ⟨p', t, v, hn, ht, hv, rfl⟩ := linkedService_iff.mp hw
    obtain ⟨ht', hv'⟩ := linksServices_iff.mp hl
    have hsame : p' = p := Prod.ext (services.find_injective hv hv') (services.find_injective ht ht')
    rw [hn.relation, hsame]
  · obtain ⟨p', t, v, hn, ht, -, rfl⟩ := linkedService_iff.mp hw
    exfalso
    have hprepared : (serviceExpansion groups format).prepared x = preparedService x := rfl
    have hgone' : (if perHost x then [x.uuid] else (dependentServices groups x).map fun _ => x.uuid) = [] := hgone
    by_cases hper : perHost x
    · rw [if_pos hper] at hgone'
      cases hgone'
    · rw [if_neg hper] at hgone'
      have hdependent := hn.dependentHostName
      rw [hprepared, preparedService, if_neg hper] at hdependent
      have hfind := services.named p'.2.serviceDescription
      rw [← dependentHost_empty (List.map_eq_nil_iff.mp hgone') hdependent] at hfind
      exact absurd (hfind.symm.trans ht) (Option.some_ne_none t).symm

end

/-! ## Both -/

section
variable {groups : Hostgroups} {format : List Char → Int → Except Exn (List Char)} {hosts timeperiods : Directory (List Char)}
  {services : Services} {c : ItemCollection}

theorem hosts_faithful (hd : Definitions c) (h : HostsSeparate groups format timeperiods c) :
    Faithful c.items.values (hostPairs groups) timeperiods (hostErrors groups) (linksHosts hosts)
      (hostdependencies groups hosts timeperiods format c) := by
  have hc := @host_copies groups format
  obtain ⟨s, hrun, hs⟩ := Expansion.explodeAll_exploded (hc.apart hd h.separate fun x _ => host_turns groups format x) hd.toSlots
  have hlinked : hostdependencies groups hosts timeperiods format c = .ok (linkHosts hosts timeperiods s) := by
    have hexplode : explodeAll .hostdependency (explodeHost groups format) c = .ok s := hrun
    unfold hostdependencies
    rw [hexplode]
    rfl
  refine ⟨_, hlinked, fun x hx => ⟨fun message hm => ?_, fun p hp => ?_⟩⟩
  · -- the definition is still there, so that its errors are told
    obtain ⟨hsons, hfree⟩ := h.known x hx (List.ne_nil_of_mem hm)
    have hstays := hs.stays x hx (List.map_eq_nil_iff.mpr hsons) ((hc.untaken hd).mpr hfree)
    have hitem : (x.uuid, message) ∈ s.itemErrors := by
      rw [hs.itemErrors]
      exact List.mem_flatMap.mpr ⟨x, hx, List.mem_map.mpr ⟨message, hm, rfl⟩⟩
    refine List.mem_append_left _ (List.mem_append_right _ ?_)
    exact List.mem_map.mpr ⟨(x.uuid, message), List.mem_filter.mpr ⟨hitem, hstays⟩, rfl⟩
  · rw [linkHosts_dependencies]
    exact (hosts_linked h).one hc hd h.separate hs hx hp

theorem services_faithful (hd : Definitions c) (h : ServicesSeparate groups format services timeperiods c) :
    Faithful c.items.values (servicePairs groups) timeperiods (serviceErrors groups) (linksServices services)
      (servicedependencies groups timeperiods services format c) := by
  have hc := @service_copies groups format
  have hturns : ∀ x ∈ c.items.values, (serviceExpansion groups format).Turns x :=
    fun x hx => service_turns groups format (h.described x hx).1 (h.described x hx).2 (h.known x hx)
  obtain ⟨s, hrun, hs⟩ := Expansion.explodeAll_exploded (hc.apart hd h.separate hturns) hd.toSlots
  have hlinked : servicedependencies groups timeperiods services format c = .ok (linkServicedependencies services timeperiods s) := by
    have hexplode : explodeAll .servicedependency (explodeService groups format) c = .ok s := hrun
    unfold servicedependencies
    rw [hexplode]
    rfl
  refine ⟨_, hlinked, fun x hx => ⟨fun message hm => ?_, fun p hp => ?_⟩⟩
  · have hper : perHost x := (h.known x hx).resolve_right (List.ne_nil_of_mem hm)
    have herror : message ∈ s.errors := by
      rw [hs.errors]
      refine List.mem_flatMap.mpr ⟨x, hx, ?_⟩
      unfold serviceErrors at hm
      rw [if_pos hper] at hm
      have herrors : (serviceExpansion groups format).errors x = groupErrors groups x := if_pos hper
      rw [herrors]
      exact hm
    exact List.mem_append_left _ (List.mem_append_left _ herror)
  · rw [linkServicedependencies_dependencies]
    exact (services_linked h).one hc hd h.separate hs hx hp

end

theorem servicedependencies_timeless {groups : Hostgroups} {format : List Char → Int → Except Exn (List Char)}
    {timeperiods : Directory (List Char)} {services : Services} {c : ItemCollection}
    (h : Faithful c.items.values (servicePairs groups) timeperiods (serviceErrors groups) (linksServices services)
      (servicedependencies groups timeperiods services format c)) :
    ∀ x ∈ c.items.values, ∀ p ∈ servicePairs groups x,
      (services.find p.1).isSome = true ∧ (services.find p.2).isSome = true ∧ x.attrOr "dependency_period" "" = [] := by
  obtain ⟨l, hrun, h⟩ := h
  intro x hx p hp
  have hone := (h x hx).2 p hp
  obtain ⟨w, hw, hcarried⟩ : ∃ w, w ∈ l.dependencies.filter (linksServices services p) ∧ carried w = asked timeperiods x := by
    have hmem : asked timeperiods x ∈ (l.dependencies.filter (linksServices services p)).map carried := by
      rw [hone]
      exact List.mem_cons_self
    exact List.mem_map.mp hmem
  obtain ⟨hdependency, hlinks⟩ := List.mem_filter.mp hw
  unfold servicedependencies at hrun
  cases hs : explodeAll .servicedependency (explodeService groups format) c with
  | error err =>
    rw [hs] at hrun
    cases hrun
  | ok s =>
    rw [hs] at hrun
    cases hrun
    rw [linkServicedependencies_dependencies] at hdependency
    obtain ⟨y, -, hy⟩ := List.mem_filterMap.mp hdependency
    obtain ⟨p', u, v, -, -, -, rfl⟩ := linkedService_iff.mp hy
    obtain ⟨hu, hv⟩ := linksServices_iff.mp hlinks
    have hperiod : link timeperiods [] = link timeperiods (x.attrOr "dependency_period" "") :=
      Option.some.inj (congrArg Carried.dependencyPeriod hcarried)
    exact ⟨by rw [hv]; rfl, by rw [hu]; rfl, (link_injective hperiod).symm⟩

/-! ## Some definitions -/

def someGroups : Hostgroups := fun g => if g = "dbs".toList then some ["db1".toList] else none

def someHosts : Directory (List Char) where
  find h := if h = "db1".toList then some 1 else if h = "web1".toList then some 2 else none
  injective k k' u h h' := by grind

def someTimeperiods : Directory (List Char) where
  find t := if t = "night".toList then some 9 else none
  injective k k' u h h' := by grind

def someServices : Services where
  directory := {
    find := fun k => if k = ("db1".toList, "sql".toList) then some 11 else if k = ("web1".toList, "http".toList) then some 12 else none
    injective := fun k k' u h h' => by grind }
  named d := by simp
  excluded _ _ := false

def someSetting : Setting := ⟨someGroups, someHosts, someTimeperiods, someServices, decimal⟩

def oneDefinition (x : ConfigItem) (name : String) : ItemCollection where
  items := Dict.empty.set 0 x
  nameToItem := Dict.empty.set (.text name.toList) x
  nextUuid := 1

def httpOnSql : ConfigItem :=
  ⟨0, true, none, [("host_name", "db1".toList), ("service_description", "sql".toList), ("dependent_host_name", "web1".toList),
    ("dependent_service_description", "http".toList), ("inherits_parent", "1".toList)]⟩

theorem oneDefinition_definitions {x : ConfigItem} {name : String} (hu : x.uuid = 0) (hi : x.isATemplate = false) :
    Definitions (oneDefinition x name) := by
  have hitems : ∀ u y, (oneDefinition x name).items.get? u = some y → u = 0 ∧ y = x := by
    intro u y h
    have hget : (if u = 0 then some x else none) = some y := Dict.get?_set.symm.trans h
    split at hget
    · exact ⟨‹_›, (Option.some.inj hget).symm⟩
    · cases hget
  have hnames : ∀ n y, (oneDefinition x name).nameToItem.get? n = some y → n = .text name.toList ∧ y = x := by
    intro n y h
    have hget : (if n = .text name.toList then some x else none) = some y := Dict.get?_set.symm.trans h
    split at hget
    · exact ⟨‹_›, (Option.some.inj hget).symm⟩
    · cases hget
  refine ⟨⟨fun n y h => ?_, fun u y h => ?_, fun n n' y h h' => ?_⟩, fun y h => ?_⟩
  · rw [(hnames n y h).2, hu]
    exact Dict.get?_set_self
  · obtain ⟨rfl, rfl⟩ := hitems u y h
    exact ⟨hu, Nat.zero_lt_one, _, Dict.get?_set_self⟩
  · rw [(hnames n y h).1, (hnames n' y h').1]
  · obtain ⟨u, hy⟩ := Dict.mem_values.mp h
    rw [(hitems u y hy).2]
    exact hi

theorem oneDefinition_split {x y : ConfigItem} {name : String} {done rest : List ConfigItem}
    (h : (oneDefinition x name).items.values = done ++ y :: rest) : y = x ∧ rest = [] := by
  have hone : [x] = done ++ y :: rest := h
  cases done with
  | nil =>
    cases hone
    exact ⟨rfl, rfl⟩
  | cons z done =>
    have hnil := (List.cons.inj hone).2
    cases done <;> cases hnil

def httpDefinitions : ItemCollection := oneDefinition httpOnSql "db1/sql->web1/http"

def httpPair : ServiceName × ServiceName := (⟨"db1".toList, "sql".toList⟩, ⟨"web1".toList, "http".toList⟩)

theorem httpDefinitions_separate : Kind.service.Separate someSetting httpDefinitions := by
  have hone : ∀ x ∈ httpDefinitions.items.values, x = httpOnSql := fun x hx => List.mem_singleton.mp hx
  have hself : httpOnSql ∈ httpDefinitions.items.values := List.mem_cons_self
  have hpairs : servicePairs someGroups httpOnSql = [httpPair] := by decide
  have hpair : ∀ x ∈ httpDefinitions.items.values, ∀ p ∈ servicePairs someGroups x, p = httpPair := by
    intro x hx p hp
    rw [hone x hx, hpairs] at hp
    exact List.mem_singleton.mp hp
  refine ⟨⟨fun x hx p hp => ?_, fun x hx p hp x' hx' p' hp' _ => ?_, fun done x rest hsplit p hp y hy => ?_⟩, fun x hx => ?_, fun x hx => ?_,
    fun x hx p hp => ?_, fun x hx p _ => ?_⟩
  · rw [hpair x hx p hp]
    rfl
  · rw [hpair x hx p hp, hpair x' hx' p' hp', hone x hx, hone x' hx']
    exact ⟨rfl, rfl⟩
  · obtain ⟨rfl, rfl⟩ := oneDefinition_split hsplit
    rw [hpair _ hself p hp] at hy ⊢
    have hget : httpDefinitions.nameToItem.get? (.text (serviceRelationOf httpPair)) = some httpOnSql := by decide
    rw [hget] at hy
    cases hy
    exact ⟨by decide, fun h => absurd h List.not_mem_nil, httpOnSql, hself, hpairs ▸ List.mem_cons_self, Int.le_refl _⟩
  · rw [hone x hx]
    decide
  · rw [hone x hx]
    exact .inr (by decide)
  · rw [hpair x hx p hp]
    decide
  · rw [hone x hx]
    rfl

def sqlOnWebs : ConfigItem :=
  ⟨0, true, none, [("hostgroup_name", "webs".toList), ("service_description", "http".toList), ("dependent_hostgroup_name", "dbs".toList),
    ("dependent_service_description", "sql".toList)]⟩

def httpAtNight : ConfigItem := { httpOnSql with attrs := ("dependency_period", "night".toList) :: httpOnSql.attrs }

def webOnDbs : ConfigItem := ⟨0, true, none, [("hostgroup_name", "dbs, apps".toList), ("dependent_host_name", "web1".toList)]⟩

end Alignak.Dependencies
