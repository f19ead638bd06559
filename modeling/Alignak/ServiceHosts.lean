import Alignak.ItemIndex
import Mathlib.Data.List.Dedup

/-!
# Services of several hosts

`explode_services_from_hosts` makes a copy of a service for each host that it
names. A name with a `!` takes the host out of the list, where it has to be.
-/

namespace Alignak

structure HostServices where
  serviceIncludes : List (List Char) := []
  serviceExcludes : List (List Char) := []
  deriving DecidableEq, Repr

namespace HostServices

def isExcludedForSdesc (host : HostServices) (sdesc : Option (List Char)) (isTpl : Bool) : Bool :=
  if !isTpl && !host.serviceIncludes.isEmpty then !(host.serviceIncludes.map some).contains sdesc
  else if !host.serviceExcludes.isEmpty then (host.serviceExcludes.map some).contains sdesc
  else false

def isExcludedFor (host : HostServices) (service : ConfigItem) : Bool :=
  host.isExcludedForSdesc (service.attr "service_description") service.isATemplate

end HostServices

/-! ## The names -/

def standardNames (hnames : List (List Char)) : List (List Char) := (hnames.map strip).filter fun hname => hname.head? ≠ some '!'

def notHosts (hnames : List (List Char)) : List (List Char) :=
  ((hnames.map strip).filter fun hname => hname.head? = some '!').map List.tail

/-- `list.remove` raises a `ValueError`, which the `except IndexError` does not
catch. -/
def removeName (names : List (List Char)) (hname : List Char) : Except Exn (List (List Char)) :=
  if names.contains hname then .ok (names.erase hname) else .error .valueError

def duplicateForHosts (hnames : List (List Char)) : Except Exn (List (List Char)) :=
  (notHosts hnames).foldlM removeName (standardNames hnames).dedup

/-! ## The explosion -/

structure Explosion where
  unknown : List (List Char) := []
  created : List ConfigItem := []
  services : ItemCollection

section
variable (findHost : List Char → Option HostServices) (format : List Char → Int → Except Exn (List Char)) (service : ConfigItem)

/-- `copy`, and the host of the new service. -/
def copyFor (hname : List Char) (uuid : Nat) : ConfigItem := { service with uuid := uuid }.setAttr "host_name" hname

def explodeFor (s : Explosion) (hname : List Char) : Except Exn Explosion :=
  match findHost hname with
  | none => .ok { s with unknown := s.unknown ++ [hname] }
  | some host =>
    if host.isExcludedFor service then .ok s
    else do
      let newS := copyFor service hname s.services.nextUuid
      let services ← addItem .service format newS true s.services
      return { s with created := s.created ++ [newS], services := services }

def explodeServicesFromHosts (hnames : List (List Char)) (services : ItemCollection) : Except Exn Explosion := do
  let names ← duplicateForHosts hnames
  names.foldlM (explodeFor findHost format service) { services := services }

def Wanted (hnames : List (List Char)) (hname : List Char) : Prop :=
  hname ∈ standardNames hnames ∧ hname ∉ notHosts hnames ∧
    ∃ host, findHost hname = some host ∧ host.isExcludedFor service = false

structure ExplodesRight (hnames : List (List Char)) (s : Explosion) : Prop where
  nodup : (s.created.map (ConfigItem.attr · "host_name")).Nodup
  copies : ∀ x ∈ s.created, ∃ hname uuid, x = copyFor service hname uuid
  hosts : ∀ hname, some hname ∈ s.created.map (ConfigItem.attr · "host_name") ↔ Wanted findHost service hnames hname
  indexed : ∀ x ∈ s.created, s.services.nameToItem.get? (getName .service true x) ≠ none

/-- The pair of names `add_item` takes for a text with brackets. -/
def Bracketed (x : ConfigItem) : Prop :=
  ['['] ∈ [x.getHostName, x.serviceName] ∧ [']'] ∈ [x.getHostName, x.serviceName]

end

/-! ## Removed names -/

section
variable {names hnames : List (List Char)}

theorem foldlM_removeName (excluded : List (List Char)) (hn : names.Nodup) :
    (∀ r, excluded.foldlM removeName names = .ok r → r.Nodup ∧ ∀ h, h ∈ r ↔ h ∈ names ∧ h ∉ excluded) ∧
    ((∃ r, excluded.foldlM removeName names = .ok r) ↔ excluded.Nodup ∧ ∀ h ∈ excluded, h ∈ names) := by
  induction excluded generalizing names with
  | nil =>
    refine ⟨fun r hr => ?_, ?_⟩
    · cases hr
      exact ⟨hn, fun h => by simp⟩
    · simp only [List.nodup_nil, List.not_mem_nil, false_implies, implies_true, and_self, iff_true]
      exact ⟨names, rfl⟩
  | cons hname excluded ih =>
    by_cases hmem : hname ∈ names
    · have hstep : (hname :: excluded).foldlM removeName names = excluded.foldlM removeName (names.erase hname) := by
        rw [List.foldlM_cons, removeName, if_pos (List.contains_iff_mem.mpr hmem)]
        rfl
      obtain ⟨h1, h2⟩ := ih (hn.erase hname)
      rw [hstep]
      constructor
      · intro r hr
        obtain ⟨hnodup, hr⟩ := h1 r hr
        refine ⟨hnodup, fun h => ?_⟩
        rw [hr h, hn.mem_erase_iff, List.mem_cons, not_or]
        tauto
      · rw [h2, List.nodup_cons]
        constructor
        · rintro ⟨hnd, hall⟩
          refine ⟨⟨fun hin => ?_, hnd⟩, fun h hh => ?_⟩
          · exact (hn.mem_erase_iff.mp (hall hname hin)).1 rfl
          · rcases List.mem_cons.mp hh with rfl | hh
            · exact hmem
            · exact (hn.mem_erase_iff.mp (hall h hh)).2
        · rintro ⟨⟨hnot, hnd⟩, hall⟩
          refine ⟨hnd, fun h hh => hn.mem_erase_iff.mpr ⟨fun e => hnot (e ▸ hh), ?_⟩⟩
          exact hall h (List.mem_cons_of_mem _ hh)
    · have hstep : (hname :: excluded).foldlM removeName names = .error .valueError := by
        rw [List.foldlM_cons, removeName, if_neg fun h => hmem (List.contains_iff_mem.mp h)]
        rfl
      rw [hstep]
      constructor
      · intro r hr
        cases hr
      · constructor
        · rintro ⟨r, hr⟩
          cases hr
        · exact fun hc => absurd (hc.2 hname List.mem_cons_self) hmem

end

/-! ## Services in the collection -/

section
variable {format : List Char → Int → Except Exn (List Char)} {x : ConfigItem} {c : ItemCollection}

theorem cloneNames_pair (hostName serviceDescription : List Char) : cloneNames format (.pair hostName serviceDescription) =
    if ['['] ∈ [hostName, serviceDescription] ∧ [']'] ∈ [hostName, serviceDescription] then .error .attributeError else .ok [] := by
  unfold cloneNames
  simp only [Bool.and_eq_true, List.contains_iff_mem]

theorem addItem_bracketed (hx : x.isATemplate = false) (hb : Bracketed x) :
    addItem .service format x true c = .error .attributeError := by
  unfold addItem definitions
  have hpair : ['['] ∈ [x.getHostName, x.serviceName] ∧ [']'] ∈ [x.getHostName, x.serviceName] := hb
  rw [getName_service hx, cloneNames_pair, if_pos hpair]
  rfl

variable (format) in
theorem addItem_service (hx : x.isATemplate = false) (hb : ¬ Bracketed x) : ∃ c', addItem .service format x true c = .ok c' ∧
    c'.nameToItem.get? (getName .service true x) ≠ none ∧ ∀ hostName serviceDescription,
      c.nameToItem.get? (.pair hostName serviceDescription) ≠ none → c'.nameToItem.get? (.pair hostName serviceDescription) ≠ none := by
  have hname := getName_service hx
  have hset : ∀ (r : ConfigItem × ItemCollection),
      (∀ a b, c.nameToItem.get? (.pair a b) ≠ none → r.2.nameToItem.get? (.pair a b) ≠ none) →
      ((r.2.nameToItem.set (getName .service true x) r.1).get? (getName .service true x) ≠ none ∧
        ∀ a b, c.nameToItem.get? (.pair a b) ≠ none → (r.2.nameToItem.set (getName .service true x) r.1).get? (.pair a b) ≠ none) := by
    intro r hr
    refine ⟨by simp, fun a b hab => ?_⟩
    rw [Dict.get?_set]
    split
    · exact fun e => nomatch e
    · exact hr a b hab
  have hadd : addItem .service format x true c = place .service true x c := by
    have hpair : ¬ (['['] ∈ [x.getHostName, x.serviceName] ∧ [']'] ∈ [x.getHostName, x.serviceName]) := hb
    unfold addItem definitions
    rw [hname, cloneNames_pair, if_neg hpair]
    show (place .service true x c >>= fun c' => .ok c') = _
    cases place .service true x c <;> rfl
  rw [hadd, place_indexed_eq (by rw [hname]; rfl)]
  by_cases hk : c.nameToItem.contains (getName .service true x) = true
  · rw [if_pos hk]
    unfold manageConflict
    simp only [hx, Bool.false_eq_true, if_false]
    cases hy : c.nameToItem.get? (getName .service true x) with
    | none => simp [Dict.contains, hy] at hk
    | some y =>
      simp only
      split
      · exact ⟨_, rfl, hset (x, c) fun _ _ h => h⟩
      · split
        · exact ⟨_, rfl, hset (y, c) fun _ _ h => h⟩
        · refine ⟨_, rfl, hset (x, removeItem .service y c) fun a b hab => ?_⟩
          rw [removeItem_names, if_neg (removedKey_service y a b)]
          exact hab
  · rw [if_neg hk]
    exact ⟨_, rfl, hset (x, c) fun _ _ h => h⟩

end

/-! ## One host after the other -/

section
variable {findHost : List Char → Option HostServices} {format : List Char → Int → Except Exn (List Char)} {service : ConfigItem}

def takesService (findHost : List Char → Option HostServices) (service : ConfigItem) (hname : List Char) : Bool :=
  match findHost hname with
  | none => false
  | some host => !host.isExcludedFor service

theorem takesService_iff {hname : List Char} : takesService findHost service hname = true ↔
    ∃ host, findHost hname = some host ∧ host.isExcludedFor service = false := by
  unfold takesService
  cases findHost hname with
  | none => simp
  | some host => simp

variable (format) in
theorem explodeFor_skip {s : Explosion} {hname : List Char} (h : takesService findHost service hname = false) :
    ∃ s', explodeFor findHost format service s hname = .ok s' ∧ s'.created = s.created ∧ s'.services = s.services := by
  unfold takesService at h
  unfold explodeFor
  cases hf : findHost hname with
  | none => exact ⟨_, rfl, rfl, rfl⟩
  | some host =>
    rw [hf] at h
    simp only [Bool.not_eq_false'] at h
    simp only [h, if_true]
    exact ⟨_, rfl, rfl, rfl⟩

theorem explodeFor_take {s : Explosion} {hname : List Char} (h : takesService findHost service hname = true) :
    explodeFor findHost format service s hname =
      addItem .service format (copyFor service hname s.services.nextUuid) true s.services >>= fun services =>
        .ok { s with created := s.created ++ [copyFor service hname s.services.nextUuid], services := services } := by
  obtain ⟨host, hf, he⟩ := takesService_iff.mp h
  unfold explodeFor
  simp only [hf, he, Bool.false_eq_true, if_false]
  rfl

theorem copyFor_host (hname : List Char) (uuid : Nat) : (copyFor service hname uuid).attr "host_name" = some hname := by
  simp [copyFor, ConfigItem.attr, ConfigItem.setAttr]

variable (format) in
theorem foldlM_explodeFor (hs : service.isATemplate = false) (names : List (List Char)) (s : Explosion)
    (hcopies : ∀ x ∈ s.created, ∃ hname uuid, x = copyFor service hname uuid)
    (hindexed : ∀ x ∈ s.created, s.services.nameToItem.get? (getName .service true x) ≠ none) :
    ((∀ hname ∈ names, takesService findHost service hname = true → ¬ Bracketed (copyFor service hname 0)) →
      ∃ s', names.foldlM (explodeFor findHost format service) s = .ok s' ∧
        s'.created.map (ConfigItem.attr · "host_name") =
          s.created.map (ConfigItem.attr · "host_name") ++ (names.filter (takesService findHost service)).map some ∧
        (∀ x ∈ s'.created, ∃ hname uuid, x = copyFor service hname uuid) ∧
        ∀ x ∈ s'.created, s'.services.nameToItem.get? (getName .service true x) ≠ none) ∧
    ((∃ hname ∈ names, takesService findHost service hname = true ∧ Bracketed (copyFor service hname 0)) →
      ∃ e, names.foldlM (explodeFor findHost format service) s = .error e) := by
  induction names generalizing s with
  | nil =>
    refine ⟨fun _ => ⟨s, rfl, by simp, hcopies, hindexed⟩, ?_⟩
    rintro ⟨_, hmem, -⟩
    exact absurd hmem List.not_mem_nil
  | cons hname names ih =>
    rw [List.foldlM_cons]
    by_cases ht : takesService findHost service hname = true
    · have hnew : (copyFor service hname s.services.nextUuid).isATemplate = false := hs
      rw [explodeFor_take ht, List.filter_cons_of_pos ht, List.map_cons]
      by_cases hb : Bracketed (copyFor service hname s.services.nextUuid)
      · rw [addItem_bracketed hnew hb]
        exact ⟨fun h => absurd hb (h hname List.mem_cons_self ht), fun _ => ⟨_, rfl⟩⟩
      · obtain ⟨c', hadd, hself, hkept⟩ := addItem_service format (c := s.services) hnew hb
        rw [hadd]
        have hold : ∀ x ∈ s.created, c'.nameToItem.get? (getName .service true x) ≠ none := by
          intro x hx
          obtain ⟨h, u, rfl⟩ := hcopies x hx
          have hpair : getName .service true (copyFor service h u) = _ := getName_service hs
          rw [hpair]
          refine hkept _ _ ?_
          rw [← hpair]
          exact hindexed _ hx
        have hcopies' : ∀ x ∈ s.created ++ [copyFor service hname s.services.nextUuid], ∃ hname uuid, x = copyFor service hname uuid := by
          intro x hx
          rcases List.mem_append.mp hx with hx | hx
          · exact hcopies x hx
          · exact ⟨_, _, List.mem_singleton.mp hx⟩
        have hindexed' : ∀ x ∈ s.created ++ [copyFor service hname s.services.nextUuid],
            c'.nameToItem.get? (getName .service true x) ≠ none := by
          intro x hx
          rcases List.mem_append.mp hx with hx | hx
          · exact hold x hx
          · rw [List.mem_singleton.mp hx]
            exact hself
        obtain ⟨h1, h2⟩ := ih { s with
          created := s.created ++ [copyFor service hname s.services.nextUuid]
          services := c' } hcopies' hindexed'
        constructor
        · intro hall
          obtain ⟨s', hrun, hhosts, hrest⟩ := h1 fun h hh => hall h (List.mem_cons_of_mem _ hh)
          refine ⟨s', hrun, ?_, hrest⟩
          rw [hhosts, List.map_append, List.append_assoc]
          simp only [List.map_cons, List.map_nil, copyFor_host, List.singleton_append]
        · rintro ⟨h, hh, ht', hb'⟩
          rcases List.mem_cons.mp hh with rfl | hh
          · exact absurd hb' hb
          · exact h2 ⟨h, hh, ht', hb'⟩
    · rw [Bool.not_eq_true] at ht
      obtain ⟨s₁, hstep, hcreated, hservices⟩ := explodeFor_skip format (s := s) ht
      rw [hstep, List.filter_cons_of_neg (by rw [ht]; decide)]
      obtain ⟨h1, h2⟩ := ih s₁ (by rw [hcreated]; exact hcopies) (by rw [hcreated, hservices]; exact hindexed)
      rw [hcreated] at h1
      constructor
      · exact fun hall => h1 fun h hh => hall h (List.mem_cons_of_mem _ hh)
      · rintro ⟨h, hh, ht', hb'⟩
        rcases List.mem_cons.mp hh with rfl | hh
        · exact absurd (ht.symm.trans ht') Bool.false_ne_true
        · exact h2 ⟨h, hh, ht', hb'⟩

/-- The explosion is right where each excluded name is once in the list of the
names, and no new service is named by the two brackets. -/
theorem explodeServicesFromHosts_iff (hs : service.isATemplate = false) (hnames : List (List Char)) (services : ItemCollection) :
    (∃ s, explodeServicesFromHosts findHost format service hnames services = .ok s ∧
        ExplodesRight findHost service hnames s) ↔
      ((notHosts hnames).Nodup ∧ ∀ hname ∈ notHosts hnames, hname ∈ standardNames hnames) ∧
      ∀ hname, Wanted findHost service hnames hname → ¬ Bracketed (copyFor service hname 0) := by
  obtain ⟨hresult, hok⟩ := foldlM_removeName (notHosts hnames) (standardNames hnames).nodup_dedup
  have hdedup : (∀ h ∈ notHosts hnames, h ∈ (standardNames hnames).dedup) ↔ ∀ h ∈ notHosts hnames, h ∈ standardNames hnames := by
    simp only [List.mem_dedup]
  rw [← hdedup, ← hok]
  unfold explodeServicesFromHosts duplicateForHosts
  cases hd : (notHosts hnames).foldlM removeName (standardNames hnames).dedup with
  | error e =>
    constructor
    · rintro ⟨s, hs, -⟩
      cases hs
    · rintro ⟨⟨r, hr⟩, -⟩
      cases hr
  | ok names =>
    obtain ⟨hnodup, hmem⟩ := hresult names hd
    have hwanted : ∀ hname, Wanted findHost service hnames hname ↔ hname ∈ names ∧ takesService findHost service hname = true := by
      intro hname
      unfold Wanted
      rw [hmem, List.mem_dedup, takesService_iff, and_assoc]
    obtain ⟨hgood, hbad⟩ := foldlM_explodeFor format hs names { services := services }
      (fun x hx => absurd hx List.not_mem_nil) (fun x hx => absurd hx List.not_mem_nil)
    constructor
    · rintro ⟨s, hrun, -⟩
      refine ⟨⟨names, rfl⟩, fun hname hw hb => ?_⟩
      obtain ⟨hin, ht⟩ := (hwanted hname).mp hw
      obtain ⟨e, he⟩ := hbad ⟨hname, hin, ht, hb⟩
      have hrun : names.foldlM (explodeFor findHost format service) { services := services } = .ok s := hrun
      rw [he] at hrun
      cases hrun
    · rintro ⟨-, hall⟩
      obtain ⟨s, hrun, hhosts, hcopies, hindexed⟩ := hgood fun hname hin ht => hall hname ((hwanted hname).mpr ⟨hin, ht⟩)
      rw [List.map_nil, List.nil_append] at hhosts
      refine ⟨s, hrun, ?_, hcopies, fun hname => ?_, hindexed⟩
      · rw [hhosts]
        exact (hnodup.filter _).map (Option.some_injective _)
      · rw [hhosts, hwanted]
        simp

end

def anyHost (_ : List Char) : Option HostServices := some {}

theorem explode_twoHosts : ∃ s, explodeServicesFromHosts anyHost decimal webService
    ["srv".toList, " !db ".toList, "db".toList, "srv".toList] noItems = .ok s ∧
      ExplodesRight anyHost webService ["srv".toList, " !db ".toList, "db".toList, "srv".toList] s := by
  refine (explodeServicesFromHosts_iff rfl _ noItems).mpr ⟨⟨by decide, fun hname hmem => ?_⟩, fun hname _ hb => ?_⟩
  · rw [show notHosts ["srv".toList, " !db ".toList, "db".toList, "srv".toList] = ["db".toList] by decide] at hmem
    rw [List.mem_singleton.mp hmem]
    decide
  · have hservice : (copyFor webService hname 0).serviceName = "web".toList := by
      have hattr : (copyFor webService hname 0).attr "service_description" = some "web".toList := rfl
      unfold ConfigItem.serviceName ConfigItem.attrOr
      rw [hattr]
      rfl
    obtain ⟨hopen, hclose⟩ := hb
    rw [hservice] at hopen hclose
    simp only [List.mem_cons, List.not_mem_nil, or_false] at hopen hclose
    have hopen := hopen.resolve_right (by decide)
    have hclose := hclose.resolve_right (by decide)
    exact absurd (hopen.trans hclose.symm) (by decide)

/-- The excluded host is not in the list. -/
theorem explode_raises : ¬ ∃ s, explodeServicesFromHosts anyHost decimal webService ["srv".toList, "!db".toList] noItems = .ok s ∧
    ExplodesRight anyHost webService ["srv".toList, "!db".toList] s := by
  have hraise : explodeServicesFromHosts anyHost decimal webService ["srv".toList, "!db".toList] noItems = .error .valueError := rfl
  rintro ⟨s, hs, -⟩
  rw [hraise] at hs
  cases hs

end Alignak
