import Alignak.Termination

/-!
# Implicit inheritance

A service takes some properties from its host, where it has none. A value that
is empty or zero counts as none.
-/

namespace Alignak

open Relation

/-! ## The loop over the services -/

/-- `not value` -/
def Value.isFalsy : Value → Bool
  | none => true
  | str s => s.isEmpty
  | num n => n == 0
  | list l => l.isEmpty
  | listOf _ _ => false

structure Hosts where
  nameToItem : Dict String Nat
  obj : Heap

def Hosts.findByName (hosts : Hosts) (name : String) : Option Item := (hosts.nameToItem.get? name).map hosts.obj

def specialProperties : List String :=
  ["contacts", "contact_groups", "notification_interval", "notification_period", "resultmodulations",
    "business_impact_modulations", "escalations", "poller_tag", "reactionner_tag", "check_period", "business_impact",
    "maintenance_period"]

namespace Item

/-- `host_name` is a string property. -/
def hostName (serv : Item) : Option String :=
  match serv.attr "host_name" with
  | some (.str name) => some name
  | _ => none

/-- `not getattr(serv, prop, None)` -/
def unset (serv : Item) (prop : String) : Bool := ((serv.attr prop).getD .none).isFalsy

def hostValue (hosts : Hosts) (serv : Item) (prop : String) : Option Value := do
  let name ← serv.hostName
  let host ← hosts.findByName name
  host.attr prop

def inheritFromHost (hosts : Hosts) (prop : String) (serv : Item) : Item :=
  if serv.hostName.isSome && serv.unset prop then
    match serv.hostValue hosts prop with
    | some value => serv.setAttr prop value
    | none => serv
  else serv

end Item

def Heap.inheritFromHosts (hosts : Hosts) (props : List String) (services : List Nat) (H : Heap) : Heap :=
  props.foldl (fun H prop => services.foldl (fun H x => H.set x ((H x).inheritFromHost hosts prop)) H) H

def Items.implicitInheritance (hosts : Hosts) (props : List String) (S : Items) : Items :=
  { S with obj := Heap.inheritFromHosts hosts props S.items S.obj }

def Items.applyImplicitInheritance (hosts : Hosts) (S : Items) : Items := S.implicitInheritance hosts specialProperties

structure SpecialOrder where
  props : List String
  perm : props.Perm specialProperties

/-- The order of the source. -/
def SpecialOrder.source : SpecialOrder := ⟨specialProperties, List.Perm.refl _⟩

theorem SpecialOrder.mem (order : SpecialOrder) {prop : String} : prop ∈ order.props ↔ prop ∈ specialProperties :=
  order.perm.mem_iff

/-! ## What the loop gives -/

namespace Item

section
variable {hosts : Hosts} {serv : Item} {prop q : String}

theorem inheritFromHost_ne (h : q ≠ prop) : (serv.inheritFromHost hosts prop).attr q = serv.attr q := by
  unfold inheritFromHost
  split
  · split
    · exact Function.update_of_ne h _ _
    · rfl
  · rfl

def implicitValue (hosts : Hosts) (serv : Item) (prop : String) : Option Value :=
  if serv.unset prop then (serv.hostValue hosts prop).or (serv.attr prop) else serv.attr prop

theorem hostValue_none (h : serv.hostName = none) : serv.hostValue hosts prop = none := by
  unfold hostValue
  rw [h]
  rfl

theorem inheritFromHost_attr : (serv.inheritFromHost hosts prop).attr prop = serv.implicitValue hosts prop := by
  unfold inheritFromHost implicitValue
  cases hu : serv.unset prop with
  | false => simp
  | true =>
    cases hn : serv.hostName with
    | none => simp [hostValue_none hn]
    | some name =>
      cases hv : serv.hostValue hosts prop with
      | none => simp
      | some value => simp

theorem hostName_congr {serv' : Item} (h : serv'.attr "host_name" = serv.attr "host_name") :
    serv'.hostName = serv.hostName := by
  unfold hostName
  rw [h]

theorem hostValue_congr {serv' : Item} (h : serv'.attr "host_name" = serv.attr "host_name") :
    serv'.hostValue hosts prop = serv.hostValue hosts prop := by
  unfold hostValue
  rw [hostName_congr h]

theorem implicitValue_inherit (hq : q ≠ "host_name") :
    (serv.inheritFromHost hosts q).implicitValue hosts prop = serv.implicitValue hosts prop := by
  have hhost : (serv.inheritFromHost hosts q).hostValue hosts prop = serv.hostValue hosts prop :=
    hostValue_congr (inheritFromHost_ne hq.symm)
  by_cases h : prop = q
  · subst h
    unfold implicitValue unset
    rw [hhost, inheritFromHost_attr]
    unfold implicitValue unset
    cases hu : ((serv.attr prop).getD .none).isFalsy with
    | false => simp [hu]
    | true =>
      cases hv : serv.hostValue hosts prop with
      | none => simp [hu]
      | some value => simp
  · unfold implicitValue unset
    rw [hhost, inheritFromHost_ne h]

theorem foldl_inherit_ne : ∀ {props : List String} {serv : Item}, prop ∉ props →
    (props.foldl (fun o q => o.inheritFromHost hosts q) serv).attr prop = serv.attr prop
  | [], _, _ => rfl
  | q :: props, serv, h => by
    simp only [List.mem_cons, not_or] at h
    rw [List.foldl_cons, foldl_inherit_ne h.2, inheritFromHost_ne h.1]

theorem foldl_inherit_attr : ∀ {props : List String} {serv : Item}, "host_name" ∉ props → prop ∈ props →
    (props.foldl (fun o q => o.inheritFromHost hosts q) serv).attr prop = serv.implicitValue hosts prop
  | q :: props, serv, hn, hp => by
    simp only [List.mem_cons, not_or] at hn
    rw [List.foldl_cons]
    by_cases h : prop ∈ props
    · rw [foldl_inherit_attr hn.2 h, implicitValue_inherit (Ne.symm hn.1)]
    · rw [foldl_inherit_ne h, (List.mem_cons.mp hp).resolve_right h, inheritFromHost_attr]

theorem inheritFromHost_twice (hp : prop ≠ "host_name") :
    (serv.inheritFromHost hosts prop).inheritFromHost hosts prop = serv.inheritFromHost hosts prop := by
  unfold inheritFromHost
  by_cases h : (serv.hostName.isSome && serv.unset prop) = true
  · rw [if_pos h]
    cases hv : serv.hostValue hosts prop with
    | none => simp only [h, hv, if_true]
    | some value =>
      have hhost : (serv.setAttr prop value).hostValue hosts prop = some value :=
        (hostValue_congr (Function.update_of_ne hp.symm _ _)).trans hv
      have htwice : (serv.setAttr prop value).setAttr prop value = serv.setAttr prop value := by
        simp [setAttr]
      simp only [hhost, htwice, ite_self]
  · rw [if_neg h, if_neg h]

end

end Item

namespace Heap

section
variable {hosts : Hosts} {prop : String} {services : List Nat} {H : Heap} {x : Nat}

theorem foldl_inherit_apply (hp : prop ≠ "host_name") : ∀ {services : List Nat} {H : Heap},
    services.foldl (fun H x => H.set x ((H x).inheritFromHost hosts prop)) H x =
      if x ∈ services then (H x).inheritFromHost hosts prop else H x
  | [], _ => by simp
  | y :: services, H => by
    rw [List.foldl_cons, foldl_inherit_apply hp]
    by_cases hxy : x = y
    · subst hxy
      simp [Item.inheritFromHost_twice hp]
    · simp [set_ne _ hxy, hxy]

theorem inheritFromHosts_apply (hx : x ∈ services) : ∀ {props : List String} {H : Heap}, "host_name" ∉ props →
    H.inheritFromHosts hosts props services x = props.foldl (fun o q => o.inheritFromHost hosts q) (H x)
  | [], _, _ => rfl
  | q :: props, H, hn => by
    simp only [List.mem_cons, not_or] at hn
    have hrest := inheritFromHosts_apply hx
      (H := services.foldl (fun H x => H.set x ((H x).inheritFromHost hosts q)) H) hn.2
    unfold inheritFromHosts at hrest ⊢
    rw [List.foldl_cons, hrest, foldl_inherit_apply (Ne.symm hn.1), if_pos hx, List.foldl_cons]

end

end Heap

/-! ## What template inheritance leaves unset -/

def Item.Defines (o : Item) (prop : String) : Prop := o.attr prop ≠ none ∨ o.plus.get? prop ≠ none

namespace Heap

/-- The object or one of its templates, at any distance, has the property. -/
def Defined (H : Heap) (prop : String) (x : Nat) : Prop :=
  ∃ y, ReflTransGen (fun x t => t ∈ (H x).templates) x y ∧ (H y).Defines prop

structure Blank (H₀ : Heap) (prop : String) (H : Heap) : Prop where
  templates : SameTemplates H₀ H
  blank : ∀ y, ¬ H₀.Defined prop y → (H y).attr prop = none ∧ (H y).plus.get? prop = none

section
variable {H₀ H H' : Heap} {prop : String} {x : Nat}

theorem Blank.start (H₀ : Heap) (prop : String) : Blank H₀ prop H₀ := by
  refine ⟨SameTemplates.refl H₀, fun y hy => ?_⟩
  have hdef : ¬ (H₀ y).Defines prop := fun h => hy ⟨y, ReflTransGen.refl, h⟩
  unfold Item.Defines at hdef
  simp only [not_or, not_not] at hdef
  exact hdef

theorem Blank.set {o : Item} (h : Blank H₀ prop H) (ht : o.templates = (H x).templates)
    (ho : ¬ H₀.Defined prop x → o.attr prop = none ∧ o.plus.get? prop = none) : Blank H₀ prop (H.set x o) := by
  refine ⟨h.templates.trans (SameTemplates.set ht), fun y hy => ?_⟩
  by_cases hyx : y = x
  · subst hyx
    rw [set_self]
    exact ho hy
  · rw [set_ne o hyx]
    exact h.blank y hy

theorem Blank.set_other {q : String} (hq : prop ≠ q) (H : Heap) (y : Nat) (o : Item) (h : Blank H₀ prop H)
    (ho : Sets q (H y) o) : Blank H₀ prop (H.set y o) := by
  refine h.set ho.templates fun hy => ?_
  rw [(ho.other prop hq).1, (ho.other prop hq).2]
  exact h.blank y hy

theorem walkTemplates_blank {recurse : Heap → Nat → Except Exn (Value × Heap)}
    (hrec : ∀ H t v H', Blank H₀ prop H → recurse H t = .ok (v, H') →
      Blank H₀ prop H' ∧ (¬ H₀.Defined prop t → v = .none)) :
    ∀ (ts : List Nat) (H : Heap) (res : Option Value) (H' : Heap), (∀ t ∈ ts, ¬ H₀.Defined prop t) → Blank H₀ prop H →
      walkTemplates recurse x prop ts H = .ok (res, H') → res = none ∧ Blank H₀ prop H'
  | [], H, res, H', _, hI, h => by cases h; exact ⟨rfl, hI⟩
  | t :: ts, H, res, H', hts, hI, h => by
    unfold walkTemplates at h
    cases hr : recurse H t with
    | error e => rw [hr] at h; cases h
    | ok p =>
      obtain ⟨v, H₁⟩ := p
      obtain ⟨h1, hv⟩ := hrec H t v H₁ hI hr
      have hvoid := hv (hts t List.mem_cons_self)
      subst hvoid
      simp only [hr, bind, Except.bind] at h
      exact walkTemplates_blank hrec ts H₁ res H' (fun t ht => hts t (List.mem_cons_of_mem _ ht)) h1 h

theorem getProperty_blank : ∀ (n : Nat) (H : Heap) (x : Nat) (v : Value) (H' : Heap), Blank H₀ prop H →
    getPropertyByInheritance prop n H x = .ok (v, H') → Blank H₀ prop H' ∧ (¬ H₀.Defined prop x → v = .none)
  | 0, _, _, _, _, _, h => by cases h
  | n + 1, H, x, v, H', hI, h => by
    unfold getPropertyByInheritance at h
    by_cases hp : prop = "register"
    · rw [if_pos hp] at h; cases h; exact ⟨hI, fun _ => rfl⟩
    · rw [if_neg hp] at h
      cases ha : (H x).attr prop with
      | some w =>
        simp only [ha] at h
        have hdef : H₀.Defined prop x := by
          by_contra hn
          rw [(hI.blank x hn).1] at ha
          cases ha
        by_cases hpl : (H x).hasPlus prop = true
        · rw [if_pos hpl] at h; cases h
        · rw [if_neg hpl] at h; cases h; exact ⟨hI, fun hn => absurd hdef hn⟩
      | none =>
        simp only [ha] at h
        cases hw : walkTemplates (getPropertyByInheritance prop n) x prop (H x).templates H with
        | error e => rw [hw] at h; cases h
        | ok p =>
          obtain ⟨res, H₁⟩ := p
          simp only [hw, bind, Except.bind] at h
          by_cases hdef : H₀.Defined prop x
          · -- only an object that has the property changes
            have hset : ∀ H o, Blank H₀ prop H → Sets prop (H x) o → Blank H₀ prop (H.set x o) :=
              fun H o hB ho => hB.set ho.templates fun hn => absurd hdef hn
            have h1 := walkTemplates_keeps hset
              (fun H t v H' hB hr => (getProperty_blank n H t v H' hB hr).1) _ _ _ _ hI hw
            refine ⟨?_, fun hn => absurd hdef hn⟩
            cases res with
            | some w => cases h; exact h1
            | none => exact endOfTemplates_keeps hset h1 h
          · obtain ⟨hres, h1⟩ := walkTemplates_blank (getProperty_blank n) _ _ _ _
              (fun t ht => (fun ⟨y, hy, hd⟩ => hdef ⟨y, ReflTransGen.head (hI.templates x ▸ ht) hy, hd⟩)) hI hw
            subst hres
            obtain ⟨hattr, hplus⟩ := h1.blank x hdef
            simp only [endOfTemplates, hplus, hattr] at h
            cases h
            exact ⟨h1, fun _ => rfl⟩

theorem inheritProperty_blank {n : Nat} (hI : Blank H₀ prop H) (h : inheritProperty n prop H x = .ok H') :
    Blank H₀ prop H' := by
  obtain ⟨v, H₁, hr, rfl | ⟨-, rfl⟩⟩ := inheritProperty_calls h
  · exact (getProperty_blank n H x v _ hI hr).1
  · have h1 := (getProperty_blank n H x v H₁ hI hr).1
    refine h1.set rfl fun hn => ⟨Function.update_self .., (h1.blank x hn).2⟩

end

end Heap

namespace Items

section
variable {S S' : Items} {n : Nat} {prop : String} {x : Nat}

theorem applyInheritance_blank (h : S.applyInheritance n = .ok S') (hx : ¬ Heap.Defined S.obj prop x) :
    (S'.obj x).attr prop = none := by
  obtain ⟨S₁, hpass, -, -, -, hcustoms⟩ := applyInheritance_shape h
  have h1 : Heap.Blank S.obj prop S₁.obj := by
    refine foldlM_of_ok (I := fun S₂ => Heap.Blank S.obj prop S₂.obj) hpass (fun q _ S₂ S₃ h3 h₂ => ?_)
      (Heap.Blank.start S.obj prop)
    obtain ⟨-, hfold⟩ := applyPartial_shape h3
    refine foldlM_of_ok hfold (fun y _ H H' hH hI => ?_) h₂
    by_cases hq : prop = q
    · subst hq
      exact Heap.inheritProperty_blank hI hH
    · exact Heap.inheritProperty_keeps (Heap.Blank.set_other hq) hI hH
  -- the custom variables are not attributes
  have h2 : ∀ y, (S'.obj y).attr = (S₁.obj y).attr := by
    refine foldlM_of_ok (I := fun H : Heap => ∀ y, (H y).attr = (S₁.obj y).attr) hcustoms (fun y _ H H' hH hI => ?_)
      fun _ => rfl
    exact Heap.getCustoms_keeps (I := fun H : Heap => ∀ y, (H y).attr = (S₁.obj y).attr)
      (fun _ _ _ ho hI w => (ho.only.attr w).trans (hI w)) n H y H' hI hH
  rw [h2, (h1.blank x hx).1]

end

/-! ## Implicit inheritance -/

theorem implicitInheritance_attr (hosts : Hosts) (order : SpecialOrder) (S : Items) {x : Nat} (hx : x ∈ S.items)
    {prop : String} (hp : prop ∈ specialProperties) :
    ((S.implicitInheritance hosts order.props).obj x).attr prop = (S.obj x).implicitValue hosts prop := by
  have hn : "host_name" ∉ order.props := by
    rw [order.mem]
    decide
  change (Heap.inheritFromHosts hosts order.props S.items S.obj x).attr prop = _
  rw [Heap.inheritFromHosts_apply hx hn, Item.foldl_inherit_attr hn (order.mem.mpr hp)]

/-- The value left by template inheritance is kept where the property is
defined, and the host's value is given where it is not. -/
structure Rightly (hosts : Hosts) (S S' final : Items) (x : Nat) (prop : String) : Prop where
  kept : Heap.Defined S.obj prop x → (final.obj x).attr prop = (S'.obj x).attr prop
  given : ¬ Heap.Defined S.obj prop x → (final.obj x).attr prop = (S'.obj x).hostValue hosts prop

/-- A value that is empty or zero is not one that the host would replace. -/
def NotReplaced (hosts : Hosts) (o : Item) (prop : String) : Prop :=
  o.unset prop = true → o.hostValue hosts prop = none ∨ o.hostValue hosts prop = o.attr prop

theorem notReplaced_iff {hosts : Hosts} {o : Item} {prop : String} :
    NotReplaced hosts o prop ↔ o.implicitValue hosts prop = o.attr prop := by
  unfold NotReplaced Item.implicitValue
  cases hu : o.unset prop with
  | false => simp
  | true =>
    cases hv : o.hostValue hosts prop with
    | none => simp
    | some w => simp

section
variable {S S' : Items} {n : Nat}

theorem rightly_iff (hosts : Hosts) (order : SpecialOrder) (h : S.applyInheritance n = .ok S') {x : Nat}
    (hx : x ∈ S'.items) {prop : String} (hp : prop ∈ specialProperties) :
    Rightly hosts S S' (S'.implicitInheritance hosts order.props) x prop ↔
      (Heap.Defined S.obj prop x → NotReplaced hosts (S'.obj x) prop) := by
  have hfinal := implicitInheritance_attr hosts order S' hx hp
  constructor
  · intro hr hd
    rw [notReplaced_iff, ← hfinal]
    exact hr.kept hd
  · intro hcond
    refine ⟨fun hd => ?_, fun hd => ?_⟩
    · rw [hfinal]
      exact notReplaced_iff.mp (hcond hd)
    · have hnone := applyInheritance_blank h hd
      have hunset : (S'.obj x).unset prop = true := by
        unfold Item.unset
        rw [hnone]
        rfl
      rw [hfinal, Item.implicitValue, if_pos hunset, hnone, Option.or_none]

/-- The host's value is given exactly where the property is not defined, if no
service has an empty or zero value that its host replaces. -/
theorem implicit_inheritance_right (hosts : Hosts) (order : SpecialOrder) (h : S.applyInheritance n = .ok S') :
    (∀ x ∈ S'.items, ∀ prop ∈ specialProperties,
        Rightly hosts S S' (S'.implicitInheritance hosts order.props) x prop) ↔
      ∀ x ∈ S'.items, ∀ prop ∈ specialProperties, Heap.Defined S.obj prop x → NotReplaced hosts (S'.obj x) prop := by
  constructor
  · intro hall x hx prop hp
    exact (rightly_iff hosts order h hx hp).mp (hall x hx prop hp)
  · intro hall x hx prop hp
    exact (rightly_iff hosts order h hx hp).mpr (hall x hx prop hp)

end

/-! ## A zero interval -/

def plainItem (attrs : List (String × Value)) : Item where
  isATemplate := false
  getName := ""
  importedFrom := ""
  use := []
  templates := []
  tags := []
  attr := fun prop => attrs.lookup prop
  plus := Dict.empty
  customs := Dict.empty
  configurationWarnings := []

/-- A service on the host `h`, with an interval. -/
def serviceWith (interval : Int) : Items where
  myType := "service"
  properties := ["notification_interval"]
  items := [0]
  templates := []
  obj := fun _ => plainItem [("host_name", .str "h"), ("notification_interval", .num interval)]
  nameToTemplate := fun _ => none
  confIsCorrect := true
  configurationErrors := []

def hostWith (interval : Int) : Hosts where
  nameToItem := Dict.empty.set "h" 0
  obj := fun _ => plainItem [("notification_interval", .num interval)]

theorem serviceWith_inherits (interval : Int) : ∃ S', (serviceWith interval).applyInheritance 1 = .ok S' ∧
    S'.items = [0] ∧ (S'.obj 0).attr = ((serviceWith interval).obj 0).attr :=
  ⟨_, rfl, rfl, rfl⟩

theorem implicitValue_congr {o o' : Item} (h : o'.attr = o.attr) (hosts : Hosts) (prop : String) :
    o'.implicitValue hosts prop = o.implicitValue hosts prop := by
  unfold Item.implicitValue Item.unset Item.hostValue Item.hostName
  rw [h]

theorem interval_kept : ∃ S', (serviceWith 30).applyInheritance 1 = .ok S' ∧
    ∀ x ∈ S'.items, ∀ prop ∈ specialProperties,
      Rightly (hostWith 60) (serviceWith 30) S' (S'.applyImplicitInheritance (hostWith 60)) x prop := by
  obtain ⟨S', hok, hitems, hattr⟩ := serviceWith_inherits 30
  refine ⟨S', hok, (implicit_inheritance_right (hostWith 60) SpecialOrder.source hok).mpr ?_⟩
  have hset : ∀ prop ∈ specialProperties,
      ((serviceWith 30).obj 0).implicitValue (hostWith 60) prop = ((serviceWith 30).obj 0).attr prop := by decide
  intro x hx prop hp _
  have hx0 : x = 0 := by simpa [hitems] using hx
  rw [notReplaced_iff, hx0, implicitValue_congr hattr, hattr]
  exact hset prop hp

/-- A service that never notifies again gets the interval of its host. -/
theorem zero_interval_replaced : ¬ ∀ (S S' : Items) (n : Nat) (hosts : Hosts) (order : SpecialOrder),
    S.applyInheritance n = .ok S' → ∀ x ∈ S'.items, ∀ prop ∈ specialProperties,
      Rightly hosts S S' (S'.implicitInheritance hosts order.props) x prop := by
  intro hall
  obtain ⟨S', hok, hitems, hattr⟩ := serviceWith_inherits 0
  have hx : 0 ∈ S'.items := by rw [hitems]; exact List.mem_singleton_self 0
  have hp : "notification_interval" ∈ specialProperties := by decide
  have hright := hall (serviceWith 0) S' 1 (hostWith 60) SpecialOrder.source hok 0 hx "notification_interval" hp
  have hdef : Heap.Defined (serviceWith 0).obj "notification_interval" 0 :=
    ⟨0, ReflTransGen.refl, Or.inl (by decide)⟩
  have hkept := hright.kept hdef
  rw [implicitInheritance_attr (hostWith 60) SpecialOrder.source S' hx hp, implicitValue_congr hattr, hattr] at hkept
  revert hkept
  decide

end Items

end Alignak
