import Alignak.NullValues
import Alignak.Termination

/-!
# What the inheritance gives

`resolves_iff`: each object ends with its reference values, whatever the order
in which items and templates are stored, exactly where the `null` values are
harmless and only properties have a `+` value.
-/

namespace Alignak

open Relation

namespace Items

/-- The objects are linked without a cycle, the values of a property are of one
kind, and a custom variable is not a property with a `+` value. -/
structure WellFormed (S : Items) : Prop where
  nodup : (S.items ++ S.templates).Nodup
  links : ∀ x, ∀ t ∈ (S.obj x).templates, t ∈ S.templates
  acyclic : Acyclic fun x t => t ∈ (S.obj x).templates
  properties : S.properties.Nodup
  kind : ∀ prop ∈ S.properties, ∃ k : Kind, (∀ x, k.Fits (S.obj x) prop) ∧ Heap.RegisterOk S.obj prop k
  customs : ∀ key, (∀ x, (S.obj x).plus.get? key = none) ∨ ∀ x, (S.obj x).customs.get? key = none
  outside : ∀ x ∉ S.items ++ S.templates, ∀ key, (S.obj x).plus.get? key = none

/-! ## The reference -/

def inherited (S : Items) (prop : String) (x : Nat) : Value := Heap.refValue S.obj prop (S.templates.length + 1) x

/-- The configuration writes `null`: a list property reads it as a list. -/
def isNull (v : Value) : Prop := v = .str "null" ∨ v = .list ["null"]

instance (v : Value) : Decidable (isNull v) := by unfold isNull; infer_instance

def resolve (S : Items) (prop : String) (x : Nat) : Option Value :=
  match (S.obj x).attr prop with
  | some v => if isNull v then none else some v
  | none => if S.inherited prop x = .none ∨ isNull (S.inherited prop x) then none else some (S.inherited prop x)

def resolveCustom (S : Items) (key : String) (x : Nat) : Option Value :=
  Heap.refCustom S.obj key (S.templates.length + 1) x

def stored (S : Items) (items templates : List Nat) : Items := { S with items := items, templates := templates }

/-- Whatever the order of the objects, each gets its reference values. -/
def Resolves (S : Items) : Prop :=
  ∀ items templates : List Nat, items.Perm S.items → templates.Perm S.templates →
    ∃ S', (S.stored items templates).applyInheritance (S.templates.length + 1) = .ok S' ∧ ∀ x ∈ S.items ++ S.templates,
      (∀ prop ∈ S.properties, (S'.obj x).attr prop = S.resolve prop x) ∧
      ∀ key, (S'.obj x).customs.get? key = S.resolveCustom key x

/-! ## The condition -/

def NullHarmless (S : Items) : Prop :=
  ∀ prop ∈ S.properties, Heap.NullHarmless S.obj (fun _ => S.templates.length) prop S.items S.templates

/-- No value of a list property is `null`. -/
def NoNullList (S : Items) : Prop :=
  ∀ prop ∈ S.properties, ∀ x ∈ S.items ++ S.templates, (S.obj x).attr prop ≠ some (.list ["null"]) ∧
    ((S.obj x).attr prop = none → S.inherited prop x ≠ .list ["null"])

instance (S : Items) : Decidable S.NoNullList := by unfold NoNullList; infer_instance

/-- Only a property has a `+` value: under another name it becomes a custom variable. -/
def PlusDeclared (S : Items) : Prop := ∀ x key, (S.obj x).plus.get? key ≠ none → key ∈ S.properties

end Items

namespace Heap

/-! ## One property -/

/-- The objects agree on what the walk over a property reads. -/
structure SameOn (prop : String) (o o' : Item) : Prop where
  isATemplate : o'.isATemplate = o.isATemplate
  templates : o'.templates = o.templates
  attr : o'.attr prop = o.attr prop
  plus : o'.plus.get? prop = o.plus.get? prop

def SameFor (prop : String) (H H' : Heap) : Prop := ∀ x, SameOn prop (H x) (H' x)

section
variable {prop key : String} {o o' o'' : Item}

theorem SameOn.refl (o : Item) : SameOn prop o o := ⟨rfl, rfl, rfl, rfl⟩

theorem SameOn.symm (h : SameOn prop o o') : SameOn prop o' o :=
  ⟨h.isATemplate.symm, h.templates.symm, h.attr.symm, h.plus.symm⟩

theorem SameOn.trans (h : SameOn prop o o') (h' : SameOn prop o' o'') : SameOn prop o o'' :=
  ⟨h'.isATemplate.trans h.isATemplate, h'.templates.trans h.templates, h'.attr.trans h.attr, h'.plus.trans h.plus⟩

theorem SameBut.sameOn (h : SameBut prop o o') (hne : key ≠ prop) : SameOn key o o' :=
  ⟨h.isATemplate, h.templates, (h.other key hne).1, (h.other key hne).2⟩

theorem SameOn.setAttr (h : SameOn prop o o') (v : Value) : SameOn prop (o.setAttr prop v) (o'.setAttr prop v) :=
  ⟨h.isATemplate, h.templates, by simp, h.plus⟩

theorem SameOn.delAttr (h : SameOn prop o o') : SameOn prop (o.delAttr prop) (o'.delAttr prop) :=
  ⟨h.isATemplate, h.templates, by simp [Item.delAttr], h.plus⟩

theorem SameOn.delPlus (h : SameOn prop o o') : SameOn prop (o.delPlus prop) (o'.delPlus prop) :=
  ⟨h.isATemplate, h.templates, h.attr, by simp only [Item.delPlus, Dict.get?_erase_self]⟩

theorem SameOn.clean (h : SameOn prop o o') (v : Value) : o'.clean v = o.clean v := by
  unfold Item.clean Item.cleanList
  rw [h.isATemplate]

theorem SameOn.markPlus (h : SameOn prop o o') (l : List String) : o'.markPlus l = o.markPlus l := by
  unfold Item.markPlus
  rw [h.isATemplate]

theorem SameOn.mergeValue (h : SameOn prop o o') (v : Value) : mergeValue o' prop v = mergeValue o prop v := by
  unfold Heap.mergeValue
  simp only [h.attr, h.isATemplate, h.clean]

theorem SameOn.addPlus (h : SameOn prop o o') (v : Value) (pl : List String) : addPlus o' v pl = addPlus o v pl := by
  unfold Heap.addPlus
  simp only [h.isATemplate, h.clean, h.markPlus]

end

section
variable {prop : String} {H H' H'' H₁ : Heap} {x n : Nat} {v : Value}

theorem SameFor.symm (h : SameFor prop H H') : SameFor prop H' H := fun x => (h x).symm

theorem SameFor.trans (h : SameFor prop H H') (h' : SameFor prop H' H'') : SameFor prop H H'' := fun x => (h x).trans (h' x)

theorem SameFor.set {o o' : Item} (h : SameFor prop H H') (ho : SameOn prop o o') : SameFor prop (H.set x o) (H'.set x o') := by
  intro y
  by_cases hy : y = x
  · rw [hy, set_self, set_self]; exact ho
  · rw [set_ne o hy, set_ne o' hy]; exact h y

theorem walkTemplates_sameFor {recurse : Heap → Nat → Except Exn (Value × Heap)}
    (hrec : ∀ (H H' : Heap) (t : Nat) (v : Value) (H₁ : Heap), SameFor prop H H' → recurse H t = .ok (v, H₁) →
      ∃ H₁', recurse H' t = .ok (v, H₁') ∧ SameFor prop H₁ H₁') :
    ∀ (ts : List Nat) {H H' : Heap} {res : Option Value} {H₁ : Heap}, SameFor prop H H' →
      walkTemplates recurse x prop ts H = .ok (res, H₁) →
      ∃ H₁', walkTemplates recurse x prop ts H' = .ok (res, H₁') ∧ SameFor prop H₁ H₁'
  | [], H, H', res, H₁, h, hr => by
    cases hr
    exact ⟨H', rfl, h⟩
  | t :: ts, H, H', res, H₁, h, hr => by
    unfold walkTemplates at hr ⊢
    cases h1 : recurse H t with
    | error e => rw [h1] at hr; cases hr
    | ok p =>
      obtain ⟨v, H₂⟩ := p
      obtain ⟨H₂', h2, hs⟩ := hrec H H' t v H₂ h h1
      simp only [h1, h2, bind, Except.bind] at hr ⊢
      by_cases hv : v.isVoid = true
      · rw [if_pos hv] at hr ⊢
        exact walkTemplates_sameFor hrec ts hs hr
      · rw [if_neg hv] at hr ⊢
        rw [(hs x).mergeValue]
        cases hm : mergeValue (H₂ x) prop v with
        | error e => rw [hm] at hr; cases hr
        | ok w =>
          have hset : SameFor prop (H₂.set x ((H₂ x).setAttr prop w)) (H₂'.set x ((H₂' x).setAttr prop w)) :=
            hs.set ((hs x).setAttr w)
          simp only [hm] at hr ⊢
          by_cases ha : v.isAdditive = true
          · rw [if_pos ha] at hr ⊢
            exact walkTemplates_sameFor hrec ts hset hr
          · rw [if_neg ha] at hr ⊢
            rw [(hset x).plus]
            cases hp : ((H₂.set x ((H₂ x).setAttr prop w)) x).plus.get? prop with
            | none =>
              simp only [hp] at hr ⊢
              cases hr
              exact ⟨_, rfl, hset⟩
            | some pl =>
              simp only [hp] at hr ⊢
              rw [(hset x).addPlus]
              cases hadd : addPlus ((H₂.set x ((H₂ x).setAttr prop w)) x) w pl with
              | error e => rw [hadd] at hr; cases hr
              | ok w' =>
                rw [hadd] at hr
                cases hr
                exact ⟨_, rfl, hset.set ((hset x).delPlus.setAttr w')⟩

theorem endOfTemplates_sameFor (h : SameFor prop H H') (hr : endOfTemplates H x prop = .ok (v, H₁)) :
    ∃ H₁', endOfTemplates H' x prop = .ok (v, H₁') ∧ SameFor prop H₁ H₁' := by
  unfold endOfTemplates at hr ⊢
  simp only at hr ⊢
  rw [(h x).plus, (h x).attr]
  cases hp : (H x).plus.get? prop with
  | none =>
    rw [hp] at hr
    cases hr
    exact ⟨H', rfl, h⟩
  | some pl =>
    rw [hp] at hr
    simp only at hr ⊢
    cases hl : (((H x).attr prop).getD (.list [])).toList with
    | error e => rw [hl] at hr; cases hr
    | ok l =>
      rw [hl] at hr
      cases hr
      simp only [bind, Except.bind, (h x).clean, (h x).markPlus]
      exact ⟨_, rfl, h.set ((h x).delPlus.setAttr _)⟩

theorem getProperty_sameFor : ∀ (n : Nat) {H H' : Heap} {x : Nat} {v : Value} {H₁ : Heap}, SameFor prop H H' →
    getPropertyByInheritance prop n H x = .ok (v, H₁) →
    ∃ H₁', getPropertyByInheritance prop n H' x = .ok (v, H₁') ∧ SameFor prop H₁ H₁'
  | 0, _, _, _, _, _, _, hr => by cases hr
  | n + 1, H, H', x, v, H₁, h, hr => by
    unfold getPropertyByInheritance at hr ⊢
    by_cases hreg : prop = "register"
    · rw [if_pos hreg] at hr ⊢
      cases hr
      exact ⟨H', rfl, h⟩
    · rw [if_neg hreg] at hr ⊢
      rw [(h x).attr, (h x).templates]
      cases ha : (H x).attr prop with
      | some w =>
        have hplus : (H' x).hasPlus prop = (H x).hasPlus prop := by
          unfold Item.hasPlus Dict.contains
          rw [(h x).plus]
        rw [ha] at hr
        simp only [hplus, (h x).clean] at hr ⊢
        by_cases hp : (H x).hasPlus prop = true
        · rw [if_pos hp] at hr; cases hr
        · rw [if_neg hp] at hr ⊢
          cases hr
          exact ⟨H', rfl, h⟩
      | none =>
        rw [ha] at hr
        simp only at hr ⊢
        cases hw : walkTemplates (getPropertyByInheritance prop n) x prop (H x).templates H with
        | error e => rw [hw] at hr; cases hr
        | ok p =>
          obtain ⟨res, H₂⟩ := p
          obtain ⟨H₂', hw', hs⟩ := walkTemplates_sameFor (fun _ _ t _ _ h hr => getProperty_sameFor (x := t) n h hr) _ h hw
          simp only [hw, hw', bind, Except.bind] at hr ⊢
          cases res with
          | some w =>
            cases hr
            exact ⟨H₂', rfl, hs⟩
          | none => exact endOfTemplates_sameFor hs hr

/-- The turns of a property read and write nothing else. -/
theorem inheritProperty_sameFor (h : SameFor prop H H') (hr : inheritProperty n prop H x = .ok H₁) :
    ∃ H₁', inheritProperty n prop H' x = .ok H₁' ∧ SameFor prop H₁ H₁' := by
  unfold inheritProperty at hr ⊢
  cases h1 : getPropertyByInheritance prop n H x with
  | error e => rw [h1] at hr; cases hr
  | ok p =>
    obtain ⟨v, H₂⟩ := p
    obtain ⟨H₂', h2, hs⟩ := getProperty_sameFor n h h1
    simp only [h1, h2, bind, Except.bind, (hs x).attr] at hr ⊢
    by_cases hnull : (H₂ x).attr prop = some (.str "null")
    · rw [if_pos hnull] at hr ⊢
      cases hr
      exact ⟨_, rfl, hs.set (hs x).delAttr⟩
    · rw [if_neg hnull] at hr ⊢
      cases hr
      exact ⟨H₂', rfl, hs⟩

theorem foldInherit_sameFor : ∀ {xs : List Nat} {H H' H₁ : Heap}, SameFor prop H H' →
    xs.foldlM (inheritProperty n prop) H = .ok H₁ →
    ∃ H₁', xs.foldlM (inheritProperty n prop) H' = .ok H₁' ∧ SameFor prop H₁ H₁'
  | [], H, H', H₁, h, hr => by
    cases hr
    exact ⟨H', rfl, h⟩
  | x :: xs, H, H', H₁, h, hr => by
    rw [List.foldlM_cons] at hr
    cases h1 : inheritProperty n prop H x with
    | error e => rw [h1] at hr; cases hr
    | ok H₂ =>
      rw [h1] at hr
      obtain ⟨H₂', h2, hs⟩ := inheritProperty_sameFor h h1
      obtain ⟨H₁', h3, hs'⟩ := foldInherit_sameFor hs hr
      exact ⟨H₁', by rw [List.foldlM_cons, h2]; exact h3, hs'⟩

theorem refCustom_none {key : String} (h : ∀ x, (H x).customs.get? key = none) : ∀ n x, H.refCustom key n x = none
  | 0, _ => rfl
  | n + 1, x => by
    unfold refCustom
    rw [h, Option.none_or, List.findSome?_eq_none_iff]
    exact fun t _ => refCustom_none h n t

/-- A `+` value that is left becomes a custom variable. -/
theorem foldGetCustoms_has {y : Nat} {key : String} : ∀ {xs : List Nat} {H H' : Heap}, Has key (H y) →
    y ∈ xs ∨ (H y).plus.get? key = none → xs.foldlM (getCustomsPropertiesByInheritance n) H = .ok H' →
    (H' y).customs.get? key ≠ none
  | [], H, H', hh, hy, h => by
    cases h
    exact hh.resolve_left fun hne => hne (hy.resolve_left List.not_mem_nil)
  | x :: xs, H, H', hh, hy, h => by
    rw [List.foldlM_cons] at h
    cases hr : getCustomsPropertiesByInheritance n H x with
    | error e => rw [hr] at h; cases h
    | ok H₁ =>
      rw [hr] at h
      have hh1 : Has key (H₁ y) := by
        refine getCustoms_keeps (I := fun H : Heap => Has key (H y)) (fun H H' z ho hI => ?_) n H x H₁ hh hr
        by_cases hz : y = z
        · subst hz; exact ho.has key hI
        · rw [ho.other y hz]; exact hI
      refine foldGetCustoms_has hh1 ?_ h
      have hlost : (H y).plus.get? key = none → (H₁ y).plus.get? key = none := fun hp =>
        getCustoms_keeps (I := fun H : Heap => (H y).plus.get? key = none) (fun _ _ _ ho => ho.only.plus y key) n H x H₁ hp hr
      rcases hy with hy | hy
      · rcases List.mem_cons.mp hy with rfl | hy
        · refine Or.inr ?_
          cases n with
          | zero => cases hr
          | succ n =>
            obtain ⟨H₂, H₃, -, -, rfl⟩ := getCustoms_turns hr
            rw [set_self]
            rfl
        · exact Or.inl hy
      · exact Or.inr (hlost hy)

theorem registerFold (hreg : ∀ x, (H x).attr "register" ≠ some null) : ∀ xs : List Nat,
    xs.foldlM (inheritProperty (n + 1) "register") H = .ok H
  | [] => rfl
  | x :: xs => by
    have hone : inheritProperty (n + 1) "register" H x = .ok H := by
      unfold inheritProperty getPropertyByInheritance
      exact if_neg (hreg x)
    rw [List.foldlM_cons, hone]
    exact registerFold hreg xs

theorem finalAttr_register {rank : Nat → Nat} (hreg : ∀ x, (H x).attr "register" ≠ some null) :
    H.finalAttr rank "register" x = (H x).attr "register" := by
  cases ha : (H x).attr "register" with
  | some v =>
    have hv : v ≠ null := fun e => hreg x (by rw [ha, e])
    rw [finalAttr_own ha, if_neg hv]
  | none => rw [finalAttr_inherited ha, if_pos (Or.inl (ref_register x))]

/-- The condition is one on the reference values and on the sets of the objects. -/
theorem NullHarmless.congr {rank rank' : Nat → Nat} {items items' templates templates' : List Nat}
    (h : NullHarmless H rank prop items templates) (heq : ∀ x, H.ref rank prop x = H.ref rank' prop x)
    (hi : items'.Perm items) (ht : templates'.Perm templates) : NullHarmless H rank' prop items' templates' := by
  have hknown : ∀ x, Known H rank prop items x ↔ Known H rank' prop items' x := by
    intro x
    unfold Known Reads
    rw [funext heq]
    simp only [hi.mem_iff]
  intro y hy hk hnull
  obtain ⟨h1, h2⟩ := h y (ht.mem_iff.mp hy) (fun hk' => hk ((hknown y).mp hk')) ((heq y).trans hnull)
  exact ⟨fun w hw => by rw [← heq]; exact h1 w hw, fun s hs hks hsn => h2 s hs ((hknown s).mpr hks) ((heq s).trans hsn)⟩

end

end Heap

namespace Items

open Heap

/-! ## The passes one by one -/

section
variable {S S' S₁ S₂ : Items} {n : Nat} {todo : List String} {prop key : String} {x : Nat}

/-- Each property of `todo` got what its own pass over the first objects gives. -/
structure Passed (n : Nat) (todo : List String) (S₁ S₂ : Items) : Prop where
  items : S₂.items = S₁.items
  templates : S₂.templates = S₁.templates
  done : ∀ prop ∈ todo, ∃ H, (S₁.items ++ S₁.templates).foldlM (inheritProperty n prop) S₁.obj = .ok H ∧ SameFor prop H S₂.obj
  other : ∀ key, key ∉ todo → SameFor key S₁.obj S₂.obj
  links : ∀ x, (S₂.obj x).templates = (S₁.obj x).templates
  customs : ∀ x, (S₂.obj x).customs = (S₁.obj x).customs

theorem passes_of_ok : ∀ {todo : List String} {S₁ S₂ : Items}, todo.Nodup →
    todo.foldlM (applyPartialInheritance n) S₁ = .ok S₂ → Passed n todo S₁ S₂
  | [], S₁, S₂, _, hr => by
    cases hr
    exact ⟨rfl, rfl, fun _ h => absurd h List.not_mem_nil, fun _ _ _ => SameOn.refl _, fun _ => rfl, fun _ => rfl⟩
  | prop :: todo, S₁, S₂, hnd, hr => by
    rw [List.nodup_cons] at hnd
    rw [List.foldlM_cons] at hr
    cases h1 : applyPartialInheritance n S₁ prop with
    | error e => rw [h1] at hr; cases hr
    | ok S =>
      rw [h1] at hr
      obtain ⟨hshape, hH⟩ := applyPartial_shape h1
      have hrest := passes_of_ok hnd.2 hr
      have hsame : ∀ x, SameBut prop (S₁.obj x) (S.obj x) := (foldInherit_kept hH).1
      have hkey : ∀ {key}, key ≠ prop → SameFor key S₁.obj S.obj := fun hne x => (hsame x).sameOn hne
      refine ⟨hrest.items.trans hshape.items, hrest.templates.trans hshape.templates, fun q hq => ?_, fun key hk => ?_,
        fun x => (hrest.links x).trans (hsame x).templates, fun x => (hrest.customs x).trans (hsame x).customs⟩
      · rcases List.mem_cons.mp hq with rfl | hq
        · exact ⟨S.obj, hH, hrest.other q hnd.1⟩
        · obtain ⟨H₁, hr1, hs1⟩ := hrest.done q hq
          rw [hshape.items, hshape.templates] at hr1
          obtain ⟨H₂, hr2, hs2⟩ := foldInherit_sameFor (hkey fun e => hnd.1 (e ▸ hq)).symm hr1
          exact ⟨H₂, hr2, hs2.symm.trans hs1⟩
      · rw [List.mem_cons, not_or] at hk
        exact (hkey hk.1).trans (hrest.other key hk.2)

theorem passes_ok : ∀ {todo : List String} {S₁ : Items}, todo.Nodup →
    (∀ prop ∈ todo, ∃ H, (S₁.items ++ S₁.templates).foldlM (inheritProperty n prop) S₁.obj = .ok H) →
    ∃ S₂, todo.foldlM (applyPartialInheritance n) S₁ = .ok S₂
  | [], S₁, _, _ => ⟨S₁, rfl⟩
  | prop :: todo, S₁, hnd, h => by
    rw [List.nodup_cons] at hnd
    obtain ⟨H, hH⟩ := h prop List.mem_cons_self
    have hrest : ∀ q ∈ todo, ∃ H', (S₁.items ++ S₁.templates).foldlM (inheritProperty n q) H = .ok H' := by
      intro q hq
      obtain ⟨H₁, hr1⟩ := h q (List.mem_cons_of_mem _ hq)
      have hsame : SameFor q S₁.obj H := fun x => ((foldInherit_kept hH).1 x).sameOn fun e => hnd.1 (e ▸ hq)
      obtain ⟨H₂, hr2, -⟩ := foldInherit_sameFor hsame hr1
      exact ⟨H₂, hr2⟩
    obtain ⟨S₂, hr⟩ := @passes_ok todo { S₁ with obj := H } hnd.2 hrest
    exact ⟨S₂, by rw [List.foldlM_cons, applyPartial_eq hH]; exact hr⟩

theorem Passed.plus_none (h : Passed n todo S₁ S₂) (hx : (S₁.obj x).plus.get? key = none) :
    (S₂.obj x).plus.get? key = none := by
  by_cases hk : key ∈ todo
  · obtain ⟨H, hH, hs⟩ := h.done key hk
    exact (hs x).plus.trans ((foldInherit_kept hH).2.1 x hx)
  · exact (h.other key hk x).plus.trans hx

end

/-! ## The condition is enough, and needed -/

section
variable {S : Items} {rank : Nat → Nat} {prop : String} {x : Nat} {items templates : List Nat}

theorem exists_linkRank (hS : S.WellFormed) :
    ∃ rank : Nat → Nat, (∀ x, ∀ t ∈ (S.obj x).templates, rank t < rank x) ∧ ∀ x, rank x < S.templates.length + 1 := by
  obtain ⟨rank, h1, h2⟩ := exists_rank S.templates hS.links hS.acyclic
  exact ⟨rank, fun x t h => h1 x t h, fun x => Nat.lt_succ_of_le (h2 x)⟩

variable (hS : S.WellFormed) (hrank : ∀ x, ∀ t ∈ (S.obj x).templates, rank t < rank x)
  (hb : ∀ x, rank x < S.templates.length + 1)

include hrank hb in
theorem inherited_eq (prop : String) (x : Nat) : S.inherited prop x = Heap.ref S.obj rank prop x :=
  refValue_stable hrank _ _ x (hb x) (Nat.lt_succ_self _)

include hrank hb in
theorem resolveCustom_eq (key : String) (x : Nat) : S.resolveCustom key x = Heap.custom S.obj rank key x :=
  refCustom_stable hrank _ _ x (hb x) (Nat.lt_succ_self _)

theorem isNull_iff {v : Value} (h : v ≠ .list ["null"]) : isNull v ↔ v = null := ⟨fun hv => hv.resolve_right h, Or.inl⟩

include hrank hb in
/-- Where the value is no `null` list, `null` is deleted as it should be. -/
theorem finalAttr_eq (ha : (S.obj x).attr prop ≠ some (.list ["null"]))
    (hi : (S.obj x).attr prop = none → S.inherited prop x ≠ .list ["null"]) :
    Heap.finalAttr S.obj rank prop x = S.resolve prop x := by
  unfold resolve
  cases hown : (S.obj x).attr prop with
  | some v =>
    have hv : isNull v ↔ v = null := isNull_iff fun e => ha (by rw [hown, e])
    rw [finalAttr_own hown]
    simp only [hv]
  | none =>
    have hv := isNull_iff (hi hown)
    rw [finalAttr_inherited hown, ← inherited_eq hrank hb]
    simp only [hv]

include hrank hb in
theorem noNull_of_finalAttr (h : Heap.finalAttr S.obj rank prop x = S.resolve prop x) :
    (S.obj x).attr prop ≠ some (.list ["null"]) ∧ ((S.obj x).attr prop = none → S.inherited prop x ≠ .list ["null"]) := by
  have hnull : isNull (.list ["null"]) := Or.inr rfl
  unfold resolve at h
  refine ⟨fun hown => ?_, fun hown hi => ?_⟩
  · rw [finalAttr_own hown, hown, if_neg Value.noConfusion] at h
    simp only [if_pos hnull] at h
    cases h
  · rw [finalAttr_inherited hown, ← inherited_eq hrank hb, hown, hi, if_neg fun h => h.elim Value.noConfusion Value.noConfusion] at h
    simp only [if_pos (Or.inr hnull)] at h
    cases h

/-- No scalar value is a list. -/
theorem scalar_noNull (hf : ∀ x, Kind.scalar.Fits (S.obj x) prop) (hrank : ∀ x, ∀ t ∈ (S.obj x).templates, rank t < rank x)
    (hb : ∀ x, rank x < S.templates.length + 1) (x : Nat) :
    (S.obj x).attr prop ≠ some (.list ["null"]) ∧ ((S.obj x).attr prop = none → S.inherited prop x ≠ .list ["null"]) := by
  have hlist : ∀ l, ¬ Kind.scalar.Has (.list l) := by
    rintro l (h | ⟨s, h⟩ | ⟨m, h⟩) <;> cases h
  refine ⟨fun h => hlist _ ((hf x).attr _ h).1, fun _ h => hlist ["null"] ?_⟩
  rw [← h, inherited_eq hrank hb]
  exact has_ref hrank hf x

include hS in
theorem disjoint_templates (hi : items.Perm S.items) (ht : templates.Perm S.templates) :
    items.Nodup ∧ templates.Nodup ∧ ∀ x ∈ templates, x ∉ items := by
  obtain ⟨h1, h2, h3⟩ := List.nodup_append.mp ((hi.append ht).nodup_iff.mpr hS.nodup)
  exact ⟨h1, h2, fun x hx hxi => h3 x hxi x hx rfl⟩

include hS hrank hb in
theorem propertyFold_spec (hN : S.NullHarmless) (hi : items.Perm S.items) (ht : templates.Perm S.templates)
    (hp : prop ∈ S.properties) :
    ∃ H, (items ++ templates).foldlM (inheritProperty (S.templates.length + 1) prop) S.obj = .ok H ∧
      ∀ x ∈ items ++ templates, (H x).attr prop = Heap.finalAttr S.obj rank prop x ∧ (H x).plus.get? prop = none := by
  obtain ⟨k, hf, hreg⟩ := hS.kind prop hp
  obtain ⟨hi', ht', hdisj⟩ := disjoint_templates hS hi ht
  cases k with
  | list =>
    have hne : prop ≠ "register" := fun e => by cases (hreg e).1
    obtain ⟨H, hr, -, h⟩ := listFold_spec hrank hf hne hb (items ++ templates) S.obj
      fun y => ⟨SameBut.refl prop _, Or.inl ⟨rfl, rfl⟩⟩
    exact ⟨H, hr, h⟩
  | scalar =>
    have hplus : ∀ x, (S.obj x).plus.get? prop = none := fun x => scalar_plus (hf x)
    by_cases hne : prop = "register"
    · subst hne
      have hnull := (hreg rfl).2
      exact ⟨S.obj, registerFold hnull _, fun x _ => ⟨(finalAttr_register hnull).symm, hplus x⟩⟩
    · have hN' : Heap.NullHarmless S.obj rank prop items templates :=
        (hN prop hp).congr (inherited_eq hrank hb prop) hi ht
      obtain ⟨H, hr, h⟩ := scalarFold_spec ⟨hrank, hf, hne⟩ (fun x t h => ht.mem_iff.mpr (hS.links x t h)) hdisj hb hi' ht' hN'
      exact ⟨H, hr, fun x hx => ⟨h x hx, (foldInherit_kept hr).2.1 x (hplus x)⟩⟩

theorem resolves_of (hS : S.WellFormed) (hN : S.NullHarmless) (hL : S.NoNullList) (hP : S.PlusDeclared) : S.Resolves := by
  intro items templates hi ht
  obtain ⟨rank, hrank, hb⟩ := exists_linkRank hS
  have hfold : ∀ prop ∈ S.properties, _ := fun prop hp => propertyFold_spec hS hrank hb hN hi ht hp
  have hperm : ∀ {x}, x ∈ items ++ templates ↔ x ∈ S.items ++ S.templates := (hi.append ht).mem_iff
  have hrun : ∃ S₁, S.properties.foldlM (applyPartialInheritance (S.templates.length + 1)) (S.stored items templates) = .ok S₁ :=
    passes_ok hS.properties fun prop hp => (hfold prop hp).imp fun H h => h.1
  obtain ⟨S₁, hr⟩ := hrun
  have hpass := passes_of_ok hS.properties hr
  have hdone : ∀ prop ∈ S.properties, ∀ x ∈ S.items ++ S.templates,
      (S₁.obj x).attr prop = Heap.finalAttr S.obj rank prop x ∧ (S₁.obj x).plus.get? prop = none := by
    intro prop hp x hx
    obtain ⟨H, hH, hs⟩ := hpass.done prop hp
    obtain ⟨H', hH', h⟩ := hfold prop hp
    cases hH.symm.trans hH'
    exact ⟨(hs x).attr.trans (h x (hperm.mpr hx)).1, (hs x).plus.trans (h x (hperm.mpr hx)).2⟩
  have hnoPlus : NoPlus S₁.obj := by
    intro x key
    by_cases hx : x ∈ S.items ++ S.templates
    · by_cases hk : key ∈ S.properties
      · exact (hdone key hk x hx).2
      · refine (hpass.other key hk x).plus.trans ?_
        by_contra hne
        exact hk (hP x key hne)
    · exact hpass.plus_none (hS.outside x hx key)
  obtain ⟨H, hc, honly, -, hall⟩ := foldGetCustoms_spec hrank hb (items ++ templates) S₁.obj hpass.links hnoPlus
    fun y => Or.inl fun key => by rw [hpass.customs]; rfl
  refine ⟨{ S₁ with obj := H }, ?_, fun x hx => ⟨fun prop hp => ?_, fun key => ?_⟩⟩
  · unfold applyInheritance
    rw [show (S.stored items templates).properties = S.properties from rfl, hr]
    simp only [bind, Except.bind]
    rw [hpass.items, hpass.templates, show (S.stored items templates).items ++ (S.stored items templates).templates
      = items ++ templates from rfl, hc]
    rfl
  · obtain ⟨h1, h2⟩ := hL prop hp x hx
    rw [← finalAttr_eq hrank hb h1 h2, ← (hdone prop hp x hx).1]
    exact congrFun (honly.attr x) prop
  · rw [resolveCustom_eq hrank hb]
    exact hall x (hperm.mpr hx) key

theorem Resolves.fold (hR : S.Resolves) (hS : S.WellFormed) (hi : items.Perm S.items) (ht : templates.Perm S.templates)
    (hp : prop ∈ S.properties) :
    ∃ H, (items ++ templates).foldlM (inheritProperty (S.templates.length + 1) prop) S.obj = .ok H ∧
      ∀ x ∈ S.items ++ S.templates, (H x).attr prop = S.resolve prop x := by
  obtain ⟨S', hr, hall⟩ := hR items templates hi ht
  obtain ⟨S₁, hrun, -, -, -, hc⟩ := applyInheritance_shape hr
  obtain ⟨H, hH, hsame⟩ := (passes_of_ok hS.properties hrun).done prop hp
  have honly : CustomsOnly S₁.obj S'.obj := foldlM_of_ok (I := CustomsOnly S₁.obj) hc
    (fun x _ H H' hr hI => getCustoms_keeps (I := CustomsOnly S₁.obj) (fun _ _ _ ho h => h.trans ho.only) _ H x H' hI hr) (CustomsOnly.refl _)
  exact ⟨H, hH, fun x hx => by rw [← (hall x hx).1 prop hp, honly.attr, (hsame x).attr]⟩

theorem Resolves.noNullList (hR : S.Resolves) (hS : S.WellFormed) : S.NoNullList := by
  obtain ⟨rank, hrank, hb⟩ := exists_linkRank hS
  intro prop hp x hx
  obtain ⟨k, hf, hreg⟩ := hS.kind prop hp
  cases k with
  | scalar => exact scalar_noNull hf hrank hb x
  | list =>
    have hne : prop ≠ "register" := fun e => by cases (hreg e).1
    obtain ⟨H, hr, hres⟩ := hR.fold hS (List.Perm.refl _) (List.Perm.refl _) hp
    obtain ⟨H', hr', -, h⟩ := listFold_spec hrank hf hne hb (S.items ++ S.templates) S.obj
      fun y => ⟨SameBut.refl prop _, Or.inl ⟨rfl, rfl⟩⟩
    cases hr.symm.trans hr'
    exact noNull_of_finalAttr hrank hb ((h x hx).1.symm.trans (hres x hx))

theorem Resolves.nullHarmless (hR : S.Resolves) (hS : S.WellFormed) : S.NullHarmless := by
  obtain ⟨rank, hrank, hb⟩ := exists_linkRank hS
  intro prop hp
  obtain ⟨k, hf, hreg⟩ := hS.kind prop hp
  suffices h : Heap.NullHarmless S.obj rank prop S.items S.templates from
    h.congr (fun x => (inherited_eq hrank hb prop x).symm) (List.Perm.refl _) (List.Perm.refl _)
  cases k with
  | list => exact fun y _ _ hnull => absurd hnull (list_ne_null (has_ref hrank hf y))
  | scalar =>
    by_cases hne : prop = "register"
    · subst hne
      exact fun y _ _ hnull => absurd (hnull.symm.trans (ref_register y)) null_ne_none
    · obtain ⟨hi, ht, hdisj⟩ := disjoint_templates hS (List.Perm.refl _) (List.Perm.refl _)
      have hf₀ : Scalars S.obj rank prop := ⟨hrank, hf, hne⟩
      obtain ⟨B, hrB, hB⟩ := afterItems_run hf₀ hS.links hdisj hb hi
      refine hB.nullHarmless hf₀ hS.links hdisj fun y hy ha hnull => ?_
      by_contra hharm
      obtain ⟨order, hperm, hbad⟩ := exists_bad_order (hB.scalars hf₀) (fun x t h => hS.links x t (hB.links x ▸ h)) hb ht hy ha
        hnull hharm
      obtain ⟨H, hr, hres⟩ := hR.fold hS (List.Perm.refl _) hperm hp
      rw [List.foldlM_append, hrB] at hr
      obtain ⟨x, hx, hx'⟩ := hbad H hr
      obtain ⟨h1, h2⟩ := scalar_noNull hf hrank hb x
      apply hx'
      rw [hB.finalAttr hf₀ hS.links hdisj hx, finalAttr_eq hrank hb h1 h2]
      exact hres x (List.mem_append_right _ hx)

theorem Resolves.plusDeclared (hR : S.Resolves) (hS : S.WellFormed) : S.PlusDeclared := by
  obtain ⟨rank, hrank, hb⟩ := exists_linkRank hS
  intro x key hx
  by_contra hkey
  obtain ⟨S', hr, hall⟩ := hR S.items S.templates (List.Perm.refl _) (List.Perm.refl _)
  obtain ⟨S₁, hrun, -, -, -, hc⟩ := applyInheritance_shape hr
  have hleft : (S₁.obj x).plus.get? key = (S.obj x).plus.get? key := ((passes_of_ok hS.properties hrun).other key hkey x).plus
  have hmem : x ∈ S.items ++ S.templates := by
    by_contra hout
    exact hx (hS.outside x hout key)
  have hnone : ∀ y, (S.obj y).customs.get? key = none := (hS.customs key).resolve_left fun h => hx (h x)
  refine foldGetCustoms_has (Or.inl (by rw [hleft]; exact hx)) (Or.inl hmem) hc ?_
  rw [(hall x hmem).2 key]
  exact refCustom_none hnone _ x

end

/-! ## A template that inherits a null value -/

def plainTemplate (name : String) (templates : List Nat) (value : Option Value) : Item :=
  { isATemplate := true, getName := name, importedFrom := "", use := [], templates := templates, tags := [],
    attr := fun prop => if prop = "check_command" then value else none, plus := Dict.empty, customs := Dict.empty,
    configurationWarnings := [] }

/-- `a` uses `b`, which is `null` and uses `c`. -/
def nullChain (value : Option Value) : Items :=
  { myType := "host", properties := ["check_command"], items := [], templates := [1, 2, 3],
    obj := fun x => if x = 1 then plainTemplate "a" [2] none
      else if x = 2 then plainTemplate "b" [3] (some (.str "null"))
      else plainTemplate "c" [] (if x = 3 then value else none),
    nameToTemplate := fun _ => none, confIsCorrect := true, configurationErrors := [] }

theorem nullChain_obj (value : Option Value) (x : Nat) :
    (nullChain value).obj x = plainTemplate "a" [2] none ∧ x = 1 ∨
      (nullChain value).obj x = plainTemplate "b" [3] (some (.str "null")) ∧ x = 2 ∨
      (nullChain value).obj x = plainTemplate "c" [] (if x = 3 then value else none) ∧ x ≠ 1 ∧ x ≠ 2 := by
  unfold nullChain
  by_cases h1 : x = 1
  · exact Or.inl ⟨if_pos h1, h1⟩
  · by_cases h2 : x = 2
    · exact Or.inr (Or.inl ⟨(if_neg h1).trans (if_pos h2), h2⟩)
    · exact Or.inr (Or.inr ⟨(if_neg h1).trans (if_neg h2), h1, h2⟩)

theorem nullChain_wellFormed {value : Option Value} (hv : ∀ v, value = some v → Kind.scalar.Has v) :
    (nullChain value).WellFormed := by
  have hlinks : ∀ x, ∀ t ∈ ((nullChain value).obj x).templates, (x = 1 ∧ t = 2) ∨ (x = 2 ∧ t = 3) := by
    intro x t ht
    rcases nullChain_obj value x with ⟨h, hx⟩ | ⟨h, hx⟩ | ⟨h, _⟩
    · rw [h] at ht; exact Or.inl ⟨hx, List.mem_singleton.mp ht⟩
    · rw [h] at ht; exact Or.inr ⟨hx, List.mem_singleton.mp ht⟩
    · rw [h] at ht; exact absurd ht List.not_mem_nil
  have hplus : ∀ x key, ((nullChain value).obj x).plus.get? key = none := by
    intro x key
    rcases nullChain_obj value x with ⟨h, _⟩ | ⟨h, _⟩ | ⟨h, _⟩ <;> rw [h] <;> rfl
  refine ⟨by simp [nullChain], fun x t ht => ?_, ?_, by simp [nullChain], fun prop hp => ⟨.scalar, fun x => ⟨fun v hav => ?_,
    fun pl hpl => ?_⟩, fun hr => ?_⟩, fun key => Or.inl fun x => hplus x key, fun x _ => hplus x⟩
  · rcases hlinks x t ht with ⟨_, rfl⟩ | ⟨_, rfl⟩ <;> simp [nullChain]
  · apply acyclic_of_rank fun x => if x = 1 then 2 else if x = 2 then 1 else 0
    intro x t ht
    rcases hlinks x t ht with ⟨rfl, rfl⟩ | ⟨rfl, rfl⟩ <;> simp
  · refine ⟨?_, hplus x prop⟩
    obtain rfl : prop = "check_command" := List.mem_singleton.mp hp
    rcases nullChain_obj value x with ⟨h, _⟩ | ⟨h, _⟩ | ⟨h, _⟩
    · rw [h] at hav; cases hav
    · rw [h] at hav; cases hav; exact Or.inr (Or.inl ⟨_, rfl⟩)
    · rw [h] at hav
      by_cases h3 : x = 3
      · exact hv v (by rw [← hav]; simp [plainTemplate, h3])
      · simp [plainTemplate, h3] at hav
  · rw [hplus] at hpl; cases hpl
  · rw [List.mem_singleton.mp hp] at hr; simp at hr

/-- `c` has no value, and `a` comes to `b` directly. -/
theorem nullChain_nullHarmless : (nullChain none).NullHarmless := by
  intro prop hp y hy hknown hnull
  obtain rfl : prop = "check_command" := List.mem_singleton.mp hp
  have hlinks : ∀ x, ∀ t ∈ ((nullChain none).obj x).templates, t ∈ (nullChain none).templates :=
    (nullChain_wellFormed fun v h => by cases h).links
  have hbehind : ∀ w, TransGen (Heap.Passes (nullChain none).obj "check_command") y w → w ∈ [1, 2, 3] := by
    intro w hw
    obtain ⟨z, -, hz⟩ := TransGen.tail'_iff.mp hw
    exact hlinks z w hz.1
  have hrefs : ∀ w ∈ [1, 2, 3], (nullChain none).inherited "check_command" w = .none ∧ w = 3 ∨
      (nullChain none).inherited "check_command" w = .str "null" ∧ w ≠ 3 := by decide
  refine ⟨fun w hw => (hrefs w (hbehind w hw)).imp And.left And.left, fun s hs hks hsn => ?_⟩
  have hs3 : s ≠ 3 := by
    rcases hrefs s (hbehind s hs) with ⟨h, -⟩ | ⟨-, h⟩
    · exact absurd (hsn.symm.trans h) Heap.null_ne_none
    · exact h
  have hown : ∀ z ∈ [1, 2, 3], ((nullChain none).obj z).attr "check_command" ≠ none → z = 2 := by decide
  have hy2 : y ≠ 2 := by
    rintro rfl
    exact hknown (Or.inl (by decide))
  obtain rfl : s = 2 := by
    rcases hks with h | ⟨i, hi, -⟩
    · exact hown s (hbehind s hs) h
    · cases hi
  obtain rfl : y = 1 := by
    rcases hrefs y hy with ⟨h, -⟩ | ⟨-, h⟩
    · exact absurd (hnull.symm.trans h) Heap.null_ne_none
    · simp only [nullChain, List.mem_cons, List.not_mem_nil, or_false] at hy
      omega
  exact ⟨by decide, fun t ht => by cases ht⟩

end Items

end Alignak
