import Alignak.InheritanceWalk

/-!
# Custom variables

`getCustoms_ok` says that the recursion returns where the custom variables that
a `+` value could join are lists.
-/

namespace Alignak

def Value.Listish (v : Value) : Prop := (∃ l, v = .list l) ∨ ∃ h t, v = .listOf h t

theorem Value.Listish.insert {v : Value} (h : v.Listish) (l : List String) :
    ∃ v', v.insert l = .ok v' ∧ v'.Listish := by
  rcases h with ⟨l', rfl⟩ | ⟨a, b, rfl⟩
  · exact ⟨_, rfl, Or.inr ⟨l, .list l', rfl⟩⟩
  · exact ⟨_, rfl, Or.inr ⟨l, .listOf a b, rfl⟩⟩

namespace Heap

def customsTurn (n x : Nat) (H : Heap) (t : Nat) : Except Exn Heap := do
  let H ← getCustomsPropertiesByInheritance n H t
  (H t).customs.entries.foldlM (inheritCustom x) H

/-- A custom variable that has a `+` value somewhere is a list everywhere. -/
def CustomsFit (H : Heap) : Prop :=
  ∀ key, (∀ y, (H y).plus.get? key = none) ∨ ∀ y v, (H y).customs.get? key = some v → v.Listish

def EntryFits (H : Heap) (entry : String × Value) : Prop :=
  (∀ y, (H y).plus.get? entry.1 = none) ∨ entry.2.Listish

/-- What the custom variables' walk changes: no link, and `+` values only disappear. -/
structure CustomsStep (H H' : Heap) : Prop where
  templates : ∀ y, (H' y).templates = (H y).templates
  plus : ∀ y key, (H y).plus.get? key = none → (H' y).plus.get? key = none

variable {o : Item} {y : Nat}

section
variable {H H' H'' : Heap} {x : Nat}

theorem CustomsStep.refl (H : Heap) : CustomsStep H H := ⟨fun _ => rfl, fun _ _ h => h⟩

theorem CustomsStep.trans (h : CustomsStep H H') (h' : CustomsStep H' H'') : CustomsStep H H'' :=
  ⟨fun y => (h'.templates y).trans (h.templates y), fun y key hp => h'.plus y key (h.plus y key hp)⟩

theorem CustomsStep.set (ht : o.templates = (H x).templates)
    (hp : ∀ key, (H x).plus.get? key = none → o.plus.get? key = none) : CustomsStep H (H.set x o) := by
  refine ⟨fun y => ?_, fun y key h => ?_⟩
  · by_cases hy : y = x
    · subst hy; rw [set_self, ht]
    · rw [set_ne o hy]
  · by_cases hy : y = x
    · subst hy; rw [set_self]; exact hp key h
    · rw [set_ne o hy]; exact h

theorem EntryFits.step {entry : String × Value} (h : EntryFits H entry) (hs : CustomsStep H H') :
    EntryFits H' entry := h.imp (fun h y => hs.plus y _ (h y)) id

theorem CustomsFit.entry {entry : String × Value} (h : CustomsFit H)
    (he : entry ∈ (H y).customs.entries) : EntryFits H entry :=
  (h entry.1).imp id fun h => h y entry.2 (Dict.get?_eq_some.mpr he)

theorem CustomsFit.set (h : CustomsFit H) (hs : CustomsStep H (H.set x o))
    (hc : ∀ key v, o.customs.get? key = some v → (H x).customs.get? key = some v ∨ EntryFits H (key, v)) :
    CustomsFit (H.set x o) := by
  intro key
  by_cases hk : ∀ y, (H y).plus.get? key = none
  · exact Or.inl fun y => hs.plus y key (hk y)
  · refine Or.inr fun y v hv => ?_
    have hlist := (h key).resolve_left hk
    by_cases hy : y = x
    · subst hy
      rw [set_self] at hv
      rcases hc key v hv with h' | h'
      · exact hlist y v h'
      · exact h'.resolve_left hk
    · rw [set_ne o hy] at hv
      exact hlist y v hv

theorem delPlus_none {key key' : String} (h : o.plus.get? key' = none) :
    (o.delPlus key).plus.get? key' = none := by
  unfold Item.delPlus
  rw [Dict.get?_erase]
  by_cases hk : key' = key
  · rw [if_pos hk]
  · rw [if_neg hk]; exact h

theorem customs_set {c : Dict String Value} {key key' : String} {v v' : Value}
    (h : (c.set key v).get? key' = some v') : c.get? key' = some v' ∨ (key', v') = (key, v) := by
  rw [Dict.get?_set] at h
  by_cases hk : key' = key
  · rw [if_pos hk] at h; cases h; exact Or.inr (by rw [hk])
  · rw [if_neg hk] at h; exact Or.inl h

theorem EntryFits.insert {key : String} {v : Value} (h : EntryFits H (key, v)) {pl : List String}
    (hp : (H x).plus.get? key = some pl) : ∃ v', v.insert pl = .ok v' ∧ v'.Listish := by
  refine Value.Listish.insert (h.resolve_left fun h' => ?_) pl
  rw [h' x] at hp; cases hp

theorem inheritCustom_ok {entry : String × Value} (h : CustomsFit H) (he : EntryFits H entry) :
    ∃ H', inheritCustom x H entry = .ok H' ∧ CustomsStep H H' ∧ CustomsFit H' := by
  have hval : EntryFits H (entry.1, ((H x).customs.get? entry.1).getD entry.2) := by
    cases hg : (H x).customs.get? entry.1 with
    | none => exact he
    | some v => exact (h entry.1).imp id fun h => h x v hg
  unfold inheritCustom
  cases hp : (H x).plus.get? entry.1 with
  | none =>
    have hs : CustomsStep H (H.set x { H x with
        customs := (H x).customs.set entry.1 (((H x).customs.get? entry.1).getD entry.2) }) :=
      CustomsStep.set rfl fun _ h => h
    refine ⟨_, by simp only [hp], hs, h.set hs fun key v hv => ?_⟩
    exact (customs_set hv).imp id fun e => by rw [e]; exact hval
  | some pl =>
    obtain ⟨v', hv', hl⟩ := hval.insert hp
    have hs : CustomsStep H (H.set x { (H x).delPlus entry.1 with customs := (H x).customs.set entry.1 v' }) :=
      CustomsStep.set rfl fun _ h => delPlus_none h
    refine ⟨_, by simp only [hp, hv', bind, Except.bind]; rfl, hs, h.set hs fun key v hv => ?_⟩
    exact (customs_set hv).imp id fun e => by rw [e]; exact Or.inr hl

theorem plusCustom_ok {entry : String × Value} (h : CustomsFit H) (he : EntryFits H entry) :
    ∃ H', plusCustom x H entry = .ok H' ∧ CustomsStep H H' ∧ CustomsFit H' := by
  unfold plusCustom
  cases hp : (H x).plus.get? entry.1 with
  | none => exact ⟨H, by simp only [hp], CustomsStep.refl H, h⟩
  | some pl =>
    have he' : EntryFits H (entry.1, entry.2) := he
    obtain ⟨v', hv', hl⟩ := he'.insert hp
    have hs : CustomsStep H (H.set x { (H x).delPlus entry.1 with customs := (H x).customs.set entry.1 v' }) :=
      CustomsStep.set rfl fun _ h => delPlus_none h
    refine ⟨_, by simp only [hp, hv', bind, Except.bind]; rfl, hs, h.set hs fun key v hv => ?_⟩
    exact (customs_set hv).imp id fun e => by rw [e]; exact Or.inr hl

theorem foldl_set_get? : ∀ {entries : List (String × List String)} {c : Dict String Value} {key : String} {v : Value},
    (entries.foldl (fun customs entry => customs.set entry.1 (.list entry.2)) c).get? key = some v →
    c.get? key = some v ∨ v.Listish
  | [], _, _, _, h => Or.inl h
  | e :: entries, c, key, v, h => by
    rw [List.foldl_cons] at h
    rcases foldl_set_get? h with h | h
    · exact (customs_set h).imp id fun e => by cases e; exact Or.inl ⟨_, rfl⟩
    · exact Or.inr h

theorem getAllPlusAndDelete_ok (h : CustomsFit H) :
    CustomsStep H (H.set x (H x).getAllPlusAndDelete) ∧ CustomsFit (H.set x (H x).getAllPlusAndDelete) := by
  have hs : CustomsStep H (H.set x (H x).getAllPlusAndDelete) := CustomsStep.set rfl fun _ _ => rfl
  exact ⟨hs, h.set hs fun key v hv => (foldl_set_get? hv).imp id Or.inr⟩

theorem getCustoms_ok {rank : Nat → Nat} : ∀ (n x : Nat) (H : Heap), rank x < n →
    (∀ x, ∀ t ∈ (H x).templates, rank t < rank x) → CustomsFit H →
    ∃ H', getCustomsPropertiesByInheritance n H x = .ok H' ∧ CustomsStep H H' ∧ CustomsFit H'
  | 0, x, H, h, _, _ => absurd h (Nat.not_lt_zero _)
  | n + 1, x, H, hn, hrank, hH => by
    have hone : ∀ t ∈ (H x).templates, ∀ H₁, CustomsStep H H₁ ∧ CustomsFit H₁ →
        ∃ H₂, (do
          let H ← getCustomsPropertiesByInheritance n H₁ t
          (H t).customs.entries.foldlM (inheritCustom x) H) = .ok H₂ ∧ CustomsStep H H₂ ∧ CustomsFit H₂ := by
      intro t ht H₁ ⟨hs, hf⟩
      have hlt := hrank x t ht
      obtain ⟨H₂, hr, hs2, hf2⟩ := getCustoms_ok n t H₁ (by omega)
        (fun y s hy => hrank y s (by rw [← hs.templates]; exact hy)) hf
      obtain ⟨H₃, hr3, hs3, hf3⟩ := foldlM_ok (I := fun H₃ => CustomsStep H₂ H₃ ∧ CustomsFit H₃)
        (H₂ t).customs.entries H₂ (fun entry he H₃ h3 => by
          obtain ⟨H₄, hr4, hs4, hf4⟩ := inheritCustom_ok (x := x) h3.2 ((hf2.entry he).step h3.1)
          exact ⟨H₄, hr4, h3.1.trans hs4, hf4⟩) ⟨CustomsStep.refl H₂, hf2⟩
      exact ⟨H₃, by rw [hr]; exact hr3, hs.trans (hs2.trans hs3), hf3⟩
    obtain ⟨H₁, hr1, hs1, hf1⟩ := foldlM_ok (I := fun H₁ => CustomsStep H H₁ ∧ CustomsFit H₁)
      (H x).templates H hone ⟨CustomsStep.refl H, hH⟩
    obtain ⟨H₂, hr2, hs2, hf2⟩ := foldlM_ok (I := fun H₂ => CustomsStep H₁ H₂ ∧ CustomsFit H₂)
      (H₁ x).customs.entries H₁ (fun entry he H₃ h3 => by
        obtain ⟨H₄, hr4, hs4, hf4⟩ := plusCustom_ok (x := x) h3.2 ((hf1.entry he).step h3.1)
        exact ⟨H₄, hr4, h3.1.trans hs4, hf4⟩) ⟨CustomsStep.refl H₁, hf1⟩
    obtain ⟨hs3, hf3⟩ := getAllPlusAndDelete_ok (x := x) hf2
    refine ⟨_, ?_, hs1.trans (hs2.trans hs3), hf3⟩
    unfold getCustomsPropertiesByInheritance
    rw [hr1]
    simp only [bind, Except.bind, hr2]
    rfl

end

/-! ## The result -/

def refCustom (H : Heap) (key : String) : Nat → Nat → Option Value
  | 0, _ => none
  | n + 1, x => ((H x).customs.get? key).or ((H x).templates.findSome? (refCustom H key n))

/-- The custom variable of `x`: its own, else the first one of its templates. -/
def custom (H : Heap) (rank : Nat → Nat) (key : String) (x : Nat) : Option Value := H.refCustom key (rank x + 1) x

section
variable {H : Heap} {rank : Nat → Nat} {key : String}

theorem findSome?_congr {f g : Nat → Option Value} : ∀ {ts : List Nat}, (∀ t ∈ ts, f t = g t) →
    ts.findSome? f = ts.findSome? g
  | [], _ => rfl
  | t :: ts, h => by
    rw [List.findSome?_cons, List.findSome?_cons, h t List.mem_cons_self,
      findSome?_congr fun s hs => h s (List.mem_cons_of_mem _ hs)]

theorem refCustom_stable (hrank : ∀ x, ∀ t ∈ (H x).templates, rank t < rank x) :
    ∀ n m x, rank x < n → rank x < m → H.refCustom key n x = H.refCustom key m x
  | 0, _, _, h, _ => absurd h (Nat.not_lt_zero _)
  | _, 0, _, _, h => absurd h (Nat.not_lt_zero _)
  | n + 1, m + 1, x, hn, hm => by
    unfold refCustom
    rw [findSome?_congr fun t ht => ?_]
    have := hrank x t ht
    exact refCustom_stable hrank n m t (by omega) (by omega)

theorem custom_eq (hrank : ∀ x, ∀ t ∈ (H x).templates, rank t < rank x) (x : Nat) :
    H.custom rank key x = ((H x).customs.get? key).or ((H x).templates.findSome? (H.custom rank key)) := by
  unfold custom
  rw [refCustom, findSome?_congr fun t ht => ?_]
  exact refCustom_stable hrank _ _ t (hrank x t ht) (Nat.lt_succ_self _)

end

def NoPlus (H : Heap) : Prop := ∀ y key, (H y).plus.get? key = none

/-- The walk leaves everything but the custom variables and the `+` values. -/
structure CustomsOnly (H H' : Heap) : Prop extends CustomsStep H H' where
  attr : ∀ y, (H' y).attr = (H y).attr

section
variable {H H' H'' : Heap} {x : Nat}

theorem CustomsOnly.refl (H : Heap) : CustomsOnly H H := ⟨CustomsStep.refl H, fun _ => rfl⟩

theorem CustomsOnly.trans (h : CustomsOnly H H') (h' : CustomsOnly H' H'') : CustomsOnly H H'' :=
  ⟨h.toCustomsStep.trans h'.toCustomsStep, fun y => (h'.attr y).trans (h.attr y)⟩

theorem CustomsOnly.set (ht : o.templates = (H x).templates) (ha : o.attr = (H x).attr)
    (hp : ∀ key, (H x).plus.get? key = none → o.plus.get? key = none) : CustomsOnly H (H.set x o) := by
  refine ⟨CustomsStep.set ht hp, fun y => ?_⟩
  by_cases hy : y = x
  · subst hy; rw [set_self, ha]
  · rw [set_ne o hy]

theorem foldCustoms_spec : ∀ (entries : List (String × Value)) (H : Heap), (∀ key, (H x).plus.get? key = none) →
    ∃ H', entries.foldlM (inheritCustom x) H = .ok H' ∧ CustomsOnly H H' ∧ (∀ y, y ≠ x → H' y = H y) ∧
      ∀ key, (H' x).customs.get? key = ((H x).customs.get? key).or (entries.lookup key)
  | [], H, _ => ⟨H, rfl, CustomsOnly.refl H, fun _ _ => rfl, fun key => by simp⟩
  | e :: entries, H, hn => by
    let o : Item := { H x with customs := (H x).customs.set e.1 (((H x).customs.get? e.1).getD e.2) }
    have hstep : inheritCustom x H e = .ok (H.set x o) := by
      unfold inheritCustom
      simp only [hn e.1]
      rfl
    have ho : CustomsOnly H (H.set x o) := CustomsOnly.set rfl rfl fun _ h => h
    obtain ⟨H', hr, h1, h2, h3⟩ := foldCustoms_spec entries (H.set x o) fun key => by rw [set_self]; exact hn key
    refine ⟨H', by rw [List.foldlM_cons, hstep]; exact hr, ho.trans h1, fun y hy => (h2 y hy).trans (set_ne o hy),
      fun key => ?_⟩
    rw [h3, set_self]
    have hget : o.customs.get? key = ((H x).customs.get? key).or (if key = e.1 then some e.2 else none) := by
      rw [show o.customs = (H x).customs.set e.1 (((H x).customs.get? e.1).getD e.2) from rfl, Dict.get?_set]
      by_cases hk : key = e.1
      · subst hk
        rw [if_pos rfl, if_pos rfl]
        cases (H x).customs.get? e.1 <;> rfl
      · rw [if_neg hk, if_neg hk, Option.or_none]
    rw [hget, Option.or_assoc]
    obtain ⟨k, v⟩ := e
    rw [List.lookup_cons]
    by_cases hk : key = k
    · subst hk; simp
    · rw [if_neg hk, Option.none_or, beq_false_of_ne hk]

theorem foldPlus_spec : ∀ (entries : List (String × Value)) (H : Heap), (∀ key, (H x).plus.get? key = none) →
    entries.foldlM (plusCustom x) H = .ok H
  | [], _, _ => rfl
  | e :: entries, H, hn => by
    have hstep : plusCustom x H e = .ok H := by
      unfold plusCustom
      simp only [hn e.1]
    rw [List.foldlM_cons, hstep]
    exact foldPlus_spec entries H hn

theorem entries_of_get?_none {d : Dict String (List String)} (h : ∀ key, d.get? key = none) : d.entries = [] := by
  rw [List.eq_nil_iff_forall_not_mem]
  intro e he
  have := Dict.get?_eq_some.mpr he
  rw [h] at this
  cases this

theorem getAllPlus_customs (h : ∀ key, o.plus.get? key = none) : o.getAllPlusAndDelete.customs = o.customs := by
  unfold Item.getAllPlusAndDelete
  rw [entries_of_get?_none h]
  rfl

end

section
variable {H₀ : Heap} {rank : Nat → Nat}

def CustomsResolved (H₀ : Heap) (rank : Nat → Nat) (H : Heap) (y : Nat) : Prop :=
  ∀ key, (H y).customs.get? key = H₀.custom rank key y

def CustomsState (H₀ : Heap) (rank : Nat → Nat) (H : Heap) (y : Nat) : Prop :=
  (∀ key, (H y).customs.get? key = (H₀ y).customs.get? key) ∨ CustomsResolved H₀ rank H y

theorem CustomsResolved.of_eq {H H' : Heap} (h : CustomsResolved H₀ rank H y) (e : H' y = H y) :
    CustomsResolved H₀ rank H' y := by unfold CustomsResolved; rw [e]; exact h

theorem CustomsState.of_eq {H H' : Heap} (h : CustomsState H₀ rank H y) (e : H' y = H y) :
    CustomsState H₀ rank H' y := h.imp (fun h key => by rw [e]; exact h key) fun h => h.of_eq e

/-- While the templates of `x` are walked. -/
structure CustomsWalk (H₀ : Heap) (rank : Nat → Nat) (x : Nat) (H H' : Heap) : Prop where
  only : CustomsOnly H H'
  others : ∀ y, y ≠ x → CustomsState H₀ rank H y → CustomsState H₀ rank H' y
  resolved : ∀ y, y ≠ x → CustomsResolved H₀ rank H y → CustomsResolved H₀ rank H' y
  frame : ∀ y, y ≠ x → rank x ≤ rank y → H' y = H y

theorem getCustoms_spec (hrank : ∀ x, ∀ t ∈ (H₀ x).templates, rank t < rank x) : ∀ (n x : Nat) (H : Heap), rank x < n →
    (∀ y, (H y).templates = (H₀ y).templates) →
    (∀ y, rank y ≤ rank x → (∀ key, (H y).plus.get? key = none) ∧ CustomsState H₀ rank H y) →
    ∃ H', getCustomsPropertiesByInheritance n H x = .ok H' ∧ CustomsWalk H₀ rank x H H' ∧ CustomsResolved H₀ rank H' x
  | 0, x, H, h, _, _ => absurd h (Nat.not_lt_zero _)
  | n + 1, x, H, hn, hT, hst => by
    have hwalk : ∀ (ts : List Nat), (∀ t ∈ ts, rank t < rank x) → ∀ (H₁ : Heap), CustomsWalk H₀ rank x H H₁ →
        ∃ H₂, ts.foldlM (customsTurn n x) H₁ = .ok H₂ ∧ CustomsWalk H₀ rank x H H₂ ∧
          ∀ key, (H₂ x).customs.get? key = ((H₁ x).customs.get? key).or (ts.findSome? (H₀.custom rank key)) := by
      intro ts
      induction ts with
      | nil => intro _ H₁ h; exact ⟨H₁, rfl, h, fun key => by simp⟩
      | cons t ts ih =>
        intro hts H₁ h
        have ht := hts t List.mem_cons_self
        have htx : x ≠ t := fun e => by rw [e] at ht; exact lt_irrefl _ ht
        have hlow : ∀ y, rank y ≤ rank t → (∀ key, (H₁ y).plus.get? key = none) ∧ CustomsState H₀ rank H₁ y := by
          intro y hy
          have hlt : rank y < rank x := lt_of_le_of_lt hy ht
          have hyx : y ≠ x := fun e => by rw [e] at hlt; exact lt_irrefl _ hlt
          exact ⟨fun key => h.only.plus y key ((hst y hlt.le).1 key), h.others y hyx (hst y hlt.le).2⟩
        obtain ⟨H₂, hr, hw, hc⟩ := getCustoms_spec hrank n t H₁ (by omega)
          (fun y => (h.only.templates y).trans (hT y)) hlow
        obtain ⟨H₃, hr3, ho3, hf3, hc3⟩ := foldCustoms_spec (x := x) (H₂ t).customs.entries H₂
          fun key => hw.only.plus x key (h.only.plus x key ((hst x le_rfl).1 key))
        have h3 : CustomsWalk H₀ rank x H H₃ := by
          refine ⟨h.only.trans (hw.only.trans ho3), fun y hy hs => ?_, fun y hy hs => ?_, fun y hy hr => ?_⟩
          · have hs1 := h.others y hy hs
            apply CustomsState.of_eq _ (hf3 y hy)
            by_cases hyt : y = t
            · subst hyt; exact Or.inr hc
            · exact hw.others y hyt hs1
          · apply CustomsResolved.of_eq _ (hf3 y hy)
            by_cases hyt : y = t
            · subst hyt; exact hc
            · exact hw.resolved y hyt (h.resolved y hy hs)
          · have hyt : y ≠ t := fun e => by rw [e] at hr; exact absurd ht (not_lt.mpr hr)
            exact (hf3 y hy).trans ((hw.frame y hyt (ht.le.trans hr)).trans (h.frame y hy hr))
        obtain ⟨H₄, hr4, h4, hc4⟩ := ih (fun s hs => hts s (List.mem_cons_of_mem _ hs)) H₃ h3
        refine ⟨H₄, ?_, h4, fun key => ?_⟩
        · have hturn : customsTurn n x H₁ t = .ok H₃ := by
            unfold customsTurn
            rw [hr]; exact hr3
          rw [List.foldlM_cons, hturn]
          exact hr4
        · have hlook : (H₂ t).customs.entries.lookup key = H₀.custom rank key t := hc key
          rw [hc4, hc3, hlook, hw.frame x htx ht.le, List.findSome?_cons, Option.or_assoc]
          congr 1
          cases H₀.custom rank key t <;> rfl
    have hstart : CustomsWalk H₀ rank x H H :=
      ⟨CustomsOnly.refl H, fun _ _ h => h, fun _ _ h => h, fun _ _ _ => rfl⟩
    obtain ⟨H₁, hr, h1, hc⟩ := hwalk (H x).templates (fun t ht => hrank x t (by rw [← hT x]; exact ht)) H hstart
    have hp1 : ∀ key, (H₁ x).plus.get? key = none := fun key => h1.only.plus x key ((hst x le_rfl).1 key)
    have ho : CustomsOnly H₁ (H₁.set x (H₁ x).getAllPlusAndDelete) :=
      CustomsOnly.set rfl rfl fun _ _ => rfl
    refine ⟨H₁.set x (H₁ x).getAllPlusAndDelete, ?_, ⟨h1.only.trans ho, fun y hy hs => ?_, fun y hy hs => ?_,
      fun y hy hr => ?_⟩, fun key => ?_⟩
    · unfold getCustomsPropertiesByInheritance
      have hr' := hr
      unfold customsTurn at hr'
      rw [hr']
      simp only [bind, Except.bind, foldPlus_spec _ _ hp1]
      rfl
    · exact (h1.others y hy hs).of_eq (set_ne _ hy)
    · exact (h1.resolved y hy hs).of_eq (set_ne _ hy)
    · exact (set_ne _ hy).trans (h1.frame y hy hr)
    · rw [set_self, getAllPlus_customs hp1, hc, hT x]
      rcases (hst x le_rfl).2 with h | h
      · rw [h, custom_eq hrank]
      · rw [h, custom_eq hrank, Option.or_assoc, Option.or_self]

theorem foldGetCustoms_spec (hrank : ∀ x, ∀ t ∈ (H₀ x).templates, rank t < rank x) {n : Nat} (hn : ∀ x, rank x < n) :
    ∀ (xs : List Nat) (H : Heap), (∀ y, (H y).templates = (H₀ y).templates) → NoPlus H →
    (∀ y, CustomsState H₀ rank H y) →
    ∃ H', xs.foldlM (getCustomsPropertiesByInheritance n) H = .ok H' ∧ CustomsOnly H H' ∧
      (∀ y, CustomsResolved H₀ rank H y → CustomsResolved H₀ rank H' y) ∧ ∀ x ∈ xs, CustomsResolved H₀ rank H' x
  | [], H, _, _, _ => ⟨H, rfl, CustomsOnly.refl H, fun _ h => h, fun _ h => absurd h List.not_mem_nil⟩
  | x :: xs, H, hT, hnp, hst => by
    obtain ⟨H₁, hr, hw, hc⟩ := getCustoms_spec hrank n x H (hn x) hT fun y _ => ⟨hnp y, hst y⟩
    have hst1 : ∀ y, CustomsState H₀ rank H₁ y := by
      intro y
      by_cases hy : y = x
      · subst hy; exact Or.inr hc
      · exact hw.others y hy (hst y)
    obtain ⟨H₂, hr2, ho, hkeep, hall⟩ := foldGetCustoms_spec hrank hn xs H₁
      (fun y => (hw.only.templates y).trans (hT y)) (fun y key => hw.only.plus y key (hnp y key)) hst1
    refine ⟨H₂, by rw [List.foldlM_cons, hr]; exact hr2, hw.only.trans ho, fun y hy => hkeep y ?_, fun y hy => ?_⟩
    · by_cases hyx : y = x
      · subst hyx; exact hc
      · exact hw.resolved y hyx hy
    · rcases List.mem_cons.mp hy with e | hy
      · subst e; exact hkeep y hc
      · exact hall y hy

end

/-! ## Any run -/

/-- The object has a custom variable of that name, or a `+` value that becomes one. -/
def Has (key : String) (o : Item) : Prop := o.plus.get? key ≠ none ∨ o.customs.get? key ≠ none

/-- The custom variables change in `x` only. -/
structure OnlyAt (x : Nat) (H H' : Heap) : Prop where
  only : CustomsOnly H H'
  other : ∀ y, y ≠ x → H' y = H y
  has : ∀ key, Has key (H x) → Has key (H' x)

section
variable {H H' H₁ : Heap} {x y n t : Nat} {entry : String × Value} {key : String}

theorem OnlyAt.set (ht : o.templates = (H x).templates) (ha : o.attr = (H x).attr)
    (hp : ∀ key, (H x).plus.get? key = none → o.plus.get? key = none) (hh : ∀ key, Has key (H x) → Has key o) :
    OnlyAt x H (H.set x o) :=
  ⟨CustomsOnly.set ht ha hp, fun _ hy => set_ne o hy, fun key h => by rw [set_self]; exact hh key h⟩

theorem Has.setCustom {k : String} {p : Dict String (List String)} (v : Value) (h : Has key o)
    (hp : key ≠ k → p.get? key = o.plus.get? key) : Has key { o with plus := p, customs := o.customs.set k v } := by
  unfold Has
  simp only [Dict.get?_set]
  by_cases hk : key = k
  · exact Or.inr (by rw [if_pos hk]; exact Option.some_ne_none v)
  · rw [hp hk, if_neg hk]
    exact h

theorem foldl_set_some : ∀ {entries : List (String × List String)} {c : Dict String Value},
    c.get? key ≠ none ∨ entries.lookup key ≠ none →
    (entries.foldl (fun customs entry => customs.set entry.1 (.list entry.2)) c).get? key ≠ none
  | [], _, h => h.resolve_right fun h => h rfl
  | (k, l) :: entries, c, h => by
    rw [List.foldl_cons]
    apply foldl_set_some
    rw [Dict.get?_set]
    by_cases hk : key = k
    · rw [if_pos hk]
      exact Or.inl (Option.some_ne_none _)
    · rw [if_neg hk]
      rw [List.lookup_cons, beq_false_of_ne hk] at h
      exact h

theorem OnlyAt.getAllPlus (H : Heap) (x : Nat) : OnlyAt x H (H.set x (H x).getAllPlusAndDelete) :=
  OnlyAt.set rfl rfl (fun _ _ => rfl) fun _ h => Or.inr (foldl_set_some h.symm)

theorem inheritCustom_at (h : inheritCustom x H entry = .ok H') : OnlyAt x H H' := by
  unfold inheritCustom at h
  simp only at h
  cases hp : (H x).plus.get? entry.1 with
  | none =>
    rw [hp] at h
    cases h
    exact OnlyAt.set rfl rfl (fun _ h => h) fun key hk => hk.setCustom _ fun _ => rfl
  | some pl =>
    rw [hp] at h
    simp only at h
    cases hv : (((H x).customs.get? entry.1).getD entry.2).insert pl with
    | error e => rw [hv] at h; cases h
    | ok v =>
      rw [hv] at h
      cases h
      exact OnlyAt.set rfl rfl (fun _ h => delPlus_none h) fun key hk => hk.setCustom _ Dict.get?_erase_ne

theorem plusCustom_at (h : plusCustom x H entry = .ok H') : OnlyAt x H H' := by
  unfold plusCustom at h
  simp only at h
  cases hp : (H x).plus.get? entry.1 with
  | none =>
    rw [hp] at h
    cases h
    exact ⟨CustomsOnly.refl H, fun _ _ => rfl, fun _ h => h⟩
  | some pl =>
    rw [hp] at h
    simp only at h
    cases hv : entry.2.insert pl with
    | error e => rw [hv] at h; cases h
    | ok v =>
      rw [hv] at h
      cases h
      exact OnlyAt.set rfl rfl (fun _ h => delPlus_none h) fun key hk => hk.setCustom _ Dict.get?_erase_ne

theorem customsTurn_of_ok (h : customsTurn n x H t = .ok H') : ∃ H₁,
    getCustomsPropertiesByInheritance n H t = .ok H₁ ∧ (H₁ t).customs.entries.foldlM (inheritCustom x) H₁ = .ok H' := by
  unfold customsTurn at h
  cases hr : getCustomsPropertiesByInheritance n H t with
  | error e => rw [hr] at h; cases h
  | ok H₁ =>
    rw [hr] at h
    exact ⟨H₁, rfl, h⟩

theorem getCustoms_turns (h : getCustomsPropertiesByInheritance (n + 1) H x = .ok H') : ∃ H₁ H₂,
    (H x).templates.foldlM (customsTurn n x) H = .ok H₁ ∧ (H₁ x).customs.entries.foldlM (plusCustom x) H₁ = .ok H₂ ∧
      H' = H₂.set x (H₂ x).getAllPlusAndDelete := by
  unfold getCustomsPropertiesByInheritance at h
  cases h1 : (H x).templates.foldlM (customsTurn n x) H with
  | error e =>
    unfold customsTurn at h1
    rw [h1] at h
    cases h
  | ok H₁ =>
    have h1' := h1
    unfold customsTurn at h1'
    rw [h1'] at h
    simp only [bind, Except.bind] at h
    cases h2 : (H₁ x).customs.entries.foldlM (plusCustom x) H₁ with
    | error e => rw [h2] at h; cases h
    | ok H₂ =>
      rw [h2] at h
      cases h
      exact ⟨H₁, H₂, rfl, h2, rfl⟩

end

end Heap

end Alignak
