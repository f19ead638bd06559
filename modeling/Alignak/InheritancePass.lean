import Alignak.InheritanceEnds

/-!
# The pass over one property

A walk changes nothing but the property where it has no value
(`getProperty_kept`). On a heap whose changes are values that a walk has put
there it gives the reference value (`getProperty_spec`).
-/

namespace Alignak

namespace Heap

open Relation

def null : Value := .str "null"

theorem null_ne_none : null ≠ Value.none := Value.noConfusion

/-! ## What a walk keeps -/

structure Kept (prop : String) (H H' : Heap) : Prop where
  same : ∀ y, SameBut prop (H y) (H' y)
  plus : ∀ y, (H y).plus.get? prop = none → (H' y).plus.get? prop = none
  attr : ∀ y v, (H y).attr prop = some v → (H' y).attr prop = some v

section
variable {prop : String} {H H' H'' : Heap} {x n : Nat} {o : Item}

theorem Kept.refl (H : Heap) : Kept prop H H := ⟨fun _ => SameBut.refl prop _, fun _ h => h, fun _ _ h => h⟩

theorem Kept.set (h : Kept prop H H') (hx : (H x).attr prop = none) (ho : Sets prop (H' x) o) : Kept prop H (H'.set x o) := by
  refine ⟨fun y => ?_, fun y hy => ?_, fun y v hv => ?_⟩
  · by_cases he : y = x
    · rw [he, set_self]; exact (he ▸ h.same y).trans ho.toSameBut
    · rw [set_ne o he]; exact h.same y
  · by_cases he : y = x
    · rw [he] at hy ⊢; rw [set_self]; exact ho.plus (h.plus x hy)
    · rw [set_ne o he]; exact h.plus y hy
  · by_cases he : y = x
    · rw [he, hx] at hv; cases hv
    · rw [set_ne o he]; exact h.attr y v hv

/-- A walk sets the property only where there is none. -/
theorem getProperty_kept {v : Value} (h : getPropertyByInheritance prop n H x = .ok (v, H')) : Kept prop H H' := by
  refine getProperty_keeps (I := Kept prop H) (W := fun y => (H y).attr prop = none) (fun H₁ y o hy hI ho => hI.set hy ho)
    (fun H₁ y hI hy => ?_) n H x v H' (Kept.refl H) h
  cases ha : (H y).attr prop with
  | none => rfl
  | some w => rw [hI.attr y w ha] at hy; cases hy

/-! ## What a turn deletes -/

/-- The property is deleted from the objects of `N`. -/
def removed (H : Heap) (prop : String) (N : List Nat) : Heap := fun x => if x ∈ N then (H x).delAttr prop else H x

section
variable {N N' : List Nat}

theorem removed_same : SameBut prop (H x) (removed H prop N x) := by
  unfold removed
  split
  · exact SameBut.delAttr prop _
  · exact SameBut.refl prop _

theorem removed_plus : (removed H prop N x).plus = (H x).plus := by
  unfold removed
  split <;> rfl

theorem removed_attr : (removed H prop N x).attr prop = if x ∈ N then none else (H x).attr prop := by
  unfold removed
  split
  · exact Function.update_self ..
  · rfl

theorem removed_notMem (hx : x ∉ N) : removed H prop N x = H x := if_neg hx

theorem removed_removed : removed (removed H prop N) prop N' = removed H prop (N' ++ N) := by
  funext x
  unfold removed Item.delAttr
  by_cases hx' : x ∈ N' <;> by_cases hx : x ∈ N <;> simp [hx, hx', Function.update_idem]

theorem removed_congr (h : ∀ x, x ∈ N ↔ x ∈ N') : removed H prop N = removed H prop N' := by
  funext x
  unfold removed
  simp only [h x]

end

section
variable {v : Value} {H₁ : Heap}

theorem inheritProperty_null (hr : getPropertyByInheritance prop n H x = .ok (v, H₁)) (ha : (H₁ x).attr prop = some null) :
    inheritProperty n prop H x = .ok (removed H₁ prop [x]) := by
  have hset : H₁.set x ((H₁ x).delAttr prop) = removed H₁ prop [x] := by
    funext y
    by_cases hy : y = x
    · rw [hy, set_self]
      exact (if_pos List.mem_cons_self).symm
    · rw [set_ne _ hy, removed_notMem (by simpa using hy)]
  unfold inheritProperty
  simp only [hr, bind, Except.bind]
  rw [if_pos (show (H₁ x).attr prop = some (.str "null") from ha), hset]
  rfl

theorem inheritProperty_value (hr : getPropertyByInheritance prop n H x = .ok (v, H₁)) (ha : (H₁ x).attr prop ≠ some null) :
    inheritProperty n prop H x = .ok H₁ := by
  unfold inheritProperty
  simp only [hr, bind, Except.bind]
  rw [if_neg (show ¬ (H₁ x).attr prop = some (.str "null") from ha)]
  rfl

/-- A turn is the walk and the deletion of a `null` value. -/
theorem inheritProperty_eq (hr : getPropertyByInheritance prop n H x = .ok (v, H₁)) :
    ∃ N, inheritProperty n prop H x = .ok (removed H₁ prop N) ∧ ∀ y, y ∈ N ↔ y = x ∧ (H₁ x).attr prop = some null := by
  by_cases ha : (H₁ x).attr prop = some null
  · exact ⟨[x], inheritProperty_null hr ha, fun y => by simp [ha]⟩
  · have hnil : removed H₁ prop [] = H₁ := funext fun y => removed_notMem List.not_mem_nil
    exact ⟨[], by rw [inheritProperty_value hr ha, hnil], fun y => by simp [ha]⟩

end

/-- A turn deletes the property of its own object, where it is `null`. -/
theorem inheritProperty_kept (h : inheritProperty n prop H x = .ok H') :
    (∀ y, SameBut prop (H y) (H' y)) ∧ (∀ y, (H y).plus.get? prop = none → (H' y).plus.get? prop = none) ∧
      ∀ y v, y ≠ x ∨ v ≠ null → (H y).attr prop = some v → (H' y).attr prop = some v := by
  obtain ⟨w, H₁, hr, -⟩ := inheritProperty_calls h
  obtain ⟨N, hN, hmem⟩ := inheritProperty_eq hr
  cases hN.symm.trans h
  have h1 := getProperty_kept hr
  refine ⟨fun y => (h1.same y).trans removed_same, fun y hy => by rw [removed_plus]; exact h1.plus y hy, fun y v hyv hv => ?_⟩
  have hv1 := h1.attr y v hv
  rw [removed_attr, if_neg, hv1]
  intro hm
  obtain ⟨rfl, hnull⟩ := (hmem y).mp hm
  exact hyv.elim (fun hne => hne rfl) fun hne => hne (Option.some.inj (hv1.symm.trans hnull))

theorem foldInherit_kept {xs : List Nat} (h : xs.foldlM (inheritProperty n prop) H = .ok H') :
    (∀ y, SameBut prop (H y) (H' y)) ∧ (∀ y, (H y).plus.get? prop = none → (H' y).plus.get? prop = none) ∧
      ∀ y v, y ∉ xs ∨ v ≠ null → (H y).attr prop = some v → (H' y).attr prop = some v := by
  refine foldlM_of_ok (I := fun H₁ : Heap => (∀ y, SameBut prop (H y) (H₁ y)) ∧
    (∀ y, (H y).plus.get? prop = none → (H₁ y).plus.get? prop = none) ∧
      ∀ y v, y ∉ xs ∨ v ≠ null → (H y).attr prop = some v → (H₁ y).attr prop = some v) h (fun x hx H₁ H₂ hr hI => ?_)
    ⟨fun _ => SameBut.refl prop _, fun _ h => h, fun _ _ _ h => h⟩
  obtain ⟨hs, hp, ha⟩ := inheritProperty_kept hr
  exact ⟨fun y => (hI.1 y).trans (hs y), fun y hy => hp y (hI.2.1 y hy),
    fun y v hyv hv => ha y v (hyv.imp (fun hy e => hy (e ▸ hx)) id) (hI.2.2 y v hyv hv)⟩

end

/-! ## The value after the pass -/

section
variable {x : Nat} {v : Value} {vs : List Value} {o o' : Item} {H H₀ : Heap} {rank : Nat → Nat} {prop : String} {k : Kind}

/-- `null` is no value. -/
def finalAttr (H₀ : Heap) (rank : Nat → Nat) (prop : String) (x : Nat) : Option Value :=
  match (H₀ x).attr prop with
  | some v => if v = null then none else some v
  | none => if H₀.ref rank prop x = .none ∨ H₀.ref rank prop x = null then none else some (H₀.ref rank prop x)

theorem finalAttr_own (ha : (H₀ x).attr prop = some v) : finalAttr H₀ rank prop x = if v = null then none else some v := by
  unfold finalAttr; rw [ha]

theorem finalAttr_inherited (ha : (H₀ x).attr prop = none) :
    finalAttr H₀ rank prop x =
      if H₀.ref rank prop x = .none ∨ H₀.ref rank prop x = null then none else some (H₀.ref rank prop x) := by
  unfold finalAttr; rw [ha]

/-- A boolean property is never `null`. -/
def RegisterOk (H₀ : Heap) (prop : String) (k : Kind) : Prop :=
  prop = "register" → k = .scalar ∧ ∀ x, (H₀ x).attr prop ≠ some null

/-! ## Walks that find no deleted value -/

/-- The property is untouched, or resolved. -/
structure Holds (H₀ : Heap) (rank : Nat → Nat) (prop : String) (H : Heap) (x : Nat) : Prop where
  same : SameBut prop (H₀ x) (H x)
  kept : ((H x).attr prop = (H₀ x).attr prop ∧ (H x).plus.get? prop = (H₀ x).plus.get? prop) ∨
    ((H₀ x).attr prop = none ∧ H₀.ref rank prop x ≠ .none ∧ Resolved prop (H₀ x) (H₀.ref rank prop x) (H x))

theorem SameBut.combine (h : SameBut prop o o') (hp : o'.plus.get? prop = o.plus.get? prop)
    (vs : List Value) : combine o' prop vs = combine o prop vs := combine_same h.isATemplate hp vs

theorem SameBut.clean (h : SameBut prop o o') (v : Value) : o'.clean v = o.clean v := by
  unfold Item.clean Item.cleanList
  rw [h.isATemplate]

theorem Resolved.of_same {o'' : Item} (h : SameBut prop o o') (hr : Resolved prop o' v o'') :
    Resolved prop o v o'' := ⟨h.trans hr.same, hr.attr, hr.plus⟩

theorem plus_of_combine_none (h : combine o prop vs = .none) :
    o.plus.get? prop = none := by
  cases hp : o.plus.get? prop with
  | none => rfl
  | some pl =>
    unfold combine at h
    rw [hp] at h
    split at h <;> simp_all

theorem Holds.set_of_ne {y : Nat} (hy : y ≠ x) (h : Holds H₀ rank prop H y) : Holds H₀ rank prop (H.set x o) y := by
  have e : (H.set x o) y = H y := set_ne o hy
  exact ⟨by rw [e]; exact h.same, by rw [e]; exact h.kept⟩

theorem Holds.of_attr_none (h : Holds H₀ rank prop H x) (ha : (H x).attr prop = none) :
    (H x).plus.get? prop = (H₀ x).plus.get? prop ∧ (H₀ x).attr prop = none := by
  rcases h.kept with ⟨h1, h2⟩ | ⟨_, h2, h3⟩
  · exact ⟨h2, h1 ▸ ha⟩
  · rw [h3.attr, if_neg h2] at ha; cases ha

theorem Holds.of_attr_some (hp : prop ≠ "register") (hrank : ∀ x, ∀ t ∈ (H₀ x).templates, rank t < rank x)
    (hf : k.Fits (H₀ x) prop) (h : Holds H₀ rank prop H x) (ha : (H x).attr prop = some v) :
    (H x).plus.get? prop = none ∧ (H x).clean v = H₀.ref rank prop x ∧
      ((H₀ x).attr prop = none → Resolved prop (H₀ x) (H₀.ref rank prop x) (H x)) := by
  rw [h.same.clean]
  rcases h.kept with ⟨h1, h2⟩ | ⟨h1, h2, h3⟩
  · rw [h1] at ha
    refine ⟨h2.trans (hf.attr v ha).2, (ref_own hp ha).symm, fun h => ?_⟩
    rw [ha] at h; cases h
  · rw [h3.attr, if_neg h2] at ha
    cases ha
    refine ⟨h3.plus, ?_, fun _ => h3⟩
    rw [ref_combine hrank hp h1, clean_combine]

structure Visited (H₀ : Heap) (rank : Nat → Nat) (prop : String) (x : Nat) (H H' : Heap) : Prop where
  holds : ∀ y, Holds H₀ rank prop H y → Holds H₀ rank prop H' y
  frame : ∀ y, y ≠ x → rank x ≤ rank y → H' y = H y
  plus : (H' x).plus.get? prop = none
  resolved : (H₀ x).attr prop = none → Resolved prop (H₀ x) (H₀.ref rank prop x) (H' x)

/-- While `x` is walked: the other objects hold, and only those of a lower rank have changed. -/
def OthersKept (H₀ : Heap) (rank : Nat → Nat) (prop : String) (x : Nat) (H H' : Heap) : Prop :=
  (∀ y, y ≠ x → Holds H₀ rank prop H y → Holds H₀ rank prop H' y) ∧ ∀ y, y ≠ x → rank x ≤ rank y → H' y = H y

theorem OthersKept.set {H' : Heap} (h : OthersKept H₀ rank prop x H H') (o : Item) :
    OthersKept H₀ rank prop x H (H'.set x o) :=
  ⟨fun y hy hH => (h.1 y hy hH).set_of_ne hy, fun y hy hr => (set_ne o hy).trans (h.2 y hy hr)⟩

theorem visited_of_walk (hrank : ∀ x, ∀ t ∈ (H₀ x).templates, rank t < rank x) (hp : prop ≠ "register") {H' : Heap}
    (hH : Holds H₀ rank prop H x) (hI : OthersKept H₀ rank prop x H H') (ha : (H x).attr prop = none)
    (hr : Resolved prop (H x) (combine (H x) prop ((H₀ x).templates.map (H₀.ref rank prop))) (H' x)) :
    combine (H x) prop ((H₀ x).templates.map (H₀.ref rank prop)) = H₀.ref rank prop x ∧ Visited H₀ rank prop x H H' := by
  obtain ⟨hplus, hown⟩ := hH.of_attr_none ha
  have href := ref_combine hrank hp hown
  rw [hH.same.combine hplus, ← href] at hr ⊢
  have hres : Resolved prop (H₀ x) (H₀.ref rank prop x) (H' x) := hr.of_same hH.same
  refine ⟨rfl, fun y hy => ?_, hI.2, hres.plus, fun _ => hres⟩
  by_cases hyx : y = x
  · rw [hyx]
    refine ⟨hres.same, ?_⟩
    by_cases hn : H₀.ref rank prop x = .none
    · rw [hn] at hres
      have hno : (H₀ x).plus.get? prop = none := plus_of_combine_none (href.symm.trans hn)
      exact Or.inl ⟨by rw [hres.attr, if_pos rfl, hown], by rw [hres.plus, hno]⟩
    · exact Or.inr ⟨hown, hn, hres⟩
  · exact hI.1 y hyx hy

/-- The walk gives the reference value, and puts nothing else anywhere. -/
theorem getProperty_spec (hrank : ∀ x, ∀ t ∈ (H₀ x).templates, rank t < rank x) (hf : ∀ x, k.Fits (H₀ x) prop)
    (hp : prop ≠ "register") : ∀ (n x : Nat) (H : Heap), rank x < n → (∀ y, rank y ≤ rank x → Holds H₀ rank prop H y) →
    ∃ H', getPropertyByInheritance prop n H x = .ok (H₀.ref rank prop x, H') ∧ Visited H₀ rank prop x H H'
  | 0, x, H, h, _ => absurd h (Nat.not_lt_zero _)
  | n + 1, x, H, hn, hH => by
    have hHx := hH x le_rfl
    unfold getPropertyByInheritance
    rw [if_neg hp]
    cases ha : (H x).attr prop with
    | some v =>
      obtain ⟨hpl, hcl, hres⟩ := hHx.of_attr_some hp hrank (hf x) ha
      have hplus : (H x).hasPlus prop = false := by
        unfold Item.hasPlus Dict.contains
        rw [hpl]; rfl
      simp only [hplus, Bool.false_eq_true, if_false, hcl]
      exact ⟨H, rfl, fun _ h => h, fun _ _ _ => rfl, hpl, hres⟩
    | none =>
      obtain ⟨hplus, hown⟩ := hHx.of_attr_none ha
      have hfx : k.Fits (H x) prop :=
        ⟨fun v h => absurd (ha.symm.trans h) (Option.some_ne_none v).symm, fun pl h => (hf x).plus pl (hplus ▸ h)⟩
      have htpl : (H x).templates = (H₀ x).templates := hHx.same.templates
      have hwalk : Walkable (fun t => rank t < rank x) (fun t v => v = H₀.ref rank prop t) (H₀ x).templates :=
        Walkable.of_all fun t ht => hrank x t ht
      obtain ⟨vs, res, H₁, hvs, hw, hI, hd⟩ := walk_spec (I := OthersKept H₀ rank prop x H) hfx ha
        (fun H' o' hI => hI.set o')
        (fun t v (hv : v = H₀.ref rank prop t) => by rw [hv]; exact has_ref hrank hf t) (fun t => ⟨H₀.ref rank prop t, rfl⟩)
        (fun t ht H' hI => by
          have hlow : ∀ y, rank y ≤ rank t → Holds H₀ rank prop H' y := by
            intro y hy
            have hlt : rank y < rank x := lt_of_le_of_lt hy ht
            have hyx : y ≠ x := fun h => by rw [h] at hlt; exact lt_irrefl _ hlt
            exact hI.1 y hyx (hH y hlt.le)
          obtain ⟨H'', hr, hvis⟩ := getProperty_spec hrank hf hp n t H' (by omega) hlow
          have htx : x ≠ t := fun h => by rw [h] at ht; exact lt_irrefl _ ht
          refine ⟨_, H'', hr, ⟨fun y hy h => hvis.holds y (hI.1 y hy h), fun y hy h => ?_⟩, hvis.frame x htx ht.le, rfl⟩
          have hyt : y ≠ t := fun e => by rw [e] at h; exact absurd ht (not_lt.mpr h)
          exact (hvis.frame y hyt (ht.le.trans h)).trans (hI.2 y hy h))
        (H₀ x).templates [] H (fun a h => by cases h) rfl ⟨fun y _ h => h, fun _ _ _ => rfl⟩ hwalk
      have hmap : vs = (H₀ x).templates.map (H₀.ref rank prop) := by
        have heq : List.Forall₂ (· = ·) vs ((H₀ x).templates.map (H₀.ref rank prop)) :=
          List.forall₂_map_right_iff.mpr hvs.flip
        exact List.forall₂_eq_eq_eq ▸ heq
      subst hmap
      rw [List.nil_append] at hd
      simp only [htpl, hw, bind, Except.bind]
      cases res with
      | some v =>
        obtain ⟨rfl, hres⟩ := hd
        obtain ⟨hval, hvis⟩ := visited_of_walk hrank hp hHx hI ha hres
        exact ⟨H₁, by rw [hval]; rfl, hvis⟩
      | none =>
        obtain ⟨o', he, hres⟩ := end_walk hfx ha (Prod.ext rfl hd.1) hd.2
        rw [← set_self H₁ x o'] at hres
        obtain ⟨hval, hvis⟩ := visited_of_walk hrank hp hHx (hI.set o') ha hres
        exact ⟨_, by rw [he, hval], hvis⟩

/-! ## List properties -/

theorem list_ne_null (h : Kind.list.Has v) : v ≠ null := by
  rcases h with rfl | ⟨l, rfl⟩ <;> exact Value.noConfusion

/-- No value of a list property is deleted. -/
theorem listTurn_spec (hrank : ∀ x, ∀ t ∈ (H₀ x).templates, rank t < rank x) (hf : ∀ x, Kind.list.Fits (H₀ x) prop)
    (hp : prop ≠ "register") {n : Nat} (hn : rank x < n) (hH : ∀ y, Holds H₀ rank prop H y) :
    ∃ H', inheritProperty n prop H x = .ok H' ∧ (∀ y, Holds H₀ rank prop H' y) ∧ (H' x).plus.get? prop = none ∧
      ((H₀ x).attr prop = none → H₀.ref rank prop x ≠ .none → (H' x).attr prop = some (H₀.ref rank prop x)) := by
  obtain ⟨H₁, hr, hvis⟩ := getProperty_spec hrank hf hp n x H hn fun y _ => hH y
  have hkeep : (H₁ x).attr prop ≠ some null := by
    rcases (hvis.holds x (hH x)).kept with ⟨h1, -⟩ | ⟨-, h2, h3⟩
    · rw [h1]
      exact fun h => list_ne_null ((hf x).attr null h).1 rfl
    · rw [h3.attr, if_neg h2]
      exact fun h => list_ne_null (has_ref hrank hf x) (Option.some.inj h)
  exact ⟨H₁, inheritProperty_value hr hkeep, fun y => hvis.holds y (hH y), hvis.plus,
    fun ha hne => by rw [(hvis.resolved ha).attr, if_neg hne]⟩

theorem listFold_spec (hrank : ∀ x, ∀ t ∈ (H₀ x).templates, rank t < rank x) (hf : ∀ x, Kind.list.Fits (H₀ x) prop)
    (hp : prop ≠ "register") {n : Nat} (hn : ∀ x, rank x < n) : ∀ (xs : List Nat) (H : Heap), (∀ y, Holds H₀ rank prop H y) →
    ∃ H', xs.foldlM (inheritProperty n prop) H = .ok H' ∧ (∀ y, Holds H₀ rank prop H' y) ∧
      ∀ x ∈ xs, (H' x).attr prop = finalAttr H₀ rank prop x ∧ (H' x).plus.get? prop = none
  | [], H, hH => ⟨H, rfl, hH, fun _ h => absurd h List.not_mem_nil⟩
  | x :: xs, H, hH => by
    obtain ⟨H₁, hr, hH1, hplus, hset⟩ := listTurn_spec hrank hf hp (hn x) hH
    obtain ⟨H₂, hr2, hH2, hdone⟩ := listFold_spec hrank hf hp hn xs H₁ hH1
    have hrun : (x :: xs).foldlM (inheritProperty n prop) H = .ok H₂ := by rw [List.foldlM_cons, hr]; exact hr2
    refine ⟨H₂, hrun, hH2, fun y hy => ?_⟩
    rcases List.mem_cons.mp hy with rfl | hy
    · obtain ⟨-, hp2, ha2⟩ := foldInherit_kept hr2
      refine ⟨?_, hp2 y hplus⟩
      have hkept : ∀ v, v ≠ null → (H₁ y).attr prop = some v → (H₂ y).attr prop = some v := fun v hv => ha2 y v (Or.inr hv)
      cases ha : (H₀ y).attr prop with
      | some v =>
        have hv := list_ne_null ((hf y).attr v ha).1
        rw [finalAttr_own ha, if_neg hv]
        refine hkept v hv ?_
        rcases (hH1 y).kept with ⟨h1, -⟩ | ⟨h1, -⟩
        · rw [h1, ha]
        · rw [ha] at h1; cases h1
      | none =>
        rw [finalAttr_inherited ha]
        have hnull := list_ne_null (has_ref hrank hf y)
        by_cases hne : H₀.ref rank prop y = .none
        · rw [if_pos (Or.inl hne)]
          rcases (hH2 y).kept with ⟨h1, -⟩ | ⟨-, h2, -⟩
          · rw [h1, ha]
          · exact absurd hne h2
        · rw [if_neg fun h => h.elim hne hnull]
          exact hkept _ hnull (hset ha hne)
    · exact hdone y hy

end

end Heap

end Alignak
