import Alignak.StoredValues

/-!
# Null values in templates

`NullHarmless` says where the `null` values that a pass deletes make no
difference, whatever the order of the templates (`scalarFold_spec`). Elsewhere
some order gives a template another value (`exists_bad_order`).
-/

namespace Alignak

namespace Heap

open Relation

/-! ## The templates -/

section
variable (H₀ : Heap) (rank : Nat → Nat) (prop : String)

/-- `y` uses `s`, and before it no template that leads to `s`. -/
def UsesFirst (y s : Nat) : Prop :=
  s ∈ (H₀ y).templates ∧ ∀ t ∈ (H₀ y).templates.takeWhile (· ≠ s), ¬ TransGen (Passes H₀ prop) t s

/-- Behind `y` there are only `null` values, each in a template that `y` comes to before any other that leads to it. -/
structure Harmless (y : Nat) : Prop where
  nulls : ∀ w, TransGen (Passes H₀ prop) y w → H₀.ref rank prop w = .none ∨ H₀.ref rank prop w = null
  first : ∀ s, TransGen (Passes H₀ prop) y s → (H₀ s).attr prop = some null → UsesFirst H₀ prop y s

/-- While the templates have their turns: `D` have had theirs. -/
structure Settled (templates D : List Nat) (H : Heap) : Prop where
  caches : Caches H₀ rank prop (fun x => x ∈ templates ∧ H₀.ref rank prop x ≠ null) H
  done : ∀ x ∈ D, H₀.ref rank prop x ≠ null → H₀.ref rank prop x ≠ .none → (H x).attr prop ≠ none
  nulls : ∀ x ∈ templates, H₀.ref rank prop x = null → SameBut prop (H₀ x) (H x) ∧ (H x).plus.get? prop = none ∧
    (H x).attr prop = if x ∈ D then none else (H₀ x).attr prop
  frame : ∀ x, x ∉ templates → H x = H₀ x

end

section
variable {H H' H₀ : Heap} {rank : Nat → Nat} {prop : String} {x y s t n : Nat} {v : Value} {templates D : List Nat}

theorem Settled.start (hS : Scalars H₀ rank prop) : Settled H₀ rank prop templates [] H₀ :=
  ⟨Caches.start hS, fun _ h => absurd h List.not_mem_nil,
    fun x _ _ => ⟨SameBut.refl prop _, scalar_plus (hS.fits x), (if_neg List.not_mem_nil).symm⟩, fun _ _ => rfl⟩

section
variable (hS : Scalars H₀ rank prop) (hlinks : ∀ x ∈ templates, ∀ t ∈ (H₀ x).templates, t ∈ templates)

include hS in
theorem Passes.rank_lt (h : TransGen (Passes H₀ prop) x y) : rank y < rank x := by
  induction h with
  | single h => exact hS.rank _ _ h.1
  | tail _ h ih => exact (hS.rank _ _ h.1).trans ih

include hlinks in
theorem Passes.mem (hx : x ∈ templates) (h : ReflTransGen (Passes H₀ prop) x y) : y ∈ templates := by
  induction h with
  | refl => exact hx
  | tail _ h ih => exact hlinks _ ih _ h.1

/-- A walk through objects without a value finds none and leaves none. -/
theorem dead_spec (hp : prop ≠ "register") : ∀ (n x : Nat), rank x < n → (∀ y, ∀ t ∈ (H y).templates, rank t < rank y) →
    (∀ y, (H y).plus.get? prop = none) →
    (∀ y, ReflTransGen (fun y t => (H y).attr prop = none ∧ t ∈ (H y).templates) x y →
      (H y).attr prop = none ∨ (H y).attr prop = some .none) →
    getPropertyByInheritance prop n H x = .ok (.none, H)
  | 0, _, h, _, _, _ => absurd h (Nat.not_lt_zero _)
  | n + 1, x, hn, hlow, hplus, hdead => by
    rcases hdead x .refl with ha | ha
    · refine getProperty_void hp ha (hplus x) fun t ht => ?_
      have hlt := hlow x t ht
      exact dead_spec hp n t (by omega) hlow hplus fun y hy => hdead y (.head ⟨ha, ht⟩ hy)
    · rw [getProperty_owned hp ha (hplus x)]
      rfl

include hS in
theorem Settled.of_ref_none (h : Settled H₀ rank prop templates D H) (hx : x ∈ templates) (hn : H₀.ref rank prop x = .none) :
    (H x).attr prop = (H₀ x).attr prop ∧ ((H x).attr prop = none ∨ (H x).attr prop = some .none) := by
  have hown : (H x).attr prop = (H₀ x).attr prop :=
    (h.caches.attr x ⟨hx, by rw [hn]; exact null_ne_none.symm⟩).resolve_right fun h => h.2.1 hn
  refine ⟨hown, ?_⟩
  rw [hown]
  cases ha : (H₀ x).attr prop with
  | none => exact Or.inl rfl
  | some v =>
    rw [ref_scalar hS ha] at hn
    exact Or.inr (by rw [hn])

theorem Settled.same (h : Settled H₀ rank prop templates D H) (x : Nat) : SameBut prop (H₀ x) (H x) := by
  by_cases hx : x ∈ templates
  · by_cases hn : H₀.ref rank prop x = null
    · exact (h.nulls x hx hn).1
    · exact h.caches.same x ⟨hx, hn⟩
  · rw [h.frame x hx]
    exact SameBut.refl prop _

include hS in
theorem Settled.noPlus (h : Settled H₀ rank prop templates D H) (x : Nat) : (H x).plus.get? prop = none := by
  by_cases hx : x ∈ templates
  · by_cases hn : H₀.ref rank prop x = null
    · exact (h.nulls x hx hn).2.1
    · exact h.caches.plus x ⟨hx, hn⟩
  · rw [h.frame x hx]
    exact scalar_plus (hS.fits x)

include hS hlinks in
/-- Where no `null` is left behind `t`, a walk from it finds nothing. -/
theorem Settled.dead (h : Settled H₀ rank prop templates D H) (ht : t ∈ templates) (hn : rank t < n)
    (hnulls : ∀ w, ReflTransGen (Passes H₀ prop) t w → H₀.ref rank prop w = .none ∨ H₀.ref rank prop w = null)
    (hgone : ∀ s, ReflTransGen (Passes H₀ prop) t s → (H₀ s).attr prop = some null → s ∈ D) :
    getPropertyByInheritance prop n H t = .ok (.none, H) := by
  have htpl : ∀ y, (H y).templates = (H₀ y).templates := fun y => (h.same y).templates
  have hstate : ∀ y, ReflTransGen (Passes H₀ prop) t y →
      ((H y).attr prop = none ∨ (H y).attr prop = some .none) ∧
        ((H y).attr prop = none → (H₀ y).attr prop = none ∨ (H₀ y).attr prop = some null) := by
    intro y hy
    have hyT := Passes.mem hlinks ht hy
    rcases hnulls y hy with hnone | hnull
    · obtain ⟨hsame, hor⟩ := h.of_ref_none hS hyT hnone
      exact ⟨hor, fun hn => Or.inl (hsame ▸ hn)⟩
    · obtain ⟨-, -, hattr⟩ := h.nulls y hyT hnull
      have hown : (H₀ y).attr prop = none ∨ (H₀ y).attr prop = some null := by
        cases ha : (H₀ y).attr prop with
        | none => exact Or.inl rfl
        | some v => exact Or.inr (by rw [← hnull, ref_scalar hS ha])
      refine ⟨Or.inl ?_, fun _ => hown⟩
      rw [hattr]
      rcases hown with ha | ha
      · rw [ha, ite_self]
      · rw [if_pos (hgone y hy ha)]
  refine dead_spec hS.named n t hn (fun y s hs => hS.rank y s (htpl y ▸ hs)) (fun y => h.noPlus hS y) fun y hy => ?_
  have hpath : ReflTransGen (Passes H₀ prop) t y := by
    induction hy with
    | refl => exact .refl
    | @tail b c _ hbc ih => exact ih.tail ⟨htpl b ▸ hbc.2, (hstate b ih).2 hbc.1⟩
  exact (hstate y hpath).1

include hS in
/-- The first template that leads to a `null` value which is left is that value's own. -/
theorem Harmless.first_left (hharm : Harmless H₀ rank prop x) (ha : (H₀ x).attr prop = none)
    (hleft : ∃ t ∈ (H₀ x).templates, ∃ s, ReflTransGen (Passes H₀ prop) t s ∧ (H₀ s).attr prop = some null ∧ s ∉ D) :
    ∃ s before after, (H₀ x).templates = before ++ s :: after ∧ (H₀ s).attr prop = some null ∧ s ∉ D ∧
      ∀ b ∈ before, ∀ s', ReflTransGen (Passes H₀ prop) b s' → (H₀ s').attr prop = some null → s' ∈ D := by
  classical
  obtain ⟨t, hfind⟩ : ∃ t, (H₀ x).templates.find? (fun t => ∃ s, ReflTransGen (Passes H₀ prop) t s ∧
      (H₀ s).attr prop = some null ∧ s ∉ D) = some t := by
    obtain ⟨t, ht, hs⟩ := hleft
    exact Option.isSome_iff_exists.mp (List.find?_isSome.mpr ⟨t, ht, by simpa using hs⟩)
  obtain ⟨hdec, before, after, hsplit, hbefore⟩ := List.find?_eq_some_iff_append.mp hfind
  obtain ⟨s, hts, hown, hD⟩ : ∃ s, ReflTransGen (Passes H₀ prop) t s ∧ (H₀ s).attr prop = some null ∧ s ∉ D := by
    simpa using hdec
  have hgone : ∀ b ∈ before, ∀ s', ReflTransGen (Passes H₀ prop) b s' → (H₀ s').attr prop = some null → s' ∈ D := by
    intro b hb s' hbs hs
    by_contra hD
    have := hbefore b hb
    simp only [Bool.not_eq_true', decide_eq_false_iff_not] at this
    exact this ⟨s', hbs, hs, hD⟩
  rcases reflTransGen_iff_eq_or_transGen.mp hts with rfl | hlong
  · exact ⟨s, before, after, hsplit, hown, hD, hgone⟩
  · have hfirst := hharm.first s (.head ⟨List.mem_of_find?_eq_some hfind, Or.inl ha⟩ hlong) hown
    have hne : t ≠ s := fun e => lt_irrefl _ (Passes.rank_lt hS (e ▸ hlong : TransGen (Passes H₀ prop) s s))
    refine absurd hlong (hfirst.2 t ?_)
    rw [hsplit, List.takeWhile_append_of_pos fun b hb => ?_]
    · exact List.mem_append_right _ (by simp [hne])
    · simp only [ne_eq, decide_eq_true_eq]
      rintro rfl
      exact hD (hgone b hb b .refl hown)

include hS hlinks in
/-- The walk of an object that inherits `null`: it stops at the first template
that is still `null`, and the ones before it have nothing. -/
theorem Settled.null_walk (h : Settled H₀ rank prop templates D H) (hx : x ∈ templates) (hn : rank x < n)
    (ha : (H₀ x).attr prop = none) (hnull : H₀.ref rank prop x = null) (hharm : Harmless H₀ rank prop x) :
    ∃ v H', getPropertyByInheritance prop n H x = .ok (v, H') ∧
      (H' = H ∨ H' = H.set x ((H x).setAttr prop null)) := by
  obtain ⟨hsame, hpl, hattr⟩ := h.nulls x hx hnull
  have hnone : (H x).attr prop = none := by rw [hattr, ha, ite_self]
  obtain ⟨n, rfl⟩ : ∃ m, n = m + 1 := ⟨n - 1, by omega⟩
  have htpl : (H x).templates = (H₀ x).templates := hsame.templates
  have hvoid : ∀ b ∈ (H₀ x).templates, (∀ s, ReflTransGen (Passes H₀ prop) b s → (H₀ s).attr prop = some null → s ∈ D) →
      getPropertyByInheritance prop n H b = .ok (.none, H) := by
    intro b hb hgone
    have hlt := hS.rank x b hb
    exact h.dead hS hlinks (hlinks x hx b hb) (by omega) (fun w hw => hharm.nulls w (TransGen.head' ⟨hb, Or.inl ha⟩ hw)) hgone
  by_cases hleft : ∃ t ∈ (H₀ x).templates, ∃ s, ReflTransGen (Passes H₀ prop) t s ∧ (H₀ s).attr prop = some null ∧ s ∉ D
  · obtain ⟨s, before, after, hsplit, hown, hD, hgone⟩ := hharm.first_left hS ha hleft
    have hs : s ∈ (H₀ x).templates := by rw [hsplit]; simp
    obtain ⟨-, hpl', hattr'⟩ := h.nulls s (hlinks x hx s hs) (ref_scalar hS hown)
    rw [if_neg hD, hown] at hattr'
    have hlt := hS.rank x s hs
    obtain ⟨n, rfl⟩ : ∃ m, n = m + 1 := ⟨n - 1, by omega⟩
    refine ⟨null, _, getProperty_found hS.named hnone ?_, Or.inr rfl⟩
    rw [htpl, hsplit, walk_void before _ fun b hb => hvoid b (hsplit ▸ List.mem_append_left _ hb) (hgone b hb)]
    exact walk_value (getProperty_owned hS.named hattr' hpl') (Or.inr (Or.inl ⟨_, rfl⟩)) null_ne_none hnone hpl
  · refine ⟨.none, H, getProperty_void hS.named hnone hpl fun t ht => ?_, Or.inl rfl⟩
    rw [htpl] at ht
    refine hvoid t ht fun s hs hown => ?_
    by_contra hD
    exact hleft ⟨t, ht, s, hs, hown, hD⟩

include hS in
theorem Settled.set_null (h : Settled H₀ rank prop templates D H) (hx : x ∈ templates) (hnull : H₀.ref rank prop x = null)
    (hother : ∀ y, y ≠ x → H' y = H y) (hsame : SameBut prop (H x) (H' x)) (hpl : (H' x).plus.get? prop = none)
    (hattr : (H' x).attr prop = none) : Settled H₀ rank prop templates (x :: D) H' := by
  refine ⟨?_, fun y hy hn hne => ?_, fun y hy hn => ?_, fun y hy => ?_⟩
  · refine h.caches.congr (fun y hy => hother y fun e => hy.2 (e ▸ hnull)) fun y t hy hr ht => ?_
    have htx : t ≠ x := fun e => hy.2 ((hr.ref hS).trans (e ▸ hnull))
    rw [hother t htx]
    exact ht
  · have hyx : y ≠ x := fun e => hn (e ▸ hnull)
    rw [hother y hyx]
    exact h.done y ((List.mem_cons.mp hy).resolve_left hyx) hn hne
  · by_cases hyx : y = x
    · rw [hyx, if_pos List.mem_cons_self]
      exact ⟨(h.nulls x hx hnull).1.trans hsame, hpl, hattr⟩
    · have hmem : y ∈ x :: D ↔ y ∈ D := by simp [hyx]
      rw [hother y hyx]
      simp only [hmem]
      exact h.nulls y hy hn
  · rw [hother y fun e => hy (e ▸ hx)]
    exact h.frame y hy

include hS hlinks in
theorem Settled.set_value (h : Settled H₀ rank prop templates D H) (hx : x ∈ templates) (hne : H₀.ref rank prop x ≠ null)
    (hc : Caches H₀ rank prop (fun x => x ∈ templates ∧ H₀.ref rank prop x ≠ null) H') (hw : Wrote H₀ rank prop x H H')
    (hown : H₀.ref rank prop x ≠ .none → (H' x).attr prop ≠ none) : Settled H₀ rank prop templates (x :: D) H' := by
  refine ⟨hc, fun y hy hn hnone => ?_, fun y hy hn => ?_, fun y hy => ?_⟩
  · rcases List.mem_cons.mp hy with rfl | hy
    · exact hown hnone
    · exact hw.attr_ne_none (h.done y hy hn hnone)
  · have hsame : H' y = H y := (hw y).resolve_right fun hr => hne ((Reads.ref_chain hS hr.1).trans hn)
    have hyx : y ≠ x := fun e => hne (e ▸ hn)
    have hmem : y ∈ x :: D ↔ y ∈ D := by simp [hyx]
    rw [hsame]
    simp only [hmem]
    exact h.nulls y hy hn
  · have hsame : H' y = H y := by
      refine (hw y).resolve_right fun hr => hy ?_
      have hchain := hr.1
      clear hr hy
      induction hchain with
      | refl => exact hx
      | tail _ hbc ih => exact hlinks _ ih _ hbc.mem
    rw [hsame]
    exact h.frame y hy

include hS hlinks in
theorem Settled.step (h : Settled H₀ rank prop templates D H) (hx : x ∈ templates) (hD : x ∉ D) (hn : rank x < n)
    (hharm : (H₀ x).attr prop = none → H₀.ref rank prop x = null → Harmless H₀ rank prop x) :
    ∃ H', inheritProperty n prop H x = .ok H' ∧ Settled H₀ rank prop templates (x :: D) H' := by
  by_cases hnull : H₀.ref rank prop x = null
  · obtain ⟨-, hpl, hattr⟩ := h.nulls x hx hnull
    rw [if_neg hD] at hattr
    cases ha : (H₀ x).attr prop with
    | some v =>
      have hv : v = null := by rw [← hnull, ref_scalar hS ha]
      obtain ⟨n, rfl⟩ : ∃ m, n = m + 1 := ⟨n - 1, by omega⟩
      rw [ha, hv] at hattr
      refine ⟨_, inheritProperty_null (getProperty_owned hS.named hattr hpl) hattr, ?_⟩
      refine h.set_null hS hx hnull (fun y hy => removed_notMem (by simpa using hy)) removed_same (by rw [removed_plus]; exact hpl) ?_
      rw [removed_attr, if_pos List.mem_cons_self]
    | none =>
      rw [ha] at hattr
      obtain ⟨v, H₁, hr, hH1⟩ := h.null_walk hS hlinks hx hn ha hnull (hharm ha hnull)
      rcases hH1 with rfl | rfl
      · refine ⟨_, inheritProperty_value hr (by rw [hattr]; exact (Option.some_ne_none _).symm), ?_⟩
        exact h.set_null hS hx hnull (fun _ _ => rfl) (SameBut.refl prop _) hpl hattr
      · refine ⟨_, inheritProperty_null hr (by rw [set_self]; exact Item.setAttr_attr null), ?_⟩
        refine h.set_null hS hx hnull (fun y hy => (removed_notMem (by simpa using hy)).trans (set_ne _ hy)) ?_ ?_ ?_
        · have hset : SameBut prop (H x) ((H.set x ((H x).setAttr prop null)) x) := by
            rw [set_self]; exact SameBut.setAttr prop _ _
          exact hset.trans removed_same
        · rw [removed_plus, set_self]; exact hpl
        · rw [removed_attr, if_pos List.mem_cons_self]
  · obtain ⟨H₁, hr, hc, hown, hw⟩ := read_spec hS (V := fun x => x ∈ templates ∧ H₀.ref rank prop x ≠ null)
      (fun y hy _ t ht href => ⟨hlinks y hy.1 t ht, href.elim (fun h => by rw [h]; exact null_ne_none.symm)
        fun h => by rw [h]; exact hy.2⟩) n x H hn ⟨hx, hnull⟩ h.caches
    exact ⟨H₁, inheritProperty_value hr fun ha => hnull (hc.value hS ⟨hx, hnull⟩ ha).symm,
      h.set_value hS hlinks hx hnull hc hw hown⟩

include hS in
theorem Settled.final (h : Settled H₀ rank prop templates D H) (hx : x ∈ templates) (hD : x ∈ D) :
    (H x).attr prop = finalAttr H₀ rank prop x := by
  by_cases hnull : H₀.ref rank prop x = null
  · rw [(h.nulls x hx hnull).2.2, if_pos hD, finalAttr_ref hS (Or.inr (by rw [hnull]; exact null_ne_none)),
      if_pos (Or.inr hnull)]
  · have hV : x ∈ templates ∧ H₀.ref rank prop x ≠ null := ⟨hx, hnull⟩
    rw [← h.caches.final hV (h.done x hD hnull),
      if_neg fun ha => hnull (h.caches.value hS hV ha).symm]

end

end

/-! ## From the items to the templates -/

/-- Where a template inherits `null` and no item has read it before, there are
only `null` values behind it, each in a template that it comes to before any
other that leads to it. -/
def NullHarmless (H₀ : Heap) (rank : Nat → Nat) (prop : String) (items templates : List Nat) : Prop :=
  ∀ y ∈ templates, ¬ Known H₀ rank prop items y → H₀.ref rank prop y = null →
    (∀ w, TransGen (Passes H₀ prop) y w → H₀.ref rank prop w = .none ∨ H₀.ref rank prop w = null) ∧
    ∀ s, TransGen (Passes H₀ prop) y s → Known H₀ rank prop items s → H₀.ref rank prop s = null → UsesFirst H₀ prop y s

section
variable {B H₀ : Heap} {rank : Nat → Nat} {prop : String} {x y s t n : Nat} {items templates : List Nat}
  (hS : Scalars H₀ rank prop) (h : AfterItems H₀ rank prop items B)

include h in
theorem AfterItems.links (x : Nat) : (B x).templates = (H₀ x).templates := by
  by_cases hx : x ∈ items
  · exact (h.done x hx).1.templates
  · exact (h.caches.same x hx).templates

include h in
theorem AfterItems.known (hx : x ∉ items) : (B x).attr prop ≠ none ↔ Known H₀ rank prop items x := by
  refine ⟨fun hne => ?_, fun hk => ?_⟩
  · by_cases ha : (H₀ x).attr prop = none
    · exact Or.inr (h.unread x hx ha hne)
    · exact Or.inl ha
  · rcases hk with ha | ⟨i, hi, hix⟩
    · rcases h.caches.attr x hx with h1 | ⟨h1, -⟩
      · rw [h1]; exact ha
      · exact absurd h1 ha
    · exact h.read i hi x hix

include hS h in
theorem AfterItems.null_iff (hx : x ∉ items) :
    (B x).attr prop = some null ↔ Known H₀ rank prop items x ∧ H₀.ref rank prop x = null := by
  rw [← h.known hx]
  constructor
  · intro ha
    exact ⟨by rw [ha]; exact Option.some_ne_none _, (h.caches.value hS hx ha).symm⟩
  · rintro ⟨hne, hnull⟩
    obtain ⟨v, hv⟩ := Option.ne_none_iff_exists'.mp hne
    rw [hv, h.caches.value hS hx hv, hnull]

include hS h in
theorem AfterItems.scalars : Scalars B rank prop := by
  have href : ∀ x, Kind.scalar.Has (H₀.ref rank prop x) := has_ref hS.rank hS.fits
  refine ⟨fun x t ht => hS.rank x t (h.links x ▸ ht), fun x => ?_, hS.named⟩
  by_cases hx : x ∈ items
  · refine fits_scalar (h.done x hx).2.1 fun v hv => ?_
    rw [(h.done x hx).2.2] at hv
    cases ha : (H₀ x).attr prop with
    | some w =>
      rw [finalAttr_own ha] at hv
      split at hv
      · cases hv
      · cases hv; exact ((hS.fits x).attr _ ha).1
    | none =>
      rw [finalAttr_inherited ha] at hv
      split at hv
      · cases hv
      · cases hv; exact href x
  · refine fits_scalar (h.caches.plus x hx) fun v hv => ?_
    rcases h.caches.attr x hx with h1 | ⟨-, -, h1⟩
    · exact ((hS.fits x).attr v (h1.symm.trans hv)).1
    · rw [h1] at hv; cases hv; exact href x

include hS in
/-- Owning its reference value makes no difference to what an object inherits. -/
theorem ref_of_owned (hB : Scalars B rank prop) (htpl : ∀ x, (B x).templates = (H₀ x).templates) (V : Nat → Prop)
    (hV : ∀ x, V x → ∀ t ∈ (H₀ x).templates, V t)
    (hown : ∀ x, V x → (B x).attr prop = (H₀ x).attr prop ∨
      ((H₀ x).attr prop = none ∧ (B x).attr prop = some (H₀.ref rank prop x))) (hx : V x) :
    B.ref rank prop x = H₀.ref rank prop x := by
  induction hn : rank x using Nat.strong_induction_on generalizing x with
  | _ n ih =>
    have hrec : ∀ t ∈ (H₀ x).templates, B.ref rank prop t = H₀.ref rank prop t :=
      fun t ht => ih (rank t) (hn ▸ hS.rank x t ht) (hV x hx t ht) rfl
    rcases hown x hx with h1 | ⟨-, h1⟩
    · cases ha : (H₀ x).attr prop with
      | some v => rw [ref_scalar hS ha, ref_scalar hB (h1.trans ha)]
      | none =>
        rw [ref_find hS ha, ref_find hB (h1.trans ha), htpl x]
        have hfind : ((H₀ x).templates.find? fun t => B.ref rank prop t ≠ .none) =
            (H₀ x).templates.find? fun t => H₀.ref rank prop t ≠ .none :=
          List.find?_congr fun t ht => by rw [hrec t ht]
        rw [hfind]
        cases hs : (H₀ x).templates.find? fun t => H₀.ref rank prop t ≠ .none with
        | none => rfl
        | some t => exact hrec t (List.mem_of_find?_eq_some hs)
    · exact ref_scalar hB h1

variable (hlinks : ∀ x, ∀ t ∈ (H₀ x).templates, t ∈ templates) (hdisj : ∀ x ∈ templates, x ∉ items)

include hS h hlinks hdisj in
theorem AfterItems.ref (hx : x ∈ templates) : B.ref rank prop x = H₀.ref rank prop x :=
  ref_of_owned hS (h.scalars hS) h.links (· ∈ templates) (fun x _ t ht => hlinks x t ht)
    (fun x hx => (h.caches.attr x (hdisj x hx)).imp id fun h => ⟨h.1, h.2.2⟩) hx

include h hdisj hlinks in
theorem AfterItems.passes_left (hx : x ∈ templates) (hxy : TransGen (Passes B prop) x y) : TransGen (Passes H₀ prop) x y := by
  have hone : ∀ {x y}, x ∈ templates → Passes B prop x y → Passes H₀ prop x y := by
    intro x y hx hxy
    refine ⟨h.links x ▸ hxy.1, ?_⟩
    rcases h.caches.attr x (hdisj x hx) with h1 | ⟨h1, -⟩
    · exact h1 ▸ hxy.2
    · exact Or.inl h1
  have hall : TransGen (Passes H₀ prop) x y ∧ y ∈ templates := by
    induction hxy with
    | single hs => exact ⟨.single (hone hx hs), hlinks x _ (h.links x ▸ hs.1)⟩
    | tail _ hs ih => exact ⟨ih.1.tail (hone ih.2 hs), hlinks _ _ (h.links _ ▸ hs.1)⟩
  exact hall.1

include hS h hdisj hlinks in
theorem AfterItems.passes_right (hx : x ∈ templates)
    (hnulls : ∀ w, ReflTransGen (Passes B prop) x w → (B w).attr prop = none ∨ H₀.ref rank prop w = .none ∨ H₀.ref rank prop w = null)
    (hxy : TransGen (Passes H₀ prop) x y) : TransGen (Passes B prop) x y := by
  have hone : ∀ {w y}, w ∈ templates → ReflTransGen (Passes B prop) x w → Passes H₀ prop w y → Passes B prop w y := by
    intro w y hw hxw hwy
    refine ⟨(h.links w).symm ▸ hwy.1, ?_⟩
    cases hb : (B w).attr prop with
    | none => exact Or.inl rfl
    | some v =>
      have hv := h.caches.value hS (hdisj w hw) hb
      rcases h.caches.attr w (hdisj w hw) with h1 | ⟨-, h2, -⟩
      · have hpass := hwy.2
        rw [← h1, hb] at hpass
        exact hpass
      · refine Or.inr ?_
        have hnull := ((hnulls w hxw).resolve_left (by rw [hb]; exact Option.some_ne_none v)).resolve_left h2
        rw [hv, hnull]
  have hall : TransGen (Passes B prop) x y ∧ y ∈ templates := by
    induction hxy with
    | single hs => exact ⟨.single (hone hx .refl hs), hlinks x _ hs.1⟩
    | tail _ hs ih => exact ⟨ih.1.tail (hone ih.2 ih.1.to_reflTransGen hs), hlinks _ _ hs.1⟩
  exact hall.1

include hS h hdisj hlinks in
theorem AfterItems.harmless (hN : NullHarmless H₀ rank prop items templates) (hy : y ∈ templates) (ha : (B y).attr prop = none)
    (hnull : B.ref rank prop y = null) : Harmless B rank prop y := by
  have href : ∀ {x}, x ∈ templates → B.ref rank prop x = H₀.ref rank prop x := h.ref hS hlinks hdisj
  have hmem : ∀ {x y}, TransGen (Passes H₀ prop) x y → y ∈ templates := fun hxy => by
    obtain ⟨z, -, hz⟩ := TransGen.tail'_iff.mp hxy
    exact hlinks z _ hz.1
  have hknown : ¬ Known H₀ rank prop items y := fun hk => (h.known (hdisj y hy)).mpr hk ha
  obtain ⟨hnulls, hfirst⟩ := hN y hy hknown (href hy ▸ hnull)
  have hleft : ∀ {x y}, x ∈ templates → TransGen (Passes B prop) x y → TransGen (Passes H₀ prop) x y :=
    h.passes_left hlinks hdisj
  refine ⟨fun w hw => ?_, fun s hs hown => ?_⟩
  · have hw' := hleft hy hw
    rw [href (hmem hw')]
    exact hnulls w hw'
  · have hs' := hleft hy hs
    obtain ⟨hk, hsn⟩ := (h.null_iff hS (hdisj s (hmem hs'))).mp hown
    obtain ⟨hsmem, hbefore⟩ := hfirst s hs' hk hsn
    refine ⟨(h.links y).symm ▸ hsmem, fun t ht hts => ?_⟩
    rw [h.links y] at ht
    have htT : t ∈ templates := hlinks y t (List.takeWhile_subset _ ht)
    exact hbefore t ht (hleft htT hts)

include hS h hdisj hlinks in
theorem AfterItems.nullHarmless (hN : ∀ y ∈ templates, (B y).attr prop = none → B.ref rank prop y = null → Harmless B rank prop y) :
    NullHarmless H₀ rank prop items templates := by
  have href : ∀ {x}, x ∈ templates → B.ref rank prop x = H₀.ref rank prop x := h.ref hS hlinks hdisj
  have hmem : ∀ {x y}, TransGen (Passes B prop) x y → y ∈ templates := fun hxy => by
    obtain ⟨z, -, hz⟩ := TransGen.tail'_iff.mp hxy
    exact hlinks z _ (h.links z ▸ hz.1)
  intro y hy hk hnull
  have ha : (B y).attr prop = none := by
    by_contra hne
    exact hk ((h.known (hdisj y hy)).mp hne)
  have hharm := hN y hy ha (by rw [href hy, hnull])
  have hall : ∀ w, TransGen (Passes B prop) y w → H₀.ref rank prop w = .none ∨ H₀.ref rank prop w = null := by
    intro w hw
    have := hharm.nulls w hw
    rwa [href (hmem hw)] at this
  have hright : ∀ {w}, TransGen (Passes H₀ prop) y w → TransGen (Passes B prop) y w := by
    refine h.passes_right hS hlinks hdisj hy fun w hw => ?_
    rcases reflTransGen_iff_eq_or_transGen.mp hw with rfl | hw
    · exact Or.inl ha
    · exact Or.inr (hall w hw)
  refine ⟨fun w hw => hall w (hright hw), fun s hs hks hsn => ?_⟩
  obtain ⟨hsmem, hbefore⟩ := hharm.first s (hright hs) ((h.null_iff hS (hdisj s (hmem (hright hs)))).mpr ⟨hks, hsn⟩)
  refine ⟨h.links y ▸ hsmem, fun t ht hts => ?_⟩
  have hty : t ∈ (H₀ y).templates := List.takeWhile_subset _ ht
  refine hbefore t ((h.links y).symm ▸ ht) (h.passes_right hS hlinks hdisj (hlinks y t hty) (fun w hw => Or.inr ?_) hts)
  exact hall w (TransGen.head' ⟨(h.links y).symm ▸ hty, Or.inl ha⟩ hw)

end

/-! ## The whole pass -/

section
variable {B H H' H₀ : Heap} {rank : Nat → Nat} {prop : String} {x y s t n : Nat} {v : Value} {items templates : List Nat}

theorem AfterItems.of_mem {P : List Nat} (h : AfterItems H₀ rank prop P B) (hm : ∀ x, x ∈ P ↔ x ∈ items) :
    AfterItems H₀ rank prop items B := by
  refine ⟨h.caches.mono fun x hx hP => hx ((hm x).mp hP), fun x hx => h.done x ((hm x).mpr hx),
    fun i hi => h.read i ((hm i).mpr hi), fun t ht hown hne => ?_⟩
  obtain ⟨i, hi, hit⟩ := h.unread t (fun hP => ht ((hm t).mp hP)) hown hne
  exact ⟨i, (hm i).mp hi, hit⟩

variable (hS : Scalars H₀ rank prop) (hlinks : ∀ x, ∀ t ∈ (H₀ x).templates, t ∈ templates) (hdisj : ∀ x ∈ templates, x ∉ items)
  (hn : ∀ x, rank x < n)

include hS hlinks hdisj in
theorem AfterItems.finalAttr (h : AfterItems H₀ rank prop items B) (hx : x ∈ templates) :
    Heap.finalAttr B rank prop x = Heap.finalAttr H₀ rank prop x := by
  have href := h.ref hS hlinks hdisj hx
  rcases h.caches.attr x (hdisj x hx) with h1 | ⟨h1, h2, h3⟩
  · unfold Heap.finalAttr
    rw [h1, href]
  · rw [finalAttr_own h3, finalAttr_inherited h1]
    by_cases hv : H₀.ref rank prop x = null
    · rw [if_pos hv, if_pos (Or.inr hv)]
    · rw [if_neg hv, if_neg fun h => h.elim h2 hv]

include hS hlinks hdisj hn in
theorem afterItems_run (hi : items.Nodup) :
    ∃ B, items.foldlM (inheritProperty n prop) H₀ = .ok B ∧ AfterItems H₀ rank prop items B := by
  obtain ⟨B, hr, hB⟩ := foldlM_turns_ok hi (fun P x H hP hx hxP h =>
    h.step hS (fun x t ht => hdisj t (hlinks x t ht)) hP hx hxP (hn x)) (AfterItems.start hS)
  exact ⟨B, hr, hB.of_mem fun x => by simp⟩

include hS hlinks hdisj hn in
theorem scalarFold_spec (hi : items.Nodup) (ht : templates.Nodup) (hN : NullHarmless H₀ rank prop items templates) :
    ∃ H', (items ++ templates).foldlM (inheritProperty n prop) H₀ = .ok H' ∧
      ∀ x ∈ items ++ templates, (H' x).attr prop = Heap.finalAttr H₀ rank prop x := by
  obtain ⟨B, hr, hB⟩ := afterItems_run hS hlinks hdisj hn hi
  have hSB := hB.scalars hS
  obtain ⟨H', hr', hH'⟩ := foldlM_turns_ok ht (fun D x H _ hx hxD h =>
    h.step hSB (fun x _ t ht => hlinks x t (hB.links x ▸ ht)) hx hxD (hn x) fun ha hnull => hB.harmless hS hlinks hdisj hN hx ha hnull)
    (Settled.start hSB)
  refine ⟨H', by rw [List.foldlM_append, hr]; exact hr', fun x hx => ?_⟩
  rcases List.mem_append.mp hx with hx | hx
  · rw [hH'.frame x fun hxt => hdisj x hxt hx]
    exact (hB.done x hx).2.2
  · rw [← hB.finalAttr hS hlinks hdisj hx]
    exact hH'.final hSB hx (by simpa using hx)

/-! ## Orders that go wrong -/

theorem Scalars.removed (hS : Scalars H₀ rank prop) (N : List Nat) : Scalars (removed H₀ prop N) rank prop := by
  refine ⟨fun x t ht => hS.rank x t (removed_same.templates ▸ ht), fun x => fits_scalar ?_ fun v hv => ?_, hS.named⟩
  · rw [removed_plus]
    exact scalar_plus (hS.fits x)
  · rw [removed_attr] at hv
    split at hv
    · cases hv
    · exact ((hS.fits x).attr v hv).1

/-- The turns of `null` values. -/
theorem removed_run : ∀ {N : List Nat} {H : Heap}, Scalars H rank prop → N.Nodup → (∀ z ∈ N, (H z).attr prop = some null) →
    N.foldlM (inheritProperty (n + 1) prop) H = .ok (Heap.removed H prop N)
  | [], H, _, _, _ => by
    rw [show Heap.removed H prop [] = H from funext fun y => removed_notMem List.not_mem_nil]
    rfl
  | z :: N, H, hS, hnd, hN => by
    rw [List.nodup_cons] at hnd
    have ha := hN z List.mem_cons_self
    have hrest := removed_run (hS.removed [z]) hnd.2 fun x hx => by
      have hxz : x ∉ [z] := fun hm => hnd.1 (List.mem_singleton.mp hm ▸ hx)
      rw [removed_attr, if_neg hxz]
      exact hN x (List.mem_cons_of_mem _ hx)
    rw [List.foldlM_cons, inheritProperty_null (getProperty_owned hS.named ha (scalar_plus (hS.fits z))) ha]
    simp only [bind, Except.bind]
    have hmem : ∀ x, x ∈ N ++ [z] ↔ x ∈ z :: N := fun x => by rw [List.mem_append, List.mem_singleton, List.mem_cons, or_comm]
    rw [hrest, removed_removed, removed_congr hmem]

section
variable {o w : Nat} {N : List Nat}

/-- All `null` values but that of `o`. -/
def NullsBut (H₀ : Heap) (prop : String) (templates : List Nat) (o : Nat) (N : List Nat) : Prop :=
  ∀ z, z ∈ N ↔ z ∈ templates ∧ (H₀ z).attr prop = some null ∧ z ≠ o

include hS hlinks in
/-- With the other `null` values gone, what leads to `o` has a value. -/
theorem removed_ref_ne_none (hN : NullsBut H₀ prop templates o N) (hx : x ∈ templates) (hxo : ReflTransGen (Passes H₀ prop) x o)
    (hown : (H₀ o).attr prop = some v) (hv : v ≠ .none) : (removed H₀ prop N).ref rank prop x ≠ .none := by
  induction hxo using ReflTransGen.head_induction_on with
  | refl =>
    have ha : (removed H₀ prop N o).attr prop = some v := by rw [removed_attr, if_neg fun h => ((hN o).mp h).2.2 rfl, hown]
    rw [ref_scalar (hS.removed N) ha]
    exact hv
  | @head a b hab hbo ih =>
    have hne : a ≠ o := by
      rintro rfl
      exact lt_irrefl _ (Passes.rank_lt hS (TransGen.head' hab hbo))
    have ha : (removed H₀ prop N a).attr prop = none := by
      rw [removed_attr]
      rcases hab.2 with h | h
      · rw [h, ite_self]
      · rw [if_pos ((hN a).mpr ⟨hx, h, hne⟩)]
    exact ref_ne_none_of_mem (hS.removed N) ha (removed_same.templates.symm ▸ hab.1) (ih (hlinks a b hab.1))

include hS hlinks in
/-- What is left comes from an object behind `x`, and `null` only from `o`. -/
theorem removed_owner (hN : NullsBut H₀ prop templates o N) (hx : x ∈ templates)
    (hne : (removed H₀ prop N).ref rank prop x ≠ .none) :
    ∃ z, ReflTransGen (Passes H₀ prop) x z ∧ (H₀ z).attr prop = some ((removed H₀ prop N).ref rank prop x) ∧
      ((removed H₀ prop N).ref rank prop x = null → z = o) := by
  obtain ⟨z, hxz, hz⟩ := exists_owner (hS.removed N) hne
  have hpass : ∀ a b, Passes (removed H₀ prop N) prop a b → Passes H₀ prop a b := by
    rintro a b ⟨hab, hor⟩
    refine ⟨removed_same.templates ▸ hab, ?_⟩
    rw [removed_attr] at hor
    by_cases hm : a ∈ N
    · exact Or.inr ((hN a).mp hm).2.1
    · rw [if_neg hm] at hor; exact hor
  have hxz' : ReflTransGen (Passes H₀ prop) x z := ReflTransGen.mono hpass _ _ hxz
  rw [removed_attr] at hz
  by_cases hm : z ∈ N
  · rw [if_pos hm] at hz; cases hz
  · rw [if_neg hm] at hz
    refine ⟨z, hxz', hz, fun hnull => ?_⟩
    by_contra hzo
    exact hm ((hN z).mpr ⟨Passes.mem (fun x _ => hlinks x) hx hxz', by rw [hz, hnull], hzo⟩)

include hS in
theorem read_all (hn : rank x < n) : ∃ H₁, getPropertyByInheritance prop n H₀ x = .ok (H₀.ref rank prop x, H₁) ∧
    Caches H₀ rank prop (fun _ => True) H₁ ∧ (H₀.ref rank prop x ≠ .none → (H₁ x).attr prop = some (H₀.ref rank prop x)) ∧
      Wrote H₀ rank prop x H₀ H₁ := by
  obtain ⟨H₁, hr, hc, hown, hw⟩ := read_spec hS (V := fun _ => True) (fun _ _ _ _ _ _ => trivial) n x H₀ hn trivial (Caches.start hS)
  refine ⟨H₁, hr, hc, fun hne => ?_, hw⟩
  obtain ⟨v, hv⟩ := Option.ne_none_iff_exists'.mp (hown hne)
  rw [hv, hc.value hS trivial hv]

include hS in
/-- `y` reads `null` from `t`, which keeps it. -/
theorem left_null (hn : rank y < n) (hread : Reads H₀ rank prop y t) (hnull : H₀.ref rank prop t = null) :
    ∃ H', inheritProperty n prop H₀ y = .ok H' ∧ (H' t).attr prop = some null := by
  obtain ⟨H₁, hr, hc, hown, -⟩ := read_all hS hn
  have href := hread.ref hS
  have hy := hown (href ▸ hread.ne_none)
  obtain ⟨v, hv⟩ := Option.ne_none_iff_exists'.mp (hc.full y t trivial hread (by rw [hy]; exact Option.some_ne_none _))
  refine ⟨_, inheritProperty_null hr (by rw [hy, href, hnull]), ?_⟩
  have hty : t ≠ y := by
    rintro rfl
    exact lt_irrefl _ (hS.rank t t hread.mem)
  rw [removed_notMem (by simpa using hty), hv, hc.value hS trivial hv, hnull]

include hS in
/-- The heap that the turn of `t` leaves, where `t` has read `null`: what it has
read it from keeps the value, so all objects still inherit the same. -/
theorem deleted_again (hn : rank t < n) (ha : (H₀ t).attr prop = none) (hnull : H₀.ref rank prop t = null) :
    ∃ R, inheritProperty n prop H₀ t = .ok R ∧ Scalars R rank prop ∧ (∀ x, (R x).templates = (H₀ x).templates) ∧
      (∀ x, R.ref rank prop x = H₀.ref rank prop x) ∧ ∀ x, rank t < rank x → R x = H₀ x := by
  obtain ⟨H₁, hr, hc, hown, hw⟩ := read_all hS hn
  have hv := hown (by rw [hnull]; exact null_ne_none)
  rw [hnull] at hv
  have hattr : ∀ x, (removed H₁ prop [t] x).attr prop = (H₀ x).attr prop ∨
      ((H₀ x).attr prop = none ∧ (removed H₁ prop [t] x).attr prop = some (H₀.ref rank prop x)) := by
    intro x
    by_cases hx : x = t
    · rw [hx, removed_attr, if_pos List.mem_cons_self, ha]
      exact Or.inl rfl
    · rw [removed_notMem (by simpa using hx)]
      exact (hc.attr x trivial).imp id fun h => ⟨h.1, h.2.2⟩
  have htpl : ∀ x, (removed H₁ prop [t] x).templates = (H₀ x).templates := fun x =>
    removed_same.templates.trans (hc.same x trivial).templates
  have hSR : Scalars (removed H₁ prop [t]) rank prop := by
    refine ⟨fun x s hs => hS.rank x s (htpl x ▸ hs), fun x => fits_scalar ?_ fun w hw' => ?_, hS.named⟩
    · rw [removed_plus]
      exact hc.plus x trivial
    · rcases hattr x with h1 | ⟨-, h1⟩
      · exact ((hS.fits x).attr w (h1.symm.trans hw')).1
      · rw [h1] at hw'
        cases hw'
        exact has_ref hS.rank hS.fits x
  refine ⟨_, inheritProperty_null hr hv, hSR, htpl, fun x => ?_, fun x hx => ?_⟩
  · exact ref_of_owned hS hSR htpl (fun _ => True) (fun _ _ _ _ => trivial) (fun x _ => hattr x) trivial
  · have hxt : x ≠ t := fun e => by rw [e] at hx; exact lt_irrefl _ hx
    rw [removed_notMem (by simpa using hxt)]
    exact (hw x).resolve_right fun h => absurd (Reads.rank_le hS h.1) (not_le.mpr hx)

include hS hlinks in
/-- A `null` value that is not the first `y` comes to: some template `t` before it leads to it. -/
theorem exists_shadow (hN : NullsBut H₀ prop templates s N) (ha : (H₀ y).attr prop = none)
    (hall : ∀ w, TransGen (Passes H₀ prop) y w → H₀.ref rank prop w = .none ∨ H₀.ref rank prop w = null)
    (hys : TransGen (Passes H₀ prop) y s) (hown : (H₀ s).attr prop = some null) (hfirst : ¬ UsesFirst H₀ prop y s) :
    ∃ t, t ≠ s ∧ Passes H₀ prop y t ∧ TransGen (Passes H₀ prop) t s ∧
      Reads (removed H₀ prop N) rank prop y t ∧ (removed H₀ prop N).ref rank prop t = null := by
  classical
  have hpass : ∀ {t}, t ∈ (H₀ y).templates → Passes H₀ prop y t := fun ht => ⟨ht, Or.inl ha⟩
  obtain ⟨t, hfind⟩ : ∃ t, (H₀ y).templates.find? (fun t => ReflTransGen (Passes H₀ prop) t s) = some t := by
    obtain ⟨t, hyt, hts⟩ := TransGen.head'_iff.mp hys
    exact Option.isSome_iff_exists.mp (List.find?_isSome.mpr ⟨t, hyt.1, by simpa using hts⟩)
  have ht : t ∈ (H₀ y).templates := List.mem_of_find?_eq_some hfind
  obtain ⟨hdec, before, after, hsplit, hbefore⟩ := List.find?_eq_some_iff_append.mp hfind
  have hts : ReflTransGen (Passes H₀ prop) t s := by simpa using hdec
  have hnot : ∀ b ∈ before, ¬ ReflTransGen (Passes H₀ prop) b s := by
    intro b hb
    simpa using hbefore b hb
  have hne : t ≠ s := by
    rintro rfl
    refine hfirst ⟨ht, fun b hb hbs => hnot b ?_ hbs.to_reflTransGen⟩
    have hdiff : ∀ c ∈ before, decide (c ≠ t) = true := by
      intro c hc
      rw [decide_eq_true_eq]
      rintro rfl
      exact hnot c hc .refl
    rw [hsplit, List.takeWhile_append_of_pos hdiff] at hb
    simpa using hb
  have hvalue : ∀ x ∈ (H₀ y).templates, (removed H₀ prop N).ref rank prop x ≠ .none →
      (removed H₀ prop N).ref rank prop x = null ∧ ReflTransGen (Passes H₀ prop) x s := by
    intro x hx hxne
    obtain ⟨z, hxz, hz, hzs⟩ := removed_owner hS hlinks hN (hlinks y x hx) hxne
    have hnull : (removed H₀ prop N).ref rank prop x = null := by
      have hor := hall z (TransGen.head' (hpass hx) hxz)
      rw [ref_scalar hS hz] at hor
      exact hor.resolve_left hxne
    exact ⟨hnull, hzs hnull ▸ hxz⟩
  have htne := removed_ref_ne_none hS hlinks hN (hlinks y t ht) hts hown null_ne_none
  refine ⟨t, hne, hpass ht, (reflTransGen_iff_eq_or_transGen.mp hts).resolve_left fun e => hne e.symm, ⟨?_, ?_⟩, (hvalue t ht htne).1⟩
  · rw [removed_attr, ha, ite_self]
  · rw [removed_same.templates]
    refine List.find?_eq_some_iff_append.mpr ⟨by simpa using htne, before, after, hsplit, fun b hb => ?_⟩
    have hb' : b ∈ (H₀ y).templates := hsplit ▸ List.mem_append_left _ hb
    by_contra hbne
    simp only [Bool.not_eq_true', Bool.not_eq_false, decide_eq_true_eq] at hbne
    exact hnot b hb (hvalue b hb' hbne).2

/-! Orders that begin with the deletion of `null` values. -/

theorem perm_front {front : List Nat} (hfront : front.Nodup) (hsub : ∀ x ∈ front, x ∈ templates) (ht : templates.Nodup) :
    (front ++ templates.filter fun x => x ∉ front).Perm templates := by
  rw [List.perm_ext_iff_of_nodup]
  · intro x
    simp only [List.mem_append, List.mem_filter, decide_eq_true_eq]
    by_cases hx : x ∈ front
    · exact ⟨fun _ => hsub x hx, fun _ => Or.inl hx⟩
    · exact ⟨fun h => (h.resolve_left hx).1, fun h => Or.inr ⟨h, hx⟩⟩
  · refine List.nodup_append.mpr ⟨hfront, ht.filter _, fun x hx y hy e => ?_⟩
    have hm := (List.mem_filter.mp hy).2
    rw [decide_eq_true_eq] at hm
    exact hm (e ▸ hx)
  · exact ht

def GoesWrong (H₀ : Heap) (rank : Nat → Nat) (prop : String) (n : Nat) (templates : List Nat) : Prop :=
  ∃ order : List Nat, order.Perm templates ∧ ∀ H', order.foldlM (inheritProperty n prop) H₀ = .ok H' →
    ∃ x ∈ templates, (H' x).attr prop ≠ Heap.finalAttr H₀ rank prop x

include hS in
/-- What `t` has once the `null` values of `N` and the objects `ys` have had
their turns it keeps, and it should have nothing. -/
theorem goesWrong (ys : List Nat) (ht : templates.Nodup) (hN : NullsBut H₀ prop templates o N) (hnd : (N ++ ys).Nodup)
    (hys : ∀ y ∈ ys, y ∈ templates) (hr : ys.foldlM (inheritProperty (n + 1) prop) (removed H₀ prop N) = .ok H)
    (htT : t ∈ templates) (ha : (H t).attr prop = some v) (hv : t ∈ N ++ ys ∨ v ≠ null)
    (hown : (H₀ t).attr prop = none ∨ (H₀ t).attr prop = some null)
    (href : H₀.ref rank prop t = .none ∨ H₀.ref rank prop t = null) : GoesWrong H₀ rank prop (n + 1) templates := by
  have hsub : ∀ x ∈ N ++ ys, x ∈ templates := fun x hx => (List.mem_append.mp hx).elim (fun h => ((hN x).mp h).1) (hys x)
  have hrun : N.foldlM (inheritProperty (n + 1) prop) H₀ = .ok (removed H₀ prop N) :=
    removed_run hS (List.Nodup.of_append_left hnd) fun z hz => ((hN z).mp hz).2.1
  refine ⟨_, perm_front hnd hsub ht, fun H' hH' => ⟨t, htT, ?_⟩⟩
  have hfinal : Heap.finalAttr H₀ rank prop t = none := by
    rcases hown with h | h
    · rw [finalAttr_inherited h, if_pos href]
    · rw [finalAttr_own h, if_pos rfl]
  rw [List.foldlM_append, List.foldlM_append, hrun] at hH'
  simp only [bind, Except.bind] at hH'
  rw [hr] at hH'
  have hkeep : (H' t).attr prop = some v := by
    refine (foldInherit_kept hH').2.2 t v (hv.imp (fun hm hrest => ?_) id) ha
    have hout := (List.mem_filter.mp hrest).2
    rw [decide_eq_true_eq] at hout
    exact hout hm
  rw [hkeep, hfinal]
  exact Option.some_ne_none v

theorem exists_nullsBut (ht : templates.Nodup) (o : Nat) : ∃ N : List Nat, N.Nodup ∧ NullsBut H₀ prop templates o N :=
  ⟨templates.filter fun z => (H₀ z).attr prop = some null ∧ z ≠ o, ht.filter _, fun z => by
    rw [List.mem_filter, decide_eq_true_eq]⟩

theorem NullsBut.notMem (hN : NullsBut H₀ prop templates o N) (ha : (H₀ y).attr prop = none) : y ∉ N := by
  intro hm
  have hown := ((hN y).mp hm).2.1
  rw [ha] at hown
  cases hown

section
variable (hlow : ∀ x, rank x < n + 1) (ht : templates.Nodup) (hy : y ∈ templates) (ha : (H₀ y).attr prop = none)

include hS hlinks hlow ht hy ha in
/-- A `null` value is not the first that `y` comes to: the template before it keeps the value. -/
theorem goesWrong_shadow (hall : ∀ w, TransGen (Passes H₀ prop) y w → H₀.ref rank prop w = .none ∨ H₀.ref rank prop w = null)
    (hys : TransGen (Passes H₀ prop) y s) (hown : (H₀ s).attr prop = some null) (hfirst : ¬ UsesFirst H₀ prop y s) :
    GoesWrong H₀ rank prop (n + 1) templates := by
  obtain ⟨N, hnd, hN⟩ := exists_nullsBut ht s
  have hyN := hN.notMem ha
  obtain ⟨t, hts, hyt, hleads, hread, hrnull⟩ := exists_shadow hS hlinks hN ha hall hys hown hfirst
  have htT := hlinks y t hyt.1
  have htown : (H₀ t).attr prop = none ∨ (H₀ t).attr prop = some null := by
    obtain ⟨z, htz, -⟩ := TransGen.head'_iff.mp hleads
    exact htz.2
  have href := hall t (.single hyt)
  have hlt := hS.rank y t hyt.1
  -- `t` loses its own `null` with the others, or has its turn before `y`
  by_cases htN : t ∈ N
  · obtain ⟨H, hr, hH⟩ := left_null (hS.removed N) (hlow y) hread hrnull
    refine goesWrong hS [y] ht hN ?_ (fun z hz => List.mem_singleton.mp hz ▸ hy) ?_ htT hH
      (Or.inl (List.mem_append_left _ htN)) htown href
    · exact List.nodup_append.mpr ⟨hnd, List.nodup_singleton y, fun a haN b hb e => hyN (List.mem_singleton.mp hb ▸ e ▸ haN)⟩
    · rw [List.foldlM_cons, hr]; rfl
  · have htnone : (removed H₀ prop N t).attr prop = none := by
      rw [removed_attr, if_neg htN]
      exact htown.resolve_right fun h => htN ((hN t).mpr ⟨htT, h, hts⟩)
    obtain ⟨R, hr, hSR, htpl, hsame, hframe⟩ := deleted_again (hS.removed N) (hlow t) htnone hrnull
    have hreadR : Reads R rank prop y t := by
      refine ⟨by rw [hframe y hlt]; exact hread.1, ?_⟩
      simp only [hsame, htpl]
      exact hread.2
    obtain ⟨H, hr2, hH⟩ := left_null hSR (hlow y) hreadR (by rw [hsame, hrnull])
    have hty : t ≠ y := fun e => by rw [e] at hlt; exact lt_irrefl _ hlt
    refine goesWrong hS [t, y] ht hN ?_ (fun z hz => ?_) ?_ htT hH (Or.inl (by simp)) htown href
    · refine List.nodup_append.mpr ⟨hnd, by simp [hty], fun a haN b hb e => ?_⟩
      rcases List.mem_pair.mp hb with rfl | rfl
      · exact htN (e ▸ haN)
      · exact hyN (e ▸ haN)
    · rcases List.mem_pair.mp hz with rfl | rfl
      · exact htT
      · exact hy
    · rw [List.foldlM_cons, hr]
      simp only [bind, Except.bind]
      rw [List.foldlM_cons, hr2]
      rfl

include hS hlinks hlow ht hy ha in
/-- Some value stands behind the `null` ones: `y` gets it once they are gone. -/
theorem goesWrong_value (hnull : H₀.ref rank prop y = null) (hyw : TransGen (Passes H₀ prop) y w)
    (hwn : H₀.ref rank prop w ≠ .none) (hwnull : H₀.ref rank prop w ≠ null) : GoesWrong H₀ rank prop (n + 1) templates := by
  obtain ⟨o, hwo, hown⟩ := exists_owner hS hwn
  obtain ⟨N, hnd, hN⟩ := exists_nullsBut ht o
  have hne := removed_ref_ne_none hS hlinks hN hy (hyw.to_reflTransGen.trans hwo) hown hwn
  have hnot : (removed H₀ prop N).ref rank prop y ≠ null := by
    intro he
    obtain ⟨z, -, hz, hzo⟩ := removed_owner hS hlinks hN hy hne
    rw [hzo he, hown, he] at hz
    exact hwnull (Option.some.inj hz)
  obtain ⟨H, hr, -, hval, -⟩ := read_all (hS.removed N) (hlow y)
  have hv := hval hne
  refine goesWrong hS [y] ht hN ?_ (fun z hz => List.mem_singleton.mp hz ▸ hy) ?_ hy hv (Or.inr hnot) (Or.inl ha) (Or.inr hnull)
  · exact List.nodup_append.mpr ⟨hnd, List.nodup_singleton y, fun a haN b hb e => hN.notMem ha (List.mem_singleton.mp hb ▸ e ▸ haN)⟩
  · rw [List.foldlM_cons, inheritProperty_value hr (by rw [hv]; exact fun h => hnot (Option.some.inj h))]
    rfl

end

include hS hlinks in
/-- Where a `null` value matters, some order of the templates gives one of them another value. -/
theorem exists_bad_order (hn : ∀ x, rank x < n) (ht : templates.Nodup) (hy : y ∈ templates) (ha : (H₀ y).attr prop = none)
    (hnull : H₀.ref rank prop y = null) (hharm : ¬ Harmless H₀ rank prop y) : GoesWrong H₀ rank prop n templates := by
  obtain ⟨n, rfl⟩ : ∃ m, n = m + 1 := ⟨n - 1, by have := hn y; omega⟩
  by_cases hall : ∀ w, TransGen (Passes H₀ prop) y w → H₀.ref rank prop w = .none ∨ H₀.ref rank prop w = null
  · obtain ⟨s, hys, hown, hfirst⟩ : ∃ s, TransGen (Passes H₀ prop) y s ∧ (H₀ s).attr prop = some null ∧ ¬ UsesFirst H₀ prop y s := by
      by_contra hno
      push Not at hno
      exact hharm ⟨hall, hno⟩
    exact goesWrong_shadow hS hlinks hn ht hy ha hall hys hown hfirst
  · push Not at hall
    obtain ⟨w, hyw, hwn, hwnull⟩ := hall
    exact goesWrong_value hS hlinks hn ht hy ha hnull hyw hwn hwnull

end

end

end Heap

end Alignak
