import Alignak.InheritancePass
import Mathlib.Data.List.Find

/-!
# The values that a walk stores

A walk stores the value that it finds in each template on its way
(`read_spec`), so the items make some templates own a value before the templates
have their turn (`AfterItems`).
-/

namespace Alignak

namespace Heap

open Relation

section
variable (H : Heap) (rank : Nat → Nat) (prop : String)

/-- `x` has no value of its own, and `t` is the first of its templates that has one to give. -/
def Reads (x t : Nat) : Prop :=
  (H x).attr prop = none ∧ (H x).templates.find? (fun t => H.ref rank prop t ≠ .none) = some t

/-- `x` uses `t`, which matters where `x` has no value or loses it. -/
def Passes (x t : Nat) : Prop := t ∈ (H x).templates ∧ ((H x).attr prop = none ∨ (H x).attr prop = some null)

end

/-! ## Scalar values -/

/-- A property of single values, on objects whose links have a rank. -/
structure Scalars (H₀ : Heap) (rank : Nat → Nat) (prop : String) : Prop where
  rank : ∀ x, ∀ t ∈ (H₀ x).templates, rank t < rank x
  fits : ∀ x, Kind.scalar.Fits (H₀ x) prop
  named : prop ≠ "register"

section
variable {H H₀ : Heap} {rank : Nat → Nat} {prop : String} {x y t n : Nat} {v : Value} {o : Item}

theorem scalar_clean (h : Kind.scalar.Has v) : o.clean v = v := by
  rcases h with rfl | ⟨s, rfl⟩ | ⟨n, rfl⟩ <;> rfl

theorem scalar_void (h : Kind.scalar.Has v) : v.isVoid = true ↔ v = .none := by
  rcases h with rfl | ⟨s, rfl⟩ | ⟨n, rfl⟩
  · exact ⟨fun _ => rfl, fun _ => rfl⟩
  · exact ⟨fun h => (by cases h), fun h => (by cases h)⟩
  · exact ⟨fun h => (by cases h), fun h => (by cases h)⟩

theorem scalar_additive (h : Kind.scalar.Has v) : v.isAdditive = false := by
  rcases h with rfl | ⟨s, rfl⟩ | ⟨n, rfl⟩ <;> rfl

theorem scalar_plus (hf : Kind.scalar.Fits o prop) : o.plus.get? prop = none := by
  cases hp : o.plus.get? prop with
  | none => rfl
  | some pl => exact Kind.noConfusion (hf.plus pl hp).1

theorem fits_scalar (hpl : o.plus.get? prop = none) (hv : ∀ v, o.attr prop = some v → Kind.scalar.Has v) :
    Kind.scalar.Fits o prop :=
  ⟨fun v h => ⟨hv v h, hpl⟩, fun pl h => by rw [hpl] at h; cases h⟩

theorem takeThrough_find {f : Nat → Value} (hf : ∀ t, Kind.scalar.Has (f t)) : ∀ ts : List Nat,
    (takeThrough (ts.map f)).2 = (ts.find? fun t => f t ≠ .none).map f
  | [] => rfl
  | t :: ts => by
    rw [List.map_cons, List.find?_cons]
    by_cases hv : f t = .none
    · rw [takeThrough_void ((scalar_void (hf t)).mpr hv), takeThrough_find hf ts]
      simp [hv]
    · have hvoid : (f t).isVoid = false := by
        rw [← Bool.not_eq_true, scalar_void (hf t)]
        exact hv
      rw [takeThrough_final hvoid (scalar_additive (hf t))]
      simp [hv]

variable (hS : Scalars H₀ rank prop)

include hS in
theorem ref_find (ha : (H₀ x).attr prop = none) :
    H₀.ref rank prop x = (((H₀ x).templates.find? fun t => H₀.ref rank prop t ≠ .none).map (H₀.ref rank prop)).getD .none := by
  have hval : ∀ v ∈ (H₀ x).templates.map (H₀.ref rank prop), Kind.scalar.Has v := by
    intro v hv
    obtain ⟨t, -, rfl⟩ := List.mem_map.mp hv
    exact has_ref hS.rank hS.fits t
  rw [ref_combine hS.rank hS.named ha, combine_scalar (hS.fits x) hval, takeThrough_find (has_ref hS.rank hS.fits)]
  cases (H₀ x).templates.find? fun t => H₀.ref rank prop t ≠ .none with
  | none => rfl
  | some t => exact scalar_clean (has_ref hS.rank hS.fits t)

include hS in
theorem ref_scalar (ha : (H₀ x).attr prop = some v) : H₀.ref rank prop x = v := by
  rw [ref_own hS.named ha]
  exact scalar_clean ((hS.fits x).attr v ha).1

theorem Reads.ne_none (h : Reads H₀ rank prop x t) : H₀.ref rank prop t ≠ .none := by
  simpa using List.find?_some h.2

theorem Reads.mem (h : Reads H₀ rank prop x t) : t ∈ (H₀ x).templates := List.mem_of_find?_eq_some h.2

include hS in
theorem Reads.ref (h : Reads H₀ rank prop x t) : H₀.ref rank prop x = H₀.ref rank prop t := by
  rw [ref_find hS h.1, h.2]
  rfl

include hS in
theorem Reads.ref_chain (h : ReflTransGen (Reads H₀ rank prop) x y) : H₀.ref rank prop x = H₀.ref rank prop y := by
  induction h with
  | refl => rfl
  | tail _ h ih => exact ih.trans (h.ref hS)

include hS in
theorem Reads.rank_le (h : ReflTransGen (Reads H₀ rank prop) x y) : rank y ≤ rank x := by
  induction h with
  | refl => exact le_rfl
  | tail _ h ih => exact (hS.rank _ _ h.mem).le.trans ih

include hS in
/-- A template that gives a value has something to read it from. -/
theorem exists_reads (ha : (H₀ x).attr prop = none) (hne : H₀.ref rank prop x ≠ .none) : ∃ t, Reads H₀ rank prop x t := by
  rw [ref_find hS ha] at hne
  cases hfind : (H₀ x).templates.find? fun t => H₀.ref rank prop t ≠ .none with
  | none => rw [hfind] at hne; exact absurd rfl hne
  | some t => exact ⟨t, ha, hfind⟩

include hS in
theorem ref_eq_none (ha : (H₀ x).attr prop = none) (h : ∀ t ∈ (H₀ x).templates, H₀.ref rank prop t = .none) :
    H₀.ref rank prop x = .none := by
  by_contra hne
  obtain ⟨t, ht⟩ := exists_reads hS ha hne
  exact ht.ne_none (h t ht.mem)

include hS in
theorem ref_ne_none_of_mem (ha : (H₀ x).attr prop = none) (ht : t ∈ (H₀ x).templates) (hne : H₀.ref rank prop t ≠ .none) :
    H₀.ref rank prop x ≠ .none := by
  rw [ref_find hS ha]
  cases hfind : (H₀ x).templates.find? fun t => H₀.ref rank prop t ≠ .none with
  | none =>
    have := List.find?_eq_none.mp hfind t ht
    simp only [decide_eq_true_eq] at this
    exact absurd hne this
  | some s => simpa using List.find?_some hfind

include hS in
/-- A value comes from an object that owns it. -/
theorem exists_owner (hne : H₀.ref rank prop x ≠ .none) :
    ∃ o, ReflTransGen (Passes H₀ prop) x o ∧ (H₀ o).attr prop = some (H₀.ref rank prop x) := by
  induction hn : rank x using Nat.strong_induction_on generalizing x with
  | _ n ih =>
    cases ha : (H₀ x).attr prop with
    | some v => exact ⟨x, .refl, by rw [ha, ref_scalar hS ha]⟩
    | none =>
      obtain ⟨t, ht⟩ := exists_reads hS ha hne
      obtain ⟨o, ho, hv⟩ := ih (rank t) (hn ▸ hS.rank x t ht.mem) ht.ne_none rfl
      exact ⟨o, .head ⟨ht.mem, Or.inl ha⟩ ho, by rw [hv, ht.ref hS]⟩

/-! ## The steps of a walk -/

theorem walk_void {recurse : Heap → Nat → Except Exn (Value × Heap)} : ∀ (before ts : List Nat),
    (∀ t ∈ before, recurse H t = .ok (.none, H)) →
    walkTemplates recurse x prop (before ++ ts) H = walkTemplates recurse x prop ts H
  | [], _, _ => rfl
  | t :: before, ts, h => by
    rw [List.cons_append, walkTemplates, h t List.mem_cons_self]
    simp only [bind, Except.bind]
    rw [if_pos (show Value.none.isVoid = true from rfl)]
    exact walk_void before ts fun s hs => h s (List.mem_cons_of_mem _ hs)

theorem walk_value {recurse : Heap → Nat → Except Exn (Value × Heap)} {ts : List Nat} {H₁ : Heap}
    (hr : recurse H t = .ok (v, H₁)) (hv : Kind.scalar.Has v) (hne : v ≠ .none) (ha : (H₁ x).attr prop = none)
    (hpl : (H₁ x).plus.get? prop = none) :
    walkTemplates recurse x prop (t :: ts) H = .ok (some v, H₁.set x ((H₁ x).setAttr prop v)) := by
  have hadd := scalar_additive hv
  rw [walkTemplates, hr]
  simp only [bind, Except.bind]
  rw [if_neg fun h => hne ((scalar_void hv).mp h), mergeValue_first ha hadd, scalar_clean hv]
  simp only [hadd, Bool.false_eq_true, if_false, set_self]
  rw [show ((H₁ x).setAttr prop v).plus.get? prop = none from hpl]
  rfl

variable (hp : prop ≠ "register")

include hp in
theorem getProperty_owned (ha : (H x).attr prop = some v) (hpl : (H x).plus.get? prop = none) :
    getPropertyByInheritance prop (n + 1) H x = .ok ((H x).clean v, H) := by
  have hplus : (H x).hasPlus prop = false := by
    unfold Item.hasPlus Dict.contains
    rw [hpl]; rfl
  unfold getPropertyByInheritance
  rw [if_neg hp, ha]
  simp only [hplus, Bool.false_eq_true, if_false]

include hp in
theorem getProperty_found {H₁ : Heap} (ha : (H x).attr prop = none)
    (hw : walkTemplates (getPropertyByInheritance prop n) x prop (H x).templates H = .ok (some v, H₁)) :
    getPropertyByInheritance prop (n + 1) H x = .ok (v, H₁) := by
  unfold getPropertyByInheritance
  rw [if_neg hp, ha]
  simp only [hw, bind, Except.bind]
  rfl

include hp in
theorem getProperty_void (ha : (H x).attr prop = none) (hpl : (H x).plus.get? prop = none)
    (h : ∀ t ∈ (H x).templates, getPropertyByInheritance prop n H t = .ok (.none, H)) :
    getPropertyByInheritance prop (n + 1) H x = .ok (.none, H) := by
  have hw : walkTemplates (getPropertyByInheritance prop n) x prop (H x).templates H = .ok (none, H) := by
    have hall : walkTemplates (getPropertyByInheritance prop n) x prop ((H x).templates ++ []) H = .ok (none, H) :=
      walk_void (H x).templates [] h
    rwa [List.append_nil] at hall
  unfold getPropertyByInheritance
  rw [if_neg hp, ha]
  simp only [hw, bind, Except.bind]
  unfold endOfTemplates
  simp only [hpl, ha, Option.getD_none]

end

/-! ## Reading -/

/-- Among the objects of `V`, some that had no value own the reference value,
and with an object all that it reads from. -/
structure Caches (H₀ : Heap) (rank : Nat → Nat) (prop : String) (V : Nat → Prop) (H : Heap) : Prop where
  same : ∀ x, V x → SameBut prop (H₀ x) (H x)
  plus : ∀ x, V x → (H x).plus.get? prop = none
  attr : ∀ x, V x → (H x).attr prop = (H₀ x).attr prop ∨
    ((H₀ x).attr prop = none ∧ H₀.ref rank prop x ≠ .none ∧ (H x).attr prop = some (H₀.ref rank prop x))
  full : ∀ x t, V x → Reads H₀ rank prop x t → (H x).attr prop ≠ none → (H t).attr prop ≠ none

/-- What a walk from `x` writes: the value, into objects that it reads. -/
def Wrote (H₀ : Heap) (rank : Nat → Nat) (prop : String) (x : Nat) (H H' : Heap) : Prop :=
  ∀ y, H' y = H y ∨ (ReflTransGen (Reads H₀ rank prop) x y ∧ H₀.ref rank prop x ≠ .none ∧ (H y).attr prop = none ∧
    H' y = (H y).setAttr prop (H₀.ref rank prop x))

section
variable {H H' H₀ : Heap} {rank : Nat → Nat} {prop : String} {V V' : Nat → Prop} {x y t n : Nat} {v : Value}

theorem Caches.start (hS : Scalars H₀ rank prop) : Caches H₀ rank prop V H₀ :=
  ⟨fun _ _ => SameBut.refl prop _, fun x _ => scalar_plus (hS.fits x), fun _ _ => Or.inl rfl, fun _ _ _ h hne => absurd h.1 hne⟩

theorem Caches.mono (h : Caches H₀ rank prop V H) (hV : ∀ x, V' x → V x) : Caches H₀ rank prop V' H :=
  ⟨fun x hx => h.same x (hV x hx), fun x hx => h.plus x (hV x hx), fun x hx => h.attr x (hV x hx),
    fun x t hx => h.full x t (hV x hx)⟩

/-- Objects that own nothing new do not matter, nor do those that are not read. -/
theorem Caches.congr (h : Caches H₀ rank prop V H) (he : ∀ x, V x → H' x = H x)
    (hr : ∀ x t, V x → Reads H₀ rank prop x t → (H t).attr prop ≠ none → (H' t).attr prop ≠ none) :
    Caches H₀ rank prop V H' :=
  ⟨fun x hx => by rw [he x hx]; exact h.same x hx, fun x hx => by rw [he x hx]; exact h.plus x hx,
    fun x hx => by rw [he x hx]; exact h.attr x hx,
    fun x t hx ht hne => hr x t hx ht (h.full x t hx ht (by rw [← he x hx]; exact hne))⟩

theorem Caches.none_of_none (h : Caches H₀ rank prop V H) (hx : V x) (ha : (H x).attr prop = none) :
    (H₀ x).attr prop = none := by
  rcases h.attr x hx with h1 | ⟨h1, -⟩
  · rw [← h1, ha]
  · exact h1

theorem Wrote.refl (H : Heap) : Wrote H₀ rank prop x H H := fun _ => Or.inl rfl

theorem Wrote.attr (h : Wrote H₀ rank prop x H H') (hne : (H y).attr prop ≠ none) : H' y = H y :=
  (h y).resolve_right fun h => hne h.2.2.1

theorem Wrote.attr_ne_none (h : Wrote H₀ rank prop x H H') (hne : (H y).attr prop ≠ none) : (H' y).attr prop ≠ none := by
  rw [h.attr hne]
  exact hne

theorem Wrote.eq_of_none (h : Wrote H₀ rank prop x H H') (hn : H₀.ref rank prop x = .none) : H' = H :=
  funext fun y => (h y).resolve_right fun h => h.2.1 hn

section
variable (hS : Scalars H₀ rank prop)
include hS

theorem Caches.wrote (h : Caches H₀ rank prop V H) (hw : Wrote H₀ rank prop x H H')
    (hfull : ∀ y t, V y → Reads H₀ rank prop y t → (H' y).attr prop ≠ none → (H' t).attr prop ≠ none) :
    Caches H₀ rank prop V H' := by
  refine ⟨fun y hy => ?_, fun y hy => ?_, fun y hy => ?_, hfull⟩
  · rcases hw y with he | ⟨-, -, -, he⟩
    · rw [he]; exact h.same y hy
    · rw [he]; exact (h.same y hy).trans (SameBut.setAttr prop _ _)
  · rcases hw y with he | ⟨-, -, -, he⟩
    · rw [he]; exact h.plus y hy
    · rw [he]; exact h.plus y hy
  · rcases hw y with he | ⟨hxy, hne, hnone, he⟩
    · rw [he]; exact h.attr y hy
    · have href := Reads.ref_chain hS hxy
      rw [he, Item.setAttr_attr, href]
      exact Or.inr ⟨h.none_of_none hy hnone, href ▸ hne, rfl⟩

/-- The value of an object that has kept or got its value. -/
theorem Caches.value (h : Caches H₀ rank prop V H) (hx : V x) (ha : (H x).attr prop = some v) : v = H₀.ref rank prop x := by
  rcases h.attr x hx with h1 | ⟨-, -, h1⟩
  · exact (ref_scalar hS (h1.symm.trans ha)).symm
  · exact Option.some.inj (ha.symm.trans h1)

/-- The walk gives the reference value and stores it in all that it reads. -/
theorem read_spec (hV : ∀ x, V x → (H₀ x).attr prop = none → ∀ t ∈ (H₀ x).templates,
      H₀.ref rank prop t = .none ∨ H₀.ref rank prop t = H₀.ref rank prop x → V t) :
    ∀ (n x : Nat) (H : Heap), rank x < n → V x → Caches H₀ rank prop V H →
    ∃ H', getPropertyByInheritance prop n H x = .ok (H₀.ref rank prop x, H') ∧ Caches H₀ rank prop V H' ∧
      (H₀.ref rank prop x ≠ .none → (H' x).attr prop ≠ none) ∧ Wrote H₀ rank prop x H H'
  | 0, _, _, h, _, _ => absurd h (Nat.not_lt_zero _)
  | n + 1, x, H, hn, hx, hH => by
    cases ha : (H x).attr prop with
    | some v =>
      have hv := hH.value hS hx ha
      have hclean : (H x).clean v = H₀.ref rank prop x := by rw [hv, scalar_clean (has_ref hS.rank hS.fits x)]
      refine ⟨H, by rw [getProperty_owned hS.named ha (hH.plus x hx), hclean], hH, fun _ => ?_, Wrote.refl H⟩
      rw [ha]
      exact Option.some_ne_none v
    | none =>
      have hown := hH.none_of_none hx ha
      have htpl : (H x).templates = (H₀ x).templates := (hH.same x hx).templates
      have hvoid : ∀ t ∈ (H₀ x).templates, H₀.ref rank prop t = .none → getPropertyByInheritance prop n H t = .ok (.none, H) := by
        intro t ht hnone
        have hlt := hS.rank x t ht
        obtain ⟨H', hr, -, -, hw⟩ := read_spec hV n t H (by omega) (hV x hx hown t ht (Or.inl hnone)) hH
        rw [hr, hnone, hw.eq_of_none hnone]
      cases hfind : (H₀ x).templates.find? fun t => H₀.ref rank prop t ≠ .none with
      | none =>
        have hall : ∀ t ∈ (H₀ x).templates, H₀.ref rank prop t = .none := by
          intro t ht
          simpa using List.find?_eq_none.mp hfind t ht
        have href : H₀.ref rank prop x = .none := ref_eq_none hS hown hall
        refine ⟨H, ?_, hH, fun h => absurd href h, Wrote.refl H⟩
        rw [href]
        exact getProperty_void hS.named ha (hH.plus x hx) fun t ht => hvoid t (htpl ▸ ht) (hall t (htpl ▸ ht))
      | some t =>
        have hread : Reads H₀ rank prop x t := ⟨hown, hfind⟩
        have href := hread.ref hS
        obtain ⟨-, before, after, hsplit, hbefore⟩ := List.find?_eq_some_iff_append.mp hfind
        have hlt := hS.rank x t hread.mem
        obtain ⟨H₁, hr, hH1, hown1, hw1⟩ := read_spec hV n t H (by omega) (hV x hx hown t hread.mem (Or.inr href.symm)) hH
        have hx1 : H₁ x = H x := (hw1 x).resolve_right fun h => absurd (Reads.rank_le hS h.1) (not_le.mpr hlt)
        have hne : H₀.ref rank prop x ≠ .none := href ▸ hread.ne_none
        have hwrote : Wrote H₀ rank prop x H (H₁.set x ((H₁ x).setAttr prop (H₀.ref rank prop x))) := by
          intro y
          by_cases hy : y = x
          · rw [hy, set_self, hx1]
            exact Or.inr ⟨.refl, hne, ha, rfl⟩
          · rw [set_ne _ hy]
            refine (hw1 y).imp id fun ⟨hty, _, hnone, he⟩ => ⟨.head hread hty, hne, hnone, ?_⟩
            rw [he, href]
        refine ⟨_, ?_, hH.wrote hS hwrote fun y s hy hs hys => ?_, fun _ => ?_, hwrote⟩
        · refine getProperty_found hS.named ha ?_
          rw [htpl, hsplit, walk_void before _ fun b hb => hvoid b (hsplit ▸ List.mem_append_left _ hb) (by simpa using hbefore b hb),
            walk_value hr (has_ref hS.rank hS.fits t) hread.ne_none (by rw [hx1, ha]) (by rw [hx1]; exact hH.plus x hx), href]
        · have hset : ∀ z, (H₁ z).attr prop ≠ none →
              ((H₁.set x ((H₁ x).setAttr prop (H₀.ref rank prop x))) z).attr prop ≠ none := by
            intro z hz
            by_cases hzx : z = x
            · rw [hzx, set_self, Item.setAttr_attr]; exact Option.some_ne_none _
            · rw [set_ne _ hzx]; exact hz
          by_cases hyx : y = x
          · subst hyx
            have hst : s = t := Option.some.inj (hs.2.symm.trans hfind)
            exact hset s (hst ▸ hown1 hread.ne_none)
          · rw [set_ne _ hyx] at hys
            exact hset s (hH1.full y s hy hs hys)
        · rw [set_self, Item.setAttr_attr]
          exact Option.some_ne_none _

end

end

/-! ## The items -/

/-- `x` owns a value when the templates have their turn. -/
def Known (H₀ : Heap) (rank : Nat → Nat) (prop : String) (items : List Nat) (x : Nat) : Prop :=
  (H₀ x).attr prop ≠ none ∨ ∃ i ∈ items, TransGen (Reads H₀ rank prop) i x

/-- After the turns of `P`. -/
structure AfterItems (H₀ : Heap) (rank : Nat → Nat) (prop : String) (P : List Nat) (H : Heap) : Prop where
  caches : Caches H₀ rank prop (· ∉ P) H
  done : ∀ x ∈ P, SameBut prop (H₀ x) (H x) ∧ (H x).plus.get? prop = none ∧ (H x).attr prop = finalAttr H₀ rank prop x
  read : ∀ i ∈ P, ∀ t, TransGen (Reads H₀ rank prop) i t → (H t).attr prop ≠ none
  unread : ∀ t, t ∉ P → (H₀ t).attr prop = none → (H t).attr prop ≠ none → ∃ i ∈ P, TransGen (Reads H₀ rank prop) i t

section
variable {H H' H₀ : Heap} {rank : Nat → Nat} {prop : String} {x y t n : Nat} {v : Value} {items P : List Nat}

theorem AfterItems.start (hS : Scalars H₀ rank prop) : AfterItems H₀ rank prop [] H₀ :=
  ⟨Caches.start hS, fun _ h => absurd h List.not_mem_nil, fun _ h => absurd h List.not_mem_nil,
    fun _ _ h hne => absurd h hne⟩

variable (hS : Scalars H₀ rank prop)

theorem Reads.notMem (hlinks : ∀ x, ∀ t ∈ (H₀ x).templates, t ∉ items) (h : TransGen (Reads H₀ rank prop) x t) :
    t ∉ items := by
  obtain ⟨y, -, hy⟩ := TransGen.tail'_iff.mp h
  exact hlinks y t hy.mem

include hS in
theorem finalAttr_ref (ha : (H₀ x).attr prop = none ∨ H₀.ref rank prop x ≠ .none) :
    finalAttr H₀ rank prop x =
      if H₀.ref rank prop x = .none ∨ H₀.ref rank prop x = null then none else some (H₀.ref rank prop x) := by
  cases hown : (H₀ x).attr prop with
  | none => exact finalAttr_inherited hown
  | some v =>
    have href : H₀.ref rank prop x = v := ref_scalar hS hown
    have hne : H₀.ref rank prop x ≠ .none := ha.resolve_left (by rw [hown]; exact Option.some_ne_none v)
    rw [finalAttr_own hown, href]
    rw [href] at hne
    by_cases hv : v = null
    · rw [if_pos hv, if_pos (Or.inr hv)]
    · rw [if_neg hv, if_neg fun h => h.elim hne hv]

/-- What an object has after its own walk, once a `null` value is deleted. -/
theorem Caches.final {V : Nat → Prop} (h : Caches H₀ rank prop V H) (hx : V x)
    (hne : H₀.ref rank prop x ≠ .none → (H x).attr prop ≠ none) :
    (if (H x).attr prop = some null then none else (H x).attr prop) = finalAttr H₀ rank prop x := by
  rcases h.attr x hx with h1 | ⟨h1, h2, h3⟩
  · rw [h1] at hne ⊢
    cases hown : (H₀ x).attr prop with
    | some v =>
      rw [finalAttr_own hown]
      by_cases hv : v = null
      · rw [if_pos hv, if_pos (by rw [hv])]
      · rw [if_neg hv, if_neg fun h => hv (Option.some.inj h)]
    | none =>
      have href : H₀.ref rank prop x = .none := by
        by_contra hn
        exact hne hn hown
      rw [finalAttr_inherited hown, if_pos (Or.inl href), if_neg (by simp)]
  · rw [finalAttr_inherited h1, h3]
    by_cases hv : H₀.ref rank prop x = null
    · rw [if_pos (Or.inr hv), if_pos (by rw [hv])]
    · rw [if_neg fun h => hv (Option.some.inj h), if_neg fun h => h.elim h2 hv]

include hS in
theorem AfterItems.step (hlinks : ∀ x, ∀ t ∈ (H₀ x).templates, t ∉ items) (hP : ∀ i ∈ P, i ∈ items) (hx : x ∈ items)
    (hxP : x ∉ P) (hn : rank x < n) (h : AfterItems H₀ rank prop P H) :
    ∃ H', inheritProperty n prop H x = .ok H' ∧ AfterItems H₀ rank prop (x :: P) H' := by
  have hfresh : ∀ {y t}, Reads H₀ rank prop y t → t ≠ x := fun hr e => hlinks _ _ hr.mem (e ▸ hx)
  obtain ⟨H₁, hr, hH1, hown1, hw1⟩ := read_spec hS (fun x _ _ t ht _ hP' => hlinks x t ht (hP t hP')) n x H hn hxP h.caches
  have hwritten : ∀ y, H₁ y ≠ H y → y = x ∨ TransGen (Reads H₀ rank prop) x y := by
    intro y hne
    obtain ⟨hxy, -⟩ := (hw1 y).resolve_left hne
    exact (reflTransGen_iff_eq_or_transGen.mp hxy)
  obtain ⟨N, hN, hmem⟩ := inheritProperty_eq hr
  refine ⟨_, hN, ?_⟩
  have hother : ∀ y, y ≠ x → removed H₁ prop N y = H₁ y := fun y hy => removed_notMem fun hm => hy ((hmem y).mp hm).1
  have hattr : ∀ t, t ≠ x → (H₁ t).attr prop ≠ none → (removed H₁ prop N t).attr prop ≠ none := by
    intro t ht hne
    rw [hother t ht]
    exact hne
  refine ⟨?_, fun y hy => ?_, fun i hi t hit => ?_, fun t ht hown hne => ?_⟩
  · have hrest : Caches H₀ rank prop (· ∉ x :: P) H₁ := hH1.mono fun y hy hyP => hy (List.mem_cons_of_mem _ hyP)
    exact hrest.congr (fun y hy => hother y fun e => hy (e ▸ List.mem_cons_self)) fun y t _ ht => hattr t (hfresh ht)
  · rcases List.mem_cons.mp hy with rfl | hy
    · refine ⟨(hH1.same y hxP).trans removed_same, by rw [removed_plus]; exact hH1.plus y hxP, ?_⟩
      rw [removed_attr, ← hH1.final hxP hown1]
      simp only [hmem, true_and]
    · have hyx : y ≠ x := fun e => hxP (e ▸ hy)
      have hsame : H₁ y = H y := by
        by_contra hne
        rcases hwritten y hne with he | hxy
        · exact hyx he
        · exact Reads.notMem hlinks hxy (hP y hy)
      rw [hother y hyx, hsame]
      exact h.done y hy
  · have htx : t ≠ x := fun e => Reads.notMem hlinks hit (e ▸ hx)
    refine hattr t htx ?_
    rcases List.mem_cons.mp hi with rfl | hi
    · obtain ⟨t', hit', hrest⟩ := TransGen.head'_iff.mp hit
      have hi1 : (H₁ i).attr prop ≠ none := hown1 (hit'.ref hS ▸ hit'.ne_none)
      have ht' := hH1.full i t' hxP hit' hi1
      have hall : ∀ s, ReflTransGen (Reads H₀ rank prop) t' s → s ∉ P ∧ (H₁ s).attr prop ≠ none := by
        intro s hs
        induction hs with
        | refl => exact ⟨fun hm => hlinks i t' hit'.mem (hP t' hm), ht'⟩
        | tail _ hbc ih => exact ⟨fun hm => hlinks _ _ hbc.mem (hP _ hm), hH1.full _ _ ih.1 hbc ih.2⟩
      exact (hall t hrest).2
    · exact hw1.attr_ne_none (h.read i hi t hit)
  · have htx : t ≠ x := fun e => ht (e ▸ List.mem_cons_self)
    rw [hother t htx] at hne
    by_cases hsame : H₁ t = H t
    · obtain ⟨i, hi, hit⟩ := h.unread t (fun hm => ht (List.mem_cons_of_mem _ hm)) hown (hsame ▸ hne)
      exact ⟨i, List.mem_cons_of_mem _ hi, hit⟩
    · exact ⟨x, List.mem_cons_self, (hwritten t hsame).resolve_left htx⟩

end

end Heap

end Alignak
