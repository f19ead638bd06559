import Alignak.Inheritance

/-!
# The walk over the templates

`walk_spec` is the loop over the templates of one object, for whatever values
the recursive calls give.
-/

namespace Alignak

/-! ## What the loop sees -/

variable {v : Value} {allowed : Nat → Prop} {val : Nat → Value → Prop}

theorem takeThrough_void (hv : v.isVoid = true) (vs : List Value) :
    takeThrough (v :: vs) = takeThrough vs := by
  rw [takeThrough, hv]; rfl

theorem takeThrough_final (hv : v.isVoid = false) (ha : v.isAdditive = false) (vs : List Value) :
    takeThrough (v :: vs) = ([], some v) := by
  rw [takeThrough, hv, ha]; rfl

theorem takeThrough_final_mem : ∀ {vs : List Value} {v : Value}, (takeThrough vs).2 = some v →
    v ∈ vs ∧ v.isVoid = false ∧ v.isAdditive = false
  | [], _, h => by cases h
  | w :: vs, v, h => by
    rw [takeThrough] at h
    by_cases hw : w.isVoid = true
    · rw [if_pos hw] at h
      exact ⟨List.mem_cons_of_mem _ (takeThrough_final_mem h).1, (takeThrough_final_mem h).2⟩
    · rw [if_neg hw] at h
      by_cases ha : w.isAdditive = true
      · rw [if_pos ha] at h
        exact ⟨List.mem_cons_of_mem _ (takeThrough_final_mem h).1, (takeThrough_final_mem h).2⟩
      · rw [if_neg ha] at h
        cases h
        exact ⟨List.mem_cons_self, by simpa using hw, by simpa using ha⟩

theorem takeThrough_additive_mem : ∀ {vs : List Value} {v : Value}, v ∈ (takeThrough vs).1 →
    v ∈ vs ∧ v.isAdditive = true
  | [], _, h => by cases h
  | w :: vs, v, h => by
    rw [takeThrough] at h
    by_cases hw : w.isVoid = true
    · rw [if_pos hw] at h
      exact ⟨List.mem_cons_of_mem _ (takeThrough_additive_mem h).1, (takeThrough_additive_mem h).2⟩
    · rw [if_neg hw] at h
      by_cases ha : w.isAdditive = true
      · rw [if_pos ha] at h
        rcases List.mem_cons.mp h with h | h
        · subst h; exact ⟨List.mem_cons_self, ha⟩
        · exact ⟨List.mem_cons_of_mem _ (takeThrough_additive_mem h).1, (takeThrough_additive_mem h).2⟩
      · rw [if_neg ha] at h
        cases h

theorem combine_congr {o : Item} {prop : String} {vs vs' : List Value} (h : takeThrough vs = takeThrough vs') :
    combine o prop vs = combine o prop vs' := by
  unfold combine; rw [h]

theorem combine_same {o o' : Item} {prop : String} (ht : o'.isATemplate = o.isATemplate)
    (hp : o'.plus.get? prop = o.plus.get? prop) (vs : List Value) : combine o' prop vs = combine o prop vs := by
  unfold combine Item.cleanList Item.clean Item.cleanList
  rw [hp, ht]

theorem clean_eq_none {o : Item} (h : o.clean v = .none) : v = .none := by
  cases v with
  | none => rfl
  | list l => cases h
  | str s => cases h
  | num n => cases h
  | listOf a b => cases h

theorem combine_ne_none {o : Item} {prop : String} {vs as : List Value}
    (h : takeThrough vs = (as, some v)) (hv : v.isVoid = false) : combine o prop vs ≠ .none := by
  intro hc
  unfold combine at hc
  rw [h] at hc
  cases as with
  | cons a as => cases hc
  | nil =>
    cases hp : o.plus.get? prop with
    | some pl => rw [hp] at hc; cases hc
    | none =>
      rw [hp] at hc
      rw [clean_eq_none hc] at hv
      cases hv

inductive Walkable (allowed : Nat → Prop) (val : Nat → Value → Prop) : List Nat → Prop
  | nil : Walkable allowed val []
  | cons {t : Nat} {ts : List Nat} : allowed t →
      (∀ v, val t v → v.isVoid = true ∨ v.isAdditive = true → Walkable allowed val ts) →
      Walkable allowed val (t :: ts)

theorem Walkable.of_cons {t : Nat} {ts : List Nat}
    (h : Walkable allowed val (t :: ts)) :
    allowed t ∧ ∀ v, val t v → v.isVoid = true ∨ v.isAdditive = true → Walkable allowed val ts := by
  cases h with
  | cons ha hgo => exact ⟨ha, hgo⟩

theorem Walkable.of_all : ∀ {ts : List Nat},
    (∀ t ∈ ts, allowed t) → Walkable allowed val ts
  | [], _ => .nil
  | t :: _, h => .cons (h t List.mem_cons_self) fun _ _ _ =>
      Walkable.of_all fun s hs => h s (List.mem_cons_of_mem _ hs)

theorem exists_values (hex : ∀ t, ∃ v, val t v) : ∀ ts : List Nat,
    ∃ vs, List.Forall₂ val ts vs
  | [] => ⟨[], .nil⟩
  | t :: ts => by
    obtain ⟨v, hv⟩ := hex t
    obtain ⟨vs, hvs⟩ := exists_values hex ts
    exact ⟨v :: vs, .cons hv hvs⟩

namespace Heap

variable {vs : List Value} {v : Value}

section
variable {o : Item} {prop : String} {x : Nat} {k : Kind}

theorem end_walk (hf : k.Fits o prop) (ha : o.attr prop = none) {H : Heap} {as : List Value}
    (ht : takeThrough vs = (as, none)) (hx : H x = o.withAcc prop as) :
    ∃ o', endOfTemplates H x prop = .ok (combine o prop vs, H.set x o') ∧
      Resolved prop o (combine o prop vs) o' := by
  unfold endOfTemplates
  simp only [hx, Item.withAcc_plus, Item.withAcc_attr ha]
  cases hp : o.plus.get? prop with
  | none =>
    refine ⟨o.withAcc prop as, ?_, SameBut.withAcc prop o as, ?_, by rw [Item.withAcc_plus, hp]⟩
    · have hset : H.set x (o.withAcc prop as) = H := by rw [← hx]; exact Function.update_eq_self x H
      rw [hset]
      by_cases hn : as = []
      · subst hn; simp [combine, ht, hp]
      · rw [combine_additive_cons ht hn, hp]; simp [hn, Item.accList]
    · rw [Item.withAcc_attr ha]
      by_cases hn : as = []
      · subst hn; simp [combine, ht, hp]
      · rw [combine_additive_cons ht hn, hp]; simp [hn, Item.accList]
  | some pl =>
    have hval : combine o prop vs = .list (o.cleanList (o.markPlus
        ((if as = [] then [] else o.accList as) ++ pl))) := by
      by_cases hn : as = []
      · subst hn
        rw [if_pos rfl, List.nil_append]
        have hm : o.cleanList (o.markPlus pl) = o.cleanList (o.mark pl) := by
          unfold Item.markPlus Item.mark
          cases ht : o.isATemplate with
          | false => rfl
          | true =>
            cases hpl : pl with
            | nil => exact absurd hpl (hf.plus pl hp).2
            | cons e r =>
              by_cases he : e = "+"
              · subst he
                simp only [Item.cleanList_template _ _ ht]
                rfl
              · simp [he]
        rw [hm]
        simp [combine, ht, hp, Item.mark]
      · have hm : o.cleanList (o.markPlus (o.accList as ++ pl)) =
            o.cleanList (o.mark (as.flatMap (fun v => v.elements.tail) ++ pl)) := addPlus_marked _ rfl
        rw [if_neg hn, combine_additive_cons ht hn, hp, hm]
        simp
    refine ⟨((o.withAcc prop as).delPlus prop).setAttr prop (combine o prop vs), ?_, ?_, ?_, ?_⟩
    · rw [hval]
      by_cases hn : as = []
      · subst hn
        simp only [if_pos, bind, Except.bind, pure, Except.pure]
        rfl
      · simp only [if_neg hn, Option.getD_some, Value.toList, bind, Except.bind, pure, Except.pure,
          Item.withAcc_markPlus, Item.withAcc_cleanList, Item.clean]
    · exact ((SameBut.withAcc prop o as).trans (SameBut.delPlus prop _)).trans (SameBut.setAttr prop _ _)
    · rw [Item.setAttr_attr, if_neg]
      rw [hval]
      exact Value.noConfusion
    · exact Dict.get?_erase_self

def WalkDone (o : Item) (prop : String) (vs : List Value) : Option Value → Item → Prop
  | some v, o' => v = combine o prop vs ∧ Resolved prop o v o'
  | none, o' => (takeThrough vs).2 = none ∧ o' = o.withAcc prop (takeThrough vs).1

theorem kind_of_additive (hk : k.Has v) (hv : v.isAdditive = true) : k = .list := by
  obtain ⟨r, rfl⟩ := additive_list hv
  cases k with
  | list => rfl
  | scalar => rcases hk with h | ⟨s, h⟩ | ⟨n, h⟩ <;> cases h

theorem walk_spec (hf : k.Fits o prop) (ha : o.attr prop = none)
    {recurse : Heap → Nat → Except Exn (Value × Heap)} {I : Heap → Prop} (hI : ∀ H o', I H → I (H.set x o'))
    {allowed : Nat → Prop} {val : Nat → Value → Prop} (hval : ∀ t v, val t v → k.Has v) (hex : ∀ t, ∃ v, val t v)
    (hrec : ∀ t, allowed t → ∀ H, I H → ∃ v H', recurse H t = .ok (v, H') ∧ I H' ∧ H' x = H x ∧ val t v) :
    ∀ (ts : List Nat) (as : List Value) (H : Heap), (∀ a ∈ as, a.isAdditive = true ∧ k = .list) →
      H x = o.withAcc prop as → I H → Walkable allowed val ts →
      ∃ vs res H', List.Forall₂ val ts vs ∧ walkTemplates recurse x prop ts H = .ok (res, H') ∧ I H' ∧
        WalkDone o prop (as ++ vs) res (H' x) := by
  intro ts
  induction ts with
  | nil =>
    intro as H has hx hH _
    refine ⟨[], none, H, .nil, rfl, hH, ?_⟩
    have ht := takeThrough_append (fun a h => (has a h).1) []
    unfold WalkDone
    rw [ht]
    simpa [takeThrough] using hx
  | cons t ts ih =>
    intro as H has hx hH hwalk
    obtain ⟨hal, hgo⟩ := hwalk.of_cons
    obtain ⟨v, H₁, hr, hH1, hx1, hv⟩ := hrec t hal H hH
    rw [hx] at hx1
    unfold walkTemplates
    simp only [hr, bind, Except.bind]
    by_cases hvoid : v.isVoid = true
    · rw [if_pos hvoid]
      obtain ⟨vs, res, H₂, hvs, hw, hH2, hd⟩ :=
        ih as H₁ has hx1 hH1 (hgo v hv (Or.inl hvoid))
      refine ⟨v :: vs, res, H₂, .cons hv hvs, hw, hH2, ?_⟩
      have ht : takeThrough (as ++ v :: vs) = takeThrough (as ++ vs) := by
        have hadd := fun a h => (has a h).1
        rw [takeThrough_append hadd, takeThrough_append hadd, takeThrough_void hvoid]
      unfold WalkDone at hd ⊢
      rw [combine_congr ht, ht]
      exact hd
    · rw [if_neg hvoid]
      by_cases hadd : v.isAdditive = true
      · rw [hx1, mergeValue_additive ha hadd]
        simp only [hadd, if_true, Item.withAcc_setAttr]
        rw [Item.withAcc_snoc]
        have hk := kind_of_additive (hval t v hv) hadd
        obtain ⟨vs, res, H₂, hvs, hw, hH2, hd⟩ :=
          ih (as ++ [v]) (H₁.set x (o.withAcc prop (as ++ [v])))
            (fun a h => (List.mem_append.mp h).elim (has a) fun h => by
              rw [List.mem_singleton.mp h]; exact ⟨hadd, hk⟩)
            (set_self _ _ _) (hI _ _ hH1) (hgo v hv (Or.inr hadd))
        rw [List.append_assoc] at hd
        exact ⟨v :: vs, res, H₂, .cons hv hvs, hw, hH2, hd⟩
      · have hadd' : v.isAdditive = false := by simpa using hadd
        have hvoid' : v.isVoid = false := by simpa using hvoid
        obtain ⟨vs, hvs⟩ := exists_values hex ts
        have ht : takeThrough (as ++ v :: vs) = (as, some v) := by
          rw [takeThrough_append fun a h => (has a h).1, takeThrough_final hvoid' hadd']
          simp
        have has' : as = [] ∨ k = .list := by
          cases as with
          | nil => exact Or.inl rfl
          | cons a as => exact Or.inr (has a List.mem_cons_self).2
        obtain ⟨w, hw, hend⟩ := finish_walk ha ht hadd' hvoid' hf (hval t v hv) has'
        have hne : combine o prop (as ++ v :: vs) ≠ .none := combine_ne_none ht hvoid'
        rw [hx1, hw]
        simp only [hadd', Bool.false_eq_true, if_false, set_self, Item.withAcc_setAttr]
        cases hp : o.plus.get? prop with
        | none =>
          rw [hp] at hend
          simp only at hend
          have hp' : (o.setAttr prop w).plus.get? prop = none := hp
          rw [hp']
          refine ⟨v :: vs, some w, H₁.set x (o.setAttr prop w), .cons hv hvs, rfl, hI _ _ hH1, hend, ?_⟩
          rw [set_self, hend]
          exact ⟨SameBut.setAttr prop o _, by rw [Item.setAttr_attr, if_neg hne], hp⟩
        | some pl =>
          rw [hp] at hend
          simp only at hend
          have hp' : (o.setAttr prop w).plus.get? prop = some pl := hp
          rw [hp']
          simp only [hend]
          refine ⟨v :: vs, some (combine o prop (as ++ v :: vs)), (H₁.set x (o.setAttr prop w)).set x
            (((o.setAttr prop w).delPlus prop).setAttr prop (combine o prop (as ++ v :: vs))),
            .cons hv hvs, rfl, hI _ _ (hI _ _ hH1), rfl, ?_⟩
          rw [set_self]
          refine ⟨?_, by rw [Item.setAttr_attr, if_neg hne], Dict.get?_erase_self⟩
          exact ((SameBut.setAttr prop o w).trans (SameBut.delPlus prop _)).trans (SameBut.setAttr prop _ _)

end

/-! ## The reference value by rank -/

section
variable {H : Heap} {prop : String} {rank : Nat → Nat}

theorem refValue_stable (hrank : ∀ x, ∀ t ∈ (H x).templates, rank t < rank x) :
    ∀ n m x, rank x < n → rank x < m → H.refValue prop n x = H.refValue prop m x
  | 0, _, _, h, _ => absurd h (Nat.not_lt_zero _)
  | _, 0, _, _, h => absurd h (Nat.not_lt_zero _)
  | n + 1, m + 1, x, hn, hm => by
    unfold refValue
    have hmap : (H x).templates.map (H.refValue prop n) = (H x).templates.map (H.refValue prop m) := by
      apply List.map_congr_left
      intro t ht
      have := hrank x t ht
      exact refValue_stable hrank n m t (by omega) (by omega)
    rw [hmap]

/-- The reference value, with the fuel that the rank asks for. -/
def ref (H : Heap) (rank : Nat → Nat) (prop : String) (x : Nat) : Value := H.refValue prop (rank x + 1) x

theorem ref_eq (hrank : ∀ x, ∀ t ∈ (H x).templates, rank t < rank x) (x : Nat) :
    H.ref rank prop x =
      if prop = "register" then .none
      else match (H x).attr prop with
        | some v => (H x).clean v
        | none => combine (H x) prop ((H x).templates.map (H.ref rank prop)) := by
  have hmap : (H x).templates.map (H.refValue prop (rank x)) = (H x).templates.map (H.ref rank prop) := by
    apply List.map_congr_left
    intro t ht
    exact refValue_stable hrank _ _ t (hrank x t ht) (Nat.lt_succ_self _)
  rw [← hmap]
  rfl

theorem ref_register (x : Nat) : H.ref rank "register" x = .none := by
  unfold ref refValue
  rw [if_pos rfl]

theorem ref_own (hp : prop ≠ "register") {x : Nat} (h : (H x).attr prop = some v) :
    H.ref rank prop x = (H x).clean v := by
  unfold ref refValue
  rw [if_neg hp, h]

theorem ref_combine (hrank : ∀ x, ∀ t ∈ (H x).templates, rank t < rank x) (hp : prop ≠ "register") {x : Nat}
    (h : (H x).attr prop = none) :
    H.ref rank prop x = combine (H x) prop ((H x).templates.map (H.ref rank prop)) := by
  rw [ref_eq hrank, if_neg hp, h]

end

section
variable {o : Item} {prop : String} {k : Kind}

theorem has_clean (h : k.Has v) : k.Has (o.clean v) := by
  cases k with
  | list =>
    rcases h with rfl | ⟨l, rfl⟩
    · exact Or.inl rfl
    · exact Or.inr ⟨_, rfl⟩
  | scalar => rcases h with rfl | ⟨s, rfl⟩ | ⟨n, rfl⟩
              · exact Or.inl rfl
              · exact Or.inr (Or.inl ⟨s, rfl⟩)
              · exact Or.inr (Or.inr ⟨n, rfl⟩)

theorem takeThrough_scalar (hvs : ∀ v ∈ vs, Kind.scalar.Has v) : (takeThrough vs).1 = [] := by
  rw [List.eq_nil_iff_forall_not_mem]
  intro v hv
  have ⟨hm, ha⟩ := takeThrough_additive_mem hv
  exact Kind.noConfusion (kind_of_additive (hvs v hm) ha)

theorem combine_scalar (hf : Kind.scalar.Fits o prop) (hvs : ∀ v ∈ vs, Kind.scalar.Has v) :
    combine o prop vs = ((takeThrough vs).2.map o.clean).getD .none := by
  have hp : o.plus.get? prop = none := by
    cases hp : o.plus.get? prop with
    | none => rfl
    | some pl => exact Kind.noConfusion (hf.plus pl hp).1
  have ht : takeThrough vs = ([], (takeThrough vs).2) := by rw [← takeThrough_scalar hvs]
  unfold combine
  rw [ht, hp]
  cases (takeThrough vs).2 with
  | none => rfl
  | some v => rfl

theorem has_combine (hf : k.Fits o prop) (hvs : ∀ v ∈ vs, k.Has v) :
    k.Has (combine o prop vs) := by
  cases k with
  | scalar =>
    rw [combine_scalar hf hvs]
    cases hv : (takeThrough vs).2 with
    | none => exact Or.inl rfl
    | some v => exact has_clean (hvs v (takeThrough_final_mem hv).1)
  | list =>
    cases ht : takeThrough vs with
    | mk as f =>
      unfold combine
      rw [ht]
      cases as with
      | cons a as => exact Or.inr ⟨_, rfl⟩
      | nil =>
        cases f with
        | none =>
          cases o.plus.get? prop with
          | none => exact Or.inl rfl
          | some pl => exact Or.inr ⟨_, rfl⟩
        | some v =>
          cases o.plus.get? prop with
          | none => exact has_clean (hvs v (takeThrough_final_mem (by rw [ht])).1)
          | some pl => exact Or.inr ⟨_, rfl⟩

theorem clean_combine (vs : List Value) : o.clean (combine o prop vs) = combine o prop vs := by
  unfold combine
  split
  · rfl
  · exact o.clean_clean _
  · exact congrArg Value.list (o.cleanList_cleanList _)

theorem has_ref {H : Heap} {rank : Nat → Nat} (hrank : ∀ x, ∀ t ∈ (H x).templates, rank t < rank x)
    (hf : ∀ x, k.Fits (H x) prop) (x : Nat) : k.Has (H.ref rank prop x) := by
  induction hn : rank x using Nat.strong_induction_on generalizing x with
  | _ n ih =>
    rw [ref_eq hrank]
    by_cases hp : prop = "register"
    · rw [if_pos hp]
      cases k with
      | list => exact Or.inl rfl
      | scalar => exact Or.inl rfl
    · rw [if_neg hp]
      cases ha : (H x).attr prop with
      | some v => exact has_clean ((hf x).attr v ha).1
      | none =>
        apply has_combine (hf x)
        intro v hv
        obtain ⟨t, ht, rfl⟩ := List.mem_map.mp hv
        exact ih (rank t) (hn ▸ hrank x t ht) t rfl

end

end Heap

end Alignak
