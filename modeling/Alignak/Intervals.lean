import Mathlib.Data.List.Sort
import Mathlib.Order.Lattice

/-!
# Chains of intervals

A chain goes through intervals in the order of their starts, each starting no
later than the end of the one before.
-/

namespace Alignak

section
variable {α : Type*} [LinearOrder α]

def chainEnd : α → List (α × α) → α
  | e, [] => e
  | e, p :: l => if p.1 ≤ e then chainEnd p.2 l else e

/-- The intervals after `q` start after its end. -/
def Gap (l : List (α × α)) (q : α × α) : Prop := ∃ pre post, l = pre ++ q :: post ∧ ∀ x ∈ post, q.2 < x.1

variable {p q : α × α} {l : List (α × α)} {r u : α}

theorem chainEnd_covered : ∀ {l : List (α × α)} {p : α × α}, p.1 ≤ u → u < chainEnd p.2 l →
    ∃ q ∈ p :: l, q.1 ≤ u ∧ u < q.2
  | [], p, h, hu => ⟨p, List.mem_cons_self, h, hu⟩
  | q :: l, p, h, hu => by
    by_cases hpu : u < p.2
    · exact ⟨p, List.mem_cons_self, h, hpu⟩
    · rw [chainEnd] at hu
      split at hu
      · rename_i hq
        obtain ⟨x, hx, hxu⟩ := chainEnd_covered (l := l) (p := q) (hq.trans (not_lt.mp hpu)) hu
        exact ⟨x, List.mem_cons_of_mem _ hx, hxu⟩
      · exact absurd hu hpu

theorem chainEnd_gap : ∀ {l : List (α × α)} {p : α × α}, (p :: l).Pairwise (fun a b => a.1 ≤ b.1) →
    ∃ q, chainEnd p.2 l = q.2 ∧ Gap (p :: l) q
  | [], p, _ => ⟨p, rfl, [], [], rfl, fun _ h => nomatch h⟩
  | q :: l, p, hs => by
    rw [chainEnd]
    rw [List.pairwise_cons] at hs
    split
    · obtain ⟨x, hx, pre, post, e, hpost⟩ := chainEnd_gap hs.2
      exact ⟨x, hx, p :: pre, post, by rw [e]; rfl, hpost⟩
    · rename_i hq
      refine ⟨p, rfl, [], q :: l, rfl, fun x hx => lt_of_lt_of_le (not_le.mp hq) ?_⟩
      rcases List.mem_cons.mp hx with rfl | hx
      · exact le_refl _
      · exact (List.pairwise_cons.mp hs.2).1 x hx

theorem chainEnd_le_gap : ∀ {l : List (α × α)} {p : α × α}, (p :: l).Pairwise (fun a b => a.1 ≤ b.1) →
    (∀ x ∈ p :: l, x.1 ≤ x.2) → Gap (p :: l) q → chainEnd p.2 l ≤ q.2
  | [], p, _, _, hg => by
    obtain ⟨pre, post, e, -⟩ := hg
    cases pre with
    | nil =>
      cases e
      exact le_refl _
    | cons y pre => simp at e
  | x :: l, p, hs, hne, hg => by
    obtain ⟨pre, post, e, hpost⟩ := hg
    rw [List.pairwise_cons] at hs
    rw [chainEnd]
    cases pre with
    | nil =>
      cases e
      rw [if_neg (not_le.mpr (hpost x List.mem_cons_self))]
    | cons y pre =>
      rw [List.cons_append, List.cons.injEq] at e
      obtain ⟨-, e⟩ := e
      split
      · exact chainEnd_le_gap hs.2 (fun x hx => hne x (List.mem_cons_of_mem _ hx)) ⟨pre, post, e, hpost⟩
      · rename_i hx
        have hq : q ∈ x :: l := e ▸ List.mem_append_right _ List.mem_cons_self
        have hxq : x.1 ≤ q.1 := by
          rcases List.mem_cons.mp hq with rfl | hq
          · exact le_refl _
          · exact (List.pairwise_cons.mp hs.2).1 q hq
        exact (le_of_lt (not_le.mp hx)).trans (hxq.trans (hne q (List.mem_cons_of_mem _ hq)))

theorem chainEnd_lt_iff (hs : (p :: l).Pairwise (fun a b => a.1 ≤ b.1)) (hne : ∀ x ∈ p :: l, x.1 ≤ x.2) :
    chainEnd p.2 l < r ↔ ∃ q, q.2 < r ∧ Gap (p :: l) q := by
  constructor
  · intro h
    obtain ⟨q, e, hg⟩ := chainEnd_gap hs
    exact ⟨q, e ▸ h, hg⟩
  · rintro ⟨q, hq, hg⟩
    exact lt_of_le_of_lt (chainEnd_le_gap hs hne hg) hq

/-! ## All the chains -/

/-- The chains of the intervals behind one that starts at `s` and has come to `e`. -/
def chains : α → α → List (α × α) → List (α × α)
  | s, e, [] => [(s, e)]
  | s, e, p :: l => if p.1 ≤ e then chains s p.2 l else (s, e) :: chains p.1 p.2 l

def instants (l : List (α × α)) : Set α := {x | ∃ p ∈ l, p.1 ≤ x ∧ x < p.2}

def Between (x : α) : α → List (α × α) → Prop
  | e, [] => e ≤ x
  | e, p :: l => e ≤ x ∧ x < p.1 ∨ Between x p.2 l

section
variable {s e x : α}

theorem instants_cons : x ∈ instants (p :: l) ↔ (p.1 ≤ x ∧ x < p.2) ∨ x ∈ instants l := by
  unfold instants
  simp

theorem le_of_between {b : α} : ∀ {l : List (α × α)} {e : α}, b ≤ e → (∀ p ∈ l, b ≤ p.2) → Between x e l → b ≤ x
  | [], _, he, _, h => he.trans h
  | p :: l, e, he, hl, h => by
    rcases h with ⟨hx, _⟩ | h
    · exact he.trans hx
    · exact le_of_between (hl p List.mem_cons_self) (fun q hq => hl q (List.mem_cons_of_mem _ hq)) h

theorem mem_instants_chains : ∀ {l : List (α × α)} {s e : α}, l.Pairwise (fun a b => a.1 ≤ b.1) → (∀ p ∈ l, s ≤ p.1 ∧ p.1 ≤ p.2) →
    (x ∈ instants (chains s e l) ↔ s ≤ x ∧ ¬ Between x e l)
  | [], s, e, _, _ => by
    simp [chains, instants, Between]
  | p :: l, s, e, hs, hl => by
    have hp := hl p List.mem_cons_self
    rw [List.pairwise_cons] at hs
    have hrest : ∀ q ∈ l, q.1 ≤ q.2 := fun q hq => (hl q (List.mem_cons_of_mem _ hq)).2
    rw [chains]
    split
    · rename_i he
      rw [mem_instants_chains hs.2 fun q hq => hl q (List.mem_cons_of_mem _ hq), Between, not_or]
      have hnone : ¬ (e ≤ x ∧ x < p.1) := fun h => absurd (h.2.trans_le he) (not_lt.mpr h.1)
      exact and_congr_right fun _ => (and_iff_right hnone).symm
    · rename_i he
      have he' := not_le.mp he
      rw [instants_cons, mem_instants_chains hs.2 fun q hq => ⟨hs.1 q hq, hrest q hq⟩, Between, not_or]
      constructor
      · rintro (⟨hx, hxe⟩ | ⟨hx, hb⟩)
        · refine ⟨hx, fun h => absurd hxe (not_lt.mpr h.1), fun h => ?_⟩
          have hpx : p.1 ≤ x := le_of_between hp.2 (fun q hq => (hs.1 q hq).trans (hrest q hq)) h
          exact absurd (hxe.trans he') (not_lt.mpr hpx)
        · exact ⟨hp.1.trans hx, fun h => absurd h.2 (not_lt.mpr hx), hb⟩
      · rintro ⟨hx, hnot, hb⟩
        rcases lt_or_ge x e with hxe | hxe
        · exact .inl ⟨hx, hxe⟩
        · exact .inr ⟨not_lt.mp fun h => hnot ⟨hxe, h⟩, hb⟩

theorem chains_start : ∀ {l : List (α × α)} {s e : α}, (∀ p ∈ l, s ≤ p.1) → l.Pairwise (fun a b => a.1 ≤ b.1) →
    ∀ q ∈ chains s e l, s ≤ q.1
  | [], s, e, _, _, q, hq => by
    rw [List.mem_singleton.mp hq]
  | p :: l, s, e, hl, hs, q, hq => by
    rw [List.pairwise_cons] at hs
    rw [chains] at hq
    split at hq
    · exact chains_start (fun q hq => hl q (List.mem_cons_of_mem _ hq)) hs.2 q hq
    · rcases List.mem_cons.mp hq with rfl | hq
      · exact le_refl _
      · exact (hl p List.mem_cons_self).trans (chains_start hs.1 hs.2 q hq)

theorem chains_apart : ∀ {l : List (α × α)} {s e : α}, l.Pairwise (fun a b => a.1 ≤ b.1) →
    (chains s e l).Pairwise fun a b => a.2 < b.1
  | [], s, e, _ => List.pairwise_singleton _ _
  | p :: l, s, e, hs => by
    rw [List.pairwise_cons] at hs
    rw [chains]
    split
    · exact chains_apart hs.2
    · rename_i he
      rw [List.pairwise_cons]
      exact ⟨fun q hq => (not_le.mp he).trans_le (chains_start hs.1 hs.2 q hq), chains_apart hs.2⟩

theorem chains_valid : ∀ {l : List (α × α)} {s e : α}, s ≤ e → (∀ p ∈ l, s ≤ p.1 ∧ p.1 ≤ p.2) →
    l.Pairwise (fun a b => a.1 ≤ b.1) → ∀ q ∈ chains s e l, q.1 ≤ q.2
  | [], s, e, he, _, _, q, hq => by
    rw [List.mem_singleton.mp hq]
    exact he
  | p :: l, s, e, he, hl, hs, q, hq => by
    have hp := hl p List.mem_cons_self
    have hrest : ∀ q ∈ l, s ≤ q.1 ∧ q.1 ≤ q.2 := fun q hq => hl q (List.mem_cons_of_mem _ hq)
    rw [List.pairwise_cons] at hs
    rw [chains] at hq
    split at hq
    · exact chains_valid (hp.1.trans hp.2) hrest hs.2 q hq
    · rcases List.mem_cons.mp hq with rfl | hq
      · exact he
      · exact chains_valid hp.2 (fun q hq => ⟨hs.1 q hq, (hrest q hq).2⟩) hs.2 q hq

theorem between_iff : ∀ {l : List (α × α)} {p : α × α}, (p :: l).Pairwise (fun a b => a.1 ≤ b.1) →
    (Between x p.2 l ↔ ∃ pre q post, p :: l = pre ++ q :: post ∧ q.2 ≤ x ∧ ∀ r ∈ post, x < r.1)
  | [], p, _ => by
    constructor
    · exact fun h => ⟨[], p, [], rfl, h, fun _ hr => nomatch hr⟩
    · rintro ⟨pre, q, post, e, hq, _⟩
      obtain ⟨rfl, rfl, rfl⟩ : pre = [] ∧ p = q ∧ post = [] := by
        cases pre with
        | nil => simpa [eq_comm] using e
        | cons y pre => simp at e
      exact hq
  | r :: l, p, hs => by
    rw [List.pairwise_cons] at hs
    rw [Between, between_iff hs.2]
    constructor
    · rintro (⟨hp, hr⟩ | ⟨pre, q, post, e, h⟩)
      · refine ⟨[], p, r :: l, rfl, hp, fun t ht => ?_⟩
        rcases List.mem_cons.mp ht with rfl | ht
        · exact hr
        · exact hr.trans_le ((List.pairwise_cons.mp hs.2).1 t ht)
      · exact ⟨p :: pre, q, post, by rw [e]; rfl, h⟩
    · rintro ⟨pre, q, post, e, hq, hpost⟩
      cases pre with
      | nil =>
        cases e
        exact .inl ⟨hq, hpost r List.mem_cons_self⟩
      | cons y pre =>
        rw [List.cons_append, List.cons.injEq] at e
        exact .inr ⟨pre, q, post, e.2, hq, hpost⟩

theorem covered_of_not_between : ∀ {l : List (α × α)} {p : α × α}, p.1 ≤ x → ¬ Between x p.2 l → x ∈ instants (p :: l)
  | [], p, hx, h => instants_cons.mpr (.inl ⟨hx, not_le.mp h⟩)
  | q :: l, p, hx, h => by
    rw [Between, not_or] at h
    rcases lt_or_ge x p.2 with hp | hp
    · exact instants_cons.mpr (.inl ⟨hx, hp⟩)
    · exact instants_cons.mpr (.inr (covered_of_not_between (not_lt.mp fun hq => h.1 ⟨hp, hq⟩) h.2))

theorem instants_chains_eq_iff (hs : (p :: l).Pairwise fun a b => a.1 ≤ b.1) (hv : ∀ q ∈ p :: l, q.1 ≤ q.2) :
    instants (chains p.1 p.2 l) = instants (p :: l) ↔
      ∀ q, Gap (p :: l) q → ∀ r ∈ p :: l, r.1 ≤ q.1 → r.2 ≤ q.2 := by
  have hsplit := List.pairwise_cons.mp hs
  have hmem : ∀ x, x ∈ instants (chains p.1 p.2 l) ↔ p.1 ≤ x ∧ ¬ Between x p.2 l := fun x =>
    mem_instants_chains hsplit.2 fun q hq => ⟨hsplit.1 q hq, hv q (List.mem_cons_of_mem _ hq)⟩
  constructor
  · rintro heq q ⟨pre, post, e, hpost⟩ r hr hrq
    by_contra hlt
    have hq : q ∈ p :: l := by
      rw [e]
      exact List.mem_append_right _ List.mem_cons_self
    have hin : q.2 ∈ instants (p :: l) := ⟨r, hr, hrq.trans (hv q hq), not_le.mp hlt⟩
    rw [← heq, hmem, between_iff hs] at hin
    exact hin.2 ⟨pre, q, post, e, le_refl _, hpost⟩
  · intro h
    ext x
    rw [hmem]
    constructor
    · exact fun hx => covered_of_not_between hx.1 hx.2
    · rintro ⟨r, hr, hrx, hxr⟩
      refine ⟨?_, fun hb => ?_⟩
      · rcases List.mem_cons.mp hr with rfl | hr
        · exact hrx
        · exact (hsplit.1 r hr).trans hrx
      · obtain ⟨pre, q, post, e, hqx, hpost⟩ := (between_iff hs).mp hb
        have hr' := hr
        rw [e] at hr'
        rcases List.mem_append.mp hr' with hpre | hrest
        · rw [e, List.pairwise_append] at hs
          have hend := h q ⟨pre, post, e, fun t ht => hqx.trans_lt (hpost t ht)⟩ r hr (hs.2.2 r hpre q List.mem_cons_self)
          exact absurd hxr (not_lt.mpr (hend.trans hqx))
        · rcases List.mem_cons.mp hrest with rfl | hrest
          · exact absurd hxr (not_lt.mpr hqx)
          · exact absurd hrx (not_le.mpr (hpost r hrest))

end

/-! ## Sorting by the starts -/

def sortByStart (l : List (α × α)) : List (α × α) := l.insertionSort fun a b => a.1 ≤ b.1

instance totalByStart : Std.Total fun a b : α × α => a.1 ≤ b.1 := ⟨fun a b => le_total a.1 b.1⟩

instance transByStart : IsTrans (α × α) fun a b => a.1 ≤ b.1 := ⟨fun _ _ _ => le_trans⟩

theorem sortByStart_sorted (l : List (α × α)) : (sortByStart l).Pairwise fun a b => a.1 ≤ b.1 :=
  List.pairwise_insertionSort _ l

theorem mem_sortByStart : p ∈ sortByStart l ↔ p ∈ l := List.mem_insertionSort _

theorem sortByStart_eq_nil : sortByStart l = [] ↔ l = [] := by
  simp only [List.eq_nil_iff_forall_not_mem, mem_sortByStart]

theorem first_of_sortByStart {rest : List (α × α)} (h : sortByStart l = p :: rest) : p ∈ l ∧ ∀ x ∈ l, p.1 ≤ x.1 := by
  refine ⟨mem_sortByStart.mp (h ▸ List.mem_cons_self), fun x hx => ?_⟩
  rcases List.mem_cons.mp (h ▸ mem_sortByStart.mpr hx) with rfl | hx
  · exact le_refl _
  · exact (List.pairwise_cons.mp (h ▸ sortByStart_sorted l)).1 x hx

/-- The sort leaves the order of the intervals with one start. -/
theorem filter_sortByStart (l : List (α × α)) (s : α) :
    (sortByStart l).filter (fun x => x.1 = s) = l.filter fun x => x.1 = s := by
  have hpair : (l.filter fun x => x.1 = s).Pairwise fun a b => a.1 ≤ b.1 := by
    refine List.pairwise_of_forall_mem_list fun a ha b hb => ?_
    have ha' : a.1 = s := by simpa using (List.mem_filter.mp ha).2
    have hb' : b.1 = s := by simpa using (List.mem_filter.mp hb).2
    rw [ha', hb']
  have hsub : (l.filter fun x => x.1 = s).Sublist ((sortByStart l).filter fun x => x.1 = s) := by
    have h := (List.sublist_insertionSort hpair List.filter_sublist).filter fun x => decide (x.1 = s)
    rw [List.filter_filter] at h
    unfold sortByStart
    simpa using h
  refine (hsub.eq_of_length ?_).symm
  exact ((List.perm_insertionSort _ l).filter _).length_eq.symm

theorem gap_sortByStart_iff (hq : q.1 ≤ q.2) : Gap (sortByStart l) q ↔
    (l.filter fun x => x.1 = q.1).getLast? = some q ∧ ∀ x ∈ l, q.1 < x.1 → q.2 < x.1 := by
  have hsorted := sortByStart_sorted l
  rw [← filter_sortByStart]
  constructor
  · rintro ⟨pre, post, e, hpost⟩
    rw [e] at hsorted ⊢
    have hnil : (post.filter fun x => x.1 = q.1) = [] := by
      refine List.filter_eq_nil_iff.mpr fun x hx => ?_
      rw [decide_eq_true_eq]
      exact ne_of_gt (lt_of_le_of_lt hq (hpost x hx))
    refine ⟨?_, fun x hx hlt => ?_⟩
    · rw [List.filter_append, List.filter_cons_of_pos (by simp), hnil]
      simp
    · rw [← mem_sortByStart, e, List.mem_append, List.mem_cons] at hx
      rcases hx with hx | rfl | hx
      · have hle := (List.pairwise_append.mp hsorted).2.2 x hx q List.mem_cons_self
        exact absurd hlt (not_lt.mpr hle)
      · exact absurd hlt (lt_irrefl _)
      · exact hpost x hx
  · rintro ⟨hlast, hgap⟩
    obtain ⟨pre', e'⟩ := List.getLast?_eq_some_iff.mp hlast
    obtain ⟨l₁, l₂, e, h1, h2⟩ := List.filter_eq_append_iff.mp e'
    obtain ⟨m₁, m₂, e₂, hm1, -, hm2⟩ := List.filter_eq_cons_iff.mp h2
    refine ⟨l₁ ++ m₁, m₂, by rw [e, e₂, List.append_assoc], fun x hx => ?_⟩
    have hxl : x ∈ sortByStart l := by
      rw [e, e₂]
      simp [hx]
    refine hgap x (mem_sortByStart.mp hxl) (lt_of_le_of_ne ?_ fun h => ?_)
    · rw [e, e₂, ← List.append_assoc] at hsorted
      exact (List.pairwise_cons.mp (List.pairwise_append.mp hsorted).2.1).1 x hx
    · have hnil := List.filter_eq_nil_iff.mp hm2 x hx
      rw [decide_eq_true_eq] at hnil
      exact hnil h.symm

end

end Alignak
