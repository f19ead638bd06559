import Alignak.Digraph
import Mathlib.Data.List.Nodup
import Mathlib.Data.List.Perm.Basic

/-!
# Forests

A search that never comes twice to a node has visited a forest. Such searches
from every node exist exactly in the graphs without cycles in which no node is
reached along two ways.
-/

namespace Alignak

open Relation

section
variable {α : Type*} (succ : α → List α)

def Edge (a b : α) : Prop := b ∈ succ a

def Reaches (a b : α) : Prop := ReflTransGen (Edge succ) a b

/-- No node is a successor twice, of one node or of two nodes that are reached
from one. -/
structure OneWay : Prop where
  nodup : ∀ a, (succ a).Nodup
  unique : ∀ r a b x, Reaches succ r a → Reaches succ r b → Edge succ a x → Edge succ b x → a = b

/-- The nodes in `D` are those below the roots, and each is there once. -/
structure Forest (roots : List α) (D : α → Prop) : Prop where
  root : ∀ m ∈ roots, D m
  rootsNodup : roots.Nodup
  below : ∀ x, D x → ∃ m ∈ roots, Reaches succ m x
  closed : ∀ a x, D a → Edge succ a x → D x
  nodup : ∀ a, D a → (succ a).Nodup
  unique : ∀ a b x, D a → D b → Edge succ a x → Edge succ b x → a = b
  noRoot : ∀ a, ∀ m ∈ roots, D a → ¬ Edge succ a m

end

section
variable {α : Type*} {succ succ' : α → List α} {roots roots' : List α} {D D' : α → Prop} {a b r x : α}

namespace Forest

theorem nil : Forest succ [] fun _ => False where
  root _ hm := absurd hm List.not_mem_nil
  rootsNodup := List.nodup_nil
  below _ h := h.elim
  closed _ _ h := h.elim
  nodup _ h := h.elim
  unique _ _ _ h := h.elim
  noRoot _ _ hm := absurd hm List.not_mem_nil

theorem append (h : Forest succ roots D) (h' : Forest succ roots' D') (hd : ∀ x, D x → ¬ D' x) :
    Forest succ (roots ++ roots') fun x => D x ∨ D' x where
  root m hm := (List.mem_append.mp hm).imp (h.root m) (h'.root m)
  rootsNodup := List.nodup_append.mpr ⟨h.rootsNodup, h'.rootsNodup, fun m hm m' hm' e =>
    hd m (h.root m hm) (e ▸ h'.root m' hm')⟩
  below x hx := by
    rcases hx with hx | hx
    · obtain ⟨m, hm, hr⟩ := h.below x hx
      exact ⟨m, List.mem_append_left _ hm, hr⟩
    · obtain ⟨m, hm, hr⟩ := h'.below x hx
      exact ⟨m, List.mem_append_right _ hm, hr⟩
  closed a x ha he := ha.imp (h.closed a x · he) (h'.closed a x · he)
  nodup a ha := ha.elim (h.nodup a) (h'.nodup a)
  unique a b x ha hb hax hbx := by
    rcases ha with ha | ha <;> rcases hb with hb | hb
    · exact h.unique a b x ha hb hax hbx
    · exact absurd (h'.closed b x hb hbx) (hd x (h.closed a x ha hax))
    · exact absurd (h'.closed a x ha hax) (hd x (h.closed b x hb hbx))
    · exact h'.unique a b x ha hb hax hbx
  noRoot a m hm ha he := by
    rcases ha with ha | ha <;> rcases List.mem_append.mp hm with hm | hm
    · exact h.noRoot a m hm ha he
    · exact hd m (h.closed a m ha he) (h'.root m hm)
    · exact hd m (h.root m hm) (h'.closed a m ha he)
    · exact h'.noRoot a m hm ha he

theorem branch (h : Forest succ (succ a) D) (ha : ¬ D a) : Forest succ [a] fun x => x = a ∨ D x where
  root m hm := Or.inl (List.mem_singleton.mp hm)
  rootsNodup := List.nodup_singleton a
  below x hx := by
    refine ⟨a, List.mem_singleton_self a, ?_⟩
    rcases hx with rfl | hx
    · exact .refl
    · obtain ⟨m, hm, hr⟩ := h.below x hx
      exact .head hm hr
  closed b x hb he := by
    rcases hb with rfl | hb
    · exact Or.inr (h.root x he)
    · exact Or.inr (h.closed b x hb he)
  nodup b hb := by
    rcases hb with rfl | hb
    · exact h.rootsNodup
    · exact h.nodup b hb
  unique b c x hb hc hbx hcx := by
    rcases hb with rfl | hb <;> rcases hc with rfl | hc
    · rfl
    · exact absurd hcx (h.noRoot c x hbx hc)
    · exact absurd hbx (h.noRoot b x hcx hb)
    · exact h.unique b c x hb hc hbx hcx
  noRoot b m hm hb he := by
    obtain rfl := List.mem_singleton.mp hm
    rcases hb with rfl | hb
    · exact ha (h.root b he)
    · exact ha (h.closed b m hb he)

theorem congr (h : Forest succ roots D) (hD : ∀ x, D x ↔ D' x) : Forest succ roots D' := by
  obtain rfl : D = D' := funext fun x => propext (hD x)
  exact h

theorem reaches_perm (hp : ∀ a, (succ' a).Perm (succ a)) (h : Reaches succ a b) : Reaches succ' a b := by
  induction h with
  | refl => exact .refl
  | tail _ hbc ih => exact ih.tail ((hp _).mem_iff.mpr hbc)

/-- The order of the successors and of the roots does not matter. -/
theorem perm (h : Forest succ roots D) (hp : ∀ a, (succ' a).Perm (succ a)) (hr : roots'.Perm roots) : Forest succ' roots' D where
  root m hm := h.root m (hr.mem_iff.mp hm)
  rootsNodup := hr.nodup_iff.mpr h.rootsNodup
  below x hx := by
    obtain ⟨m, hm, hmx⟩ := h.below x hx
    exact ⟨m, hr.mem_iff.mpr hm, reaches_perm hp hmx⟩
  closed a x ha he := h.closed a x ha ((hp a).mem_iff.mp he)
  nodup a ha := (hp a).nodup_iff.mpr (h.nodup a ha)
  unique a b x ha hb hax hbx := h.unique a b x ha hb ((hp a).mem_iff.mp hax) ((hp b).mem_iff.mp hbx)
  noRoot a m hm ha he := h.noRoot a m (hr.mem_iff.mp hm) ha ((hp a).mem_iff.mp he)

theorem mem_of_reaches (h : Forest succ roots D) (ha : D a) (hab : Reaches succ a b) : D b := by
  induction hab with
  | refl => exact ha
  | tail _ hbc ih => exact h.closed _ _ ih hbc

theorem no_cycle (h : Forest succ [r] D) : ¬ TransGen (Edge succ) r r := by
  intro hc
  obtain ⟨b, hrb, hbr⟩ := TransGen.tail'_iff.mp hc
  exact h.noRoot b r (List.mem_singleton_self r) (h.mem_of_reaches (h.root r (List.mem_singleton_self r)) hrb) hbr

end Forest

theorem acyclic_oneWay_of_forests (h : ∀ r, ∃ D, Forest succ [r] D) : Acyclic (Edge succ) ∧ OneWay succ := by
  refine ⟨fun r => ?_, fun a => ?_, fun r a b x ha hb hax hbx => ?_⟩
  · obtain ⟨D, hD⟩ := h r
    exact hD.no_cycle
  · obtain ⟨D, hD⟩ := h a
    exact hD.nodup a (hD.root a (List.mem_singleton_self a))
  · obtain ⟨D, hD⟩ := h r
    have hr := hD.root r (List.mem_singleton_self r)
    exact hD.unique a b x (hD.mem_of_reaches hr ha) (hD.mem_of_reaches hr hb) hax hbx

theorem disjoint_successors (hac : Acyclic (Edge succ)) (hw : OneWay succ) {m m' : α} (hm : Edge succ a m) (hm' : Edge succ a m')
    (hx : Reaches succ m x) (hx' : Reaches succ m' x) : m = m' := by
  have hback : ∀ {m m' : α}, Edge succ a m → Edge succ a m' → Reaches succ m' m → m = m' := by
    intro m m' hm hm' hr
    rcases ReflTransGen.cases_tail hr with rfl | ⟨p, hp, hpm⟩
    · rfl
    · have : p = a := hw.unique a p a m (.head hm' hp) .refl hpm hm
      subst this
      exact absurd (TransGen.head' hm' hp) (hac p)
  induction hx with
  | refl => exact hback hm hm' hx'
  | @tail b c hb hbc ih =>
    rcases ReflTransGen.cases_tail hx' with rfl | ⟨p, hp, hpc⟩
    · exact (hback hm' hm (hb.tail hbc)).symm
    · have hpb : p = b := hw.unique a p b c (.head hm' hp) (.head hm hb) hpc hbc
      exact ih (hpb ▸ hp)

end

end Alignak
