import Mathlib.Data.Finset.Card
import Mathlib.Data.Finset.Filter
import Mathlib.Logic.Relation
import Mathlib.Tactic.Common

/-!
# Relations with finitely many targets

A relation whose targets lie in a list is acyclic exactly when it has a rank
that falls along each edge; the rank bounds the depth of a recursion over the
relation.
-/

namespace Alignak

open Relation

section
variable {α : Type*} {r : α → α → Prop}

def Acyclic (r : α → α → Prop) : Prop := ∀ x, ¬ TransGen r x x

/-- A cycle can be reached from `x`. -/
def LeadsToCycle (r : α → α → Prop) (x : α) : Prop := ∃ y, ReflTransGen r x y ∧ TransGen r y y

theorem LeadsToCycle.of_cycle {x : α} (h : TransGen r x x) : LeadsToCycle r x := ⟨x, .refl, h⟩

theorem LeadsToCycle.of_path {x y : α} (h : LeadsToCycle r y) (hxy : ReflTransGen r x y) : LeadsToCycle r x := by
  obtain ⟨z, hz, hcycle⟩ := h
  exact ⟨z, hxy.trans hz, hcycle⟩

theorem leadsToCycle_iff {x : α} : LeadsToCycle r x ↔ ∃ y, r x y ∧ LeadsToCycle r y := by
  constructor
  · rintro ⟨z, hz, hcycle⟩
    rcases hz.cases_head with rfl | ⟨y, hxy, hyz⟩
    · obtain ⟨y, hxy, hyx⟩ := TransGen.head'_iff.mp hcycle
      exact ⟨y, hxy, x, hyx, hcycle⟩
    · exact ⟨y, hxy, z, hyz, hcycle⟩
  · rintro ⟨y, hxy, hy⟩
    exact hy.of_path (.single hxy)

theorem acyclic_of_rank (rank : α → Nat) (h : ∀ x y, r x y → rank y < rank x) : Acyclic r := by
  have key : ∀ x y, TransGen r x y → rank y < rank x := by
    intro x y hxy
    induction hxy with
    | single hab => exact h _ _ hab
    | tail _ hbc ih => exact lt_trans (h _ _ hbc) ih
  exact fun x hx => lt_irrefl _ (key x x hx)

theorem exists_rank (L : List α) (hL : ∀ x y, r x y → y ∈ L) (h : Acyclic r) :
    ∃ rank : α → Nat, (∀ x y, r x y → rank y < rank x) ∧ ∀ x, rank x ≤ L.length := by
  classical
  let below : α → Finset α := fun x => L.toFinset.filter fun y => TransGen r x y
  refine ⟨fun x => (below x).card, fun x y hxy => Finset.card_lt_card ?_, fun x => ?_⟩
  · refine Finset.ssubset_iff_of_subset (fun z hz => ?_) |>.mpr ⟨y, ?_, ?_⟩
    · rw [Finset.mem_filter] at hz ⊢
      exact ⟨hz.1, (TransGen.single hxy).trans hz.2⟩
    · rw [Finset.mem_filter, List.mem_toFinset]
      exact ⟨hL x y hxy, TransGen.single hxy⟩
    · rw [Finset.mem_filter]
      exact fun hy => h y hy.2
  · exact (Finset.card_filter_le _ _).trans (List.toFinset_card_le L)

/-- `P n x`: the recursion ends at `x` with fuel `n`. -/
theorem no_cycle_of_fuel {P : Nat → α → Prop} (hP : ∀ n x, P n x → ∀ y, r x y → ∃ m < n, P m y)
    {n : Nat} {x : α} (h : P n x) : ¬ TransGen r x x := by
  have step : ∀ n x y, P n x → TransGen r x y → ∃ m < n, P m y := by
    intro n x y hx hxy
    induction hxy with
    | single hab => exact hP n x hx _ hab
    | tail _ hbc ih =>
      obtain ⟨m, hm, hb⟩ := ih
      obtain ⟨k, hk, hc⟩ := hP m _ hb _ hbc
      exact ⟨k, lt_trans hk hm, hc⟩
  intro hx
  induction n using Nat.strong_induction_on with
  | _ n ih =>
    obtain ⟨m, hm, hxm⟩ := step n x x h hx
    exact ih m hm hxm

theorem transGen_ne_or_loop {x y : α} (h : TransGen r x y) :
    TransGen (fun a b => r a b ∧ a ≠ b) x y ∨ (x = y ∧ r x x) := by
  induction h with
  | @single b hab =>
    by_cases he : x = b
    · subst he; exact Or.inr ⟨rfl, hab⟩
    · exact Or.inl (TransGen.single ⟨hab, he⟩)
  | @tail b c _ hbc ih =>
    by_cases he : b = c
    · subst he; exact ih
    · rcases ih with ih | ⟨rfl, _⟩
      · exact Or.inl (ih.tail ⟨hbc, he⟩)
      · exact Or.inl (TransGen.single ⟨hbc, he⟩)

end

end Alignak
