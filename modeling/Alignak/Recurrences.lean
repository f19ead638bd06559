import Mathlib.Data.Int.ConditionallyCompleteOrder
import Mathlib.Order.ConditionallyCompleteLattice.Basic
import Mathlib.Tactic.Common

/-!
# Recurrences

Something begins and something ends in each period. When the end comes before
the beginning, the occurrence goes on to the end of the next period.
-/

namespace Alignak

structure Recurrence (α : Type) where
  first : Int → α
  last : Int → α

namespace Recurrence

variable {α : Type} [LinearOrder α] (r : Recurrence α)

def Wraps (k : Int) : Prop := r.last k < r.first k

instance Wraps.decidable (k : Int) : Decidable (r.Wraps k) := inferInstanceAs (Decidable (_ < _))

def finish (k : Int) : α := if r.Wraps k then r.last (k + 1) else r.last k

def Contains (t : α) (k : Int) : Prop := r.first k ≤ t ∧ t ≤ r.finish k

def Found (t : α) (p : α × α) : Prop :=
  ∃ k, p = (r.first k, r.finish k) ∧
    (r.Contains t k ∨ (∀ j, ¬ r.Contains t j) ∧ t < r.first k ∧ ∀ j, t < r.first j → r.first k ≤ r.first j)

def Settles (t : α) (k : Int) : Prop := if t ≤ r.last k then r.first k ≤ t ∨ ¬ r.Wraps (k - 1) else ¬ r.Wraps (k + 1)

instance Settles.decidable (t : α) (k : Int) : Decidable (r.Settles t k) :=
  inferInstanceAs (Decidable (if t ≤ r.last k then r.first k ≤ t ∨ ¬ r.Wraps (k - 1) else ¬ r.Wraps (k + 1)))

structure Ordered : Prop where
  first : StrictMono r.first
  last : StrictMono r.last

/-- What a time of the period `k` knows about the other periods. The beginning
in the next one may have come already. -/
structure Around (t : α) (k : Int) : Prop where
  begun : ∀ {j}, j < k → r.first j ≤ t
  ended : ∀ {j}, j < k → r.last j < t
  later : ∀ {j}, k + 1 < j → t < r.first j
  lasting : ∀ {j}, k < j → t ≤ r.last j

variable {r} {t s : α} {j k : Int}

theorem finish_wraps (h : r.Wraps k) : r.finish k = r.last (k + 1) := if_pos h

theorem finish_within (h : ¬ r.Wraps k) : r.finish k = r.last k := if_neg h

theorem Around.contains_earlier (h : r.Around t k) (hj : j < k) (hc : r.Contains t j) : r.Wraps (k - 1) ∧ t ≤ r.last k := by
  obtain ⟨-, hle⟩ := hc
  by_cases hw : r.Wraps j
  · rw [finish_wraps hw] at hle
    by_cases hnext : j + 1 < k
    · exact absurd hle (not_le.mpr (h.ended hnext))
    · obtain rfl : k = j + 1 := by omega
      rw [Int.add_sub_cancel]
      exact ⟨hw, hle⟩
  · rw [finish_within hw] at hle
    exact absurd hle (not_le.mpr (h.ended hj))

theorem Around.contains_previous (h : r.Around t k) (hw : r.Wraps (k - 1)) (hle : t ≤ r.last k) : r.Contains t (k - 1) := by
  refine ⟨h.begun (by omega), ?_⟩
  rw [finish_wraps hw, Int.sub_add_cancel]
  exact hle

theorem found_current (ho : r.Ordered) (h : r.Around t k) (hle : t ≤ r.finish k) :
    r.Found t (r.first k, r.finish k) ↔ r.first k ≤ t ∨ ¬ (r.Wraps (k - 1) ∧ t ≤ r.last k) := by
  constructor
  · rintro ⟨i, hi, hfound⟩
    obtain rfl : k = i := ho.first.injective (congrArg Prod.fst hi)
    rcases hfound with hc | ⟨hnone, -, -⟩
    · exact .inl hc.1
    · refine .inr fun hprev => hnone (k - 1) ?_
      exact h.contains_previous hprev.1 hprev.2
  · intro hcond
    refine ⟨k, rfl, ?_⟩
    by_cases hbegun : r.first k ≤ t
    · exact .inl ⟨hbegun, hle⟩
    have hlt : t < r.first k := not_le.mp hbegun
    refine .inr ⟨fun j hc => ?_, hlt, fun j hj => ?_⟩
    · by_cases hj : j < k
      · exact hcond.resolve_left hbegun (h.contains_earlier hj hc)
      · exact absurd (hc.1.trans_lt hlt) (not_lt.mpr (ho.first.monotone (not_lt.mp hj)))
    · by_contra hlater
      have hjk : j < k := ho.first.lt_iff_lt.mp (not_le.mp hlater)
      exact absurd hj (not_lt.mpr (h.begun hjk))

theorem found_next (ho : r.Ordered) (h : r.Around t k) (hw : ¬ r.Wraps k) (hlt : r.last k < t) :
    r.Found t (r.first (k + 1), r.last (k + 1)) ↔ ¬ r.Wraps (k + 1) := by
  constructor
  · rintro ⟨i, hi, -⟩ hnext
    obtain rfl : k + 1 = i := ho.first.injective (congrArg Prod.fst hi)
    have hlast := congrArg Prod.snd hi
    simp only [finish_wraps hnext] at hlast
    have := ho.last.injective hlast
    omega
  · intro hnext
    refine ⟨k + 1, by rw [finish_within hnext], ?_⟩
    by_cases hbegun : r.first (k + 1) ≤ t
    · refine .inl ⟨hbegun, ?_⟩
      rw [finish_within hnext]
      exact h.lasting (by omega)
    have hfirst : r.first k ≤ t := (not_lt.mp hw).trans hlt.le
    refine .inr ⟨fun j hc => ?_, not_le.mp hbegun, fun j hj => ?_⟩
    · rcases lt_trichotomy j k with hj | rfl | hj
      · exact absurd (h.contains_earlier hj hc).2 (not_le.mpr hlt)
      · have hle := hc.2
        rw [finish_within hw] at hle
        exact absurd hle (not_le.mpr hlt)
      · exact hbegun ((ho.first.monotone (show k + 1 ≤ j by omega)).trans hc.1)
    · apply ho.first.monotone
      by_contra hjk
      have hle : r.first j ≤ r.first k := ho.first.monotone (by omega)
      exact absurd hj (not_lt.mpr (hle.trans hfirst))

theorem found_within (ho : r.Ordered) (h : r.Around t k) (hw : ¬ r.Wraps k) :
    r.Found t (if r.last k < t then (r.first (k + 1), r.last (k + 1)) else (r.first k, r.last k)) ↔ r.Settles t k := by
  unfold Settles
  by_cases hlt : r.last k < t
  · rw [if_pos hlt, if_neg (not_le.mpr hlt), found_next ho h hw hlt]
  · have hle := not_lt.mp hlt
    rw [if_neg hlt, if_pos hle]
    have hcurrent := found_current ho h ((finish_within hw).symm ▸ hle)
    rw [finish_within hw] at hcurrent
    rw [hcurrent]
    simp only [hle, and_true]

theorem found_previous (ho : r.Ordered) (h : r.Around t k) (hw : r.Wraps k) (hle : t ≤ r.last k) :
    r.Found t (s, r.last k) ↔ s = r.first (k - 1) ∧ r.Wraps (k - 1) := by
  constructor
  · rintro ⟨i, hi, -⟩
    have hlast := congrArg Prod.snd hi
    by_cases hwi : r.Wraps i
    · simp only [finish_wraps hwi] at hlast
      obtain rfl : k = i + 1 := ho.last.injective hlast
      rw [Int.add_sub_cancel]
      exact ⟨congrArg Prod.fst hi, hwi⟩
    · simp only [finish_within hwi] at hlast
      obtain rfl : k = i := ho.last.injective hlast
      exact absurd hw hwi
  · rintro ⟨rfl, hprev⟩
    refine ⟨k - 1, ?_, .inl (h.contains_previous hprev hle)⟩
    rw [finish_wraps hprev, Int.sub_add_cancel]

end Recurrence

end Alignak
