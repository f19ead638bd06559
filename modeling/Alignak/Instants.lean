import Mathlib.Data.List.Sort
import Mathlib.Order.Bounds.Basic
import Mathlib.Order.Lattice

/-!
# The next instant that satisfies a property

`NextFrom p t o` says that `o` is the first instant from `t` on that satisfies
`p`, or that there is none.
-/

namespace Alignak

section
variable {α : Type*} [LinearOrder α] {p q : α → Prop} {s t r u : α}

/-- The answer of an exact search for `p` from `t`. -/
def NextFrom (p : α → Prop) (t : α) : Option α → Prop
  | some r => IsLeast {u | t ≤ u ∧ p u} r
  | none => ∀ u, t ≤ u → ¬ p u

theorem NextFrom.le (h : NextFrom p t (some r)) : t ≤ r := h.1.1

theorem NextFrom.sat (h : NextFrom p t (some r)) : p r := h.1.2

theorem NextFrom.not_before (h : NextFrom p t (some r)) (ht : t ≤ u) (hu : u < r) : ¬ p u :=
  fun hp => absurd (h.2 ⟨ht, hp⟩) (not_le.mpr hu)

theorem NextFrom.self (h : p t) : NextFrom p t (some t) := ⟨⟨le_refl t, h⟩, fun _ hu => hu.1⟩

theorem NextFrom.unique {o o' : Option α} (h : NextFrom p t o) (h' : NextFrom p t o') : o = o' := by
  cases o with
  | none =>
    cases o' with
    | none => rfl
    | some r => exact absurd h'.sat (h r h'.le)
  | some r =>
    cases o' with
    | none => exact absurd h.sat (h' r h.le)
    | some r' => exact congrArg some (IsLeast.unique h h')

theorem NextFrom.later (h : NextFrom p t (some r)) (hts : t ≤ s) (hsr : s ≤ r) : NextFrom p s (some r) :=
  ⟨⟨hsr, h.sat⟩, fun _ hu => h.2 ⟨hts.trans hu.1, hu.2⟩⟩

theorem NextFrom.none_later (h : NextFrom p t none) (hts : t ≤ s) : NextFrom p s none :=
  fun u hu => h u (hts.trans hu)

theorem NextFrom.isSome_of_sat {o : Option α} (h : NextFrom p t o) (ht : t ≤ u) (hu : p u) :
    ∃ r, o = some r ∧ r ≤ u := by
  cases o with
  | none => exact absurd hu (h u ht)
  | some r => exact ⟨r, rfl, h.2 ⟨ht, hu⟩⟩

/-- Nothing between `t` and `s` satisfies `p`. -/
def NoneIn (p : α → Prop) (t s : α) : Prop := ∀ u, t ≤ u → u < s → ¬ p u

theorem NoneIn.refl (p : α → Prop) (t : α) : NoneIn p t t := fun _ h h' => absurd (h.trans_lt h') (lt_irrefl _)

theorem NoneIn.trans (h : NoneIn p t s) (h' : NoneIn p s r) : NoneIn p t r := fun u ht hr => by
  rcases lt_or_ge u s with hs | hs
  · exact h u ht hs
  · exact h' u hs hr

theorem NoneIn.mono (h : NoneIn p t s) (hpq : ∀ u, q u → p u) : NoneIn q t s :=
  fun u ht hs hq => h u ht hs (hpq u hq)

end

/-! ## Sorted candidates -/

section
variable {α : Type*} [LinearOrder α]

theorem sorted_head_le {l : List α} {a : α} {as : List α} (h : l.insertionSort (· ≤ ·) = a :: as) :
    ∀ b ∈ l, a ≤ b := by
  intro b hb
  have hs : (a :: as).Pairwise (· ≤ ·) := h ▸ List.pairwise_insertionSort (· ≤ ·) l
  have hm : b ∈ a :: as := h ▸ (List.mem_insertionSort (· ≤ ·)).mpr hb
  cases hm with
  | head => exact le_refl _
  | tail _ hm => exact (List.pairwise_cons.mp hs).1 b hm

theorem sorted_head_mem {l : List α} {a : α} {as : List α} (h : l.insertionSort (· ≤ ·) = a :: as) : a ∈ l :=
  (List.mem_insertionSort (· ≤ ·)).mp (h ▸ List.mem_cons_self)

theorem find?_sorted_least {l : List α} (f : α → Bool) {m : α}
    (h : (l.insertionSort (· ≤ ·)).find? f = some m) : m ∈ l ∧ f m = true ∧ ∀ b ∈ l, f b = true → m ≤ b := by
  obtain ⟨hf, as, bs, hl, has⟩ := List.find?_eq_some_iff_append.mp h
  have hs : (as ++ m :: bs).Pairwise (· ≤ ·) := hl ▸ List.pairwise_insertionSort (· ≤ ·) l
  refine ⟨(List.mem_insertionSort (· ≤ ·)).mp (by rw [hl]; simp), hf, fun b hb hfb => ?_⟩
  have hm : b ∈ as ++ m :: bs := hl ▸ (List.mem_insertionSort (· ≤ ·)).mpr hb
  rcases List.mem_append.mp hm with hm | hm
  · have := has b hm
    simp [hfb] at this
  · cases hm with
    | head => exact le_refl _
    | tail _ hm => exact (List.pairwise_cons.mp (List.pairwise_append.mp hs).2.1).1 b hm

theorem find?_sorted_none {l : List α} (f : α → Bool) (h : (l.insertionSort (· ≤ ·)).find? f = none) :
    ∀ b ∈ l, f b = false := by
  intro b hb
  have := List.find?_eq_none.mp h b ((List.mem_insertionSort (· ≤ ·)).mpr hb)
  simpa using this

end

end Alignak
