import Alignak.TimeperiodInvalid

/-!
# What the merge of periods loses

The merge goes through the periods in the order of their starts and takes the
end of the last one that goes on, where it would have to take the greatest.
-/

namespace Alignak

namespace Timeperiod

structure Period where
  start : Int
  stop : Int
  le : start ≤ stop

namespace Period

def bounds (p : Period) : Int × Int := (p.start, p.stop)

def Has (p : Period) (x : Int) : Prop := p.start ≤ x ∧ x < p.stop

theorem bounds_injective : Function.Injective bounds := by
  rintro ⟨s, e, h⟩ ⟨s', e', h'⟩ heq
  cases heq
  rfl

end Period

structure IsMerge (data periods : List Period) : Prop where
  sorted : periods.Pairwise fun p q => p.start ≤ q.start
  disjoint : periods.Pairwise fun p q => ∀ x, ¬ (p.Has x ∧ q.Has x)
  union : ∀ x, (∃ p ∈ periods, p.Has x) ↔ ∃ p ∈ data, p.Has x
  empty : data = [] → periods = []

def Merges (data : List Period) (result : List (Option Int × Option Int)) : Prop :=
  ∃ periods : List Period, result = periods.map (fun p => (some p.start, some p.stop)) ∧ IsMerge data periods

section
variable {data periods : List Period} {p q : Period}

theorem mem_instants_bounds {x : Int} : x ∈ instants (data.map Period.bounds) ↔ ∃ p ∈ data, p.Has x := by
  unfold instants
  simp [Period.bounds, Period.Has]

theorem bounds_valid : ∀ x ∈ data.map Period.bounds, x.1 ≤ x.2 := by
  intro x hx
  obtain ⟨p, _, rfl⟩ := List.mem_map.mp hx
  exact p.le

theorem exists_periods {l : List (Int × Int)} (h : ∀ x ∈ l, x.1 ≤ x.2) : ∃ periods : List Period, periods.map Period.bounds = l := by
  induction l with
  | nil => exact ⟨[], rfl⟩
  | cons x l ih =>
    obtain ⟨periods, rfl⟩ := ih fun y hy => h y (List.mem_cons_of_mem _ hy)
    exact ⟨⟨x.1, x.2, h x List.mem_cons_self⟩ :: periods, rfl⟩

end

/-! ## The merge as chains -/

theorem mergeStep_chains : ∀ {l : List (Int × Int)} {is : List (Option Int × Option Int)} {s e : Int},
    (l.foldl mergeStep ⟨is, some s, some e⟩).result = is ++ (chains s e l).map fun x => (some x.1, some x.2)
  | [], is, s, e => rfl
  | p :: l, is, s, e => by
    rw [List.foldl_cons, mergeStep, chains]
    simp only [ge_iff_le]
    split
    · exact mergeStep_chains
    · rw [mergeStep_chains, List.map_cons, List.append_assoc]
      rfl

theorem mergePeriods_cons {data l : List (Int × Int)} {p : Int × Int} (h : sortByStart data = p :: l) :
    mergePeriods data = (chains p.1 p.2 l).map fun x => (some x.1, some x.2) := by
  rw [mergePeriods_eq, h]
  exact mergeStep_chains

section
variable {data : List Period} {p : Int × Int} {l : List (Int × Int)} (h : sortByStart (data.map Period.bounds) = p :: l)
include h

theorem sorted_of_sort : (p :: l).Pairwise fun a b => a.1 ≤ b.1 := h ▸ sortByStart_sorted _

theorem mem_of_sort {x : Int × Int} : x ∈ p :: l ↔ x ∈ data.map Period.bounds := by
  rw [← h, mem_sortByStart]

theorem valid_of_sort : ∀ x ∈ p :: l, x.1 ≤ x.2 := fun x hx => bounds_valid x ((mem_of_sort h).mp hx)

theorem instants_of_sort : instants (p :: l) = instants (data.map Period.bounds) := by
  unfold instants
  simp only [mem_of_sort h]

end

/-! ## When nothing is lost -/

/-- No period goes on where this one ends: it is the last given of those with its
start, and none starts behind it before its end, or at it. -/
def EndsChain (data : List Period) (q : Period) : Prop :=
  (data.filter fun p => p.start = q.start).getLast? = some q ∧ ∀ p ∈ data, q.start < p.start → q.stop < p.start

theorem endsChain_iff {data : List Period} {q : Period} :
    Gap (sortByStart (data.map Period.bounds)) q.bounds ↔ EndsChain data q := by
  have hfilter : (data.map Period.bounds).filter (fun x => x.1 = q.bounds.1) =
      (data.filter fun p => p.start = q.start).map Period.bounds := by
    rw [List.filter_map]
    rfl
  rw [gap_sortByStart_iff q.le, hfilter, List.getLast?_map]
  unfold EndsChain
  refine and_congr ⟨fun h => ?_, fun h => ?_⟩ ?_
  · obtain ⟨p, hp, heq⟩ := Option.map_eq_some_iff.mp h
    rw [hp, Period.bounds_injective heq]
  · rw [h]
    rfl
  · simp [Period.bounds]

theorem both_bounds (periods : List Period) : periods.map (fun p => (some p.start, some p.stop)) =
    (periods.map Period.bounds).map fun x => (some x.1, some x.2) := by
  rw [List.map_map]
  rfl

theorem both_injective : Function.Injective fun x : Int × Int => (some x.1, some x.2) := by
  rintro ⟨s, e⟩ ⟨s', e'⟩ heq
  simpa using heq

theorem isMerge_iff {data periods : List Period} (hne : data ≠ [])
    (h : (periods.map Period.bounds).Pairwise fun a b => a.2 < b.1) :
    IsMerge data periods ↔ instants (periods.map Period.bounds) = instants (data.map Period.bounds) := by
  rw [List.pairwise_map] at h
  constructor
  · intro hm
    ext x
    rw [mem_instants_bounds, mem_instants_bounds]
    exact hm.union x
  · intro heq
    refine ⟨h.imp fun {p q} hpq => ?_, h.imp fun {p q} hpq x hx => ?_, fun x => ?_, fun hnil => absurd hnil hne⟩
    · exact p.le.trans (le_of_lt hpq)
    · exact absurd (hx.1.2.trans hpq) (not_lt.mpr hx.2.1)
    · rw [← mem_instants_bounds, ← mem_instants_bounds, heq]

/-- `merge_periods` gives the merge of some periods exactly when each that ends a
chain ends no earlier than those that start no later. -/
theorem merge_keeps_iff (data : List Period) : Merges data (mergePeriods (data.map Period.bounds)) ↔
    data ≠ [] ∧ ∀ q ∈ data, EndsChain data q → ∀ p ∈ data, p.start ≤ q.start → p.stop ≤ q.stop := by
  cases hs : sortByStart (data.map Period.bounds) with
  | nil =>
    have hnil : data = [] := by
      rw [List.eq_nil_iff_forall_not_mem]
      intro p hp
      have hmem := mem_sortByStart.mpr (List.mem_map_of_mem (f := Period.bounds) hp)
      rw [hs] at hmem
      exact List.not_mem_nil hmem
    subst hnil
    constructor
    · rintro ⟨periods, hresult, _⟩
      rw [List.map_nil, mergePeriods_nil] at hresult
      cases periods with
      | nil => cases hresult
      | cons p periods => simp at hresult
    · exact fun h => absurd rfl h.1
  | cons p l =>
    have hne : data ≠ [] := by
      rintro rfl
      cases hs
    have hsorted := sorted_of_sort hs
    have hvalid := valid_of_sort hs
    have hsplit := List.pairwise_cons.mp hsorted
    have hrest : ∀ q ∈ l, p.1 ≤ q.1 ∧ q.1 ≤ q.2 := fun q hq => ⟨hsplit.1 q hq, hvalid q (List.mem_cons_of_mem _ hq)⟩
    obtain ⟨periods, hperiods⟩ := exists_periods (chains_valid (hvalid p List.mem_cons_self) hrest hsplit.2)
    have hmerge := isMerge_iff hne (hperiods ▸ chains_apart hsplit.2)
    rw [hperiods, ← instants_of_sort hs, instants_chains_eq_iff hsorted hvalid] at hmerge
    have hresult : Merges data (mergePeriods (data.map Period.bounds)) ↔ IsMerge data periods := by
      rw [mergePeriods_cons hs, ← hperiods, ← both_bounds]
      constructor
      · rintro ⟨periods', heq, hm⟩
        rw [both_bounds, both_bounds] at heq
        have hinj := Period.bounds_injective.list_map (both_injective.list_map heq)
        rwa [hinj]
      · exact fun hm => ⟨periods, rfl, hm⟩
    rw [hresult, hmerge, and_iff_right hne]
    constructor
    · intro h q hq hends r hr hrq
      exact h q.bounds (hs ▸ endsChain_iff.mpr hends) r.bounds ((mem_of_sort hs).mpr (List.mem_map_of_mem hr)) hrq
    · intro h x hgap r hr hrx
      have hx : x ∈ p :: l := by
        obtain ⟨pre, post, e, _⟩ := hgap
        rw [e]
        exact List.mem_append_right _ List.mem_cons_self
      obtain ⟨q, hq, rfl⟩ := List.mem_map.mp ((mem_of_sort hs).mp hx)
      obtain ⟨r', hr', rfl⟩ := List.mem_map.mp ((mem_of_sort hs).mp hr)
      exact h q hq (endsChain_iff.mp (hs ▸ hgap)) r' hr' hrx

/-! ## A period within another -/

theorem hour_le : (0 : Int) ≤ 3600 := by decide

theorem quarter_le : (900 : Int) ≤ 1800 := by decide

def hour : Period := ⟨0, 3600, hour_le⟩

def quarter : Period := ⟨900, 1800, quarter_le⟩

/-- The hour ends with the quarter. -/
theorem hour_cut : mergePeriods ([hour, quarter].map Period.bounds) = [(some 0, some 1800)] ∧
    ¬ Merges [hour, quarter] (mergePeriods ([hour, quarter].map Period.bounds)) := by
  have hresult : mergePeriods ([hour, quarter].map Period.bounds) = [(some 0, some 1800)] := by decide
  refine ⟨hresult, ?_⟩
  rintro ⟨periods, heq, hm⟩
  obtain ⟨p, hp, _, hstop⟩ := (hm.union 2700).mpr ⟨hour, List.mem_cons_self, by decide, by decide⟩
  have hmem : (some p.start, some p.stop) ∈ [(some (0 : Int), some (1800 : Int))] := by
    rw [← hresult, heq]
    exact List.mem_map_of_mem hp
  simp only [List.mem_singleton, Prod.mk.injEq, Option.some.injEq] at hmem
  omega

end Timeperiod

end Alignak
