import Mathlib.Data.List.Nodup
import Mathlib.Data.List.Lemmas
import Mathlib.Tactic.Common

/-!
# Insertion-ordered dictionaries

A dictionary keeps its entries in the order of insertion, one for each key.
Setting a present key keeps its place.
-/

namespace Alignak

structure Dict (κ ν : Type) [DecidableEq κ] where
  entries : List (κ × ν)
  nodup : (entries.map Prod.fst).Nodup

namespace Dict

variable {κ ν : Type} [DecidableEq κ] {d : Dict κ ν} {k k' : κ} {v v' : ν}

def empty : Dict κ ν := ⟨[], List.nodup_nil⟩

instance : Inhabited (Dict κ ν) := ⟨empty⟩

def keys (d : Dict κ ν) : List κ := d.entries.map Prod.fst

def values (d : Dict κ ν) : List ν := d.entries.map Prod.snd

def get? (d : Dict κ ν) (k : κ) : Option ν := d.entries.lookup k

def contains (d : Dict κ ν) (k : κ) : Bool := (d.get? k).isSome

def count (d : Dict κ ν) (p : ν → Bool) : Nat := d.values.countP p

/-! ## Entries -/

theorem lookup_of_mem : ∀ {l : List (κ × ν)}, (l.map Prod.fst).Nodup → (k, v) ∈ l → l.lookup k = some v
  | (k₁, v₁) :: l, hn, h => by
    rw [List.map_cons, List.nodup_cons] at hn
    rcases List.mem_cons.mp h with h | h
    · cases h; simp
    · have hne : k ≠ k₁ := fun e => hn.1 (List.mem_map.mpr ⟨(k, v), h, e⟩)
      rw [List.lookup_cons, beq_false_of_ne hne]
      exact lookup_of_mem hn.2 h

theorem mem_of_lookup : ∀ {l : List (κ × ν)}, l.lookup k = some v → (k, v) ∈ l
  | (k', v') :: l, h => by
    rw [List.lookup_cons] at h
    by_cases he : k = k'
    · subst he; simp at h; subst h; simp
    · rw [beq_false_of_ne he] at h
      exact List.mem_cons_of_mem _ (mem_of_lookup h)

theorem get?_eq_some : d.get? k = some v ↔ (k, v) ∈ d.entries := ⟨mem_of_lookup, lookup_of_mem d.nodup⟩

theorem get?_eq_none : d.get? k = none ↔ k ∉ d.keys := by
  constructor
  · intro h hk
    obtain ⟨⟨k₁, v₁⟩, he, rfl⟩ := List.mem_map.mp hk
    rw [get?_eq_some.mpr he] at h
    cases h
  · intro h
    cases hg : d.get? k with
    | none => rfl
    | some v => exact absurd (List.mem_map.mpr ⟨(k, v), get?_eq_some.mp hg, rfl⟩) h

theorem mem_values : v ∈ d.values ↔ ∃ k, d.get? k = some v := by
  simp only [values, List.mem_map, get?_eq_some]
  constructor
  · rintro ⟨⟨k, v'⟩, h, rfl⟩; exact ⟨k, h⟩
  · rintro ⟨k, h⟩; exact ⟨(k, v), h, rfl⟩

@[simp] theorem get?_empty : (empty : Dict κ ν).get? k = none := rfl
@[simp] theorem count_empty (p : ν → Bool) : (empty : Dict κ ν).count p = 0 := rfl

/-! ## Setting a key -/

def replaced (l : List (κ × ν)) (k : κ) (v : ν) : List (κ × ν) := l.map fun e => if e.1 = k then (k, v) else e

theorem replaced_keys (l : List (κ × ν)) (k : κ) (v : ν) : (replaced l k v).map Prod.fst = l.map Prod.fst := by
  unfold replaced
  rw [List.map_map]
  apply List.map_congr_left; intro e _
  by_cases he : e.1 = k
  · simp [he]
  · simp [he]

def set (d : Dict κ ν) (k : κ) (v : ν) : Dict κ ν :=
  if h : d.get? k = none then
    ⟨d.entries ++ [(k, v)], by
      rw [List.map_append]
      exact List.nodup_append.mpr ⟨d.nodup, by simp, fun a ha b hb => by
        simp only [List.map_cons, List.map_nil, List.mem_singleton] at hb
        subst hb
        exact fun e => get?_eq_none.mp h (e ▸ ha)⟩⟩
  else ⟨replaced d.entries k v, by rw [replaced_keys]; exact d.nodup⟩

theorem set_entries_new (h : d.get? k = none) : (d.set k v).entries = d.entries ++ [(k, v)] := by
  unfold set; rw [dif_pos h]

theorem set_entries_old (h : d.get? k ≠ none) : (d.set k v).entries = replaced d.entries k v := by
  unfold set; rw [dif_neg h]

theorem mem_replaced {l : List (κ × ν)} (hk : k ∈ l.map Prod.fst) :
    (k', v') ∈ replaced l k v ↔ if k' = k then v' = v else (k', v') ∈ l := by
  unfold replaced
  simp only [List.mem_map]
  by_cases h : k' = k
  · rw [if_pos h]
    constructor
    · rintro ⟨e, _, he⟩
      by_cases hek : e.1 = k
      · rw [if_pos hek] at he; cases he; rfl
      · rw [if_neg hek] at he; subst he; exact absurd h hek
    · rintro rfl
      obtain ⟨e, he, hek⟩ := List.mem_map.mp hk
      exact ⟨e, he, by rw [if_pos hek, h]⟩
  · rw [if_neg h]
    constructor
    · rintro ⟨e, hm, he⟩
      by_cases hek : e.1 = k
      · rw [if_pos hek] at he; cases he; exact absurd rfl h
      · rw [if_neg hek] at he; subst he; exact hm
    · intro hm
      exact ⟨(k', v'), hm, if_neg h⟩

theorem get?_set : (d.set k v).get? k' = if k' = k then some v else d.get? k' := by
  have key : ∀ v', (d.set k v).get? k' = some v' ↔ (if k' = k then some v else d.get? k') = some v' := by
    intro v'
    rw [get?_eq_some]
    by_cases hn : d.get? k = none
    · rw [set_entries_new hn, List.mem_append, ← get?_eq_some]
      by_cases h : k' = k
      · subst h; simp [hn, eq_comm]
      · simp [h]
    · have hk : k ∈ d.entries.map Prod.fst := by
        by_contra hk; exact hn (get?_eq_none.mpr hk)
      rw [set_entries_old hn, mem_replaced hk]
      by_cases h : k' = k
      · simp [h, eq_comm]
      · simp [h, get?_eq_some]
  exact Option.ext key

@[simp] theorem get?_set_self : (d.set k v).get? k = some v := by rw [get?_set, if_pos rfl]

theorem get?_set_ne (h : k' ≠ k) : (d.set k v).get? k' = d.get? k' := by rw [get?_set, if_neg h]

/-! ## Erasing a key -/

def erase (d : Dict κ ν) (k : κ) : Dict κ ν :=
  ⟨d.entries.filter fun e => !decide (e.1 = k), d.nodup.sublist ((List.filter_sublist).map Prod.fst)⟩

theorem get?_erase : (d.erase k).get? k' = if k' = k then none else d.get? k' := by
  have key : ∀ v', (d.erase k).get? k' = some v' ↔ (if k' = k then none else d.get? k') = some v' := by
    intro v'
    rw [get?_eq_some]
    simp only [erase, List.mem_filter]
    by_cases h : k' = k
    · simp [h]
    · simp [h, get?_eq_some]
  exact Option.ext key

@[simp] theorem get?_erase_self : (d.erase k).get? k = none := by rw [get?_erase, if_pos rfl]

theorem get?_erase_ne (h : k' ≠ k) : (d.erase k).get? k' = d.get? k' := by rw [get?_erase, if_neg h]

theorem mem_keys : k ∈ d.keys ↔ d.get? k ≠ none := by rw [ne_eq, get?_eq_none, not_not]

theorem mem_keys_set : k' ∈ (d.set k v).keys ↔ k' = k ∨ k' ∈ d.keys := by
  rw [mem_keys, mem_keys, get?_set]
  by_cases h : k' = k
  · simp [h]
  · simp [h]

theorem mem_keys_erase : k' ∈ (d.erase k).keys ↔ k' ∈ d.keys ∧ k' ≠ k := by
  rw [mem_keys, mem_keys, get?_erase]
  by_cases h : k' = k
  · simp [h]
  · simp [h]

theorem keys_set_new (h : d.get? k = none) : (d.set k v).keys = d.keys ++ [k] := by
  unfold keys
  rw [set_entries_new h, List.map_append]
  rfl

theorem keys_set_old (h : d.get? k ≠ none) : (d.set k v).keys = d.keys := by
  unfold keys
  rw [set_entries_old h, replaced_keys]

theorem keys_erase_sublist : (d.erase k).keys.Sublist d.keys := List.filter_sublist.map Prod.fst

/-! ## Counting values -/

section
variable (p : ν → Bool)

theorem count_set_new (h : d.get? k = none) : (d.set k v).count p = d.count p + if p v then 1 else 0 := by
  unfold count values
  rw [set_entries_new h, List.map_append, List.countP_append]
  simp [List.countP_cons]

theorem replaced_of_notMem {l : List (κ × ν)} (h : k ∉ l.map Prod.fst) : replaced l k v = l := by
  unfold replaced
  refine (List.map_congr_left fun e he => ?_).trans (List.map_id l)
  have hne : e.1 ≠ k := fun hk => h (List.mem_map.mpr ⟨e, he, hk⟩)
  rw [if_neg hne]; rfl

theorem countP_replaced : ∀ {l : List (κ × ν)}, (l.map Prod.fst).Nodup → (k, v') ∈ l →
    ((replaced l k v).map Prod.snd).countP p + (if p v' then 1 else 0) =
      (l.map Prod.snd).countP p + if p v then 1 else 0
  | (k₁, v₁) :: l, hn, h => by
    rw [List.map_cons, List.nodup_cons] at hn
    rcases List.mem_cons.mp h with h | h
    · cases h
      have hl : replaced ((k, v') :: l) k v = (k, v) :: l := by
        have := replaced_of_notMem (v := v) hn.1
        unfold replaced at this ⊢
        rw [List.map_cons, if_pos rfl, this]
      rw [hl]
      simp only [List.map_cons, List.countP_cons]
      omega
    · have hne : k₁ ≠ k := fun e => hn.1 (List.mem_map.mpr ⟨(k, v'), h, e.symm⟩)
      have hl : replaced ((k₁, v₁) :: l) k v = (k₁, v₁) :: replaced l k v := by
        unfold replaced
        rw [List.map_cons, if_neg hne]
      have ih := countP_replaced hn.2 h
      rw [hl]
      simp only [List.map_cons, List.countP_cons]
      omega

theorem count_set_old (h : d.get? k = some v') :
    (d.set k v).count p + (if p v' then 1 else 0) = d.count p + if p v then 1 else 0 := by
  unfold count values
  rw [set_entries_old (by simp [h])]
  exact countP_replaced p d.nodup (get?_eq_some.mp h)

theorem countP_filter_key : ∀ {l : List (κ × ν)}, (l.map Prod.fst).Nodup → (k, v) ∈ l →
    ((l.filter fun e => !decide (e.1 = k)).map Prod.snd).countP p + (if p v then 1 else 0) =
      (l.map Prod.snd).countP p
  | (k₁, v₁) :: l, hn, h => by
    rw [List.map_cons, List.nodup_cons] at hn
    rcases List.mem_cons.mp h with h | h
    · cases h
      have hl : (l.filter fun e => !decide (e.1 = k)) = l := List.filter_eq_self.mpr fun e he => by
        have hne : e.1 ≠ k := fun hk => hn.1 (List.mem_map.mpr ⟨e, he, hk⟩)
        simp [hne]
      rw [List.filter_cons, if_neg (by simp), hl]
      simp only [List.map_cons, List.countP_cons]
    · have hne : k₁ ≠ k := fun e => hn.1 (List.mem_map.mpr ⟨(k, v), h, e.symm⟩)
      have ih := countP_filter_key hn.2 h
      rw [List.filter_cons, if_pos (by simp [hne])]
      simp only [List.map_cons, List.countP_cons]
      omega

theorem count_erase (h : d.get? k = some v) : (d.erase k).count p + (if p v then 1 else 0) = d.count p := by
  unfold count values erase
  exact countP_filter_key p d.nodup (get?_eq_some.mp h)

end

/-! ## Mapping the values -/

section
variable {ν' : Type} (f : κ → ν → ν')

def mapValues (d : Dict κ ν) : Dict κ ν' :=
  ⟨d.entries.map fun e => (e.1, f e.1 e.2), by rw [List.map_map]; exact d.nodup⟩

theorem lookup_map (l : List (κ × ν)) (k : κ) :
    (l.map fun e => (e.1, f e.1 e.2)).lookup k = (l.lookup k).map (f k) := by
  induction l with
  | nil => rfl
  | cons e l ih =>
    rw [List.map_cons, List.lookup_cons, List.lookup_cons]
    by_cases h : k = e.1
    · subst h
      simp
    · rw [beq_false_of_ne h]
      exact ih

theorem get?_mapValues : (d.mapValues f).get? k = (d.get? k).map (f k) := lookup_map f d.entries k

theorem get?_foldl_set {l : List (κ × ν)} (hn : (l.map Prod.fst).Nodup) (d : Dict κ ν') :
    (l.foldl (fun d e => d.set e.1 (f e.1 e.2)) d).get? k = ((l.lookup k).map (f k)).or (d.get? k) := by
  induction l generalizing d with
  | nil => rfl
  | cons e l ih =>
    rw [List.map_cons, List.nodup_cons] at hn
    rw [List.foldl_cons, ih hn.2, List.lookup_cons]
    by_cases h : k = e.1
    · subst h
      have hl : l.lookup e.1 = none := by
        by_contra hne
        obtain ⟨v, hv⟩ := Option.ne_none_iff_exists'.mp hne
        exact hn.1 (List.mem_map.mpr ⟨(e.1, v), mem_of_lookup hv, rfl⟩)
      rw [hl, get?_set_self]
      simp
    · rw [beq_false_of_ne h, get?_set_ne h]

end

theorem entries_nodup (d : Dict κ ν) : d.entries.Nodup := List.Nodup.of_map Prod.fst d.nodup

theorem count_congr {d d' : Dict κ ν} (h : ∀ k, d.get? k = d'.get? k) (p : ν → Bool) : d.count p = d'.count p := by
  have hperm : d.entries.Perm d'.entries := by
    apply (List.perm_ext_iff_of_nodup d.entries_nodup d'.entries_nodup).mpr
    intro ⟨k, v⟩
    rw [← get?_eq_some, ← get?_eq_some, h]
  exact (hperm.map Prod.snd).countP_eq p

theorem count_mapValues {ν' : Type} {f : κ → ν → ν'} {p : ν' → Bool} {q : ν → Bool}
    (h : ∀ k v, d.get? k = some v → p (f k v) = q v) : (d.mapValues f).count p = d.count q := by
  unfold count values mapValues
  rw [List.map_map, List.countP_map, List.countP_map]
  apply List.countP_congr
  intro e he
  simp [h e.1 e.2 (get?_eq_some.mpr he)]

end Dict

end Alignak
