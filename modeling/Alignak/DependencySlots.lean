import Alignak.DependencyDefinitions

/-!
# The slots of a collection

An entry of the index is a slot that holds one item. What is added takes the
slot of its name, unless the item that it finds there has a lower definition
order, and what it takes the slot from is lost. A change of an item stays in the
slot, even when it changes the name.
-/

namespace Alignak

structure Slots (c : ItemCollection) : Prop where
  held : ∀ n x, c.nameToItem.get? n = some x → c.items.get? x.uuid = some x
  named : ∀ u x, c.items.get? u = some x → x.uuid = u ∧ u < c.nextUuid ∧ ∃ n, c.nameToItem.get? n = some x
  same : ∀ n n' x, c.nameToItem.get? n = some x → c.nameToItem.get? n' = some x → n = n'

section
variable {cls : ItemClass} {format : List Char → Int → Except Exn (List Char)} {c c' : ItemCollection} {x y : ConfigItem}
  {n n' : IndexName}

theorem Slots.fresh (h : Slots c) (hx : c.nameToItem.get? n = some x) : x.uuid < c.nextUuid := (h.named _ x (h.held n x hx)).2.1

theorem Slots.eq_of_uuid (h : Slots c) (hx : c.nameToItem.get? n = some x) (hy : c.nameToItem.get? n' = some y)
    (hu : x.uuid = y.uuid) : x = y := by
  have hitem := h.held n x hx
  rw [hu, h.held n' y hy] at hitem
  exact (Option.some.inj hitem).symm

theorem Slots.name_of_uuid (h : Slots c) (hx : c.nameToItem.get? n = some x) (hy : c.nameToItem.get? n' = some y)
    (hu : x.uuid = y.uuid) : n = n' := by
  rw [← h.eq_of_uuid hx hy hu] at hy
  exact h.same n n' x hx hy

theorem Slots.mem_values (h : Slots c) : x ∈ c.items.values ↔ ∃ n, c.nameToItem.get? n = some x := by
  rw [Dict.mem_values]
  constructor
  · rintro ⟨u, hu⟩
    exact (h.named u x hu).2.2
  · rintro ⟨n, hn⟩
    exact ⟨x.uuid, h.held n x hn⟩

theorem keys_eq (h : ∀ u x, c.items.get? u = some x → x.uuid = u) : c.items.keys = c.items.values.map ConfigItem.uuid := by
  unfold Dict.keys Dict.values
  rw [List.map_map]
  refine List.map_congr_left fun e he => ?_
  exact (h e.1 e.2 (Dict.get?_eq_some.mpr he)).symm

theorem values_nodup (h : ∀ u x, c.items.get? u = some x → x.uuid = u) : c.items.values.Nodup := by
  have hkeys : (c.items.values.map ConfigItem.uuid).Nodup := by
    rw [← keys_eq h]
    exact c.items.nodup
  exact hkeys.of_map ConfigItem.uuid

/-! ## Adding an item -/

theorem Slots.placed (h : Slots c) (hx : x.uuid = c.nextUuid) (hp : Placed cls c x c')
    (hnext : c'.nextUuid = max c.nextUuid (x.uuid + 1)) : Slots c' := by
  have hnames := hp.names
  have hitems := hp.items
  have hkept := keptOf_cases (c.nameToItem.get? (getName cls true x)) x
  generalize getName cls true x = m at hnames hitems hkept
  generalize hk : keptOf (c.nameToItem.get? m) x = kept at hnames hitems hkept
  -- no other slot holds what this one has now, or had before
  have hother : ∀ n y, n ≠ m → c.nameToItem.get? n = some y →
      y.uuid ≠ kept.uuid ∧ (c.nameToItem.get? m).map ConfigItem.uuid ≠ some y.uuid := by
    intro n y hn hy
    have hold : (c.nameToItem.get? m).map ConfigItem.uuid ≠ some y.uuid := by
      intro e
      obtain ⟨z, hz, hu⟩ := Option.map_eq_some_iff.mp e
      exact hn (h.name_of_uuid hy hz hu.symm)
    refine ⟨fun hu => ?_, hold⟩
    rcases hkept with e | e
    · have hlt := h.fresh hy
      rw [hu, e, hx] at hlt
      exact absurd hlt (Nat.lt_irrefl _)
    · rw [e] at hold
      exact hold (congrArg some hu.symm)
  have hlt : ∀ u, u = kept.uuid → u < c'.nextUuid := by
    rintro u rfl
    rw [hnext]
    rcases hkept with e | e
    · rw [e]
      omega
    · have hold := h.fresh e
      omega
  refine ⟨fun n y hy => ?_, fun u y hy => ?_, fun n n' y hy hy' => ?_⟩
  · rw [hnames] at hy
    rw [hitems]
    by_cases hn : n = m
    · rw [if_pos hn] at hy
      cases hy
      rw [if_pos rfl]
    · rw [if_neg hn] at hy
      rw [if_neg (hother n y hn hy).1, if_neg (hother n y hn hy).2]
      exact h.held n y hy
  · rw [hitems] at hy
    split at hy
    · rename_i hu
      cases hy
      exact ⟨hu.symm, hlt u hu, m, by rw [hnames, if_pos rfl]⟩
    · rename_i hu
      split at hy
      · cases hy
      · rename_i hold
        obtain ⟨hyu, hyn, n, hn⟩ := h.named u y hy
        refine ⟨hyu, by omega, n, ?_⟩
        rw [hnames, if_neg]
        · exact hn
        · rintro rfl
          rw [hn] at hold
          exact hold (congrArg some hyu)
  · rw [hnames] at hy hy'
    split at hy <;> split at hy'
    · rename_i e e'
      rw [e, e']
    · rename_i hn'
      cases hy
      exact absurd rfl (hother n' kept hn' hy').1
    · rename_i hn _
      cases hy'
      exact absurd rfl (hother n kept hn hy).1
    · exact h.same n n' y hy hy'

theorem addItem_plain (h : cloneNames format (getName cls true x) = .ok []) :
    addItem cls format x true c = place cls true x c := by
  unfold addItem definitions
  rw [h]
  cases hp : place cls true x c <;> simp [hp, bind, Except.bind, pure, Except.pure]

theorem Slots.add (h : Slots c) (hx : x.uuid = c.nextUuid) (hi : x.isATemplate = false)
    (hname : (getName cls true x).isEmpty = false) (hplain : cloneNames format (getName cls true x) = .ok [])
    (hr : ∀ y, c.nameToItem.get? (getName cls true x) = some y → x.order ≤ y.order →
      removedKey cls y = some (getName cls true x)) :
    ∃ c', addItem cls format x true c = .ok c' ∧ Slots c' ∧ c'.nextUuid = c.nextUuid + 1 ∧ ∀ n, c'.nameToItem.get? n =
      if n = getName cls true x then some (keptOf (c.nameToItem.get? (getName cls true x)) x) else c.nameToItem.get? n := by
  have hsafe : PlaceSafe cls c true x := by
    refine ⟨hi, fun y hy => ?_, .inl rfl, hname, fun y hy _ ho n hn hne => ?_⟩
    · have hlt := (h.named _ y hy).2.1
      omega
    · rw [hr y hy ho] at hn
      exact absurd (Option.some.inj hn).symm hne
  obtain ⟨c', hplace, hplaced, hnext⟩ := place_held (fun y hy => h.held _ y hy) hsafe
  refine ⟨c', (addItem_plain hplain).trans hplace, h.placed hx hplaced hnext, by omega, hplaced.names⟩

end

/-! ## Changing an item -/

namespace Dependencies

section
variable {cls : ItemClass} {c : ItemCollection} {x x' : ConfigItem} {n : IndexName}

theorem modifyItem_names (h : Slots c) (hx : c.nameToItem.get? n = some x) (m : IndexName) :
    (modifyItem x x' c).nameToItem.get? m = if m = n then some x' else c.nameToItem.get? m := by
  have hget : (modifyItem x x' c).nameToItem.get? m =
      (c.nameToItem.get? m).map fun y => if y.uuid = x.uuid then x' else y := Dict.get?_mapValues _
  rw [hget]
  by_cases hm : m = n
  · rw [if_pos hm, hm, hx]
    simp
  · rw [if_neg hm]
    cases hy : c.nameToItem.get? m with
    | none => rfl
    | some y =>
      have hu : y.uuid ≠ x.uuid := fun e => hm (h.name_of_uuid hy hx e)
      simp [hu]

theorem modifyItem_slots (h : Slots c) (hx : c.nameToItem.get? n = some x) (hu : x'.uuid = x.uuid) :
    Slots (modifyItem x x' c) := by
  have hnames := @modifyItem_names c x x' n h hx
  have hitems : ∀ u, (modifyItem x x' c).items.get? u = if u = x.uuid then some x' else c.items.get? u :=
    fun u => Dict.get?_set
  have hother : ∀ m y, m ≠ n → c.nameToItem.get? m = some y → y.uuid ≠ x.uuid :=
    fun m y hm hy e => hm (h.name_of_uuid hy hx e)
  refine ⟨fun m y hy => ?_, fun u y hy => ?_, fun m m' y hy hy' => ?_⟩
  · rw [hnames] at hy
    rw [hitems]
    by_cases hm : m = n
    · rw [if_pos hm] at hy
      cases hy
      rw [if_pos hu]
    · rw [if_neg hm] at hy
      rw [if_neg (hother m y hm hy)]
      exact h.held m y hy
  · rw [hitems] at hy
    split at hy
    · rename_i e
      cases hy
      exact ⟨hu.trans e.symm, e ▸ h.fresh hx, n, by rw [hnames, if_pos rfl]⟩
    · rename_i e
      obtain ⟨hyu, hlt, m, hm⟩ := h.named u y hy
      refine ⟨hyu, hlt, m, ?_⟩
      rw [hnames, if_neg]
      · exact hm
      · rintro rfl
        rw [hx] at hm
        cases hm
        exact e hyu.symm
  · rw [hnames] at hy hy'
    split at hy <;> split at hy'
    · rename_i e e'
      rw [e, e']
    · rename_i hm'
      cases hy
      exact absurd hu (hother m' x' hm' hy')
    · rename_i hm _
      cases hy'
      exact absurd hu (hother m x' hm hy)
    · exact h.same m m' y hy hy'

/-! ## Removing items -/

theorem delItem_items (id u : Nat) : (delItem cls c id).items.get? u = if u = id then none else c.items.get? u := by
  unfold delItem
  cases h : c.items.get? id with
  | none =>
    simp only
    split
    · rename_i e
      rw [e, h]
    · rfl
  | some x =>
    show (Dict.erase (unindexItem cls x c).items id).get? u = _
    rw [unindexItem_eq, Dict.get?_erase]

theorem foldl_delItem_items (ids : List Nat) (c : ItemCollection) (u : Nat) :
    (ids.foldl (delItem cls) c).items.get? u = if u ∈ ids then none else c.items.get? u := by
  induction ids generalizing c with
  | nil => simp
  | cons id ids ih =>
    rw [List.foldl_cons, ih, delItem_items]
    by_cases hu : u = id
    · simp [hu]
    · simp [hu]

end

end Dependencies

end Alignak
