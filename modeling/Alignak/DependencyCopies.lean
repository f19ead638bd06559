import Alignak.DependencySlots

/-!
# The copies of the definitions

Both kinds of dependencies are expanded in one way: in the order in which the
collection has them, each definition is prepared, and its copies are added.
-/

namespace Alignak.Dependencies

structure Expansion where
  cls : ItemClass
  format : List Char → Int → Except Exn (List Char)
  prepared : ConfigItem → ConfigItem
  prepare : ConfigItem → ItemCollection → ItemCollection
  copies : ConfigItem → List ConfigItem
  errors : ConfigItem → List (List Char)
  itemErrors : ConfigItem → List (Nat × List Char)
  gone : ConfigItem → List Nat
  turn : Exploding → ConfigItem → Except Exn Exploding

section
variable (e : Expansion) (c₀ : ItemCollection)

def Expansion.addCopies (rs : List ConfigItem) (c : ItemCollection) : Except Exn ItemCollection :=
  rs.foldlM (fun c r => addItem e.cls e.format { r with uuid := c.nextUuid } true c) c

structure Expansion.Prepares (x : ConfigItem) : Prop where
  uuid : (e.prepared x).uuid = x.uuid
  order : (e.prepared x).order = x.order
  slots : ∀ c n, Slots c → c.nameToItem.get? n = some x → Slots (e.prepare x c)
  next : ∀ c, (e.prepare x c).nextUuid = c.nextUuid
  names : ∀ c n, Slots c → c.nameToItem.get? n = some x → ∀ m, (e.prepare x c).nameToItem.get? m =
    if m = n then some (e.prepared x) else c.nameToItem.get? m

def Expansion.Turns (x : ConfigItem) : Prop := ∀ s c, e.addCopies (e.copies x) (e.prepare x s.collection) = .ok c →
  e.turn s x = .ok ⟨c, s.errors ++ e.errors x, s.itemErrors ++ e.itemErrors x, s.toBeRemoved ++ e.gone x⟩

def Expansion.CopyOf (definitions : List ConfigItem) (y : ConfigItem) : Prop :=
  ∃ x ∈ definitions, ∃ r ∈ e.copies x, y = { r with uuid := y.uuid }

structure Expansion.Copyable (r : ConfigItem) : Prop where
  item : r.isATemplate = false
  named : (getName e.cls true r).isEmpty = false
  removed : removedKey e.cls r = some (getName e.cls true r)
  plain : cloneNames e.format (getName e.cls true r) = .ok []

structure Expansion.Apart : Prop where
  prepares : ∀ x ∈ c₀.items.values, e.Prepares x
  turns : ∀ x ∈ c₀.items.values, e.Turns x
  gone : ∀ x ∈ c₀.items.values, ∀ u ∈ e.gone x, u = x.uuid
  copyable : ∀ x ∈ c₀.items.values, ∀ r ∈ e.copies x, e.Copyable r
  taken : ∀ done x rest, c₀.items.values = done ++ x :: rest → ∀ r ∈ e.copies x, ∀ y,
    c₀.nameToItem.get? (getName e.cls true r) = some y →
      removedKey e.cls (e.prepared y) = some (getName e.cls true r) ∧ (y ∈ rest → y.order < r.order)
  better : ∀ x ∈ c₀.items.values, ∀ r ∈ e.copies x, ∀ y, c₀.nameToItem.get? (getName e.cls true r) = some y →
    ∃ x' ∈ c₀.items.values, ∃ r' ∈ e.copies x', getName e.cls true r' = getName e.cls true r ∧ r'.order ≤ y.order

/-- The definitions before `rest` have had their turn, and the copies `placed`
are added. -/
structure Expansion.Progress (done rest placed : List ConfigItem) (c : ItemCollection) : Prop where
  slots : Slots c
  next : c₀.nextUuid ≤ c.nextUuid
  holds : ∀ n y, c.nameToItem.get? n = some y →
    (e.CopyOf done y ∧ c₀.nextUuid ≤ y.uuid ∧ getName e.cls true y = n) ∨
      ∃ x, c₀.nameToItem.get? n = some x ∧ (x ∈ rest ∧ y = x ∨ x ∈ done ∧ y = e.prepared x)
  waiting : ∀ n x, c₀.nameToItem.get? n = some x → x ∈ rest → c.nameToItem.get? n = some x
  found : ∀ r ∈ placed, ∃ y, c.nameToItem.get? (getName e.cls true r) = some y ∧
    (c₀.nextUuid ≤ y.uuid ∨ ∃ x, c₀.nameToItem.get? (getName e.cls true r) = some x ∧ x.order < r.order)
  kept : ∀ n x, c₀.nameToItem.get? n = some x → x ∈ done → (∀ r ∈ placed, getName e.cls true r ≠ n) →
    c.nameToItem.get? n = some (e.prepared x)

structure Expansion.After (done rest : List ConfigItem) (s : Exploding) : Prop where
  progress : e.Progress c₀ done rest (done.flatMap e.copies) s.collection
  errors : s.errors = done.flatMap e.errors
  itemErrors : s.itemErrors = done.flatMap e.itemErrors
  toBeRemoved : s.toBeRemoved = done.flatMap e.gone

end

namespace Expansion

theorem keptOf_spec (kept : Option ConfigItem) (x : ConfigItem) :
    keptOf kept x = x ∨ kept = some (keptOf kept x) ∧ (keptOf kept x).order < x.order := by
  cases kept with
  | none => exact .inl rfl
  | some y =>
    by_cases ho : y.order < x.order
    · simp [keptOf, ho]
    · simp [keptOf, ho]

section
variable {e : Expansion} {c₀ c c' : ItemCollection} {done rest placed rs : List ConfigItem} {x y r : ConfigItem} {n : IndexName}

theorem CopyOf.mono {done' : List ConfigItem} (h : e.CopyOf done y) (hs : ∀ x ∈ done, x ∈ done') : e.CopyOf done' y := by
  obtain ⟨x, hx, r, hr, e⟩ := h
  exact ⟨x, hs x hx, r, hr, e⟩

theorem progress_start (h0 : Slots c₀) : e.Progress c₀ [] c₀.items.values [] c₀ where
  slots := h0
  next := Nat.le_refl _
  holds n y hy := .inr ⟨y, hy, .inl ⟨h0.mem_values.mpr ⟨n, hy⟩, rfl⟩⟩
  waiting _ _ hx _ := hx
  found _ hr := absurd hr List.not_mem_nil
  kept _ _ _ hx := absurd hx List.not_mem_nil

theorem Progress.prepare (h : e.Progress c₀ done (x :: rest) placed c) (h0 : Slots c₀)
    (hn : c₀.nameToItem.get? n = some x) (hx : x ∉ rest) (hp : e.Prepares x) :
    e.Progress c₀ (done ++ [x]) rest placed (e.prepare x c) := by
  have hc := h.waiting n x hn List.mem_cons_self
  have hnames := hp.names c n h.slots hc
  have hdone : ∀ z ∈ done, z ∈ done ++ [x] := fun z hz => List.mem_append_left _ hz
  have hself : x ∈ done ++ [x] := List.mem_append_right _ List.mem_cons_self
  refine ⟨hp.slots c n h.slots hc, by rw [hp.next]; exact h.next, fun m y hy => ?_, fun m z hz hzr => ?_, fun r hr => ?_, fun m z hz hzd hr => ?_⟩
  · rw [hnames] at hy
    by_cases hm : m = n
    · rw [if_pos hm] at hy
      cases hy
      exact .inr ⟨x, hm ▸ hn, .inr ⟨hself, rfl⟩⟩
    · rw [if_neg hm] at hy
      rcases h.holds m y hy with ⟨hc, hu, hym⟩ | ⟨z, hz, ⟨hzr, e⟩ | ⟨hzd, e⟩⟩
      · exact .inl ⟨hc.mono hdone, hu, hym⟩
      · refine .inr ⟨z, hz, .inl ⟨(List.mem_cons.mp hzr).resolve_left fun ez => hm ?_, e⟩⟩
        rw [ez] at hz
        exact h0.same m n x hz hn
      · exact .inr ⟨z, hz, .inr ⟨hdone z hzd, e⟩⟩
  · rw [hnames, if_neg]
    · exact h.waiting m z hz (List.mem_cons_of_mem _ hzr)
    · rintro rfl
      rw [hn] at hz
      cases hz
      exact hx hzr
  · obtain ⟨y, hy, hyc⟩ := h.found r hr
    rw [hnames]
    by_cases hm : getName e.cls true r = n
    · rw [hm] at hy hyc ⊢
      rw [h.waiting n x hn List.mem_cons_self] at hy
      cases hy
      refine ⟨e.prepared x, if_pos rfl, .inr (hyc.resolve_left fun hle => ?_)⟩
      exact absurd (h0.fresh hn) (Nat.not_lt.mpr hle)
    · rw [if_neg hm]
      exact ⟨y, hy, hyc⟩
  · rw [hnames]
    by_cases hm : m = n
    · subst hm
      rw [hn] at hz
      cases hz
      exact if_pos rfl
    · rw [if_neg hm]
      refine h.kept m z hz ((List.mem_append.mp hzd).resolve_right fun e => hm ?_) hr
      rw [List.mem_singleton.mp e] at hz
      exact h0.same m n x hz hn

theorem CopyOf.removedKey (h : e.CopyOf done y) (hcopy : ∀ x ∈ done, ∀ r ∈ e.copies x, e.Copyable r) :
    removedKey e.cls y = some (getName e.cls true y) := by
  obtain ⟨x, hx, r, hr, e⟩ := h
  rw [e]
  exact (hcopy x hx r hr).removed

theorem Progress.add (h : e.Progress c₀ done rest placed c) (hp : ∀ z ∈ done, (e.prepared z).order = z.order)
    (hcopy : ∀ x ∈ done, ∀ r ∈ e.copies x, e.Copyable r) (hx : x ∈ done) (hr : r ∈ e.copies x)
    (htaken : ∀ y, c₀.nameToItem.get? (getName e.cls true r) = some y →
      removedKey e.cls (e.prepared y) = some (getName e.cls true r) ∧ (y ∈ rest → y.order < r.order)) :
    ∃ c', addItem e.cls e.format { r with uuid := c.nextUuid } true c = .ok c' ∧
      e.Progress c₀ done rest (placed ++ [r]) c' := by
  have hself := hcopy x hx r hr
  -- what the copy may put out has its own name, also when it was changed
  have hslot : ∀ y, c.nameToItem.get? (getName e.cls true r) = some y → r.order ≤ y.order →
      removedKey e.cls y = some (getName e.cls true r) := by
    intro y hy ho
    rcases h.holds _ y hy with ⟨hc, -, hyn⟩ | ⟨z, hz, ⟨hzr, e⟩ | ⟨-, e⟩⟩
    · rw [← hyn]
      exact hc.removedKey hcopy
    · have hlt := (htaken z hz).2 hzr
      rw [e] at ho
      omega
    · rw [e]
      exact (htaken z hz).1
  obtain ⟨c', hadd, hslots, hnext, hnames⟩ := h.slots.add (x := { r with uuid := c.nextUuid }) rfl hself.item
    hself.named hself.plain hslot
  have hspec := keptOf_spec (c.nameToItem.get? (getName e.cls true r)) { r with uuid := c.nextUuid }
  have hwaits : ∀ z, c.nameToItem.get? (getName e.cls true r) = some z → z.order < r.order →
      keptOf (c.nameToItem.get? (getName e.cls true r)) { r with uuid := c.nextUuid } = z := by
    intro z hz ho
    rw [hz]
    exact if_pos ho
  change ∀ m, c'.nameToItem.get? m = if m = getName e.cls true r then
    some (keptOf (c.nameToItem.get? (getName e.cls true r)) { r with uuid := c.nextUuid }) else c.nameToItem.get? m at hnames
  generalize keptOf (c.nameToItem.get? (getName e.cls true r)) { r with uuid := c.nextUuid } = kept at hspec hwaits hnames
  have hle : c₀.nextUuid ≤ ({ r with uuid := c.nextUuid } : ConfigItem).uuid := h.next
  refine ⟨c', hadd, hslots, by have hnext0 := h.next; omega, fun m y hy => ?_, fun m z hz hzr => ?_, fun r' hr' => ?_,
    fun m z hz hzd hfree => ?_⟩
  · rw [hnames] at hy
    by_cases hm : m = getName e.cls true r
    · rw [if_pos hm] at hy
      cases hy
      rcases hspec with e | ⟨e, -⟩
      · rw [e, hm]
        exact .inl ⟨⟨x, hx, r, hr, rfl⟩, hle, rfl⟩
      · rw [hm]
        exact h.holds _ kept e
    · rw [if_neg hm] at hy
      exact h.holds m y hy
  · rw [hnames]
    by_cases hm : m = getName e.cls true r
    · subst hm
      rw [if_pos rfl, hwaits z (h.waiting _ z hz hzr) ((htaken z hz).2 hzr)]
    · rw [if_neg hm]
      exact h.waiting m z hz hzr
  · rcases List.mem_append.mp hr' with hr' | hr'
    · obtain ⟨y, hy, hyc⟩ := h.found r' hr'
      rw [hnames]
      by_cases hm : getName e.cls true r' = getName e.cls true r
      · rw [if_pos hm]
        refine ⟨kept, rfl, ?_⟩
        rcases hspec with e | ⟨e, -⟩
        · rw [e]
          exact .inl hle
        · rw [hm, e] at hy
          cases hy
          exact hyc
      · rw [if_neg hm]
        exact ⟨y, hy, hyc⟩
    · rw [List.mem_singleton.mp hr', hnames, if_pos rfl]
      refine ⟨kept, rfl, ?_⟩
      rcases hspec with e | ⟨e, ho⟩
      · rw [e]
        exact .inl hle
      · rcases h.holds _ kept e with ⟨-, hu, -⟩ | ⟨z, hz, ⟨-, ez⟩ | ⟨hzd, ez⟩⟩
        · exact .inl hu
        · rw [ez] at ho
          exact .inr ⟨z, hz, ho⟩
        · rw [ez, hp z hzd] at ho
          exact .inr ⟨z, hz, ho⟩
  · rw [hnames, if_neg]
    · exact h.kept m z hz hzd fun r' hr' => hfree r' (List.mem_append_left _ hr')
    · rintro rfl
      exact hfree r (List.mem_append_right _ List.mem_cons_self) rfl

theorem Progress.addAll (h : e.Progress c₀ done rest placed c) (hp : ∀ z ∈ done, (e.prepared z).order = z.order)
    (hcopy : ∀ x ∈ done, ∀ r ∈ e.copies x, e.Copyable r) (hx : x ∈ done) (hs : ∀ r ∈ rs, r ∈ e.copies x)
    (htaken : ∀ r ∈ e.copies x, ∀ y, c₀.nameToItem.get? (getName e.cls true r) = some y →
      removedKey e.cls (e.prepared y) = some (getName e.cls true r) ∧ (y ∈ rest → y.order < r.order)) :
    ∃ c', e.addCopies rs c = .ok c' ∧ e.Progress c₀ done rest (placed ++ rs) c' := by
  induction rs generalizing c placed with
  | nil =>
    rw [List.append_nil]
    exact ⟨c, rfl, h⟩
  | cons r rs ih =>
    have hr := hs r List.mem_cons_self
    obtain ⟨c₁, hadd, h1⟩ := h.add hp hcopy hx hr (htaken r hr)
    obtain ⟨c', hrest, h'⟩ := ih h1 fun r hr => hs r (List.mem_cons_of_mem _ hr)
    rw [List.append_assoc] at h'
    refine ⟨c', ?_, h'⟩
    unfold addCopies
    rw [List.foldlM_cons, hadd]
    exact hrest

/-! ## A whole run -/

variable {s : Exploding}

theorem After.step (ha : e.Apart c₀) (h0 : Slots c₀) (hd : c₀.items.values = done ++ x :: rest)
    (h : e.After c₀ done (x :: rest) s) :
    s.collection.items.get? x.uuid = some x ∧ ∃ s', e.turn s x = .ok s' ∧ e.After c₀ (done ++ [x]) rest s' := by
  have hmem : ∀ z ∈ done ++ [x], z ∈ c₀.items.values := by
    intro z hz
    rw [hd]
    simp only [List.mem_append, List.mem_cons] at hz ⊢
    tauto
  have hx := hmem x (List.mem_append_right _ List.mem_cons_self)
  obtain ⟨n, hn⟩ := h0.mem_values.mp hx
  have hrest : x ∉ rest := by
    have hnodup := values_nodup fun u z hz => (h0.named u z hz).1
    rw [hd] at hnodup
    exact (List.nodup_cons.mp hnodup.of_append_right).1
  have hprepared := h.progress.prepare h0 hn hrest (ha.prepares x hx)
  obtain ⟨c, hadd, hc⟩ := hprepared.addAll (fun z hz => (ha.prepares z (hmem z hz)).order)
    (fun z hz => ha.copyable z (hmem z hz)) (List.mem_append_right _ List.mem_cons_self) (fun r hr => hr)
    (ha.taken done x rest hd)
  refine ⟨h.progress.slots.held n x (h.progress.waiting n x hn List.mem_cons_self), _, ha.turns x hx s c hadd, ?_, ?_, ?_, ?_⟩
  · rw [List.flatMap_append, List.flatMap_singleton]
    exact hc
  · simp [h.errors]
  · simp [h.itemErrors]
  · simp [h.toBeRemoved]

theorem After.run (ha : e.Apart c₀) (h0 : Slots c₀) (hd : c₀.items.values = done ++ rest) (h : e.After c₀ done rest s) :
    ∃ s', (rest.map ConfigItem.uuid).foldlM (explodeOne e.turn) s = .ok s' ∧ e.After c₀ c₀.items.values [] s' := by
  induction rest generalizing done s with
  | nil =>
    rw [List.append_nil] at hd
    rw [hd]
    exact ⟨s, rfl, h⟩
  | cons x rest ih =>
    obtain ⟨hget, s₁, hturn, h1⟩ := h.step ha h0 hd
    have hone : explodeOne e.turn s x.uuid = .ok s₁ := by
      unfold explodeOne
      rw [hget]
      exact hturn
    obtain ⟨s', hrun, h'⟩ := ih (by rw [hd]; simp) h1
    refine ⟨s', ?_, h'⟩
    rw [List.map_cons, List.foldlM_cons, hone]
    exact hrun

def NewCopy (e : Expansion) (c₀ : ItemCollection) (y : ConfigItem) : Prop := e.CopyOf c₀.items.values y ∧ c₀.nextUuid ≤ y.uuid

def Untaken (e : Expansion) (c₀ : ItemCollection) (x : ConfigItem) : Prop :=
  ∀ x' ∈ c₀.items.values, ∀ r ∈ e.copies x', c₀.nameToItem.get? (getName e.cls true r) ≠ some x

structure Exploded (e : Expansion) (c₀ : ItemCollection) (s : Exploding) : Prop where
  nodup : s.collection.items.values.Nodup
  copied : ∀ x ∈ c₀.items.values, ∀ r ∈ e.copies x, ∃ y ∈ s.collection.items.values,
    e.NewCopy c₀ y ∧ getName e.cls true y = getName e.cls true r
  only : ∀ y ∈ s.collection.items.values, e.NewCopy c₀ y ∨
    ∃ x ∈ c₀.items.values, y = e.prepared x ∧ e.gone x = [] ∧ e.Untaken c₀ x
  unique : ∀ y ∈ s.collection.items.values, ∀ y' ∈ s.collection.items.values, e.NewCopy c₀ y → e.NewCopy c₀ y' →
    getName e.cls true y = getName e.cls true y' → y = y'
  stays : ∀ x ∈ c₀.items.values, e.gone x = [] → e.Untaken c₀ x → s.collection.items.contains x.uuid = true
  errors : s.errors = c₀.items.values.flatMap e.errors
  itemErrors : s.itemErrors = c₀.items.values.flatMap e.itemErrors

theorem After.slot (ha : e.Apart c₀) (h : e.After c₀ c₀.items.values [] s) (hx : x ∈ c₀.items.values) (hr : r ∈ e.copies x) :
    ∃ y, s.collection.nameToItem.get? (getName e.cls true r) = some y ∧ c₀.nextUuid ≤ y.uuid := by
  obtain ⟨y, hy, hu | ⟨z, hz, -⟩⟩ := h.progress.found r (List.mem_flatMap.mpr ⟨x, hx, hr⟩)
  · exact ⟨y, hy, hu⟩
  · -- a definition has the slot at first, and one copy is no worse than it
    obtain ⟨x', hx', r', hr', hname, hle⟩ := ha.better x hx r hr z hz
    obtain ⟨y', hy', hu | ⟨z', hz', hlt⟩⟩ := h.progress.found r' (List.mem_flatMap.mpr ⟨x', hx', hr'⟩)
    · rw [hname] at hy'
      exact ⟨y', hy', hu⟩
    · rw [hname, hz] at hz'
      cases hz'
      omega

theorem After.exploded (ha : e.Apart c₀) (h0 : Slots c₀) (h : e.After c₀ c₀.items.values [] s) :
    e.Exploded c₀ { s with collection := s.toBeRemoved.foldl (delItem e.cls) s.collection } := by
  have hp := h.progress
  have hitems := @foldl_delItem_items e.cls s.toBeRemoved s.collection
  have hgone : ∀ u, u ∈ s.toBeRemoved → ∃ x ∈ c₀.items.values, u ∈ e.gone x ∧ u = x.uuid := by
    intro u hu
    rw [h.toBeRemoved] at hu
    obtain ⟨x, hx, hxu⟩ := List.mem_flatMap.mp hu
    exact ⟨x, hx, hxu, ha.gone x hx u hxu⟩
  have hold : ∀ x ∈ c₀.items.values, x.uuid < c₀.nextUuid := by
    intro x hx
    obtain ⟨n, hn⟩ := h0.mem_values.mp hx
    exact h0.fresh hn
  have hmem : ∀ y, y ∈ (s.toBeRemoved.foldl (delItem e.cls) s.collection).items.values ↔
      (∃ n, s.collection.nameToItem.get? n = some y) ∧ y.uuid ∉ s.toBeRemoved := by
    intro y
    rw [Dict.mem_values, ← hp.slots.mem_values, Dict.mem_values]
    constructor
    · rintro ⟨u, hu⟩
      rw [hitems] at hu
      split at hu
      · cases hu
      · rename_i hnot
        rw [(hp.slots.named u y hu).1]
        exact ⟨⟨u, hu⟩, hnot⟩
    · rintro ⟨⟨u, hu⟩, hnot⟩
      rw [(hp.slots.named u y hu).1] at hnot
      exact ⟨u, by rw [hitems, if_neg hnot, hu]⟩
  -- a new copy is what its slot holds, and is not removed
  have hcopy : ∀ n y, s.collection.nameToItem.get? n = some y → c₀.nextUuid ≤ y.uuid →
      e.NewCopy c₀ y ∧ getName e.cls true y = n ∧ y.uuid ∉ s.toBeRemoved := by
    intro n y hy hu
    have hnot : y.uuid ∉ s.toBeRemoved := by
      intro hm
      obtain ⟨x, hx, -, hxu⟩ := hgone _ hm
      have hlt := hold x hx
      omega
    rcases hp.holds n y hy with ⟨hc, -, hn⟩ | ⟨x, hx, ⟨hxr, -⟩ | ⟨hxd, hyx⟩⟩
    · exact ⟨⟨hc, hu⟩, hn, hnot⟩
    · exact absurd hxr List.not_mem_nil
    · rw [hyx, (ha.prepares x hxd).uuid] at hu
      exact absurd (hold x hxd) (Nat.not_lt.mpr hu)
  refine ⟨values_nodup fun u y hy => ?_, fun x hx r hr => ?_, fun y hy => ?_, fun y hy y' hy' hc hc' hn => ?_, fun x hx hg hfree => ?_,
    h.errors, h.itemErrors⟩
  · rw [hitems] at hy
    split at hy
    · cases hy
    · exact (hp.slots.named u y hy).1
  · obtain ⟨y, hy, hu⟩ := h.slot ha hx hr
    obtain ⟨hc, hn, hnot⟩ := hcopy _ y hy hu
    exact ⟨y, (hmem y).mpr ⟨⟨_, hy⟩, hnot⟩, hc, hn⟩
  · obtain ⟨⟨n, hn⟩, hnot⟩ := (hmem y).mp hy
    rcases hp.holds n y hn with ⟨hc, hu, -⟩ | ⟨x, hx, ⟨hxr, -⟩ | ⟨hxd, hyx⟩⟩
    · exact .inl ⟨hc, hu⟩
    · exact absurd hxr List.not_mem_nil
    · refine .inr ⟨x, hxd, hyx, List.eq_nil_iff_forall_not_mem.mpr fun u hu => hnot ?_, fun x' hx' r hr hname => ?_⟩
      · rw [hyx, (ha.prepares x hxd).uuid, h.toBeRemoved, ← ha.gone x hxd u hu]
        exact List.mem_flatMap.mpr ⟨x, hxd, hu⟩
      · obtain ⟨z, hz, hzu⟩ := h.slot ha hx' hr
        rw [h0.same _ n x hname hx, hn] at hz
        cases hz
        rw [hyx, (ha.prepares x hxd).uuid] at hzu
        exact absurd (hold x hxd) (Nat.not_lt.mpr hzu)
  · obtain ⟨⟨n, hyn⟩, -⟩ := (hmem y).mp hy
    obtain ⟨⟨n', hyn'⟩, -⟩ := (hmem y').mp hy'
    rw [(hcopy n y hyn hc.2).2.1, (hcopy n' y' hyn' hc'.2).2.1] at hn
    rw [hn, hyn'] at hyn
    exact (Option.some.inj hyn).symm
  · obtain ⟨n, hn⟩ := h0.mem_values.mp hx
    have hkept := hp.kept n x hn hx fun r hr hname => by
      obtain ⟨x', hx', hr'⟩ := List.mem_flatMap.mp hr
      rw [← hname] at hn
      exact hfree x' hx' r hr' hn
    have hitem := hp.slots.held n _ hkept
    rw [(ha.prepares x hx).uuid] at hitem
    unfold Dict.contains
    rw [hitems, if_neg, hitem]
    · rfl
    · intro hm
      obtain ⟨z, hz, hzg, hzu⟩ := hgone _ hm
      obtain ⟨m, hzm⟩ := h0.mem_values.mp hz
      rw [← h0.eq_of_uuid hn hzm hzu, hg] at hzg
      exact absurd hzg List.not_mem_nil

theorem explodeAll_exploded (ha : e.Apart c₀) (h0 : Slots c₀) :
    ∃ s, explodeAll e.cls e.turn c₀ = .ok s ∧ e.Exploded c₀ s := by
  have hstart : e.After c₀ [] c₀.items.values { collection := c₀ } := ⟨progress_start h0, rfl, rfl, rfl⟩
  obtain ⟨s, hrun, hs⟩ := hstart.run ha h0 rfl
  refine ⟨_, ?_, hs.exploded ha h0⟩
  unfold explodeAll
  rw [keys_eq fun u x hx => (h0.named u x hx).1, hrun]
  rfl

end

end Expansion

end Alignak.Dependencies
