import Alignak.ItemCollection

/-!
# The index of a collection

The index maps the names of the items of a collection to these items.
-/

namespace Alignak

structure Indexed (cls : ItemClass) (c : ItemCollection) : Prop where
  keys : ∀ u x, c.items.get? u = some x → x.uuid = u
  names : ∀ n x, c.nameToItem.get? n = some x ↔ c.items.get? x.uuid = some x ∧ getName cls true x = n

/-- The key that `unindex_item` takes out for an item. -/
def removedKey (cls : ItemClass) (x : ConfigItem) : Option IndexName :=
  match x.property cls.myNameProperty with
  | none => none
  | some name => if name.isEmpty then none else some name

def RemoveSafe (cls : ItemClass) (c : ItemCollection) (x : ConfigItem) : Prop :=
  c.items.get? x.uuid = some x ∧ removedKey cls x = some (getName cls true x) ∨
  c.items.get? x.uuid = none ∧ ∀ n, removedKey cls x = some n → c.nameToItem.get? n = none

structure PlaceSafe (cls : ItemClass) (c : ItemCollection) (index : Bool) (x : ConfigItem) : Prop where
  item : x.isATemplate = false
  same : ∀ y, c.items.get? x.uuid = some y → y = x
  indexed : index = true ∨ c.items.get? x.uuid = some x
  named : (getName cls true x).isEmpty = false
  replaced : ∀ y, c.nameToItem.get? (getName cls true x) = some y → y ≠ x → x.order ≤ y.order →
    ∀ n, removedKey cls y = some n → n ≠ getName cls true x → c.nameToItem.get? n = none

def keptOf (kept : Option ConfigItem) (x : ConfigItem) : ConfigItem :=
  match kept with
  | none => x
  | some y => if y.order < x.order then y else x

variable {n : IndexName} {objects : List ConfigItem}

section
variable {cls : ItemClass} {c c' : ItemCollection} {x : ConfigItem} {index : Bool}

/-! ## Removal -/

theorem unindexItem_eq (cls : ItemClass) (x : ConfigItem) (c : ItemCollection) : unindexItem cls x c =
    { c with nameToItem := ((removedKey cls x).map fun n => c.nameToItem.erase n).getD c.nameToItem } := by
  unfold unindexItem removedKey
  cases x.property cls.myNameProperty with
  | none => rfl
  | some name => cases h : name.isEmpty <;> simp [h]

theorem removeItem_items (cls : ItemClass) (x : ConfigItem) (c : ItemCollection) :
    (removeItem cls x c).items = c.items.erase x.uuid := by
  unfold removeItem
  rw [unindexItem_eq]

theorem removeItem_names (cls : ItemClass) (x : ConfigItem) (c : ItemCollection) (n : IndexName) :
    (removeItem cls x c).nameToItem.get? n = if removedKey cls x = some n then none else c.nameToItem.get? n := by
  unfold removeItem
  rw [unindexItem_eq]
  cases removedKey cls x with
  | none => simp
  | some k =>
    simp only [Option.map_some, Option.getD_some, Option.some.injEq, Dict.get?_erase, eq_comm]

theorem removeItem_entry (hc : Indexed cls c) (h : RemoveSafe cls c x) (n : IndexName) (y : ConfigItem) :
    (removeItem cls x c).nameToItem.get? n = some y ↔ c.nameToItem.get? n = some y ∧ y.uuid ≠ x.uuid := by
  rw [removeItem_names]
  rcases h with ⟨hx, hk⟩ | ⟨hx, hk⟩
  · rw [hk]
    have hentry := (hc.names (getName cls true x) x).mpr ⟨hx, rfl⟩
    by_cases hn : getName cls true x = n
    · subst hn
      simp only [if_true]
      rw [hentry]
      constructor
      · intro e
        cases e
      · intro e
        cases e.1
        exact absurd rfl e.2
    · rw [if_neg fun e => hn (Option.some.inj e)]
      refine ⟨fun e => ⟨e, fun hu => ?_⟩, fun e => e.1⟩
      obtain ⟨hy, hyn⟩ := (hc.names n y).mp e
      rw [hu, hx] at hy
      cases hy
      exact hn hyn
  · have hsame : (if removedKey cls x = some n then none else c.nameToItem.get? n) = c.nameToItem.get? n := by
      split
      · rename_i e
        exact (hk n e).symm
      · rfl
    rw [hsame]
    refine ⟨fun e => ⟨e, fun hu => ?_⟩, fun e => e.1⟩
    obtain ⟨hy, -⟩ := (hc.names n y).mp e
    rw [hu, hx] at hy
    cases hy

theorem removeItem_indexed (hc : Indexed cls c) (h : RemoveSafe cls c x) : Indexed cls (removeItem cls x c) := by
  refine ⟨fun u y hy => ?_, fun n y => ?_⟩
  · rw [removeItem_items, Dict.get?_erase] at hy
    split at hy
    · cases hy
    · exact hc.keys u y hy
  · rw [removeItem_entry hc h, hc.names, removeItem_items, Dict.get?_erase]
    by_cases hu : y.uuid = x.uuid
    · simp [hu]
    · simp [hu]

/-! ## Addition -/

theorem keptOf_cases (kept : Option ConfigItem) (x : ConfigItem) : keptOf kept x = x ∨ kept = some (keptOf kept x) := by
  cases kept with
  | none => exact .inl rfl
  | some y =>
    unfold keptOf
    simp only
    split
    · exact .inr rfl
    · exact .inl rfl

structure Placed (cls : ItemClass) (c : ItemCollection) (x : ConfigItem) (c' : ItemCollection) : Prop where
  names : ∀ n, c'.nameToItem.get? n =
    if n = getName cls true x then some (keptOf (c.nameToItem.get? (getName cls true x)) x) else c.nameToItem.get? n
  items : ∀ u, c'.items.get? u =
    if u = (keptOf (c.nameToItem.get? (getName cls true x)) x).uuid then
      some (keptOf (c.nameToItem.get? (getName cls true x)) x)
    else if (c.nameToItem.get? (getName cls true x)).map ConfigItem.uuid = some u then none
    else c.items.get? u

theorem place_indexed_eq (h : (getName cls true x).isEmpty = false) : place cls true x c =
    (if c.nameToItem.contains (getName cls true x) then manageConflict cls x (getName cls true x) c else .ok (x, c)) >>=
      fun r => .ok { r.2 with
        nameToItem := r.2.nameToItem.set (getName cls true x) r.1
        items := r.2.items.set r.1.uuid r.1
        nextUuid := max r.2.nextUuid (x.uuid + 1) } := by
  unfold place indexItem
  simp only [if_true, h, Bool.not_false, Bool.true_and]
  cases c.nameToItem.contains (getName cls true x) with
  | false => rfl
  | true => cases manageConflict cls x (getName cls true x) c <;> rfl

theorem placed_held {kept : ConfigItem} (hk : c.nameToItem.get? (getName cls true x) = some kept)
    (he : keptOf (some kept) x = kept) : Placed cls c x { c with
      nameToItem := c.nameToItem.set (getName cls true x) kept
      items := c.items.set kept.uuid kept
      nextUuid := max c.nextUuid (x.uuid + 1) } := by
  refine ⟨fun n => ?_, fun u => ?_⟩
  · rw [hk, he, Dict.get?_set]
  · rw [hk, he, Dict.get?_set]
    by_cases hu : u = kept.uuid
    · rw [if_pos hu, if_pos hu]
    · rw [if_neg hu, if_neg hu, if_neg]
      intro e
      exact hu (Option.some.inj e).symm

theorem removeItem_nextUuid (cls : ItemClass) (x : ConfigItem) (c : ItemCollection) : (removeItem cls x c).nextUuid = c.nextUuid := by
  unfold removeItem
  rw [unindexItem_eq]

theorem place_held (hheld : ∀ y, c.nameToItem.get? (getName cls true x) = some y → c.items.get? y.uuid = some y)
    (h : PlaceSafe cls c true x) :
    ∃ c', place cls true x c = .ok c' ∧ Placed cls c x c' ∧ c'.nextUuid = max c.nextUuid (x.uuid + 1) := by
  rw [place_indexed_eq h.named]
  cases hk : c.nameToItem.get? (getName cls true x) with
  | none =>
    rw [if_neg (by simp [Dict.contains, hk])]
    refine ⟨_, rfl, ⟨fun n => ?_, fun u => ?_⟩, rfl⟩
    · rw [hk, Dict.get?_set]
      rfl
    · rw [hk, Dict.get?_set]
      simp [keptOf]
  | some y =>
    rw [if_pos (by simp [Dict.contains, hk])]
    have hy := hheld y hk
    unfold manageConflict
    simp only [h.item, Bool.false_eq_true, if_false, hk]
    by_cases hu : y.uuid = x.uuid
    · have hyx : y = x := h.same y (hu ▸ hy)
      subst hyx
      rw [if_pos rfl]
      exact ⟨_, rfl, placed_held hk (by simp [keptOf]), rfl⟩
    · rw [if_neg hu]
      by_cases ho : y.order < x.order
      · rw [if_pos ho]
        exact ⟨_, rfl, placed_held hk (by simp [keptOf, ho]), rfl⟩
      · rw [if_neg ho]
        have hyx : y ≠ x := fun e => hu (congrArg ConfigItem.uuid e)
        have hfree := h.replaced y hk hyx (by omega)
        have he : keptOf (some y) x = x := by simp [keptOf, ho]
        refine ⟨_, rfl, ⟨fun n => ?_, fun u => ?_⟩, congrArg (max · (x.uuid + 1)) (removeItem_nextUuid cls y c)⟩
        · show Dict.get? (Dict.set (removeItem cls y c).nameToItem _ _) n = _
          rw [hk, he, Dict.get?_set, removeItem_names]
          by_cases hn : n = getName cls true x
          · rw [if_pos hn, if_pos hn]
          · rw [if_neg hn, if_neg hn]
            split
            · rename_i e
              exact (hfree n e hn).symm
            · rfl
        · show Dict.get? (Dict.set (removeItem cls y c).items _ _) u = _
          rw [hk, he, Dict.get?_set, removeItem_items, Dict.get?_erase]
          by_cases hux : u = x.uuid
          · rw [if_pos hux, if_pos hux]
          · rw [if_neg hux, if_neg hux]
            simp only [Option.map_some, Option.some.injEq, eq_comm]

theorem place_placed (hc : Indexed cls c) (h : PlaceSafe cls c index x) : ∃ c', place cls index x c = .ok c' ∧ Placed cls c x c' := by
  cases index with
  | false =>
    have hx := h.indexed.resolve_left (by decide)
    have hk := (hc.names (getName cls true x) x).mpr ⟨hx, rfl⟩
    have he : keptOf (some x) x = x := by simp [keptOf]
    refine ⟨_, rfl, fun n => ?_, fun u => ?_⟩
    · rw [hk, he]
      split
      · rename_i e
        rw [e, hk]
      · rfl
    · rw [hk, he, Dict.get?_set]
      by_cases hu : u = x.uuid
      · rw [if_pos hu, if_pos hu]
      · rw [if_neg hu, if_neg hu, if_neg]
        intro e
        exact hu (Option.some.inj e).symm
  | true =>
    obtain ⟨c', hplace, hplaced, -⟩ := place_held (fun y hy => ((hc.names _ y).mp hy).1) h
    exact ⟨c', hplace, hplaced⟩

theorem Placed.indexed (hc : Indexed cls c) (hs : ∀ y, c.items.get? x.uuid = some y → y = x) (h : Placed cls c x c') :
    Indexed cls c' := by
  have hheld : ∀ y, c.nameToItem.get? (getName cls true x) = some y →
      c.items.get? y.uuid = some y ∧ getName cls true y = getName cls true x := fun y => (hc.names _ y).mp
  obtain ⟨hkname, hkitem⟩ : getName cls true (keptOf (c.nameToItem.get? (getName cls true x)) x) = getName cls true x ∧
      ∀ z, c.items.get? (keptOf (c.nameToItem.get? (getName cls true x)) x).uuid = some z →
        z = keptOf (c.nameToItem.get? (getName cls true x)) x := by
    rcases keptOf_cases (c.nameToItem.get? (getName cls true x)) x with e | e
    · rw [e]
      exact ⟨rfl, hs⟩
    · obtain ⟨h1, h2⟩ := hheld _ e
      refine ⟨h2, fun z hz => ?_⟩
      rw [h1] at hz
      exact (Option.some.inj hz).symm
  have hnames := h.names
  have hitems := h.items
  generalize keptOf (c.nameToItem.get? (getName cls true x)) x = kept at hkname hkitem hnames hitems
  refine ⟨fun u y hy => ?_, fun n z => ?_⟩
  · rw [hitems] at hy
    split at hy
    · rename_i hu
      cases hy
      exact hu.symm
    · split at hy
      · cases hy
      · exact hc.keys u y hy
  · rw [hnames, hitems]
    by_cases hz : z.uuid = kept.uuid
    · rw [if_pos hz]
      by_cases hn : n = getName cls true x
      · rw [if_pos hn, hn]
        constructor
        · intro e
          refine ⟨e, ?_⟩
          cases e
          exact hkname
        · exact fun e => e.1
      · rw [if_neg hn, hc.names]
        constructor
        · rintro ⟨h1, h2⟩
          rw [hz] at h1
          rw [hkitem z h1, hkname] at h2
          exact absurd h2.symm hn
        · rintro ⟨h1, h2⟩
          cases h1
          exact absurd (h2.symm.trans hkname) hn
    · rw [if_neg hz]
      by_cases hn : n = getName cls true x
      · rw [if_pos hn, hn]
        constructor
        · intro e
          cases e
          exact absurd rfl hz
        · rintro ⟨h1, h2⟩
          split at h1
          · cases h1
          · rename_i hne
            have hentry := (hc.names _ z).mpr ⟨h1, h2⟩
            rw [hentry] at hne
            exact absurd rfl hne
      · rw [if_neg hn, hc.names]
        constructor
        · rintro ⟨h1, h2⟩
          refine ⟨?_, h2⟩
          rw [if_neg, h1]
          intro e
          obtain ⟨y, hy, hyu⟩ := Option.map_eq_some_iff.mp e
          obtain ⟨g1, g2⟩ := hheld y hy
          rw [hyu, h1] at g1
          cases g1
          exact hn (h2.symm.trans g2)
        · rintro ⟨h1, h2⟩
          split at h1
          · cases h1
          · exact ⟨h1, h2⟩

/-! ## Templates -/

theorem manageConflict_template {name : IndexName} {r : ConfigItem × ItemCollection} (ht : x.isATemplate = true)
    (h : manageConflict cls x name c = .ok r) :
    r.2.items = c.items ∧ r.2.nameToItem = c.nameToItem := by
  unfold manageConflict at h
  simp only [ht, if_true] at h
  cases hk : c.nameToTemplate.get? name with
  | none =>
    rw [hk] at h
    cases h
  | some y =>
    rw [hk] at h
    simp only at h
    split at h
    · cases h
      exact ⟨rfl, rfl⟩
    · split at h <;> cases h <;> exact ⟨rfl, rfl⟩

theorem indexTemplate_same {r : ConfigItem × ItemCollection} (ht : x.isATemplate = true) (h : indexTemplate cls x c = .ok r) :
    r.2.items = c.items ∧ r.2.nameToItem = c.nameToItem := by
  unfold indexTemplate at h
  simp only at h
  split at h
  · cases hm : manageConflict cls x (getName cls true x) c with
    | error e =>
      rw [hm] at h
      cases h
    | ok r' =>
      rw [hm] at h
      cases h
      have hsame := manageConflict_template ht hm
      exact hsame
  · cases h
    exact ⟨rfl, rfl⟩

theorem addTemplate_same (ht : x.isATemplate = true) (h : addTemplate cls x c = .ok c') :
    c'.items = c.items ∧ c'.nameToItem = c.nameToItem := by
  have hindex : ∀ y : ConfigItem, y.isATemplate = true → ∀ c', (indexTemplate cls y c >>= fun r =>
      Except.ok { r.2 with templates := r.2.templates.set r.1.uuid r.1 }) = .ok c' →
        c'.items = c.items ∧ c'.nameToItem = c.nameToItem := by
    intro y hy c' h
    cases hr : indexTemplate cls y c with
    | error e =>
      rw [hr] at h
      cases h
    | ok r =>
      rw [hr] at h
      cases h
      exact indexTemplate_same hy hr
  unfold addTemplate addServiceTemplate at h
  split at h
  · simp only at h
    split at h
    · split at h
      · cases h
        exact ⟨rfl, rfl⟩
      · exact hindex (x.setAttr _ _) ht c' h
    · exact hindex x ht c' h
  · exact hindex x ht c' h

/-! ## The best of a name -/

/-- Among the objects of the name, `kept` has the lowest definition order and
comes after all others that have it. -/
structure Best (cls : ItemClass) (n : IndexName) (objects : List ConfigItem) (kept : Option ConfigItem) : Prop where
  absent : kept = none → ∀ y ∈ objects, getName cls true y ≠ n
  present : ∀ x, kept = some x → ∃ before after, objects = before ++ x :: after ∧ getName cls true x = n ∧
    (∀ y ∈ before, getName cls true y = n → x.order ≤ y.order) ∧ ∀ y ∈ after, getName cls true y = n → x.order < y.order

theorem Best.other {kept : Option ConfigItem} (h : Best cls n objects kept)
    (hx : getName cls true x ≠ n) : Best cls n (objects ++ [x]) kept := by
  refine ⟨fun e y hy => ?_, fun z e => ?_⟩
  · rcases List.mem_append.mp hy with hy | hy
    · exact h.absent e y hy
    · rw [List.mem_singleton.mp hy]
      exact hx
  · obtain ⟨before, after, he, hz, hb, ha⟩ := h.present z e
    refine ⟨before, after ++ [x], by rw [he]; simp, hz, hb, fun y hy hyn => ?_⟩
    rcases List.mem_append.mp hy with hy | hy
    · exact ha y hy hyn
    · rw [List.mem_singleton.mp hy] at hyn
      exact absurd hyn hx

theorem Best.take {kept : Option ConfigItem} (h : Best cls n objects kept)
    (hx : getName cls true x = n) : Best cls n (objects ++ [x]) (some (keptOf kept x)) := by
  refine ⟨fun e => (Option.some_ne_none _ e).elim, fun z e => ?_⟩
  cases e
  cases kept with
  | none =>
    refine ⟨objects, [], rfl, hx, fun y hy hyn => absurd hyn (h.absent rfl y hy), fun y hy => absurd hy List.not_mem_nil⟩
  | some y =>
    obtain ⟨before, after, he, hy, hb, ha⟩ := h.present y rfl
    unfold keptOf
    simp only
    by_cases ho : y.order < x.order
    · rw [if_pos ho]
      refine ⟨before, after ++ [x], by rw [he]; simp, hy, hb, fun z hz hzn => ?_⟩
      rcases List.mem_append.mp hz with hz | hz
      · exact ha z hz hzn
      · rw [List.mem_singleton.mp hz]
        exact ho
    · rw [if_neg ho]
      refine ⟨objects, [], rfl, hx, fun z hz hzn => ?_, fun z hz => absurd hz List.not_mem_nil⟩
      rw [he] at hz
      rcases List.mem_append.mp hz with hz | hz
      · have hle := hb z hz hzn
        omega
      · rcases List.mem_cons.mp hz with hz | hz
        · rw [hz]
          omega
        · have hlt := ha z hz hzn
          omega

theorem Placed.best (h : Placed cls c x c')
    (hb : Best cls n objects (c.nameToItem.get? n)) : Best cls n (objects ++ [x]) (c'.nameToItem.get? n) := by
  rw [h.names]
  by_cases hn : n = getName cls true x
  · rw [if_pos hn]
    rw [hn] at hb ⊢
    exact hb.take rfl
  · rw [if_neg hn]
    exact hb.other fun e => hn e.symm

/-! ## Calls -/

def AllPlaceSafe (cls : ItemClass) (index : Bool) : List ConfigItem → ItemCollection → Prop
  | [], _ => True
  | x :: objects, c => PlaceSafe cls c index x ∧ ∀ c', place cls index x c = .ok c' → AllPlaceSafe cls index objects c'

theorem foldlM_place (hc : Indexed cls c) (hs : AllPlaceSafe cls index objects c)
    (h : objects.foldlM (fun c object => place cls index object c) c = .ok c') :
    Indexed cls c' ∧ ∀ n before, Best cls n before (c.nameToItem.get? n) → Best cls n (before ++ objects) (c'.nameToItem.get? n) := by
  induction objects generalizing c with
  | nil =>
    cases h
    exact ⟨hc, fun n before hb => by rw [List.append_nil]; exact hb⟩
  | cons x objects ih =>
    obtain ⟨c₁, hplace, hplaced⟩ := place_placed hc hs.1
    rw [List.foldlM_cons, hplace] at h
    obtain ⟨h1, h2⟩ := ih (hplaced.indexed hc hs.1.same) (hs.2 c₁ hplace) h
    refine ⟨h1, fun n before hb => ?_⟩
    have hbest := h2 n (before ++ [x]) (hplaced.best hb)
    rw [List.append_assoc] at hbest
    exact hbest

end

inductive ItemsCall
  | addItem (item : ConfigItem) (index : Bool)
  | addTemplate (template : ConfigItem)
  | removeItem (item : ConfigItem)
  | removeTemplate (template : ConfigItem)

namespace ItemsCall

variable (cls : ItemClass) (format : List Char → Int → Except Exn (List Char))

def run (c : ItemCollection) : ItemsCall → Except Exn ItemCollection
  | addItem item index => Alignak.addItem cls format item index c
  | addTemplate template => Alignak.addTemplate cls template c
  | removeItem item => .ok (Alignak.removeItem cls item c)
  | removeTemplate template => .ok (Alignak.removeTemplate cls template c)

def Safe (c : ItemCollection) : ItemsCall → Prop
  | addItem item index => ∀ objects, definitions cls format item c = .ok objects → AllPlaceSafe cls index objects c
  | addTemplate template => template.isATemplate = true
  | removeItem item => RemoveSafe cls c item
  | removeTemplate _ => True

def defines (c : ItemCollection) : ItemsCall → List ConfigItem
  | addItem item _ => (definitions cls format item c).toOption.getD []
  | _ => []

def Removes (n : IndexName) : ItemsCall → Prop
  | removeItem item => getName cls true item = n
  | _ => False

end ItemsCall

def noItems : ItemCollection := {}

inductive ItemsRun (cls : ItemClass) (format : List Char → Int → Except Exn (List Char)) (c₀ : ItemCollection) :
    List (ItemCollection × ItemsCall) → ItemCollection → Prop
  | nil : ItemsRun cls format c₀ [] c₀
  | snoc {trace : List (ItemCollection × ItemsCall)} {c c' : ItemCollection} {call : ItemsCall} (h : ItemsRun cls format c₀ trace c)
      (hc : call.run cls format c = .ok c') : ItemsRun cls format c₀ (trace ++ [(c, call)]) c'

section
variable {cls : ItemClass} {format : List Char → Int → Except Exn (List Char)} {c₀ c c' : ItemCollection} {call : ItemsCall}

theorem call_step (hc : Indexed cls c) (hs : call.Safe cls format c) (h : call.run cls format c = .ok c') :
    Indexed cls c' ∧ ∀ n objects, ¬ call.Removes cls n → Best cls n objects (c.nameToItem.get? n) →
      Best cls n (objects ++ call.defines cls format c) (c'.nameToItem.get? n) := by
  have hsame : c'.items = c.items → c'.nameToItem = c.nameToItem → Indexed cls c' := by
    intro h1 h2
    exact ⟨by rw [h1]; exact hc.keys, by rw [h1, h2]; exact hc.names⟩
  cases call with
  | addItem item index =>
    have h : addItem cls format item index c = .ok c' := h
    unfold addItem at h
    cases hd : definitions cls format item c with
    | error e =>
      rw [hd] at h
      cases h
    | ok objects =>
      rw [hd] at h
      obtain ⟨h1, h2⟩ := foldlM_place hc (hs objects hd) h
      refine ⟨h1, fun n before _ hb => ?_⟩
      have hdefines : (ItemsCall.addItem item index).defines cls format c = objects := by
        show (definitions cls format item c).toOption.getD [] = objects
        rw [hd]
        rfl
      rw [hdefines]
      exact h2 n before hb
  | addTemplate template =>
    obtain ⟨h1, h2⟩ := addTemplate_same hs h
    refine ⟨hsame h1 h2, fun n objects _ hb => ?_⟩
    rw [h2]
    simpa [ItemsCall.defines] using hb
  | removeItem item =>
    cases h
    refine ⟨removeItem_indexed hc hs, fun n objects hn hb => ?_⟩
    have hkept : (removeItem cls item c).nameToItem.get? n = c.nameToItem.get? n := by
      refine Option.ext fun y => ?_
      rw [removeItem_entry hc hs]
      refine ⟨fun e => e.1, fun e => ⟨e, fun hu => hn ?_⟩⟩
      obtain ⟨hy, hyn⟩ := (hc.names n y).mp e
      rcases hs with ⟨hx, -⟩ | ⟨hx, -⟩
      · rw [hu, hx] at hy
        cases hy
        exact hyn
      · rw [hu, hx] at hy
        cases hy
    rw [hkept]
    simpa [ItemsCall.defines] using hb
  | removeTemplate template =>
    cases h
    have hnames : (removeTemplate cls template c).nameToItem = c.nameToItem := rfl
    refine ⟨hsame rfl hnames, fun n objects _ hb => ?_⟩
    rw [hnames]
    simpa [ItemsCall.defines] using hb

theorem ItemsRun.kept {trace : List (ItemCollection × ItemsCall)} (h : ItemsRun cls format c₀ trace c) (h0 : Indexed cls c₀)
    (hs : ∀ t ∈ trace, t.2.Safe cls format t.1) : Indexed cls c ∧ ∀ n, c₀.nameToItem.get? n = none →
      (∀ t ∈ trace, ¬ t.2.Removes cls n) → Best cls n (trace.flatMap fun t => t.2.defines cls format t.1) (c.nameToItem.get? n) := by
  induction h with
  | nil =>
    refine ⟨h0, fun n hn _ => ?_⟩
    rw [hn]
    exact ⟨fun _ y hy => absurd hy List.not_mem_nil, fun x e => (Option.some_ne_none x e.symm).elim⟩
  | snoc _ hc ih =>
    obtain ⟨hi, hb⟩ := ih fun t ht => hs t (List.mem_append_left _ ht)
    obtain ⟨h1, h2⟩ := call_step hi (hs _ (List.mem_append_right _ List.mem_cons_self)) hc
    refine ⟨h1, fun n hn hr => ?_⟩
    rw [List.flatMap_append, List.flatMap_singleton]
    refine h2 n _ (hr _ (List.mem_append_right _ List.mem_cons_self)) ?_
    exact hb n hn fun t ht => hr t (List.mem_append_left _ ht)

theorem indexed_empty : Indexed cls noItems := by
  refine ⟨fun u x h => ?_, fun n x => ⟨fun h => ?_, fun h => ?_⟩⟩
  · cases h
  · cases h
  · cases h.1

/-- After safe calls the index maps the names of the items of the collection to
them, and has the best of the objects of a name since the name was free. -/
theorem nameToItem_exact {before after : List (ItemCollection × ItemsCall)} (h₀ : ItemsRun cls format noItems before c₀)
    (h : ItemsRun cls format c₀ after c) (hs : ∀ t ∈ before ++ after, t.2.Safe cls format t.1) :
    (∀ n x, c.nameToItem.get? n = some x ↔ x ∈ c.items.values ∧ getName cls true x = n) ∧
    ∀ n, c₀.nameToItem.get? n = none → (∀ t ∈ after, ¬ t.2.Removes cls n) →
      Best cls n (after.flatMap fun t => t.2.defines cls format t.1) (c.nameToItem.get? n) := by
  obtain ⟨hi0, -⟩ := h₀.kept indexed_empty fun t ht => hs t (List.mem_append_left _ ht)
  obtain ⟨hi, hb⟩ := h.kept hi0 fun t ht => hs t (List.mem_append_right _ ht)
  refine ⟨fun n x => ?_, hb⟩
  rw [hi.names, Dict.mem_values]
  refine and_congr_left fun _ => ⟨fun hx => ⟨_, hx⟩, fun ⟨u, hu⟩ => ?_⟩
  rw [hi.keys u x hu]
  exact hu

end

/-! ## Services -/

section
variable {c : ItemCollection} {x : ConfigItem}

theorem getName_service (h : x.isATemplate = false) : getName .service true x = .pair x.getHostName x.serviceName := by
  unfold getName
  simp only [ItemClass.service, h, Bool.false_eq_true, if_false, if_true]
  rfl

theorem removedKey_service (x : ConfigItem) (hostName serviceDescription : List Char) :
    removedKey .service x ≠ some (.pair hostName serviceDescription) := by
  unfold removedKey
  have hp : x.property ItemClass.service.myNameProperty = (x.attr "service_description").map .text := rfl
  rw [hp]
  cases x.attr "service_description" with
  | none => exact fun e => nomatch e
  | some description =>
    simp only [Option.map_some]
    split
    · exact fun e => nomatch e
    · exact fun e => nomatch e

end

/-- `"%d" % idx`. -/
def decimal (_ : List Char) (idx : Int) : Except Exn (List Char) :=
  .ok (if idx < 0 then '-' :: Nat.toDigits 10 idx.natAbs else Nat.toDigits 10 idx.natAbs)

def preferredHost : ConfigItem := ⟨0, true, some 5, [("host_name", "srv".toList)]⟩

def otherHost : ConfigItem := ⟨1, true, none, [("host_name", "srv".toList)]⟩

def oneHostAdded : ItemCollection where
  items := Dict.empty.set 0 preferredHost
  nameToItem := Dict.empty.set (.text "srv".toList) preferredHost
  nextUuid := 1

/-- The host with the lower definition order is kept. -/
theorem preferred_kept : preferredHost ∈ oneHostAdded.items.values ∧ getName .host true preferredHost = .text "srv".toList := by
  have hrun : ItemsRun .host decimal noItems ([] ++ [(noItems, .addItem preferredHost true)] ++ [(oneHostAdded, .addItem otherHost true)])
      { oneHostAdded with nextUuid := 2 } := (ItemsRun.nil.snoc rfl).snoc rfl
  have hfirst : PlaceSafe .host noItems true preferredHost := by
    refine ⟨rfl, fun y hy => ?_, .inl rfl, rfl, fun y hy => ?_⟩
    · cases hy
    · cases hy
  have hsecond : PlaceSafe .host oneHostAdded true otherHost := by
    refine ⟨rfl, fun y hy => ?_, .inl rfl, rfl, fun y hy _ hle => ?_⟩
    · cases hy
    · cases hy
      exact absurd hle (by decide)
  have hsafe : ∀ t ∈ ([] ++ [(noItems, .addItem preferredHost true)] ++ [(oneHostAdded, .addItem otherHost true)] :
      List (ItemCollection × ItemsCall)), t.2.Safe .host decimal t.1 := by
    intro t ht
    simp only [List.nil_append, List.singleton_append, List.mem_cons, List.not_mem_nil, or_false] at ht
    rcases ht with rfl | rfl
    · intro objects ho
      cases ho
      exact ⟨hfirst, fun _ _ => trivial⟩
    · intro objects ho
      cases ho
      exact ⟨hsecond, fun _ _ => trivial⟩
  exact ((nameToItem_exact ItemsRun.nil hrun hsafe).1 _ _).mp rfl

def webService : ConfigItem := ⟨0, true, none, [("host_name", "srv".toList), ("service_description", "web".toList)]⟩

def webAdded : ItemCollection where
  items := Dict.empty.set 0 webService
  nameToItem := Dict.empty.set (.pair "srv".toList "web".toList) webService
  nextUuid := 1

/-- A service that is added and removed stays in the index. -/
theorem removed_stays : ∃ trace c, ItemsRun .service decimal noItems trace c ∧
    ¬ (∀ n x, c.nameToItem.get? n = some x ↔ x ∈ c.items.values ∧ getName .service true x = n) := by
  have hrun : ItemsRun .service decimal noItems ([] ++ [(noItems, .addItem webService true)] ++ [(webAdded, .removeItem webService)])
      (removeItem .service webService webAdded) := (ItemsRun.nil.snoc rfl).snoc rfl
  refine ⟨_, _, hrun, fun h => ?_⟩
  have hgone := ((h (.pair "srv".toList "web".toList) webService).mp rfl).1
  exact absurd hgone List.not_mem_nil

end Alignak
