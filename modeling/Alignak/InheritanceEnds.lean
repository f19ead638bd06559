import Alignak.Customs

/-!
# The inheritance ends

Where no template inherits from itself through another one, the links have a
rank and the recursions return.
-/

namespace Alignak

open Relation

namespace Items

/-- `x` names the template `t` in its `use`. -/
def Uses (S : Items) (x t : Nat) : Prop := ∃ name ∈ (S.obj x).getTemplates, S.nameToTemplate name = some t

def UsesOther (S : Items) (x t : Nat) : Prop := S.Uses x t ∧ x ≠ t

/-- What parsing the objects leaves: the objects are stored once and not linked
yet, the values of a property are of one kind, and a custom variable is not a
property with a `+` value. -/
structure Parsed (S : Items) : Prop where
  nodup : (S.items ++ S.templates).Nodup
  named : ∀ name t, S.nameToTemplate name = some t → t ∈ S.templates
  unlinked : ∀ x, (S.obj x).templates = []
  kind : ∀ prop ∈ S.properties, ∃ k : Kind, (∀ x, k.Fits (S.obj x) prop) ∧
    (prop = "register" → k = .scalar ∧ ∀ x, (S.obj x).attr prop ≠ some (.str "null"))
  customs : ∀ key, (∀ x, (S.obj x).plus.get? key = none) ∨ ∀ x, (S.obj x).customs.get? key = none

/-! ## Linking -/

structure SameDefinition (o o' : Item) : Prop where
  isATemplate : o'.isATemplate = o.isATemplate
  use : o'.use = o.use
  attr : o'.attr = o.attr
  plus : o'.plus = o.plus
  customs : o'.customs = o.customs

theorem SameDefinition.refl (o : Item) : SameDefinition o o := ⟨rfl, rfl, rfl, rfl, rfl⟩

theorem SameDefinition.trans {o o' o'' : Item} (h : SameDefinition o o') (h' : SameDefinition o' o'') :
    SameDefinition o o'' :=
  ⟨h'.isATemplate.trans h.isATemplate, h'.use.trans h.use, h'.attr.trans h.attr, h'.plus.trans h.plus,
    h'.customs.trans h.customs⟩

theorem SameDefinition.getTemplates {o o' : Item} (h : SameDefinition o o') : o'.getTemplates = o.getTemplates := by
  unfold Item.getTemplates; rw [h.use]

structure SameStore (S S' : Items) : Prop where
  items : S'.items = S.items
  templates : S'.templates = S.templates
  properties : S'.properties = S.properties
  nameToTemplate : S'.nameToTemplate = S.nameToTemplate
  obj : ∀ x, SameDefinition (S.obj x) (S'.obj x)
  conf : S.confIsCorrect = false → S'.confIsCorrect = false

theorem SameStore.refl (S : Items) : SameStore S S := ⟨rfl, rfl, rfl, rfl, fun _ => SameDefinition.refl _, id⟩

theorem SameStore.trans {S S' S'' : Items} (h : SameStore S S') (h' : SameStore S' S'') : SameStore S S'' :=
  ⟨h'.items.trans h.items, h'.templates.trans h.templates, h'.properties.trans h.properties,
    h'.nameToTemplate.trans h.nameToTemplate, fun x => (h.obj x).trans (h'.obj x), fun hc => h'.conf (h.conf hc)⟩

@[simp] theorem setObj_self (S : Items) (x : Nat) (o : Item) : (S.setObj x o).obj x = o := Function.update_self ..

theorem setObj_ne (S : Items) {x y : Nat} (o : Item) (h : y ≠ x) : (S.setObj x o).obj y = S.obj y :=
  Function.update_of_ne h _ _

theorem SameStore.setObj {S : Items} {x : Nat} {o : Item} (h : SameDefinition (S.obj x) o) :
    SameStore S (S.setObj x o) := by
  refine ⟨rfl, rfl, rfl, rfl, fun y => ?_, id⟩
  by_cases hy : y = x
  · subst hy; rw [setObj_self]; exact h
  · rw [setObj_ne S o hy]; exact SameDefinition.refl _

section
variable {S : Items} {x : Nat}

theorem linkifyTemplate_same (name : String) : SameStore S (linkifyTemplate x S name) := by
  unfold linkifyTemplate
  cases S.nameToTemplate name with
  | none => exact SameStore.setObj ⟨rfl, rfl, rfl, rfl, rfl⟩
  | some t =>
    by_cases ht : t = x
    · simp only [if_pos ht]
      exact ⟨rfl, rfl, rfl, rfl, fun _ => SameDefinition.refl _, fun _ => rfl⟩
    · simp only [if_neg ht]
      by_cases hm : t ∈ (S.obj x).templates
      · rw [if_pos hm]; exact SameStore.refl S
      · rw [if_neg hm]; exact SameStore.setObj ⟨rfl, rfl, rfl, rfl, rfl⟩

theorem linkifyTemplate_ne (name : String) {y : Nat} (hy : y ≠ x) : (linkifyTemplate x S name).obj y = S.obj y := by
  unfold linkifyTemplate
  cases S.nameToTemplate name with
  | none => exact setObj_ne S _ hy
  | some t =>
    by_cases ht : t = x
    · simp only [if_pos ht]; rfl
    · simp only [if_neg ht]
      by_cases hm : t ∈ (S.obj x).templates
      · rw [if_pos hm]
      · rw [if_neg hm]; exact setObj_ne S _ hy

theorem mem_linkifyTemplate (name : String) {t : Nat} :
    t ∈ ((linkifyTemplate x S name).obj x).templates ↔
      t ∈ (S.obj x).templates ∨ (S.nameToTemplate name = some t ∧ t ≠ x) := by
  unfold linkifyTemplate
  cases hn : S.nameToTemplate name with
  | none => simp
  | some t' =>
    by_cases ht : t' = x
    · simp only [if_pos ht]
      subst ht
      refine ⟨Or.inl, fun h => h.elim id fun h => absurd (Option.some_injective _ h.1).symm h.2⟩
    · simp only [if_neg ht]
      by_cases hm : t' ∈ (S.obj x).templates
      · rw [if_pos hm]
        refine ⟨Or.inl, fun h => h.elim id fun h => ?_⟩
        rw [← Option.some_injective _ h.1]; exact hm
      · rw [if_neg hm, setObj_self]
        simp only [List.mem_append, List.mem_singleton, Option.some.injEq]
        refine or_congr Iff.rfl ⟨fun h => ⟨h.symm, h ▸ ht⟩, fun h => h.1.symm⟩

theorem linkifyTemplate_reports {name : String} (h : S.nameToTemplate name = some x) :
    (linkifyTemplate x S name).confIsCorrect = false := by
  unfold linkifyTemplate
  simp only [h, if_true]
  rfl

theorem foldl_linkifyTemplate : ∀ (names : List String) (S : Items),
    SameStore S (names.foldl (linkifyTemplate x) S) ∧
    (∀ y, y ≠ x → (names.foldl (linkifyTemplate x) S).obj y = S.obj y) ∧
    (∀ t, t ∈ ((names.foldl (linkifyTemplate x) S).obj x).templates ↔
      t ∈ (S.obj x).templates ∨ ∃ name ∈ names, S.nameToTemplate name = some t ∧ t ≠ x) ∧
    ((∃ name ∈ names, S.nameToTemplate name = some x) → (names.foldl (linkifyTemplate x) S).confIsCorrect = false)
  | [], S => ⟨SameStore.refl S, fun _ _ => rfl, by simp, by simp⟩
  | name :: names, S => by
    obtain ⟨h1, h2, h3, h4⟩ := foldl_linkifyTemplate names (linkifyTemplate x S name)
    have hs : SameStore S (linkifyTemplate x S name) := linkifyTemplate_same name
    rw [List.foldl_cons]
    refine ⟨hs.trans h1, fun y hy => (h2 y hy).trans (linkifyTemplate_ne name hy), fun t => ?_, fun h => ?_⟩
    · rw [h3, mem_linkifyTemplate, hs.nameToTemplate, or_assoc]
      simp only [List.mem_cons, exists_eq_or_imp]
    · obtain ⟨n, hn, hx⟩ := h
      rcases List.mem_cons.mp hn with hn | hn
      · subst hn; exact h1.conf (linkifyTemplate_reports hx)
      · exact h4 ⟨n, hn, by rw [hs.nameToTemplate]; exact hx⟩

theorem linkifyItemTemplates_spec (S : Items) (x : Nat) :
    SameStore S (linkifyItemTemplates S x) ∧
    (∀ y, y ≠ x → (linkifyItemTemplates S x).obj y = S.obj y) ∧
    (∀ t, t ∈ ((linkifyItemTemplates S x).obj x).templates ↔ S.UsesOther x t) ∧
    (S.Uses x x → (linkifyItemTemplates S x).confIsCorrect = false) := by
  have hs : SameStore S (S.setObj x { S.obj x with templates := [] }) := SameStore.setObj ⟨rfl, rfl, rfl, rfl, rfl⟩
  obtain ⟨h1, h2, h3, h4⟩ := foldl_linkifyTemplate (x := x) (S.obj x).getTemplates
    (S.setObj x { S.obj x with templates := [] })
  unfold linkifyItemTemplates
  refine ⟨hs.trans h1, fun y hy => (h2 y hy).trans (setObj_ne S _ hy), fun t => ?_, fun h => h4 ?_⟩
  · rw [h3, setObj_self]
    constructor
    · intro h
      rcases h with h | ⟨name, hn, ht, hne⟩
      · cases h
      · exact ⟨⟨name, hn, ht⟩, hne.symm⟩
    · intro ⟨⟨name, hn, ht⟩, hne⟩
      exact Or.inr ⟨name, hn, ht, hne.symm⟩
  · obtain ⟨name, hn, ht⟩ := h
    exact ⟨name, hn, ht⟩

theorem SameStore.uses {S S' : Items} (h : SameStore S S') (x t : Nat) : S'.Uses x t ↔ S.Uses x t := by
  unfold Uses
  rw [(h.obj x).getTemplates, h.nameToTemplate]

theorem SameStore.usesOther {S S' : Items} (h : SameStore S S') (x t : Nat) : S'.UsesOther x t ↔ S.UsesOther x t :=
  and_congr (h.uses x t) Iff.rfl

theorem foldl_linkify : ∀ (xs : List Nat) (S : Items),
    SameStore S (xs.foldl linkifyItemTemplates S) ∧
    (∀ y, y ∉ xs → (xs.foldl linkifyItemTemplates S).obj y = S.obj y) ∧
    (∀ y ∈ xs, ∀ t, t ∈ ((xs.foldl linkifyItemTemplates S).obj y).templates ↔ S.UsesOther y t) ∧
    ((∃ y ∈ xs, S.Uses y y) → (xs.foldl linkifyItemTemplates S).confIsCorrect = false)
  | [], S => ⟨SameStore.refl S, fun _ _ => rfl, fun _ h => absurd h List.not_mem_nil,
      fun ⟨_, h, _⟩ => absurd h List.not_mem_nil⟩
  | x :: xs, S => by
    obtain ⟨g1, g2, g3, g4⟩ := linkifyItemTemplates_spec S x
    obtain ⟨h1, h2, h3, h4⟩ := foldl_linkify xs (linkifyItemTemplates S x)
    rw [List.foldl_cons]
    refine ⟨g1.trans h1, fun y hy => ?_, fun y hy t => ?_, fun ⟨y, hy, hu⟩ => ?_⟩
    · rw [List.mem_cons, not_or] at hy
      exact (h2 y hy.2).trans (g2 y hy.1)
    · by_cases hm : y ∈ xs
      · rw [h3 y hm, g1.usesOther]
      · have hyx : y = x := (List.mem_cons.mp hy).resolve_right hm
        subst hyx
        rw [h2 y hm, g3]
    · rcases List.mem_cons.mp hy with hy | hy
      · subst hy; exact h1.conf (g4 hu)
      · exact h4 ⟨y, hy, (g1.uses y y).mpr hu⟩

def Linked (S S' : Items) : Prop :=
  SameStore S S' ∧ (∀ x t, t ∈ (S'.obj x).templates ↔ x ∈ S.items ++ S.templates ∧ S.UsesOther x t) ∧
    ((∃ t ∈ S.templates, S.Uses t t) → S'.confIsCorrect = false)

theorem linked (hS : S.Parsed) :
    Linked S ((S.templates.foldl linkifyItemTemplates S).items.foldl linkifyItemTemplates
      (S.templates.foldl linkifyItemTemplates S)) := by
  obtain ⟨g1, g2, g3, g4⟩ := foldl_linkify S.templates S
  rw [g1.items]
  obtain ⟨h1, h2, h3, _⟩ := foldl_linkify S.items (S.templates.foldl linkifyItemTemplates S)
  refine ⟨g1.trans h1, fun x t => ?_, fun h => h1.conf (g4 h)⟩
  by_cases hi : x ∈ S.items
  · rw [h3 x hi, g1.usesOther]
    exact ⟨fun h => ⟨List.mem_append_left _ hi, h⟩, And.right⟩
  · rw [h2 x hi]
    by_cases ht : x ∈ S.templates
    · rw [g3 x ht]
      exact ⟨fun h => ⟨List.mem_append_right _ ht, h⟩, And.right⟩
    · rw [g2 x ht, hS.unlinked]
      exact ⟨fun h => absurd h List.not_mem_nil, fun h => absurd h.1 (by simp [hi, ht])⟩

/-! ## Tags -/

theorem tagsOfTemplates_ok {S : Items} {recurse : Nat → Except Exn (List String)} : ∀ {ts : List Nat},
    (∀ t ∈ ts, ∃ tags, recurse t = .ok tags) → ∃ tags, tagsOfTemplates recurse S ts = .ok tags
  | [], _ => ⟨[], rfl⟩
  | t :: ts, h => by
    obtain ⟨a, ha⟩ := h t List.mem_cons_self
    obtain ⟨b, hb⟩ := tagsOfTemplates_ok fun s hs => h s (List.mem_cons_of_mem _ hs)
    unfold tagsOfTemplates
    rw [ha, hb]
    exact ⟨_, rfl⟩

theorem getAllTags_ok {rank : Nat → Nat} (hrank : ∀ x, ∀ t ∈ (S.obj x).templates, rank t < rank x) :
    ∀ (n x : Nat), rank x < n → ∃ tags, getAllTags S n x = .ok tags
  | 0, _, h => absurd h (Nat.not_lt_zero _)
  | n + 1, x, h => by
    have hall : ∀ t ∈ (S.obj x).templates, ∃ tags, getAllTags S n t = .ok tags := fun t ht =>
      getAllTags_ok hrank n t (lt_of_lt_of_le (hrank x t ht) (Nat.lt_succ_iff.mp h))
    obtain ⟨tags, ht⟩ := tagsOfTemplates_ok (S := S) hall
    unfold getAllTags
    rw [ht]
    exact ⟨_, rfl⟩

def SameLinks (S S' : Items) : Prop :=
  SameStore S S' ∧ ∀ x, (S'.obj x).templates = (S.obj x).templates

theorem setTags_same (x : Nat) (tags : List String) : SameLinks S (S.setObj x { S.obj x with tags := tags }) := by
  refine ⟨SameStore.setObj ⟨rfl, rfl, rfl, rfl, rfl⟩, fun y => ?_⟩
  by_cases hy : y = x
  · subst hy; rw [setObj_self]
  · rw [setObj_ne S _ hy]

theorem tagItems_same {n : Nat} : ∀ {xs : List Nat} {S S' : Items}, tagItems n xs S = .ok S' → SameLinks S S'
  | [], S, S', h => by cases h; exact ⟨SameStore.refl S, fun _ => rfl⟩
  | x :: xs, S, S', h => by
    unfold tagItems at h
    cases ht : getAllTags S n x with
    | error e => rw [ht] at h; cases h
    | ok tags =>
      rw [ht] at h
      have h1 := setTags_same (S := S) x tags
      have h2 := tagItems_same h
      exact ⟨h1.1.trans h2.1, fun y => (h2.2 y).trans (h1.2 y)⟩

theorem tagItems_ok {rank : Nat → Nat} {n : Nat} (hn : ∀ x, rank x < n) : ∀ {xs : List Nat} {S : Items},
    (∀ x, ∀ t ∈ (S.obj x).templates, rank t < rank x) → ∃ S', tagItems n xs S = .ok S'
  | [], S, _ => ⟨S, rfl⟩
  | x :: xs, S, hrank => by
    obtain ⟨tags, ht⟩ := getAllTags_ok hrank n x (hn x)
    have h1 := setTags_same (S := S) x tags
    have hrank' : ∀ y, ∀ t ∈ ((S.setObj x { S.obj x with tags := tags }).obj y).templates, rank t < rank y :=
      fun y t h => hrank y t (by rw [← h1.2 y]; exact h)
    obtain ⟨S', hS'⟩ : ∃ S', tagItems n xs (S.setObj x { S.obj x with tags := tags }) = .ok S' := tagItems_ok hn hrank'
    unfold tagItems
    rw [ht]
    exact ⟨S', hS'⟩

theorem linkifyTemplates_linked (hS : S.Parsed) {n : Nat} {S' : Items} (h : S.linkifyTemplates n = .ok S') :
    Linked S S' := by
  obtain ⟨g1, g2, g3⟩ := linked hS
  obtain ⟨h1, h2⟩ := tagItems_same h
  exact ⟨g1.trans h1, fun x t => by rw [h2]; exact g2 x t, fun h => h1.conf (g3 h)⟩

end

end Items

namespace Heap

/-! ## The properties -/

variable {o : Item} {v : Value} {n : Nat}

section
variable {H₀ : Heap} {rank : Nat → Nat} {prop : String} {k : Kind}

structure KeepsKind (prop : String) (k : Kind) (o o' : Item) : Prop where
  same : SameBut prop o o'
  fits : k.Fits o' prop
  plus : o.plus.get? prop = none → o'.plus.get? prop = none

theorem Resolved.keepsKind {o' : Item} (h : Resolved prop o v o') (hv : k.Has v) :
    KeepsKind prop k o o' := by
  refine ⟨h.same, ⟨fun w hw => ?_, fun pl hpl => ?_⟩, fun _ => h.plus⟩
  · rw [h.attr] at hw
    by_cases hn : v = .none
    · rw [if_pos hn] at hw; cases hw
    · rw [if_neg hn] at hw
      cases hw
      exact ⟨hv, h.plus⟩
  · rw [h.plus] at hpl; cases hpl

theorem KeepsKind.trans {o' o'' : Item} (h : KeepsKind prop k o o') (h' : KeepsKind prop k o' o'') :
    KeepsKind prop k o o'' := ⟨h.same.trans h'.same, h'.fits, fun hp => h'.plus (h.plus hp)⟩

theorem values_of_kind : ∀ {ts : List Nat} {vs : List Value}, List.Forall₂ (fun _ v => k.Has v) ts vs →
    ∀ v ∈ vs, k.Has v
  | [], [], _, _, h => absurd h List.not_mem_nil
  | _ :: _, _ :: _, .cons hv hvs, w, h => (List.mem_cons.mp h).elim (fun e => e ▸ hv) (values_of_kind hvs w)

theorem kind_has_none : k.Has .none := by
  cases k with
  | list => exact Or.inl rfl
  | scalar => exact Or.inl rfl

/-- While `x` is walked: the others keep their kind, and only those of a lower rank have changed. -/
def OthersKeepKind (H₀ : Heap) (rank : Nat → Nat) (prop : String) (k : Kind) (x : Nat) (H H' : Heap) : Prop :=
  (∀ y, y ≠ x → KeepsKind prop k (H₀ y) (H y) → KeepsKind prop k (H₀ y) (H' y)) ∧
    ∀ y, y ≠ x → rank x ≤ rank y → H' y = H y

theorem OthersKeepKind.set {x : Nat} {H H' : Heap} (h : OthersKeepKind H₀ rank prop k x H H') (o : Item) :
    OthersKeepKind H₀ rank prop k x H (H'.set x o) :=
  ⟨fun y hy hk => by rw [set_ne o hy]; exact h.1 y hy hk, fun y hy hr => (set_ne o hy).trans (h.2 y hy hr)⟩

theorem OthersKeepKind.all {x : Nat} {H H' : Heap} (h : OthersKeepKind H₀ rank prop k x H H')
    (hv : k.Has v) (hr : Resolved prop (H x) v (H' x)) (y : Nat) (hy : KeepsKind prop k (H₀ y) (H y)) :
    KeepsKind prop k (H₀ y) (H' y) := by
  by_cases hyx : y = x
  · subst hyx; exact hy.trans (hr.keepsKind hv)
  · exact h.1 y hyx hy

theorem getProperty_ok (hrank : ∀ x, ∀ t ∈ (H₀ x).templates, rank t < rank x) :
    ∀ (n x : Nat) (H : Heap), rank x < n → (∀ y, rank y ≤ rank x → KeepsKind prop k (H₀ y) (H y)) →
    ∃ v H', getPropertyByInheritance prop n H x = .ok (v, H') ∧ k.Has v ∧
      (∀ y, KeepsKind prop k (H₀ y) (H y) → KeepsKind prop k (H₀ y) (H' y)) ∧
      ∀ y, y ≠ x → rank x ≤ rank y → H' y = H y
  | 0, x, H, h, _ => absurd h (Nat.not_lt_zero _)
  | n + 1, x, H, hn, hH => by
    have hHx := hH x le_rfl
    have hfx := hHx.fits
    unfold getPropertyByInheritance
    by_cases hp : prop = "register"
    · rw [if_pos hp]
      exact ⟨.none, H, rfl, kind_has_none, fun _ h => h, fun _ _ _ => rfl⟩
    · rw [if_neg hp]
      cases ha : (H x).attr prop with
      | some v =>
        have hplus : (H x).hasPlus prop = false := by
          unfold Item.hasPlus Dict.contains
          rw [(hfx.attr v ha).2]; rfl
        simp only [hplus, Bool.false_eq_true, if_false]
        exact ⟨_, H, rfl, has_clean (hfx.attr v ha).1, fun _ h => h, fun _ _ _ => rfl⟩
      | none =>
        have htpl : (H x).templates = (H₀ x).templates := hHx.same.templates
        have hrec : ∀ t, rank t < rank x → ∀ H', OthersKeepKind H₀ rank prop k x H H' →
            ∃ v H'', getPropertyByInheritance prop n H' t = .ok (v, H'') ∧
              OthersKeepKind H₀ rank prop k x H H'' ∧ H'' x = H' x ∧ k.Has v := by
          intro t ht H' hI
          have hlow : ∀ y, rank y ≤ rank t → KeepsKind prop k (H₀ y) (H' y) := by
            intro y hy
            have hlt : rank y < rank x := lt_of_le_of_lt hy ht
            have hyx : y ≠ x := fun h => by rw [h] at hlt; exact lt_irrefl _ hlt
            exact hI.1 y hyx (hH y hlt.le)
          obtain ⟨v, H'', hr, hv, hkeep, hframe⟩ := getProperty_ok hrank n t H' (by omega) hlow
          have htx : x ≠ t := fun h => by rw [h] at ht; exact lt_irrefl _ ht
          refine ⟨v, H'', hr, ⟨fun y hy h => hkeep y (hI.1 y hy h), fun y hy h => ?_⟩, hframe x htx ht.le, hv⟩
          have hyt : y ≠ t := fun e => by rw [e] at h; exact absurd ht (not_lt.mpr h)
          exact (hframe y hyt (ht.le.trans h)).trans (hI.2 y hy h)
        obtain ⟨vs, res, H₁, hvs, hw, hI, hd⟩ := walk_spec hfx ha (fun H' o' h => h.set o')
          (fun _ _ hv => hv) (fun _ => ⟨.none, kind_has_none⟩) hrec
          (H₀ x).templates [] H (fun a h => absurd h List.not_mem_nil) rfl
          ⟨fun _ _ h => h, fun _ _ _ => rfl⟩ (Walkable.of_all fun t ht => hrank x t ht)
        rw [List.nil_append] at hd
        simp only [htpl, hw, bind, Except.bind]
        have hv := has_combine hfx (values_of_kind hvs)
        cases res with
        | some v =>
          obtain ⟨rfl, hres⟩ := hd
          exact ⟨_, H₁, rfl, hv, hI.all hv hres, hI.2⟩
        | none =>
          obtain ⟨o', he, hres⟩ := end_walk hfx ha (Prod.ext rfl hd.1) hd.2
          have hI' := hI.set o'
          refine ⟨_, _, he, hv, hI'.all hv ?_, hI'.2⟩
          rw [set_self]; exact hres

theorem KeepsKind.refl (h : k.Fits o prop) : KeepsKind prop k o o := ⟨SameBut.refl prop o, h, id⟩

theorem inheritProperty_ok (hrank : ∀ x, ∀ t ∈ (H₀ x).templates, rank t < rank x) {x : Nat} {H : Heap}
    (hn : rank x < n) (hH : ∀ y, KeepsKind prop k (H₀ y) (H y)) :
    ∃ H', inheritProperty n prop H x = .ok H' ∧ ∀ y, KeepsKind prop k (H₀ y) (H' y) := by
  obtain ⟨v, H₁, hr, _, hkeep, _⟩ := getProperty_ok hrank n x H hn fun y _ => hH y
  have hH1 : ∀ y, KeepsKind prop k (H₀ y) (H₁ y) := fun y => hkeep y (hH y)
  unfold inheritProperty
  simp only [hr, bind, Except.bind]
  by_cases hnull : (H₁ x).attr prop = some (.str "null")
  · rw [if_pos hnull]
    refine ⟨_, rfl, fun y => ?_⟩
    by_cases hy : y = x
    · subst hy
      rw [set_self]
      refine ⟨(hH1 y).same.trans (SameBut.delAttr prop _), ⟨fun v h => ?_, (hH1 y).fits.plus⟩, (hH1 y).plus⟩
      rw [show ((H₁ y).delAttr prop).attr prop = none from Function.update_self ..] at h
      cases h
    · rw [set_ne _ hy]; exact hH1 y
  · rw [if_neg hnull]
    exact ⟨H₁, rfl, hH1⟩

theorem foldInherit_ok (hrank : ∀ x, ∀ t ∈ (H₀ x).templates, rank t < rank x) (hn : ∀ x, rank x < n)
    (xs : List Nat) (hf : ∀ y, k.Fits (H₀ y) prop) :
    ∃ H', xs.foldlM (inheritProperty n prop) H₀ = .ok H' ∧ ∀ y, KeepsKind prop k (H₀ y) (H' y) :=
  foldlM_ok (f := inheritProperty n prop) (I := fun H => ∀ y, KeepsKind prop k (H₀ y) (H y)) xs H₀
    (fun x _ _ hH => inheritProperty_ok hrank (hn x) hH) fun y => KeepsKind.refl (hf y)

end

/-! ## Calls that return change no link -/

def SameTemplates (H H' : Heap) : Prop := ∀ y, (H' y).templates = (H y).templates

section
variable {H H' H'' : Heap} {x : Nat} {prop : String}

theorem SameTemplates.refl (H : Heap) : SameTemplates H H := fun _ => rfl

theorem SameTemplates.trans (h : SameTemplates H H') (h' : SameTemplates H' H'') : SameTemplates H H'' :=
  fun y => (h' y).trans (h y)

theorem SameTemplates.set (ho : o.templates = (H x).templates) : SameTemplates H (H.set x o) := by
  intro y
  by_cases hy : y = x
  · subst hy; rw [set_self, ho]
  · rw [set_ne o hy]

end

/-! A state that the change of the property of one object keeps is kept by the
walk and by the calls around it. -/

/-- The change of an object in its own walk. -/
structure Sets (prop : String) (o o' : Item) : Prop extends SameBut prop o o' where
  plus : o.plus.get? prop = none → o'.plus.get? prop = none

theorem Sets.setAttr (prop : String) (o : Item) (v : Value) : Sets prop o (o.setAttr prop v) := ⟨SameBut.setAttr prop o v, id⟩

theorem Sets.setPlus (prop : String) (o : Item) (v : Value) : Sets prop o ((o.delPlus prop).setAttr prop v) :=
  ⟨(SameBut.delPlus prop o).trans (SameBut.setAttr prop _ v), fun _ => Dict.get?_erase_self⟩

section
variable {I : Heap → Prop} {W : Nat → Prop} {H H' : Heap} {x : Nat} {prop : String}

theorem walkTemplates_keeps {recurse : Heap → Nat → Except Exn (Value × Heap)}
    (hset : ∀ H o, I H → Sets prop (H x) o → I (H.set x o))
    (hrec : ∀ H t v H', I H → recurse H t = .ok (v, H') → I H') (ts : List Nat) (H : Heap) (res : Option Value)
    (H' : Heap) (hI : I H) (h : walkTemplates recurse x prop ts H = .ok (res, H')) : I H' := by
  induction ts generalizing H with
  | nil => cases h; exact hI
  | cons t ts ih =>
    unfold walkTemplates at h
    cases hr : recurse H t with
    | error e => rw [hr] at h; cases h
    | ok p =>
      obtain ⟨v, H₁⟩ := p
      have h1 : I H₁ := hrec H t v H₁ hI hr
      simp only [hr, bind, Except.bind] at h
      by_cases hvoid : v.isVoid = true
      · rw [if_pos hvoid] at h
        exact ih H₁ h1 h
      · rw [if_neg hvoid] at h
        cases hm : mergeValue (H₁ x) prop v with
        | error e => rw [hm] at h; cases h
        | ok w =>
          have h2 : I (H₁.set x ((H₁ x).setAttr prop w)) := hset _ _ h1 (Sets.setAttr prop _ w)
          simp only [hm] at h
          by_cases hadd : v.isAdditive = true
          · rw [if_pos hadd] at h
            exact ih _ h2 h
          · rw [if_neg hadd, set_self] at h
            cases hp : ((H₁ x).setAttr prop w).plus.get? prop with
            | none => rw [hp] at h; cases h; exact h2
            | some pl =>
              rw [hp] at h
              cases ha : addPlus ((H₁ x).setAttr prop w) w pl with
              | error e => simp only [ha] at h; cases h
              | ok w' =>
                simp only [ha] at h
                cases h
                refine hset _ _ h2 ?_
                rw [set_self]
                exact Sets.setPlus prop _ w'

theorem endOfTemplates_keeps (hset : ∀ H o, I H → Sets prop (H x) o → I (H.set x o)) (hI : I H)
    (h : endOfTemplates H x prop = .ok (v, H')) : I H' := by
  unfold endOfTemplates at h
  cases hp : (H x).plus.get? prop with
  | none => simp only [hp] at h; cases h; exact hI
  | some pl =>
    simp only [hp] at h
    cases ht : (((H x).attr prop).getD (.list [])).toList with
    | error e => rw [ht] at h; cases h
    | ok l =>
      rw [ht] at h
      cases h
      exact hset _ _ hI (Sets.setPlus prop _ _)

/-- Only an object of `W`, which had no value, is changed. -/
theorem getProperty_keeps (hset : ∀ H y o, W y → I H → Sets prop (H y) o → I (H.set y o))
    (hW : ∀ H y, I H → (H y).attr prop = none → W y) : ∀ (n : Nat) (H : Heap) (x : Nat)
    (v : Value) (H' : Heap), I H → getPropertyByInheritance prop n H x = .ok (v, H') → I H'
  | 0, _, _, _, _, _, h => by cases h
  | n + 1, H, x, v, H', hI, h => by
    unfold getPropertyByInheritance at h
    by_cases hp : prop = "register"
    · rw [if_pos hp] at h; cases h; exact hI
    · rw [if_neg hp] at h
      cases ha : (H x).attr prop with
      | some w =>
        simp only [ha] at h
        by_cases hpl : (H x).hasPlus prop = true
        · rw [if_pos hpl] at h; cases h
        · rw [if_neg hpl] at h; cases h; exact hI
      | none =>
        simp only [ha] at h
        cases hw : walkTemplates (getPropertyByInheritance prop n) x prop (H x).templates H with
        | error e => rw [hw] at h; cases h
        | ok p =>
          obtain ⟨res, H₁⟩ := p
          have hx : W x := hW H x hI ha
          have h1 : I H₁ := walkTemplates_keeps (fun H o => hset H x o hx)
            (fun H t v H' => getProperty_keeps hset hW n H t v H') _ _ _ _ hI hw
          simp only [hw, bind, Except.bind] at h
          cases res with
          | some w => cases h; exact h1
          | none => exact endOfTemplates_keeps (fun H o => hset H x o hx) h1 h

theorem inheritProperty_calls (h : inheritProperty n prop H x = .ok H') :
    ∃ v H₁, getPropertyByInheritance prop n H x = .ok (v, H₁) ∧
      (H' = H₁ ∨ (H₁ x).attr prop = some (.str "null") ∧ H' = H₁.set x ((H₁ x).delAttr prop)) := by
  unfold inheritProperty at h
  cases hr : getPropertyByInheritance prop n H x with
  | error e => rw [hr] at h; cases h
  | ok p =>
    obtain ⟨v, H₁⟩ := p
    refine ⟨v, H₁, rfl, ?_⟩
    simp only [hr, bind, Except.bind] at h
    by_cases hnull : (H₁ x).attr prop = some (.str "null")
    · rw [if_pos hnull] at h; cases h; exact Or.inr ⟨hnull, rfl⟩
    · rw [if_neg hnull] at h; cases h; exact Or.inl rfl

theorem inheritProperty_keeps (hset : ∀ H y o, I H → Sets prop (H y) o → I (H.set y o)) (hI : I H)
    (h : inheritProperty n prop H x = .ok H') : I H' := by
  obtain ⟨v, H₁, hr, hH'⟩ := inheritProperty_calls h
  have h1 : I H₁ := getProperty_keeps (W := fun _ => True) (fun H y o _ => hset H y o) (fun _ _ _ _ => trivial) n H x v H₁ hI hr
  rcases hH' with rfl | ⟨-, rfl⟩
  · exact h1
  · exact hset _ _ _ h1 ⟨SameBut.delAttr prop _, id⟩

end

section
variable {H H' H'' : Heap} {x : Nat} {prop : String}

theorem inheritProperty_same (h : inheritProperty n prop H x = .ok H') : SameTemplates H H' :=
  inheritProperty_keeps (fun _ _ _ hI ho => hI.trans (SameTemplates.set ho.templates)) (SameTemplates.refl H) h

end

/-! The custom variables: no link and no attribute changes. -/

section
variable {I : Heap → Prop} {H H' : Heap} {x : Nat}
variable (hset : ∀ H H' y, OnlyAt y H H' → I H → I H')
include hset

theorem customsTurn_keeps (hrec : ∀ H x H', I H → getCustomsPropertiesByInheritance n H x = .ok H' → I H')
    {t : Nat} (hI : I H) (h : customsTurn n x H t = .ok H') : I H' := by
  obtain ⟨H₁, h1, h2⟩ := customsTurn_of_ok h
  exact foldlM_of_ok h2 (fun _ _ _ _ h3 => hset _ _ _ (inheritCustom_at h3)) (hrec H t H₁ hI h1)

theorem getCustoms_keeps : ∀ (n : Nat) (H : Heap) (x : Nat) (H' : Heap), I H →
    getCustomsPropertiesByInheritance n H x = .ok H' → I H'
  | 0, _, _, _, _, h => by cases h
  | n + 1, H, x, H', hI, h => by
    obtain ⟨H₁, H₂, h1, h2, rfl⟩ := getCustoms_turns h
    have g1 : I H₁ := foldlM_of_ok h1 (fun _ _ _ _ h4 h3 => customsTurn_keeps hset (getCustoms_keeps n) h3 h4) hI
    have g2 : I H₂ := foldlM_of_ok h2 (fun _ _ _ _ h3 => hset _ _ _ (plusCustom_at h3)) g1
    exact hset _ _ _ (OnlyAt.getAllPlus H₂ x) g2

end

section
variable {H H' : Heap} {x : Nat}

theorem customsTurn_same {t : Nat} (h : customsTurn n x H t = .ok H') : SameTemplates H H' :=
  customsTurn_keeps (fun _ _ _ ho hI => hI.trans ho.only.templates)
    (getCustoms_keeps (fun _ _ _ ho hI => hI.trans ho.only.templates) n) (SameTemplates.refl H) h

theorem getCustoms_same (n : Nat) (H : Heap) (x : Nat) (H' : Heap) (h : getCustomsPropertiesByInheritance n H x = .ok H') :
    SameTemplates H H' :=
  getCustoms_keeps (fun _ _ _ ho hI => hI.trans ho.only.templates) n H x H' (SameTemplates.refl H) h

theorem no_cycle_of_getCustoms {H₀ : Heap} (h0 : SameTemplates H₀ H)
    (h : getCustomsPropertiesByInheritance n H x = .ok H') :
    ¬ TransGen (fun x t => t ∈ (H₀ x).templates) x x := by
  apply no_cycle_of_fuel (P := fun n x => ∃ H H', SameTemplates H₀ H ∧ getCustomsPropertiesByInheritance n H x = .ok H')
    ?_ ⟨H, H', h0, h⟩
  intro n x ⟨H, H', h0, h⟩ t ht
  cases n with
  | zero => cases h
  | succ n =>
    obtain ⟨H₁, _, h1, _⟩ := getCustoms_turns h
    obtain ⟨H₂, H₃, h2, h3⟩ := foldlM_turn (I := SameTemplates H₀) h1
      (fun t _ H₃ H₄ h4 h₃ => h₃.trans (customsTurn_same h4)) h0 t (by rw [h0 x]; exact ht)
    cases hr : getCustomsPropertiesByInheritance n H₂ t with
    | error e => unfold customsTurn at h3; rw [hr] at h3; cases h3
    | ok H₄ => exact ⟨n, Nat.lt_succ_self n, H₂, H₄, h2, hr⟩

end

end Heap

end Alignak
