import Alignak.InheritanceEnds

/-!
# Termination of the inheritance

`inheritance_ends_iff`: linking, tagging and inheriting return, and a template
that inherits from itself is reported, exactly when no template inherits from
itself through another template.
-/

namespace Alignak

open Relation

namespace Items

/-! ## The passes over the properties -/

structure SameShape (S S' : Items) : Prop where
  items : S'.items = S.items
  templates : S'.templates = S.templates
  properties : S'.properties = S.properties
  conf : S'.confIsCorrect = S.confIsCorrect

theorem SameShape.refl (S : Items) : SameShape S S := ⟨rfl, rfl, rfl, rfl⟩

theorem SameShape.trans {S S' S'' : Items} (h : SameShape S S') (h' : SameShape S' S'') : SameShape S S'' :=
  ⟨h'.items.trans h.items, h'.templates.trans h.templates, h'.properties.trans h.properties, h'.conf.trans h.conf⟩

theorem SameShape.withObj {S S' : Items} (h : SameShape S S') (H : Heap) : SameShape S { S' with obj := H } :=
  ⟨h.items, h.templates, h.properties, h.conf⟩

section
variable {S S' : Items} {n : Nat} {prop : String}

theorem applyPartial_shape (h : S.applyPartialInheritance n prop = .ok S') :
    SameShape S S' ∧ (S.items ++ S.templates).foldlM (Heap.inheritProperty n prop) S.obj = .ok S'.obj := by
  unfold applyPartialInheritance at h
  cases hr : (S.items ++ S.templates).foldlM (Heap.inheritProperty n prop) S.obj with
  | error e => rw [hr] at h; cases h
  | ok H => rw [hr] at h; cases h; exact ⟨(SameShape.refl S).withObj H, rfl⟩

theorem applyPartial_eq {H : Heap} (h : (S.items ++ S.templates).foldlM (Heap.inheritProperty n prop) S.obj = .ok H) :
    S.applyPartialInheritance n prop = .ok { S with obj := H } := by
  unfold applyPartialInheritance
  rw [h]; rfl

theorem applyInheritance_shape (h : S.applyInheritance n = .ok S') :
    ∃ S₁, S.properties.foldlM (applyPartialInheritance n) S = .ok S₁ ∧ SameShape S S₁ ∧
      (∀ x, (S₁.obj x).templates = (S.obj x).templates) ∧ SameShape S S' ∧
      (S.items ++ S.templates).foldlM (Heap.getCustomsPropertiesByInheritance n) S₁.obj = .ok S'.obj := by
  unfold applyInheritance at h
  cases hr : S.properties.foldlM (applyPartialInheritance n) S with
  | error e => rw [hr] at h; cases h
  | ok S₁ =>
    have h1 := foldlM_of_ok (I := fun S₂ => SameShape S S₂ ∧ Heap.SameTemplates S.obj S₂.obj) hr
      (fun p _ S₂ S₃ h3 h2 => by
        obtain ⟨hsh, hf⟩ := applyPartial_shape h3
        refine ⟨h2.1.trans hsh, foldlM_of_ok (I := Heap.SameTemplates S.obj) hf
          (fun x _ H H' hH hI => hI.trans (Heap.inheritProperty_same hH)) h2.2⟩)
      ⟨SameShape.refl S, Heap.SameTemplates.refl S.obj⟩
    rw [hr] at h
    simp only [bind, Except.bind, h1.1.items, h1.1.templates] at h
    cases hc : (S.items ++ S.templates).foldlM (Heap.getCustomsPropertiesByInheritance n) S₁.obj with
    | error e => rw [hc] at h; cases h
    | ok H => rw [hc] at h; cases h; exact ⟨S₁, rfl, h1.1, h1.2, ⟨rfl, rfl, h1.1.properties, h1.1.conf⟩, hc⟩

structure Ready (S : Items) (H : Heap) : Prop where
  kind : ∀ prop ∈ S.properties, ∃ k : Kind, ∀ x, k.Fits (H x) prop
  customs : ∀ key, (∀ x, (H x).plus.get? key = none) ∨ ∀ x, (H x).customs.get? key = none

theorem Ready.keeps {H H' : Heap} {k : Kind} (h : Ready S H) (hk : ∀ y, Heap.KeepsKind prop k (H y) (H' y)) :
    Ready S H' := by
  refine ⟨fun p hp => ?_, fun key => ?_⟩
  · by_cases he : p = prop
    · subst he; exact ⟨k, fun x => (hk x).fits⟩
    · obtain ⟨k', hk'⟩ := h.kind p hp
      refine ⟨k', fun x => ⟨fun v hv => ?_, fun pl hpl => ?_⟩⟩
      · rw [((hk x).same.other p he).1] at hv
        rw [((hk x).same.other p he).2]
        exact (hk' x).attr v hv
      · rw [((hk x).same.other p he).2] at hpl
        exact (hk' x).plus pl hpl
  · refine (h.customs key).imp (fun h x => ?_) fun h x => by rw [(hk x).same.customs]; exact h x
    by_cases he : key = prop
    · subst he; exact (hk x).plus (h x)
    · rw [((hk x).same.other key he).2]; exact h x

theorem applyInheritance_ok {rank : Nat → Nat} (hrank : ∀ x, ∀ t ∈ (S.obj x).templates, rank t < rank x)
    (hn : ∀ x, rank x < n) (hS : Ready S S.obj) : ∃ S', S.applyInheritance n = .ok S' := by
  obtain ⟨S₁, hr, hsh, ht, hready⟩ := foldlM_ok (f := applyPartialInheritance n)
    (I := fun S₁ => SameShape S S₁ ∧ Heap.SameTemplates S.obj S₁.obj ∧ Ready S S₁.obj) S.properties S
    (fun prop hprop S₁ ⟨hsh, ht, hready⟩ => by
      obtain ⟨k, hk⟩ := hready.kind prop hprop
      obtain ⟨H, hr, hkeep⟩ := Heap.foldInherit_ok (fun x t h => hrank x t (by rw [← ht x]; exact h)) hn
        (S₁.items ++ S₁.templates) hk
      exact ⟨_, applyPartial_eq hr, hsh.withObj H, fun x => (hkeep x).same.templates.trans (ht x), hready.keeps hkeep⟩)
    ⟨SameShape.refl S, Heap.SameTemplates.refl S.obj, hS⟩
  have hfit : Heap.CustomsFit S₁.obj := fun key => (hready.customs key).imp id fun h y v hv => by
    rw [h y] at hv; cases hv
  obtain ⟨H, hc, _⟩ := foldlM_ok (f := Heap.getCustomsPropertiesByInheritance n)
    (I := fun H => Heap.SameTemplates S.obj H ∧ Heap.CustomsFit H) (S₁.items ++ S₁.templates) S₁.obj
    (fun x _ H ⟨ht', hf⟩ => by
      obtain ⟨H', h1, h2, h3⟩ := Heap.getCustoms_ok n x H (hn x) (fun y t h => hrank y t (by rw [← ht' y]; exact h)) hf
      exact ⟨H', h1, fun y => (h2.templates y).trans (ht' y), h3⟩)
    ⟨ht, hfit⟩
  refine ⟨{ S₁ with obj := H }, ?_⟩
  unfold applyInheritance
  rw [hr]
  simp only [bind, Except.bind, hc]
  rfl

end

/-! ## The condition -/

def NoLongCycle (S : Items) : Prop := ∀ t ∈ S.templates, ¬ TransGen S.UsesOther t t

def SelfInheriting (S : Items) : Prop := ∃ t ∈ S.templates, TransGen S.Uses t t

section
variable {S S' : Items} {n : Nat}

theorem transGen_target {r : Nat → Nat → Prop} {x y : Nat} (h : TransGen r x y) : ∃ z, r z y := by
  cases h with
  | single h => exact ⟨_, h⟩
  | tail _ h => exact ⟨_, h⟩

theorem uses_template (hS : S.Parsed) {x t : Nat} (h : S.Uses x t) : t ∈ S.templates := by
  obtain ⟨name, _, ht⟩ := h
  exact hS.named name t ht

theorem linked_rank (hS : S.Parsed) (hc : S.NoLongCycle) (hl : Linked S S') :
    ∃ rank : Nat → Nat, (∀ x, ∀ t ∈ (S'.obj x).templates, rank t < rank x) ∧ ∀ x, rank x ≤ S.templates.length := by
  obtain ⟨rank, h1, h2⟩ := exists_rank (r := S.UsesOther) S.templates (fun x t h => uses_template hS h.1) fun x hx => by
    obtain ⟨z, hz⟩ := transGen_target hx
    exact hc x (uses_template hS hz.1) hx
  exact ⟨rank, fun x t ht => h1 x t ((hl.2.1 x t).mp ht).2, h2⟩

theorem parsed_ready (hS : S.Parsed) (hl : Linked S S') : Ready S' S'.obj := by
  refine ⟨fun prop hp => ?_, fun key => ?_⟩
  · rw [hl.1.properties] at hp
    obtain ⟨k, hk, _⟩ := hS.kind prop hp
    refine ⟨k, fun x => ⟨fun v hv => ?_, fun pl hpl => ?_⟩⟩
    · rw [(hl.1.obj x).attr] at hv
      rw [(hl.1.obj x).plus]
      exact (hk x).attr v hv
    · rw [(hl.1.obj x).plus] at hpl
      exact (hk x).plus pl hpl
  · refine (hS.customs key).imp (fun h x => ?_) fun h x => ?_
    · rw [(hl.1.obj x).plus]; exact h x
    · rw [(hl.1.obj x).customs]; exact h x

theorem linkifyTemplates_ok (hS : S.Parsed) (hc : S.NoLongCycle) :
    ∃ S', S.linkifyTemplates (S.templates.length + 1) = .ok S' := by
  obtain ⟨rank, h1, h2⟩ := linked_rank hS hc (linked hS)
  exact tagItems_ok (fun x => Nat.lt_succ_of_le (h2 x)) h1

theorem noLongCycle_of_ok (hS : S.Parsed) (hl : Linked S S') {S'' : Items} (h : S'.applyInheritance n = .ok S'') :
    S.NoLongCycle := by
  intro t ht hcycle
  obtain ⟨S₁, _, _, hT, _, hc⟩ := applyInheritance_shape h
  have hmem : t ∈ S'.items ++ S'.templates := by
    rw [hl.1.templates]; exact List.mem_append_right _ ht
  obtain ⟨H₁, H₂, h1, h2⟩ := foldlM_turn (I := Heap.SameTemplates S'.obj) hc
    (fun x _ H H' hH hI => hI.trans (Heap.getCustoms_same n H x H' hH)) hT t hmem
  apply Heap.no_cycle_of_getCustoms h1 h2
  have key : ∀ {a b}, TransGen S.UsesOther a b → a ∈ S.templates →
      TransGen (fun x t => t ∈ (S'.obj x).templates) a b := by
    intro a b hab ha
    induction hab with
    | single h => exact .single ((hl.2.1 _ _).mpr ⟨List.mem_append_right _ ha, h⟩)
    | tail hab h ih =>
      obtain ⟨z, hz⟩ := transGen_target hab
      exact .tail ih ((hl.2.1 _ _).mpr ⟨List.mem_append_right _ (uses_template hS hz.1), h⟩)
  exact key hcycle ht

end

/-! ## Templates that use each other -/

def templateUsing (name : String) (use : List String) : Item :=
  { isATemplate := true, getName := name, importedFrom := "", use := use, templates := [], tags := [],
    attr := fun _ => none, plus := Dict.empty, customs := Dict.empty, configurationWarnings := [] }

/-- The template `a` uses `useA`, the template `b` uses `useB`. -/
def twoTemplates (useA useB : List String) : Items :=
  { myType := "host", properties := ["check_command"], items := [], templates := [1, 2],
    obj := fun x => if x = 1 then templateUsing "a" useA else templateUsing "b" useB,
    nameToTemplate := fun name => if name = "a" then some 1 else if name = "b" then some 2 else none,
    confIsCorrect := true, configurationErrors := [] }

theorem twoTemplates_parsed (useA useB : List String) : (twoTemplates useA useB).Parsed := by
  have hobj : ∀ x, (twoTemplates useA useB).obj x = templateUsing "a" useA ∨
      (twoTemplates useA useB).obj x = templateUsing "b" useB := by
    intro x
    by_cases hx : x = 1
    · exact Or.inl (if_pos hx)
    · exact Or.inr (if_neg hx)
  refine ⟨by simp [twoTemplates], fun name t h => ?_, fun x => ?_, fun prop hp => ⟨.scalar, fun x => ?_, fun hr => ?_⟩,
    fun key => Or.inl fun x => ?_⟩
  · simp only [twoTemplates] at h
    by_cases ha : name = "a"
    · rw [if_pos ha] at h; cases h; exact List.mem_cons_self
    · rw [if_neg ha] at h
      by_cases hb : name = "b"
      · rw [if_pos hb] at h; cases h; exact List.mem_cons_of_mem _ List.mem_cons_self
      · rw [if_neg hb] at h; cases h
  · rcases hobj x with h | h <;> rw [h] <;> rfl
  · rcases hobj x with h | h <;> rw [h] <;> exact ⟨fun v hv => absurd hv (Option.some_ne_none v).symm, fun pl hpl => absurd hpl (Option.some_ne_none pl).symm⟩
  · rw [List.mem_singleton.mp hp] at hr; simp at hr
  · rcases hobj x with h | h <;> rw [h] <;> rfl

end Items

end Alignak
