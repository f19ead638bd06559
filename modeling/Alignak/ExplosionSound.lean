import Alignak.Explosion
import Mathlib.Data.List.Basic

/-!
# What the groups have after the explosion

The recursion adds sub-groups to groups in some order, a sub-group never before
its own sub-groups.
-/

namespace Alignak.Explosion

section
variable {kind : Kind} {groups : Groups} {h : Heap} {w w' w'' : World} {D T T' : List (Nat × Nat)} {g : Nat}

/-! ## The order of the additions -/

/-- The sub-group `e.2` is added to the group `e.1`. -/
def addSub (kind : Kind) (h : Heap) (e : Nat × Nat) : Heap :=
  addMembers e.1 (getMembers kind e.2 h) h

def Complete (groups : Groups) (D : List (Nat × Nat)) (c : Nat) : Prop :=
  ∀ a, Relation.ReflTransGen groups.Sub c a → ∀ b ∈ groups.subs a, (a, b) ∈ D

theorem Complete.mono {D' : List (Nat × Nat)} (hc : Complete groups D g) (hsub : D ⊆ D') : Complete groups D' g :=
  fun a ha b hb => hsub (hc a ha b hb)

structure Ready (groups : Groups) (D : List (Nat × Nat)) (e : Nat × Nat) : Prop where
  item : e.1 ∈ groups.items
  sub : e.2 ∈ groups.subs e.1
  complete : Complete groups D e.2
  before : ∀ b ∈ (groups.subs e.1).takeWhile (fun b => b ≠ e.2), (e.1, b) ∈ D

def Good (groups : Groups) : List (Nat × Nat) → List (Nat × Nat) → Prop
  | _, [] => True
  | D, e :: T => Ready groups D e ∧ Good groups (D ++ [e]) T

theorem Good.append (hT : Good groups D T) (hT' : Good groups (D ++ T) T') : Good groups D (T ++ T') := by
  induction T generalizing D with
  | nil =>
    rw [List.append_nil] at hT'
    exact hT'
  | cons e T ih =>
    refine ⟨hT.1, ih hT.2 ?_⟩
    rw [List.append_assoc]
    exact hT'

structure Exploded (kind : Kind) (groups : Groups) (D T : List (Nat × Nat)) (w w' : World) : Prop where
  heap : w'.heap = T.foldl (addSub kind) w.heap
  good : Good groups D T
  tagged : ∀ h, w'.recTag h = true → Complete groups (D ++ T) h ∨ w.recTag h = true
  kept : ∀ h, w.recTag h = true → w'.recTag h = true
  exploded : ∀ h, w'.alreadyExploded h = true → Complete groups (D ++ T) h ∨ w.alreadyExploded h = true

theorem Exploded.trans (hw : Exploded kind groups D T w w') (hw' : Exploded kind groups (D ++ T) T' w' w'') :
    Exploded kind groups D (T ++ T') w w'' where
  heap := by rw [List.foldl_append, ← hw.heap, hw'.heap]
  good := hw.good.append hw'.good
  tagged h hh := by
    rw [← List.append_assoc]
    rcases hw'.tagged h hh with hc | hh
    · exact Or.inl hc
    · exact (hw.tagged h hh).imp_left fun hc => hc.mono (List.subset_append_left ..)
  kept h hh := hw'.kept h (hw.kept h hh)
  exploded h hh := by
    rw [← List.append_assoc]
    rcases hw'.exploded h hh with hc | hh
    · exact Or.inl hc
    · exact (hw.exploded h hh).imp_left fun hc => hc.mono (List.subset_append_left ..)

def untagged (groups : Groups) (w : World) : Nat := groups.items.countP fun g => !w.recTag g

theorem untagged_le (hk : ∀ h, w.recTag h = true → w'.recTag h = true) : untagged groups w' ≤ untagged groups w := by
  apply List.countP_mono_left
  intro g _ hg
  cases hw : w.recTag g with
  | false => rfl
  | true => simp [hk g hw] at hg

theorem untagged_tag (hg : g ∈ groups.items) (ht : w.recTag g = false) :
    untagged groups { w with recTag := Function.update w.recTag g true } < untagged groups w := by
  unfold untagged
  obtain ⟨as, bs, hsplit⟩ := List.append_of_mem hg
  rw [hsplit]
  have hle (l : List Nat) : l.countP (fun h => !Function.update w.recTag g true h) ≤ l.countP fun h => !w.recTag h := by
    apply List.countP_mono_left
    intro h _ hh
    by_cases he : h = g
    · subst he
      rw [ht]
      rfl
    · rwa [Function.update_of_ne he] at hh
  have has := hle as
  have hbs := hle bs
  simp only [List.countP_append, List.countP_cons, Function.update_self, ht, Bool.not_true, Bool.not_false]
  simp only [Bool.false_eq_true, if_false, if_true]
  omega

def Above (groups : Groups) (D : List (Nat × Nat)) (w : World) (g : Nat) : Prop :=
  ∀ h, w.recTag h = true → Complete groups D h ∨ Relation.TransGen groups.Sub h g

/-- What the explosion of a group does, with the fuel for the groups that are not tagged. -/
def Explodes (kind : Kind) (groups : Groups) (fuel : Nat) (explode : Nat → World → Except Exn (Value × World)) : Prop :=
  ∀ g w D, g ∈ groups.items → untagged groups w < fuel → Above groups D w g →
    ∃ w' T, explode g w = .ok (getMembers kind g w'.heap, w') ∧
      Exploded kind groups D T w w' ∧ Complete groups (D ++ T) g

def Handled (groups : Groups) (D : List (Nat × Nat)) (g c : Nat) : Prop := (g, c) ∈ D ∧ Complete groups D c

theorem mem_takeWhile_ne {c b : Nat} {ys : List Nat} (xs : List Nat) (hb : b ∈ (xs ++ c :: ys).takeWhile (fun b => b ≠ c)) :
    b ∈ xs := by
  induction xs with
  | nil => simp at hb
  | cons x xs ih =>
    rw [List.cons_append, List.takeWhile_cons] at hb
    split at hb
    · rcases List.mem_cons.mp hb with hb | hb
      · exact hb ▸ List.mem_cons_self
      · exact List.mem_cons_of_mem _ (ih hb)
    · cases hb

theorem addSubs_explodes {fuel : Nat} {explode : Nat → World → Except Exn (Value × World)}
    (he : Explodes kind groups fuel explode) (hg : g ∈ groups.items) (names : List String) (xs : List Nat)
    (hxs : groups.subs g = xs ++ names.filterMap fun name => groups.nameToItem (stripString name))
    (hdone : ∀ x ∈ xs, Handled groups D g x) (hf : untagged groups w < fuel)
    (habove : ∀ h, w.recTag h = true → Complete groups D h ∨ Relation.ReflTransGen groups.Sub h g) :
    ∃ w' T, addSubs explode groups g names w = .ok w' ∧ Exploded kind groups D T w w' ∧
      ∀ c ∈ groups.subs g, Handled groups (D ++ T) g c := by
  induction names generalizing xs w D with
  | nil =>
    refine ⟨w, [], rfl, (⟨rfl, trivial, fun _ hh => Or.inr hh, fun _ hh => hh, fun _ hh => Or.inr hh⟩), ?_⟩
    intro c hc
    rw [hxs, List.filterMap_nil, List.append_nil] at hc
    rw [List.append_nil]
    exact hdone c hc
  | cons name names ih =>
    rw [addSubs]
    cases hsub : groups.nameToItem (stripString name) with
    | none =>
      rw [List.filterMap_cons, hsub] at hxs
      exact ih xs hxs hdone hf habove
    | some c =>
      rw [List.filterMap_cons, hsub] at hxs
      have hc : c ∈ groups.subs g := by
        rw [hxs]
        simp
      have hcall : Above groups D w c := fun h hh => (habove h hh).imp_right fun hp => Relation.TransGen.tail' hp hc
      obtain ⟨w₁, T₁, hrun, hw1, hcomplete⟩ := he c w D (groups.indexed _ _ hsub) hf hcall
      have hready : Ready groups (D ++ T₁) (g, c) := by
        refine ⟨hg, hc, hcomplete, ?_⟩
        intro b hb
        have hb : b ∈ (groups.subs g).takeWhile (fun b => b ≠ c) := hb
        rw [hxs] at hb
        exact List.mem_append_left _ (hdone b (mem_takeWhile_ne xs hb)).1
      have hadd : Exploded kind groups D (T₁ ++ [(g, c)]) w { w₁ with heap := addSub kind w₁.heap (g, c) } :=
        hw1.trans (⟨rfl, ⟨hready, trivial⟩, fun _ hh => Or.inr hh, fun _ hh => hh, fun _ hh => Or.inr hh⟩)
      have hxs' : groups.subs g = (xs ++ [c]) ++ names.filterMap fun name => groups.nameToItem (stripString name) := by
        rw [hxs, List.append_assoc]
        rfl
      have hdone' : ∀ x ∈ xs ++ [c], Handled groups (D ++ (T₁ ++ [(g, c)])) g x := by
        intro x hx
        rcases List.mem_append.mp hx with hx | hx
        · exact ⟨List.mem_append_left _ (hdone x hx).1, (hdone x hx).2.mono (List.subset_append_left ..)⟩
        · rw [List.mem_singleton.mp hx]
          refine ⟨by simp, ?_⟩
          rw [← List.append_assoc]
          exact hcomplete.mono (List.subset_append_left ..)
      have habove' : ∀ h, w₁.recTag h = true → Complete groups (D ++ (T₁ ++ [(g, c)])) h ∨
          Relation.ReflTransGen groups.Sub h g := by
        intro h hh
        rcases hadd.tagged h hh with hc | hh
        · exact Or.inl hc
        · exact (habove h hh).imp_left fun hc => hc.mono (List.subset_append_left ..)
      obtain ⟨w₂, T₂, hrest, hw2, hall⟩ := ih (xs ++ [c]) hxs' hdone'
        (lt_of_le_of_lt (untagged_le hadd.kept) hf) habove'
      refine ⟨w₂, T₁ ++ [(g, c)] ++ T₂, ?_, hadd.trans hw2, ?_⟩
      · dsimp only
        rw [hrun]
        exact hrest
      · intro x hx
        rw [← List.append_assoc]
        exact hall x hx

theorem complete_of_handled (hall : ∀ c ∈ groups.subs g, Handled groups D g c) : Complete groups D g := by
  intro a ha b hb
  rcases Relation.ReflTransGen.cases_head ha with rfl | ⟨c, hc, ha⟩
  · exact (hall b hb).1
  · exact (hall c hc).2 a ha b hb

theorem getByExplosion_explodes (kind : Kind) (hacyclic : groups.Acyclic) (fuel : Nat) :
    Explodes kind groups fuel (getByExplosion kind groups fuel) := by
  induction fuel with
  | zero =>
    intro g w D _ hf
    omega
  | succ fuel ih =>
    intro g w D hg hf habove
    rw [getByExplosion]
    cases ht : w.recTag g with
    | true =>
      -- the group has been exploded below another one
      have hcomplete : Complete groups D g := (habove g ht).resolve_right (hacyclic g)
      refine ⟨{ w with alreadyExploded := Function.update w.alreadyExploded g true }, [], ?_, ?_, ?_⟩
      · simp
      · refine ⟨rfl, trivial, fun _ hh => Or.inr hh, fun _ hh => hh, ?_⟩
        intro h hh
        rw [List.append_nil]
        by_cases he : h = g
        · exact Or.inl (he ▸ hcomplete)
        · exact Or.inr ((Function.update_of_ne he ..).symm.trans hh)
      · rwa [List.append_nil]
    | false =>
      have htagged : ∀ h, Function.update w.recTag g true h = true → h = g ∨ w.recTag h = true := by
        intro h hh
        by_cases he : h = g
        · exact Or.inl he
        · rw [Function.update_of_ne he] at hh
          exact Or.inr hh
      obtain ⟨w', T, hrun, hw', hall⟩ := addSubs_explodes (D := D)
        (w := ⟨w.heap, Function.update w.recTag g true, Function.update w.alreadyExploded g true⟩)
        ih hg (groups.groupMembers g) [] rfl (fun _ hx => by cases hx)
        (lt_of_lt_of_le (untagged_tag hg ht) (Nat.le_of_lt_succ hf)) (by
          intro h hh
          rcases htagged h hh with rfl | hh
          · exact Or.inr Relation.ReflTransGen.refl
          · exact (habove h hh).imp_right Relation.TransGen.to_reflTransGen)
      have hcomplete : Complete groups (D ++ T) g := complete_of_handled hall
      refine ⟨w', T, ?_, ⟨hw'.heap, hw'.good, ?_, ?_, ?_⟩, hcomplete⟩
      · simp only [Bool.false_eq_true, if_false]
        rw [hrun]
      · intro h hh
        rcases hw'.tagged h hh with hc | hh
        · exact Or.inl hc
        · rcases htagged h hh with rfl | hh
          · exact Or.inl hcomplete
          · exact Or.inr hh
      · intro h hh
        apply hw'.kept
        by_cases he : h = g
        · rw [he]
          exact Function.update_self ..
        · exact (Function.update_of_ne he ..).trans hh
      · intro h hh
        rcases hw'.exploded h hh with hc | hh
        · exact Or.inl hc
        · by_cases he : h = g
          · exact Or.inl (he ▸ hcomplete)
          · exact Or.inr ((Function.update_of_ne he ..).symm.trans hh)

/-! ## All the groups -/

theorem explodeItems (kind : Kind) (hacyclic : groups.Acyclic) (l : List Nat) (hl : ∀ g ∈ l, g ∈ groups.items)
    (hdone : ∀ h, w.alreadyExploded h = true → Complete groups D h) :
    ∃ w' T, l.foldlM (explodeItem kind groups) w = .ok w' ∧ w'.heap = T.foldl (addSub kind) w.heap ∧
      Good groups D T ∧ ∀ g ∈ l, Complete groups (D ++ T) g := by
  induction l generalizing w D with
  | nil => exact ⟨w, [], rfl, rfl, trivial, fun _ hg => by cases hg⟩
  | cons g l ih =>
    rw [List.foldlM_cons, explodeItem]
    cases ha : w.alreadyExploded g with
    | true =>
      obtain ⟨w', T, hrun, hheap, hgood, hall⟩ := ih (fun x hx => hl x (List.mem_cons_of_mem _ hx)) hdone
      refine ⟨w', T, hrun, hheap, hgood, ?_⟩
      intro x hx
      rcases List.mem_cons.mp hx with rfl | hx
      · exact (hdone x ha).mono (List.subset_append_left ..)
      · exact hall x hx
    | false =>
      have hg : g ∈ groups.items := hl g List.mem_cons_self
      obtain ⟨w₁, T₁, hrun1, hw1, hcomplete⟩ := getByExplosion_explodes kind hacyclic
        (groups.items.length + 1) g { w with recTag := fun _ => false } D hg
        (Nat.lt_succ_of_le List.countP_le_length) (fun h hh => by cases hh)
      have hdone1 : ∀ h, w₁.alreadyExploded h = true → Complete groups (D ++ T₁) h := by
        intro h hh
        rcases hw1.exploded h hh with hc | hh
        · exact hc
        · exact (hdone h hh).mono (List.subset_append_left ..)
      obtain ⟨w', T, hrun, hheap, hgood, hall⟩ := ih (fun x hx => hl x (List.mem_cons_of_mem _ hx)) hdone1
      refine ⟨w', T₁ ++ T, ?_, ?_, hw1.good.append hgood, ?_⟩
      · simp only [Bool.false_eq_true, if_false]
        rw [hrun1]
        exact hrun
      · rw [List.foldl_append, hheap, hw1.heap]
      · intro x hx
        rw [← List.append_assoc]
        rcases List.mem_cons.mp hx with rfl | hx
        · exact hcomplete.mono (List.subset_append_left ..)
        · exact hall x hx

/-! ## One addition -/

def Heap.Wf (h : Heap) : Prop := ∀ g n, h.members g = some (.new n) → n < h.next

def given (kind : Kind) (h : Heap) (c : Nat) : List String :=
  match h.members c with
  | some ref => h.lists ref
  | none => if kind = .hostgroup then [] else [""]

theorem membersOf_some {ref : Ref} (hg : h.members g = some ref) : h.membersOf g = h.lists ref := by
  rw [Heap.membersOf, hg]

theorem given_some {c : Nat} {ref : Ref} (hc : h.members c = some ref) : given kind h c = h.lists ref := by
  rw [given, hc]

theorem given_none {c : Nat} (hc : h.members c = none) : given kind h c = if kind = .hostgroup then [] else [""] := by
  rw [given, hc]

/-- The group `p` takes the list of `c`, or a list that no other group holds. -/
structure Takes (kind : Kind) (h : Heap) (p c : Nat) (h' : Heap) : Prop where
  empty : h.membersOf p = []
  others : ∀ g, g ≠ p → h'.members g = h.members g
  lists : ∀ g ref, h.members g = some ref → h'.lists ref = h.lists ref
  taken : ∃ ref, h'.members p = some ref ∧ h'.lists ref = given kind h c ∧
    (h.members c = some ref ∨ h.members c = none ∧ ∀ g, h.members g ≠ some ref)

/-- The list that `p` holds is extended. -/
structure Extends (kind : Kind) (h : Heap) (p c : Nat) (h' : Heap) : Prop where
  members : h'.members = h.members
  extended : ∃ own, h.members p = some own ∧ h.lists own ≠ [] ∧ h'.lists own = h.lists own ++ given kind h c ∧
    ∀ g ref, h.members g = some ref → ref ≠ own → h'.lists ref = h.lists ref

structure Fetched (kind : Kind) (h : Heap) (c : Nat) (ref : Ref) (h' : Heap) : Prop where
  members : h'.members = h.members
  next : h.next ≤ h'.next
  counted : ∀ n, ref = .new n → n < h'.next
  lists : ∀ g r, h.members g = some r → h'.lists r = h.lists r
  given : h'.lists ref = given kind h c
  held : h.members c = some ref ∨ h.members c = none ∧ ∀ g, h.members g ≠ some ref

theorem fetched_alloc (hwf : h.Wf) {c : Nat} (hc : h.members c = none) {l : List String} (hl : l = given kind h c) :
    Fetched kind h c (h.alloc l).1 (h.alloc l).2 where
  members := rfl
  next := Nat.le_succ _
  counted n hn := by
    cases hn
    exact Nat.lt_succ_self _
  lists g r hr := by
    apply Function.update_of_ne
    rintro rfl
    exact absurd (hwf g _ hr) (Nat.lt_irrefl _)
  given := (Function.update_self ..).trans hl
  held := by
    refine Or.inr ⟨hc, ?_⟩
    intro g hg
    exact absurd (hwf g _ hg) (Nat.lt_irrefl _)

theorem fetched_asList (hwf : h.Wf) (c : Nat) :
    Fetched kind h c ((getMembers kind c h).asList h).1 ((getMembers kind c h).asList h).2 := by
  cases hc : h.members c with
  | some ref =>
    have hvalue : getMembers kind c h = .list ref := by simp [getMembers, hc]
    rw [hvalue]
    refine ⟨rfl, Nat.le_refl _, ?_, fun _ _ _ => rfl, (given_some hc).symm, Or.inl hc⟩
    intro n hn
    exact hwf c n (hn ▸ hc)
  | none =>
    have hgiven : given kind h c = if kind = .hostgroup then [] else [""] := given_none hc
    cases kind with
    | hostgroup =>
      have hvalue : getMembers .hostgroup c h = .newList := by simp [getMembers, hc]
      rw [hvalue]
      exact fetched_alloc hwf hc hgiven.symm
    | contactgroup =>
      have hvalue : getMembers .contactgroup c h = .text "" := by simp [getMembers, hc]
      rw [hvalue]
      exact fetched_alloc hwf hc hgiven.symm
    | servicegroup =>
      have hvalue : getMembers .servicegroup c h = .text "" := by simp [getMembers, hc]
      rw [hvalue]
      exact fetched_alloc hwf hc hgiven.symm

theorem addList_cases (p : Nat) (ref : Ref) (h : Heap) :
    (h.membersOf p = [] ∧ h.addList p ref = { h with members := Function.update h.members p (some ref) }) ∨
    ∃ own, h.members p = some own ∧ h.lists own ≠ [] ∧
      h.addList p ref = { h with lists := Function.update h.lists own (h.lists own ++ h.lists ref) } := by
  unfold Heap.addList Heap.membersOf
  cases h.members p with
  | none => exact Or.inl ⟨rfl, rfl⟩
  | some own =>
    dsimp only
    split
    · rename_i he
      exact Or.inl ⟨he, rfl⟩
    · rename_i he
      exact Or.inr ⟨own, rfl, he, rfl⟩

theorem addSub_spec (kind : Kind) (hwf : h.Wf) (p c : Nat) : (addSub kind h (p, c)).Wf ∧
    (Takes kind h p c (addSub kind h (p, c)) ∨ Extends kind h p c (addSub kind h (p, c))) := by
  have hf : Fetched kind h c _ _ := fetched_asList hwf c
  unfold addSub addMembers
  dsimp only
  generalize ((getMembers kind c h).asList h).1 = ref at hf ⊢
  generalize ((getMembers kind c h).asList h).2 = h1 at hf ⊢
  have hwf1 : h1.Wf := by
    intro g n hn
    rw [hf.members] at hn
    exact lt_of_lt_of_le (hwf g n hn) hf.next
  rcases addList_cases p ref h1 with ⟨hempty, heq⟩ | ⟨own, hown, hne, heq⟩
  · rw [heq]
    refine ⟨?_, Or.inl ⟨?_, ?_, hf.lists, ?_⟩⟩
    · intro g n hn
      by_cases hg : g = p
      · have hn : Function.update h1.members p (some ref) g = some (.new n) := hn
        rw [hg, Function.update_self] at hn
        exact hf.counted n (Option.some.inj hn)
      · exact hwf1 g n ((Function.update_of_ne hg ..).symm.trans hn)
    · cases hp : h.members p with
      | none => rw [Heap.membersOf, hp]
      | some r =>
        rw [membersOf_some hp, ← hf.lists p r hp]
        rw [Heap.membersOf, hf.members, hp] at hempty
        exact hempty
    · intro g hg
      exact (Function.update_of_ne hg ..).trans (congrFun hf.members g)
    · exact ⟨ref, Function.update_self .., hf.given, hf.held⟩
  · rw [heq]
    rw [hf.members] at hown
    refine ⟨hwf1, Or.inr ⟨hf.members, own, hown, ?_, ?_, ?_⟩⟩
    · rwa [hf.lists p own hown] at hne
    · rw [← hf.lists p own hown, ← hf.given]
      exact Function.update_self ..
    · intro g r hr hrne
      exact (Function.update_of_ne hrne ..).trans (hf.lists g r hr)

variable {h' : Heap} {p c : Nat}

theorem Takes.membersOf_of_ne (ht : Takes kind h p c h') (hg : g ≠ p) : h'.membersOf g = h.membersOf g := by
  unfold Heap.membersOf
  rw [ht.others g hg]
  cases hm : h.members g with
  | none => rfl
  | some ref => exact ht.lists g ref hm

theorem Takes.membersOf_self (ht : Takes kind h p c h') : h'.membersOf p = given kind h c := by
  obtain ⟨ref, hm, hl, -⟩ := ht.taken
  rw [membersOf_some hm, hl]

theorem Extends.membersOf (he : Extends kind h p c h') (g : Nat) : h'.membersOf g = h.membersOf g ∨
    h.members g = h.members p ∧ h.membersOf g ≠ [] ∧ h'.membersOf g = h.membersOf g ++ given kind h c := by
  obtain ⟨own, hown, hne, hl, hothers⟩ := he.extended
  unfold Heap.membersOf
  rw [he.members]
  cases hm : h.members g with
  | none => exact Or.inl rfl
  | some ref =>
    by_cases hr : ref = own
    · subst hr
      exact Or.inr ⟨hown.symm, hne, hl⟩
    · exact Or.inl (hothers g ref hm hr)

theorem Extends.membersOf_self (he : Extends kind h p c h') : h'.membersOf p = h.membersOf p ++ given kind h c := by
  obtain ⟨own, hown, -, hl, -⟩ := he.extended
  rw [membersOf_some hown, membersOf_some (he.members ▸ hown), hl]

theorem membersOf_addSub (hwf : h.Wf) (p c g : Nat) : h.membersOf g ⊆ (addSub kind h (p, c)).membersOf g := by
  rcases (addSub_spec kind hwf p c).2 with ht | he
  · by_cases hg : g = p
    · rw [hg, ht.empty]
      exact List.nil_subset _
    · rw [ht.membersOf_of_ne hg]
      exact List.Subset.refl _
  · rcases he.membersOf g with hm | ⟨-, -, hm⟩
    · rw [hm]
      exact List.Subset.refl _
    · rw [hm]
      exact List.subset_append_left ..

theorem given_addSub (hwf : h.Wf) (p c : Nat) : given kind h c ⊆ (addSub kind h (p, c)).membersOf p := by
  rcases (addSub_spec kind hwf p c).2 with ht | he
  · rw [ht.membersOf_self]
    exact List.Subset.refl _
  · rw [he.membersOf_self]
    exact List.subset_append_right ..

theorem members_addSub (hwf : h.Wf) (p c : Nat) (hg : h.membersOf g ≠ []) :
    (addSub kind h (p, c)).members g = h.members g := by
  rcases (addSub_spec kind hwf p c).2 with ht | he
  · apply ht.others
    rintro rfl
    exact hg ht.empty
  · exact congrFun he.members g

theorem membersOf_addSub_empty (hwf : h.Wf) (p c : Nat) (hg : g ≠ p) (hempty : h.membersOf g = []) :
    (addSub kind h (p, c)).membersOf g = [] := by
  rcases (addSub_spec kind hwf p c).2 with ht | he
  · rw [ht.membersOf_of_ne hg, hempty]
  · rcases he.membersOf g with hm | ⟨-, hne, -⟩
    · rw [hm, hempty]
    · exact absurd hempty hne

theorem members_addSub_none (hwf : h.Wf) (p c g : Nat) :
    (addSub kind h (p, c)).members g = none ↔ h.members g = none ∧ g ≠ p := by
  rcases (addSub_spec kind hwf p c).2 with ht | he
  · by_cases hg : g = p
    · obtain ⟨ref, hm, -⟩ := ht.taken
      subst hg
      rw [hm]
      simp
    · rw [ht.others g hg]
      simp [hg]
  · rw [he.members]
    obtain ⟨own, hown, -⟩ := he.extended
    constructor
    · intro hn
      refine ⟨hn, ?_⟩
      rintro rfl
      rw [hown] at hn
      cases hn
    · exact And.left

end

end Alignak.Explosion
