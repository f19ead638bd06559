import Alignak.Graph

/-!
# The search for loops

A node that the search has left is fine exactly when no cycle can be reached
from it; one that is not is marked when a node that it is a son of is searched.
-/

namespace Alignak.Graph

open Relation

section
variable {κ : Type} {root : κ} {status status' status'' : κ → LoopStatus}

inductive Later : LoopStatus → LoopStatus → Prop
  | refl (s : LoopStatus) : Later s s
  | unchecked (s : LoopStatus) : Later .unchecked s
  | near : Later .temporaryChecked .nearLoop
  | inside : Later .temporaryChecked .loopInside
  | further : Later .nearLoop .loopInside

theorem Later.trans {a b c : LoopStatus} (h : Later a b) (h' : Later b c) : Later a c := by
  cases h with
  | refl => exact h'
  | unchecked => exact .unchecked c
  | near =>
    cases h' with
    | refl => exact .near
    | further => exact .inside
  | inside =>
    cases h' with
    | refl => exact .inside
  | further =>
    cases h' with
    | refl => exact .further

theorem Later.of_ok {b : LoopStatus} (h : Later .ok b) : b = .ok := by cases h; rfl

theorem Later.of_inside {b : LoopStatus} (h : Later .loopInside b) : b = .loopInside := by cases h; rfl

theorem Later.to_unchecked {a : LoopStatus} (h : Later a .unchecked) : a = .unchecked := by cases h <;> rfl

theorem Later.of_temporary {b : LoopStatus} (h : Later .temporaryChecked b) :
    b = .temporaryChecked ∨ b = .nearLoop ∨ b = .loopInside := by
  cases h with
  | refl => exact Or.inl rfl
  | near => exact Or.inr (Or.inl rfl)
  | inside => exact Or.inr (Or.inr rfl)

def Goes (status status' : κ → LoopStatus) : Prop := ∀ x, Later (status x) (status' x)

theorem Goes.refl (status : κ → LoopStatus) : Goes status status := fun _ => .refl _

theorem Goes.trans (h : Goes status status') (h' : Goes status' status'') : Goes status status'' := fun x => (h x).trans (h' x)

theorem Goes.ok (h : Goes status status') {x : κ} (hx : status x = .ok) : status' x = .ok := (hx ▸ h x).of_ok

theorem Goes.inside (h : Goes status status') {x : κ} (hx : status x = .loopInside) : status' x = .loopInside :=
  (hx ▸ h x).of_inside

theorem Goes.unchecked (h : Goes status status') {x : κ} (hx : status' x = .unchecked) : status x = .unchecked :=
  (hx ▸ h x).to_unchecked

theorem Goes.not_temporary (h : Goes status status') {x : κ} (hu : status x ≠ .unchecked) (ht : status x ≠ .temporaryChecked) :
    status' x ≠ .temporaryChecked := by
  intro e
  have hl := h x
  rw [e] at hl
  cases hs : status x with
  | unchecked => exact hu hs
  | temporaryChecked => exact ht hs
  | ok => rw [hs] at hl; cases hl
  | nearLoop => rw [hs] at hl; cases hl
  | loopInside => rw [hs] at hl; cases hl

section
variable [DecidableEq κ] {g : Graph κ}

theorem Goes.update {x : κ} {s : LoopStatus} (h : Later (status x) s) : Goes status (Function.update status x s) := by
  intro y
  by_cases hy : y = x
  · subst hy
    rwa [Function.update_self]
  · rw [Function.update_of_ne hy]
    exact .refl _

/-! ## Where the nodes stand -/

abbrev Son (g : Graph κ) (x y : κ) : Prop := y ∈ g.sons x

/-- The nodes of `stack` are searched; the other ones that are checked are left. -/
structure Stands (g : Graph κ) (stack : List κ) (status : κ → LoopStatus) : Prop where
  searched : ∀ x ∈ stack, status x ≠ .unchecked ∧ status x ≠ .ok
  bad : ∀ x, status x = .nearLoop ∨ status x = .loopInside → LeadsToCycle g.Son x
  left : ∀ x, status x = .temporaryChecked → x ∈ stack
  fine : ∀ x, status x = .ok → ¬ LeadsToCycle g.Son x
  sons : ∀ x, status x ≠ .unchecked → x ∉ stack → ∀ y ∈ g.sons x, status y = .ok ∨ status y = .loopInside
  inside : ∀ x, status x = .loopInside → ∃ y, status y ≠ .unchecked ∧ x ∈ g.sons y

theorem goes_markLoop {child : κ} (hroot : Later .temporaryChecked (status root)) :
    Goes status (markLoop root child status) := by
  have hinside : Later (status root) .loopInside := by
    rcases hroot.of_temporary with e | e | e
    · exact e ▸ .inside
    · exact e ▸ .further
    · exact e ▸ .refl _
  unfold markLoop
  split
  next h =>
    refine (Goes.update (h ▸ Later.inside)).trans (Goes.update ?_)
    by_cases hr : root = child
    · rw [hr, Function.update_self]
      exact .refl _
    · rwa [Function.update_of_ne hr]
  next =>
    split
    next h =>
      have hnear : Goes status (if status root ≠ .loopInside then Function.update status root .nearLoop else status) := by
        split
        next hne =>
          refine Goes.update ?_
          rcases hroot.of_temporary with e | e | e
          · exact e ▸ Later.near
          · exact e ▸ Later.refl _
          · exact absurd e hne
        next => exact Goes.refl _
      refine hnear.trans (Goes.update ?_)
      have hchild := hnear child
      rcases h with e | e
      · rw [e] at hchild
        cases hb : (if status root ≠ .loopInside then Function.update status root .nearLoop else status) child <;> rw [hb] at hchild
        all_goals first | exact .further | exact .refl _ | nomatch hchild
      · rw [e] at hchild
        rw [hchild.of_inside]
        exact .refl _
    next => exact Goes.refl _

theorem later_of_searched {s : LoopStatus} (h : s ≠ .unchecked ∧ s ≠ .ok) : Later .temporaryChecked s := by
  cases s with
  | unchecked => exact absurd rfl h.1
  | temporaryChecked => exact .refl _
  | ok => exact absurd rfl h.2
  | nearLoop => exact .near
  | loopInside => exact .inside

section
variable {stack : List κ} {x : κ} {s : LoopStatus}

theorem Stands.raise (h : Stands g stack status) (hx : status x ≠ .unchecked ∧ status x ≠ .ok) (hb : LeadsToCycle g.Son x)
    (hs : s = .nearLoop ∨ s = .loopInside) (hi : s = .loopInside → ∃ y, status y ≠ .unchecked ∧ x ∈ g.sons y)
    (hk : status x = .loopInside → s = .loopInside) : Stands g stack (Function.update status x s) := by
  have hne : s ≠ .unchecked ∧ s ≠ .ok ∧ s ≠ .temporaryChecked := by
    rcases hs with rfl | rfl
    · exact ⟨by decide, by decide, by decide⟩
    · exact ⟨by decide, by decide, by decide⟩
  have hother : ∀ {y}, y ≠ x → Function.update status x s y = status y := fun hy => Function.update_of_ne hy _ _
  have hself : Function.update status x s x = s := Function.update_self _ _ _
  have hchecked : ∀ y, status y ≠ .unchecked → Function.update status x s y ≠ .unchecked := by
    intro y hy
    by_cases hyx : y = x
    · rw [hyx, hself]
      exact hne.1
    · rwa [hother hyx]
  refine ⟨fun y hy => ?_, fun y hy => ?_, fun y hy => ?_, fun y hy => ?_, fun y hy hns z hz => ?_, fun y hy => ?_⟩
  · by_cases hyx : y = x
    · rw [hyx, hself]
      exact ⟨hne.1, hne.2.1⟩
    · rw [hother hyx]
      exact h.searched y hy
  · by_cases hyx : y = x
    · rwa [hyx]
    · rw [hother hyx] at hy
      exact h.bad y hy
  · by_cases hyx : y = x
    · rw [hyx, hself] at hy
      exact absurd hy hne.2.2
    · rw [hother hyx] at hy
      exact h.left y hy
  · by_cases hyx : y = x
    · rw [hyx, hself] at hy
      exact absurd hy hne.2.1
    · rw [hother hyx] at hy
      exact h.fine y hy
  · have hy' : status y ≠ .unchecked := by
      by_cases hyx : y = x
      · exact hyx ▸ hx.1
      · rwa [hother hyx] at hy
    have hson := h.sons y hy' hns z hz
    by_cases hzx : z = x
    · rw [hzx, hself]
      exact Or.inr (hk (hson.resolve_left (hzx ▸ hx.2) ▸ hzx ▸ rfl))
    · rwa [hother hzx]
  · by_cases hyx : y = x
    · rw [hyx, hself] at hy
      obtain ⟨p, hp, hson⟩ := hi hy
      exact ⟨p, hchecked p hp, hyx ▸ hson⟩
    · rw [hother hyx] at hy
      obtain ⟨p, hp, hson⟩ := h.inside y hy
      exact ⟨p, hchecked p hp, hson⟩

theorem path_of_stack : ∀ {stack : List κ} {x : κ}, List.IsChain (fun a b => g.Son b a) (x :: stack) →
    ∀ y ∈ x :: stack, ReflTransGen g.Son y x
  | [], x, _, y, hy => by
    rw [List.mem_singleton.mp hy]
  | b :: l, x, h, y, hy => by
    rw [List.isChain_cons_cons] at h
    rcases List.mem_cons.mp hy with rfl | hy
    · exact .refl
    · exact (path_of_stack h.2 y hy).tail h.1

theorem Stands.checked_parent {stack : List κ} (h : Stands g (root :: stack) status)
    (hchain : List.IsChain (fun a b => g.Son b a) (root :: stack)) {y : κ} (hy : y ∈ stack) :
    ∃ p, status p ≠ .unchecked ∧ root ∈ g.sons p := by
  cases stack with
  | nil => cases hy
  | cons b l =>
    rw [List.isChain_cons_cons] at hchain
    exact ⟨b, (h.searched b (List.mem_cons_of_mem _ List.mem_cons_self)).1, hchain.1⟩

theorem markLoop_ne {child y : κ} (hr : y ≠ root) (hc : y ≠ child) : markLoop root child status y = status y := by
  unfold markLoop
  split
  · rw [Function.update_of_ne hr, Function.update_of_ne hc]
  · split
    · rw [Function.update_of_ne hc]
      split
      · exact Function.update_of_ne hr _ _
      · rfl
    · rfl

theorem markLoop_checked {child y : κ} (hr : status root ≠ .unchecked) (hc : status child ≠ .unchecked)
    (h : markLoop root child status y ≠ .unchecked) : status y ≠ .unchecked := by
  by_cases hyr : y = root
  · rwa [hyr]
  · by_cases hyc : y = child
    · rwa [hyc]
    · rwa [markLoop_ne hyr hyc] at h

theorem Stands.mark {child : κ} (h : Stands g (root :: stack) status)
    (hchain : List.IsChain (fun a b => g.Son b a) (root :: stack)) (hson : child ∈ g.sons root)
    (hc : status child ≠ .unchecked) :
    Stands g (root :: stack) (markLoop root child status) ∧ (markLoop root child status child = .ok ∨
      markLoop root child status child = .loopInside ∧ markLoop root child status root ≠ .temporaryChecked) := by
  have hroot := h.searched root List.mem_cons_self
  unfold markLoop
  by_cases ht : status child = .temporaryChecked
  · rw [if_pos ht]
    have hstack := h.left child ht
    have hback := path_of_stack hchain child hstack
    have hcycle : TransGen g.Son child child := TransGen.tail' hback hson
    have hfirst : Stands g (root :: stack) (Function.update status child .loopInside) := by
      refine h.raise ⟨hc, by rw [ht]; decide⟩ (.of_cycle hcycle) (Or.inr rfl) (fun _ => ⟨root, hroot.1, hson⟩) fun _ => rfl
    have hroot' := hfirst.searched root List.mem_cons_self
    refine ⟨hfirst.raise hroot' (leadsToCycle_iff.mpr ⟨child, hson, .of_cycle hcycle⟩) (Or.inr rfl) (fun _ => ?_) fun _ => rfl, ?_⟩
    · rcases List.mem_cons.mp hstack with rfl | hmem
      · exact ⟨child, hroot'.1, hson⟩
      · exact hfirst.checked_parent hchain hmem
    · right
      refine ⟨?_, ?_⟩
      · by_cases he : child = root
        · rw [he, Function.update_self]
        · rw [Function.update_of_ne he, Function.update_self]
      · rw [Function.update_self]
        decide
  · rw [if_neg ht]
    by_cases hn : status child = .nearLoop ∨ status child = .loopInside
    · rw [if_pos hn]
      have hbad := h.bad child hn
      have hrootBad : LeadsToCycle g.Son root := leadsToCycle_iff.mpr ⟨child, hson, hbad⟩
      have hne : status child ≠ .unchecked ∧ status child ≠ .ok := by
        rcases hn with e | e <;> rw [e] <;> exact ⟨by decide, by decide⟩
      by_cases hin : status root = .loopInside
      · rw [if_neg (not_not.mpr hin)]
        refine ⟨h.raise hne hbad (Or.inr rfl) (fun _ => ⟨root, hroot.1, hson⟩) fun _ => rfl, Or.inr ⟨Function.update_self _ _ _, ?_⟩⟩
        by_cases he : root = child
        · rw [he, Function.update_self]
          decide
        · rw [Function.update_of_ne he, hin]
          decide
      · rw [if_pos hin]
        have hfirst : Stands g (root :: stack) (Function.update status root .nearLoop) :=
          h.raise hroot hrootBad (Or.inl rfl) (fun e => nomatch e) fun e => absurd e hin
        have hchild : Function.update status root .nearLoop child ≠ .unchecked ∧ Function.update status root .nearLoop child ≠ .ok := by
          by_cases he : child = root
          · rw [he, Function.update_self]
            exact ⟨by decide, by decide⟩
          · rwa [Function.update_of_ne he]
        have hroot' := hfirst.searched root List.mem_cons_self
        refine ⟨hfirst.raise hchild hbad (Or.inr rfl) (fun _ => ⟨root, hroot'.1, hson⟩) fun _ => rfl, Or.inr ⟨Function.update_self _ _ _, ?_⟩⟩
        by_cases he : root = child
        · rw [he, Function.update_self]
          decide
        · rw [Function.update_of_ne he, Function.update_self]
          decide
    · rw [if_neg hn]
      refine ⟨h, Or.inl ?_⟩
      rw [not_or] at hn
      cases hst : status child with
      | unchecked => exact absurd hst hc
      | temporaryChecked => exact absurd hst ht
      | ok => rfl
      | nearLoop => exact absurd hst hn.1
      | loopInside => exact absurd hst hn.2

end

/-! ## A search -/

def uncheckedNodes (g : Graph κ) (status : κ → LoopStatus) : Finset κ := g.nodes.keys.toFinset.filter fun x => status x = .unchecked

theorem Goes.card_le (h : Goes status status') : (uncheckedNodes g status').card ≤ (uncheckedNodes g status).card := by
  refine Finset.card_le_card fun x hx => ?_
  unfold uncheckedNodes at hx ⊢
  rw [Finset.mem_filter] at hx ⊢
  exact ⟨hx.1, h.unchecked hx.2⟩

theorem card_lt_of_checked (h : Goes status status') {x : κ} (hx : x ∈ g.nodes.keys) (hu : status x = .unchecked)
    (hc : status' x ≠ .unchecked) : (uncheckedNodes g status').card < (uncheckedNodes g status).card := by
  refine Finset.card_lt_card ((Finset.ssubset_iff_of_subset fun y hy => ?_).mpr ⟨x, ?_, ?_⟩)
  · unfold uncheckedNodes at hy ⊢
    rw [Finset.mem_filter] at hy ⊢
    exact ⟨hy.1, h.unchecked hy.2⟩
  · unfold uncheckedNodes
    rw [Finset.mem_filter, List.mem_toFinset]
    exact ⟨hx, hu⟩
  · unfold uncheckedNodes
    rw [Finset.mem_filter]
    exact fun e => hc e.2

/-- What the search of `x` does, from the nodes of `stack`. -/
structure Explores (g : Graph κ) (stack : List κ) (x : κ) (status status' : κ → LoopStatus) : Prop where
  goes : Goes status status'
  stands : Stands g stack status'
  checked : status' x ≠ .unchecked
  reached : ∀ y, status' y ≠ .unchecked → status y ≠ .unchecked ∨ ReflTransGen g.Son x y

/-- The search with the fuel for the unchecked nodes. -/
def Searches (g : Graph κ) (fuel : Nat) (search : κ → (κ → LoopStatus) → Except Exn (κ → LoopStatus)) : Prop :=
  ∀ stack x status, x ∈ g.nodes.keys → status x = .unchecked → Stands g stack status →
    List.IsChain (fun a b => g.Son b a) (x :: stack) → (uncheckedNodes g status).card ≤ fuel →
    ∃ status', search x status = .ok status' ∧ Explores g stack x status status'

/-- The sons of `l` have been looked at from `root`. -/
structure Looks (g : Graph κ) (stack : List κ) (root : κ) (l : List κ) (status status' : κ → LoopStatus) : Prop where
  goes : Goes status status'
  stands : Stands g (root :: stack) status'
  sons : ∀ y ∈ l, status' y = .ok ∨ status' y = .loopInside ∧ status' root ≠ .temporaryChecked
  reached : ∀ y, status' y ≠ .unchecked → status y ≠ .unchecked ∨ ∃ x ∈ l, ReflTransGen g.Son x y

section
variable {stack : List κ} {search : κ → (κ → LoopStatus) → Except Exn (κ → LoopStatus)} {fuel : Nat}

theorem mem_sons_keys {x y : κ} (h : y ∈ g.sons x) : y ∈ g.nodes.keys := by
  unfold sons at h
  cases hx : g.nodes.get? x with
  | none =>
    rw [hx] at h
    cases h
  | some l =>
    rw [hx] at h
    exact g.closed x l hx y h

theorem checkSon_looks (hs : Searches g fuel search) (h : Stands g (root :: stack) status)
    (hchain : List.IsChain (fun a b => g.Son b a) (root :: stack)) {child : κ} (hson : child ∈ g.sons root)
    (hf : (uncheckedNodes g status).card ≤ fuel) :
    ∃ status', checkSon search root status child = .ok status' ∧ Looks g stack root [child] status status' := by
  unfold checkSon
  by_cases hu : status child = .unchecked
  · obtain ⟨found, hrun, hfound⟩ := hs (root :: stack) child status (mem_sons_keys hson) hu h
      (List.isChain_cons_cons.mpr ⟨hson, hchain⟩) hf
    rw [if_pos hu, hrun]
    obtain ⟨hmark, hchild⟩ := hfound.stands.mark hchain hson hfound.checked
    have hgoes : Goes found (markLoop root child found) :=
      goes_markLoop (later_of_searched (hfound.stands.searched root List.mem_cons_self))
    refine ⟨_, rfl, hfound.goes.trans hgoes, hmark, fun y hy => ?_, fun y hy => ?_⟩
    · rwa [List.mem_singleton.mp hy]
    · have hy := markLoop_checked (hfound.stands.searched root List.mem_cons_self).1 hfound.checked hy
      exact (hfound.reached y hy).imp id fun hr => ⟨child, List.mem_singleton.mpr rfl, hr⟩
  · rw [if_neg hu]
    obtain ⟨hmark, hchild⟩ := h.mark hchain hson hu
    refine ⟨_, rfl, goes_markLoop (later_of_searched (h.searched root List.mem_cons_self)), hmark, fun y hy => ?_, fun y hy => ?_⟩
    · rwa [List.mem_singleton.mp hy]
    · exact Or.inl (markLoop_checked (h.searched root List.mem_cons_self).1 hu hy)

theorem checkSons_looks (hs : Searches g fuel search) {l : List κ} (hsons : ∀ x ∈ l, x ∈ g.sons root)
    (h : Stands g (root :: stack) status) (hchain : List.IsChain (fun a b => g.Son b a) (root :: stack))
    (hf : (uncheckedNodes g status).card ≤ fuel) :
    ∃ status', l.foldlM (checkSon search root) status = .ok status' ∧ Looks g stack root l status status' := by
  induction l generalizing status with
  | nil => exact ⟨status, rfl, .refl _, h, fun y hy => absurd hy List.not_mem_nil, fun y hy => Or.inl hy⟩
  | cons x l ih =>
    obtain ⟨next, hrun, hnext⟩ := checkSon_looks hs h hchain (hsons x List.mem_cons_self) hf
    obtain ⟨last, hrest, hlast⟩ := ih (fun y hy => hsons y (List.mem_cons_of_mem _ hy)) hnext.stands
      (hnext.goes.card_le.trans hf)
    refine ⟨last, ?_, hnext.goes.trans hlast.goes, hlast.stands, fun y hy => ?_, fun y hy => ?_⟩
    · rw [List.foldlM_cons, hrun]
      exact hrest
    · rcases List.mem_cons.mp hy with rfl | hy
      · rcases hnext.sons y (List.mem_singleton.mpr rfl) with e | ⟨e, ht⟩
        · exact Or.inl (hlast.goes.ok e)
        · exact Or.inr ⟨hlast.goes.inside e, hlast.goes.not_temporary (hnext.stands.searched root List.mem_cons_self).1 ht⟩
      · exact hlast.sons y hy
    · rcases hlast.reached y hy with hy | ⟨z, hz, hr⟩
      · rcases hnext.reached y hy with hy | ⟨z, hz, hr⟩
        · exact Or.inl hy
        · exact Or.inr ⟨z, List.mem_cons.mpr (Or.inl (List.mem_singleton.mp hz)), hr⟩
      · exact Or.inr ⟨z, List.mem_cons_of_mem _ hz, hr⟩

theorem Stands.enter {x : κ} (h : Stands g stack status) (hu : status x = .unchecked) :
    Stands g (x :: stack) (Function.update status x .temporaryChecked) := by
  have hself : Function.update status x LoopStatus.temporaryChecked x = .temporaryChecked := Function.update_self _ _ _
  have hother : ∀ {y}, y ≠ x → Function.update status x LoopStatus.temporaryChecked y = status y :=
    fun hy => Function.update_of_ne hy _ _
  have hknown : ∀ {y}, status y ≠ .unchecked → Function.update status x LoopStatus.temporaryChecked y = status y := by
    intro y hy
    exact hother fun e => hy (e ▸ hu)
  have hold : ∀ {y s}, s ≠ LoopStatus.temporaryChecked → Function.update status x LoopStatus.temporaryChecked y = s → status y = s := by
    intro y s hs e
    by_cases hyx : y = x
    · rw [hyx, hself] at e
      exact absurd e.symm hs
    · rwa [hother hyx] at e
  refine ⟨fun y hy => ?_, fun y hy => ?_, fun y hy => ?_, fun y hy => ?_, fun y hy hns z hz => ?_, fun y hy => ?_⟩
  · by_cases hyx : y = x
    · rw [hyx, hself]
      exact ⟨by decide, by decide⟩
    · rw [hother hyx]
      exact h.searched y ((List.mem_cons.mp hy).resolve_left hyx)
  · exact h.bad y (hy.imp (hold (by decide)) (hold (by decide)))
  · by_cases hyx : y = x
    · exact List.mem_cons.mpr (Or.inl hyx)
    · rw [hother hyx] at hy
      exact List.mem_cons_of_mem _ (h.left y hy)
  · exact h.fine y (hold (by decide) hy)
  · have hyx : y ≠ x := fun e => hns (List.mem_cons.mpr (Or.inl e))
    rw [hother hyx] at hy
    have hson := h.sons y hy (fun e => hns (List.mem_cons_of_mem _ e)) z hz
    have hzu : status z ≠ .unchecked := by
      rcases hson with e | e <;> rw [e] <;> decide
    rwa [hknown hzu]
  · obtain ⟨p, hp, hson⟩ := h.inside y (hold (by decide) hy)
    exact ⟨p, by rwa [hknown hp], hson⟩

def leave (x : κ) (found : κ → LoopStatus) : κ → LoopStatus :=
  if found x = .temporaryChecked then Function.update found x .ok else found

theorem Stands.leave {x : κ} (h : Stands g (x :: stack) status) (hx : x ∉ stack)
    (hsons : ∀ y ∈ g.sons x, status y = .ok ∨ status y = .loopInside ∧ status x ≠ .temporaryChecked) :
    Stands g stack (leave x status) := by
  unfold Graph.leave
  by_cases ht : status x = .temporaryChecked
  · rw [if_pos ht]
    have hself : Function.update status x LoopStatus.ok x = .ok := Function.update_self _ _ _
    have hother : ∀ {y}, y ≠ x → Function.update status x LoopStatus.ok y = status y := fun hy => Function.update_of_ne hy _ _
    have hfine : ∀ y ∈ g.sons x, status y = .ok := fun y hy => (hsons y hy).resolve_right fun e => e.2 ht
    have hchecked : ∀ y, status y ≠ .unchecked → Function.update status x LoopStatus.ok y ≠ .unchecked := by
      intro y hy
      by_cases hyx : y = x
      · rw [hyx, hself]
        decide
      · rwa [hother hyx]
    have hold : ∀ {y s}, s ≠ LoopStatus.ok → Function.update status x LoopStatus.ok y = s → status y = s := by
      intro y s hs e
      by_cases hyx : y = x
      · rw [hyx, hself] at e
        exact absurd e.symm hs
      · rwa [hother hyx] at e
    have hkept : ∀ {z}, status z = .ok ∨ status z = .loopInside → Function.update status x LoopStatus.ok z = .ok ∨
        Function.update status x LoopStatus.ok z = .loopInside := by
      intro z hz
      by_cases hzx : z = x
      · exact Or.inl (by rw [hzx, hself])
      · rwa [hother hzx]
    refine ⟨fun y hy => ?_, fun y hy => ?_, fun y hy => ?_, fun y hy => ?_, fun y hy hns z hz => ?_, fun y hy => ?_⟩
    · have hyx : y ≠ x := fun e => hx (e ▸ hy)
      rw [hother hyx]
      exact h.searched y (List.mem_cons_of_mem _ hy)
    · exact h.bad y (hy.imp (hold (by decide)) (hold (by decide)))
    · have hyx : y ≠ x := by
        rintro rfl
        rw [hself] at hy
        cases hy
      exact (List.mem_cons.mp (h.left y (hold (by decide) hy))).resolve_left hyx
    · by_cases hyx : y = x
      · rw [hyx, leadsToCycle_iff]
        rintro ⟨z, hz, hbad⟩
        exact h.fine z (hfine z hz) hbad
      · rw [hother hyx] at hy
        exact h.fine y hy
    · by_cases hyx : y = x
      · exact hkept (Or.inl (hfine z (hyx ▸ hz)))
      · rw [hother hyx] at hy
        refine hkept (h.sons y hy (fun e => ?_) z hz)
        exact (List.mem_cons.mp e).elim hyx hns
    · obtain ⟨p, hp, hson⟩ := h.inside y (hold (by decide) hy)
      exact ⟨p, hchecked p hp, hson⟩
  · rw [if_neg ht]
    refine ⟨fun y hy => h.searched y (List.mem_cons_of_mem _ hy), h.bad, fun y hy => ?_, h.fine, fun y hy hns z hz => ?_, h.inside⟩
    · exact (List.mem_cons.mp (h.left y hy)).resolve_left fun e => ht (e ▸ hy)
    · by_cases hyx : y = x
      · exact (hsons z (hyx ▸ hz)).imp id And.left
      · exact h.sons y hy (fun e => (List.mem_cons.mp e).elim hyx hns) z hz

theorem leave_ne {x y : κ} (h : y ≠ x) : Graph.leave x status y = status y := by
  unfold Graph.leave
  split
  · exact Function.update_of_ne h _ _
  · rfl

theorem dfsLoopSearch_searches (fuel : Nat) : Searches g fuel (g.dfsLoopSearch fuel) := by
  induction fuel with
  | zero =>
    intro stack x status hx hu h hchain hf
    have hlt : 0 < (uncheckedNodes g status).card := by
      refine Finset.card_pos.mpr ⟨x, ?_⟩
      unfold uncheckedNodes
      rw [Finset.mem_filter, List.mem_toFinset]
      exact ⟨hx, hu⟩
    omega
  | succ fuel ih =>
    intro stack x status hx hu h hchain hf
    let entered := Function.update status x .temporaryChecked
    have hself : entered x = .temporaryChecked := Function.update_self _ _ _
    have hgoes : Goes status entered := Goes.update (hu ▸ .unchecked _)
    have hcard : (uncheckedNodes g entered).card ≤ fuel := by
      have hlt := card_lt_of_checked (g := g) hgoes hx hu (hself ▸ by decide)
      omega
    obtain ⟨found, hrun, hfound⟩ := checkSons_looks ih (fun y hy => hy) (h.enter hu) hchain hcard
    have hns : x ∉ stack := fun e => (h.searched x e).1 hu
    have hstands := hfound.stands.leave hns hfound.sons
    have hxf : found x ≠ .unchecked := (hfound.stands.searched x List.mem_cons_self).1
    have hleft : Graph.leave x found x ≠ .unchecked := by
      unfold Graph.leave
      split
      · rw [Function.update_self]
        decide
      · exact hxf
    refine ⟨Graph.leave x found, ?_, fun y => ?_, hstands, hleft, fun y hy => ?_⟩
    · unfold dfsLoopSearch
      rw [hrun]
      rfl
    · by_cases hyx : y = x
      · rw [hyx, hu]
        exact .unchecked _
      · have hgo := hfound.goes y
        rw [Function.update_of_ne hyx] at hgo
        rwa [leave_ne hyx]
    · by_cases hyx : y = x
      · exact Or.inr (hyx ▸ .refl)
      · rw [leave_ne hyx] at hy
        rcases hfound.reached y hy with hy | ⟨z, hz, hr⟩
        · rw [Function.update_of_ne hyx] at hy
          exact Or.inl hy
        · exact Or.inr (.head hz hr)

end

/-! ## The check -/

/-- A node at the turn of which the check returns it: one of a cycle, or one that
leads into a cycle and has been reached from a node of `before`. -/
def Reported (g : Graph κ) (before : List κ) (x : κ) : Prop :=
  TransGen g.Son x x ∨ LeadsToCycle g.Son x ∧ ∃ y ∈ before, TransGen g.Son y x

/-- The nodes of `before` have had their turn. -/
structure Checked (g : Graph κ) (before : List κ) (status : κ → LoopStatus) : Prop where
  stands : Stands g [] status
  checked : ∀ x, status x ≠ .unchecked ↔ ∃ y ∈ before, ReflTransGen g.Son y x

section
variable {before : List κ} {x : κ}

theorem Stands.closed (h : Stands g [] status) {y : κ} (hx : status x ≠ .unchecked) (hxy : ReflTransGen g.Son x y) :
    status y ≠ .unchecked := by
  induction hxy with
  | refl => exact hx
  | tail _ hson ih =>
    rcases h.sons _ ih List.not_mem_nil _ hson with e | e <;> rw [e] <;> decide

theorem checkNode_checked (h : Checked g before status) (hk : x ∈ g.nodes.keys) :
    ∃ status', g.checkNode x status = .ok status' ∧ Checked g (before ++ [x]) status' := by
  have happend : ∀ y, (∃ z ∈ before ++ [x], ReflTransGen g.Son z y) ↔
      (∃ z ∈ before, ReflTransGen g.Son z y) ∨ ReflTransGen g.Son x y := by
    intro y
    simp only [List.mem_append, List.mem_singleton, or_and_right, exists_or, exists_eq_left]
  unfold checkNode
  by_cases hu : status x = .unchecked
  · rw [if_pos hu]
    obtain ⟨status', hrun, hfound⟩ := dfsLoopSearch_searches g.nodes.keys.length [] x status hk hu h.stands
      (List.IsChain.singleton _) ((Finset.card_filter_le _ _).trans (List.toFinset_card_le _))
    refine ⟨status', hrun, hfound.stands, fun y => ?_⟩
    rw [happend, ← h.checked]
    refine ⟨hfound.reached y, fun hy => ?_⟩
    rcases hy with hy | hy
    · exact fun e => hy (hfound.goes.unchecked e)
    · exact hfound.stands.closed hfound.checked hy
  · rw [if_neg hu]
    refine ⟨status, rfl, h.stands, fun y => ?_⟩
    rw [happend, ← h.checked]
    exact ⟨Or.inl, fun hy => hy.elim id (h.stands.closed hu)⟩

/-- A checked node is known to be in a loop when one of its sources is checked. -/
theorem inside_iff (h : Checked g (before ++ [x]) status) : status x = .loopInside ↔ Reported g before x := by
  have hx : status x ≠ .unchecked := (h.checked x).mpr ⟨x, List.mem_append_right _ List.mem_cons_self, .refl⟩
  constructor
  · intro hin
    obtain ⟨p, hp, hson⟩ := h.stands.inside x hin
    obtain ⟨y, hy, hyp⟩ := (h.checked p).mp hp
    rcases List.mem_append.mp hy with hy | hy
    · exact Or.inr ⟨h.stands.bad x (Or.inr hin), y, hy, .tail' hyp hson⟩
    · rw [List.mem_singleton.mp hy] at hyp
      exact Or.inl (.tail' hyp hson)
  · intro hr
    have hbad : LeadsToCycle g.Son x := hr.elim .of_cycle And.left
    obtain ⟨y, hy, hyx⟩ : ∃ y ∈ before ++ [x], TransGen g.Son y x := by
      rcases hr with hr | ⟨-, y, hy, hyx⟩
      · exact ⟨x, List.mem_append_right _ List.mem_cons_self, hr⟩
      · exact ⟨y, List.mem_append_left _ hy, hyx⟩
    obtain ⟨p, hyp, hson⟩ := TransGen.tail'_iff.mp hyx
    have hp : status p ≠ .unchecked := (h.checked p).mpr ⟨y, hy, hyp⟩
    exact (h.stands.sons p hp List.not_mem_nil x hson).resolve_left fun e => h.stands.fine x e hbad

theorem findNodes {l : List κ} (hk : ∀ x ∈ l, x ∈ g.nodes.keys) (h : Checked g before status) (inLoop : List κ) :
    ∃ status' inLoop', l.foldlM g.findNode (status, inLoop) = .ok (status', inLoop') ∧
      ∀ x, x ∈ inLoop' ↔ x ∈ inLoop ∨ ∃ l₁ l₂, l = l₁ ++ x :: l₂ ∧ Reported g (before ++ l₁) x := by
  induction l generalizing before status inLoop with
  | nil => exact ⟨status, inLoop, rfl, fun x => by simp⟩
  | cons n l ih =>
    obtain ⟨next, hrun, hnext⟩ := checkNode_checked h (hk n List.mem_cons_self)
    obtain ⟨last, inLoop', hrest, hmem⟩ := ih (fun x hx => hk x (List.mem_cons_of_mem _ hx)) hnext
      (if next n = .loopInside then inLoop ++ [n] else inLoop)
    refine ⟨last, inLoop', ?_, fun x => (hmem x).trans ?_⟩
    · rw [List.foldlM_cons]
      unfold findNode
      rw [hrun]
      exact hrest
    · have hn : x ∈ (if next n = .loopInside then inLoop ++ [n] else inLoop) ↔ x ∈ inLoop ∨ x = n ∧ Reported g before n := by
        rw [← inside_iff hnext]
        split
        next e => simp [e]
        next e => simp [e]
      rw [hn, or_assoc]
      refine or_congr_right ⟨fun hx => ?_, fun hx => ?_⟩
      · rcases hx with ⟨rfl, hr⟩ | ⟨l₁, l₂, rfl, hr⟩
        · exact ⟨[], l, rfl, by rwa [List.append_nil]⟩
        · exact ⟨n :: l₁, l₂, rfl, by rwa [List.append_assoc] at hr⟩
      · obtain ⟨l₁, l₂, he, hr⟩ := hx
        cases l₁ with
        | nil =>
          obtain ⟨rfl, rfl⟩ := List.cons.inj he
          exact Or.inl ⟨rfl, by rwa [List.append_nil] at hr⟩
        | cons m l₁ =>
          obtain ⟨rfl, rfl⟩ := List.cons.inj he
          exact Or.inr ⟨l₁, l₂, rfl, by rwa [List.append_assoc]⟩

end

theorem loopCheck_eq (g : Graph κ) : ∃ inLoop, g.loopCheck = .ok inLoop ∧
    ∀ x, x ∈ inLoop ↔ ∃ before after, g.nodes.keys = before ++ x :: after ∧ Reported g before x := by
  have hstart : Checked g [] fun _ => .unchecked := by
    refine ⟨⟨fun x hx => absurd hx List.not_mem_nil, fun x hx => ?_, fun x hx => ?_, fun x hx => ?_, fun x hx => absurd rfl hx,
      fun x hx => ?_⟩, fun x => ⟨fun hx => absurd rfl hx, fun hx => ?_⟩⟩
    · rcases hx with hx | hx <;> cases hx
    · cases hx
    · cases hx
    · cases hx
    · obtain ⟨y, hy, -⟩ := hx
      cases hy
  obtain ⟨status, inLoop, hrun, hmem⟩ := findNodes (fun x hx => hx) hstart []
  refine ⟨inLoop, ?_, fun x => (hmem x).trans ?_⟩
  · unfold loopCheck
    rw [hrun]
    rfl
  · simp

theorem mem_keys_of_path {x y : κ} (h : TransGen g.Son x y) : y ∈ g.nodes.keys := by
  obtain ⟨p, -, hson⟩ := TransGen.tail'_iff.mp h
  exact mem_sons_keys hson

theorem reported_of_cycle {x : κ} (h : TransGen g.Son x x) :
    ∃ before after, g.nodes.keys = before ++ x :: after ∧ Reported g before x := by
  obtain ⟨before, after, hk⟩ := List.append_of_mem (mem_keys_of_path h)
  exact ⟨before, after, hk, Or.inl h⟩

theorem loopCheck_acyclic (g : Graph κ) : ∃ inLoop, g.loopCheck = .ok inLoop ∧ (inLoop = [] → Acyclic g.Son) := by
  obtain ⟨inLoop, hrun, hmem⟩ := loopCheck_eq g
  refine ⟨inLoop, hrun, fun h x hx => ?_⟩
  have hx := (hmem x).mpr (reported_of_cycle hx)
  rw [h] at hx
  cases hx

/-- The nodes of the cycles are found, and no node when there is no cycle. -/
theorem loop_check_finds_cycles (g : Graph κ) : ∃ inLoop, g.loopCheck = .ok inLoop ∧
    (∀ x, TransGen g.Son x x → x ∈ inLoop) ∧ (inLoop = [] ↔ Acyclic g.Son) := by
  obtain ⟨inLoop, hrun, hmem⟩ := loopCheck_eq g
  have hfound : ∀ x, TransGen g.Son x x → x ∈ inLoop := fun x hx => (hmem x).mpr (reported_of_cycle hx)
  refine ⟨inLoop, hrun, hfound, fun h x hx => ?_, fun h => ?_⟩
  · have hx := hfound x hx
    rw [h] at hx
    cases hx
  · refine List.eq_nil_iff_forall_not_mem.mpr fun x hx => ?_
    obtain ⟨before, after, -, hr⟩ := (hmem x).mp hx
    have hbad : LeadsToCycle g.Son x := hr.elim .of_cycle And.left
    obtain ⟨z, -, hz⟩ := hbad
    exact h z hz

/-- A node that merely leads into a cycle is returned when a node before it leads to it. -/
theorem loop_check_sound_iff (g : Graph κ) :
    (∀ inLoop, g.loopCheck = .ok inLoop → ∀ x ∈ inLoop, TransGen g.Son x x) ↔
    ∀ before x after, g.nodes.keys = before ++ x :: after → LeadsToCycle g.Son x → (∃ y ∈ before, TransGen g.Son y x) →
      TransGen g.Son x x := by
  obtain ⟨inLoop, hrun, hmem⟩ := loopCheck_eq g
  constructor
  · intro h before x after hk hbad hy
    exact h inLoop hrun x ((hmem x).mpr ⟨before, after, hk, Or.inr ⟨hbad, hy⟩⟩)
  · intro h inLoop' hrun' x hx
    rw [hrun] at hrun'
    cases hrun'
    obtain ⟨before, after, hk, hr⟩ := (hmem x).mp hx
    rcases hr with hr | ⟨hbad, hy⟩
    · exact hr
    · exact h before x after hk hbad hy

end

end

def beforeLoop : Graph Nat :=
  ((((empty.addNode 0).addNode 1).addNode 2).addEdge 0 1 |>.addEdge 1 2).addEdge 2 2

theorem node_before_loop_returned : beforeLoop.loopCheck = .ok [1, 2] ∧ ¬ TransGen beforeLoop.Son 1 1 := by
  refine ⟨by decide, fun h => ?_⟩
  have hsons : ∀ x y, (x = 1 ∨ x = 2) → beforeLoop.Son x y → y = 2 := by
    rintro x y (rfl | rfl) hy
    · exact List.mem_singleton.mp (show y ∈ [2] from hy)
    · exact List.mem_singleton.mp (show y ∈ [2] from hy)
  have hpath : ∀ y, TransGen beforeLoop.Son 1 y → y = 2 := by
    intro y hy
    induction hy with
    | single hson => exact hsons 1 _ (Or.inl rfl) hson
    | tail _ hson ih => exact hsons _ _ (Or.inr ih) hson
  exact absurd (hpath 1 h) (by decide)

end Alignak.Graph
