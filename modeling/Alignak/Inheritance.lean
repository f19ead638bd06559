import Alignak.Digraph
import Alignak.Templates

/-!
# The value an object inherits

`refValue` resolves a property on objects that do not change: the own value,
else the `+` values of the templates up to the first other one, then the own `+`
value.
-/

namespace Alignak

/-! ## Unique elements -/

def addUniq (acc : List String) (e : String) : List String := if e ∈ acc then acc else acc ++ [e]

theorem mem_addUniq {acc : List String} {e e' : String} : e' ∈ addUniq acc e ↔ e' ∈ acc ∨ e' = e := by
  unfold addUniq
  by_cases h : e ∈ acc
  · rw [if_pos h]
    exact ⟨Or.inl, fun h' => h'.elim id (fun he => he ▸ h)⟩
  · rw [if_neg h]; simp

theorem uniq_eq (l : List String) : uniq l = l.foldl addUniq [] := rfl

theorem mem_foldl_addUniq {e : String} : ∀ {l acc : List String}, e ∈ l.foldl addUniq acc ↔ e ∈ acc ∨ e ∈ l
  | [], acc => by simp
  | e' :: l, acc => by
    rw [List.foldl_cons, mem_foldl_addUniq, mem_addUniq, List.mem_cons, or_assoc]

theorem foldl_addUniq_foldl : ∀ (b acc d : List String),
    (b.foldl addUniq d).foldl addUniq acc = b.foldl addUniq (d.foldl addUniq acc)
  | [], _, _ => rfl
  | e :: b, acc, d => by
    rw [List.foldl_cons, List.foldl_cons, foldl_addUniq_foldl b]
    congr 1
    by_cases he : e ∈ d
    · have hm : e ∈ d.foldl addUniq acc := mem_foldl_addUniq.mpr (Or.inr he)
      simp only [addUniq, if_pos he, if_pos hm]
    · have hd : addUniq d e = d ++ [e] := if_neg he
      rw [hd, List.foldl_append]
      rfl

theorem uniq_mid (a b c : List String) : uniq (a ++ uniq b ++ c) = uniq (a ++ b ++ c) := by
  simp only [uniq_eq, List.foldl_append, foldl_addUniq_foldl, List.foldl_nil]

theorem uniq_filter (p : String → Bool) (l : List String) : (uniq l).filter p = uniq (l.filter p) := by
  have key : ∀ (l acc : List String), (l.foldl addUniq acc).filter p = (l.filter p).foldl addUniq (acc.filter p) := by
    intro l
    induction l with
    | nil => intro acc; rfl
    | cons e l ih =>
      intro acc
      rw [List.foldl_cons, ih, List.filter_cons]
      by_cases hp : p e = true
      · rw [if_pos hp, List.foldl_cons]
        congr 1
        unfold addUniq
        by_cases he : e ∈ acc
        · rw [if_pos he, if_pos (List.mem_filter.mpr ⟨he, hp⟩)]
        · rw [if_neg he, if_neg (fun h => he (List.mem_filter.mp h).1)]
          simp [List.filter_append, hp]
      · rw [if_neg hp]
        congr 1
        unfold addUniq
        by_cases he : e ∈ acc
        · rw [if_pos he]
        · rw [if_neg he]
          simp [List.filter_append, hp]
  exact key l []

theorem head?_foldl_addUniq : ∀ (l : List String) {e : String} {acc : List String},
    (l.foldl addUniq (e :: acc)).head? = some e
  | [], _, _ => rfl
  | e' :: l, e, acc => by
    rw [List.foldl_cons]
    unfold addUniq
    by_cases h : e' ∈ e :: acc
    · rw [if_pos h]; exact head?_foldl_addUniq l
    · rw [if_neg h]; exact head?_foldl_addUniq l

theorem head?_uniq (l : List String) : (uniq l).head? = l.head? := by
  cases l with
  | nil => rfl
  | cons e l => exact head?_foldl_addUniq l

namespace Item

section
variable (o : Item) (a b c : List String)

theorem cleanList_template (h : o.isATemplate = true) : o.cleanList a = uniq a := if_pos h

theorem cleanList_item (h : o.isATemplate = false) : o.cleanList a = uniq (a.filter fun e => e ≠ "+") := by
  rw [← uniq_filter]
  exact if_neg (by simp [h])

theorem cleanList_mid : o.cleanList (a ++ o.cleanList b ++ c) = o.cleanList (a ++ b ++ c) := by
  cases h : o.isATemplate with
  | true => simp only [o.cleanList_template _ h, uniq_mid]
  | false =>
    have hb : (uniq (b.filter fun e => e ≠ "+")).filter (fun e => e ≠ "+") = uniq (b.filter fun e => e ≠ "+") := by
      rw [uniq_filter, List.filter_filter]
      simp only [Bool.and_self]
    simp only [o.cleanList_item _ h, List.filter_append]
    rw [hb, uniq_mid]

theorem cleanList_append : o.cleanList (o.cleanList a ++ b) = o.cleanList (a ++ b) := by
  simpa using o.cleanList_mid [] a b

theorem cleanList_cleanList : o.cleanList (o.cleanList a) = o.cleanList a := by
  simpa using o.cleanList_mid [] a []

theorem cleanList_plus (h : o.isATemplate = false) : o.cleanList (a ++ "+" :: b) = o.cleanList (a ++ b) := by
  simp only [o.cleanList_item _ h, List.filter_append]
  rfl

theorem clean_clean (v : Value) : o.clean (o.clean v) = o.clean v := by
  cases v with
  | list l => exact congrArg Value.list (o.cleanList_cleanList l)
  | _ => rfl

end

end Item

/-! ## The reference value -/

namespace Value

def elements : Value → List String
  | list l => l
  | _ => []

def IsScalar (v : Value) : Prop := (∃ s, v = str s) ∨ ∃ n, v = num n

end Value

/-- The `+` values up to the first other one, and that one. -/
def takeThrough : List Value → List Value × Option Value
  | [] => ([], none)
  | v :: vs =>
    if v.isVoid then takeThrough vs
    else if v.isAdditive then (v :: (takeThrough vs).1, (takeThrough vs).2)
    else ([], some v)

def combine (o : Item) (prop : String) (vs : List Value) : Value :=
  match takeThrough vs, o.plus.get? prop with
  | ([], none), none => .none
  | ([], some v), none => o.clean v
  | (additive, final), plus =>
    let parts := additive.flatMap (fun v => v.elements.tail) ++ (final.elim [] Value.elements) ++ plus.getD []
    .list (o.cleanList (if o.isATemplate then "+" :: parts else parts))

/-- The value of the property for `x`: its own, else what its templates'
values combine to. -/
def Heap.refValue (H : Heap) (prop : String) : Nat → Nat → Value
  | 0, _ => .none
  | n + 1, x =>
    if prop = "register" then .none
    else
      match (H x).attr prop with
      | some v => (H x).clean v
      | none => combine (H x) prop ((H x).templates.map (Heap.refValue H prop n))

inductive Kind
  | list
  | scalar

def Kind.Has : Kind → Value → Prop
  | .list, v => v = .none ∨ ∃ l, v = .list l
  | .scalar, v => v = .none ∨ v.IsScalar

/-- What parsing an object makes of a property: a value of the kind, or a `+`
value, which is a list. -/
structure Kind.Fits (k : Kind) (o : Item) (prop : String) : Prop where
  attr : ∀ v, o.attr prop = some v → k.Has v ∧ o.plus.get? prop = none
  plus : ∀ pl, o.plus.get? prop = some pl → k = .list ∧ pl ≠ []

theorem additive_list {v : Value} (h : v.isAdditive = true) : ∃ r, v = .list ("+" :: r) := by
  cases v with
  | list l =>
    cases l with
    | nil => simp [Value.isAdditive] at h
    | cons s r =>
      have : s = "+" := by simpa [Value.isAdditive] using h
      exact ⟨r, by rw [this]⟩
  | _ => simp [Value.isAdditive] at h

theorem takeThrough_append {as : List Value} (h : ∀ v ∈ as, v.isAdditive = true) (vs : List Value) :
    takeThrough (as ++ vs) = (as ++ (takeThrough vs).1, (takeThrough vs).2) := by
  induction as with
  | nil => rfl
  | cons a as ih =>
    have ha := h a List.mem_cons_self
    have hv : a.isVoid = false := by
      obtain ⟨r, rfl⟩ := additive_list ha
      rfl
    rw [List.cons_append, takeThrough, hv, ha, ih fun v hm => h v (List.mem_cons_of_mem _ hm)]
    rfl

/-! ## The values set along the walk -/

namespace Item

def mark (o : Item) (parts : List String) : List String := if o.isATemplate then "+" :: parts else parts

theorem cleanList_mark (o : Item) (a b : List String) :
    o.cleanList (o.cleanList (o.mark a) ++ b) = o.cleanList (o.mark (a ++ b)) := by
  rw [cleanList_append]
  unfold mark
  by_cases h : o.isATemplate = true
  · simp only [h, if_true, List.cons_append]
  · simp only [h, Bool.false_eq_true, if_false]

/-- The list accumulated from the `+` values of the first templates. -/
def accList (o : Item) (as : List Value) : List String := o.cleanList (o.mark (as.flatMap fun v => v.elements.tail))

def withAcc (o : Item) (prop : String) (as : List Value) : Item :=
  if as = [] then o else o.setAttr prop (.list (o.accList as))

section
variable {o : Item} {prop : String} {as : List Value}

@[simp] theorem setAttr_attr (v : Value) : (o.setAttr prop v).attr prop = some v := Function.update_self ..

theorem withAcc_attr (ha : o.attr prop = none) :
    (o.withAcc prop as).attr prop = if as = [] then none else some (.list (o.accList as)) := by
  unfold withAcc
  by_cases h : as = []
  · simp [h, ha]
  · simp [h]

theorem withAcc_isATemplate : (o.withAcc prop as).isATemplate = o.isATemplate := by
  unfold withAcc; split <;> rfl

theorem withAcc_plus : (o.withAcc prop as).plus = o.plus := by
  unfold withAcc; split <;> rfl

theorem withAcc_cleanList (l : List String) : (o.withAcc prop as).cleanList l = o.cleanList l := by
  unfold cleanList; rw [withAcc_isATemplate]

theorem withAcc_markPlus (l : List String) : (o.withAcc prop as).markPlus l = o.markPlus l := by
  unfold markPlus; rw [withAcc_isATemplate]

theorem withAcc_clean (v : Value) : (o.withAcc prop as).clean v = o.clean v := by
  cases v with
  | list l => exact congrArg Value.list (withAcc_cleanList l)
  | _ => rfl

theorem withAcc_setAttr (v : Value) : (o.withAcc prop as).setAttr prop v = o.setAttr prop v := by
  unfold withAcc
  by_cases h : as = []
  · rw [if_pos h]
  · rw [if_neg h]; simp [setAttr]

theorem withAcc_snoc {v : Value} :
    o.setAttr prop (.list (o.accList (as ++ [v]))) = o.withAcc prop (as ++ [v]) := by
  unfold withAcc; rw [if_neg (by simp)]

end

end Item

namespace Heap

variable {v : Value} {l pl : List String}

section
variable {o : Item} {prop : String} {as : List Value}

theorem mergeValue_additive (ha : o.attr prop = none) (hv : v.isAdditive = true) :
    mergeValue (o.withAcc prop as) prop v = .ok (.list (o.accList (as ++ [v]))) := by
  obtain ⟨r, rfl⟩ := additive_list hv
  unfold mergeValue
  rw [Item.withAcc_attr ha, Item.withAcc_isATemplate]
  simp only [hv, Item.withAcc_clean]
  by_cases hn : as = []
  · subst hn
    cases ht : o.isATemplate with
    | true => simp [Item.clean, Item.accList, Item.mark, ht, Value.elements]
    | false => simp [Item.clean, Item.accList, Item.mark, ht, Value.elements, Value.tail]
  · rw [if_neg hn]
    have hsnoc : o.accList (as ++ [.list ("+" :: r)]) = o.cleanList (o.accList as ++ r) := by
      unfold Item.accList
      rw [Item.cleanList_mark, List.flatMap_append]
      simp [Value.elements]
    rw [hsnoc]
    cases ht : o.isATemplate with
    | true => rfl
    | false =>
      -- an item has dropped its `+`; a second one makes no difference
      cases r with
      | nil => rfl
      | cons s r =>
        by_cases hs : s = "+"
        · subst hs
          exact congrArg (fun l => Except.ok (Value.list l)) (o.cleanList_plus _ _ ht).symm
        · have hp : (Value.list (s :: r)).startsWithPlus = false := by simp [Value.startsWithPlus, hs]
          simp only [Bool.not_false, Bool.and_true, if_true, Value.tail, List.tail_cons, hp]
          rfl

theorem mergeValue_first (ha : o.attr prop = none) (hv : v.isAdditive = false) :
    mergeValue o prop v = .ok (o.clean v) := by
  unfold mergeValue
  simp only [hv, ha, Bool.false_and]
  rfl

theorem mergeValue_final (ha : o.attr prop = none) (hv : (Value.list l).isAdditive = false)
    (hn : as ≠ []) :
    mergeValue (o.withAcc prop as) prop (.list l) =
      .ok (.list (o.cleanList (o.mark ((as.flatMap fun v => v.elements.tail) ++ l)))) := by
  have hp : (Value.list l).startsWithPlus = false := by
    cases l with
    | nil => rfl
    | cons s r => exact hv
  unfold mergeValue
  rw [Item.withAcc_attr ha, if_neg hn]
  simp only [hv, Item.withAcc_clean, Bool.false_and, Bool.false_eq_true, if_false, hp]
  rw [← Item.cleanList_mark]
  rfl

theorem addPlus_marked (parts : List String) (hl : l = o.cleanList (o.mark parts)) :
    o.cleanList (o.markPlus (l ++ pl)) = o.cleanList (o.mark (parts ++ pl)) := by
  subst hl
  rw [← Item.cleanList_mark]
  congr 1
  unfold Item.markPlus
  cases ht : o.isATemplate with
  | false => rfl
  | true =>
    have hh : (o.cleanList (o.mark parts) ++ pl).head? = some "+" := by
      rw [Item.cleanList_template _ _ ht, List.head?_append, head?_uniq]
      simp [Item.mark, ht]
    simp [hh]

end

/-! ## The walk over the templates -/

structure SameBut (prop : String) (o o' : Item) : Prop where
  isATemplate : o'.isATemplate = o.isATemplate
  templates : o'.templates = o.templates
  customs : o'.customs = o.customs
  other : ∀ p, p ≠ prop → o'.attr p = o.attr p ∧ o'.plus.get? p = o.plus.get? p

theorem SameBut.refl (prop : String) (o : Item) : SameBut prop o o := ⟨rfl, rfl, rfl, fun _ _ => ⟨rfl, rfl⟩⟩

theorem SameBut.trans {prop : String} {o o' o'' : Item} (h : SameBut prop o o') (h' : SameBut prop o' o'') :
    SameBut prop o o'' :=
  ⟨h'.isATemplate.trans h.isATemplate, h'.templates.trans h.templates, h'.customs.trans h.customs,
    fun p hp => ⟨(h'.other p hp).1.trans (h.other p hp).1, (h'.other p hp).2.trans (h.other p hp).2⟩⟩

theorem SameBut.setAttr (prop : String) (o : Item) (v : Value) : SameBut prop o (o.setAttr prop v) :=
  ⟨rfl, rfl, rfl, fun _ hp => ⟨Function.update_of_ne hp _ _, rfl⟩⟩

theorem SameBut.delAttr (prop : String) (o : Item) : SameBut prop o (o.delAttr prop) :=
  ⟨rfl, rfl, rfl, fun _ hp => ⟨Function.update_of_ne hp _ _, rfl⟩⟩

theorem SameBut.delPlus (prop : String) (o : Item) : SameBut prop o (o.delPlus prop) :=
  ⟨rfl, rfl, rfl, fun _ hp => ⟨rfl, Dict.get?_erase_ne hp⟩⟩

theorem SameBut.withAcc (prop : String) (o : Item) (as : List Value) : SameBut prop o (o.withAcc prop as) := by
  unfold Item.withAcc
  by_cases h : as = []
  · rw [if_pos h]; exact SameBut.refl prop o
  · rw [if_neg h]; exact SameBut.setAttr prop o _

@[simp] theorem set_self (H : Heap) (x : Nat) (o : Item) : H.set x o x = o := Function.update_self ..

theorem set_ne {H : Heap} {x y : Nat} (o : Item) (h : y ≠ x) : H.set x o y = H y := Function.update_of_ne h _ _

/-- The object after the property was resolved to `v`. -/
structure Resolved (prop : String) (o : Item) (v : Value) (o' : Item) : Prop where
  same : SameBut prop o o'
  attr : o'.attr prop = if v = .none then none else some v
  plus : o'.plus.get? prop = none

section
variable {o : Item} {prop : String}

theorem combine_additive_cons {vs as : List Value} {f : Option Value} (h : takeThrough vs = (as, f)) (hn : as ≠ []) :
    combine o prop vs = .list (o.cleanList (o.mark
      (as.flatMap (fun v => v.elements.tail) ++ f.elim [] Value.elements ++ (o.plus.get? prop).getD []))) := by
  unfold combine
  rw [h]
  cases as with
  | nil => exact absurd rfl hn
  | cons a as => rfl

theorem addPlus_ok (hl : (l ++ pl).isEmpty = false) (w : Value) :
    addPlus (o.setAttr prop w) (.list l) pl = .ok (.list (o.cleanList (o.markPlus (l ++ pl)))) := by
  unfold addPlus
  simp only [Value.toList, bind, Except.bind, hl, Bool.and_false]
  rfl

theorem markPlus_first (hl : (Value.list l).isAdditive = false) (hn : l ≠ []) :
    o.cleanList (o.markPlus (o.cleanList l ++ pl)) = o.cleanList (o.mark (l ++ pl)) := by
  unfold Item.markPlus Item.mark
  cases ht : o.isATemplate with
  | false => exact o.cleanList_append l pl
  | true =>
    cases l with
    | nil => exact absurd rfl hn
    | cons e l =>
      have hh : (o.cleanList (e :: l) ++ pl).head? = some e := by
        rw [Item.cleanList_template _ _ ht, List.head?_append, head?_uniq]
        rfl
      have he : e ≠ "+" := by simpa [Value.isAdditive] using hl
      have hemp : (o.cleanList (e :: l) ++ pl).isEmpty = false := by
        cases hc : o.cleanList (e :: l) ++ pl with
        | nil => rw [hc] at hh; cases hh
        | cons a b => rfl
      have hne : (some e != some "+") = true := by simpa using he
      simp only [hh, hemp, hne, Bool.not_false, Bool.and_self, if_true]
      exact o.cleanList_mid ["+"] (e :: l) pl

theorem finish_walk (ha : o.attr prop = none) {as : List Value} {vs : List Value}
    (ht : takeThrough vs = (as, some v)) (hv : v.isAdditive = false) (hv' : v.isVoid = false)
    {k : Kind} (hf : k.Fits o prop) (hk : k.Has v) (has : as = [] ∨ k = .list) :
    ∃ w, mergeValue (o.withAcc prop as) prop v = .ok w ∧
      match o.plus.get? prop with
      | none => w = combine o prop vs
      | some pl => addPlus (o.setAttr prop w) w pl = .ok (combine o prop vs) := by
  have hlist : k = .list → ∃ l, v = .list l := by
    intro h
    subst h
    rcases hk with h | h
    · subst h; cases hv'
    · exact h
  by_cases hn : as = []
  · subst hn
    refine ⟨o.clean v, mergeValue_first ha hv, ?_⟩
    cases hp : o.plus.get? prop with
    | none => simp [combine, ht, hp]
    | some pl =>
      obtain ⟨l, rfl⟩ := hlist (hf.plus pl hp).1
      have hl : l ≠ [] := fun h => by rw [h] at hv'; cases hv'
      have hemp : (o.cleanList l ++ pl).isEmpty = false := by
        rw [List.isEmpty_eq_false_iff]
        intro h
        exact (hf.plus pl hp).2 (List.append_eq_nil_iff.mp h).2
      simp only [combine, ht, hp, Item.clean]
      rw [addPlus_ok hemp, markPlus_first hv hl]
      rfl
  · obtain ⟨l, rfl⟩ := hlist (has.resolve_left hn)
    refine ⟨_, mergeValue_final ha hv hn, ?_⟩
    rw [combine_additive_cons ht hn]
    cases hp : o.plus.get? prop with
    | none => simp [Value.elements]
    | some pl =>
      have hemp : (o.cleanList (o.mark (as.flatMap (fun v => v.elements.tail) ++ l)) ++ pl).isEmpty = false := by
        rw [List.isEmpty_eq_false_iff]
        intro h
        exact (hf.plus pl hp).2 (List.append_eq_nil_iff.mp h).2
      simp only
      rw [addPlus_ok hemp, addPlus_marked _ rfl]
      rfl

end

end Heap

end Alignak
