import Alignak.SchedulingItem
import Mathlib.Data.List.Infix
import Mathlib.Data.Rat.Defs
import Mathlib.Algebra.Order.Ring.Rat

/-!
# The requests of the satellites

A satellite asks its schedulers for the checks or the actions to run, with its
tags and its module types.
-/

namespace Alignak.PollRequests

open Scheduling

abbrev Text := List Char

/-! ## What is to run -/

structure ToRun where
  uuid : Text
  isNotification : Bool
  contact : Text
  tag : Text
  moduleType : Text
  internal : Bool
  status : ActStatus
  tToGo : Option Rat
  myWorker : Text
  deriving DecidableEq, Repr

def ToRun.isLaunchable (x : ToRun) (timestamp : Rat) : Bool :=
  match x.tToGo with
  | none => false
  | some tToGo => decide (tToGo ≤ timestamp)

def ToRun.isMaster (x : ToRun) : Bool := x.isNotification && x.contact.isEmpty

structure Scheduler where
  checks : List ToRun
  actions : List ToRun
  nbChecksLaunched : Nat
  nbActionsLaunched : Nat
  deriving Repr

/-! ## Parameters -/

inductive Param
  | str (s : Text)
  | list (l : List Text)
  deriving DecidableEq, Repr

/-- The `in` of a string looks for a part of it. -/
def Param.holds (tag : Text) : Param → Bool
  | .str s => decide (tag <:+: s)
  | .list l => l.contains tag

def Param.asList : Param → List Text
  | .str s => [s]
  | .list l => l

def none' : Text := "None".toList

def fork : Text := "fork".toList

def arrives : List Text → Option Param
  | [] => none
  | [s] => some (.str s)
  | l => some (.list l)

/-! ## The selection -/

def wantsCheck (now : Rat) (pollerTags : Param) (moduleTypes : List Text) (check : ToRun) : Bool :=
  !check.internal && pollerTags.holds check.tag && moduleTypes.contains check.moduleType &&
    check.status == .scheduled && check.isLaunchable now

def wantsAction (now : Rat) (reactionnerTags : Param) (moduleTypes : List Text) (action : ToRun) : Bool :=
  !action.internal && !action.isMaster && reactionnerTags.holds action.tag && moduleTypes.contains action.moduleType &&
    action.status == .scheduled && action.isLaunchable now

def polled (workerName : Text) (x : ToRun) : ToRun := { x with status := .polled, myWorker := workerName }

def poll (wants : ToRun → Bool) (workerName : Text) (l : List ToRun) : List ToRun × List ToRun × Nat :=
  ((l.filter wants).map (polled workerName), l.map (fun x => if wants x then polled workerName x else x),
    (l.filter wants).length)

def getToRunChecks (now : Rat) (s : Scheduler) (doChecks doActions : Bool) (pollerTags reactionnerTags : Option Param)
    (workerName : Text) (moduleTypes : Option Param) : List ToRun × Scheduler :=
  let pollerTags := pollerTags.getD (.list [none'])
  let reactionnerTags := reactionnerTags.getD (.list [none'])
  let moduleTypes := (moduleTypes.getD (.list [fork])).asList
  let checks := poll (wantsCheck now pollerTags moduleTypes) workerName s.checks
  let actions := poll (wantsAction now reactionnerTags moduleTypes) workerName s.actions
  let s := if doChecks then { s with checks := checks.2.1, nbChecksLaunched := s.nbChecksLaunched + checks.2.2 } else s
  let s := if doActions then { s with actions := actions.2.1, nbActionsLaunched := s.nbActionsLaunched + actions.2.2 } else s
  ((if doChecks then checks.1 else []) ++ if doActions then actions.1 else [], s)

/-- `_checks` of the HTTP interface. -/
def checksInterface (now : Rat) (s : Scheduler) (doChecks doActions : Text) (pollerTags reactionnerTags : Option Param)
    (workerName : Text) (moduleTypes : Option Param) : List ToRun × Scheduler :=
  getToRunChecks now s (doChecks == "True".toList) (doActions == "True".toList)
    (some (pollerTags.getD (.list [none']))) (some (reactionnerTags.getD (.list [none']))) workerName
    (some (moduleTypes.getD (.list [fork])))

structure Satellite where
  name : Text
  doChecks : Bool
  doActions : Bool
  pollerTags : List Text
  reactionnerTags : List Text
  moduleTypes : List Text
  pollerTagged : pollerTags ≠ []
  reactionnerTagged : reactionnerTags ≠ []

def boolText (b : Bool) : Text := if b then "True".toList else "False".toList

def doGetNewActions (now : Rat) (s : Scheduler) (sat : Satellite) : List ToRun × Scheduler :=
  checksInterface now s (boolText sat.doChecks) (boolText sat.doActions) (arrives sat.pollerTags)
    (arrives sat.reactionnerTags) sat.name (arrives sat.moduleTypes)

/-! ## What should be given -/

def Ready (now : Rat) (x : ToRun) : Prop := x.internal = false ∧ x.status = .scheduled ∧ x.isLaunchable now = true

instance decidableReady (now : Rat) (x : ToRun) : Decidable (Ready now x) := inferInstanceAs (Decidable (_ ∧ _))

def Suits (tags moduleTypes : List Text) (x : ToRun) : Prop := x.tag ∈ tags ∧ x.moduleType ∈ moduleTypes

instance decidableSuits (tags moduleTypes : List Text) (x : ToRun) : Decidable (Suits tags moduleTypes x) :=
  decidable_of_iff ((tags.contains x.tag && moduleTypes.contains x.moduleType) = true) (by simp [Suits])

def dueChecks (now : Rat) (s : Scheduler) (sat : Satellite) : List ToRun :=
  if sat.doChecks then s.checks.filter fun x => Ready now x ∧ Suits sat.pollerTags sat.moduleTypes x else []

def dueActions (now : Rat) (s : Scheduler) (sat : Satellite) : List ToRun :=
  if sat.doActions then
    s.actions.filter fun x => x.isMaster = false ∧ Ready now x ∧ Suits sat.reactionnerTags sat.moduleTypes x
  else []

def Told (tags moduleTypes : List Text) (x : ToRun) : Prop :=
  if moduleTypes = [] then x.moduleType = fork → x.tag ∉ tags ∧ ∀ t, tags = [t] → ¬ x.tag <:+: t
  else x.moduleType ∈ moduleTypes → ∀ t, tags = [t] → x.tag <:+: t → x.tag = t

/-- No check or action that is ready has a part of the only tag as its own. -/
structure Unambiguous (now : Rat) (s : Scheduler) (sat : Satellite) : Prop where
  checks : sat.doChecks = true → ∀ x ∈ s.checks, Ready now x → Told sat.pollerTags sat.moduleTypes x
  actions : sat.doActions = true → ∀ x ∈ s.actions, x.isMaster = false → Ready now x →
    Told sat.reactionnerTags sat.moduleTypes x

/-! ## Selections that agree -/

section
variable {α β : Type} {p q : α → Bool} {l : List α}

theorem length_filter_le (h : ∀ x ∈ l, q x = true → p x = true) : (l.filter q).length ≤ (l.filter p).length := by
  rw [← List.countP_eq_length_filter, ← List.countP_eq_length_filter]
  exact List.countP_mono_left h

theorem length_filter_eq (h : ∀ x ∈ l, q x = true → p x = true) :
    (l.filter p).length = (l.filter q).length ↔ ∀ x ∈ l, p x = true → q x = true := by
  induction l with
  | nil => simp
  | cons a l ih =>
    have hle := length_filter_le fun x hx => h x (List.mem_cons_of_mem a hx)
    have hl := ih fun x hx => h x (List.mem_cons_of_mem a hx)
    rw [List.forall_mem_cons, ← hl, List.filter_cons, List.filter_cons]
    cases hp : p a with
    | false =>
      have hq : q a = false := by
        rw [← Bool.not_eq_true]
        intro hq
        rw [h a List.mem_cons_self hq] at hp
        cases hp
      simp [hq]
    | true =>
      cases hq : q a with
      | true => simp
      | false =>
        simp only [Bool.false_eq_true, if_false, if_true, List.length_cons]
        constructor
        · intro he
          omega
        · intro he
          exact (he.1 trivial).elim

theorem filters_eq_iff {p' q' : β → Bool} {l' : List β} {γ : Type} {f : α → γ} {f' : β → γ}
    (h : ∀ x ∈ l, q x = true → p x = true) (h' : ∀ x ∈ l', q' x = true → p' x = true) :
    (l.filter p).map f ++ (l'.filter p').map f' = (l.filter q).map f ++ (l'.filter q').map f' ↔
      (∀ x ∈ l, p x = true → q x = true) ∧ ∀ x ∈ l', p' x = true → q' x = true := by
  constructor
  · intro he
    have hlength := congrArg List.length he
    simp only [List.length_append, List.length_map] at hlength
    have hle := length_filter_le h
    have hle' := length_filter_le h'
    exact ⟨(length_filter_eq h).mp (by omega), (length_filter_eq h').mp (by omega)⟩
  · rintro ⟨hsame, hsame'⟩
    have hfilter : l.filter p = l.filter q :=
      List.filter_congr fun x hx => Bool.eq_iff_iff.mpr ⟨hsame x hx, h x hx⟩
    have hfilter' : l'.filter p' = l'.filter q' :=
      List.filter_congr fun x hx => Bool.eq_iff_iff.mpr ⟨hsame' x hx, h' x hx⟩
    rw [hfilter, hfilter']

end

/-! ## What arrives -/

section
variable {tags moduleTypes : List Text} {x : ToRun} {now : Rat} {s : Scheduler} {sat : Satellite}

theorem holds_arrived (h : tags ≠ []) (tag : Text) :
    (((arrives tags).getD (.list [none'])).holds tag = true) ↔ tag ∈ tags ∨ ∃ t, tags = [t] ∧ tag <:+: t := by
  match tags with
  | [] => exact absurd rfl h
  | [t] =>
    simp only [arrives, Option.getD_some, Param.holds, decide_eq_true_eq, List.mem_singleton, List.cons.injEq, and_true]
    constructor
    · intro hpart
      exact Or.inr ⟨t, rfl, hpart⟩
    · rintro (rfl | ⟨_, rfl, hpart⟩)
      · exact List.infix_rfl
      · exact hpart
  | t :: t' :: l => simp [arrives, Param.holds]

theorem modules_arrived (moduleTypes : List Text) : ((arrives moduleTypes).getD (.list [fork])).asList =
    if moduleTypes = [] then [fork] else moduleTypes := by
  match moduleTypes with
  | [] => rfl
  | [_] => rfl
  | _ :: _ :: _ => rfl

def accepts (tags moduleTypes : List Text) (x : ToRun) : Bool :=
  ((arrives tags).getD (.list [none'])).holds x.tag && ((arrives moduleTypes).getD (.list [fork])).asList.contains x.moduleType

theorem accepts_iff (h : tags ≠ []) : accepts tags moduleTypes x = true ↔
    (x.tag ∈ tags ∨ ∃ t, tags = [t] ∧ x.tag <:+: t) ∧
      x.moduleType ∈ if moduleTypes = [] then [fork] else moduleTypes := by
  unfold accepts
  rw [Bool.and_eq_true, holds_arrived h, modules_arrived, List.contains_iff_mem]

theorem accepts_of_suits (h : tags ≠ []) (hs : Suits tags moduleTypes x) : accepts tags moduleTypes x = true := by
  rw [accepts_iff h, if_neg (List.ne_nil_of_mem hs.2)]
  exact ⟨Or.inl hs.1, hs.2⟩

theorem told_iff (h : tags ≠ []) :
    (accepts tags moduleTypes x = true → Suits tags moduleTypes x) ↔ Told tags moduleTypes x := by
  rw [accepts_iff h]
  unfold Suits Told
  by_cases hm : moduleTypes = []
  · rw [if_pos hm, if_pos hm, hm, List.mem_singleton]
    constructor
    · intro hsuits hfork
      constructor
      · intro hmem
        exact absurd (hsuits ⟨Or.inl hmem, hfork⟩).2 List.not_mem_nil
      · intro t ht hpart
        exact absurd (hsuits ⟨Or.inr ⟨t, ht, hpart⟩, hfork⟩).2 List.not_mem_nil
    · rintro htold ⟨hmem | ⟨t, ht, hpart⟩, hfork⟩
      · exact absurd hmem (htold hfork).1
      · exact absurd hpart ((htold hfork).2 t ht)
  · rw [if_neg hm, if_neg hm]
    constructor
    · intro hsuits hmodule t ht hpart
      have hmem := (hsuits ⟨Or.inr ⟨t, ht, hpart⟩, hmodule⟩).1
      rw [ht] at hmem
      exact List.mem_singleton.mp hmem
    · rintro htold ⟨hmem | ⟨t, ht, hpart⟩, hmodule⟩
      · exact ⟨hmem, hmodule⟩
      · refine ⟨?_, hmodule⟩
        rw [htold hmodule t ht hpart, ht]
        exact List.mem_singleton_self t

/-! ## The answer -/

theorem boolText_true (b : Bool) : (boolText b == "True".toList) = b := by cases b <;> decide

theorem wantsCheck_iff : wantsCheck now ((arrives tags).getD (.list [none'])) ((arrives moduleTypes).getD (.list [fork])).asList x = true ↔
    Ready now x ∧ accepts tags moduleTypes x = true := by
  unfold wantsCheck Ready accepts
  simp only [Bool.and_eq_true, Bool.not_eq_true', beq_iff_eq]
  tauto

theorem wantsAction_iff : wantsAction now ((arrives tags).getD (.list [none'])) ((arrives moduleTypes).getD (.list [fork])).asList x = true ↔
    x.isMaster = false ∧ Ready now x ∧ accepts tags moduleTypes x = true := by
  unfold wantsAction Ready accepts
  simp only [Bool.and_eq_true, Bool.not_eq_true', beq_iff_eq]
  tauto

theorem answer_eq : (doGetNewActions now s sat).1 =
    ((if sat.doChecks then s.checks else []).filter (wantsCheck now ((arrives sat.pollerTags).getD (.list [none']))
      ((arrives sat.moduleTypes).getD (.list [fork])).asList)).map (polled sat.name) ++
    ((if sat.doActions then s.actions else []).filter (wantsAction now ((arrives sat.reactionnerTags).getD (.list [none']))
      ((arrives sat.moduleTypes).getD (.list [fork])).asList)).map (polled sat.name) := by
  unfold doGetNewActions checksInterface getToRunChecks poll
  simp only [boolText_true, Option.getD_some]
  cases sat.doChecks <;> cases sat.doActions <;> rfl

theorem due_eq : (dueChecks now s sat ++ dueActions now s sat).map (polled sat.name) =
    ((if sat.doChecks then s.checks else []).filter fun x =>
      Ready now x ∧ Suits sat.pollerTags sat.moduleTypes x).map (polled sat.name) ++
    ((if sat.doActions then s.actions else []).filter fun x =>
      x.isMaster = false ∧ Ready now x ∧ Suits sat.reactionnerTags sat.moduleTypes x).map (polled sat.name) := by
  unfold dueChecks dueActions
  rw [List.map_append]
  cases sat.doChecks <;> cases sat.doActions <;> rfl

end

/-- A satellite is given what is due to it, and no more, if and only if the tags
of what is ready cannot be taken for its own. -/
theorem given_iff_unambiguous (now : Rat) (s : Scheduler) (sat : Satellite) :
    (doGetNewActions now s sat).1 = (dueChecks now s sat ++ dueActions now s sat).map (polled sat.name) ↔
      Unambiguous now s sat := by
  rw [answer_eq, due_eq, filters_eq_iff]
  · constructor
    · intro ⟨hchecks, hactions⟩
      constructor
      · intro hdo x hx hready
        apply (told_iff sat.pollerTagged).mp
        intro haccepts
        have hdue := hchecks x (by rw [if_pos hdo]; exact hx) (wantsCheck_iff.mpr ⟨hready, haccepts⟩)
        exact (of_decide_eq_true hdue).2
      · intro hdo x hx hmaster hready
        apply (told_iff sat.reactionnerTagged).mp
        intro haccepts
        have hdue := hactions x (by rw [if_pos hdo]; exact hx) (wantsAction_iff.mpr ⟨hmaster, hready, haccepts⟩)
        exact (of_decide_eq_true hdue).2.2
    · intro h
      constructor
      · intro x hx hwants
        obtain ⟨hready, haccepts⟩ := wantsCheck_iff.mp hwants
        cases hdo : sat.doChecks with
        | false => simp [hdo] at hx
        | true =>
          rw [if_pos hdo] at hx
          exact decide_eq_true ⟨hready, (told_iff sat.pollerTagged).mpr (h.checks hdo x hx hready) haccepts⟩
      · intro x hx hwants
        obtain ⟨hmaster, hready, haccepts⟩ := wantsAction_iff.mp hwants
        cases hdo : sat.doActions with
        | false => simp [hdo] at hx
        | true =>
          rw [if_pos hdo] at hx
          exact decide_eq_true ⟨hmaster, hready, (told_iff sat.reactionnerTagged).mpr (h.actions hdo x hx hmaster hready) haccepts⟩
  · intro x _ hdue
    obtain ⟨hready, hsuits⟩ := of_decide_eq_true hdue
    exact wantsCheck_iff.mpr ⟨hready, accepts_of_suits sat.pollerTagged hsuits⟩
  · intro x _ hdue
    obtain ⟨hmaster, hready, hsuits⟩ := of_decide_eq_true hdue
    exact wantsAction_iff.mpr ⟨hmaster, hready, accepts_of_suits sat.reactionnerTagged hsuits⟩

/-! ## A tag within another -/

def dmzCheck : ToRun := ⟨"c1".toList, false, [], "DMZ".toList, fork, false, .scheduled, some 0, []⟩

def oneCheck : Scheduler := ⟨[dmzCheck], [], 0, 0⟩

def dmz2Poller : Satellite :=
  ⟨"poller".toList, true, false, ["DMZ2".toList], ["None".toList], [fork], by simp, by simp⟩

/-- The check of the DMZ goes to the poller of another one. -/
theorem tag_mistaken : (doGetNewActions 1 oneCheck dmz2Poller).1 = [polled "poller".toList dmzCheck] ∧
    dueChecks 1 oneCheck dmz2Poller ++ dueActions 1 oneCheck dmz2Poller = [] := by
  decide

end Alignak.PollRequests
