import Alignak.SchedulingItem
import Mathlib.Data.Rat.Floor
import Mathlib.Tactic.Linarith

/-!
# Orphans

A poll hands out checks and actions, a result ends them, and a pass takes back
those that it holds for lost. The contents of the results are those of
`manageResults` in the runs of checks.
-/

namespace Alignak.Orphans

open Scheduling (ActStatus)

inductive Kind
  | check
  | notification
  | eventhandler
  deriving DecidableEq, Repr

structure Handed where
  worker : String
  polledAt : Rat
  returned : Bool
  deriving DecidableEq, Repr

structure Action where
  isA : Kind
  status : ActStatus
  tToGo : Option Rat
  myWorker : String
  isOrphan : Bool
  internal : Bool
  contact : Bool
  ref : Nat
  tag : String
  moduleType : String
  handed : Option Handed
  deriving Repr

structure Conf where
  checkForOrphaned : Nat → Bool
  timeToOrphanage : Nat → Int

def Conf.getTimeToOrphanage (conf : Conf) (ref : Nat) : Int :=
  if !conf.checkForOrphaned ref then 0
  else if conf.timeToOrphanage ref ≤ 0 then 0
  else conf.timeToOrphanage ref

structure World where
  checks : List Nat
  actions : List Nat
  object : Nat → Action
  next : Nat

/-! ## Polls -/

structure Poll where
  doChecks : Bool
  doActions : Bool
  pollerTags : List String
  reactionnerTags : List String
  workerName : String
  moduleTypes : List String
  now : Rat

def Action.isLaunchable (a : Action) (now : Rat) : Bool :=
  match a.tToGo with
  | none => false
  | some t => t ≤ now

def Poll.takesCheck (p : Poll) (a : Action) : Bool :=
  !a.internal && p.pollerTags.contains a.tag && p.moduleTypes.contains a.moduleType &&
    (a.status = .scheduled && a.isLaunchable p.now)

def Action.isMaster (a : Action) : Bool := a.isA = .notification && !a.contact

def Poll.takesAction (p : Poll) (a : Action) : Bool :=
  !a.internal && !a.isMaster && p.reactionnerTags.contains a.tag && p.moduleTypes.contains a.moduleType &&
    (a.status = .scheduled && a.isLaunchable p.now)

def Poll.give (p : Poll) (a : Action) : Action :=
  { a with status := .polled, myWorker := p.workerName, handed := some ⟨p.workerName, p.now, false⟩ }

def Poll.loop (p : Poll) (takes : Action → Bool) : List Nat → (Nat → Action) × List Nat → (Nat → Action) × List Nat
  | [], x => x
  | i :: is, (object, res) =>
    if takes (object i) then Poll.loop p takes is (Function.update object i (p.give (object i)), res ++ [i])
    else Poll.loop p takes is (object, res)

def getToRunChecks (p : Poll) (w : World) : List Nat × World :=
  let x := if p.doChecks then p.loop p.takesCheck w.checks (w.object, []) else (w.object, [])
  let x := if p.doActions then p.loop p.takesAction w.actions x else x
  (x.2, { w with object := x.1 })

/-! ## Results -/

def Action.answered (status : ActStatus) (a : Action) : Action :=
  { a with status := status, handed := a.handed.map fun h => { h with returned := true } }

def manageResults (isA : Kind) (i : Nat) (w : World) : World :=
  match isA with
  | .notification | .eventhandler =>
    if i ∈ w.actions then { w with object := Function.update w.object i ((w.object i).answered .zombie) } else w
  | .check =>
    if i ∈ w.checks then { w with object := Function.update w.object i ((w.object i).answered .waitConsume) } else w

/-! ## Orphans -/

def Action.orphan (a : Action) : Action := { a with isOrphan := true, status := .scheduled }

/-- The comparison of a missing time raises an error that ends the pass. -/
def orphanLoop (conf : Conf) (now : Int) : List Nat → (Nat → Action) → Nat → Action
  | [], object => object
  | i :: is, object =>
    if (object i).status ≠ .polled then orphanLoop conf now is object
    else
      let timeToOrphanage := conf.getTimeToOrphanage (object i).ref
      if timeToOrphanage = 0 then orphanLoop conf now is object
      else match (object i).tToGo with
        | none => object
        | some t =>
          if ((now - timeToOrphanage : Int) : Rat) < t then orphanLoop conf now is object
          else orphanLoop conf now is (Function.update object i (object i).orphan)

def checkOrphaned (conf : Conf) (now : Rat) (w : World) : World :=
  { w with object := orphanLoop conf ⌊now⌋ (w.checks ++ w.actions) w.object }

/-! ## Runs -/

structure NewAction where
  action : Action
  notPolled : action.status ≠ .polled

inductive Event
  | addCheck (a : NewAction)
  | addAction (a : NewAction)
  | poll (p : Poll)
  | result (isA : Kind) (i : Nat)
  | checkOrphaned (now : Rat)

def World.add (a : NewAction) (w : World) : World :=
  { w with object := Function.update w.object w.next { a.action with handed := none }, next := w.next + 1 }

def World.step (conf : Conf) (w : World) : Event → World
  | .addCheck a => { w.add a with checks := w.checks ++ [w.next] }
  | .addAction a => { w.add a with actions := w.actions ++ [w.next] }
  | .poll p => (getToRunChecks p w).2
  | .result isA i => manageResults isA i w
  | .checkOrphaned now => Orphans.checkOrphaned conf now w

def World.run (conf : Conf) (w : World) (events : List Event) : World := events.foldl (World.step conf) w

/-! ## The objects after a step -/

variable {a b : Action} {e : Event}

section
variable {conf : Conf} {w : World} {p : Poll} {now : Int} {i : Nat}

theorem loop_object (takes : Action → Bool) (htwice : ∀ a, takes (p.give a) = false) (is : List Nat)
    (x : (Nat → Action) × List Nat) (i : Nat) : (p.loop takes is x).1 i = x.1 i ∨
      takes (x.1 i) = true ∧ (p.loop takes is x).1 i = p.give (x.1 i) := by
  induction is generalizing x with
  | nil => exact Or.inl rfl
  | cons j js ih =>
    rw [Poll.loop]
    split
    · rename_i hj
      have hrest := ih (Function.update x.1 j (p.give (x.1 j)), x.2 ++ [j])
      by_cases hij : i = j
      · subst hij
        simp only [Function.update_self] at hrest
        rcases hrest with h | ⟨h, -⟩
        · exact Or.inr ⟨hj, h⟩
        · rw [htwice] at h
          cases h
      · simp only [Function.update_of_ne hij] at hrest
        exact hrest
    · exact ih x

theorem takesCheck_give (a : Action) : p.takesCheck (p.give a) = false := by
  simp [Poll.takesCheck, Poll.give]

theorem takesAction_give (a : Action) : p.takesAction (p.give a) = false := by
  simp [Poll.takesAction, Poll.give]

def Action.Available (a : Action) (now : Rat) : Prop :=
  a.status = .scheduled ∧ ∃ t, a.tToGo = some t ∧ t ≤ now

theorem isLaunchable_iff (a : Action) (now : Rat) : a.isLaunchable now = true ↔ ∃ t, a.tToGo = some t ∧ t ≤ now := by
  unfold Action.isLaunchable
  cases a.tToGo with
  | none => simp
  | some t => simp

theorem available_of_takesCheck (h : p.takesCheck a = true) : a.Available p.now := by
  simp only [Poll.takesCheck, Bool.and_eq_true, decide_eq_true_eq, isLaunchable_iff] at h
  exact h.2

theorem available_of_takesAction (h : p.takesAction a = true) : a.Available p.now := by
  simp only [Poll.takesAction, Bool.and_eq_true, decide_eq_true_eq, isLaunchable_iff] at h
  exact h.2

theorem getToRunChecks_object (p : Poll) (w : World) (i : Nat) : (getToRunChecks p w).2.object i = w.object i ∨
    (w.object i).Available p.now ∧ (getToRunChecks p w).2.object i = p.give (w.object i) := by
  have hchecks := loop_object p.takesCheck takesCheck_give w.checks (w.object, []) i
  unfold getToRunChecks
  dsimp only
  generalize hx : (if p.doChecks then p.loop p.takesCheck w.checks (w.object, []) else (w.object, [])) = x
  have hx' : x.1 i = w.object i ∨ (w.object i).Available p.now ∧ x.1 i = p.give (w.object i) := by
    rw [← hx]
    split
    · exact hchecks.imp_right fun h => ⟨available_of_takesCheck h.1, h.2⟩
    · exact Or.inl rfl
  split
  · rcases loop_object p.takesAction takesAction_give w.actions x i with h | ⟨htakes, h⟩
    · rw [h]
      exact hx'
    · rcases hx' with hx' | ⟨-, hx'⟩
      · rw [hx'] at htakes h
        exact Or.inr ⟨available_of_takesAction htakes, h⟩
      · -- the checks' loop has taken it already
        rw [hx', takesAction_give] at htakes
        cases htakes
  · exact hx'

theorem manageResults_object (isA : Kind) (j : Nat) (w : World) (i : Nat) :
    (manageResults isA j w).object i = w.object i ∨ ∃ status, status ≠ .scheduled ∧ status ≠ .polled ∧
      (manageResults isA j w).object i = (w.object i).answered status := by
  have hupdate (status : ActStatus) : Function.update w.object j ((w.object j).answered status) i = w.object i ∨
      Function.update w.object j ((w.object j).answered status) i = (w.object i).answered status := by
    by_cases hij : i = j
    · subst hij
      exact Or.inr (Function.update_self ..)
    · exact Or.inl (Function.update_of_ne hij ..)
  unfold manageResults
  split
  · split
    · exact (hupdate .zombie).imp_right fun h => ⟨_, by decide, by decide, h⟩
    · exact Or.inl rfl
  · split
    · exact (hupdate .zombie).imp_right fun h => ⟨_, by decide, by decide, h⟩
    · exact Or.inl rfl
  · split
    · exact (hupdate .waitConsume).imp_right fun h => ⟨_, by decide, by decide, h⟩
    · exact Or.inl rfl

def Action.IsOrphanAt (conf : Conf) (now : Int) (a : Action) : Prop :=
  a.status = .polled ∧ 0 < conf.getTimeToOrphanage a.ref ∧
    ∃ t, a.tToGo = some t ∧ t + conf.getTimeToOrphanage a.ref ≤ now

theorem getTimeToOrphanage_nonneg (conf : Conf) (ref : Nat) : 0 ≤ conf.getTimeToOrphanage ref := by
  unfold Conf.getTimeToOrphanage
  split
  · exact le_rfl
  · split
    · exact le_rfl
    · omega

theorem orphanLoop_object (conf : Conf) (now : Int) (is : List Nat) (object : Nat → Action) (i : Nat) :
    orphanLoop conf now is object i = object i ∨
      (object i).IsOrphanAt conf now ∧ orphanLoop conf now is object i = (object i).orphan := by
  induction is generalizing object with
  | nil => exact Or.inl rfl
  | cons j js ih =>
    rw [orphanLoop]
    split
    · exact ih object
    · rename_i hpolled
      dsimp only
      split
      · exact ih object
      · rename_i hzero
        cases ht : (object j).tToGo with
        | none => exact Or.inl rfl
        | some t =>
          dsimp only
          split
          · exact ih object
          · rename_i hage
            have hrest := ih (Function.update object j (object j).orphan)
            by_cases hij : i = j
            · subst hij
              simp only [Function.update_self] at hrest
              rcases hrest with h | ⟨h, -⟩
              · refine Or.inr ⟨⟨not_not.mp hpolled, ?_, t, ht, ?_⟩, h⟩
                · have := getTimeToOrphanage_nonneg conf (object i).ref
                  omega
                · push Not at hage
                  push_cast at hage
                  linarith
              · -- an orphan is not polled any more
                cases h.1
            · simp only [Function.update_of_ne hij] at hrest
              exact hrest

/-! ## Steps -/

inductive Change (conf : Conf) (a : Action) : Event → Action → Prop
  | same (e : Event) : Change conf a e a
  | polled (p : Poll) (h : a.Available p.now) : Change conf a (.poll p) (p.give a)
  | answered (isA : Kind) (i : Nat) (status : ActStatus) (hs : status ≠ .scheduled) (hp : status ≠ .polled) :
      Change conf a (.result isA i) (a.answered status)
  | orphan (now : Rat) (h : a.IsOrphanAt conf ⌊now⌋) : Change conf a (.checkOrphaned now) a.orphan

theorem step_change (hi : i < w.next) (e : Event) : Change conf (w.object i) e ((w.step conf e).object i) := by
  have hnew : i ≠ w.next := by omega
  cases e with
  | addCheck a =>
    have h : (w.step conf (.addCheck a)).object i = w.object i := Function.update_of_ne hnew ..
    rw [h]
    exact Change.same _
  | addAction a =>
    have h : (w.step conf (.addAction a)).object i = w.object i := Function.update_of_ne hnew ..
    rw [h]
    exact Change.same _
  | poll p =>
    rcases getToRunChecks_object p w i with h | ⟨havailable, h⟩
    · rw [World.step, h]
      exact Change.same _
    · rw [World.step, h]
      exact Change.polled p havailable
  | result isA j =>
    rcases manageResults_object isA j w i with h | ⟨status, hs, hp, h⟩
    · rw [World.step, h]
      exact Change.same _
    · rw [World.step, h]
      exact Change.answered isA j status hs hp
  | checkOrphaned now =>
    rcases orphanLoop_object conf ⌊now⌋ (w.checks ++ w.actions) w.object i with h | ⟨ho, h⟩
    · have hs : (w.step conf (.checkOrphaned now)).object i = w.object i := h
      rw [hs]
      exact Change.same _
    · have hs : (w.step conf (.checkOrphaned now)).object i = (w.object i).orphan := h
      rw [hs]
      exact Change.orphan now ho

def Action.Kept (a : Action) : Prop :=
  a.status = .polled → ∃ h t, a.handed = some h ∧ h.returned = false ∧ a.tToGo = some t ∧ t ≤ h.polledAt

theorem Change.kept (h : Change conf a e b) (ha : a.Kept) : b.Kept := by
  cases h with
  | same => exact ha
  | polled p hp =>
    intro _
    obtain ⟨-, t, ht, hle⟩ := hp
    exact ⟨_, t, rfl, rfl, ht, hle⟩
  | answered isA i status hs hp =>
    intro hpolled
    exact absurd hpolled hp
  | orphan now ho =>
    intro hpolled
    cases hpolled

theorem Change.tToGo (h : Change conf a e b) : b.tToGo = a.tToGo := by
  cases h <;> rfl

theorem Change.available (h : Change conf a e b) (ha : a.status ≠ .scheduled)
    (hb : b.status = .scheduled) : ∃ now, e = .checkOrphaned now ∧ a.IsOrphanAt conf ⌊now⌋ := by
  cases h with
  | same => exact absurd hb ha
  | polled p hp => exact absurd hp.1 ha
  | answered isA i status hs hp => exact absurd hb hs
  | orphan now ho => exact ⟨now, rfl, ho⟩

/-! ## Runs -/

structure Initial (w : World) : Prop where
  checks : w.checks = []
  actions : w.actions = []
  next : w.next = 0

def World.Kept (w : World) : Prop := ∀ i < w.next, (w.object i).Kept

theorem kept_add (a : NewAction) (h : w.Kept) : (w.add a).Kept := by
  intro i hi
  have hi : i < w.next + 1 := hi
  by_cases hij : i = w.next
  · subst hij
    have hnew : (w.add a).object w.next = { a.action with handed := none } := Function.update_self ..
    rw [hnew]
    intro hpolled
    exact absurd hpolled a.notPolled
  · have hold : (w.add a).object i = w.object i := Function.update_of_ne hij ..
    rw [hold]
    apply h
    omega

theorem World.Kept.step (h : w.Kept) (e : Event) : (w.step conf e).Kept := by
  cases e with
  | addCheck a => exact kept_add a h
  | addAction a => exact kept_add a h
  | poll p =>
    intro i hi
    have hi : i < w.next := hi
    exact (step_change hi (.poll p)).kept (h i hi)
  | result isA j =>
    intro i hi
    have hnext : (w.step conf (.result isA j)).next = w.next := by
      unfold World.step manageResults
      dsimp only
      split <;> split <;> rfl
    rw [hnext] at hi
    exact (step_change hi (.result isA j)).kept (h i hi)
  | checkOrphaned now =>
    intro i hi
    have hi : i < w.next := hi
    exact (step_change hi (.checkOrphaned now)).kept (h i hi)

theorem World.Kept.run (h : w.Kept) (events : List Event) : (w.run conf events).Kept := by
  induction events generalizing w with
  | nil => exact h
  | cons e events ih => exact ih (h.step e)

/-- An object that has been handed out is available again after an orphan pass
only, which has found no result since the last poll, and comes `time_to_orphanage`
seconds after the time that the object was planned for. -/
theorem available_again (conf : Conf) {w₀ : World} (h₀ : Initial w₀) (events : List Event) :
    ∀ l e, l ++ [e] <+: events → ∀ i < (w₀.run conf l).next,
      (((w₀.run conf l).step conf e).object i).tToGo = ((w₀.run conf l).object i).tToGo ∧
      (((w₀.run conf l).object i).status ≠ .scheduled → (((w₀.run conf l).step conf e).object i).status = .scheduled →
        ∃ now h t, e = .checkOrphaned now ∧
          ((w₀.run conf l).object i).handed = some h ∧ h.returned = false ∧
          ((w₀.run conf l).object i).tToGo = some t ∧ t ≤ h.polledAt ∧
          0 < conf.getTimeToOrphanage ((w₀.run conf l).object i).ref ∧
          t + conf.getTimeToOrphanage ((w₀.run conf l).object i).ref ≤ ⌊now⌋) := by
  intro l e _ i hi
  have hkept : w₀.Kept := by
    intro j hj
    rw [h₀.next] at hj
    omega
  have hchange : Change conf _ e _ := step_change hi e
  refine ⟨hchange.tToGo, ?_⟩
  intro hbefore hafter
  obtain ⟨now, he, hpolled, hpositive, t, ht, hage⟩ := hchange.available hbefore hafter
  obtain ⟨h, t', hhanded, hreturned, ht', hle⟩ := hkept.run l i hi hpolled
  have htt : t' = t := Option.some.inj (ht'.symm.trans ht)
  subst htt
  exact ⟨now, h, t', he, hhanded, hreturned, ht, hle, hpositive, hage⟩

end

/-! ## A check that has waited -/

def orphansConf : Conf := ⟨fun _ => true, fun _ => 300⟩

def started : World := ⟨[], [], fun _ => ⟨.check, .zombie, none, "", false, false, false, 0, "", "", none⟩, 0⟩

def lateCheck : NewAction :=
  ⟨⟨.check, .scheduled, some 0, "", false, false, false, 0, "None", "fork", none⟩, by decide⟩

def latePoll : Poll := ⟨true, false, ["None"], [], "poller", ["fork"], 1000⟩

theorem initial_started : Initial started := ⟨rfl, rfl, rfl⟩

def polledLate : World := started.run orphansConf [.addCheck lateCheck, .poll latePoll]

theorem available_again_late :
    ((polledLate.step orphansConf (.checkOrphaned 1001)).object 0).tToGo = (polledLate.object 0).tToGo ∧
    ∃ now h t, Event.checkOrphaned 1001 = .checkOrphaned now ∧ (polledLate.object 0).handed = some h ∧ h.returned = false ∧
      (polledLate.object 0).tToGo = some t ∧ t ≤ h.polledAt ∧ 0 < orphansConf.getTimeToOrphanage (polledLate.object 0).ref ∧
      t + orphansConf.getTimeToOrphanage (polledLate.object 0).ref ≤ ⌊now⌋ := by
  obtain ⟨hkept, hagain⟩ := available_again orphansConf initial_started
    [.addCheck lateCheck, .poll latePoll, .checkOrphaned 1001] [.addCheck lateCheck, .poll latePoll] (.checkOrphaned 1001)
    ⟨[], rfl⟩ 0 (by decide)
  exact ⟨hkept, hagain (by decide +kernel) (by decide +kernel)⟩

/-- Every object that the event makes available again has been kept for its
time to orphanage since its last poll. -/
def World.KeptEnough (conf : Conf) (w : World) (e : Event) : Prop :=
  ∀ i < w.next, (w.object i).status ≠ .scheduled → ((w.step conf e).object i).status = .scheduled →
    ∃ now h, e = .checkOrphaned now ∧ (w.object i).handed = some h ∧ h.returned = false ∧
      h.polledAt + conf.getTimeToOrphanage (w.object i).ref ≤ now

/-- A check polled one thousand seconds late is available again one second later. -/
theorem available_too_soon : Initial started ∧
    ¬ (started.run orphansConf [.addCheck lateCheck, .poll latePoll]).KeptEnough orphansConf (.checkOrphaned 1001) := by
  refine ⟨initial_started, ?_⟩
  intro hkept
  obtain ⟨now, h, he, hhanded, -, hage⟩ := hkept 0 (by decide +kernel) (by decide +kernel) (by decide +kernel)
  have hpoll : ((started.run orphansConf [.addCheck lateCheck, .poll latePoll]).object 0).handed =
      some ⟨"poller", 1000, false⟩ := by decide +kernel
  have htime : orphansConf.getTimeToOrphanage
      ((started.run orphansConf [.addCheck lateCheck, .poll latePoll]).object 0).ref = 300 := by decide +kernel
  cases he
  rw [hpoll] at hhanded
  cases hhanded
  rw [htime] at hage
  exact absurd hage (by decide +kernel)

end Alignak.Orphans
