import Alignak.ConsumeResults
import Alignak.Outcomes
import Mathlib.Logic.Relation

/-!
# The state that a result gives

The consumption of a check sets the state of its item, which then stays as long
as no other check of this item is consumed and no problem makes it an impact.
-/

namespace Alignak.Scheduling

def Conf.Impacts (conf : Conf) (i j : Nat) : Prop := ∃ l ∈ conf.impactLinks i, l.item = j

section
variable {conf : Conf} {env : Env} {i j k : Nat} {s : State} {w : World}

theorem Shows.setImpact_off {now : Int} (hoff : conf.enableProblemImpactsStatesChange = false) (h : Shows i s w) :
    Shows i s (w.modifyCheckState j fun c => c.setImpactState conf now) := by
  refine h.modifyCheckState fun x => ?_
  unfold CheckState.setImpactState
  rw [hoff]
  rfl

theorem Shows.setImpact_ne {now : Int} (hj : j ≠ i) (h : Shows i s w) :
    Shows i s (w.modifyCheckState j fun c => c.setImpactState conf now) :=
  h.congr (by rw [World.modifyCheckState_ne w (Ne.symm hj)])

/-- The changes for impacts are off, or the item `j` is another one. -/
def Aside (conf : Conf) (i j : Nat) : Prop := conf.enableProblemImpactsStatesChange = true → j ≠ i

theorem Shows.setImpact {now : Int} (hj : Aside conf i j) (h : Shows i s w) :
    Shows i s (w.modifyCheckState j fun c => c.setImpactState conf now) := by
  cases he : conf.enableProblemImpactsStatesChange with
  | true => exact h.setImpact_ne (hj he)
  | false => exact h.setImpact_off he

theorem becomeImpact_shows (hj : Aside conf i j) (prob : Nat) : Keeps (Shows i s) (becomeImpact conf env prob j) := by
  refine Keeps.read fun w => Keeps.bind (Keeps.modify fun s h => h.congr rfl) fun _ => ?_
  refine Keeps.bind (Keeps.guarded fun _ => noMoreAProblem_shows) fun _ => ?_
  refine Keeps.bind (Keeps.guarded fun _ => Keeps.modify fun s h => h.setImpact hj) fun _ => ?_
  exact Keeps.modify fun s h => h.congr rfl

theorem registerAProblem_shows (prob : Nat) : ∀ fuel j, (∀ k, Relation.ReflTransGen conf.Impacts j k → Aside conf i k) →
    Keeps (Shows i s) (registerAProblem conf env prob fuel j)
  | 0, _, _ => Keeps.throw trivial
  | fuel + 1, j, hreach => by
    unfold registerAProblem
    refine Keeps.read fun w => Keeps.ite (fun _ => Keeps.pure _) fun _ => ?_
    refine Keeps.bind (becomeImpact_shows (hreach j .refl) prob) fun _ => ?_
    refine Keeps.foldlM fun found l hl => Keeps.read fun w => Keeps.ite (fun _ => ?_) fun _ => Keeps.pure _
    have hlink : ∀ k, Relation.ReflTransGen conf.Impacts l.item k → Aside conf i k := fun k hk => hreach k (.head ⟨l, hl, rfl⟩ hk)
    exact Keeps.bind (registerAProblem_shows prob fuel l.item hlink) fun _ => Keeps.pure _

theorem setMyselfAsProblem_shows (hreach : ∀ k, Relation.TransGen conf.Impacts j k → Aside conf i k) :
    Keeps (Shows i s) (setMyselfAsProblem conf env j) := by
  refine Keeps.bind (Keeps.modify fun s h => h.congr rfl) fun _ => Keeps.read fun w => ?_
  refine Keeps.bind (Keeps.foldlM fun found l hl => Keeps.read fun w => Keeps.ite (fun _ => ?_) fun _ => Keeps.pure _)
    fun found => Keeps.modify fun s h => h.congr rfl
  refine Keeps.bind (registerAProblem_shows j _ l.item fun k hk => ?_) fun _ => Keeps.pure _
  exact hreach k (Relation.TransGen.head' ⟨l, hl, rfl⟩ hk)

theorem changeState_keepsShows {chk : Check} {b : Bool} (hreach : ∀ k, Relation.TransGen conf.Impacts j k → Aside conf i k) :
    Keeps (Shows i s) (changeState conf env j chk b) := by
  have hkept : KeptByParts conf env (Shows i s) (fun _ => True) j :=
    { check := fun f u hf hu => hu.modifyCheckState fun x => (hf x).1
      quiet := fun u u' hq hu => hu.of_quiet hq
      flexible := fun u hu => ⟨hu.congr (by rw [(World.core_eq (checkForFlexibleDowntime_core j u)).2.1]), fun _ _ _ => trivial⟩
      recovery := noMoreAProblem_shows
      problem := setMyselfAsProblem_shows hreach }
  exact hkept.changeState

/-- The state that the result of a check gives to its item. -/
def givenState (conf : Conf) (env : Env) (chk : Check) : State :=
  (stateOfExitStatus (conf.myType chk.ref) (modulatedExitStatus conf env chk)).1

theorem consumeResult_gives (hm : mustWait conf w k = false)
    (hreach : ∀ j, Relation.TransGen conf.Impacts (w.check k).ref j → Aside conf (w.check k).ref j) :
    ∃ s, (s = givenState conf env (w.check k) ∨ (w.check k).status = .waitDepend ∧ s = .unreachable) ∧
      Shows (w.check k).ref s (stateAfter (consumeResult conf env k w)) := by
  have htaken := resolved_taken conf env k w
  exact ⟨_, htaken.state, leads_consumption hm (changeState_keepsShows hreach) (fun u hu => hu.congr (closeConsumption_outcome u))
    ⟨rfl, htaken.changed⟩⟩

theorem consumeResult_waits (hm : mustWait conf w k = true) :
    consumeResult conf env k w = .ok ⟨⟩ (w.setCheck k { w.check k with status := .waitDepend }) := by
  change (if mustWait conf w k then _ else _ : Sched Unit) w = _
  rw [if_pos hm]
  rfl

theorem consumeResult_keepsShows (hm : mustWait conf w k = false) (hi : i ≠ (w.check k).ref)
    (hoff : conf.enableProblemImpactsStatesChange = false) (h : Shows i s w) :
    Shows i s (stateAfter (consumeResult conf env k w)) := by
  have haside : ∀ j, Aside conf i j := fun j he => absurd (he.symm.trans hoff) (by decide)
  refine leads_consumption hm (changeState_keepsShows fun j _ => haside j) (fun u hu => hu.congr (closeConsumption_outcome u)) ?_
  refine h.congr ?_
  have hcheck := updateItemInformation_taken conf env k w
  have hother : ((resolved conf env k w).checkState i) = (updateItemInformation conf env k w).checkState i := by
    refine resolveDependencies_other k (updateItemInformation conf env k w) ?_
    rw [hcheck]
    exact hi
  rw [hother, updateItemInformation_other k w hi]

end

end Alignak.Scheduling

namespace Alignak.Checking

open Scheduling

/-! ## Checks that wait -/

/-- What the dependencies that are raised leave: the states, and the checks but
for those that wait for them. -/
structure Frame (u v : World) : Prop where
  checkState : v.items.checkState = u.items.checkState
  consumed : v.consumed = u.consumed
  nextCheck : u.nextCheck ≤ v.nextCheck
  check : ∀ d < u.nextCheck, v.check d = { u.check d with dependOnMe := (v.check d).dependOnMe }
  new : ∀ d, u.nextCheck ≤ d → waiting (v.check d).status → waiting (u.check d).status

section
variable {conf : Conf} {env : Env} {u v w : World} {c d i : Nat} {t : Int} {r : Option Nat} {b b' : Bool} {l : List Nat}

theorem Frame.refl (u : World) : Frame u u := ⟨rfl, rfl, Nat.le_refl _, fun _ _ => rfl, fun _ _ => id⟩

theorem Frame.of_items (h : Frame u v) (hi : w.items = v.items) (hc : w.consumed = v.consumed) (hn : w.nextCheck = v.nextCheck) :
    Frame u w := by
  have hcheck : w.check = v.check := by
    unfold World.check
    rw [hi]
  refine ⟨?_, hc.trans h.consumed, hn ▸ h.nextCheck, ?_, ?_⟩
  · rw [hi]
    exact h.checkState
  · rw [hcheck]
    exact h.check
  · rw [hcheck]
    exact h.new

theorem Frame.newCheck (h : Frame u v) : Frame u (newCheck env i t r b b' v) := by
  refine ⟨h.checkState, h.consumed, Nat.le_succ_of_le h.nextCheck, fun d hd => ?_, fun d hd hw => ?_⟩
  · rw [newCheck_check i t r b b' (Nat.ne_of_lt (Nat.lt_of_lt_of_le hd h.nextCheck))]
    exact h.check d hd
  · by_cases he : d = v.nextCheck
    · rw [he, newCheck_new] at hw
      rcases hw with hw | hw | hw <;> cases hw
    · rw [newCheck_check i t r b b' he] at hw
      exact h.new d hd hw

theorem Frame.attach (h : Frame u v) :
    Frame u (v.modifyCheck d fun x => { x with dependOnMe := x.dependOnMe ++ [c] }) := by
  refine ⟨h.checkState, h.consumed, h.nextCheck, fun e he => ?_, fun e he hw => ?_⟩
  · by_cases hd : e = d
    · subst hd
      rw [modifyCheck_self, h.check e he]
    · rw [modifyCheck_ne _ hd]
      exact h.check e he
  · by_cases hd : e = d
    · subst hd
      rw [modifyCheck_self] at hw
      exact h.new e he hw
    · rw [modifyCheck_ne _ hd] at hw
      exact h.new e he hw

theorem launchDependencyCheck_frame : Keeps (Frame u) (launchDependencyCheck env i t r) := by
  refine Keeps.read fun w => ?_
  split
  · exact Keeps.throw trivial
  · refine Keeps.ite (fun _ => ?_) fun _ => Keeps.throw trivial
    exact Keeps.bind (Keeps.modify fun s hs => hs.newCheck) fun _ => Keeps.pure _

theorem launchNewCheck_frame : Keeps (Frame u) (launchNewCheck conf env i t r b) := by
  refine Keeps.read fun w => Keeps.ite (fun _ => Keeps.pure _) fun _ => ?_
  refine Keeps.bind (Keeps.modify fun s hs => hs.newCheck) fun _ => ?_
  refine Keeps.bind (Keeps.modify fun s hs => hs.of_items rfl rfl rfl) fun _ => ?_
  exact Keeps.bind (Keeps.modify fun s hs => hs.of_items rfl rfl rfl) fun _ => Keeps.pure _

theorem launchCheck_frame : Keeps (Frame u) (launchCheck conf env i t r b b') := by
  refine Keeps.bind (Keeps.modify fun s hs => hs.of_items rfl rfl rfl) fun _ => Keeps.read fun w => ?_
  split
  · exact Keeps.bind (Keeps.modify fun s hs => hs.of_items rfl rfl rfl) fun _ => Keeps.pure _
  · refine Keeps.ite (fun _ => launchDependencyCheck_frame) fun _ => Keeps.ite (fun _ => launchNewCheck_frame) fun _ => ?_
    split
    · exact Keeps.throw trivial
    · exact Keeps.pure _
    · exact launchNewCheck_frame

theorem raiseDependency_frame (raised : Raised) (dep : Dependency) :
    Keeps (Frame u) (raiseDependency conf env c i raised dep) := by
  refine Keeps.read fun w => Keeps.ite (fun _ => Keeps.pure _) fun _ => Keeps.ite (fun _ => ?_) fun _ => ?_
  · refine Keeps.bind launchCheck_frame fun n => ?_
    split <;> exact Keeps.pure _
  · split
    · exact Keeps.pure _
    · refine Keeps.ite (fun _ => ?_) fun _ => Keeps.throw trivial
      exact Keeps.bind (Keeps.modify fun s hs => hs.attach) fun _ => Keeps.pure _

theorem addChecks_frame (h : Frame u v) : Frame u (l.foldl (fun w d => addCheck d w) v) := by
  refine List.foldlRecOn (motive := Frame u) l _ h fun w hw d _ => ?_
  unfold addCheck
  split
  · exact hw
  · exact hw.of_items rfl rfl rfl

theorem consumeAndAdd_frame (hm : mustWait conf.toConf w.items c = true) :
    Ensures (· = w) (consumeAndAdd conf env c) fun _ => Frame (w.setStatus c .waitDepend) := by
  refine Ensures.bind (R := fun _ => Frame (w.setStatus c .waitDepend)) ?_ fun l => Ensures.modify fun v hv => addChecks_frame hv
  refine Ensures.readAt fun v hv => ?_
  cases hv
  rw [if_pos hm]
  refine Ensures.bind (R := fun _ => Frame (w.setStatus c .waitDepend)) ?_ fun _ => ?_
  · intro s hs a v hr
    cases hs
    unfold onItems at hr
    rw [consumeResult_waits hm] at hr
    cases hr
    exact Frame.refl _
  have hraise : Keeps (Frame (w.setStatus c .waitDepend)) (raiseDependenciesCheck conf env c (w.check c).ref) :=
    Keeps.foldlM fun raised dep _ => raiseDependency_frame raised dep
  refine Ensures.bind hraise.ensures fun _ => Ensures.bind (Ensures.modify fun v hv => ?_) fun _ => Ensures.pure fun _ h => h
  exact hv.of_items rfl rfl rfl

theorem consumeAndAdd_items (hm : mustWait conf.toConf w.items c = false) : Ensures (· = w) (consumeAndAdd conf env c)
    fun _ v => v.items = stateAfter (Scheduling.consumeResult conf.toConf env.toEnv c w.items) := by
  refine Ensures.bind (R := fun l v => l = [] ∧ v.items = stateAfter (Scheduling.consumeResult conf.toConf env.toEnv c w.items)) ?_
    fun l => Ensures.modify fun v hv => ?_
  · refine Ensures.readAt fun v hv => ?_
    cases hv
    rw [if_neg (by rw [hm]; decide)]
    refine Ensures.bind (R := fun _ v => v.items = w.items) (Ensures.modify ?_) fun _ => ?_
    · intro s hs
      cases hs
      rfl
    refine Ensures.bind (R := fun _ v => v.items = stateAfter (Scheduling.consumeResult conf.toConf env.toEnv c w.items)) ?_
      fun _ => Ensures.pure fun v hv => ⟨rfl, hv⟩
    intro s hs a v hr
    unfold onItems at hr
    rw [hs] at hr
    cases hrun : Scheduling.consumeResult conf.toConf env.toEnv c w.items with
    | ok a' t =>
      rw [hrun] at hr
      cases hr
      rfl
    | error e t =>
      rw [hrun] at hr
      cases hr
  · obtain ⟨rfl, hv⟩ := hv
    exact hv

end

/-! ## A pass over the checks -/

/-- Neither another check of its item nor an impact comes behind the check. -/
structure Undisturbed (conf : Conf) (w : World) (c : Nat) (after : List Nat) : Prop where
  others : ∀ d ∈ after, (w.check d).ref ≠ (w.check c).ref
  last : conf.enableProblemImpactsStatesChange = true → after = []
  acyclic : ∀ j, Relation.TransGen conf.toConf.Impacts (w.check c).ref j → Aside conf.toConf (w.check c).ref j

/-- The item has the state that the result gives, or is unreachable for a result
that had to wait for those of other items. -/
def Shown (conf : Conf) (env : Env) (w : World) (c : Nat) (v : World) : Prop :=
  ∃ s, (s = givenState conf.toConf env.toEnv (w.check c) ∨ mustWait conf.toConf w.items c = true ∧ s = .unreachable) ∧
    Shows (w.check c).ref s v.items

/-- The world `v` that consumptions in the order `l` have reached from `w`, for the check `c`. -/
structure Course (conf : Conf) (env : Env) (w : World) (c : Nat) (l : List Nat) (v : World) : Prop where
  nextCheck : w.nextCheck ≤ v.nextCheck
  consumed : v.consumed = w.consumed ++ l
  ref : ∀ d < w.nextCheck, (v.check d).ref = (w.check d).ref
  known : ∀ d, waiting (v.check d).status → d < w.nextCheck
  unread : c ∉ l → v.check c = { w.check c with status := (v.check c).status, dependOnMe := (v.check c).dependOnMe } ∧
    ((v.check c).status = .waitConsume ∨ (v.check c).status = .waitDepend ∧ mustWait conf.toConf w.items c = true)
  read : c ∈ l → (v.check c).status = .waitingMe ∨ (v.check c).status = .zombie
  shown : ∀ before after, l = before ++ c :: after → Undisturbed conf w c after → Shown conf env w c v

section
variable {conf : Conf} {env : Env} {u v w : World} {c d : Nat} {l : List Nat}

theorem givenState_congr {x y : Scheduling.Check} (hr : y.ref = x.ref) (he : y.exitStatus = x.exitStatus)
    (hf : y.freshnessExpiryCheck = x.freshnessExpiryCheck) :
    givenState conf.toConf env.toEnv y = givenState conf.toConf env.toEnv x := by
  unfold givenState modulatedExitStatus
  rw [hr, he, hf]

theorem Shown.congr (h : Shown conf env w c u) (hs : v.items.checkState = u.items.checkState) : Shown conf env w c v := by
  obtain ⟨s, hgiven, hshows⟩ := h
  exact ⟨s, hgiven, hshows.congr (by rw [hs])⟩

theorem Course.start (hw : (w.check c).status = .waitConsume) (hk : ∀ d, waiting (w.check d).status → d < w.nextCheck) :
    Course conf env w c [] w where
  nextCheck := Nat.le_refl _
  consumed := (List.append_nil _).symm
  ref _ _ := rfl
  known := hk
  unread _ := ⟨rfl, Or.inl hw⟩
  read h := nomatch h
  shown before after h := by cases before <;> cases h

/-- A change that reads no result. -/
theorem Course.move (h : Course conf env w c l u) (hk : c < w.nextCheck) (hs : v.items.checkState = u.items.checkState)
    (hn : u.nextCheck ≤ v.nextCheck) (hc : v.consumed = u.consumed)
    (hcheck : ∀ d < u.nextCheck, v.check d = { u.check d with status := (v.check d).status, dependOnMe := (v.check d).dependOnMe })
    (hwait : ∀ d, waiting (v.check d).status → waiting (u.check d).status)
    (hunread : c ∉ l → (v.check c).status = (u.check c).status ∨
      (v.check c).status = .waitDepend ∧ mustWait conf.toConf w.items c = true)
    (hread : (u.check c).status = .waitingMe ∨ (u.check c).status = .zombie →
      (v.check c).status = .waitingMe ∨ (v.check c).status = .zombie) : Course conf env w c l v := by
  refine ⟨h.nextCheck.trans hn, hc.trans h.consumed, fun d hd => ?_, fun d hd => h.known d (hwait d hd), fun hcl => ?_, ?_, ?_⟩
  · rw [hcheck d (Nat.lt_of_lt_of_le hd h.nextCheck)]
    exact h.ref d hd
  · obtain ⟨hsame, hstatus⟩ := h.unread hcl
    refine ⟨?_, ?_⟩
    · rw [hcheck c (Nat.lt_of_lt_of_le hk h.nextCheck), hsame]
    · rcases hunread hcl with he | hd
      · rw [he]
        exact hstatus
      · exact Or.inr hd
  · exact fun hcl => hread (h.read hcl)
  · exact fun before after hl hu => (h.shown before after hl hu).congr hs

theorem Course.frame (h : Course conf env w c l u) (hk : c < w.nextCheck) (hf : Frame u v) : Course conf env w c l v := by
  have hstatus : (v.check c).status = (u.check c).status := by
    rw [hf.check c (Nat.lt_of_lt_of_le hk h.nextCheck)]
  refine h.move hk hf.checkState hf.nextCheck hf.consumed (fun d hd => ?_) (fun d hd => ?_) (fun _ => Or.inl hstatus) ?_
  · rw [hf.check d hd]
  · by_cases hn : d < u.nextCheck
    · rw [hf.check d hn] at hd
      exact hd
    · exact hf.new d (Nat.not_lt.mp hn) hd
  · rw [hstatus]
    exact id

theorem setStatus_check (s : ActStatus) : (u.setStatus d s).check = Function.update u.check d { u.check d with status := s } := rfl

theorem Course.setStatus (h : Course conf env w c l u) (hk : c < w.nextCheck) {s : ActStatus}
    (hw : waiting s → waiting (u.check d).status)
    (hc : d = c → (c ∉ l → s = .waitDepend ∧ mustWait conf.toConf w.items c = true) ∧ (c ∈ l → s = .waitingMe ∨ s = .zombie)) :
    Course conf env w c l (u.setStatus d s) := by
  have hself : ((u.setStatus d s).check d).status = s := by rw [setStatus_check, Function.update_self]
  have hother : ∀ e, e ≠ d → (u.setStatus d s).check e = u.check e := by
    intro e he
    rw [setStatus_check, Function.update_of_ne he]
  refine h.move hk rfl (Nat.le_refl _) rfl (fun e _ => ?_) (fun e he => ?_) (fun hcl => ?_) (fun hr => ?_)
  · by_cases hd : e = d
    · subst hd
      rw [setStatus_check, Function.update_self]
    · rw [hother e hd]
  · by_cases hd : e = d
    · subst hd
      rw [hself] at he
      exact hw he
    · rw [hother e hd] at he
      exact he
  · by_cases hd : c = d
    · subst hd
      rw [hself]
      exact Or.inr ((hc rfl).1 hcl)
    · rw [hother c hd]
      exact Or.inl rfl
  · by_cases hd : c = d
    · subst hd
      rw [hself]
      refine (hc rfl).2 ?_
      by_contra hcl
      rcases (h.unread hcl).2 with he | ⟨he, -⟩
      · rw [he] at hr
        rcases hr with hr | hr <;> cases hr
      · rw [he] at hr
        rcases hr with hr | hr <;> cases hr
    · rw [hother c hd]
      exact hr

theorem Course.waits (h : Course conf env w c l u) (hk : c < w.nextCheck) (hw : (w.check c).status = .waitConsume)
    (hm : mustWait conf.toConf u.items d = true) : Course conf env w c l (u.setStatus d .waitDepend) := by
  have hwait : (u.check d).status = .waitConsume := by
    unfold mustWait at hm
    simp only [Bool.and_eq_true, beq_iff_eq] at hm
    exact hm.1.2
  refine h.setStatus hk (fun _ => Or.inl hwait) ?_
  rintro rfl
  refine ⟨fun hcl => ⟨rfl, ?_⟩, fun hcl => ?_⟩
  · rw [← hm]
    have hsame := (h.unread hcl).1
    rw [hwait] at hsame
    have hrow : u.items.check d = { w.items.check d with dependOnMe := (u.check d).dependOnMe } := by
      refine hsame.trans ?_
      rw [← hw]
      rfl
    unfold mustWait
    rw [hrow]
  · rcases h.read hcl with he | he
    · rw [hwait] at he
      cases he
    · rw [hwait] at he
      cases he

/-- The check itself is read. -/
theorem Course.readSelf (h : Course conf env w c l u) (hcl : c ∉ l)
    (hm : mustWait conf.toConf u.items c = false)
    (hitems : v.items = stateAfter (Scheduling.consumeResult conf.toConf env.toEnv c u.items))
    (hacyclic : ∀ j, Relation.TransGen conf.toConf.Impacts (w.check c).ref j → Aside conf.toConf (w.check c).ref j) :
    Shown conf env w c v := by
  obtain ⟨hsame, hstatus⟩ := h.unread hcl
  have href : (u.check c).ref = (w.check c).ref := by rw [hsame]
  have hexit : (u.check c).exitStatus = (w.check c).exitStatus := by rw [hsame]
  have hfresh : (u.check c).freshnessExpiryCheck = (w.check c).freshnessExpiryCheck := by rw [hsame]
  rw [← href] at hacyclic
  obtain ⟨s, hgiven, hshows⟩ := @consumeResult_gives conf.toConf env.toEnv c u.items hm hacyclic
  change Shows (u.check c).ref s _ at hshows
  rw [href, ← hitems] at hshows
  have heq : givenState conf.toConf env.toEnv (u.check c) = givenState conf.toConf env.toEnv (w.check c) :=
    givenState_congr href hexit hfresh
  refine ⟨s, ?_, hshows⟩
  rcases hgiven with hs | ⟨hd, hs⟩
  · exact Or.inl (hs.trans heq)
  · refine Or.inr ⟨?_, hs⟩
    rcases hstatus with he | ⟨-, hwaits⟩
    · exact absurd (he.symm.trans hd) (by decide)
    · exact hwaits

theorem Course.consumed_step (h : Course conf env w c l u)
    (hs : (u.check d).status = .waitConsume ∨ (u.check d).status = .waitDepend) (hm : mustWait conf.toConf u.items d = false)
    (hf : Finished conf d u v) (hitems : v.items = stateAfter (Scheduling.consumeResult conf.toConf env.toEnv d u.items)) :
    Course conf env w c (l ++ [d]) v := by
  have hdone : (v.check d).status = .waitingMe ∨ (v.check d).status = .zombie := by
    rw [hf.status]
    exact (finished_cases (u.check d)).imp And.left And.left
  have hwaiting : waiting (u.check d).status := hs.imp id Or.inl
  have hread : d = c → c ∉ l := by
    rintro rfl hcl
    rcases h.read hcl with he | he
    · rw [he] at hs
      rcases hs with hs | hs <;> cases hs
    · rw [he] at hs
      rcases hs with hs | hs <;> cases hs
  refine ⟨?_, ?_, fun e he => ?_, fun e he => ?_, fun hcl => ?_, fun hcl => ?_, fun before after hl hu => ?_⟩
  · rw [hf.nextCheck]
    exact h.nextCheck
  · rw [hf.consumed, h.consumed, List.append_assoc]
  · by_cases hd : e = d
    · subst hd
      obtain ⟨x, hx⟩ := hf.check
      rw [hx, Function.update_self]
      exact h.ref e he
    · rw [hf.check_ne hd]
      exact h.ref e he
  · by_cases hd : e = d
    · exact hd ▸ h.known d hwaiting
    · rw [hf.check_ne hd] at he
      exact h.known e he
  · rw [List.mem_append, not_or, List.mem_singleton] at hcl
    rw [hf.check_ne hcl.2]
    exact h.unread hcl.1
  · by_cases hd : c = d
    · rw [hd]
      exact hdone
    · rw [hf.check_ne hd]
      refine h.read ?_
      rcases List.mem_append.mp hcl with hcl | hcl
      · exact hcl
      · exact absurd (List.mem_singleton.mp hcl) hd
  · rcases List.eq_nil_or_concat' after with rfl | ⟨after, e, rfl⟩
    · obtain ⟨rfl, hd⟩ := List.append_inj' hl rfl
      have hdc : d = c := by simpa using hd
      subst hdc
      exact h.readSelf (hread rfl) hm hitems hu.acyclic
    · have hl' : l ++ [d] = (before ++ c :: after) ++ [e] := by
        rw [hl]
        simp
      obtain ⟨hfront, he⟩ := List.append_inj' hl' rfl
      have hde : d = e := by simpa using he
      subst hde
      have hmem : d ∈ after ++ [d] := List.mem_append_right _ List.mem_cons_self
      have hoff : conf.enableProblemImpactsStatesChange = false := by
        rw [Bool.eq_false_iff]
        intro hon
        have hnil := hu.last hon
        cases after <;> cases hnil
      have hprev : Undisturbed conf w c after :=
        ⟨fun e he => hu.others e (List.mem_append_left _ he), fun hon => absurd (hon.symm.trans hoff) (by decide), hu.acyclic⟩
      obtain ⟨s, hgiven, hshows⟩ := h.shown before after hfront hprev
      refine ⟨s, hgiven, ?_⟩
      rw [hitems]
      refine consumeResult_keepsShows hm ?_ hoff hshows
      have href := h.ref d (h.known d hwaiting)
      exact fun e => hu.others d hmem (href.symm.trans e.symm)

section
variable (hk : c < w.nextCheck) (hw : (w.check c).status = .waitConsume)
include hk hw

theorem consumeAndAdd_course (h : Course conf env w c l u)
    (hs : (u.check d).status = .waitConsume ∨ (u.check d).status = .waitDepend) :
    Ensures (· = u) (consumeAndAdd conf env d) fun _ v => ∃ l, Course conf env w c l v := by
  by_cases hm : mustWait conf.toConf u.items d = true
  · exact (consumeAndAdd_frame hm).post fun _ v hf => ⟨l, (h.waits hk hw hm).frame hk hf⟩
  · rw [Bool.not_eq_true] at hm
    exact ((consumeAndAdd_finished hs hm).and (consumeAndAdd_items hm)).post fun _ v hv =>
      ⟨l ++ [d], h.consumed_step hs hm hv.1 hv.2⟩

theorem firstPass_course : Ensures (fun v => ∃ l, Course conf env w c l v) (firstPass conf env)
    fun _ v => ∃ l, Course conf env w c l v := by
  refine Ensures.readAt fun u hu => ?_
  refine (Ensures.forM (I := fun _ v => ∃ l, Course conf env w c l v) (d := []) fun _ d _ => ?_).pre fun v hv => hv ▸ hu
  refine Ensures.readAt fun u hu => Ensures.ite (fun hs => ?_) fun _ => Ensures.pure fun v hv => hv ▸ hu
  obtain ⟨l, h⟩ := hu
  exact consumeAndAdd_course hk hw h (Or.inl hs)

theorem consumeReady_course : Ensures (fun v => ∃ l, Course conf env w c l v) (consumeReady conf env)
    fun _ v => ∃ l, Course conf env w c l v := by
  refine Ensures.readAt fun u hu => ?_
  refine (Ensures.forM (I := fun _ v => ∃ l, Course conf env w c l v) (d := []) fun _ d _ => ?_).pre fun v hv => hv ▸ hu
  refine Ensures.readAt fun u hu => Ensures.ite (fun hs => ?_) fun _ => Ensures.pure fun v hv => hv ▸ hu
  obtain ⟨l, h⟩ := hu
  unfold World.ready at hs
  rw [Bool.and_eq_true, beq_iff_eq] at hs
  exact consumeAndAdd_course hk hw h (Or.inr hs.1)

omit hw in
theorem tellDependants_course : Ensures (fun v => Course conf env w c l v ∧ (v.check d).status = .waitingMe) (tellDependants d)
    fun _ v => Course conf env w c l v ∧ (v.check d).status = .waitingMe := by
  refine Ensures.readAt fun u hu => ?_
  refine (Ensures.forM (I := fun _ v => Course conf env w c l v ∧ (v.check d).status = .waitingMe) (d := [])
    fun _ e _ => ?_).pre fun v hv => hv ▸ hu
  refine Ensures.readAt fun u hu => Ensures.ite (fun _ => Ensures.modify fun v hv => ?_) fun _ => Ensures.throw
  rw [hv]
  exact ⟨hu.1.frame hk ((Frame.refl u).of_items rfl rfl rfl), hu.2⟩

omit hw in
theorem resolveCheck_course (b : Bool) : Ensures (fun v => ∃ l, Course conf env w c l v) (resolveCheck b d)
    fun _ v => ∃ l, Course conf env w c l v := by
  refine Ensures.readAt fun u hu => Ensures.ite (fun hs => ?_) fun _ => Ensures.pure fun v hv => hv ▸ hu
  obtain ⟨l, h⟩ := hu
  have htell := @tellDependants_course conf env w c d l hk
  refine Ensures.bind (htell.pre fun v hv => ?_) fun _ => ?_
  · rw [hv]
    exact ⟨h, hs⟩
  refine Ensures.bind (R := fun _ v => ∃ l, Course conf env w c l v) (Ensures.modify fun v hv => ⟨l, ?_⟩)
    fun _ => Ensures.pure fun _ hv => hv
  refine hv.1.setStatus hk ?_ ?_
  · rintro (hz | hz | hz) <;> cases hz
  · rintro rfl
    refine ⟨fun hcl => ?_, fun _ => Or.inr rfl⟩
    rcases (hv.1.unread hcl).2 with he | ⟨he, -⟩
    · rw [hv.2] at he
      cases he
    · rw [hv.2] at he
      cases he

theorem resolveLoop_course : ∀ fuel, Ensures (fun v => ∃ l, Course conf env w c l v) (resolveLoop conf env fuel)
    fun _ v => ∃ l, Course conf env w c l v
  | 0 => Ensures.throw
  | fuel + 1 => by
    unfold resolveLoop
    have hround : Ensures (fun v => ∃ l, Course conf env w c l v) resolveWaitingMe fun _ v => ∃ l, Course conf env w c l v := by
      refine Ensures.readAt fun u hu => ?_
      exact (Ensures.foldlM (I := fun _ _ v => ∃ l, Course conf env w c l v) (d := []) fun _ b d _ =>
        resolveCheck_course hk b).pre fun v hv => hv ▸ hu
    refine Ensures.bind hround fun r => Ensures.bind (consumeReady_course hk hw) fun _ => ?_
    exact Ensures.ite (fun _ => resolveLoop_course fuel) fun _ => Ensures.pure fun _ hv => hv

/-- After the call the item of a check that waited shows its result, when the check
is the last of the item that the call has consumed. -/
theorem consumeResults_shown (hknown : ∀ d, waiting (w.check d).status → d < w.nextCheck) {before after : List Nat}
    (hr : consumeResults conf env w = .ok ⟨⟩ v) (hv : v.consumed = w.consumed ++ (before ++ c :: after))
    (hu : Undisturbed conf w c after) : Shown conf env w c v := by
  have hcourse : Ensures (fun v => ∃ l, Course conf env w c l v) (consumeResults conf env)
      fun _ v => ∃ l, Course conf env w c l v :=
    Ensures.bind (firstPass_course hk hw) fun _ => Ensures.readAt fun u hu =>
      (resolveLoop_course hk hw _).pre fun v hv => hv ▸ hu
  obtain ⟨l, h⟩ := hcourse w ⟨[], Course.start hw hknown⟩ ⟨⟩ v hr
  have hl : l = before ++ c :: after := List.append_cancel_left (h.consumed.symm.trans hv)
  exact h.shown before after hl hu

end

end

end Alignak.Checking
