import Alignak.CheckRunsSound

/-!
# The time of the last check

Of the functions that the checks go through, only the consumption of a result
writes `last_chk`: it becomes the check time of the result.
-/

namespace Alignak.Scheduling

def World.lastChks (w : World) (i : Nat) : Int := (w.checkState i).lastChk

section
variable {conf : Conf} {env : Env} {w w' : World} {i c : Nat}

theorem lastChks_of_checkState (h : w'.checkState = w.checkState) : w'.lastChks = w.lastChks := by
  unfold World.lastChks
  rw [h]

theorem lastChks_of_quiet (h : w'.quiet = w.quiet) : w'.lastChks = w.lastChks := lastChks_of_checkState (World.quiet_eq h).2.1

theorem lastChks_of_core (h : w'.core = w.core) : w'.lastChks = w.lastChks := lastChks_of_checkState (World.core_eq h).2.1

theorem modifyCheckState_lastChks {f : CheckState → CheckState} (hf : ∀ x, (f x).lastChk = x.lastChk) :
    (w.modifyCheckState i f).lastChks = w.lastChks := by
  funext j
  unfold World.lastChks
  by_cases hj : j = i
  · subst hj
    rw [World.modifyCheckState_self, hf]
  · rw [World.modifyCheckState_ne w hj]

theorem setImpactState_lastChk (conf : Conf) (now : Int) (x : CheckState) : (x.setImpactState conf now).lastChk = x.lastChk := by
  unfold CheckState.setImpactState
  split <;> rfl

theorem unsetImpactState_lastChk (conf : Conf) (x : CheckState) : (x.unsetImpactState conf).lastChk = x.lastChk := by
  unfold CheckState.unsetImpactState
  split <;> rfl

theorem lastChks_keptByImpacts {l : Nat → Int} : KeptByImpacts conf (fun w => w.lastChks = l) where
  problem := fun _ _ _ h => h
  set := fun _ _ now h => (modifyCheckState_lastChks fun x => setImpactState_lastChk conf now x).trans h
  unset := fun _ _ h => (modifyCheckState_lastChks fun x => unsetImpactState_lastChk conf x).trans h

theorem changeState_lastChks {l : Nat → Int} (i : Nat) (chk : Check) (b : Bool) :
    Keeps (fun w => w.lastChks = l) (changeState conf env i chk b) :=
  KeptByParts.changeState {
    check := fun _ _ hf h => (modifyCheckState_lastChks fun x => (hf x).2).trans h
    quiet := fun _ _ hq h => (lastChks_of_quiet hq).trans h
    flexible := fun s hs => ⟨(lastChks_of_core ((checkForFlexibleDowntime_core i) s)).trans hs, fun _ _ _ => trivial⟩
    recovery := lastChks_keptByImpacts.noMore i
    problem := lastChks_keptByImpacts.setMyself i }

theorem resolveDependencies_lastChks (c : Nat) (w : World) : (resolveDependencies conf env c w).lastChks = w.lastChks := by
  have hunreach : (checkAndSetUnreachability conf env (w.check c).ref w).lastChks = w.lastChks := by
    unfold checkAndSetUnreachability
    split
    · exact modifyCheckState_lastChks fun _ => rfl
    · rfl
  unfold resolveDependencies
  refine (lastChks_of_checkState (finishCheck_rest c _).2.1).trans ?_
  split
  · exact hunreach
  · rfl

theorem updateItemInformation_lastChks (c : Nat) (w : World) :
    (updateItemInformation conf env c w).lastChks = Function.update w.lastChks (w.check c).ref (w.check c).checkTime := by
  funext j
  unfold World.lastChks
  by_cases hj : j = (w.check c).ref
  · subst hj
    rw [Function.update_self]
    exact (updateItemInformation_self c w).2.2.2.2.2.2
  · rw [Function.update_of_ne hj, updateItemInformation_other c w hj]

theorem closeConsumption_lastChks (i : Nat) (w : World) : (closeConsumption i w).lastChks = w.lastChks := by
  have hclose : ∀ x : CheckState, (if x.updateHardUnknownPhaseState.stateType = StateType.hard then
      { x.updateHardUnknownPhaseState with
        stateTypeId := 1
        lastHardState := x.updateHardUnknownPhaseState.state
        lastHardStateId := x.updateHardUnknownPhaseState.stateId }
      else { x.updateHardUnknownPhaseState with stateTypeId := 0 }).lastChk = x.lastChk := by
    intro x
    split <;> exact x.updateHardUnknown_lastChk
  exact modifyCheckState_lastChks hclose

theorem consumeResult_lastChks (c : Nat) (w : World) : (stateAfter (consumeResult conf env c w)).lastChks =
    if mustWait conf w c then w.lastChks else Function.update w.lastChks (w.check c).ref (w.check c).checkTime := by
  unfold consumeResult
  rw [get_bind]
  by_cases hm : mustWait conf w c = true
  · simp only [hm, if_true]
    rfl
  · simp only [hm, Bool.false_eq_true, if_false]
    rw [modify_bind, get_bind, modify_bind]
    have hk : Keeps (fun s : World => s.lastChks = Function.update w.lastChks (w.check c).ref (w.check c).checkTime) (do
        changeState conf env ((updateItemInformation conf env c w).check c).ref ((updateItemInformation conf env c w).check c)
          (enableAction conf (updateItemInformation conf env c w) c)
        modify (closeConsumption ((updateItemInformation conf env c w).check c).ref)) := by
      refine Keeps.bind (changeState_lastChks _ _ _) fun _ => Keeps.modify fun s h => ?_
      exact (closeConsumption_lastChks _ s).trans h
    exact (hk _ ((resolveDependencies_lastChks c _).trans (updateItemInformation_lastChks c w))).1

theorem changeMaxCheckAttempts_lastChks (i : Nat) (n : Int) (w : World) :
    (changeMaxCheckAttempts conf i n w).lastChks = w.lastChks := by
  unfold changeMaxCheckAttempts
  simp only
  rw [modifyCheckState_lastChks]
  · rfl
  · intro x
    split <;> rfl

theorem runEvent_lastChks (ev : Event) (h : Checking.leavesChecks ev) : Unchanged World.lastChks (runEvent conf env ev) := by
  by_cases hq : ev.isCore = true
  · exact fun w => lastChks_of_core (runEvent_core conf env hq w)
  cases ev with
  | receiveResult c chk => exact h.elim
  | consumeResult c => exact h.elim
  | command cmd =>
    cases cmd with
    | changeMaxCheckAttempts i n => exact fun w => changeMaxCheckAttempts_lastChks i n w
    | changeSettings i f => exact fun _ => rfl
    | _ => exact absurd rfl hq
  | _ => exact absurd rfl hq

end

end Alignak.Scheduling

namespace Alignak.Checking

open Scheduling

def World.lastChks (w : World) : Nat → Int := w.items.lastChks

section
variable {conf : Conf} {env : Env} {w : World}

theorem onItems_lastChks {m : Scheduling.Sched Unit} (h : Unchanged Scheduling.World.lastChks m) :
    Unchanged World.lastChks (onItems m) := by
  intro w
  have hm := h w.items
  unfold onItems
  cases hr : m w.items with
  | ok a s =>
    rw [hr] at hm
    exact hm
  | error e s =>
    rw [hr] at hm
    exact hm

theorem foldl_lastChks {α : Type} {f : World → α → World} (hf : ∀ v a, (f v a).lastChks = v.lastChks) (l : List α) (w : World) :
    (l.foldl f w).lastChks = w.lastChks :=
  List.foldlRecOn (motive := fun v => World.lastChks v = w.lastChks) l f rfl fun v hv a _ => (hf v a).trans hv

theorem addCheck_lastChks (w : World) (c : Nat) : (addCheck c w).lastChks = w.lastChks := by
  unfold addCheck
  split <;> rfl

theorem addChecks_lastChks (l : List Nat) (w : World) : (l.foldl (fun w d => addCheck d w) w).lastChks = w.lastChks :=
  foldl_lastChks addCheck_lastChks l w

/-! ## Launching -/

theorem launchNewCheck_lastChks (i : Nat) (t : Int) (r : Option Nat) (b : Bool) :
    Unchanged World.lastChks (launchNewCheck conf env i t r b) := by
  refine Unchanged.bind Unchanged.get fun w => Unchanged.ite (Unchanged.pure _) ?_
  refine Unchanged.bind (Unchanged.modify fun _ => rfl) fun _ => Unchanged.bind (Unchanged.modify fun _ => rfl) fun _ => ?_
  exact Unchanged.bind (Unchanged.modify fun _ => rfl) fun _ => Unchanged.pure _

theorem launchDependencyCheck_lastChks (i : Nat) (t : Int) (r : Option Nat) :
    Unchanged World.lastChks (launchDependencyCheck env i t r) := by
  refine Unchanged.bind Unchanged.get fun w => ?_
  split
  · exact Unchanged.throw _
  · refine Unchanged.ite ?_ (Unchanged.throw _)
    exact Unchanged.bind (Unchanged.modify fun _ => rfl) fun _ => Unchanged.pure _

theorem launchCheck_lastChks (i : Nat) (t : Int) (r : Option Nat) (force b : Bool) :
    Unchanged World.lastChks (launchCheck conf env i t r force b) := by
  refine Unchanged.bind (Unchanged.modify fun _ => rfl) fun _ => Unchanged.bind Unchanged.get fun w => ?_
  split
  · exact Unchanged.bind (Unchanged.modify fun _ => rfl) fun _ => Unchanged.pure _
  · refine Unchanged.ite (launchDependencyCheck_lastChks i t r) (Unchanged.ite (launchNewCheck_lastChks i t r b) ?_)
    split
    · exact Unchanged.throw _
    · exact Unchanged.pure _
    · exact launchNewCheck_lastChks i t r b

theorem schedule_lastChks (i : Nat) (force : Bool) (forceTime : Option Int) :
    Unchanged World.lastChks (schedule conf env i force forceTime) := by
  refine Unchanged.bind Unchanged.get fun w => Unchanged.ite (Unchanged.pure _) (Unchanged.ite (Unchanged.pure _) ?_)
  refine Unchanged.ite (Unchanged.pure _) ?_
  split
  · exact Unchanged.pure _
  · exact launchCheck_lastChks _ _ _ _ _

theorem scheduleItem_lastChks (i : Nat) : Unchanged World.lastChks (scheduleItem conf env i) := by
  refine Unchanged.bind (schedule_lastChks i false none) fun chk => Unchanged.modify fun w => ?_
  cases chk with
  | none => rfl
  | some c => exact addCheck_lastChks w c

theorem processCheckResult_lastChks (i : Nat) (r : PassiveResult) : Unchanged World.lastChks (processCheckResult conf env i r) := by
  refine Unchanged.bind Unchanged.get fun w => Unchanged.ite (Unchanged.pure _) (Unchanged.bind (launchCheck_lastChks _ _ _ _ _) fun c => ?_)
  cases c with
  | none => exact Unchanged.pure _
  | some c => exact Unchanged.bind (Unchanged.modify fun _ => rfl) fun _ => Unchanged.modify fun w => addCheck_lastChks w c

theorem disableActiveChecks_lastChks (i : Nat) : Unchanged World.lastChks (disableActiveChecks env i) := by
  refine Unchanged.bind Unchanged.get fun w => Unchanged.ite ?_ (Unchanged.pure _)
  refine Unchanged.bind (Unchanged.modify fun _ => rfl) fun _ => Unchanged.bind Unchanged.get fun w => Unchanged.forM fun c _ => ?_
  exact Unchanged.bind Unchanged.get fun w => Unchanged.ite (Unchanged.modify fun _ => rfl) (Unchanged.throw _)

theorem checkItemFreshness_lastChks (i : Nat) : Unchanged World.lastChks (checkItemFreshness conf env i) := by
  refine Unchanged.bind Unchanged.get fun w => Unchanged.guarded (Unchanged.bind (launchCheck_lastChks _ _ _ _ _) fun c => ?_)
  cases c with
  | none => exact Unchanged.pure _
  | some c => exact Unchanged.bind (Unchanged.modify fun _ => rfl) fun _ => Unchanged.modify fun w => addCheck_lastChks w c

theorem getNewActions_lastChks (w : World) : (getNewActions conf w).lastChks = w.lastChks :=
  List.foldlRecOn (motive := fun v => World.lastChks v = w.lastChks) _ _ rfl fun v hv i _ =>
    (addChecks_lastChks (v.item i).actions v).trans hv

/-! ## Polling and results -/

theorem getToRunChecks_lastChks (tagged : Nat → Bool) (w : World) : (getToRunChecks env tagged w).lastChks = w.lastChks :=
  foldl_lastChks (fun v c => by split <;> rfl) _ w

theorem checkOrphaned_lastChks (late : Nat → Bool) (w : World) : (checkOrphaned late w).lastChks = w.lastChks :=
  foldl_lastChks (fun v c => by split <;> rfl) _ w

theorem manageInternalChecks_lastChks (w : World) : (manageInternalChecks env w).lastChks = w.lastChks := by
  refine foldl_lastChks (fun v c => ?_) _ w
  unfold manageInternalCheck
  split
  · split <;> rfl
  · rfl

theorem manageResults_lastChks (action : Action) (w : World) : (manageResults conf action w).2.lastChks = w.lastChks := by
  unfold manageResults
  simp only
  split
  · split
    · rfl
    · split <;> rfl
  · rfl

theorem tellDependants_lastChks (c : Nat) : Unchanged World.lastChks (tellDependants c) := fun w =>
  congrArg Scheduling.World.lastChks (congrArg Prod.fst (tellDependants_rest c w))

theorem cleanQueues_lastChks : Unchanged World.lastChks (cleanQueues conf) := by
  refine Unchanged.bind Unchanged.get fun w => Unchanged.guarded (Unchanged.forM fun c _ => Unchanged.bind Unchanged.get fun v => ?_)
  refine Unchanged.bind (Unchanged.modify fun _ => rfl) fun _ => Unchanged.bind (tellDependants_lastChks c) fun _ => ?_
  exact Unchanged.bind Unchanged.get fun u => Unchanged.ite (Unchanged.modify fun _ => rfl) (Unchanged.throw _)

/-! ## Consumption -/

theorem resolveWaitingMe_lastChks : Unchanged World.lastChks resolveWaitingMe := by
  refine Unchanged.bind Unchanged.get fun w => Unchanged.foldlM fun r c _ => Unchanged.bind Unchanged.get fun v => ?_
  refine Unchanged.ite (Unchanged.bind (tellDependants_lastChks c) fun _ => ?_) (Unchanged.pure _)
  exact Unchanged.bind (Unchanged.modify fun _ => rfl) fun _ => Unchanged.pure _

theorem raiseDependenciesCheck_lastChks (c i : Nat) : Unchanged World.lastChks (raiseDependenciesCheck conf env c i) := by
  refine Unchanged.foldlM fun raised dep _ => Unchanged.bind Unchanged.get fun w => Unchanged.ite (Unchanged.pure _) ?_
  refine Unchanged.ite (Unchanged.bind (launchCheck_lastChks _ _ _ _ _) fun n => ?_) ?_
  · cases n with
    | none => exact Unchanged.pure _
    | some n => exact Unchanged.pure _
  · split
    · exact Unchanged.pure _
    · refine Unchanged.ite ?_ (Unchanged.throw _)
      exact Unchanged.bind (Unchanged.modify fun _ => rfl) fun _ => Unchanged.pure _

theorem onItems_after (m : Scheduling.Sched Unit) (w : World) : (stateAfter (onItems m w)).items = stateAfter (m w.items) := by
  unfold onItems
  cases m w.items <;> rfl

variable (conf) in
/-- The times when `c` has been consumed: a check that waits for others is not
taken yet. -/
def World.takenTimes (w : World) (c : Nat) : Nat → Int :=
  if mustWait conf.toConf w.items c then w.lastChks else Function.update w.lastChks (w.check c).ref (w.check c).checkTime

theorem keeps_lastChks {α : Type} {m : Sched α} {l : Nat → Int} (h : Unchanged World.lastChks m) : Keeps (fun v => v.lastChks = l) m :=
  h.keeps (J := (· = l))

theorem consumeResult_lastChks (c : Nat) (w : World) :
    Leads (· = w) (consumeResult conf env c) fun v => v.lastChks = w.takenTimes conf c := by
  have hitems : ∀ v : World, v.items = w.items →
      (stateAfter (onItems (Scheduling.consumeResult conf.toConf env.toEnv c) v)).lastChks = w.takenTimes conf c := by
    intro v hv
    unfold World.lastChks
    rw [onItems_after, hv]
    exact Scheduling.consumeResult_lastChks c w.items
  refine Leads.readAt fun v hv => ?_
  subst hv
  by_cases hm : mustWait conf.toConf v.items c = true
  · rw [if_pos hm]
    refine Leads.bind (K := fun u => u.lastChks = v.takenTimes conf c) ?_ (fun _ => ?_) fun _ h => h
    · rintro _ rfl
      exact ⟨hitems _ rfl, fun _ _ _ => trivial⟩
    · refine Keeps.bind (keeps_lastChks (raiseDependenciesCheck_lastChks c _)) fun raised => ?_
      exact Keeps.bind (Keeps.modify fun _ h => h) fun _ => Keeps.pure _
  · rw [if_neg hm]
    refine leads_step (Leads.bind (K := fun u => u.lastChks = v.takenTimes conf c) ?_ (fun _ => Keeps.pure _) fun _ h => h)
    rintro _ rfl
    exact ⟨hitems _ rfl, fun _ _ _ => trivial⟩

theorem consumeAndAdd_lastChks (c : Nat) (w : World) : (stateAfter (consumeAndAdd conf env c w)).lastChks = w.takenTimes conf c :=
  (Leads.bind (consumeResult_lastChks c w) (fun l => keeps_lastChks (Unchanged.modify (addChecks_lastChks l))) (fun _ h => h) w rfl).1

end

end Alignak.Checking
