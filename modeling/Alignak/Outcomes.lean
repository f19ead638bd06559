import Alignak.Masked

/-!
# The state that a result leaves

The branches of `consume_result` test the exit status of the check, which agrees
with the state of the item but for a check that waited for its dependencies.
-/

namespace Alignak.Scheduling

def overridden (conf : Conf) (env : Env) (w : World) (k : Nat) : Bool :=
  (w.check k).status == .waitDepend && modulatedExitStatus conf env (w.check k) == 0 &&
    (conf.actDependOf (w.check k).ref).all fun dep => dep.item != (w.check k).ref &&
      decide ((w.checkState dep.item).state ∈ [State.down, .critical, .unknown, .unreachable])

/-- The state of the item agrees with the exit status, in the end and where
the branch is taken. -/
structure Agrees (conf : Conf) (env : Env) (w : World) (k : Nat) (w' : World) : Prop where
  final : (w'.checkState (w.check k).ref).state = okUp (conf.myType (w.check k).ref) ↔
    modulatedExitStatus conf env (w.check k) = 0
  branch : ((resolved conf env k w).checkState (w.check k).ref).state = okUp (conf.myType (w.check k).ref) ↔
    (takenCheck conf env w k).exitStatus = 0

section
variable {conf : Conf} {env : Env} {w w' : World} {i j k : Nat} {s : State}

/-! ## A state that is not OK -/

structure Down (conf : Conf) (i : Nat) (w : World) : Prop where
  state : (w.checkState i).state ≠ okUp (conf.myType i)
  masked : (w.checkState i).stateChangedSinceImpact = false → (w.checkState i).stateBeforeImpact ≠ okUp (conf.myType i)

theorem Down.congr (h : Down conf i w) (he : (w'.checkState i).outcome = (w.checkState i).outcome) : Down conf i w' := by
  simp only [CheckState.outcome, Prod.mk.injEq] at he
  obtain ⟨h1, h2, h3⟩ := he
  refine ⟨?_, ?_⟩
  · rw [h1]
    exact h.state
  · rw [h2, h3]
    exact h.masked

theorem Down.modifyCheckState {f : CheckState → CheckState} (h : Down conf i w)
    (hf : ∀ x, (f x).outcome = x.outcome) : Down conf i (w.modifyCheckState j f) := by
  by_cases hne : j = i
  · subst hne
    exact h.congr (by rw [World.modifyCheckState_self]; exact hf _)
  · exact h.congr (by rw [World.modifyCheckState_ne w (Ne.symm hne)])

theorem keepsDown_of_core {α : Type} {c : Sched α} (h : Unchanged World.core c) : Keeps (Down conf i) c := by
  intro s hs
  obtain ⟨-, hc, -⟩ := World.core_eq (h s)
  exact ⟨hs.congr (by rw [hc]), fun _ _ _ => trivial⟩

theorem unreachable_ne (t : ItemType) : State.unreachable ≠ okUp t := by cases t <;> decide

theorem Down.setImpact {now : Int} (h : Down conf i w) :
    Down conf i (w.modifyCheckState j fun c => c.setImpactState conf now) := by
  by_cases hne : j = i
  · subst hne
    unfold CheckState.setImpactState
    refine ⟨?_, ?_⟩ <;> rw [World.modifyCheckState_self]
    · split
      · exact unreachable_ne _
      · exact h.state
    · split
      · exact fun _ => h.state
      · exact h.masked
  · exact h.congr (by rw [World.modifyCheckState_ne w (Ne.symm hne)])

theorem Down.unsetImpact (h : Down conf i w) :
    Down conf i (w.modifyCheckState j fun c => c.unsetImpactState conf) := by
  by_cases hne : j = i
  · subst hne
    unfold CheckState.unsetImpactState
    refine ⟨?_, ?_⟩ <;> rw [World.modifyCheckState_self]
    · split
      · rename_i hc
        rw [Bool.and_eq_true, Bool.not_eq_true'] at hc
        exact h.masked hc.2
      · exact h.state
    · split
      · exact h.masked
      · exact h.masked
  · exact h.congr (by rw [World.modifyCheckState_ne w (Ne.symm hne)])

theorem down_kept : KeptByImpacts conf (Down conf i) where
  problem := fun _ _ _ h => h.congr rfl
  set := fun _ _ _ h => h.setImpact
  unset := fun _ _ h => h.unsetImpact

theorem changeState_down {chk : Check} {b : Bool} : Keeps (Down conf i) (changeState conf env i chk b) := by
  have hkept : KeptByParts conf env (Down conf i) (fun _ => True) i :=
    { check := fun f s hf hs => hs.modifyCheckState fun x => (hf x).1
      quiet := fun s s' hq hs => hs.congr (by rw [(World.quiet_eq hq).2.1])
      flexible := keepsDown_of_core (checkForFlexibleDowntime_core i)
      recovery := down_kept.noMore i
      problem := down_kept.setMyself i }
  exact hkept.changeState

/-! ## A recovery -/

def Shows (i : Nat) (s : State) (w : World) : Prop :=
  (w.checkState i).state = s ∧ (w.checkState i).stateChangedSinceImpact = true

theorem Shows.congr (h : Shows i s w) (he : (w'.checkState i).outcome = (w.checkState i).outcome) : Shows i s w' := by
  simp only [CheckState.outcome, Prod.mk.injEq] at he
  unfold Shows
  rw [he.1, he.2.2]
  exact h

theorem Shows.modifyCheckState {f : CheckState → CheckState} (h : Shows i s w)
    (hf : ∀ x, (f x).outcome = x.outcome) : Shows i s (w.modifyCheckState j f) := by
  by_cases hne : j = i
  · subst hne
    exact h.congr (by rw [World.modifyCheckState_self]; exact hf _)
  · exact h.congr (by rw [World.modifyCheckState_ne w (Ne.symm hne)])

theorem Shows.unsetImpact (h : Shows i s w) : Shows i s (w.modifyCheckState j fun c => c.unsetImpactState conf) := by
  by_cases hne : j = i
  · subst hne
    refine h.congr ?_
    rw [World.modifyCheckState_self]
    unfold CheckState.unsetImpactState
    rw [h.2, Bool.not_true, Bool.and_false]
    rfl
  · exact h.congr (by rw [World.modifyCheckState_ne w (Ne.symm hne)])

theorem noMoreAProblem_shows : Keeps (Shows i s) (noMoreAProblem conf j) := by
  refine Keeps.read fun w => Keeps.ite (fun _ => ?_) fun _ => Keeps.pure _
  refine Keeps.bind (Keeps.modify fun s h => h.congr rfl) fun _ => Keeps.bind (Keeps.forM fun k _ => ?_) fun _ => ?_
  · refine Keeps.read fun w => Keeps.ite (fun _ => ?_) fun _ => Keeps.throw trivial
    refine Keeps.bind (Keeps.modify fun s h => h.congr rfl) fun _ => ?_
    refine Keeps.ite (fun _ => Keeps.modify fun u h => ?_) fun _ => Keeps.pure _
    have h' : Shows i s (u.modifyProblem k fun p => { p with isImpact := false }) := h.congr rfl
    exact h'.unsetImpact
  · exact Keeps.modify fun s h => h.congr rfl

theorem Shows.of_quiet (h : Shows i s w) (hq : w'.quiet = w.quiet) : Shows i s w' :=
  h.congr (by rw [(World.quiet_eq hq).2.1])

theorem changeState_shows {chk : Check} {b : Bool} (he : chk.exitStatus = 0) :
    Keeps (Shows i s) (changeState conf env i chk b) := by
  refine Keeps.read fun w => ?_
  rw [if_pos he]
  refine Keeps.ite (fun _ => Keeps.modify fun u h => ?_) fun _ => ?_
  · refine (h.of_quiet (unacknowledgeProblem_quiet i u)).modifyCheckState fun x => ?_
    split
    · split <;> rfl
    · rfl
  · refine Keeps.bind (Keeps.modify fun u h => h.of_quiet (unacknowledgeProblem_quiet i u)) fun _ => ?_
    refine Keeps.read fun w => Keeps.ite (fun _ => ?_) fun _ => ?_
    · refine Keeps.bind (Keeps.modify fun u h => ?_) fun _ => Keeps.modify fun u h => h.modifyCheckState fun _ => rfl
      unfold addAttempt
      split
      · exact h
      · exact h.modifyCheckState fun _ => rfl
    · refine Keeps.bind (Keeps.modify fun u h => h.of_quiet (raiseAgain_quiet _ _ u)) fun _ => ?_
      exact Keeps.bind (Keeps.modify fun u h => h.modifyCheckState fun _ => rfl) fun _ => noMoreAProblem_shows

/-! ## The consumption -/

theorem stateOfExitStatus_iff (t : ItemType) (status : Int) : (stateOfExitStatus t status).1 = okUp t ↔ status = 0 := by
  constructor
  · intro h
    by_contra hne
    cases t with
    | host =>
      simp only [stateOfExitStatus, Host.stateOfExitStatus, okUp, if_neg hne] at h
      repeat' split at h
      all_goals cases h
    | service =>
      simp only [stateOfExitStatus, Service.stateOfExitStatus, okUp, if_neg hne] at h
      repeat' split at h
      all_goals cases h
  · rintro rfl
    cases t <;> rfl

theorem okUp_not_down (t : ItemType) : okUp t ∉ [State.down, .critical, .unknown, .unreachable] := by
  cases t <;> decide

theorem resolved_of_zero (he : modulatedExitStatus conf env (w.check k) = 0) :
    ((resolved conf env k w).checkState (w.check k).ref).state =
      if overridden conf env w k then .unreachable else okUp (conf.myType (w.check k).ref) := by
  obtain ⟨u1, -⟩ := @updateItemInformation_self conf env k w
  rw [(stateOfExitStatus_iff _ _).mpr he] at u1
  have hdep : ∀ dep : Dependency, decide (((updateItemInformation conf env k w).checkState dep.item).state ∈
      [State.down, .critical, .unknown, .unreachable]) = (dep.item != (w.check k).ref &&
        decide ((w.checkState dep.item).state ∈ [State.down, .critical, .unknown, .unreachable])) := by
    intro dep
    by_cases hne : dep.item = (w.check k).ref
    · rw [hne, u1]
      simp only [bne_self_eq_false, Bool.false_and, decide_eq_false_iff_not]
      exact okUp_not_down _
    · rw [updateItemInformation_other k w hne]
      simp [hne]
  have hcheck := updateItemInformation_taken conf env k w
  unfold resolved resolveDependencies
  rw [(finishCheck_rest k _).2.1, hcheck]
  unfold checkAndSetUnreachability overridden
  simp only [hdep, he, takenCheck]
  by_cases hd : (w.check k).status = .waitDepend
  · rw [if_pos hd, hd]
    simp only [beq_self_eq_true, Bool.true_and]
    split
    · rw [World.modifyCheckState_self]
      rfl
    · exact u1
  · rw [if_neg hd]
    simp only [beq_eq_false_iff_ne.mpr hd, Bool.false_and]
    exact u1

theorem resolved_of_nonzero (he : modulatedExitStatus conf env (w.check k) ≠ 0) :
    Down conf (w.check k).ref (resolved conf env k w) := by
  have ht := resolved_taken conf env k w
  refine ⟨?_, fun hc => ?_⟩
  · rcases ht.state with e | ⟨-, e⟩
    · rw [e]
      exact fun h => he ((stateOfExitStatus_iff _ _).mp h)
    · rw [e]
      exact unreachable_ne _
  · rw [ht.changed] at hc
    cases hc

theorem closeConsumption_outcome (w : World) : ((closeConsumption j w).checkState i).outcome = (w.checkState i).outcome := by
  have hack : ∀ (u : World) (f : AckState → AckState), (u.modifyAck j f).checkState = u.checkState := fun _ _ => rfl
  unfold closeConsumption
  simp only
  rw [hack]
  by_cases hne : i = j
  · subst hne
    rw [World.modifyCheckState_self]
    split
    · exact (w.checkState i).updateHardUnknown_same.1
    · exact (w.checkState i).updateHardUnknown_same.1
  · rw [World.modifyCheckState_ne w hne]

/-- The state that a result leaves agrees with its exit status exactly when it
is not overridden. -/
theorem consumed_agrees_iff (conf : Conf) (env : Env) (w : World) (k : Nat) (hm : mustWait conf w k = false) :
    Agrees conf env w k (stateAfter (consumeResult conf env k w)) ↔ overridden conf env w k = false := by
  by_cases he : modulatedExitStatus conf env (w.check k) = 0
  · have hstate := resolved_of_zero he
    have hshows : Shows (w.check k).ref ((resolved conf env k w).checkState (w.check k).ref).state
        (stateAfter (consumeResult conf env k w)) :=
      leads_consumption hm (changeState_shows he) (fun u hu => hu.congr (closeConsumption_outcome u))
        ⟨rfl, (resolved_taken conf env k w).changed⟩
    constructor
    · intro h
      by_contra ho
      rw [Bool.not_eq_false] at ho
      rw [if_pos ho] at hstate
      exact unreachable_ne _ (hstate.symm.trans (h.branch.mpr he))
    · intro ho
      rw [ho] at hstate
      refine ⟨⟨fun _ => he, fun _ => ?_⟩, fun _ => he, fun _ => hstate⟩
      rw [hshows.1]
      exact hstate
  · have hdown := resolved_of_nonzero he
    have hend : Down conf (w.check k).ref (stateAfter (consumeResult conf env k w)) :=
      leads_consumption hm changeState_down (fun u hu => hu.congr (closeConsumption_outcome u)) hdown
    have ho : overridden conf env w k = false := by
      unfold overridden
      rw [beq_eq_false_iff_ne.mpr he]
      simp
    refine ⟨fun _ => ho, fun _ => ⟨⟨fun h => absurd h hend.state, fun h => absurd h he⟩, ?_⟩⟩
    exact ⟨fun h => absurd h hdown.state, fun h => absurd h he⟩

end

/-! ## A host behind another one -/

theorem twoHosts_nodup : ([0, 1] ++ [] : List Nat).Nodup := by decide

def twoHosts : Conf where
  hosts := [0, 1]
  services := []
  nodup := twoHosts_nodup
  host := id
  hostServices := fun _ => []
  actDependOf := fun i => if i = 0 then [⟨1, [.letter 'd'], none⟩] else []
  actDependOfMe := fun i => if i = 1 then [⟨0, [.letter 'd'], none⟩] else []
  isVolatile := fun _ => false
  resultmodulations := fun i => if i = 0 then [5] else []
  enableProblemImpactsStatesChange := false

def modulatedEnv (now : Int) : Env := { plainEnv now with moduleReturn := fun _ _ => 0 }

def waitingForHost : List (Env × Event) :=
  [(plainEnv 10, .receiveResult 1 ⟨1, .scheduled, 2, 10, false, false, []⟩), (plainEnv 20, .consumeResult 1),
    (plainEnv 30, .receiveResult 0 ⟨0, .scheduled, 2, 30, false, false, []⟩), (plainEnv 40, .consumeResult 0)]

theorem consumed_agrees_down : Agrees twoHosts (plainEnv 50) (worldAfter twoHosts startWorld waitingForHost) 0
    (stateAfter (consumeResult twoHosts (plainEnv 50) 0 (worldAfter twoHosts startWorld waitingForHost))) :=
  (consumed_agrees_iff twoHosts (plainEnv 50) (worldAfter twoHosts startWorld waitingForHost) 0 (by decide)).mpr
    (by decide)

/-- The modulated result of host 0 is an OK, and leaves it unreachable. -/
theorem consumed_overridden : ∃ w w', Reachable twoHosts w ∧ mustWait twoHosts w 0 = false ∧
    consumeResult twoHosts (modulatedEnv 50) 0 w = .ok () w' ∧ ¬ Agrees twoHosts (modulatedEnv 50) w 0 w' := by
  have hr := run_of_executes twoHosts (show executes twoHosts startWorld waitingForHost = true by decide)
  have hok : returns (consumeResult twoHosts (modulatedEnv 50) 0 (worldAfter twoHosts startWorld waitingForHost)) = true := by
    decide
  refine ⟨_, _, ⟨startWorld, _, startWorld_initial, hr⟩, by decide, eq_ok_of_returns hok, fun h => ?_⟩
  have hup := h.final.mpr (by decide)
  exact absurd hup (by decide)

end Alignak.Scheduling
