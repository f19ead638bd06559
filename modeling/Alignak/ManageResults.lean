import Alignak.ResultStates

/-!
# The results that reach the stored checks

`manage_results` copies a result that has been executed to the check that the
scheduler stores.
-/

namespace Alignak.Checking

open Scheduling

def World.outcome (w : World) (c : Nat) : Outcome where
  exitStatus := (w.check c).exitStatus
  output := (w.data c).output
  longOutput := (w.data c).longOutput
  perfData := (w.data c).perfData
  checkTime := (w.check c).checkTime
  executionTime := (w.data c).executionTime
  uTime := (w.data c).uTime
  sTime := (w.data c).sTime

section
variable (conf : Conf)

def expected (i : Nat) (action : Action) : Outcome :=
  if action.status = .timeout then timedOut conf i action.outcome else action.outcome

/-- The checks that wait are those of the scheduler, and a new one is none of these. -/
structure Known (w : World) : Prop where
  held : ∀ d, waiting (w.check d).status → d ∈ w.checks
  table : ∀ d ∈ w.checks, d < w.nextCheck

/-- The check waits with this result, and `consume_results` gives the state of the
result to its item. The state is that at the end of the call if no other check of
the item is consumed behind this one and no problem makes the item an impact; a
result that waits for those of other items may leave it unreachable. -/
structure Carries (env : Env) (o : Outcome) (c : Nat) (w : World) : Prop where
  waits : (w.check c).status = .waitConsume
  outcome : w.outcome c = o
  state : Known w → ∀ before after v, consumeResults conf env w = .ok ⟨⟩ v → v.consumed = w.consumed ++ (before ++ c :: after) →
    Undisturbed conf w c after →
      (v.items.checkState (w.check c).ref).state =
        givenState conf.toConf env.toEnv { w.check c with exitStatus := o.exitStatus } ∨
      mustWait conf.toConf w.items c = true ∧ (v.items.checkState (w.check c).ref).state = .unreachable

end

section
variable {conf : Conf} {env : Env} {c : Nat} {o : Outcome} {w : World} {action : Action}

@[simp] theorem setStatus_status (s : ActStatus) : ((w.setStatus c s).check c).status = s := by
  simp [World.setStatus, World.modifyCheck, World.check, World.setCheck]

@[simp] theorem setStatus_ref (s : ActStatus) : ((w.setStatus c s).check c).ref = (w.check c).ref := by
  simp [World.setStatus, World.modifyCheck, World.check, World.setCheck]

@[simp] theorem setStatus_outcome (s : ActStatus) : (w.setStatus c s).outcome c = w.outcome c := by
  simp [World.outcome, World.setStatus, World.modifyCheck, World.check, World.setCheck]

theorem getReturnFrom_outcome : (getReturnFrom c o w).outcome c = o := by
  simp [World.outcome, getReturnFrom, World.modifyData, World.modifyCheck, World.check, World.setCheck]

theorem carries_iff : Carries conf env o c w ↔ (w.check c).status = .waitConsume ∧ w.outcome c = o := by
  refine ⟨fun h => ⟨h.waits, h.outcome⟩, fun h => ⟨h.1, h.2, ?_⟩⟩
  intro hknown before after v hr hv hu
  have hc : c < w.nextCheck := hknown.table c (hknown.held c (Or.inl h.1))
  obtain ⟨s, hs, hshows⟩ := consumeResults_shown hc h.1 (fun d hd => hknown.table d (hknown.held d hd)) hr hv hu
  have he : o.exitStatus = (w.check c).exitStatus := by
    rw [← h.2]
    rfl
  rw [he, hshows.1]
  exact hs

theorem manageResults_outcome (h : action.uuid ∈ w.checks) : (manageResults conf action w).2.outcome action.uuid =
    if action.status = .timeout ∨ action.passiveCheck = true then w.outcome action.uuid else action.outcome := by
  unfold manageResults
  simp only [if_pos h]
  by_cases ht : action.status = .timeout
  · rw [if_pos ht, if_pos (Or.inl ht)]
    exact setStatus_outcome _
  · rw [if_neg ht]
    by_cases hp : action.passiveCheck = true
    · rw [if_pos hp, if_pos (Or.inr hp)]
      exact setStatus_outcome _
    · rw [if_neg hp, if_neg (not_or.mpr ⟨ht, hp⟩)]
      exact (setStatus_outcome _).trans getReturnFrom_outcome

theorem manageResults_status (h : action.uuid ∈ w.checks) :
    ((manageResults conf action w).2.check action.uuid).status = .waitConsume := by
  unfold manageResults
  simp only [if_pos h]
  split
  · exact setStatus_status _
  · split <;> exact setStatus_status _

/-- The stored check carries the result when it is one of an active check that
has been executed, or when it carried the same before. -/
theorem manageResults_carries_iff (h : action.uuid ∈ w.checks) :
    Carries conf env (expected conf (w.check action.uuid).ref action) action.uuid (manageResults conf action w).2 ↔
      (action.status ≠ .timeout ∧ action.passiveCheck = false) ∨
        w.outcome action.uuid = expected conf (w.check action.uuid).ref action := by
  rw [carries_iff, manageResults_outcome h, and_iff_right (manageResults_status h)]
  by_cases hc : action.status = .timeout ∨ action.passiveCheck = true
  · rw [if_pos hc]
    refine ⟨Or.inr, fun ho => ho.resolve_left fun hn => ?_⟩
    rcases hc with ht | hp
    · exact hn.1 ht
    · exact absurd (hp.symm.trans hn.2) (by decide)
  · rw [if_neg hc]
    rw [not_or, Bool.not_eq_true] at hc
    exact ⟨fun _ => Or.inl hc, fun _ => (if_neg hc.1).symm⟩

end

/-! ## A check that times out -/

def polledWorld : World where
  items := { startWorld with check := fun _ => ⟨0, .polled, 3, 0, false, false, []⟩ }
  checks := [0]
  data := fun _ => ⟨"", "", "", 0, 0, 0, 0, 0, false, false, []⟩
  item := fun _ => { checksInProgress := [0], inChecking := true }
  nextCheck := 1
  consumed := []

def oneCheckedHost : Conf where
  toConf := oneHost
  chkDependOf := fun _ => []
  hasCheckCommand := fun _ => true
  fullName := fun _ => "web"
  processPerfData := fun _ => true
  timeoutExitStatus := 2
  tickCleanQueues := 10

def checkingEnv (now : Int) : Env where
  toEnv := plainEnv now
  cachedCheckHorizon := fun _ => 0
  executeChecks := fun _ => true
  acceptPassiveChecks := fun _ => true
  isInternalCommand := fun _ => false
  checkInterval := fun _ => 5
  nextChk := fun _ => some now
  manageInternalCheck := fun _ => ⟨0, "", "", "", now, 0, 0, 0⟩
  isFreshnessExpired := fun _ => false
  freshnessOutcome := fun _ => ⟨3, "", "", "", now, 0, 0, 0⟩

def finished : Action := ⟨0, .done, ⟨0, "PING OK", "", "rta=1", 7, 1, 0, 0⟩, false⟩

def late : Action := { finished with status := .timeout }

theorem manageResults_carries_finished : Carries oneCheckedHost (checkingEnv 8) (expected oneCheckedHost 0 finished) 0
    (manageResults oneCheckedHost finished polledWorld).2 := by
  have h : finished.uuid ∈ polledWorld.checks := List.mem_singleton.mpr rfl
  exact (manageResults_carries_iff h).mpr (Or.inl ⟨by decide, rfl⟩)

/-- The item takes the exit status that a check has when it is made, and not the
one of a timeout. -/
theorem timeout_not_carried : ¬ Carries oneCheckedHost (checkingEnv 8) (expected oneCheckedHost 0 late) 0
    (manageResults oneCheckedHost late polledWorld).2 := by
  intro h
  have he : (3 : Int) = 2 := congrArg Outcome.exitStatus h.outcome
  exact absurd he (by decide)

end Alignak.Checking
