import Alignak.Masked

/-!
# A hard problem lasts until the item comes back

Once a result has found an item in the HARD state of a problem, each result
finds it there again, behind any impact, until one brings it back to OK.
-/

namespace Alignak.Scheduling

def hardPhase : Phase where
  limit := fun _ => True
  ok := False
  fits := fun t _ => t = .hard
  deep := True
  notOk := fun _ => id

abbrev InProblem (conf : Conf) (i : Nat) (w : World) : Prop := Lawful conf i hardPhase False True w

def comesBack (conf : Conf) (env : Env) (w : World) (c : Nat) : Bool :=
  let i := (w.check c).ref
  !mustWait conf w c && modulatedExitStatus conf env (w.check c) == 0 && !wasOk conf (resolved conf env c w) i &&
    ((resolved conf env c w).checkState i).state == okUp (conf.myType i)

variable {b : Bool}

section
variable {conf : Conf} {env : Env} {i k : Nat} {w : World}

def Fallen (conf : Conf) (i : Nat) (w : World) : Prop :=
  okLike (conf.myType i) (w.checkState i).state = false ∧ (w.checkState i).stateChangedSinceImpact = true

theorem Fallen.inProblem (h : Fallen conf i w) (ht : (w.checkState i).stateType = .hard) : InProblem conf i w := by
  refine ⟨trivial, ⟨fun _ hc => ?_, fun _ => ?_, ht⟩, False.elim, fun _ _ => trivial⟩
  · rw [h.2] at hc
    cases hc
  · rw [h.1]
    exact ⟨fun e => absurd e (by decide), False.elim⟩

theorem Fallen.of_quiet {w' : World} (h : Fallen conf i w) (hq : w'.quiet = w.quiet) : Fallen conf i w' := by
  unfold Fallen
  rw [(World.quiet_eq hq).2.1]
  exact h

theorem stateOfExitStatus_notOk {t : ItemType} {status : Int} (h : status ≠ 0) :
    okLike t (stateOfExitStatus t status).1 = false := by
  cases t
  · show okLike .host (Host.stateOfExitStatus status).1 = false
    unfold Host.stateOfExitStatus
    rw [if_neg h]
    split
    · rfl
    · split <;> rfl
  · show okLike .service (Service.stateOfExitStatus status).1 = false
    unfold Service.stateOfExitStatus
    rw [if_neg h]
    repeat' split
    all_goals rfl

theorem unreachable_notOk (t : ItemType) : okLike t .unreachable = false := by cases t <;> rfl

theorem fallen_of_result (h : modulatedExitStatus conf env (w.check k) ≠ 0) :
    Fallen conf (w.check k).ref (resolved conf env k w) := by
  have ht := resolved_taken conf env k w
  refine ⟨?_, ht.changed⟩
  rcases ht.state with e | ⟨-, e⟩
  · rw [e]
    exact stateOfExitStatus_notOk h
  · rw [e]
    exact unreachable_notOk _

theorem InProblem.wasOk (env : Env) (h : InProblem conf (w.check k).ref w) :
    wasOk conf (resolved conf env k w) (w.check k).ref = false ∧
      ((resolved conf env k w).checkState (w.check k).ref).stateType = .hard := by
  have ht := resolved_taken conf env k w
  refine ⟨?_, ht.stateType.trans h.law.fits⟩
  unfold Scheduling.wasOk
  rw [ht.lastState]
  unfold CheckState.lastStateOf
  split
  · rename_i hc
    simp only [Bool.and_eq_true, Bool.not_eq_true'] at hc
    have hm := h.law.masked hc.1.1 hc.2
    exact Bool.eq_false_iff.mpr fun e => hm.mp e
  · rename_i hc
    simp only [Bool.and_eq_true, Bool.not_eq_true'] at hc
    have hp := h.law.plain fun ⟨h1, h2, h3⟩ => hc ⟨⟨h1, h2⟩, h3⟩
    exact Bool.eq_false_iff.mpr fun e => hp.mp e

/-! ## The branches of a hard problem -/

theorem keepsInProblem_of_quiet {f : World → World} (hf : ∀ s, (f s).quiet = s.quiet) :
    Keeps (InProblem conf i) (modify f : Sched PUnit) := Keeps.modify fun s hs => hs.of_quiet (hf s)

theorem setMyself_inProblem : Keeps (InProblem conf i) (setMyselfAsProblem conf env i) :=
  setMyselfAsProblem_lawful fun _ => trivial

theorem volatileNonOk_inProblem : Leads (Fallen conf i) (volatileNonOk conf env i b) (InProblem conf i) := by
  refine Leads.bind (K := InProblem conf i) (Leads.modify fun s hs => ?_) (fun _ => ?_) fun _ h => h
  · refine Fallen.inProblem ?_ ?_
    · unfold Fallen
      rw [World.modifyCheckState_self]
      exact hs
    · rw [World.modifyCheckState_self]
  · refine Keeps.bind (keepsLawful_of_core (checkForFlexibleDowntime_core i)) fun _ => ?_
    refine Keeps.bind (keepsInProblem_of_quiet fun s => raiseAgain_quiet _ _ s) fun _ => ?_
    exact Keeps.guarded fun _ => setMyself_inProblem

theorem enterHardProblem_inProblem : Leads (Fallen conf i) (enterHardProblem conf env i b) (InProblem conf i) := by
  refine Leads.bind (K := InProblem conf i) (Leads.modify fun s hs => ?_) (fun _ => ?_) fun _ h => h
  · refine Fallen.inProblem ?_ ?_
    · unfold Fallen
      rw [World.modifyCheckState_self]
      exact hs
    · rw [World.modifyCheckState_self]
  · refine Keeps.bind (keepsInProblem_of_quiet fun s => removeInProgressNotifications_quiet i s true) fun _ => ?_
    refine Keeps.bind (keepsLawful_of_core (checkForFlexibleDowntime_core i)) fun _ => Keeps.ite (fun _ => ?_) fun _ => Keeps.pure _
    exact Keeps.bind (keepsInProblem_of_quiet fun s => createNotifications_quiet i s _ _) fun _ => setMyself_inProblem

theorem fromOkToNonOk_inProblem (hw : Fallen conf i w) (hmax : (w.settings i).maxCheckAttempts ≤ 1) :
    Leads (· = w) (fromOkToNonOk conf env i b) (InProblem conf i) := by
  refine leads_step (Leads.readAt fun s e => ?_)
  have hm : isMaxAttempts s i = true := by
    subst e
    unfold isMaxAttempts CheckState.isMaxAttempts
    rw [World.modifyCheckState_self]
    exact decide_eq_true hmax
  rw [if_pos hm]
  refine enterHardProblem_inProblem.pre fun s' e' => ?_
  subst e' e
  unfold Fallen
  rw [World.modifyCheckState_self]
  exact hw

theorem fromSoftNonOk_inProblem {chk : Check} (hw : Fallen conf i w)
    (hmax : isMaxAttempts (addAttempt i chk w) i = true) : Leads (· = w) (fromSoftNonOk conf env i chk b) (InProblem conf i) := by
  refine leads_step (leads_step (Leads.readAt fun s e => ?_))
  have hadd : Fallen conf i (addAttempt i chk w) := by
    unfold addAttempt
    split
    · exact hw
    · unfold Fallen
      rw [World.modifyCheckState_self]
      exact hw
  have hq : s.quiet = (addAttempt i chk w).quiet := by
    subst e
    split
    · exact unacknowledgeProblemIfNotSticky_quiet _ _
    · rfl
  have hm : isMaxAttempts s i = true := by
    obtain ⟨h1, h2, -⟩ := World.quiet_eq hq
    unfold isMaxAttempts at hmax ⊢
    rw [h1, h2]
    exact hmax
  rw [if_pos hm]
  exact enterHardProblem_inProblem.pre fun s' e' => e' ▸ hadd.of_quiet hq

theorem notifyHard_inProblem (h : InProblem conf i w) : InProblem conf i (notifyHardNonOk conf env i b w) := by
  unfold notifyHardNonOk
  split
  · simp only
    have hx : InProblem conf i (w.modifyCheckState i fun x => x.updateHardUnknownPhaseState) :=
      h.modifyCheckState fun x => x.updateHardUnknown_key
    split
    · exact hx.of_quiet ((raiseAgain_quiet _ _ _).trans (unacknowledgeProblemIfNotSticky_quiet _ _))
    · exact hx
  · split
    · exact h.of_quiet (raiseAgain_quiet _ _ _)
    · exact h

theorem fromHardNonOk_inProblem : Keeps (InProblem conf i) (fromHardNonOk conf env i b) := by
  refine Keeps.bind (Keeps.modify fun s hs => notifyHard_inProblem hs) fun _ => ?_
  refine Keeps.bind (Keeps.guarded fun _ => setMyself_inProblem) fun _ => keepsInProblem_of_quiet fun s => ?_
  split
  · exact raiseAgain_quiet _ _ s
  · rfl

theorem changeState_inProblem {chk : Check} (hw : Fallen conf i w) (hr : reachesHard conf w i chk = true) :
    Leads (· = w) (changeState conf env i chk b) (InProblem conf i) := by
  refine Leads.readAt fun s e => ?_
  subst e
  unfold reachesHard at hr
  simp only [Bool.and_eq_true, Bool.or_eq_true, bne_iff_ne, ne_eq] at hr
  rw [if_neg hr.1]
  by_cases hv : isVolatile conf i = true
  · rw [if_pos hv]
    exact volatileNonOk_inProblem.pre fun s' e' => e' ▸ hw
  · rw [if_neg hv]
    have hreach := hr.2.resolve_left hv
    by_cases hok : wasOk conf s i = true
    · rw [if_pos hok] at hreach ⊢
      exact fromOkToNonOk_inProblem hw (of_decide_eq_true hreach)
    · rw [if_neg hok] at hreach ⊢
      by_cases hst : (s.checkState i).stateType = .soft
      · rw [if_pos hst]
        rw [hst] at hreach
        exact fromSoftNonOk_inProblem hw (by simpa using hreach)
      · rw [if_neg hst]
        have hhard : (s.checkState i).stateType = .hard := by
          cases hx : (s.checkState i).stateType with
          | soft => exact absurd hx hst
          | hard => rfl
        exact fromHardNonOk_inProblem.pre fun s' e' => e' ▸ hw.inProblem hhard

/-! ## The consumption of a result -/

theorem hardProblem_inProblem (h : hardProblem conf env w k = true) :
    InProblem conf (w.check k).ref (stateAfter (consumeResult conf env k w)) := by
  unfold hardProblem at h
  simp only [Bool.and_eq_true, Bool.not_eq_true'] at h
  obtain ⟨hm, hr⟩ := h
  have hne : modulatedExitStatus conf env (w.check k) ≠ 0 := by
    unfold reachesHard at hr
    simp only [Bool.and_eq_true, bne_iff_ne, ne_eq] at hr
    exact hr.1
  suffices hl : Leads (· = w) (consumeResult conf env k) (InProblem conf (w.check k).ref) from (hl w rfl).1
  refine Leads.readAt fun s e => ?_
  subst e
  rw [if_neg (by rw [hm]; decide)]
  refine leads_step (Leads.readAt fun u e => ?_)
  subst e
  rw [updateItemInformation_taken]
  refine leads_step (Leads.bind (K := InProblem conf (s.check k).ref) ?_ (fun _ => Keeps.modify fun s hs => hs.close)
    fun _ hs => hs)
  exact changeState_inProblem (fallen_of_result hne) hr

theorem InProblem.falseRecovery (h : InProblem conf (w.check k).ref w) (hr : hardRecovery conf env w k = true)
    (hc : comesBack conf env w k = false) : InProblem conf (w.check k).ref (stateAfter (consumeResult conf env k w)) := by
  have ht := resolved_taken conf env k w
  have hstate : ((resolved conf env k w).checkState (w.check k).ref).state = .unreachable := by
    unfold hardRecovery at hr
    unfold comesBack at hc
    simp only [Bool.and_eq_true, Bool.not_eq_true', beq_iff_eq] at hr
    obtain ⟨⟨⟨hm, he⟩, hok⟩, -⟩ := hr
    simp only [hm, he, hok] at hc
    rcases ht.state with e | ⟨-, e⟩
    · rw [he] at e
      have hup : (stateOfExitStatus (conf.myType (w.check k).ref) 0).1 = okUp (conf.myType (w.check k).ref) := by
        cases conf.myType (w.check k).ref <;> rfl
      rw [e, hup] at hc
      exact absurd hc (by simp)
    · exact e
  have hin : InProblem conf (w.check k).ref (resolved conf env k w) := by
    refine Fallen.inProblem ⟨?_, ht.changed⟩ (h.wasOk env).2
    rw [hstate]
    exact unreachable_notOk _
  suffices hl : Leads (· = w) (consumeResult conf env k) (InProblem conf (w.check k).ref) from (hl w rfl).1
  refine leads_hardRecovery hr (Leads.pre (I := InProblem conf (w.check k).ref) ?_ fun s e => ?_) fun s hs => hs.close
  · refine Keeps.bind (keepsInProblem_of_quiet fun s => raiseAgain_quiet _ _ s) fun _ => ?_
    refine Keeps.bind (Keeps.modify fun s hs => ?_) fun _ => noMoreAProblem_lawful
    refine Lawful.of_values trivial (World.modifyCheckState_self s) rfl ?_ False.elim fun _ _ => trivial
    exact ⟨hs.law.masked, hs.law.plain, hs.law.fits⟩
  · subst e
    exact hin.of_quiet (unacknowledgeProblem_quiet _ _)

theorem InProblem.consume (env : Env) (h : InProblem conf (w.check k).ref w) (hm : mustWait conf w k = false) :
    hardProblem conf env w k = true ∨ hardRecovery conf env w k = true := by
  obtain ⟨hok, hst⟩ := h.wasOk env
  by_cases he : modulatedExitStatus conf env (w.check k) = 0
  · refine Or.inr ?_
    unfold hardRecovery
    simp [hm, he, hok, hst]
  · refine Or.inl ?_
    unfold hardProblem reachesHard takenCheck
    simp [hm, he, hok, hst]

end

end Alignak.Scheduling
