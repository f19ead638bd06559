import Alignak.Masked

/-!
# Attempts in a soft state

While an item is in a SOFT state its attempt does not exceed the maximum. Each
result counts up to the maximum, and an item that reaches it goes HARD.
-/

namespace Alignak.Scheduling

variable {b : Bool} {chk : Check}

section
variable {conf : Conf} {env : Env} {i j : Nat} {w w' : World} {m : Nat → Int}

/-- The maximum of each item is the one of `m`, and bounds its attempt. -/
structure Tame (m : Nat → Int) (w : World) : Prop where
  maximum : ∀ i, (w.settings i).maxCheckAttempts = m i
  soft : ∀ i, (w.checkState i).stateType = .soft → (w.checkState i).attempt ≤ m i

structure TameBut (m : Nat → Int) (i : Nat) (w : World) : Prop where
  maximum : ∀ i, (w.settings i).maxCheckAttempts = m i
  soft : ∀ j, j ≠ i → (w.checkState j).stateType = .soft → (w.checkState j).attempt ≤ m j

theorem Tame.but (h : Tame m w) : TameBut m i w := ⟨h.maximum, fun j _ => h.soft j⟩

theorem Tame.congr (h : Tame m w) (hs : w'.settings = w.settings)
    (hx : ∀ j, (w'.checkState j).stateType = (w.checkState j).stateType ∧ (w'.checkState j).attempt = (w.checkState j).attempt) :
    Tame m w' := by
  refine ⟨by rw [hs]; exact h.maximum, fun j => ?_⟩
  rw [(hx j).1, (hx j).2]
  exact h.soft j

theorem Tame.of_core (h : Tame m w) (hc : w'.core = w.core) : Tame m w' := by
  obtain ⟨h1, h2, -⟩ := World.core_eq hc
  exact h.congr h1 fun j => by rw [h2]; exact ⟨rfl, rfl⟩

theorem Tame.of_quiet (h : Tame m w) (hq : w'.quiet = w.quiet) : Tame m w' := h.of_core (core_of_quiet hq)

theorem keepsTame_of_core {α : Type} {c : Sched α} (h : Unchanged World.core c) : Keeps (Tame m) c :=
  fun s hs => ⟨hs.of_core (h s), fun _ _ _ => trivial⟩

theorem TameBut.modifyCheckState {f : CheckState → CheckState} (h : TameBut m i w)
    (hf : (f (w.checkState i)).stateType = .soft → (f (w.checkState i)).attempt ≤ m i) : Tame m (w.modifyCheckState i f) := by
  refine ⟨h.maximum, fun j => ?_⟩
  by_cases hj : j = i
  · subst hj
    rw [World.modifyCheckState_self]
    exact hf
  · rw [World.modifyCheckState_ne w hj]
    exact h.soft j hj

theorem Tame.modifyCheckState_same {f : CheckState → CheckState} (h : Tame m w)
    (hf : (f (w.checkState i)).stateType = (w.checkState i).stateType ∧ (f (w.checkState i)).attempt = (w.checkState i).attempt) :
    Tame m (w.modifyCheckState i f) := by
  refine h.but.modifyCheckState ?_
  rw [hf.1, hf.2]
  exact h.soft i

theorem keptByImpacts_tame : KeptByImpacts conf (Tame m) where
  problem := fun s j f h => ⟨h.maximum, h.soft⟩
  set := fun s j now h => h.modifyCheckState_same (by unfold CheckState.setImpactState; split <;> exact ⟨rfl, rfl⟩)
  unset := fun s j h => h.modifyCheckState_same (by unfold CheckState.unsetImpactState; split <;> exact ⟨rfl, rfl⟩)

/-! ## The change of state -/

theorem addAttempt_tame (chk : Check) (h : Tame m w) : Tame m (addAttempt i chk w) := by
  unfold addAttempt
  split
  · exact h
  · refine h.but.modifyCheckState fun _ => ?_
    rw [← h.maximum i]
    exact min_le_right _ _

theorem enterHardProblem_tame : Leads (TameBut m i) (enterHardProblem conf env i b) (Tame m) := by
  refine Leads.bind (K := Tame m) (Leads.modify fun s h => h.modifyCheckState fun e => nomatch e) (fun _ => ?_) fun _ h => h
  refine Keeps.bind (Keeps.modify fun s h => h.of_quiet (quiet_of_still (by simp))) fun _ => ?_
  refine Keeps.bind (keepsTame_of_core (checkForFlexibleDowntime_core i)) fun _ => Keeps.ite (fun _ => ?_) fun _ => Keeps.pure _
  refine Keeps.bind (Keeps.modify fun s h => h.of_quiet (quiet_of_still (by simp))) fun _ => ?_
  exact keptByImpacts_tame.setMyself i

theorem fromOkToOk_tame (h : Tame m w) : Tame m (fromOkToOk i w) := by
  have hq := h.of_quiet (unacknowledgeProblem_quiet i w)
  refine hq.but.modifyCheckState ?_
  split
  · split
    · exact fun e => nomatch e
    · exact hq.soft i
  · exact fun e => nomatch e

theorem fromNonOkToOk_tame : Keeps (Tame m) (fromNonOkToOk conf env i chk b) := by
  refine Keeps.bind (Keeps.modify fun s h => h.of_quiet (unacknowledgeProblem_quiet i s)) fun _ => Leads.readAt fun s h => ?_
  by_cases hs : (s.checkState i).stateType = .soft
  · rw [if_pos hs]
    refine Leads.pre (I := Tame m) ?_ fun _ e => e ▸ h
    refine Keeps.bind (Keeps.modify fun s h => addAttempt_tame chk h) fun _ => ?_
    exact Keeps.modify fun s h => h.but.modifyCheckState fun e => nomatch e
  · rw [if_neg hs]
    have hq : (raiseAgain conf env i .recovery b s).quiet = s.quiet := raiseAgain_quiet _ _ s
    have hraise : ((raiseAgain conf env i .recovery b s).checkState i).stateType ≠ .soft := by
      rw [(World.quiet_eq hq).2.1]
      exact hs
    refine leads_step (leads_step ?_)
    refine Leads.pre (keptByImpacts_tame.noMore i) fun _ e => ?_
    rw [e]
    exact (h.of_quiet hq).but.modifyCheckState fun e => absurd e hraise

theorem fromOkToNonOk_tame : Keeps (Tame m) (fromOkToNonOk conf env i b) := by
  intro s h
  suffices hl : Leads (· = s) (fromOkToNonOk conf env i b) (Tame m) from hl s rfl
  refine leads_step (Leads.readAt fun s₁ e => ?_)
  have hbut : TameBut m i s₁ := by
    rw [e]
    refine ⟨h.maximum, fun j hj => ?_⟩
    rw [World.modifyCheckState_ne s hj]
    exact h.soft j
  have hattempt : (s₁.checkState i).attempt = 1 := by
    rw [e, World.modifyCheckState_self]
  by_cases hmax : isMaxAttempts s₁ i = true
  · rw [if_pos hmax]
    exact enterHardProblem_tame.pre fun _ e => e ▸ hbut
  · rw [if_neg hmax]
    refine Leads.modify fun s₂ e₂ => e₂ ▸ hbut.modifyCheckState fun _ => ?_
    unfold isMaxAttempts CheckState.isMaxAttempts at hmax
    simp only [decide_eq_true_eq, not_le, hbut.maximum] at hmax
    exact hmax.le

theorem fromSoftNonOk_tame : Keeps (Tame m) (fromSoftNonOk conf env i chk b) := by
  refine Keeps.bind (Keeps.modify fun s h => addAttempt_tame chk h) fun _ => ?_
  refine Keeps.bind (Keeps.modify fun s h => ?_) fun _ => Keeps.read fun s => Keeps.ite (fun _ => ?_) fun _ => Keeps.pure _
  · split
    · exact h.of_quiet (unacknowledgeProblemIfNotSticky_quiet i s)
    · exact h
  · exact enterHardProblem_tame.pre fun _ h => h.but

theorem notifyHardNonOk_tame (h : Tame m w) : Tame m (notifyHardNonOk conf env i b w) := by
  unfold notifyHardNonOk
  split
  · have hx : Tame m (w.modifyCheckState i fun x => x.updateHardUnknownPhaseState) :=
      h.modifyCheckState_same (CheckState.updateHardUnknown_same _).2
    simp only
    split
    · exact (hx.of_quiet (unacknowledgeProblemIfNotSticky_quiet i _)).of_quiet (raiseAgain_quiet _ _ _)
    · exact hx
  · split
    · exact h.of_quiet (raiseAgain_quiet _ _ _)
    · exact h

theorem fromHardNonOk_tame : Keeps (Tame m) (fromHardNonOk conf env i b) := by
  refine Keeps.bind (Keeps.modify fun s h => notifyHardNonOk_tame h) fun _ => ?_
  refine Keeps.bind (Keeps.guarded fun _ => keptByImpacts_tame.setMyself i) fun _ => Keeps.modify fun s h => ?_
  split
  · exact h.of_quiet (raiseAgain_quiet _ _ s)
  · exact h

theorem volatileNonOk_tame : Keeps (Tame m) (volatileNonOk conf env i b) := by
  refine Keeps.bind (Keeps.modify fun s h => h.but.modifyCheckState fun e => nomatch e) fun _ => ?_
  refine Keeps.bind (keepsTame_of_core (checkForFlexibleDowntime_core i)) fun _ => ?_
  exact Keeps.bind (Keeps.modify fun s h => h.of_quiet (raiseAgain_quiet _ _ s)) fun _ =>
    Keeps.guarded fun _ => keptByImpacts_tame.setMyself i

theorem changeState_tame : Keeps (Tame m) (changeState conf env i chk b) := by
  refine Keeps.read fun s => Keeps.ite (fun _ => Keeps.ite (fun _ => ?_) fun _ => fromNonOkToOk_tame) fun _ =>
    Keeps.ite (fun _ => volatileNonOk_tame) fun _ => Keeps.ite (fun _ => fromOkToNonOk_tame) fun _ =>
    Keeps.ite (fun _ => fromSoftNonOk_tame) fun _ => fromHardNonOk_tame
  exact Keeps.modify fun s h => fromOkToOk_tame h

/-! ## Events -/

theorem updateItemInformation_tame (k : Nat) (h : Tame m w) : Tame m (updateItemInformation conf env k w) := by
  refine h.congr (updateItemInformation_rest k w).1 fun j => ?_
  by_cases hj : j = (w.check k).ref
  · obtain ⟨-, -, -, h4, h5, -⟩ := @updateItemInformation_self conf env k w
    subst hj
    exact ⟨h4, h5⟩
  · rw [updateItemInformation_other k w hj]
    exact ⟨rfl, rfl⟩

theorem resolveDependencies_tame (k : Nat) (h : Tame m w) : Tame m (resolveDependencies conf env k w) := by
  refine h.congr (resolveDependencies_rest k w).1 fun j => ?_
  by_cases hj : j = (w.check k).ref
  · subst hj
    rcases @resolveDependencies_self conf env k w with e | ⟨-, e⟩
    · rw [e]
      exact ⟨rfl, rfl⟩
    · rw [e]
      exact ⟨rfl, rfl⟩
  · rw [resolveDependencies_other k w hj]
    exact ⟨rfl, rfl⟩

theorem closeConsumption_tame (h : Tame m w) : Tame m (closeConsumption i w) := by
  unfold closeConsumption
  simp only
  refine Tame.of_quiet (h.modifyCheckState_same ?_) (modifyAck_quiet _ _ _)
  obtain ⟨-, h2, h3⟩ := (w.checkState i).updateHardUnknown_same
  split
  · exact ⟨h2, h3⟩
  · exact ⟨h2, h3⟩

theorem consumeResult_tame (k : Nat) : Keeps (Tame m) (consumeResult conf env k) := by
  refine Keeps.read fun s => Keeps.ite (fun _ => Keeps.modify fun s h => ⟨h.maximum, h.soft⟩) fun _ => ?_
  refine Keeps.bind (Keeps.modify fun s h => updateItemInformation_tame k h) fun _ => Keeps.read fun s => ?_
  refine Keeps.bind (Keeps.modify fun s h => resolveDependencies_tame k h) fun _ => ?_
  exact Keeps.bind changeState_tame fun _ => Keeps.modify fun s h => closeConsumption_tame h

theorem changeSettings_tame (f : Settings → Settings) (h : Tame m w) :
    Tame m (w.modifySettings j fun s => { f s with maxCheckAttempts := s.maxCheckAttempts }) := by
  refine ⟨fun k => ?_, h.soft⟩
  by_cases hk : k = j
  · subst hk
    rw [World.modifySettings_self]
    exact h.maximum k
  · rw [World.modifySettings_ne w hk]
    exact h.maximum k

theorem event_tame {ev : Event} (hev : ∀ i n, ev ≠ .command (.changeMaxCheckAttempts i n)) : Keeps (Tame m) (runEvent conf env ev) := by
  intro w h
  refine ⟨?_, fun _ _ _ => trivial⟩
  by_cases hq : ev.isCore = true
  · exact h.of_core (runEvent_core conf env hq w)
  cases ev with
  | receiveResult k chk => exact ⟨h.maximum, h.soft⟩
  | consumeResult k => exact (consumeResult_tame k w h).1
  | command cmd =>
    cases cmd with
    | changeMaxCheckAttempts j n => exact absurd rfl (hev j n)
    | changeSettings j f => exact changeSettings_tame f h
    | _ => exact absurd rfl hq
  | _ => exact absurd rfl hq

end

end Alignak.Scheduling
