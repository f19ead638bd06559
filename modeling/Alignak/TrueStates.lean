import Alignak.HardProblems

/-!
# The true state of an item

The state that the next result of an item replaces is its own state or, behind
an impact, the one from before it.
-/

namespace Alignak.Scheduling

structure Well (conf : Conf) (i : Nat) (w : World) : Prop where
  noProblem : (w.problem i).isProblem = false
  masked : conf.enableProblemImpactsStatesChange = true → (w.checkState i).stateChangedSinceImpact = false →
    ((w.problem i).isImpact = true ∨ (w.problem i).sourceProblems ≠ []) → (w.checkState i).stateBeforeImpact = okUp (conf.myType i)
  plain : ¬ (conf.enableProblemImpactsStatesChange = true ∧ (w.problem i).isImpact = true ∧
    (w.checkState i).stateChangedSinceImpact = false) → (w.checkState i).state = okUp (conf.myType i)

structure Unwell (conf : Conf) (i : Nat) (w : World) : Prop where
  state : okLike (conf.myType i) (w.checkState i).state = false
  masked : conf.enableProblemImpactsStatesChange = true → (w.checkState i).stateChangedSinceImpact = false →
    okLike (conf.myType i) (w.checkState i).stateBeforeImpact = false

def SoftFree (i : Nat) (w : World) : Prop := (w.checkState i).stateType = .soft → (w.problem i).isProblem = false

variable {f : CheckState → CheckState}

section
variable {conf : Conf} {env : Env} {i j : Nat} {w w' : World}

theorem Well.lastState (h : Well conf i w) :
    (w.checkState i).lastStateOf conf (w.problem i).isImpact = okUp (conf.myType i) := by
  unfold CheckState.lastStateOf
  split
  · rename_i hc
    simp only [Bool.and_eq_true, Bool.not_eq_true'] at hc
    exact h.masked hc.1.1 hc.2 (Or.inl hc.1.2)
  · rename_i hc
    simp only [Bool.and_eq_true, Bool.not_eq_true'] at hc
    exact h.plain fun ⟨h1, h2, h3⟩ => hc ⟨⟨h1, h2⟩, h3⟩

theorem Unwell.lastState (h : Unwell conf i w) :
    okLike (conf.myType i) ((w.checkState i).lastStateOf conf (w.problem i).isImpact) = false := by
  unfold CheckState.lastStateOf
  split
  · rename_i hc
    simp only [Bool.and_eq_true, Bool.not_eq_true'] at hc
    exact h.masked hc.1.1 hc.2
  · exact h.state

/-! ## What the other items can do -/

def CheckState.truth (x : CheckState) := (x.state, x.stateType, x.stateBeforeImpact, x.stateChangedSinceImpact)

structure Sheltered (conf : Conf) (I : World → Prop) (i : Nat) : Prop where
  congr : ∀ s s', (s'.checkState i).truth = (s.checkState i).truth → s'.problem i = s.problem i → I s → I s'
  problem : ∀ s f, (∀ p, (f p).isImpact = p.isImpact ∧ (f p).sourceProblems = p.sourceProblems ∧
    ((f p).isProblem = true → p.isProblem = true)) → I s → I (s.modifyProblem i f)
  unregister : ∀ prob, Keeps I (unregisterAProblem conf prob i)

namespace Sheltered

variable {I : World → Prop}

theorem stateNe (h : Sheltered conf I i) {f : CheckState → CheckState} (hj : j ≠ i) (hw : I w) : I (w.modifyCheckState j f) := by
  refine h.congr w _ ?_ rfl hw
  rw [World.modifyCheckState_ne w (Ne.symm hj)]

theorem problemNe (h : Sheltered conf I i) {f : ProblemState → ProblemState} (hj : j ≠ i) (hw : I w) : I (w.modifyProblem j f) :=
  h.congr w _ rfl (World.modifyProblem_ne w (Ne.symm hj)) hw

theorem of_core (h : Sheltered conf I i) (hc : w'.core = w.core) (hw : I w) : I w' := by
  obtain ⟨-, h2, h3, -⟩ := World.core_eq hc
  exact h.congr w w' (by rw [h2]) (by rw [h3]) hw

theorem of_quiet (h : Sheltered conf I i) (hq : w'.quiet = w.quiet) (hw : I w) : I w' := h.of_core (core_of_quiet hq) hw

theorem unregisterAny (h : Sheltered conf I i) (prob : Nat) : Keeps I (unregisterAProblem conf prob j) := by
  by_cases hj : j = i
  · subst hj
    exact h.unregister prob
  · refine Keeps.read fun w => Keeps.ite (fun _ => ?_) fun _ => Keeps.throw trivial
    refine Keeps.bind (Keeps.modify fun s hs => h.problemNe hj hs) fun _ => ?_
    exact Keeps.ite (fun _ => Keeps.modify fun s hs => h.stateNe hj (h.problemNe hj hs)) fun _ => Keeps.pure _

theorem problemAny (h : Sheltered conf I i) (f : ProblemState → ProblemState) (hf : ∀ p, (f p).isImpact = p.isImpact ∧
    (f p).sourceProblems = p.sourceProblems ∧ ((f p).isProblem = true → p.isProblem = true)) (hw : I w) :
    I (w.modifyProblem j f) := by
  by_cases hj : j = i
  · subst hj
    exact h.problem w f hf hw
  · exact h.problemNe hj hw

theorem noMore (h : Sheltered conf I i) : Keeps I (noMoreAProblem conf j) := by
  refine Keeps.read fun w => Keeps.ite (fun _ => ?_) fun _ => Keeps.pure _
  refine Keeps.bind (Keeps.modify fun s hs => h.problemAny _ (fun p => ⟨rfl, rfl, fun e => nomatch e⟩) hs) fun _ => ?_
  refine Keeps.bind (Keeps.forM fun k _ => h.unregisterAny j) fun _ => ?_
  exact Keeps.modify fun s hs => h.problemAny _ (fun p => ⟨rfl, rfl, id⟩) hs

theorem becomeAny (h : Sheltered conf I i) (hb : ∀ prob, Keeps I (becomeImpact conf env prob i)) (prob : Nat) :
    Keeps I (becomeImpact conf env prob j) := by
  by_cases hj : j = i
  · subst hj
    exact hb prob
  · refine Keeps.read fun w => Keeps.bind (Keeps.modify fun s hs => h.problemNe hj hs) fun _ => ?_
    refine Keeps.bind (Keeps.guarded fun _ => h.noMore) fun _ => ?_
    refine Keeps.bind (Keeps.guarded fun _ => Keeps.modify fun s hs => h.stateNe hj hs) fun _ => ?_
    exact Keeps.modify fun s hs => h.problemNe hj hs

theorem register (h : Sheltered conf I i) (hb : ∀ prob, Keeps I (becomeImpact conf env prob i)) (prob : Nat) :
    ∀ fuel j, Keeps I (registerAProblem conf env prob fuel j)
  | 0, _ => Keeps.throw trivial
  | fuel + 1, j => by
    unfold registerAProblem
    refine Keeps.read fun w => Keeps.ite (fun _ => Keeps.pure _) fun _ => Keeps.bind (h.becomeAny hb prob) fun _ => ?_
    refine Keeps.foldlM fun found l _ => Keeps.read fun w => Keeps.ite (fun _ => ?_) fun _ => Keeps.pure _
    exact Keeps.bind (h.register hb prob fuel l.item) fun _ => Keeps.pure _

theorem setMyself (h : Sheltered conf I i) (hb : ∀ prob, Keeps I (becomeImpact conf env prob i)) (hj : j ≠ i) :
    Keeps I (setMyselfAsProblem conf env j) := by
  refine Keeps.bind (Keeps.modify fun s hs => h.problemNe hj hs) fun _ => Keeps.read fun w => Keeps.bind ?_ fun found => ?_
  · refine Keeps.foldlM fun found l _ => Keeps.read fun w => Keeps.ite (fun _ => ?_) fun _ => Keeps.pure _
    exact Keeps.bind (h.register hb j _ l.item) fun _ => Keeps.pure _
  · exact Keeps.modify fun s hs => h.problemNe hj hs

/-! ### The events -/

theorem consumeOther (h : Sheltered conf I i) (hb : ∀ prob, Keeps I (becomeImpact conf env prob i)) {k : Nat}
    (hk : (w.check k).ref ≠ i ∨ mustWait conf w k = true) (hw : I w) : I (stateAfter (consumeResult conf env k w)) := by
  suffices hl : Leads (· = w) (consumeResult conf env k) I from (hl w rfl).1
  refine Leads.readAt fun s e => ?_
  subst e
  by_cases hm : mustWait conf s k = true
  · rw [if_pos hm]
    exact Leads.modify fun s' e => by subst e; exact h.congr s' _ rfl rfl hw
  · rw [if_neg hm]
    have hj := hk.resolve_right hm
    have hmoves : KeptByParts conf env I (fun _ => True) (s.check k).ref :=
      { check := fun f s _ hs => h.stateNe hj hs
        quiet := fun s s' hq hs => h.of_quiet hq hs
        flexible := fun s hs => ⟨h.of_core (checkForFlexibleDowntime_core _ s) hs, fun _ _ _ => trivial⟩
        recovery := h.noMore
        problem := h.setMyself hb hj }
    refine leads_step (Leads.readAt fun u e => ?_)
    subst e
    rw [updateItemInformation_taken]
    refine leads_step (Leads.pre (I := I) ?_ ?_)
    · refine Leads.bind hmoves.changeState (fun _ => Leads.modify fun u hu => ?_) fun _ hu => hu
      unfold closeConsumption
      simp only
      exact h.of_quiet (modifyAck_quiet _ _ _) (h.stateNe hj hu)
    · rintro _ rfl
      obtain ⟨-, hp⟩ := resolved_rest conf env k s
      refine h.congr s _ ?_ (congrFun hp i) hw
      have hr : (resolved conf env k s).checkState i = s.checkState i := by
        unfold resolved
        rw [resolveDependencies_other k _ (by rw [updateItemInformation_taken]; exact Ne.symm hj)]
        exact updateItemInformation_other k s (Ne.symm hj)
      exact congrArg CheckState.truth hr

theorem changeMaxCheckAttempts (h : Sheltered conf I i) {n : Int} (hw : I w) : I (changeMaxCheckAttempts conf j n w) := by
  unfold Scheduling.changeMaxCheckAttempts
  simp only
  refine h.congr w _ ?_ rfl hw
  by_cases hj : i = j
  · subst hj
    rw [World.modifyCheckState_self]
    split <;> rfl
  · rw [World.modifyCheckState_ne _ hj]
    rfl

theorem event (h : Sheltered conf I i) (hb : ∀ prob, Keeps I (becomeImpact conf env prob i)) {ev : Event}
    (hc : ∀ k, ev = .consumeResult k → (w.check k).ref ≠ i ∨ mustWait conf w k = true) (hw : I w) :
    I (stateAfter (runEvent conf env ev w)) := by
  by_cases hq : ev.isCore = true
  · exact h.of_core (runEvent_core conf env hq w) hw
  cases ev with
  | receiveResult k chk => exact h.congr w _ rfl rfl hw
  | consumeResult k => exact h.consumeOther hb (hc k rfl) hw
  | command cmd =>
    cases cmd with
    | changeMaxCheckAttempts j n => exact h.changeMaxCheckAttempts hw
    | changeSettings j f => exact h.congr w _ rfl rfl hw
    | _ => exact absurd rfl hq
  | _ => exact absurd rfl hq

end Sheltered

/-! ## A well item -/

theorem Well.of_values {x : CheckState} {p : ProblemState} (hx : w.checkState i = x) (hp : w.problem i = p)
    (h1 : p.isProblem = false)
    (h2 : conf.enableProblemImpactsStatesChange = true → x.stateChangedSinceImpact = false →
      (p.isImpact = true ∨ p.sourceProblems ≠ []) → x.stateBeforeImpact = okUp (conf.myType i))
    (h3 : ¬ (conf.enableProblemImpactsStatesChange = true ∧ p.isImpact = true ∧ x.stateChangedSinceImpact = false) →
      x.state = okUp (conf.myType i)) : Well conf i w := by
  subst hx hp
  exact ⟨h1, h2, h3⟩

/-- A source of the impact less. -/
theorem Well.dropSource (h : Well conf i w) (hne : (w.problem i).sourceProblems ≠ []) (l : List Nat) :
    Well conf i (w.modifyProblem i fun p => { p with sourceProblems := l }) := by
  refine Well.of_values (p := { w.problem i with sourceProblems := l }) rfl (World.modifyProblem_self w) h.noProblem ?_ h.plain
  exact fun he hc _ => h.masked he hc (Or.inr hne)

theorem CheckState.unsetImpact_mask (x : CheckState) : (x.unsetImpactState conf).stateBeforeImpact = x.stateBeforeImpact ∧
    (x.unsetImpactState conf).stateChangedSinceImpact = x.stateChangedSinceImpact := by
  unfold CheckState.unsetImpactState
  split <;> exact ⟨rfl, rfl⟩

theorem Well.unsetImpact (h : Well conf i w)
    (hm : conf.enableProblemImpactsStatesChange = true → (w.checkState i).stateChangedSinceImpact = false →
      (w.checkState i).stateBeforeImpact = okUp (conf.myType i)) :
    Well conf i ((w.modifyProblem i fun p => { p with isImpact := false }).modifyCheckState i fun c => c.unsetImpactState conf) := by
  refine Well.of_values (x := (w.checkState i).unsetImpactState conf) (p := { w.problem i with isImpact := false })
    (World.modifyCheckState_self _) (World.modifyProblem_self w (f := fun p => { p with isImpact := false })) h.noProblem ?_ ?_
  · obtain ⟨h1, h2⟩ := (w.checkState i).unsetImpact_mask
    rw [h1, h2]
    exact fun he hc _ => hm he hc
  · intro _
    unfold CheckState.unsetImpactState
    split
    · rename_i hc
      rw [Bool.and_eq_true, Bool.not_eq_true'] at hc
      exact hm hc.1 hc.2
    · rename_i hc
      rw [Bool.and_eq_true, Bool.not_eq_true'] at hc
      exact h.plain fun hn => hc ⟨hn.1, hn.2.2⟩

theorem well_unregister (prob : Nat) : Keeps (Well conf i) (unregisterAProblem conf prob i) := by
  refine Leads.readAt fun s h => ?_
  by_cases hm : prob ∈ (s.problem i).sourceProblems
  · rw [if_pos hm]
    have hne : (s.problem i).sourceProblems ≠ [] := List.ne_nil_of_mem hm
    refine leads_step ?_
    split
    · refine Leads.modify ?_
      rintro _ rfl
      refine (h.dropSource hne _).unsetImpact fun he hc => ?_
      exact h.masked he hc (Or.inr hne)
    · rintro _ rfl
      exact ⟨h.dropSource hne _, fun _ _ _ => trivial⟩
  · rw [if_neg hm]
    rintro _ rfl
    exact ⟨h, fun _ _ _ => trivial⟩

theorem well_sheltered : Sheltered conf (Well conf i) i where
  congr := by
    intro s s' hx hp h
    simp only [CheckState.truth, Prod.mk.injEq] at hx
    obtain ⟨h1, -, h3, h4⟩ := hx
    refine ⟨?_, ?_, ?_⟩
    · rw [hp]; exact h.noProblem
    · rw [hp, h3, h4]; exact h.masked
    · rw [hp, h1, h4]; exact h.plain
  problem := by
    intro s f hf h
    obtain ⟨h1, h2, h3⟩ := hf (s.problem i)
    refine Well.of_values rfl (World.modifyProblem_self s) ?_ ?_ ?_
    · exact Bool.eq_false_iff.mpr fun e => Bool.eq_false_iff.mp h.noProblem (h3 e)
    · rw [h1, h2]; exact h.masked
    · rw [h1]; exact h.plain
  unregister := well_unregister

theorem Well.addSource (h : Well conf i w) (hi : (w.problem i).isImpact = true) (prob : Nat) :
    Well conf i (w.modifyProblem i fun p =>
      if prob ∈ p.sourceProblems then p else { p with sourceProblems := p.sourceProblems ++ [prob] }) := by
  refine Well.of_values rfl (World.modifyProblem_self w) ?_ (fun he hc _ => h.masked he hc (Or.inl hi)) ?_
  · split <;> exact h.noProblem
  · split <;> exact h.plain

theorem Well.setImpact (hp : (w.problem i).isProblem = false) (hi : (w.problem i).isImpact = true)
    (hs : (w.checkState i).state = okUp (conf.myType i)) :
    Well conf i (w.modifyCheckState i fun c => c.setImpactState conf env.now) := by
  refine Well.of_values (World.modifyCheckState_self w) rfl hp ?_ ?_
  · intro he _ _
    unfold CheckState.setImpactState
    rw [if_pos he]
    exact hs
  · intro hn
    unfold CheckState.setImpactState at hn ⊢
    split at hn
    · rename_i he
      exact absurd ⟨he, hi, rfl⟩ hn
    · rename_i he
      rw [if_neg he]
      exact hs

theorem well_become (prob : Nat) : Keeps (Well conf i) (becomeImpact conf env prob i) := by
  refine Leads.readAt fun s h => ?_
  have hg : guarded ((s.problem i).isProblem = true) (noMoreAProblem conf i) = pure ⟨⟩ := by
    unfold guarded
    rw [if_neg (Bool.eq_false_iff.mp h.noProblem)]
  simp only
  rw [hg, pure_bind]
  refine leads_step ?_
  have hflag : ((s.modifyProblem i fun p => { p with isImpact := true }).problem i) = { s.problem i with isImpact := true } :=
    World.modifyProblem_self s
  by_cases hi : (s.problem i).isImpact = true
  · unfold guarded
    rw [if_neg (by rw [hi]; decide), pure_bind]
    refine Leads.modify ?_
    rintro _ rfl
    refine Well.addSource (Well.of_values rfl hflag h.noProblem (fun he hc _ => h.masked he hc (Or.inl hi)) fun hn => ?_) ?_ prob
    · exact h.plain fun ⟨h1, _, h3⟩ => hn ⟨h1, rfl, h3⟩
    · rw [hflag]
  · unfold guarded
    rw [if_pos (by simpa using hi)]
    refine leads_step (Leads.modify ?_)
    rintro _ rfl
    refine Well.addSource (Well.setImpact (w := s.modifyProblem i fun p => { p with isImpact := true }) ?_ ?_
      (h.plain fun hn => hi hn.2.1)) ?_ prob
    · rw [hflag]; exact h.noProblem
    · rw [hflag]
    · show ((s.modifyProblem i fun p => { p with isImpact := true }).problem i).isImpact = true
      rw [hflag]

/-! ## An ill item -/

theorem softFree_sheltered : Sheltered conf (SoftFree i) i where
  congr := by
    intro s s' hx hp h
    simp only [CheckState.truth, Prod.mk.injEq] at hx
    unfold SoftFree
    rw [hx.2.1, hp]
    exact h
  problem := by
    intro s f hf h hs
    rw [World.modifyProblem_self]
    exact Bool.eq_false_iff.mpr fun e => Bool.eq_false_iff.mp (h hs) ((hf _).2.2 e)
  unregister := by
    intro prob
    refine Keeps.read fun w => Keeps.ite (fun _ => ?_) fun _ => Keeps.throw trivial
    refine Keeps.bind (Keeps.modify fun s h hs => ?_) fun _ => Keeps.ite (fun _ => Keeps.modify fun s h hs => ?_) fun _ => Keeps.pure _
    · rw [World.modifyProblem_self]
      exact h hs
    · rw [World.modifyCheckState_self] at hs
      show ((s.modifyProblem i fun p => { p with isImpact := false }).problem i).isProblem = false
      rw [World.modifyProblem_self]
      refine h ?_
      unfold CheckState.unsetImpactState at hs
      split at hs <;> exact hs

theorem softFree_become (prob : Nat) : Keeps (SoftFree i) (becomeImpact conf env prob i) := by
  refine Keeps.read fun w => Keeps.bind (Keeps.modify fun s h hs => ?_) fun _ => Keeps.bind ?_ fun _ => Keeps.bind ?_ fun _ => ?_
  · rw [World.modifyProblem_self]
    exact h hs
  · exact Keeps.guarded fun _ => softFree_sheltered.noMore
  · refine Keeps.guarded fun _ => Keeps.modify fun s h hs => h ?_
    rw [World.modifyCheckState_self] at hs
    unfold CheckState.setImpactState at hs
    split at hs <;> exact hs
  · refine Keeps.modify fun s h hs => ?_
    rw [World.modifyProblem_self]
    split <;> exact h hs

theorem unwell_kept : KeptByImpacts conf (Unwell conf i) := by
  have move : ∀ (s : World) j (f : CheckState → CheckState), Unwell conf i s →
      (∀ x : CheckState, okLike (conf.myType i) x.state = false →
        (conf.enableProblemImpactsStatesChange = true → x.stateChangedSinceImpact = false →
          okLike (conf.myType i) x.stateBeforeImpact = false) →
        okLike (conf.myType i) (f x).state = false ∧ (conf.enableProblemImpactsStatesChange = true →
          (f x).stateChangedSinceImpact = false → okLike (conf.myType i) (f x).stateBeforeImpact = false)) →
      Unwell conf i (s.modifyCheckState j f) := by
    intro s j f h hf
    by_cases hj : i = j
    · subst hj
      obtain ⟨h1, h2⟩ := hf _ h.state h.masked
      refine ⟨?_, ?_⟩ <;> rw [World.modifyCheckState_self]
      · exact h1
      · exact h2
    · refine ⟨?_, ?_⟩ <;> rw [World.modifyCheckState_ne s hj]
      · exact h.state
      · exact h.masked
  refine ⟨fun s j f h => ⟨h.state, h.masked⟩, fun s j now h => ?_, fun s j h => ?_⟩
  · refine move s j _ h fun x h1 h2 => ?_
    unfold CheckState.setImpactState
    split
    · exact ⟨unreachable_notOk _, fun _ _ => h1⟩
    · exact ⟨h1, h2⟩
  · refine move s j _ h fun x h1 h2 => ?_
    unfold CheckState.unsetImpactState
    split
    · rename_i hc
      rw [Bool.and_eq_true, Bool.not_eq_true'] at hc
      exact ⟨h2 hc.1 hc.2, h2⟩
    · exact ⟨h1, h2⟩

theorem unwell_sheltered : Sheltered conf (Unwell conf i) i where
  congr := by
    intro s s' hx _ h
    simp only [CheckState.truth, Prod.mk.injEq] at hx
    obtain ⟨h1, -, h3, h4⟩ := hx
    refine ⟨?_, ?_⟩
    · rw [h1]; exact h.state
    · rw [h3, h4]; exact h.masked
  problem := fun s f _ h => unwell_kept.problem s i f h
  unregister := fun prob => unwell_kept.unregister prob i

/-! ## The result of an own check -/

/-- The last state of the item is `l`. -/
def LastIs (l : State) (i : Nat) (w : World) : Prop := (w.checkState i).lastState = l

def HardSince (l : State) (i : Nat) (w : World) : Prop := LastIs l i w ∧ (w.checkState i).stateType = .hard

/-- The last state is `l`, and a SOFT item is no problem. -/
def SoftSince (l : State) (i : Nat) (w : World) : Prop := LastIs l i w ∧ SoftFree i w

section
variable {l : State} {b : Bool} {chk : Check}

theorem HardSince.soft (h : HardSince l i w) : SoftSince l i w := ⟨h.1, fun e => nomatch h.2.symm.trans e⟩

theorem HardSince.of_core (h : HardSince l i w) (hc : w'.core = w.core) : HardSince l i w' := by
  unfold HardSince LastIs
  rw [(World.core_eq hc).2.1]
  exact h

theorem SoftSince.of_core (h : SoftSince l i w) (hc : w'.core = w.core) : SoftSince l i w' := by
  obtain ⟨-, h2, h3, -⟩ := World.core_eq hc
  unfold SoftSince LastIs SoftFree
  rw [h2, h3]
  exact h

theorem SoftSince.of_quiet (h : SoftSince l i w) (hq : w'.quiet = w.quiet) : SoftSince l i w' := h.of_core (core_of_quiet hq)

theorem keepsHard_of_core {α : Type} {c : Sched α} (h : Unchanged World.core c) : Keeps (HardSince l i) c :=
  fun s hs => ⟨hs.of_core (h s), fun _ _ _ => trivial⟩

theorem keepsHard_of_quiet {f : World → World} (hf : ∀ s, (f s).quiet = s.quiet) : Keeps (HardSince l i) (modify f : Sched PUnit) :=
  Keeps.modify fun s hs => hs.of_core (core_of_quiet (hf s))

theorem LastIs.move (h : LastIs l i w) (hf : (f (w.checkState i)).lastState = (w.checkState i).lastState) :
    LastIs l i (w.modifyCheckState i f) := by
  unfold LastIs
  rw [World.modifyCheckState_self, hf]
  exact h

theorem LastIs.goHard (h : LastIs l i w) (hf : (f (w.checkState i)).lastState = (w.checkState i).lastState)
    (ht : (f (w.checkState i)).stateType = .hard) : HardSince l i (w.modifyCheckState i f) := by
  refine ⟨h.move hf, ?_⟩
  rw [World.modifyCheckState_self]
  exact ht

theorem SoftSince.move (h : SoftSince l i w)
    (hf : (f (w.checkState i)).lastState = (w.checkState i).lastState)
    (ht : (f (w.checkState i)).stateType = (w.checkState i).stateType) : SoftSince l i (w.modifyCheckState i f) := by
  refine ⟨h.1.move hf, fun hs => h.2 ?_⟩
  rw [World.modifyCheckState_self, ht] at hs
  exact hs

theorem lastIs_kept : KeptByImpacts conf (LastIs l i) := by
  have move : ∀ (s : World) j (f : CheckState → CheckState), (∀ x, (f x).lastState = x.lastState) → LastIs l i s →
      LastIs l i (s.modifyCheckState j f) := by
    intro s j f hf h
    by_cases hj : i = j
    · subst hj
      exact h.move (hf _)
    · unfold LastIs
      rw [World.modifyCheckState_ne s hj]
      exact h
  refine ⟨fun s j f h => h, fun s j now h => move s j _ (fun x => ?_) h, fun s j h => move s j _ (fun x => ?_) h⟩
  · unfold CheckState.setImpactState
    split <;> rfl
  · unfold CheckState.unsetImpactState
    split <;> rfl

theorem hardSince_kept : KeptByImpacts conf (HardSince l i) := by
  have move : ∀ (s : World) j (f : CheckState → CheckState), (∀ x, (f x).lastState = x.lastState ∧ (f x).stateType = x.stateType) →
      HardSince l i s → HardSince l i (s.modifyCheckState j f) := by
    intro s j f hf h
    by_cases hj : i = j
    · subst hj
      exact h.1.goHard (hf _).1 ((hf _).2.trans h.2)
    · unfold HardSince LastIs
      rw [World.modifyCheckState_ne s hj]
      exact h
  refine ⟨fun s j f h => h, fun s j now h => move s j _ (fun x => ?_) h, fun s j h => move s j _ (fun x => ?_) h⟩
  · unfold CheckState.setImpactState
    split <;> exact ⟨rfl, rfl⟩
  · unfold CheckState.unsetImpactState
    split <;> exact ⟨rfl, rfl⟩

theorem softSince_noMore : Keeps (SoftSince l i) (noMoreAProblem conf i) := by
  have h1 : Keeps (LastIs l i) (noMoreAProblem conf i) := lastIs_kept.noMore i
  have h2 : Keeps (SoftFree i) (noMoreAProblem conf i) := softFree_sheltered.noMore
  exact fun s hs => ⟨⟨(h1 s hs.1).1, (h2 s hs.2).1⟩, fun _ _ _ => trivial⟩

theorem CheckState.updateHardUnknown_lastState (x : CheckState) : x.updateHardUnknownPhaseState.lastState = x.lastState := by
  unfold CheckState.updateHardUnknownPhaseState
  simp only
  split
  · rfl
  · unfold CheckState.denyHardUnknownPhase CheckState.endHardUnknownPhase
    split <;> split <;> rfl

/-! ### The branches of the change of state -/

theorem setMyself_hard : Keeps (HardSince l i) (setMyselfAsProblem conf env i) := hardSince_kept.setMyself i

theorem volatileNonOk_since : Leads (LastIs l i) (volatileNonOk conf env i b) (HardSince l i) := by
  refine Leads.bind (K := HardSince l i) (Leads.modify fun s h => h.goHard rfl rfl) (fun _ => ?_) fun _ h => h
  refine Keeps.bind (keepsHard_of_core (checkForFlexibleDowntime_core i)) fun _ => ?_
  exact Keeps.bind (keepsHard_of_quiet fun s => raiseAgain_quiet _ _ s) fun _ => Keeps.guarded fun _ => setMyself_hard

theorem enterHardProblem_since : Leads (LastIs l i) (enterHardProblem conf env i b) (HardSince l i) := by
  refine Leads.bind (K := HardSince l i) (Leads.modify fun s h => h.goHard rfl rfl) (fun _ => ?_) fun _ h => h
  refine Keeps.bind (keepsHard_of_quiet fun s => removeInProgressNotifications_quiet i s true) fun _ => ?_
  refine Keeps.bind (keepsHard_of_core (checkForFlexibleDowntime_core i)) fun _ => Keeps.ite (fun _ => ?_) fun _ => Keeps.pure _
  exact Keeps.bind (keepsHard_of_quiet fun s => createNotifications_quiet i s _ _) fun _ => setMyself_hard

theorem fromOkToNonOk_since (h : LastIs l i w) (hf : (w.problem i).isProblem = false) :
    Leads (· = w) (fromOkToNonOk conf env i b) (SoftSince l i) := by
  refine leads_step (Leads.readAt fun s e => ?_)
  have hs : LastIs l i s := by
    rw [e]
    exact h.move rfl
  refine Leads.pre (I := (· = s)) ?_ fun s' e' => e'
  split
  · intro s' e'
    have hl : Leads (LastIs l i) (enterHardProblem conf env i b) (HardSince l i) := enterHardProblem_since
    exact ⟨(hl s' (e' ▸ hs)).1.soft, fun _ _ _ => trivial⟩
  · refine Leads.modify ?_
    rintro _ rfl
    refine ⟨hs.move rfl, fun _ => ?_⟩
    rw [e]
    exact hf

theorem addAttempt_since (h : SoftSince l i w) : SoftSince l i (addAttempt i chk w) := by
  unfold addAttempt
  split
  · exact h
  · exact h.move rfl rfl

theorem fromSoftNonOk_since : Keeps (SoftSince l i) (fromSoftNonOk conf env i chk b) := by
  refine Keeps.bind (Keeps.modify fun s h => addAttempt_since h) fun _ => Keeps.bind (Keeps.modify fun s h => ?_) fun _ =>
    Keeps.read fun w => Keeps.ite (fun _ => ?_) fun _ => Keeps.pure _
  · split
    · exact h.of_quiet (unacknowledgeProblemIfNotSticky_quiet i s)
    · exact h
  · intro s h
    have hl : Leads (LastIs l i) (enterHardProblem conf env i b) (HardSince l i) := enterHardProblem_since
    exact ⟨(hl s h.1).1.soft, fun _ _ _ => trivial⟩

theorem notifyHard_since (h : HardSince l i w) : HardSince l i (notifyHardNonOk conf env i b w) := by
  unfold notifyHardNonOk
  split
  · simp only
    have hx : HardSince l i (w.modifyCheckState i fun x => x.updateHardUnknownPhaseState) :=
      h.1.goHard (CheckState.updateHardUnknown_lastState _) ((CheckState.updateHardUnknown_same _).2.1.trans h.2)
    split
    · exact hx.of_core (core_of_quiet ((raiseAgain_quiet _ _ _).trans (unacknowledgeProblemIfNotSticky_quiet _ _)))
    · exact hx
  · split
    · exact h.of_core (core_of_quiet (raiseAgain_quiet _ _ _))
    · exact h

theorem fromHardNonOk_since : Keeps (HardSince l i) (fromHardNonOk conf env i b) := by
  refine Keeps.bind (Keeps.modify fun s hs => notifyHard_since hs) fun _ => ?_
  refine Keeps.bind (Keeps.guarded fun _ => setMyself_hard) fun _ => keepsHard_of_quiet fun s => ?_
  split
  · exact raiseAgain_quiet _ _ s
  · rfl

theorem fromOkToOk_since (h : SoftSince l i w) : SoftSince l i (fromOkToOk i w) := by
  have hu : SoftSince l i (unacknowledgeProblem i w) := h.of_quiet (unacknowledgeProblem_quiet i w)
  unfold fromOkToOk
  by_cases hs : ((unacknowledgeProblem i w).checkState i).stateType = .soft ∧ ((unacknowledgeProblem i w).checkState i).lastState ≠ .pending
  · by_cases hm : ((unacknowledgeProblem i w).checkState i).isMaxAttempts (w.settings i).maxCheckAttempts = true
    · refine (hu.1.goHard ?_ ?_).soft
      all_goals rw [if_pos hs, if_pos hm]
    · refine hu.move ?_ ?_
      all_goals rw [if_pos hs, if_neg hm]
  · refine (hu.1.goHard ?_ ?_).soft
    all_goals rw [if_neg hs]

theorem fromNonOkToOk_since : Keeps (SoftSince l i) (fromNonOkToOk conf env i chk b) := by
  refine Keeps.bind (Keeps.modify fun s h => h.of_quiet (unacknowledgeProblem_quiet i s)) fun _ => Keeps.read fun w =>
    Keeps.ite (fun _ => ?_) fun _ => ?_
  · refine Keeps.bind (Keeps.modify fun s h => addAttempt_since h) fun _ => Keeps.modify fun s h => ?_
    exact (h.1.goHard rfl rfl).soft
  · refine Keeps.bind (Keeps.modify fun s h => h.of_quiet (raiseAgain_quiet _ _ s)) fun _ => ?_
    exact Keeps.bind (Keeps.modify fun s h => h.move rfl rfl) fun _ => softSince_noMore

theorem changeState_since (h : SoftSince l i w) (hf : okLike (conf.myType i) l = true → (w.problem i).isProblem = false) :
    Leads (· = w) (changeState conf env i chk b) (SoftSince l i) := by
  refine Leads.readAt fun s e => ?_
  subst e
  have hw : wasOk conf s i = okLike (conf.myType i) l := by
    unfold wasOk
    rw [h.1]
  split
  · split
    · exact Leads.modify fun s' e => e ▸ fromOkToOk_since h
    · exact fromNonOkToOk_since.pre fun s' e => e ▸ h
  · split
    · intro s' e
      exact ⟨(volatileNonOk_since s' (e ▸ h.1)).1.soft, fun _ _ _ => trivial⟩
    · split
      · rename_i hok
        exact fromOkToNonOk_since h.1 (hf (hw.symm.trans hok))
      · split
        · exact fromSoftNonOk_since.pre fun s' e => e ▸ h
        · rename_i hst
          intro s' e
          have hh : HardSince l i s' := by
            subst e
            refine ⟨h.1, ?_⟩
            cases hx : (s'.checkState i).stateType with
            | soft => exact absurd hx hst
            | hard => rfl
          exact ⟨(fromHardNonOk_since s' hh).1.soft, fun _ _ _ => trivial⟩

/-! ### A result that takes the item back -/

def Back (conf : Conf) (i : Nat) (w : World) : Prop :=
  (w.checkState i).state = okUp (conf.myType i) ∧ (w.checkState i).stateChangedSinceImpact = true

theorem Back.well (h : Back conf i w) (hf : (w.problem i).isProblem = false) : Well conf i w := by
  refine ⟨hf, fun _ hc _ => ?_, fun _ => h.1⟩
  rw [h.2] at hc
  cases hc

theorem back_sheltered : Sheltered conf (Back conf i) i where
  congr := by
    intro s s' hx _ h
    simp only [CheckState.truth, Prod.mk.injEq] at hx
    unfold Back
    rw [hx.1, hx.2.2.2]
    exact h
  problem := fun s f _ h => h
  unregister := by
    intro prob
    refine Keeps.read fun w => Keeps.ite (fun _ => ?_) fun _ => Keeps.throw trivial
    refine Keeps.bind (Keeps.modify fun s h => h) fun _ => Keeps.ite (fun _ => Keeps.modify fun s h => ?_) fun _ => Keeps.pure _
    have hx : (s.checkState i).unsetImpactState conf = s.checkState i := by
      unfold CheckState.unsetImpactState
      rw [h.2, Bool.not_true, Bool.and_false]
      rfl
    unfold Back
    rw [World.modifyCheckState_self]
    show ((s.checkState i).unsetImpactState conf).state = _ ∧ ((s.checkState i).unsetImpactState conf).stateChangedSinceImpact = true
    rw [hx]
    exact h

theorem Back.move (h : Back conf i w) (hf : ∀ x, (f x).outcome = x.outcome) :
    Back conf i (w.modifyCheckState i f) := by
  have hx := hf (w.checkState i)
  simp only [CheckState.outcome, Prod.mk.injEq] at hx
  unfold Back
  rw [World.modifyCheckState_self, hx.1, hx.2.2]
  exact h

theorem Back.fromOkToOk (h : Back conf i w) : Back conf i (fromOkToOk i w) := by
  refine Back.move (back_sheltered.of_quiet (unacknowledgeProblem_quiet i w) h) fun x => ?_
  split
  · split <;> rfl
  · rfl

theorem Back.addAttempt (h : Back conf i w) : Back conf i (addAttempt i chk w) := by
  unfold Scheduling.addAttempt
  split
  · exact h
  · exact h.move fun _ => rfl

def Free (i : Nat) (w : World) : Prop := (w.problem i).isProblem = false

theorem free_sheltered : Sheltered conf (Free i) i where
  congr := by
    intro s s' _ hp h
    unfold Free
    rw [hp]
    exact h
  problem := by
    intro s f hf h
    unfold Free
    rw [World.modifyProblem_self]
    exact Bool.eq_false_iff.mpr fun e => Bool.eq_false_iff.mp h ((hf _).2.2 e)
  unregister := by
    intro prob
    refine Keeps.read fun w => Keeps.ite (fun _ => ?_) fun _ => Keeps.throw trivial
    refine Keeps.bind (Keeps.modify fun s h => ?_) fun _ => Keeps.ite (fun _ => Keeps.modify fun s h => ?_) fun _ => Keeps.pure _
    · unfold Free
      rw [World.modifyProblem_self]
      exact h
    · show ((s.modifyProblem i fun p => { p with isImpact := false }).problem i).isProblem = false
      rw [World.modifyProblem_self]
      exact h

theorem noMoreAProblem_free : Leads (fun _ => True) (noMoreAProblem conf i) (Free i) := by
  have hs : Sheltered conf (Free i) i := free_sheltered
  refine Leads.readAt fun s _ => ?_
  simp only
  split
  · refine leads_step (Leads.pre (I := Free i) ?_ ?_)
    · refine Keeps.bind (Keeps.forM fun k _ => hs.unregisterAny i) fun _ => ?_
      exact Keeps.modify fun s h => hs.problem s _ (fun p => ⟨rfl, rfl, id⟩) h
    · rintro _ rfl
      unfold Free
      rw [World.modifyProblem_self]
  · rename_i hp
    rintro _ rfl
    exact ⟨Bool.eq_false_iff.mpr hp, fun _ _ _ => trivial⟩

theorem fromNonOkToOk_back (hb : Back conf i w) (hs : SoftFree i w) :
    Leads (· = w) (fromNonOkToOk conf env i chk b) (fun w => Back conf i w ∧ Free i w) := by
  have hq := unacknowledgeProblem_quiet i w
  have hb : Back conf i (unacknowledgeProblem i w) := back_sheltered.of_quiet hq hb
  have hs : SoftFree i (unacknowledgeProblem i w) := by
    unfold SoftFree
    rw [(World.quiet_eq hq).2.1, (World.quiet_eq hq).2.2.1]
    exact hs
  refine leads_step (Leads.readAt fun s e => ?_)
  subst e
  split
  · rename_i ht
    refine leads_step (Leads.modify ?_)
    rintro _ rfl
    refine ⟨hb.addAttempt.move fun _ => rfl, ?_⟩
    show ((addAttempt i chk (unacknowledgeProblem i w)).problem i).isProblem = false
    unfold addAttempt
    split <;> exact hs ht
  · refine leads_step (leads_step ?_)
    rintro t rfl
    have hr : Back conf i (raiseAgain conf env i .recovery b (unacknowledgeProblem i w)) :=
      back_sheltered.of_quiet (raiseAgain_quiet _ _ _) hb
    have hm := hr.move (f := fun x => { x with attempt := 1 }) fun _ => rfl
    exact ⟨⟨(back_sheltered.noMore _ hm).1, (noMoreAProblem_free _ trivial).1⟩, fun _ _ _ => trivial⟩

/-! ### The consumption -/

theorem resolved_since {k : Nat} (h : SoftFree (w.check k).ref w) :
    SoftSince ((w.checkState (w.check k).ref).lastStateOf conf (w.problem (w.check k).ref).isImpact) (w.check k).ref
      (resolved conf env k w) := by
  have ht := resolved_taken conf env k w
  refine ⟨ht.lastState, ?_⟩
  unfold SoftFree
  rw [ht.stateType, (resolved_rest conf env k w).2]
  exact h

theorem closed_truth (s : World) : ((closeConsumption i s).checkState i).truth = (s.checkState i).truth ∧
    ((closeConsumption i s).checkState i).lastState = (s.checkState i).lastState := by
  have hx := (s.checkState i).updateHardUnknown_same
  have hl := (s.checkState i).updateHardUnknown_lastState
  obtain ⟨h1, h2, -⟩ := hx
  simp only [CheckState.outcome, Prod.mk.injEq] at h1
  unfold closeConsumption
  simp only
  rw [(World.quiet_eq (modifyAck_quiet _ _ _)).2.1, World.modifyCheckState_self]
  unfold CheckState.truth
  split
  · exact ⟨by rw [h1.1, h2, h1.2.1, h1.2.2], hl⟩
  · exact ⟨by rw [h1.1, h2, h1.2.1, h1.2.2], hl⟩

theorem Sheltered.close {I : World → Prop} (h : Sheltered conf I i) {s : World} (hs : I s) : I (closeConsumption i s) := by
  refine h.congr s _ (closed_truth s).1 ?_ hs
  unfold closeConsumption
  simp only
  rw [(World.quiet_eq (modifyAck_quiet _ _ _)).2.2.1]
  rfl

section
variable {k : Nat} (hm : mustWait conf w k = false)
include hm

theorem consume_since (h : SoftFree (w.check k).ref w)
    (hf : okLike (conf.myType (w.check k).ref) ((w.checkState (w.check k).ref).lastStateOf conf (w.problem (w.check k).ref).isImpact) =
      true → (w.problem (w.check k).ref).isProblem = false) :
    SoftSince ((w.checkState (w.check k).ref).lastStateOf conf (w.problem (w.check k).ref).isImpact) (w.check k).ref
      (stateAfter (consumeResult conf env k w)) := by
  refine leads_consumption (J := SoftSince _ _) hm (changeState_since (resolved_since h) fun hok => ?_) (fun s hs => ?_) rfl
  · rw [(resolved_rest conf env k w).2]
    exact hf hok
  · have hfree : Sheltered conf (SoftFree (w.check k).ref) (w.check k).ref := softFree_sheltered
    refine ⟨?_, hfree.close hs.2⟩
    unfold LastIs
    rw [(closed_truth s).2]
    exact hs.1

theorem consume_unwell (hbad : okLike (conf.myType (w.check k).ref) ((resolved conf env k w).checkState (w.check k).ref).state = false) :
    Unwell conf (w.check k).ref (stateAfter (consumeResult conf env k w)) := by
  have hmoves : KeptByParts conf env (Unwell conf (w.check k).ref) (fun _ => True) (w.check k).ref :=
    { check := fun f s hf h => by
        have hx := (hf (s.checkState (w.check k).ref)).1
        simp only [CheckState.outcome, Prod.mk.injEq] at hx
        refine ⟨?_, ?_⟩ <;> rw [World.modifyCheckState_self]
        · rw [hx.1]; exact h.state
        · rw [hx.2.1, hx.2.2]; exact h.masked
      quiet := fun s s' hq hs => unwell_sheltered.of_quiet hq hs
      flexible := fun s hs => ⟨unwell_sheltered.of_core (checkForFlexibleDowntime_core _ s) hs, fun _ _ _ => trivial⟩
      recovery := unwell_kept.noMore _
      problem := unwell_kept.setMyself _ }
  refine leads_consumption (I := (· = resolved conf env k w)) hm (hmoves.changeState.pre ?_)
    (fun s hs => unwell_sheltered.close hs) rfl
  rintro _ rfl
  refine ⟨hbad, fun _ hc => ?_⟩
  rw [(resolved_taken conf env k w).changed] at hc
  cases hc

theorem consume_back (he : modulatedExitStatus conf env (w.check k) = 0) (hb : Back conf (w.check k).ref (resolved conf env k w))
    (h : SoftFree (w.check k).ref w)
    (hf : okLike (conf.myType (w.check k).ref) ((w.checkState (w.check k).ref).lastStateOf conf (w.problem (w.check k).ref).isImpact) =
      true → (w.problem (w.check k).ref).isProblem = false) :
    Back conf (w.check k).ref (stateAfter (consumeResult conf env k w)) ∧ Free (w.check k).ref (stateAfter (consumeResult conf env k w)) := by
  have hs : SoftSince _ (w.check k).ref (resolved conf env k w) := resolved_since h
  have hfree : Sheltered conf (Free (w.check k).ref) (w.check k).ref := free_sheltered
  refine leads_consumption (I := (· = resolved conf env k w)) (J := fun w' => Back conf (w.check k).ref w' ∧ Free (w.check k).ref w')
    hm (Leads.readAt fun s e => ?_) (fun s hs => ⟨back_sheltered.close hs.1, hfree.close hs.2⟩) rfl
  subst e
  rw [if_pos (show (takenCheck conf env w k).exitStatus = 0 from he)]
  split
  · rename_i hok
    refine Leads.modify ?_
    rintro _ rfl
    refine ⟨hb.fromOkToOk, ?_⟩
    show ((unacknowledgeProblem (w.check k).ref (resolved conf env k w)).problem (w.check k).ref).isProblem = false
    rw [(World.quiet_eq (unacknowledgeProblem_quiet _ _)).2.2.1, (resolved_rest conf env k w).2]
    refine hf ?_
    rw [← hs.1]
    exact hok
  · exact fromNonOkToOk_back hb hs.2

end

/-! ## The two states of an item -/

def Ill (conf : Conf) (i : Nat) (w : World) : Prop := Unwell conf i w ∧ SoftFree i w

theorem well_or_ill_event {ev : Event} (hc : ∀ k, ev = .consumeResult k → (w.check k).ref ≠ i ∨ mustWait conf w k = true) :
    (Well conf i w → Well conf i (stateAfter (runEvent conf env ev w))) ∧
    (Ill conf i w → Ill conf i (stateAfter (runEvent conf env ev w))) := by
  refine ⟨fun h => well_sheltered.event well_become hc h, fun h => ⟨unwell_sheltered.event ?_ hc h.1, ?_⟩⟩
  · exact fun prob => unwell_kept.become prob i
  · have hs : Sheltered conf (SoftFree i) i := softFree_sheltered
    exact hs.event softFree_become hc h.2

theorem exitStatus_of_ok {k : Nat}
    (h : okLike (conf.myType (w.check k).ref) ((resolved conf env k w).checkState (w.check k).ref).state ≠ false) :
    modulatedExitStatus conf env (w.check k) = 0 := by
  have hstate := (resolved_taken conf env k w).state.resolve_right fun e => h (e.2 ▸ unreachable_notOk _)
  by_contra hne
  rw [hstate] at h
  exact h (stateOfExitStatus_notOk hne)

theorem consume_well_or_ill {k : Nat} (hm : mustWait conf w k = false) (h : Well conf (w.check k).ref w ∨ Ill conf (w.check k).ref w) :
    let w' := stateAfter (consumeResult conf env k w)
    (w'.checkState (w.check k).ref).lastState = (w.checkState (w.check k).ref).lastStateOf conf (w.problem (w.check k).ref).isImpact ∧
    (Well conf (w.check k).ref w' ∧ (w'.checkState (w.check k).ref).state = okUp (conf.myType (w.check k).ref) ∨
      Ill conf (w.check k).ref w') := by
  have hsoft : SoftFree (w.check k).ref w := by
    rcases h with h | h
    · exact fun _ => h.noProblem
    · exact h.2
  have hf : okLike (conf.myType (w.check k).ref)
      ((w.checkState (w.check k).ref).lastStateOf conf (w.problem (w.check k).ref).isImpact) = true →
      (w.problem (w.check k).ref).isProblem = false := by
    intro hok
    rcases h with h | h
    · exact h.noProblem
    · rw [h.1.lastState] at hok
      cases hok
  have hsince : SoftSince _ _ (stateAfter (consumeResult conf env k w)) := consume_since hm hsoft hf
  refine ⟨hsince.1, ?_⟩
  by_cases hbad : okLike (conf.myType (w.check k).ref) ((resolved conf env k w).checkState (w.check k).ref).state = false
  · exact Or.inr ⟨consume_unwell hm hbad, hsince.2⟩
  · have ht := resolved_taken conf env k w
    have hstate := ht.state.resolve_right fun e => hbad (e.2 ▸ unreachable_notOk _)
    have he : modulatedExitStatus conf env (w.check k) = 0 := exitStatus_of_ok hbad
    have hb : Back conf (w.check k).ref (resolved conf env k w) := by
      refine ⟨?_, ht.changed⟩
      rw [hstate, he]
      cases conf.myType (w.check k).ref <;> rfl
    obtain ⟨h1, h2⟩ : Back conf _ (stateAfter (consumeResult conf env k w)) ∧ Free _ _ := consume_back hm he hb hsoft hf
    exact Or.inl ⟨h1.well h2, h1.1⟩

end

end

end Alignak.Scheduling
