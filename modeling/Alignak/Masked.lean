import Alignak.Scheduler

/-!
# The state behind an impact

While an item is masked as an impact, what its results say of it is in the state
from before the impact, which comes back with the recovery of the problem or is
overridden by the next result.
-/

namespace Alignak.Scheduling

/-- What the results of an item say of it, with a limit on its attempts; it may
be a problem where it is `deep`. -/
structure Phase where
  limit : Int → Prop
  ok : Prop
  fits : StateType → Int → Prop
  deep : Prop
  notOk : deep → ¬ ok

structure Law (conf : Conf) (t : ItemType) (ph : Phase) (x : CheckState) (isImpact : Bool) : Prop where
  masked : conf.enableProblemImpactsStatesChange = true → x.stateChangedSinceImpact = false →
    (okLike t x.stateBeforeImpact = true ↔ ph.ok)
  plain : ¬ (conf.enableProblemImpactsStatesChange = true ∧ isImpact = true ∧ x.stateChangedSinceImpact = false) →
    (okLike t x.state = true ↔ ph.ok)
  fits : ph.fits x.stateType x.attempt

/-- The law at item `i`; `strong` where the state itself is the one of the
results, and `root` where the item is a problem only if it is deep. -/
structure Lawful (conf : Conf) (i : Nat) (ph : Phase) (strong root : Prop) (w : World) : Prop where
  settings : ph.limit (w.settings i).maxCheckAttempts
  law : Law conf (conf.myType i) ph (w.checkState i) (w.problem i).isImpact
  strong : strong → (okLike (conf.myType i) (w.checkState i).state = true ↔ ph.ok)
  root : root → (w.problem i).isProblem = true → ph.deep

section
variable {conf : Conf} {env : Env} {i j : Nat} {ph : Phase} {strong root : Prop} {w : World}

def CheckState.key (x : CheckState) := (x.state, x.stateType, x.attempt, x.stateBeforeImpact, x.stateChangedSinceImpact)

theorem Lawful.congr {w' : World} (h : Lawful conf i ph strong root w) (hs : w'.settings i = w.settings i)
    (hx : (w'.checkState i).key = (w.checkState i).key) (hi : (w'.problem i).isImpact = (w.problem i).isImpact)
    (hp : (w'.problem i).isProblem = (w.problem i).isProblem) : Lawful conf i ph strong root w' := by
  simp only [CheckState.key, Prod.mk.injEq] at hx
  obtain ⟨h1, h2, h3, h4, h5⟩ := hx
  obtain ⟨a, ⟨b, c, d⟩, f, g⟩ := h
  refine ⟨?_, ⟨?_, ?_, ?_⟩, ?_, ?_⟩
  · rw [hs]; exact a
  · rw [h5, h4]; exact b
  · rw [h5, hi, h1]; exact c
  · rw [h2, h3]; exact d
  · rw [h1]; exact f
  · rw [hp]; exact g

theorem Lawful.of_core {w' : World} (h : Lawful conf i ph strong root w) (hc : w'.core = w.core) :
    Lawful conf i ph strong root w' := by
  obtain ⟨h1, h2, h3, -⟩ := World.core_eq hc
  refine h.congr (by rw [h1]) (by rw [h2]) (by rw [h3]) (by rw [h3])

theorem Lawful.of_quiet {w' : World} (h : Lawful conf i ph strong root w) (hq : w'.quiet = w.quiet) :
    Lawful conf i ph strong root w' := h.of_core (core_of_quiet hq)

theorem keepsLawful_of_core {α : Type} {c : Sched α} (h : Unchanged World.core c) : Keeps (Lawful conf i ph strong root) c :=
  fun s hs => ⟨hs.of_core (h s), fun _ _ _ => trivial⟩

theorem Lawful.modifyCheckState_ne {f : CheckState → CheckState} (h : Lawful conf i ph strong root w) (hne : j ≠ i) :
    Lawful conf i ph strong root (w.modifyCheckState j f) := by
  refine h.congr rfl ?_ rfl rfl
  rw [World.modifyCheckState_ne w (Ne.symm hne)]

theorem Lawful.modifyProblem_ne {f : ProblemState → ProblemState} (h : Lawful conf i ph strong root w) (hne : j ≠ i) :
    Lawful conf i ph strong root (w.modifyProblem j f) := by
  refine h.congr rfl rfl ?_ ?_ <;> rw [World.modifyProblem_ne w (Ne.symm hne)]

theorem Lawful.modifyCheckState {f : CheckState → CheckState} (h : Lawful conf i ph strong root w)
    (hf : ∀ x, (f x).key = x.key) : Lawful conf i ph strong root (w.modifyCheckState j f) := by
  by_cases hne : j = i
  · subst hne
    exact h.congr rfl (by rw [World.modifyCheckState_self]; exact hf _) rfl rfl
  · exact h.modifyCheckState_ne hne

theorem Lawful.modifyProblem {f : ProblemState → ProblemState} (h : Lawful conf i ph strong root w)
    (hf : ∀ p, (f p).isImpact = p.isImpact ∧ ((f p).isProblem = true → p.isProblem = true)) :
    Lawful conf i ph strong root (w.modifyProblem j f) := by
  by_cases hne : j = i
  · subst hne
    refine ⟨h.settings, ?_, h.strong, fun hr hp => ?_⟩
    · rw [World.modifyProblem_self, (hf _).1]; exact h.law
    · rw [World.modifyProblem_self] at hp; exact h.root hr ((hf _).2 hp)
  · exact h.modifyProblem_ne hne

/-! ## Problems and impacts -/

theorem Lawful.of_values {x : CheckState} {p : ProblemState} (hs : ph.limit (w.settings i).maxCheckAttempts)
    (hx : w.checkState i = x) (hp : w.problem i = p) (hl : Law conf (conf.myType i) ph x p.isImpact)
    (hstrong : strong → (okLike (conf.myType i) x.state = true ↔ ph.ok))
    (hroot : root → p.isProblem = true → ph.deep) : Lawful conf i ph strong root w := by
  subst hx hp
  exact ⟨hs, hl, hstrong, hroot⟩

theorem Lawful.unsetImpact (h : Lawful conf i ph strong root w) : Lawful conf i ph strong root
    ((w.modifyProblem j fun p => { p with isImpact := false }).modifyCheckState j fun c => c.unsetImpactState conf) := by
  by_cases hne : j = i
  · subst hne
    refine Lawful.of_values (x := (w.checkState j).unsetImpactState conf) (p := { w.problem j with isImpact := false })
      h.settings (World.modifyCheckState_self _) (World.modifyProblem_self w (f := fun p => { p with isImpact := false })) ?_ ?_
      h.root
    · unfold CheckState.unsetImpactState
      split
      · rename_i hc
        rw [Bool.and_eq_true, Bool.not_eq_true'] at hc
        have hback := h.law.masked hc.1 hc.2
        exact ⟨fun _ _ => hback, fun _ => hback, h.law.fits⟩
      · rename_i hc
        rw [Bool.and_eq_true, Bool.not_eq_true'] at hc
        exact ⟨h.law.masked, fun _ => h.law.plain fun hm => hc ⟨hm.1, hm.2.2⟩, h.law.fits⟩
    · unfold CheckState.unsetImpactState
      split
      · rename_i hc
        rw [Bool.and_eq_true, Bool.not_eq_true'] at hc
        exact fun _ => h.law.masked hc.1 hc.2
      · exact h.strong
  · exact (h.modifyProblem_ne hne).modifyCheckState_ne hne

theorem unregisterAProblem_lawful (prob : Nat) : Keeps (Lawful conf i ph strong root) (unregisterAProblem conf prob j) := by
  refine Keeps.read fun w => Keeps.ite (fun _ => ?_) fun _ => Keeps.throw trivial
  refine Keeps.bind (Keeps.modify fun s h => h.modifyProblem fun p => ⟨rfl, id⟩) fun _ => ?_
  exact Keeps.ite (fun _ => Keeps.modify fun s h => h.unsetImpact) fun _ => Keeps.pure _

theorem noMoreAProblem_lawful : Keeps (Lawful conf i ph strong root) (noMoreAProblem conf j) := by
  refine Keeps.read fun w => Keeps.ite (fun _ => ?_) fun _ => Keeps.pure _
  refine Keeps.bind (Keeps.modify fun s h => h.modifyProblem fun p => ⟨rfl, fun e => nomatch e⟩) fun _ => ?_
  refine Keeps.bind (Keeps.forM fun k _ => unregisterAProblem_lawful j) fun _ => ?_
  exact Keeps.modify fun s h => h.modifyProblem fun p => ⟨rfl, id⟩

theorem Lawful.setImpact (h : Lawful conf i ph True root w) (hi : (w.problem i).isImpact = true ∨ ¬ ph.ok) :
    Lawful conf i ph False root (w.modifyCheckState i fun c => c.setImpactState conf env.now) := by
  have hstrong := h.strong trivial
  have hun : okLike (conf.myType i) State.unreachable = false := by cases conf.myType i <;> rfl
  refine Lawful.of_values (x := (w.checkState i).setImpactState conf env.now) h.settings (World.modifyCheckState_self w) rfl
    ?_ False.elim h.root
  unfold CheckState.setImpactState
  split
  · rename_i he
    refine ⟨fun _ _ => hstrong, fun hn => ?_, h.law.fits⟩
    have hne : ¬ ph.ok := hi.resolve_left fun e => hn ⟨he, e, rfl⟩
    exact ⟨fun e => absurd (hun.symm.trans e) (by decide), fun e => absurd e hne⟩
  · exact h.law

theorem Lawful.weaken {root' : Prop} (h : Lawful conf i ph strong root w) (hr : root' → root) :
    Lawful conf i ph False root' w := ⟨h.settings, h.law, False.elim, fun hr' => h.root (hr hr')⟩

theorem Lawful.addSource (h : Lawful conf i ph strong root w) (prob : Nat) :
    Lawful conf i ph strong root (w.modifyProblem j fun p =>
      if prob ∈ p.sourceProblems then p else { p with sourceProblems := p.sourceProblems ++ [prob] }) := by
  refine h.modifyProblem fun p => ?_
  split
  · exact ⟨rfl, id⟩
  · exact ⟨rfl, id⟩

theorem becomeImpact_self (prob : Nat) : Keeps (Lawful conf i ph False True) (becomeImpact conf env prob i) := by
  refine Leads.readAt fun s hs => ?_
  by_cases hi : (s.problem i).isImpact = true
  · refine Leads.bind (K := Lawful conf i ph False True) (Leads.modify ?_) (fun _ => ?_) fun _ h => h
    · rintro _ rfl
      refine hs.congr rfl rfl ?_ ?_ <;> rw [World.modifyProblem_self]
      exact hi.symm
    · refine Keeps.bind (Keeps.guarded fun _ => noMoreAProblem_lawful) fun _ => ?_
      refine Keeps.bind (Keeps.guarded fun hn => ?_) fun _ => Keeps.modify fun w hw => hw.addSource prob
      rw [hi] at hn
      exact absurd hn (by decide)
  · have hstrong := hs.law.plain fun hn => hi hn.2.1
    refine Leads.bind (K := fun w => Lawful conf i ph True True w ∧ (w.problem i).isImpact = true) (Leads.modify ?_)
      (fun _ => ?_) fun _ h => h.1.weaken id
    · rintro _ rfl
      refine ⟨Lawful.of_values hs.settings rfl (World.modifyProblem_self _) ?_ (fun _ => hstrong) hs.root, ?_⟩
      · exact ⟨hs.law.masked, fun _ => hstrong, hs.law.fits⟩
      · rw [World.modifyProblem_self]
    · refine Leads.bind (K := fun w => Lawful conf i ph True True w ∧ ((w.problem i).isImpact = true ∨ ¬ ph.ok)) ?_
        (fun _ => ?_) fun _ h => h.1.weaken id
      · by_cases hp : (s.problem i).isProblem = true
        · rw [hp]
          have hne := ph.notOk (hs.root trivial hp)
          exact fun w hw => ⟨⟨(noMoreAProblem_lawful w hw.1).1, Or.inr hne⟩, fun _ _ _ => trivial⟩
        · unfold guarded
          rw [if_neg hp]
          exact fun w hw => ⟨⟨hw.1, Or.inl hw.2⟩, fun _ _ _ => trivial⟩
      · rw [Bool.not_eq_true] at hi
        rw [hi]
        refine Leads.bind (K := Lawful conf i ph False True) (Leads.modify ?_) (fun _ => ?_) fun _ h => h
        · exact fun w hw => hw.1.setImpact hw.2
        · exact Keeps.modify fun w hw => hw.addSource prob

theorem becomeImpact_lawful (prob : Nat) : Keeps (Lawful conf i ph False True) (becomeImpact conf env prob j) := by
  by_cases hne : j = i
  · subst hne
    exact becomeImpact_self prob
  · refine Keeps.read fun w => Keeps.bind (Keeps.modify fun s h => h.modifyProblem_ne hne) fun _ => ?_
    refine Keeps.bind (Keeps.guarded fun _ => noMoreAProblem_lawful) fun _ => ?_
    refine Keeps.bind (Keeps.guarded fun _ => Keeps.modify fun s h => h.modifyCheckState_ne hne) fun _ => ?_
    exact Keeps.modify fun w hw => hw.addSource prob

theorem registerAProblem_lawful (prob : Nat) :
    ∀ fuel j, Keeps (Lawful conf i ph False True) (registerAProblem conf env prob fuel j)
  | 0, _ => Keeps.throw trivial
  | fuel + 1, j => by
    unfold registerAProblem
    refine Keeps.read fun w => Keeps.ite (fun _ => Keeps.pure _) fun _ => Keeps.bind (becomeImpact_lawful prob) fun _ => ?_
    refine Keeps.foldlM fun found l _ => Keeps.read fun w => Keeps.ite (fun _ => ?_) fun _ => Keeps.pure _
    exact Keeps.bind (registerAProblem_lawful prob fuel l.item) fun _ => Keeps.pure _

theorem setMyselfAsProblem_lawful (h : j = i → ph.deep) :
    Keeps (Lawful conf i ph False True) (setMyselfAsProblem conf env j) := by
  refine Keeps.bind (Keeps.modify fun s hs => ?_) fun _ => Keeps.read fun w => Keeps.bind ?_ fun found => ?_
  · by_cases hne : j = i
    · subst hne
      refine ⟨hs.settings, ?_, False.elim, fun _ _ => h rfl⟩
      rw [World.modifyProblem_self]
      exact hs.law
    · exact hs.modifyProblem_ne hne
  · refine Keeps.foldlM fun found l _ => Keeps.read fun w => Keeps.ite (fun _ => ?_) fun _ => Keeps.pure _
    exact Keeps.bind (registerAProblem_lawful j _ l.item) fun _ => Keeps.pure _
  · refine Keeps.modify fun s hs => hs.modifyProblem fun p => ?_
    split
    · exact ⟨rfl, id⟩
    · exact ⟨rfl, id⟩

/-! ## The result of a check -/

theorem CheckState.updateHardUnknown_key (x : CheckState) : x.updateHardUnknownPhaseState.key = x.key := by
  obtain ⟨h1, h2, h3⟩ := x.updateHardUnknown_same
  simp only [CheckState.outcome, Prod.mk.injEq] at h1
  simp only [CheckState.key, h1, h2, h3]

theorem Lawful.close (h : Lawful conf i ph strong root w) : Lawful conf i ph strong root (closeConsumption j w) := by
  unfold closeConsumption
  simp only
  refine Lawful.of_quiet (h.modifyCheckState fun x => ?_) (modifyAck_quiet _ _ _)
  split
  · exact x.updateHardUnknown_key
  · exact x.updateHardUnknown_key

theorem resolved_rest (conf : Conf) (env : Env) (k : Nat) (w : World) :
    (resolved conf env k w).settings = w.settings ∧ (resolved conf env k w).problem = w.problem := by
  obtain ⟨g1, g2, -⟩ := @updateItemInformation_rest conf env k w
  obtain ⟨h1, h2, -⟩ := @resolveDependencies_rest conf env k (updateItemInformation conf env k w)
  exact ⟨h1.trans g1, h2.trans g2⟩

structure Taken (conf : Conf) (env : Env) (k : Nat) (w : World) (x y : CheckState) : Prop where
  lastState : y.lastState = x.lastStateOf conf (w.problem (w.check k).ref).isImpact
  stateType : y.stateType = x.stateType
  attempt : y.attempt = x.attempt
  changed : y.stateChangedSinceImpact = true
  state : y.state = (stateOfExitStatus (conf.myType (w.check k).ref) (modulatedExitStatus conf env (w.check k))).1 ∨
    (w.check k).status = .waitDepend ∧ y.state = .unreachable

theorem resolved_taken (conf : Conf) (env : Env) (k : Nat) (w : World) :
    Taken conf env k w (w.checkState (w.check k).ref) ((resolved conf env k w).checkState (w.check k).ref) := by
  obtain ⟨u1, -, u3, u4, u5, u6, -⟩ := @updateItemInformation_self conf env k w
  have hcheck := updateItemInformation_taken conf env k w
  have hres := @resolveDependencies_self conf env k (updateItemInformation conf env k w)
  rw [hcheck] at hres
  rcases hres with e | ⟨hd, e⟩
  · have e' : (resolved conf env k w).checkState (w.check k).ref =
      (updateItemInformation conf env k w).checkState (w.check k).ref := e
    rw [e']
    exact ⟨u3, u4, u5, u6, Or.inl u1⟩
  · have e' : (resolved conf env k w).checkState (w.check k).ref =
      ((updateItemInformation conf env k w).checkState (w.check k).ref).setUnreachable env.now := e
    rw [e']
    exact ⟨u3, u4, u5, u6, Or.inr ⟨hd, rfl⟩⟩

theorem leads_consumption {k : Nat} {I J : World → Prop} (hm : mustWait conf w k = false)
    (hchange : Leads I (changeState conf env (w.check k).ref (takenCheck conf env w k)
      (enableAction conf (updateItemInformation conf env k w) k)) J)
    (hclose : ∀ u, J u → J (closeConsumption (w.check k).ref u)) (h : I (resolved conf env k w)) :
    J (stateAfter (consumeResult conf env k w)) := by
  suffices hl : Leads (· = w) (consumeResult conf env k) J from (hl w rfl).1
  refine Leads.readAt fun s e => ?_
  subst e
  rw [if_neg (by rw [hm]; decide)]
  refine leads_step (Leads.readAt fun u e => ?_)
  subst e
  rw [updateItemInformation_taken]
  refine leads_step (Leads.pre (I := I) ?_ fun u e => e ▸ h)
  exact Leads.bind hchange (fun _ => Leads.modify hclose) fun _ hu => hu

/-! ## The other events -/

theorem changeState_lawful {chk : Check} {b : Bool} (hne : j ≠ i) :
    Keeps (Lawful conf i ph False True) (changeState conf env j chk b) := by
  have hkept : KeptByParts conf env (Lawful conf i ph False True) (fun _ => True) j :=
    { check := fun f s _ hs => hs.modifyCheckState_ne hne
      quiet := fun s s' hq hs => hs.of_quiet hq
      flexible := keepsLawful_of_core (checkForFlexibleDowntime_core j)
      recovery := noMoreAProblem_lawful
      problem := setMyselfAsProblem_lawful fun e => absurd e hne }
  exact hkept.changeState

theorem Lawful.updateInformation {k : Nat} (h : Lawful conf i ph strong root w) (hne : (w.check k).ref ≠ i) :
    Lawful conf i ph strong root (updateItemInformation conf env k w) := by
  obtain ⟨h1, h2, -⟩ := @updateItemInformation_rest conf env k w
  refine h.congr (by rw [h1]) ?_ (by rw [h2]) (by rw [h2])
  rw [updateItemInformation_other k w (Ne.symm hne)]

theorem Lawful.resolve {k : Nat} (h : Lawful conf i ph strong root w) (hne : (w.check k).ref ≠ i) :
    Lawful conf i ph strong root (resolveDependencies conf env k w) := by
  obtain ⟨h1, h2, -⟩ := @resolveDependencies_rest conf env k w
  refine h.congr (by rw [h1]) ?_ (by rw [h2]) (by rw [h2])
  rw [resolveDependencies_other k w (Ne.symm hne)]

theorem Lawful.consumeOther {k : Nat} (h : Lawful conf i ph False True w)
    (hk : (w.check k).ref ≠ i ∨ mustWait conf w k = true) :
    Lawful conf i ph False True (stateAfter (consumeResult conf env k w)) := by
  suffices hl : Leads (· = w) (consumeResult conf env k) (Lawful conf i ph False True) from (hl w rfl).1
  refine Leads.readAt fun s e => ?_
  subst e
  by_cases hm : mustWait conf s k = true
  · rw [if_pos hm]
    exact Leads.modify fun s' e => by subst e; exact h.congr rfl rfl rfl rfl
  · rw [if_neg hm]
    have hne := hk.resolve_right hm
    have hcheck : ((updateItemInformation conf env k s).check k).ref = (s.check k).ref := by
      rw [(updateItemInformation_rest k s).2.2.2.1, Function.update_self]
    refine leads_step (Leads.readAt fun u e => ?_)
    subst e
    rw [hcheck]
    refine leads_step (Leads.pre (I := Lawful conf i ph False True) ?_ ?_)
    · refine Leads.bind (changeState_lawful hne) (fun _ => Leads.modify fun u hu => ?_) fun _ hu => hu
      unfold closeConsumption
      simp only
      exact Lawful.of_quiet (hu.modifyCheckState_ne hne) (modifyAck_quiet _ _ _)
    · intro u e
      subst e
      exact (h.updateInformation hne).resolve (by rw [hcheck]; exact hne)

theorem Lawful.changeMaxCheckAttempts {n : Int} (h : Lawful conf i ph False True w)
    (hn : j = i → ph.limit n ∧ ∀ t a b, ph.fits t a → ph.fits t b) :
    Lawful conf i ph False True (changeMaxCheckAttempts conf j n w) := by
  by_cases hne : j = i
  · subst hne
    obtain ⟨hlim, hfit⟩ := hn rfl
    have hx : ∃ a, ((Scheduling.changeMaxCheckAttempts conf j n w).checkState j) = { w.checkState j with attempt := a } := by
      unfold Scheduling.changeMaxCheckAttempts
      simp only [World.modifyCheckState_self]
      split
      · exact ⟨n, rfl⟩
      · exact ⟨_, rfl⟩
    obtain ⟨a, hx⟩ := hx
    refine Lawful.of_values ?_ hx rfl ⟨h.law.masked, h.law.plain, hfit _ _ _ h.law.fits⟩ False.elim h.root
    show ph.limit ((w.modifySettings j fun s => { s with maxCheckAttempts := n }).settings j).maxCheckAttempts
    rw [World.modifySettings_self]
    exact hlim
  · unfold Scheduling.changeMaxCheckAttempts
    refine Lawful.modifyCheckState_ne (h.congr ?_ rfl rfl rfl) hne
    exact World.modifySettings_ne w (Ne.symm hne)

theorem Lawful.changeSettings {f : Settings → Settings} (h : Lawful conf i ph False True w) :
    Lawful conf i ph False True (w.modifySettings j fun s => { f s with maxCheckAttempts := s.maxCheckAttempts }) := by
  refine ⟨?_, h.law, False.elim, h.root⟩
  by_cases hne : i = j
  · subst hne
    rw [World.modifySettings_self]
    exact h.settings
  · rw [World.modifySettings_ne w hne]
    exact h.settings

theorem Lawful.event {ev : Event} (h : Lawful conf i ph False True w)
    (hc : ∀ k, ev = .consumeResult k → (w.check k).ref ≠ i ∨ mustWait conf w k = true)
    (hm : ∀ n, ev = .command (.changeMaxCheckAttempts i n) → ph.limit n ∧ ∀ t a b, ph.fits t a → ph.fits t b) :
    Lawful conf i ph False True (stateAfter (runEvent conf env ev w)) := by
  by_cases hq : ev.isCore = true
  · exact h.of_core (runEvent_core conf env hq w)
  cases ev with
  | receiveResult k chk => exact h.congr rfl rfl rfl rfl
  | consumeResult k => exact h.consumeOther (hc k rfl)
  | command cmd =>
    cases cmd with
    | changeMaxCheckAttempts j n => exact h.changeMaxCheckAttempts fun e => hm n (by rw [e])
    | changeSettings j f => exact h.changeSettings
    | _ => exact absurd rfl hq
  | _ => exact absurd rfl hq

end

end Alignak.Scheduling
