import Alignak.Alerting
import Alignak.ProblemIds
import Alignak.TrueStates

/-!
# Identifiers of the problems over runs

An item has a problem identifier where it is ill, and none where it is well. A
counter is above all the identifiers that it has given, until a restart begins
it again.
-/

namespace Alignak.Scheduling

/-! ## Identifiers from a counter -/

/-- The identifiers that a counter has given up to `n`. -/
structure Issued (l : List Nat) (n : Nat) : Prop where
  nodup : l.Nodup
  le : ∀ a ∈ l, a ≤ n

namespace Issued

variable {l : List Nat} {n : Nat}

theorem fresh (h : Issued l n) : n + 1 ∉ l := fun hm => absurd (h.le _ hm) (by omega)

theorem next (h : Issued l n) : Issued (l ++ [n + 1]) (n + 1) where
  nodup := List.nodup_append.mpr ⟨h.nodup, by simp, fun a ha b hb e => h.fresh (List.mem_singleton.mp hb ▸ e ▸ ha)⟩
  le := by
    intro a ha
    rcases List.mem_append.mp ha with h' | h'
    · exact Nat.le_succ_of_le (h.le a h')
    · exact Nat.le_of_eq (List.mem_singleton.mp h')

end Issued

/-! ## The update of the identifiers -/

theorem okLike_okUp (t : ItemType) : okLike t (okUp t) = true := by cases t <;> rfl

theorem okUp_ne_pending (t : ItemType) : okUp t ≠ .pending := by cases t <;> decide

theorem ne_of_notOk {t : ItemType} {s : State} (h : okLike t s = false) : s ≠ okUp t ∧ s ≠ .pending := by
  unfold okLike at h
  simpa using h

section
variable (c : Counters) (ids : Ids) {t : ItemType} {x : CheckState}

theorem updateIds_same (hp : x.lastState ≠ .pending) (h : x.state = x.lastState) :
    c.updateEventAndProblemId ids t x = (c, ids) := by
  unfold Counters.updateEventAndProblemId
  simp [h, hp]

theorem updateIds_problem (hl : x.lastState = okUp t) (hs : x.state ≠ okUp t) :
    c.updateEventAndProblemId ids t x = (⟨c.event + 1, c.problem + 1⟩,
      ⟨c.event + 1, ids.currentEventId, c.problem + 1, ids.currentProblemId⟩) := by
  have hp := okUp_ne_pending t
  unfold Counters.updateEventAndProblemId Counters.newEvent Counters.newProblem
  simp [hl, hp, hs]

theorem updateIds_recovery (hl : okLike t x.lastState = false) (hs : x.state = okUp t) :
    c.updateEventAndProblemId ids t x = ({ c with event := c.event + 1 },
      ⟨c.event + 1, ids.currentEventId, 0, ids.currentProblemId⟩) := by
  obtain ⟨h1, h2⟩ := ne_of_notOk hl
  unfold Counters.updateEventAndProblemId Counters.newEvent
  simp [hs, h2, Ne.symm h1]

theorem updateIds_worse (hl : okLike t x.lastState = false) (hs : okLike t x.state = false) (hne : x.state ≠ x.lastState) :
    c.updateEventAndProblemId ids t x = ({ c with event := c.event + 1 },
      { ids with currentEventId := c.event + 1, lastEventId := ids.currentEventId }) := by
  obtain ⟨h1, h2⟩ := ne_of_notOk hl
  obtain ⟨h3, -⟩ := ne_of_notOk hs
  unfold Counters.updateEventAndProblemId Counters.newEvent
  simp [hne, h2, Ne.symm h1, Ne.symm h3]

end

/-! ## What leaves the problems as they are -/

variable {ev : Event} {s₀ : Numbered}

section
variable {conf : Conf} {env : Env} {i k : Nat} {w : World}

theorem problem_of_core {w' : World} (h : w'.core = w.core) : w'.problem = w.problem := (World.core_eq h).2.2.1

theorem problem_of_quiet {w' : World} (h : w'.quiet = w.quiet) : w'.problem = w.problem := (World.quiet_eq h).2.2.1

theorem runEvent_problem (hc : ∀ k, ev = .consumeResult k → mustWait conf w k = true) :
    (stateAfter (runEvent conf env ev w)).problem = w.problem := by
  by_cases hq : ev.isCore = true
  · exact problem_of_core (runEvent_core conf env hq w)
  cases ev with
  | receiveResult c chk => rfl
  | consumeResult c =>
    suffices hl : Leads (· = w) (consumeResult conf env c) (fun s => s.problem = w.problem) from (hl w rfl).1
    refine Leads.readAt fun s e => ?_
    subst e
    rw [if_pos (hc c rfl)]
    exact Leads.modify fun s' e => e ▸ rfl
  | command cmd =>
    cases cmd with
    | changeMaxCheckAttempts j n => rfl
    | changeSettings j f => rfl
    | _ => exact absurd rfl hq
  | _ => exact absurd rfl hq

theorem consume_problem (hm : mustWait conf w k = false) (h : Well conf (w.check k).ref w)
    (hs : ((stateAfter (consumeResult conf env k w)).checkState (w.check k).ref).state = okUp (conf.myType (w.check k).ref)) :
    (stateAfter (consumeResult conf env k w)).problem = w.problem := by
  have hgood : okLike (conf.myType (w.check k).ref) ((resolved conf env k w).checkState (w.check k).ref).state ≠ false := by
    intro hbad
    have hu : Unwell conf _ (stateAfter (consumeResult conf env k w)) := consume_unwell hm hbad
    have := hu.state
    rw [hs, okLike_okUp] at this
    cases this
  refine leads_consumption (I := (· = resolved conf env k w)) (J := fun s => s.problem = w.problem) hm
    (Leads.readAt fun s e => ?_) (fun s hs => ?_) rfl
  · subst e
    rw [if_pos (show (takenCheck conf env w k).exitStatus = 0 from exitStatus_of_ok hgood), if_pos ?_]
    · refine Leads.modify ?_
      rintro _ rfl
      show (unacknowledgeProblem (w.check k).ref (resolved conf env k w)).problem = w.problem
      rw [problem_of_quiet (unacknowledgeProblem_quiet _ _), (resolved_rest conf env k w).2]
    · unfold wasOk
      rw [(resolved_taken conf env k w).lastState, h.lastState, okLike_okUp]
  · unfold closeConsumption
    simp only
    rw [problem_of_quiet (modifyAck_quiet _ _ _)]
    exact hs

end

/-! ## The invariant -/

def Numbered.Fits (conf : Conf) (i : Nat) (s : Numbered) : Prop :=
  ((s.ids i).currentProblemId = 0 ∧ Well conf i s.world) ∨ ((s.ids i).currentProblemId ≠ 0 ∧ Ill conf i s.world)

structure Calm (s : Numbered) : Prop where
  problem : ∀ i, s.world.problem i = {}
  ids : ∀ i, (s.ids i).currentProblemId = 0
  problems : s.problems = []

structure Numbered.Sound (conf : Conf) (s : Numbered) : Prop where
  fits : ∀ i, s.Fits conf i
  events : Issued s.events s.counters.event
  problems : Issued s.problems s.counters.problem
  calm : s.counters.event = 0 → Calm s

theorem well_of_free {conf : Conf} {i : Nat} {w : World} (hp : w.problem i = {})
    (hs : (w.checkState i).state = okUp (conf.myType i)) : Well conf i w := by
  refine Well.of_values rfl hp rfl (fun _ _ h => ?_) fun _ => hs
  rcases h with h | h
  · cases h
  · exact absurd rfl h

theorem Well.state_of_free {conf : Conf} {i : Nat} {w : World} (h : Well conf i w) (hp : w.problem i = {}) :
    (w.checkState i).state = okUp (conf.myType i) := by
  refine h.plain fun hn => ?_
  rw [hp] at hn
  cases hn.2.1

namespace Numbered

variable {conf : Conf} {i k : Nat} {s : Numbered} {w' : World}

theorem update_ids_ne {j : Nat} (hj : j ≠ i) : (s.update conf i w').ids j = s.ids j := Function.update_of_ne hj _ _

theorem update_ids_self : (s.update conf i w').ids i =
    (s.counters.updateEventAndProblemId (s.ids i) (conf.myType i) (w'.checkState i)).2 := Function.update_self i _ _

theorem update_same (hp : (w'.checkState i).lastState ≠ .pending) (h : (w'.checkState i).state = (w'.checkState i).lastState)
    (hok : okLike (conf.myType i) (w'.checkState i).lastState = true → (w'.checkState i).state = okUp (conf.myType i)) :
    s.update conf i w' = { s with world := w' } := by
  unfold update
  simp only [updateIds_same _ _ hp h, Function.update_eq_self]
  rw [if_neg fun e => e h, if_neg fun e => e.2 (hok e.1)]

end Numbered

section
variable {conf : Conf} {env : Env} {i k : Nat} {s s' : Numbered} {w' : World}

theorem Numbered.Fits.update_ne {j : Nat} (hj : j ≠ i) (h : Numbered.Fits conf j { s with world := w' }) :
    (s.update conf i w').Fits conf j := by
  unfold Numbered.Fits
  rw [Numbered.update_ids_ne hj]
  exact h

theorem update_kept (h : s.Sound conf) (hfits : ∀ j, j ≠ i → Numbered.Fits conf j { s with world := w' })
    (hi : Numbered.Fits conf i { s with world := w' })
    (hcalm : s.counters.event = 0 → Calm { s with world := w' }) (hp : (w'.checkState i).lastState ≠ .pending)
    (hst : (w'.checkState i).state = (w'.checkState i).lastState)
    (hid : (s.ids i).currentProblemId ≠ 0 ↔ (w'.checkState i).state ≠ okUp (conf.myType i))
    (hok : okLike (conf.myType i) (w'.checkState i).lastState = true → (w'.checkState i).state = okUp (conf.myType i)) :
    (s.update conf i w').Sound conf ∧ IdsRight conf i s (s.update conf i w') := by
  rw [Numbered.update_same hp hst hok]
  refine ⟨⟨fun j => ?_, h.events, h.problems, hcalm⟩,
    ⟨hid, fun _ _ => rfl, fun hl hn => ?_, fun hn => ?_, fun _ => rfl, fun _ _ => rfl⟩⟩
  · by_cases hj : j = i
    · subst hj
      exact hi
    · exact hfits j hj
  · exact absurd (hok hl) hn
  · exact absurd hst hn

theorem update_changed (h : s.Sound conf) (hfits : ∀ j, j ≠ i → Numbered.Fits conf j { s with world := w' })
    (hi : (s.update conf i w').Fits conf i) (hne : (w'.checkState i).state ≠ (w'.checkState i).lastState)
    (hc : (s.update conf i w').counters.event = s.counters.event + 1)
    (he : ((s.update conf i w').ids i).currentEventId = s.counters.event + 1)
    (hp : Issued (s.update conf i w').problems (s.update conf i w').counters.problem) :
    (s.update conf i w').Sound conf ∧ ((s.update conf i w').ids i).currentEventId ∉ s.events := by
  refine ⟨⟨fun j => ?_, ?_, hp, fun h0 => ?_⟩, he ▸ h.events.fresh⟩
  · by_cases hj : j = i
    · subst hj
      exact hi
    · exact (hfits j hj).update_ne hj
  · have hl : (s.update conf i w').events = s.events ++ [s.counters.event + 1] := by
      rw [← he, Numbered.update_ids_self]
      exact if_pos hne
    rw [hl, hc]
    exact h.events.next
  · rw [hc] at h0
    cases h0

theorem update_begins (h : s.Sound conf) (hfits : ∀ j, j ≠ i → Numbered.Fits conf j { s with world := w' })
    (hi : Ill conf i w') (hl : (w'.checkState i).lastState = okUp (conf.myType i)) :
    (s.update conf i w').Sound conf ∧ IdsRight conf i s (s.update conf i w') := by
  have hs := (ne_of_notOk hi.1.state).1
  have hu := updateIds_problem s.counters (s.ids i) hl hs
  have hids : (s.update conf i w').ids i = ⟨s.counters.event + 1, (s.ids i).currentEventId, s.counters.problem + 1,
      (s.ids i).currentProblemId⟩ := by
    rw [Numbered.update_ids_self, hu]
  have hcount : (s.update conf i w').counters = ⟨s.counters.event + 1, s.counters.problem + 1⟩ := congrArg Prod.fst hu
  have hne : (w'.checkState i).state ≠ (w'.checkState i).lastState := by rw [hl]; exact hs
  have hprob : (s.update conf i w').problems = s.problems ++ [s.counters.problem + 1] := by
    unfold Numbered.update
    simp only [hu]
    exact if_pos ⟨by rw [hl, okLike_okUp], hs⟩
  obtain ⟨hsound, hev⟩ := update_changed h hfits (Or.inr ⟨by rw [hids]; exact Nat.succ_ne_zero _, hi⟩) hne (by rw [hcount])
    (by rw [hids]) (by rw [hprob, hcount]; exact h.problems.next)
  refine ⟨hsound, ⟨?_, fun hb _ => ?_, fun _ _ => ?_, fun _ => hev, fun e => absurd e hne, fun j hj => Numbered.update_ids_ne hj⟩⟩
  · rw [hids]
    exact ⟨fun _ => hs, fun _ => Nat.succ_ne_zero _⟩
  · have hb : okLike (conf.myType i) (w'.checkState i).lastState = false := hb
    rw [hl, okLike_okUp] at hb
    cases hb
  · rw [hids]
    exact h.problems.fresh

theorem update_ends (h : s.Sound conf) (hfits : ∀ j, j ≠ i → Numbered.Fits conf j { s with world := w' })
    (hi : Well conf i w') (hs : (w'.checkState i).state = okUp (conf.myType i))
    (hl : okLike (conf.myType i) (w'.checkState i).lastState = false) :
    (s.update conf i w').Sound conf ∧ IdsRight conf i s (s.update conf i w') := by
  have hu := updateIds_recovery s.counters (s.ids i) hl hs
  have hids : (s.update conf i w').ids i = ⟨s.counters.event + 1, (s.ids i).currentEventId, 0, (s.ids i).currentProblemId⟩ := by
    rw [Numbered.update_ids_self, hu]
  have hcount : (s.update conf i w').counters = { s.counters with event := s.counters.event + 1 } := congrArg Prod.fst hu
  have hne : (w'.checkState i).state ≠ (w'.checkState i).lastState := by
    rw [hs]
    exact Ne.symm (ne_of_notOk hl).1
  have hprob : (s.update conf i w').problems = s.problems := if_neg fun e => e.2 hs
  obtain ⟨hsound, hev⟩ := update_changed h hfits (Or.inl ⟨by rw [hids], hi⟩) hne (by rw [hcount]) (by rw [hids])
    (by rw [hprob, hcount]; exact h.problems)
  refine ⟨hsound, ⟨?_, fun _ hn => absurd hs hn, fun _ hn => absurd hs hn, fun _ => hev, fun e => absurd e hne,
    fun j hj => Numbered.update_ids_ne hj⟩⟩
  rw [hids]
  exact ⟨fun e => absurd rfl e, fun e => absurd hs e⟩

theorem update_worsens (h : s.Sound conf) (hfits : ∀ j, j ≠ i → Numbered.Fits conf j { s with world := w' })
    (hi : Ill conf i w') (hid : (s.ids i).currentProblemId ≠ 0) (hl : okLike (conf.myType i) (w'.checkState i).lastState = false)
    (hne : (w'.checkState i).state ≠ (w'.checkState i).lastState) :
    (s.update conf i w').Sound conf ∧ IdsRight conf i s (s.update conf i w') := by
  have hs := (ne_of_notOk hi.1.state).1
  have hu := updateIds_worse s.counters (s.ids i) hl hi.1.state hne
  have hids : (s.update conf i w').ids i = { s.ids i with
      currentEventId := s.counters.event + 1, lastEventId := (s.ids i).currentEventId } := by
    rw [Numbered.update_ids_self, hu]
  have hcount : (s.update conf i w').counters = { s.counters with event := s.counters.event + 1 } := congrArg Prod.fst hu
  have hprob : (s.update conf i w').problems = s.problems := if_neg fun e => Bool.eq_false_iff.mp hl e.1
  obtain ⟨hsound, hev⟩ := update_changed h hfits (Or.inr ⟨by rw [hids]; exact hid, hi⟩) hne (by rw [hcount]) (by rw [hids])
    (by rw [hprob, hcount]; exact h.problems)
  refine ⟨hsound, ⟨?_, fun _ _ => by rw [hids], fun e => absurd e (Bool.eq_false_iff.mp hl), fun _ => hev, fun e => absurd e hne,
    fun j hj => Numbered.update_ids_ne hj⟩⟩
  rw [hids]
  exact ⟨fun _ => hs, fun _ => hid⟩

end

/-! ## The steps -/

section
variable {conf : Conf} {env : Env} {k : Nat} {s s' : Numbered}

theorem Numbered.Fits.event {i : Nat} (h : s.Fits conf i)
    (hc : ∀ k, ev = .consumeResult k → (s.world.check k).ref ≠ i ∨ mustWait conf s.world k = true) :
    Numbered.Fits conf i { s with world := stateAfter (runEvent conf env ev s.world) } := by
  rcases h with ⟨h1, h2⟩ | ⟨h1, h2⟩
  · exact Or.inl ⟨h1, (well_or_ill_event hc).1 h2⟩
  · exact Or.inr ⟨h1, (well_or_ill_event hc).2 h2⟩

theorem consume_sound (h : s.Sound conf) (hm : mustWait conf s.world k = false) :
    (s.update conf (s.world.check k).ref (stateAfter (consumeResult conf env k s.world))).Sound conf ∧
    IdsRight conf (s.world.check k).ref s
      (s.update conf (s.world.check k).ref (stateAfter (consumeResult conf env k s.world))) := by
  have hothers : ∀ j, j ≠ (s.world.check k).ref →
      Numbered.Fits conf j { s with world := stateAfter (consumeResult conf env k s.world) } := by
    intro j hj
    refine Numbered.Fits.event (h.fits j) fun c (hk : Event.consumeResult k = .consumeResult c) => Or.inl ?_
    cases hk
    exact Ne.symm hj
  rcases h.fits (s.world.check k).ref with ⟨h0, hwell⟩ | ⟨h1, hill⟩
  · obtain ⟨hl, hr⟩ : _ = _ ∧ (Well conf _ (stateAfter (consumeResult conf env k s.world)) ∧ _ ∨ _) :=
      consume_well_or_ill hm (Or.inl hwell)
    rw [hwell.lastState] at hl
    rcases hr with ⟨hw, hs⟩ | hi
    · refine update_kept h hothers (Or.inl ⟨h0, hw⟩) (fun he => ?_) ?_ (hs.trans hl.symm) ?_ fun _ => hs
      · have hc := h.calm he
        refine ⟨fun i => ?_, hc.ids, hc.problems⟩
        exact (congrFun (consume_problem hm hwell hs) i).trans (hc.problem i)
      · rw [hl]
        exact okUp_ne_pending _
      · exact ⟨fun hn => absurd h0 hn, fun hn => absurd hs hn⟩
    · exact update_begins h hothers hi hl
  · obtain ⟨hl, hr⟩ : _ = _ ∧ (Well conf _ (stateAfter (consumeResult conf env k s.world)) ∧ _ ∨ _) :=
      consume_well_or_ill hm (Or.inr hill)
    have hl : okLike _ ((stateAfter (consumeResult conf env k s.world)).checkState (s.world.check k).ref).lastState = false :=
      hl ▸ hill.1.lastState
    rcases hr with ⟨hw, hs⟩ | hi
    · exact update_ends h hothers hw hs hl
    · by_cases hst : ((stateAfter (consumeResult conf env k s.world)).checkState (s.world.check k).ref).state =
          ((stateAfter (consumeResult conf env k s.world)).checkState (s.world.check k).ref).lastState
      · refine update_kept h hothers (Or.inr ⟨h1, hi⟩) (fun he => ?_) (ne_of_notOk hl).2 hst ?_ fun hok => ?_
        · exact absurd ((h.calm he).ids _) h1
        · exact ⟨fun _ => (ne_of_notOk hi.1.state).1, fun _ => h1⟩
        · rw [hl] at hok
          cases hok
      · exact update_worsens h hothers hi h1 hl hst

theorem consumed_some {i : Nat} (h : s.consumed conf ev = some i) :
    ∃ k, ev = .consumeResult k ∧ mustWait conf s.world k = false ∧ (s.world.check k).ref = i := by
  unfold Numbered.consumed at h
  split at h
  · rename_i k
    split at h
    · cases h
    · rename_i hm
      cases h
      exact ⟨k, rfl, Bool.eq_false_iff.mpr hm, rfl⟩
  · cases h

theorem consumed_none (h : s.consumed conf ev = none) : ∀ k, ev = .consumeResult k → mustWait conf s.world k = true := by
  rintro k rfl
  by_contra hm
  have hs : s.consumed conf (.consumeResult k) = some (s.world.check k).ref := if_neg hm
  rw [h] at hs
  cases hs

theorem event_sound (h : s.Sound conf) (hc : s.consumed conf ev = none) :
    Numbered.Sound conf { s with world := stateAfter (runEvent conf env ev s.world) } := by
  have hm := consumed_none hc
  refine ⟨fun i => (h.fits i).event fun k hk => Or.inr (hm k hk), h.events, h.problems, fun he => ?_⟩
  have hcalm := h.calm he
  exact ⟨fun i => (congrFun (runEvent_problem hm) i).trans (hcalm.problem i), hcalm.ids, hcalm.problems⟩

theorem scheduler_sound (h : s.Sound conf) (ev : Event) :
    (s.after conf ev (stateAfter (runEvent conf env ev s.world))).Sound conf ∧
    ∀ i, s.consumed conf ev = some i → IdsRight conf i s (s.after conf ev (stateAfter (runEvent conf env ev s.world))) := by
  unfold Numbered.after
  cases hc : s.consumed conf ev with
  | none => exact ⟨event_sound h hc, fun i hi => nomatch hi⟩
  | some i =>
    obtain ⟨k, rfl, hm, rfl⟩ := consumed_some hc
    refine ⟨(consume_sound h hm).1, ?_⟩
    rintro _ ⟨⟩
    exact (consume_sound h hm).2

theorem restart_sound (h : s.Sound conf) {w' : World} (hr : Restarted s.world w') (he : s.counters.event = 0) :
    (s.restart w').Sound conf := by
  have hc := h.calm he
  have hwell : ∀ i, Well conf i w' := by
    intro i
    rcases h.fits i with ⟨-, hw⟩ | ⟨hn, -⟩
    · refine well_of_free (hr.problem i) ?_
      rw [hr.state i]
      exact hw.state_of_free (hc.problem i)
    · exact absurd (hc.ids i) hn
  refine ⟨fun i => Or.inl ⟨hc.ids i, hwell i⟩, ?_, ?_, fun _ => ⟨hr.problem, hc.ids, hc.problems⟩⟩
  · show Issued s.events 0
    rw [← he]
    exact h.events
  · show Issued s.problems 0
    rw [hc.problems]
    exact ⟨List.nodup_nil, fun a ha => nomatch ha⟩

theorem step_right {ev : IdEvent} (h : s.Sound conf) (hs : IdStep conf s ev s') (ha : IdTurn.Allowed ⟨s, ev, s'⟩) :
    s'.Sound conf ∧ IdTurn.Right conf ⟨s, ev, s'⟩ := by
  cases hs with
  | @scheduler env ev w' hstep =>
    have hw := hstep.after
    subst hw
    exact scheduler_sound h ev
  | restart hr => exact ⟨restart_sound h hr ha, trivial⟩

theorem run_right {trace : List IdTurn} (h : IdRun conf s₀ trace s) (h0 : s₀.Sound conf)
    (ha : ∀ t ∈ trace, t.Allowed) : s.Sound conf ∧ ∀ t ∈ trace, t.Right conf := by
  induction h with
  | nil => exact ⟨h0, fun t ht => nomatch ht⟩
  | @snoc trace s s' ev _ hs ih =>
    obtain ⟨h1, h2⟩ := ih fun t ht => ha t (List.mem_append_left _ ht)
    obtain ⟨h3, h4⟩ := step_right h1 hs (ha _ (List.mem_append_right _ List.mem_cons_self))
    refine ⟨h3, fun t ht => ?_⟩
    rcases List.mem_append.mp ht with ht | ht
    · exact h2 t ht
    · rw [List.mem_singleton.mp ht]
      exact h4

theorem initial_sound (h : s₀.Initial) (hOk : ∀ i, (s₀.world.checkState i).state = okUp (conf.myType i)) :
    s₀.Sound conf := by
  have hids : ∀ i, (s₀.ids i).currentProblemId = 0 := fun i => by rw [h.ids i]
  refine ⟨fun i => Or.inl ⟨hids i, well_of_free (h.world.problem i) (hOk i)⟩, ?_, ?_, fun _ => ⟨h.world.problem, hids, h.problems⟩⟩
  · rw [h.events]
    exact ⟨List.nodup_nil, fun a ha => nomatch ha⟩
  · rw [h.problems]
    exact ⟨List.nodup_nil, fun a ha => nomatch ha⟩

end

/-! ## The run of a list of events -/

section
variable (conf : Conf)

def Numbered.next (s : Numbered) (env : Env) (ev : Event) : Numbered := s.after conf ev (stateAfter (runEvent conf env ev s.world))

def idTurns (s : Numbered) : List (Env × Event) → List IdTurn
  | [] => []
  | (env, ev) :: l => ⟨s, .scheduler env ev, s.next conf env ev⟩ :: idTurns (s.next conf env ev) l

def Numbered.final (s : Numbered) : List (Env × Event) → Numbered
  | [] => s
  | (env, ev) :: l => (s.next conf env ev).final l

theorem Numbered.next_world (s : Numbered) (env : Env) (ev : Event) :
    (s.next conf env ev).world = stateAfter (runEvent conf env ev s.world) := by
  unfold Numbered.next Numbered.after
  cases s.consumed conf ev <;> rfl

theorem IdRun.append {trace : List IdTurn} : ∀ {l : List (Env × Event)} {s : Numbered},
    IdRun conf s₀ trace s → executes conf s.world l = true → IdRun conf s₀ (trace ++ idTurns conf s l) (s.final conf l)
  | [], _, h, _ => by
    rw [idTurns, List.append_nil]
    exact h
  | (env, ev) :: l, s, h, he => by
    simp only [executes, Bool.and_eq_true, decide_eq_true_eq] at he
    rw [← s.next_world conf env ev] at he
    have hs : IdStep conf s (.scheduler env ev) (s.next conf env ev) := .scheduler (.returned he.1.1 (eq_ok_of_returns he.1.2))
    have hr := IdRun.append (h.snoc hs) he.2
    rw [List.append_assoc] at hr
    exact hr

theorem idTurns_allowed : ∀ (l : List (Env × Event)) (s : Numbered), ∀ t ∈ idTurns conf s l, t.Allowed
  | [], _, _, ht => nomatch ht
  | (env, ev) :: l, s, t, ht => by
    rcases List.mem_cons.mp ht with ht | ht
    · rw [ht]
      trivial
    · exact idTurns_allowed l _ t ht

end

/-- Unless a restart begins the counters again, an item has a problem identifier
exactly when it is not OK, one for each problem, and an event identifier for
each change of its state. -/
theorem identifiers_right {conf : Conf} {s₀ s : Numbered} {trace : List IdTurn} (h : IdRun conf s₀ trace s) (h₀ : s₀.Initial)
    (hOk : ∀ i, (s₀.world.checkState i).state = okUp (conf.myType i)) (ha : ∀ t ∈ trace, t.Allowed) :
    (∀ t ∈ trace, t.Right conf) ∧ s.events.Nodup ∧ s.problems.Nodup := by
  obtain ⟨hs, hr⟩ := run_right h (initial_sound h₀ hOk) ha
  exact ⟨hr, hs.events.nodup, hs.problems.nodup⟩

/-! ## A restart -/

theorem peers_nodup : ([0, 1] ++ [] : List Nat).Nodup := by decide

def peers : Conf := { oneHost with hosts := [0, 1], nodup := peers_nodup, enableProblemImpactsStatesChange := true }

def unnumbered : Numbered :=
  ⟨{ startWorld with checkState := fun i => { state := okUp (peers.myType i) } }, {}, fun _ => {}, [], []⟩

theorem unnumbered_initial : unnumbered.Initial where
  world := { startWorld_initial with checkState := fun _ => ⟨_, _, rfl⟩ }
  counters := rfl
  ids := fun _ => rfl
  events := rfl
  problems := rfl

def goesDown (i : Nat) : List (Env × Event) :=
  [(plainEnv 10, .receiveResult i ⟨i, .scheduled, 2, 10, false, false, []⟩), (plainEnv 20, .consumeResult i)]

def restored (w : World) : World :=
  { startWorld with checkState := fun i => { w.checkState i with stateBeforeImpact := .pending, stateChangedSinceImpact := false } }

theorem restored_restarted (w : World) : Restarted w (restored w) where
  state := fun _ => rfl
  lastState := fun _ => rfl
  stateType := fun _ => rfl
  attempt := fun _ => rfl
  beforeImpact := fun _ => rfl
  changed := fun _ => rfl
  problem := fun _ => rfl
  check := fun _ => rfl

def firstDown : Numbered := unnumbered.final peers (goesDown 0)

def firstDownRestarted : Numbered := firstDown.restart (restored firstDown.world)

theorem identifiers_right_down : (∀ t ∈ idTurns peers unnumbered (goesDown 0), t.Right peers) ∧ firstDown.events.Nodup ∧
    firstDown.problems.Nodup :=
  identifiers_right (IdRun.append peers IdRun.nil (show executes peers unnumbered.world (goesDown 0) = true by decide))
    unnumbered_initial (fun _ => rfl) (idTurns_allowed peers _ _)

/-- The problems of host 0 before a restart and of host 1 after it have the same
identifier. -/
theorem same_problem_id : ∃ trace s, unnumbered.Initial ∧ (∀ i, (unnumbered.world.checkState i).state = okUp (peers.myType i)) ∧
    IdRun peers unnumbered trace s ∧ (s.ids 0).currentProblemId = 1 ∧ (s.ids 1).currentProblemId = 1 ∧
    ¬ s.problems.Nodup ∧ ¬ s.events.Nodup := by
  have h0 : IdRun peers unnumbered _ firstDown := IdRun.append peers .nil (show executes peers unnumbered.world (goesDown 0) = true by decide)
  have h1 : IdRun peers unnumbered _ firstDownRestarted := h0.snoc (.restart (restored_restarted _))
  have h2 := IdRun.append peers h1
    (show executes peers (restored firstDown.world) (goesDown 1) = true by decide)
  refine ⟨_, _, unnumbered_initial, fun _ => rfl, h2, ?_, ?_, ?_, ?_⟩
  all_goals decide

end Alignak.Scheduling
