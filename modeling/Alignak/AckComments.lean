import Alignak.Alerting
import Alignak.CommentLedger
import Alignak.Outcomes

/-!
# Acknowledgements and their comments

An item is acknowledged in trouble only, and its results and the impacts on it
change the trouble.
-/

namespace Alignak.Scheduling

section
variable {conf : Conf} {env : Env} {frees : Prop} {deletes : Nat → Nat → Prop} {w₀ w w' : World} {i j : Nat}

/-! ## The states of the acknowledged items -/

def World.Restored (conf : Conf) (w : World) (i : Nat) : Prop :=
  conf.enableProblemImpactsStatesChange = true ∧ (w.checkState i).stateChangedSinceImpact = false ∧
    (w.checkState i).state = (w.checkState i).stateBeforeImpact

def Seen (conf : Conf) (w : World) (i : Nat) : Prop :=
  (w.ack i).acknowledgement ≠ none → Troubled conf w i ∨ w.Restored conf i

theorem Seen.congr (h : Seen conf w i) (hl : (w'.ack i).acknowledgement ≠ none → (w.ack i).acknowledgement ≠ none)
    (ho : (w'.checkState i).outcome = (w.checkState i).outcome) : Seen conf w' i := by
  simp only [CheckState.outcome, Prod.mk.injEq] at ho
  obtain ⟨h1, h2, h3⟩ := ho
  intro ha
  unfold Troubled World.Restored
  rw [h1, h2, h3]
  exact h (hl ha)

theorem Seen.noted (h : Seen conf w i) (hs : w.ledger.Sound Acknowledge.commentId) (hn : Noted conf frees deletes w w') :
    Seen conf w' i := by
  intro ha
  obtain ⟨a, ha⟩ := Option.ne_none_iff_exists'.mp ha
  rcases (Ledger.since_of_moves hs hn.moves).mark ha with hold | ⟨-, ht⟩
  · have hold' : (w.ack i).acknowledgement ≠ none := by
      intro e
      cases e.symm.trans hold
    refine Seen.congr h (fun _ => hold') (hn.outcome i) ?_
    rw [ha]
    exact Option.some_ne_none a
  · exact Or.inl fun e => ht ((congrArg Prod.fst (hn.outcome i)).symm.trans e)

theorem Seen.setImpact {now : Int} (h : Seen conf w i) :
    Seen conf (w.modifyCheckState j fun c => c.setImpactState conf now) i := by
  by_cases hne : j = i
  · subst hne
    intro ha
    by_cases he : conf.enableProblemImpactsStatesChange = true
    · refine Or.inl ?_
      unfold Troubled CheckState.setImpactState
      rw [World.modifyCheckState_self, if_pos he]
      exact unreachable_ne _
    · refine Seen.congr h id ?_ ha
      unfold CheckState.setImpactState
      rw [World.modifyCheckState_self, if_neg he]
  · exact h.congr id (by rw [World.modifyCheckState_ne w (Ne.symm hne)])

theorem Seen.unsetImpact (h : Seen conf w i) : Seen conf (w.modifyCheckState j fun c => c.unsetImpactState conf) i := by
  by_cases hne : j = i
  · subst hne
    intro ha
    unfold CheckState.unsetImpactState
    by_cases hc : (conf.enableProblemImpactsStatesChange && !(w.checkState j).stateChangedSinceImpact) = true
    · refine Or.inr ?_
      unfold World.Restored
      rw [World.modifyCheckState_self, if_pos hc]
      rw [Bool.and_eq_true, Bool.not_eq_true'] at hc
      exact ⟨hc.1, hc.2, rfl⟩
    · refine Seen.congr h id ?_ ha
      rw [World.modifyCheckState_self, if_neg hc]
  · exact h.congr id (by rw [World.modifyCheckState_ne w (Ne.symm hne)])

theorem seen_kept : KeptByImpacts conf fun w => Seen conf w i where
  problem := fun _ _ _ h => h.congr id rfl
  set := fun _ _ _ h => h.setImpact
  unset := fun _ _ h => h.unsetImpact

/-! ## The consumption of a result -/

structure Attended (conf : Conf) (w₀ w : World) : Prop where
  moves : Ledger.Moves Acknowledge.commentId (fun _ => True) False (fun _ _ => False) w₀.ledger w.ledger
  seen : ∀ i, Seen conf w i

theorem Attended.noted (h0 : w₀.ledger.Sound Acknowledge.commentId) (h : Attended conf w₀ w)
    (hn : Noted conf False (fun _ _ => False) w w') : Attended conf w₀ w' :=
  ⟨h.moves.trans (hn.moves.mono fun _ _ => trivial), fun i => (h.seen i).noted (h0.moves h.moves) hn⟩

theorem resolved_ledger (conf : Conf) (env : Env) (k : Nat) (w : World) : (resolved conf env k w).ledger = w.ledger := by
  have hfinish : ∀ u : World, (finishCheck k u).ledger = u.ledger := by
    intro u
    unfold finishCheck
    simp only
    split <;> rfl
  have hresolve : ∀ u : World, (resolveDependencies conf env k u).ledger = u.ledger := by
    intro u
    unfold resolveDependencies checkAndSetUnreachability
    rw [hfinish]
    split
    · split <;> rfl
    · rfl
  have hflapping : ∀ (i : Nat) (letter : Char) (u : World), (recordFlapping conf env i letter u).ledger = u.ledger :=
    fun i letter u => ledger_of_still (recordFlapping_still letter u)
  exact (hresolve _).trans (hflapping _ _ _)

theorem Seen.resolvedOther {k j : Nat} (h : Seen conf w j) (hne : j ≠ (w.check k).ref) : Seen conf (resolved conf env k w) j := by
  refine h.congr (fun ha e => ha ?_) ?_
  · exact (congrFun (congrArg Ledger.mark (resolved_ledger conf env k w)) j).trans e
  · have hcheck : ((updateItemInformation conf env k w).check k).ref = (w.check k).ref := by
      rw [updateItemInformation_taken]
      rfl
    have h1 : (resolveDependencies conf env k (updateItemInformation conf env k w)).checkState j =
        (updateItemInformation conf env k w).checkState j := resolveDependencies_other k _ (hcheck ▸ hne)
    unfold resolved
    rw [h1, updateItemInformation_other k w hne]

theorem closeConsumption_ledger (i : Nat) (w : World) : (closeConsumption i w).ledger = w.ledger := by
  unfold closeConsumption
  simp only
  rw [modifyAck_ledger]
  · rfl
  · exact fun _ => rfl

theorem aside_ledger (h : w'.aside = w.aside) : w'.ledger = w.ledger := by
  simp only [World.aside, Prod.mk.injEq] at h
  obtain ⟨-, hd, ha, -, -, -, -, -, -, hc, hn⟩ := h
  refine ledger_of_downtimes ha ?_ hc hn
  unfold World.downtime?
  rw [hd]

theorem attended_kept (h0 : w₀.ledger.Sound Acknowledge.commentId) (i : Nat) :
    KeptByMoves conf env (Attended conf w₀) (fun _ => True) i where
  check := fun f s hf h => ⟨h.moves, fun j => (h.seen j).congr id (by
    by_cases hj : j = i
    · subst hj
      rw [World.modifyCheckState_self]
      exact (hf _).1
    · rw [World.modifyCheckState_ne s hj])⟩
  still := fun s _ hs h => h.noted h0 ((Noted.refl s).still hs)
  unacknowledge := fun s h => h.noted h0 (unacknowledgeProblem_noted (.refl s))
  flexible := fun s h => ⟨h.noted h0 (checkForFlexibleDowntime_noted i s (.refl s)).1, fun _ _ _ => trivial⟩
  recovery := fun s h => by
    have hl : (stateAfter (noMoreAProblem conf i s)).ledger = s.ledger := aside_ledger (noMoreAProblem_aside i s)
    exact ⟨⟨hl ▸ h.moves, fun j => (seen_kept.noMore i (E := fun _ => True) trivial s (h.seen j)).1⟩, fun _ _ _ => trivial⟩
  problem := fun s h => by
    have hl : (stateAfter (setMyselfAsProblem conf env i s)).ledger = s.ledger := aside_ledger (setMyselfAsProblem_aside i s)
    exact ⟨⟨hl ▸ h.moves, fun j => (seen_kept.setMyself i (E := fun _ => True) trivial trivial s (h.seen j)).1⟩, fun _ _ _ => trivial⟩

theorem unacknowledgeProblem_none (h : w.ledger.Sound Acknowledge.commentId) :
    ((unacknowledgeProblem i w).ack i).acknowledgement = none := by
  unfold unacknowledgeProblem
  split
  · rw [World.modifyAck_self]
  · rename_i hf
    by_contra hne
    exact hf ((h.flag i).mpr hne)

theorem consumeResult_attended {k : Nat} (h0 : w.ledger.Sound Acknowledge.commentId) (hs : ∀ i, Seen conf w i) :
    Attended conf w (stateAfter (consumeResult conf env k w)) := by
  by_cases hm : mustWait conf w k = true
  · have hr : stateAfter (consumeResult conf env k w) = w.setCheck k { w.check k with status := .waitDepend } := by
      have he : consumeResult conf env k w = .ok ⟨⟩ (w.setCheck k { w.check k with status := .waitDepend }) :=
        (congrFun (if_pos hm) w : (if mustWait conf w k then _ else _ : Sched Unit) w = _)
      rw [he]
      rfl
    rw [hr]
    exact ⟨.refl, hs⟩
  · have hl := resolved_ledger conf env k w
    have hother : ∀ j, j ≠ (w.check k).ref → Seen conf (resolved conf env k w) j := fun j hne => (hs j).resolvedOther hne
    refine leads_consumption (I := (· = resolved conf env k w)) (by simpa using hm)
      ((attended_kept h0 _).changeStateFrom (fun _ u e => ?_) fun he u e => ?_) (fun u hu => ?_) rfl
    · subst e
      have hn : Noted conf False (fun _ _ => False) (resolved conf env k w) (unacknowledgeProblem (w.check k).ref
        (resolved conf env k w)) := unacknowledgeProblem_noted (.refl _)
      refine ⟨hl ▸ hn.moves.mono fun _ _ => trivial, fun j => ?_⟩
      by_cases hj : j = (w.check k).ref
      · subst hj
        exact fun ha => absurd (unacknowledgeProblem_none (hl ▸ h0)) ha
      · exact (hother j hj).noted (hl ▸ h0) hn
    · subst e
      refine ⟨hl ▸ .refl, fun j => ?_⟩
      by_cases hj : j = (w.check k).ref
      · subst hj
        exact fun _ => Or.inl (resolved_of_nonzero he).state
      · exact hother j hj
    · have hc := closeConsumption_ledger (w.check k).ref u
      refine ⟨hc ▸ hu.moves, fun j => (hu.seen j).congr (fun ha e => ha ?_) (closeConsumption_outcome u)⟩
      exact (congrFun (congrArg Ledger.mark hc) j).trans e

/-! ## Runs -/

structure Handled (conf : Conf) (ev : Event) (w w' : World) : Prop where
  moves : Ledger.Moves Acknowledge.commentId (fun _ => True) ev.Closes (fun i c => ev.Deletes conf w i c) w.ledger w'.ledger
  seen : ∀ i, Seen conf w' i

theorem event_handled (env : Env) (ev : Event) (hs : w.ledger.Sound Acknowledge.commentId) (h : ∀ i, Seen conf w i) :
    Handled conf ev w (stateAfter (runEvent conf env ev w)) := by
  by_cases hev : ∃ k, ev = .consumeResult k
  · obtain ⟨k, rfl⟩ := hev
    have hc : Attended conf w (stateAfter (consumeResult conf env k w)) := consumeResult_attended hs h
    exact ⟨hc.moves, hc.seen⟩
  · have hn : Noted conf ev.Closes (fun i c => ev.Deletes conf w i c) w (stateAfter (runEvent conf env ev w)) :=
      event_noted fun k e => hev ⟨k, e⟩
    exact ⟨hn.moves.mono fun _ _ => trivial, fun i => (h i).noted hs hn⟩

structure InOrder (conf : Conf) (trace : List Turn) (w : World) (i : Nat) : Prop where
  flag : (w.ack i).problemHasBeenAcknowledged = true ↔ (w.ack i).acknowledgement ≠ none
  state : (w.ack i).acknowledgement ≠ none → (w.checkState i).state ≠ okUp (conf.myType i) ∨ w.Restored conf i
  comment : ∀ a, (w.ack i).acknowledgement = some a →
    a.commentId ∈ (w.comments i).keys ∨ ∃ t ∈ trace, t.event.Deletes conf t.world i a.commentId

/-- An acknowledgement that goes takes its comment with it, and any other
comment goes with a downtime or is deleted by a command. -/
structure TakesComment (conf : Conf) (ev : Event) (w w' : World) (i : Nat) : Prop where
  own : ∀ a, (w.ack i).acknowledgement = some a → (w'.ack i).acknowledgement ≠ some a → a.commentId ∉ (w'.comments i).keys
  only : ∀ c, c ∈ (w.comments i).keys → c ∉ (w'.comments i).keys →
    (∃ a, (w.ack i).acknowledgement = some a ∧ a.commentId = c ∧ (w'.ack i).acknowledgement ≠ some a) ∨
      (ev.Closes ∧ w.DowntimeComment c) ∨ ev.Deletes conf w i c

structure Recorded (conf : Conf) (trace : List Turn) (w : World) : Prop where
  sound : w.ledger.Sound Acknowledge.commentId
  seen : ∀ i, Seen conf w i
  comment : ∀ i a, (w.ack i).acknowledgement = some a →
    a.commentId ∈ (w.comments i).keys ∨ ∃ t ∈ trace, t.event.Deletes conf t.world i a.commentId

theorem Initial.recorded (h : Initial w) : Recorded conf [] w := by
  have hack : ∀ i, (w.ack i).acknowledgement = none := fun i => by rw [h.ack i]
  have hnone : ∀ c, ¬ w.DowntimeComment c := by
    rintro c ⟨i, d, x, hx, -⟩
    unfold World.downtime? at hx
    rw [h.downtime i] at hx
    cases hx
  refine ⟨⟨fun i => ?_, fun {i a} ha => ?_, fun {c} hc => absurd hc (hnone c), fun {i c} hc => ?_, fun {i a} ha => ?_⟩,
    fun i ha => absurd (hack i) ha, fun i a ha => absurd ((hack i).symm.trans ha) (by simp)⟩
  · show (w.ack i).problemHasBeenAcknowledged = true ↔ (w.ack i).acknowledgement ≠ none
    rw [h.ack i]
    simp
  · exact absurd ((hack i).symm.trans ha) (by simp)
  · have hk : c ∈ (w.comments i).keys := hc
    rw [h.comments i] at hk
    cases hk
  · exact absurd ((hack i).symm.trans ha) (by simp)

theorem Recorded.step {trace : List Turn} {ev : Event} (h : Recorded conf trace w) (hs : Step conf env w ev w') :
    Recorded conf (trace ++ [⟨w, env, ev⟩]) w' := by
  have hh := event_handled env ev h.sound h.seen
  rw [← hs.after] at hh
  refine ⟨h.sound.moves hh.moves, hh.seen, fun i a ha => ?_⟩
  rcases (Ledger.since_of_moves h.sound hh.moves).kept ha with hc | hd | ⟨ha0, hn⟩
  · exact Or.inl hc
  · exact Or.inr ⟨_, List.mem_append_right _ List.mem_cons_self, hd⟩
  · rcases h.comment i a ha0 with hc | ⟨t, ht, hd⟩
    · exact absurd hc hn
    · exact Or.inr ⟨t, List.mem_append_left _ ht, hd⟩

theorem Run.recorded {trace : List Turn} (hr : Run conf w₀ trace w) (h0 : Initial w₀) : Recorded conf trace w := by
  induction hr with
  | nil => exact h0.recorded
  | snoc _ hs ih => exact ih.step hs

/-- In every state of a run the acknowledgement of an item is in order, and at
every step it takes its comment with it when it goes. -/
theorem acknowledgement_comments {trace : List Turn} (h₀ : Initial w₀) (hr : Run conf w₀ trace w) (i : Nat) :
    InOrder conf trace w i ∧ ∀ env ev w', Step conf env w ev w' → TakesComment conf ev w w' i := by
  have h := hr.recorded h₀
  refine ⟨⟨h.sound.flag i, h.seen i, h.comment i⟩, fun env ev w' hs => ?_⟩
  have hh := event_handled env ev h.sound h.seen
  rw [← hs.after] at hh
  have hsince := Ledger.since_of_moves h.sound hh.moves
  exact ⟨fun a => hsince.gone, fun c => hsince.only⟩

end

def acknowledging : List (Env × Event) :=
  [(plainEnv 10, .receiveResult 0 ⟨0, .scheduled, 2, 10, false, false, []⟩), (plainEnv 10, .consumeResult 0),
    (plainEnv 20, .command (.acknowledgeProblem 0 2 1 0))]

theorem acknowledging_comments :
    ((worldAfter oneHost startWorld acknowledging).ack 0).acknowledgement = some ⟨true, 0, 0⟩ ∧
    InOrder oneHost (turns oneHost startWorld acknowledging) (worldAfter oneHost startWorld acknowledging) 0 ∧
    ∀ env ev w', Step oneHost env (worldAfter oneHost startWorld acknowledging) ev w' →
      TakesComment oneHost ev (worldAfter oneHost startWorld acknowledging) w' 0 :=
  ⟨by decide, acknowledgement_comments startWorld_initial
    (run_of_executes oneHost (show executes oneHost startWorld acknowledging = true by decide)) 0⟩

/-- The comments of the host are deleted, and its acknowledgement stays. -/
theorem comment_deleted : ∃ trace w a, Initial startWorld ∧ Run oneHost startWorld trace w ∧
    (w.ack 0).acknowledgement = some a ∧ a.commentId ∉ (w.comments 0).keys :=
  ⟨_, _, ⟨true, 0, 0⟩, startWorld_initial,
    run_of_executes oneHost
      (show executes oneHost startWorld (acknowledging ++ [(plainEnv 30, .command (.delAllComments 0))]) = true by decide),
    by decide, by decide⟩

end Alignak.Scheduling
