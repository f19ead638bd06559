import Alignak.DowntimeLinks
import Alignak.Ledger

/-!
# The ledger of the comments

The acknowledgements and the comments of the items are the marks and the notes
of a ledger, in which the comments of the downtimes are lent.
-/

namespace Alignak.Scheduling

def World.DowntimeComment (w : World) (c : Nat) : Prop := ∃ i d x, w.downtime? i d = some x ∧ x.commentId = some c

def World.ledger (w : World) : Ledger Nat Acknowledge where
  flag := fun i => (w.ack i).problemHasBeenAcknowledged
  mark := fun i => (w.ack i).acknowledgement
  notes := fun i => {c | c ∈ (w.comments i).keys}
  lent := {c | w.DowntimeComment c}
  next := w.nextComment

variable {f : Downtime → Downtime}

section
variable {conf : Conf} {env : Env} {w w' : World} {i j d c : Nat} {x y : Downtime}

/-! ## What leaves the ledger -/

def AckState.acknowledged (a : AckState) := (a.problemHasBeenAcknowledged, a.acknowledgement)

theorem ledger_congr (ha : ∀ j, (w'.ack j).acknowledged = (w.ack j).acknowledged)
    (hd : ∀ c, w'.DowntimeComment c ↔ w.DowntimeComment c) (hc : w'.comments = w.comments)
    (hn : w'.nextComment = w.nextComment) : w'.ledger = w.ledger := by
  simp only [AckState.acknowledged, Prod.mk.injEq] at ha
  refine Ledger.ext (funext fun j => (ha j).1) (funext fun j => (ha j).2) ?_ (Set.ext hd) hn
  unfold World.ledger
  rw [hc]

theorem ledger_of_downtimes (ha : w'.ack = w.ack) (hd : w'.downtime? = w.downtime?) (hc : w'.comments = w.comments)
    (hn : w'.nextComment = w.nextComment) : w'.ledger = w.ledger := by
  refine ledger_congr (fun j => by rw [ha]) (fun c => ?_) hc hn
  unfold World.DowntimeComment
  rw [hd]

theorem ledger_of_still (h : w'.still = w.still) : w'.ledger = w.ledger := by
  have hd := downtime?_of_quiet (quiet_of_still h)
  simp only [World.still, Prod.mk.injEq] at h
  exact ledger_of_downtimes h.2.2.2.2.1 hd h.2.2.2.2.2.2.2.1 h.2.2.2.2.2.2.2.2

theorem modifyAck_ledger {f : AckState → AckState} (hf : ∀ a, (f a).acknowledged = a.acknowledged) :
    (w.modifyAck i f).ledger = w.ledger := by
  refine ledger_congr (fun j => ?_) (fun _ => Iff.rfl) rfl rfl
  by_cases hj : j = i
  · subst hj
    rw [World.modifyAck_self]
    exact hf _
  · rw [World.modifyAck_ne w hj]

theorem modifyDowntime_ledger {f : DowntimeState → DowntimeState} (hf : ∀ s, (f s).downtimes = s.downtimes) :
    (w.modifyDowntime i f).ledger = w.ledger :=
  ledger_of_downtimes rfl (funext fun j => funext fun c => downtime?_modifyDowntime hf j c) rfl rfl

theorem addDowntime_ledger (hx : w.downtime? i d = some x) (hy : y.commentId = x.commentId) :
    (w.addDowntime i d y).ledger = w.ledger := by
  refine ledger_congr (fun _ => rfl) (fun c => ?_) rfl rfl
  constructor
  · rintro ⟨j, e, z, hz, hc⟩
    rw [downtime?_addDowntime] at hz
    split at hz
    · cases hz
      exact ⟨i, d, x, hx, hy ▸ hc⟩
    · exact ⟨j, e, z, hz, hc⟩
  · rintro ⟨j, e, z, hz, hc⟩
    by_cases h : j = i ∧ e = d
    · obtain ⟨rfl, rfl⟩ := h
      rw [hx] at hz
      cases hz
      exact ⟨j, e, y, by rw [downtime?_addDowntime, if_pos ⟨rfl, rfl⟩], hy.trans hc⟩
    · exact ⟨j, e, z, by rw [downtime?_addDowntime, if_neg h]; exact hz, hc⟩

theorem changeDowntime_ledger (hf : ∀ x, (f x).commentId = x.commentId) :
    (w.changeDowntime i d f).ledger = w.ledger := by
  unfold World.changeDowntime
  cases hx : w.downtime? i d with
  | none => rfl
  | some x => exact addDowntime_ledger hx (hf x)

theorem changeDepth_ledger (w : World) (i : Nat) (n : Int) : (w.changeDepth i n).ledger = w.ledger :=
  modifyDowntime_ledger (f := fun s => { s with scheduledDowntimeDepth := s.scheduledDowntimeDepth + n }) fun _ => rfl

theorem setInScheduledDowntime_ledger (w : World) (i : Nat) (b : Bool) :
    (w.setInScheduledDowntime i b).ledger = w.ledger :=
  modifyDowntime_ledger (f := fun s => { s with inScheduledDowntime := b }) fun _ => rfl

theorem endDowntime_ledger (i : Nat) (w : World) : (endDowntime conf env i w).ledger = w.ledger := by
  unfold endDowntime
  simp only
  split
  · rw [setInScheduledDowntime_ledger, ledger_of_still (createNotifications_still ..), changeDepth_ledger]
  · exact changeDepth_ledger w i _

theorem cancelDepth_ledger (i : Nat) (w : World) : (cancelDepth i w).ledger = w.ledger := by
  unfold cancelDepth
  simp only
  split
  · rw [setInScheduledDowntime_ledger, changeDepth_ledger]
  · exact changeDepth_ledger w i _

/-! ## The moves -/

def Troubled (conf : Conf) (w : World) (i : Nat) : Prop := (w.checkState i).state ≠ okUp (conf.myType i)

structure Noted (conf : Conf) (frees : Prop) (deletes : Nat → Nat → Prop) (w₀ w : World) : Prop where
  outcome : ∀ j, (w.checkState j).outcome = (w₀.checkState j).outcome
  moves : Ledger.Moves Acknowledge.commentId (Troubled conf w₀) frees deletes w₀.ledger w.ledger

variable {frees : Prop} {deletes : Nat → Nat → Prop} {w₀ : World}

theorem outcome_of_core (h : w'.core = w.core) (j : Nat) : (w'.checkState j).outcome = (w.checkState j).outcome := by
  rw [(World.core_eq h).2.1]

theorem Noted.refl (w : World) : Noted conf frees deletes w w := ⟨fun _ => rfl, .refl⟩

theorem Noted.same (h : Noted conf frees deletes w₀ w) (hc : w'.core = w.core) (hl : w'.ledger = w.ledger) :
    Noted conf frees deletes w₀ w' := ⟨fun j => (outcome_of_core hc j).trans (h.outcome j), hl ▸ h.moves⟩

theorem Noted.still (h : Noted conf frees deletes w₀ w) (hs : w'.still = w.still) : Noted conf frees deletes w₀ w' :=
  h.same (core_of_quiet (quiet_of_still hs)) (ledger_of_still hs)

theorem Noted.move (h : Noted conf frees deletes w₀ w) (hc : w'.core = w.core)
    (hm : Ledger.Move Acknowledge.commentId (Troubled conf w₀) frees deletes w.ledger w'.ledger) :
    Noted conf frees deletes w₀ w' := ⟨fun j => (outcome_of_core hc j).trans (h.outcome j), h.moves.tail hm⟩

theorem Noted.troubled (h : Noted conf frees deletes w₀ w) (hi : Troubled conf w i) : Troubled conf w₀ i := by
  have ho := congrArg Prod.fst (h.outcome i)
  exact fun e => hi (ho.trans e)

theorem notes_delComment (w : World) (i c : Nat) :
    (w.delComment i c).ledger.notes = Function.update w.ledger.notes i (w.ledger.notes i \ {c}) := by
  funext j
  ext e
  show e ∈ ((w.delComment i c).comments j).keys ↔ _
  unfold World.delComment
  by_cases hj : j = i
  · subst hj
    simp only [Function.update_self, Dict.mem_keys_erase]
    rfl
  · simp only [Function.update_of_ne hj]
    rfl

theorem notes_addComment (w : World) (i : Nat) (x : Comment) :
    (w.addComment i x).ledger.notes = Function.update w.ledger.notes i (insert w.nextComment (w.ledger.notes i)) := by
  funext j
  ext e
  show e ∈ ((w.addComment i x).comments j).keys ↔ _
  unfold World.addComment
  by_cases hj : j = i
  · subst hj
    simp only [Function.update_self, Dict.mem_keys_set]
    rfl
  · simp only [Function.update_of_ne hj]
    rfl

theorem delComment_ledger (w : World) (i c : Nat) : (w.delComment i c).ledger = w.ledger.removeNote i c :=
  Ledger.ext rfl rfl (notes_delComment w i c) rfl rfl

theorem marked_ledger (w : World) (i : Nat) (b : Bool) (m : Option Acknowledge) :
    (w.modifyAck i fun a => { a with problemHasBeenAcknowledged := b, acknowledgement := m }).ledger =
      { w.ledger with flag := Function.update w.ledger.flag i b, mark := Function.update w.ledger.mark i m } := by
  refine Ledger.ext (funext fun j => ?_) (funext fun j => ?_) rfl rfl rfl
  · show ((w.modifyAck i _).ack j).problemHasBeenAcknowledged = Function.update w.ledger.flag i b j
    by_cases hj : j = i
    · subst hj
      rw [World.modifyAck_self]
      simp
    · rw [World.modifyAck_ne w hj]
      exact (Function.update_of_ne hj b w.ledger.flag).symm
  · show ((w.modifyAck i _).ack j).acknowledgement = Function.update w.ledger.mark i m j
    by_cases hj : j = i
    · subst hj
      rw [World.modifyAck_self]
      simp
    · rw [World.modifyAck_ne w hj]
      exact (Function.update_of_ne hj m w.ledger.mark).symm

theorem ownTaken_ledger (w : World) (i : Nat) :
    (if (w.ack i).problemHasBeenAcknowledged then delAckComment i w else w).ledger =
      { w.ledger with
        notes := Function.update w.ledger.notes i (w.ledger.notes i \ w.ledger.own Acknowledge.commentId i) } := by
  have hnone : w.ledger.own Acknowledge.commentId i = ∅ → w.ledger =
      { w.ledger with
        notes := Function.update w.ledger.notes i (w.ledger.notes i \ w.ledger.own Acknowledge.commentId i) } := by
    intro he
    rw [he, Set.sdiff_empty, Function.update_eq_self]
  split
  · rename_i hf
    unfold delAckComment
    cases ha : (w.ack i).acknowledgement with
    | none =>
      refine hnone (Set.eq_empty_iff_forall_notMem.mpr fun c hc => ?_)
      obtain ⟨-, a, he, -⟩ := hc
      exact absurd (ha.symm.trans he) (by simp)
    | some a =>
      have hown : w.ledger.own Acknowledge.commentId i = {a.commentId} := by
        ext c
        constructor
        · rintro ⟨-, b, hb, rfl⟩
          cases ha.symm.trans hb
          rfl
        · rintro rfl
          exact ⟨hf, a, ha, rfl⟩
      rw [hown]
      exact delComment_ledger w i a.commentId
  · rename_i hf
    refine hnone (Set.eq_empty_iff_forall_notMem.mpr fun c hc => ?_)
    exact hf hc.1

theorem putMark_ledger {u : World} (hu : u.still = (if (w.ack i).problemHasBeenAcknowledged then delAckComment i w else w).still)
    (x : Comment) (sticky : Bool) (endTime : Int) :
    ((u.addComment i x).modifyAck i fun a =>
      { a with problemHasBeenAcknowledged := true, acknowledgement := some ⟨sticky, endTime, u.nextComment⟩ }).ledger =
      w.ledger.putMark Acknowledge.commentId i ⟨sticky, endTime, u.nextComment⟩ := by
  have hl : u.ledger = _ := (ledger_of_still hu).trans (ownTaken_ledger w i)
  have hadd : (u.addComment i x).ledger = u.ledger.write i u.ledger.lent := Ledger.ext rfl rfl (notes_addComment u i x) rfl rfl
  rw [marked_ledger, hadd]
  unfold Ledger.write Ledger.putMark
  rw [hl]
  simp only [Function.update_self, Function.update_idem]

theorem acknowledgeItem_noted {period : Option Nat} {sticky notify endTime : Int} (h : Noted conf frees deletes w₀ w) :
    Noted conf frees deletes w₀ (acknowledgeItem conf env i period sticky notify endTime w) := by
  have hcore : (acknowledgeItem conf env i period sticky notify endTime w).core = w.core :=
    core_of_quiet (acknowledgeItem_quiet i w period sticky notify endTime)
  unfold acknowledgeItem at hcore ⊢
  split
  · exact h
  · rename_i hok
    rw [if_neg hok] at hcore
    refine h.move hcore ?_
    simp only
    generalize hw1 : (if (w.ack i).problemHasBeenAcknowledged then delAckComment i w else w) = w₁
    have hu : (if notify ≠ 0 then createNotifications conf env i .acknowledgement period w₁ else w₁).still = w₁.still := by
      split
      · exact createNotifications_still ..
      · rfl
    generalize (if notify ≠ 0 then createNotifications conf env i .acknowledgement period w₁ else w₁) = u at hu ⊢
    rw [← hw1] at hu
    rw [putMark_ledger hu]
    refine .mark (h.troubled hok) ?_
    have hl := (ledger_of_still hu).trans (ownTaken_ledger w i)
    exact congrArg Ledger.next hl

theorem acknowledgeProblem_noted {period : Option Nat} {sticky notify endTime : Int} (h : Noted conf frees deletes w₀ w) :
    Noted conf frees deletes w₀ (acknowledgeProblem conf env i period sticky notify endTime w) := by
  unfold acknowledgeProblem
  simp only
  split
  · exact List.foldlRecOn _ _ (acknowledgeItem_noted h) fun w hw s _ => acknowledgeItem_noted hw
  · exact acknowledgeItem_noted h

theorem unacknowledgeProblem_noted (h : Noted conf frees deletes w₀ w) :
    Noted conf frees deletes w₀ (unacknowledgeProblem i w) := by
  have hcore := core_of_quiet (unacknowledgeProblem_quiet i w)
  unfold unacknowledgeProblem at hcore ⊢
  split
  · rename_i hf
    rw [if_pos hf] at hcore
    refine h.move hcore ?_
    have htaken := ownTaken_ledger w i
    rw [if_pos hf] at htaken
    rw [marked_ledger, htaken]
    exact .unmark hf
  · exact h

theorem expireAcknowledge_noted (h : Noted conf frees deletes w₀ w) :
    Noted conf frees deletes w₀ (checkForExpireAcknowledge conf env w) := by
  refine List.foldlRecOn _ _ h fun w hw i _ => ?_
  split
  · split
    · exact unacknowledgeProblem_noted hw
    · exact hw
  · exact hw

/-! ## Downtimes -/

theorem keepsNoted_same {f : World → World} (hc : ∀ s, (f s).core = s.core) (hl : ∀ s, (f s).ledger = s.ledger) :
    Keeps (Noted conf frees deletes w₀) (modify f : Sched Unit) := Keeps.modify fun s hs => hs.same (hc s) (hl s)

theorem raiseEnterDowntime_noted (h : Noted conf frees deletes w₀ w) :
    Noted conf frees deletes w₀ (raiseEnterDowntime conf env i w) := by
  unfold raiseEnterDowntime
  split
  · have hn : Noted conf frees deletes w₀ (createNotifications conf env i .downtimeStart (w.settings i).notificationPeriod w) :=
      h.still (createNotifications_still ..)
    simp only
    split
    · exact acknowledgeProblem_noted hn
    · exact hn
  · exact h

theorem enter_noted : ∀ fuel i d, Keeps (Noted conf frees deletes w₀) (Downtime.enter conf env fuel i d)
  | 0, _, _ => Keeps.throw trivial
  | fuel + 1, i, d => by
    unfold Downtime.enter
    refine Leads.readAt fun w hw => ?_
    cases hx : w.downtime? i d with
    | none => exact (Keeps.throw trivial : Keeps (Noted conf frees deletes w₀) _).pre fun s e => e ▸ hw
    | some x =>
      refine leads_step (Leads.pre (I := Noted conf frees deletes w₀) ?_ fun s e => ?_)
      · refine Keeps.bind (keepsNoted_same (fun _ => rfl) fun s => ?_) fun _ => ?_
        · rw [setInScheduledDowntime_ledger, changeDepth_ledger]
        · refine Keeps.bind (Keeps.modify fun s hs => raiseEnterDowntime_noted hs) fun _ => ?_
          refine Keeps.forM fun c _ => Keeps.forM fun j _ => Keeps.read fun w => ?_
          exact Keeps.ite (fun _ => enter_noted fuel j c) fun _ => Keeps.pure _
      · subst e
        exact hw.same rfl (addDowntime_ledger hx rfl)

theorem enterDowntime_noted (i d : Nat) : Keeps (Noted conf frees deletes w₀) (enterDowntime conf env i d) :=
  Keeps.read fun _ => enter_noted _ i d

theorem checkForFlexibleDowntime_noted (i : Nat) :
    Keeps (Noted conf frees deletes w₀) (checkForFlexibleDowntime conf env i) := by
  refine Keeps.read fun w => Keeps.forM fun d _ => Keeps.read fun w => ?_
  cases w.downtime? i d with
  | none => exact Keeps.throw trivial
  | some x => exact Keeps.ite (fun _ => enterDowntime_noted i d) fun _ => Keeps.pure _

theorem Noted.freeComment {comment : Option Nat} (h : Noted conf frees deletes w₀ w) (hf : frees)
    (hc : ∀ c, comment = some c → w.DowntimeComment c) : Noted conf frees deletes w₀ (w.delDowntimeComment j comment) := by
  cases comment with
  | none => exact h
  | some c =>
    refine h.move rfl ?_
    show Ledger.Move _ _ _ _ _ (w.delComment j c).ledger
    rw [delComment_ledger]
    exact .free hf (hc c rfl)

theorem Noted.release (h : Noted conf frees deletes w₀ w) (hc : w'.core = w.core) (ha : w'.ack = w.ack)
    (hk : w'.comments = w.comments) (hn : w'.nextComment = w.nextComment)
    (hd : ∀ c, w'.DowntimeComment c → w.DowntimeComment c) : Noted conf frees deletes w₀ w' := by
  refine h.move hc ?_
  have hl : w'.ledger = { w.ledger with lent := w'.ledger.lent } := by
    refine Ledger.ext ?_ ?_ ?_ rfl hn
    · unfold World.ledger
      rw [ha]
    · unfold World.ledger
      rw [ha]
    · unfold World.ledger
      rw [hk]
  rw [hl]
  exact .release fun c => hd c

theorem exit_noted (h : Noted conf frees deletes w₀ w) (hf : frees) : Noted conf frees deletes w₀ (Downtime.exit conf env i d w) := by
  unfold Downtime.exit
  cases hx : w.downtime? i d with
  | none => exact h
  | some x =>
    simp only
    have hend : Noted conf frees deletes w₀ (if x.isInEffect then
        endDowntime conf env x.ref (w.changeDowntime i d fun x => { x with isInEffect := false }) else w) ∧
        (if x.isInEffect then endDowntime conf env x.ref (w.changeDowntime i d fun x => { x with isInEffect := false })
          else w).ledger = w.ledger := by
      have hl : (endDowntime conf env x.ref (w.changeDowntime i d fun x => { x with isInEffect := false })).ledger = w.ledger :=
        (endDowntime_ledger ..).trans (changeDowntime_ledger fun _ => rfl)
      split
      · exact ⟨h.same ((endDowntime_core ..).trans (changeDowntime_core ..)) hl, hl⟩
      · exact ⟨h, rfl⟩
    generalize (if x.isInEffect then
      endDowntime conf env x.ref (w.changeDowntime i d fun x => { x with isInEffect := false }) else w) = u at hend ⊢
    obtain ⟨hu, hl⟩ := hend
    have hlent : ∀ c, x.commentId = some c → u.DowntimeComment c := fun c hc =>
      (Set.ext_iff.mp (congrArg Ledger.lent hl) c).mpr ⟨i, d, x, hx, hc⟩
    refine (hu.freeComment (j := x.ref) hf hlent).same ?_ ?_
    · exact changeDowntime_core ..
    · rw [modifyAck_ledger, changeDowntime_ledger]
      · exact fun _ => rfl
      · exact fun _ => rfl

theorem DowntimeComment.of_change (hf : ∀ x, (f x).commentId = none ∨ (f x).commentId = x.commentId)
    (h : (w.changeDowntime i d f).DowntimeComment c) : w.DowntimeComment c := by
  obtain ⟨j, e, z, hz, hc⟩ := h
  rw [downtime?_changeDowntime] at hz
  split at hz
  · cases hx : w.downtime? i d with
    | none => rw [hx] at hz; cases hz
    | some x =>
      rw [hx] at hz
      cases hz
      rcases hf x with hn | he
      · rw [hn] at hc
        cases hc
      · exact ⟨i, d, x, hx, he ▸ hc⟩
  · exact ⟨j, e, z, hz, hc⟩

theorem Noted.changeDowntime (h : Noted conf frees deletes w₀ w)
    (hf : ∀ x, (f x).commentId = none ∨ (f x).commentId = x.commentId) :
    Noted conf frees deletes w₀ (w.changeDowntime i d f) := by
  have hrest : (w.changeDowntime i d f).ack = w.ack ∧ (w.changeDowntime i d f).comments = w.comments ∧
      (w.changeDowntime i d f).nextComment = w.nextComment := by
    unfold World.changeDowntime
    split <;> exact ⟨rfl, rfl, rfl⟩
  exact h.release (changeDowntime_core ..) hrest.1 hrest.2.1 hrest.2.2 fun _ => DowntimeComment.of_change hf

theorem Noted.delDowntime (h : Noted conf frees deletes w₀ w) : Noted conf frees deletes w₀ (w.delDowntime i d) := by
  refine h.release rfl rfl rfl rfl fun c => ?_
  rintro ⟨j, e, z, hz, hc⟩
  refine ⟨j, e, z, ?_, hc⟩
  rw [downtime?_delDowntime] at hz
  split at hz
  · cases hz
  · exact hz

theorem cancel_noted (hf : frees) (i d : Nat) : Keeps (Noted conf frees deletes w₀) (Downtime.cancel i d) := by
  refine Leads.readAt fun w hw => ?_
  cases hx : w.downtime? i d with
  | none => exact (Keeps.throw trivial : Keeps (Noted conf frees deletes w₀) _).pre fun s e => e ▸ hw
  | some x =>
    refine leads_step (Leads.bind (K := Noted conf frees deletes w₀) (Leads.modify fun s e => ?_) (fun _ => ?_) fun _ hs => hs)
    · subst e
      have hl : (cancelDepth x.ref (w.changeDowntime i d fun x => { x with isInEffect := false })).ledger = w.ledger :=
        (cancelDepth_ledger ..).trans (changeDowntime_ledger fun _ => rfl)
      have hu : Noted conf frees deletes w₀ (cancelDepth x.ref (w.changeDowntime i d fun x => { x with isInEffect := false })) :=
        hw.same ((cancelDepth_core ..).trans (changeDowntime_core ..)) hl
      have hlent : ∀ c, x.commentId = some c →
          (cancelDepth x.ref (w.changeDowntime i d fun x => { x with isInEffect := false })).DowntimeComment c :=
        fun c hc => (Set.ext_iff.mp (congrArg Ledger.lent hl) c).mpr ⟨i, d, x, hx, hc⟩
      have hfree := hu.freeComment (j := x.ref) hf hlent
      refine (hfree.changeDowntime (i := i) (d := d) (f := fun x => { x with commentId := none, canBeDeleted := true })
        fun _ => Or.inl rfl).same rfl ?_
      exact modifyAck_ledger fun _ => rfl
    · exact Keeps.ite (fun _ => Keeps.throw trivial) fun _ => Keeps.pure _

theorem newDowntime_noted (h : Noted conf frees deletes w₀ w) : Noted conf frees deletes w₀ (newDowntime i x w) := by
  refine h.move rfl ?_
  have hl : (newDowntime i x w).ledger = w.ledger.write i (newDowntime i x w).ledger.lent :=
    Ledger.ext rfl rfl (notes_addComment w i ⟨i, 2⟩) rfl rfl
  rw [hl]
  refine .write ?_
  rintro c ⟨j, e, z, hz, hc⟩
  rw [downtime?_newDowntime] at hz
  split at hz
  · cases hz
    exact Or.inl (Option.some.inj hc).symm
  · exact Or.inr ⟨j, e, z, hz, hc⟩

theorem checkMaintenance_noted (i : Nat) : Keeps (Noted conf frees deletes w₀) (checkMaintenance env i) := by
  refine Keeps.read fun w => ?_
  split
  · exact Keeps.pure _
  · refine Keeps.ite (fun _ => ?_) fun _ => Keeps.pure _
    split
    · exact Keeps.throw trivial
    · split
      · exact Keeps.throw trivial
      · refine Keeps.bind (Keeps.modify fun s hs => newDowntime_noted hs) fun _ => ?_
        exact keepsNoted_same (fun _ => rfl) fun _ => modifyDowntime_ledger fun _ => rfl
  · exact Keeps.ite (fun _ => keepsNoted_same (fun _ => rfl) fun _ => modifyDowntime_ledger fun _ => rfl) fun _ => Keeps.pure _

theorem deleteMarked_noted (h : Noted conf frees deletes w₀ w) : Noted conf frees deletes w₀ (deleteMarked i w) := by
  refine List.foldlRecOn _ _ h fun w hw d _ => ?_
  split
  · split
    · exact hw.delDowntime
    · exact hw
  · exact hw

theorem checkStartStop_noted (hf : frees) (i d : Nat) : Keeps (Noted conf frees deletes w₀) (checkStartStop conf env i d) := by
  refine Keeps.read fun w => ?_
  cases w.downtime? i d with
  | none => exact Keeps.throw trivial
  | some x =>
    refine Keeps.ite (fun _ => Keeps.modify fun s hs => exit_noted hs hf) fun _ => ?_
    exact Keeps.ite (fun _ => enterDowntime_noted i d) fun _ => Keeps.pure _

theorem updateDowntimesAndComments_noted (hf : frees) :
    Keeps (Noted conf frees deletes w₀) (updateDowntimesAndComments conf env) := by
  refine Keeps.bind (Keeps.forM fun i _ => checkMaintenance_noted i) fun _ => ?_
  refine Keeps.bind (Keeps.modify fun s hs => List.foldlRecOn _ _ hs fun w hw i _ => deleteMarked_noted hw) fun _ => ?_
  exact Keeps.forM fun i _ => Keeps.read fun w => Keeps.forM fun d _ => checkStartStop_noted hf i d

theorem scheduleDowntime_noted (i : Nat) (fixed : Bool) (startTime endTime duration : Int) (triggerId : Option Nat) :
    Keeps (Noted conf frees deletes w₀) (scheduleDowntime conf i fixed startTime endTime duration triggerId) := by
  refine Keeps.read fun w => Keeps.bind (Keeps.modify fun s hs => newDowntime_noted hs) fun _ => ?_
  cases triggerId with
  | none => exact Keeps.pure _
  | some t =>
    refine Keeps.forM fun j _ => Keeps.read fun w => Keeps.ite (fun _ => ?_) fun _ => Keeps.pure _
    refine Keeps.read fun w => Keeps.ite (fun _ => Keeps.throw trivial) fun _ => Keeps.modify fun s hs => ?_
    exact hs.changeDowntime fun _ => Or.inr rfl

theorem delDowntimeCommand_noted (hf : frees) (t : ItemType) (d : Nat) :
    Keeps (Noted conf frees deletes w₀) (delDowntimeCommand conf t d) := by
  refine Keeps.read fun w => ?_
  split
  · exact Keeps.pure _
  · exact cancel_noted hf _ d

theorem Noted.deleteComment (h : Noted conf frees deletes w₀ w) (hd : deletes i c) :
    Noted conf frees deletes w₀ (w.delComment i c) := by
  refine h.move rfl ?_
  rw [delComment_ledger]
  exact .delete hd

theorem Noted.addComment {x : Comment} (h : Noted conf frees deletes w₀ w) : Noted conf frees deletes w₀ (w.addComment i x) := by
  refine h.move rfl ?_
  have hl : (w.addComment i x).ledger = w.ledger.write i w.ledger.lent := Ledger.ext rfl rfl (notes_addComment w i x) rfl rfl
  rw [hl]
  exact .write fun _ => Or.inr

/-! ## The events -/

def Event.Closes : Event → Prop
  | .updateDowntimesAndComments => True
  | .command (.delDowntime ..) => True
  | _ => False

/-- The event is a command that deletes the comment `c` of item `i`. -/
def Event.Deletes (conf : Conf) (w : World) (i c : Nat) : Event → Prop
  | .command (.delComment t c') =>
    (itemsOfType conf t).find? (fun i => ((w.comments i).get? c').isSome) = some i ∧ c' = c
  | .command (.delAllComments j) => j = i ∧ c ∈ (w.comments i).keys
  | _ => False

theorem command_noted (cmd : Command) : Noted conf (Event.command cmd).Closes (fun i c => (Event.command cmd).Deletes conf w i c) w
    (stateAfter (runCommand conf env cmd w)) := by
  cases cmd with
  | acknowledgeProblem i sticky notify endTime => exact acknowledgeProblem_noted (.refl w)
  | removeAcknowledgement i => exact unacknowledgeProblem_noted (.refl w)
  | scheduleDowntime i fixed startTime endTime duration t =>
    exact (scheduleDowntime_noted i fixed startTime endTime duration t w (.refl w)).1
  | delDowntime t d => exact (delDowntimeCommand_noted trivial t d w (.refl w)).1
  | changeMaxCheckAttempts i n =>
    refine ⟨fun j => ?_, .refl⟩
    show ((changeMaxCheckAttempts conf i n w).checkState j).outcome = _
    unfold changeMaxCheckAttempts
    by_cases hj : j = i
    · subst hj
      simp only [World.modifyCheckState_self]
      split <;> rfl
    · simp only
      rw [World.modifyCheckState_ne _ hj]
      rfl
  | changeSettings i f => exact ⟨fun _ => rfl, .refl⟩
  | disableFlapDetection i => exact (Noted.refl w).still (disableFlapDetection_still i w)
  | addComment i => exact (Noted.refl w).addComment
  | delComment t c =>
    show Noted _ _ _ _ (delCommentCommand conf t c w)
    unfold delCommentCommand
    cases hi : (itemsOfType conf t).find? fun i => ((w.comments i).get? c).isSome with
    | none => exact .refl w
    | some i => exact (Noted.refl w).deleteComment ⟨hi, rfl⟩
  | delAllComments i =>
    refine List.foldlRecOn (w.comments i).keys _ (Noted.refl w) fun u hu c hc => ?_
    exact hu.deleteComment ⟨rfl, hc⟩

theorem event_noted {ev : Event} (hev : ∀ k, ev ≠ .consumeResult k) :
    Noted conf ev.Closes (fun i c => ev.Deletes conf w i c) w (stateAfter (runEvent conf env ev w)) := by
  cases ev with
  | receiveResult k chk => exact ⟨fun _ => rfl, .refl⟩
  | consumeResult k => exact absurd rfl (hev k)
  | updateDowntimesAndComments => exact (updateDowntimesAndComments_noted trivial w (.refl w)).1
  | checkForExpireAcknowledge => exact expireAcknowledge_noted (.refl w)
  | getNewActions | scatterMasterNotifications | getToRunActions _ | manageNotificationResult _ _ | cleanQueues _
  | deleteZombieActions | checkOrphaned _ => exact (Noted.refl w).still (runEvent_still conf env rfl w)
  | command cmd => exact command_noted cmd

end

end Alignak.Scheduling
