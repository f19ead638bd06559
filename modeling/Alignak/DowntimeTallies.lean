import Alignak.DowntimeLinks

/-!
# The depth of an item

The depth counts the downtimes in effect. It stays right when a downtime starts
that is not in effect, when one ends or is cancelled that is, and when one is
deleted that is not.
-/

namespace Alignak.Scheduling

/-! ## The downtimes of an item -/

namespace DowntimeState

structure Counted (s : DowntimeState) : Prop where
  depth : s.scheduledDowntimeDepth = s.downtimes.count Downtime.isInEffect
  flag : s.inScheduledDowntime = true ↔ 0 < s.downtimes.count Downtime.isInEffect

def leave (s : DowntimeState) : DowntimeState :=
  { s with
    scheduledDowntimeDepth := s.scheduledDowntimeDepth + -1
    inScheduledDowntime := if s.scheduledDowntimeDepth + -1 = 0 then false else s.inScheduledDowntime }

namespace Counted

variable {s : DowntimeState} {d : Nat} {x y : Downtime} (h : s.Counted)
include h

theorem alike (hx : s.downtimes.get? d = some x) (hy : y.isInEffect = x.isInEffect) :
    Counted { s with downtimes := s.downtimes.set d y } := by
  have hcount := Dict.count_set_old (v := y) Downtime.isInEffect hx
  rw [hy] at hcount
  have hsame : (s.downtimes.set d y).count Downtime.isInEffect = s.downtimes.count Downtime.isInEffect := by omega
  refine ⟨?_, ?_⟩
  · rw [hsame]
    exact h.depth
  · rw [hsame]
    exact h.flag

theorem start (hx : s.downtimes.get? d = some x) (hold : x.isInEffect = false) (hy : y.isInEffect = true) :
    Counted { s with
      downtimes := s.downtimes.set d y
      scheduledDowntimeDepth := s.scheduledDowntimeDepth + 1
      inScheduledDowntime := true } := by
  have hcount := Dict.count_set_old (v := y) Downtime.isInEffect hx
  simp only [hold, hy, if_true, Bool.false_eq_true, if_false] at hcount
  have hdepth := h.depth
  refine ⟨?_, ?_⟩
  · show s.scheduledDowntimeDepth + 1 = ((s.downtimes.set d y).count Downtime.isInEffect : Nat)
    omega
  · have hpos : 0 < (s.downtimes.set d y).count Downtime.isInEffect := by omega
    exact iff_of_true rfl hpos

theorem stop (hx : s.downtimes.get? d = some x) (hold : x.isInEffect = true) (hy : y.isInEffect = false) :
    Counted (leave { s with downtimes := s.downtimes.set d y }) := by
  have hcount := Dict.count_set_old (v := y) Downtime.isInEffect hx
  simp only [hold, hy, if_true, Bool.false_eq_true, if_false] at hcount
  have hdepth := h.depth
  have hflag := h.flag
  refine ⟨?_, ?_⟩
  · show s.scheduledDowntimeDepth + -1 = ((s.downtimes.set d y).count Downtime.isInEffect : Nat)
    omega
  · show (if s.scheduledDowntimeDepth + -1 = 0 then false else s.inScheduledDowntime) = true ↔
      0 < (s.downtimes.set d y).count Downtime.isInEffect
    split
    · simp only [Bool.false_eq_true, false_iff]
      omega
    · rw [hflag]
      omega

theorem add (hnew : s.downtimes.get? d = none) (hy : y.isInEffect = false) :
    Counted { s with downtimes := s.downtimes.set d y } := by
  have hcount := Dict.count_set_new (v := y) Downtime.isInEffect hnew
  simp only [hy, Bool.false_eq_true, if_false, Nat.add_zero] at hcount
  refine ⟨?_, ?_⟩
  · rw [hcount]
    exact h.depth
  · rw [hcount]
    exact h.flag

theorem erase (hx : s.downtimes.get? d = some x) (hold : x.isInEffect = false) :
    Counted { s with downtimes := s.downtimes.erase d } := by
  have hcount := Dict.count_erase Downtime.isInEffect hx
  simp only [hold, Bool.false_eq_true, if_false, Nat.add_zero] at hcount
  refine ⟨?_, ?_⟩
  · rw [hcount]
    exact h.depth
  · rw [hcount]
    exact h.flag

end Counted

end DowntimeState

section
variable {conf : Conf} {env : Env} {w s s' : World} {i j d c k fuel : Nat} {x y : Downtime}

/-! ## The tables -/

def Tallied (ks : Nat → List Nat) (w : World) : Prop :=
  ∀ i, (w.downtime i).Counted ∧ (w.downtime i).downtimes.keys = ks i

theorem changeDowntime_downtime (hx : w.downtime? i d = some x) (f : Downtime → Downtime) (j : Nat) :
    (w.changeDowntime i d f).downtime j =
      if j = i then { w.downtime i with downtimes := (w.downtime i).downtimes.set d (f x) } else w.downtime j := by
  unfold World.changeDowntime
  rw [hx]
  exact Function.update_apply ..

theorem cancelDepth_downtime (i : Nat) (w : World) (j : Nat) :
    (cancelDepth i w).downtime j = if j = i then (w.downtime i).leave else w.downtime j := by
  have hdepth : ((w.changeDepth i (-1)).downtime i).scheduledDowntimeDepth = (w.downtime i).scheduledDowntimeDepth + -1 := by
    rw [World.changeDepth, World.modifyDowntime_self]
  unfold cancelDepth
  simp only [hdepth]
  by_cases hj : j = i
  · subst hj
    rw [if_pos rfl, DowntimeState.leave]
    split
    · rw [World.setInScheduledDowntime, World.modifyDowntime_self, World.changeDepth, World.modifyDowntime_self]
    · rw [World.changeDepth, World.modifyDowntime_self]
  · rw [if_neg hj]
    split
    · rw [World.setInScheduledDowntime, World.modifyDowntime_ne _ hj, World.changeDepth, World.modifyDowntime_ne _ hj]
    · rw [World.changeDepth, World.modifyDowntime_ne _ hj]

theorem endDowntime_downtime (i : Nat) (w : World) : (endDowntime conf env i w).downtime = (cancelDepth i w).downtime := by
  have hquiet : (createNotifications conf env i .downtimeEnd ((w.changeDepth i (-1)).settings i).notificationPeriod
      (w.changeDepth i (-1))).downtime = (w.changeDepth i (-1)).downtime := (World.quiet_eq (createNotifications_quiet ..)).2.2.2.1
  unfold endDowntime cancelDepth
  simp only
  split
  · unfold World.setInScheduledDowntime World.modifyDowntime
    simp only [hquiet]
  · rfl

section
variable {ks : Nat → List Nat} (h : Tallied ks w)
include h

theorem Tallied.of_downtime (hd : s.downtime = w.downtime) : Tallied ks s := by
  intro j
  rw [hd]
  exact h j

theorem Tallied.update (hi : (s.downtime i).Counted ∧ (s.downtime i).downtimes.keys = ks i)
    (hne : ∀ j, j ≠ i → s.downtime j = w.downtime j) : Tallied ks s := by
  intro j
  by_cases hj : j = i
  · subst hj
    exact hi
  · rw [hne j hj]
    exact h j

theorem Tallied.change {f : Downtime → Downtime} (hx : w.downtime? i d = some x) (hf : (f x).isInEffect = x.isInEffect) :
    Tallied ks (w.changeDowntime i d f) := by
  have hd := changeDowntime_downtime hx f
  apply h.update (i := i)
  · rw [hd, if_pos rfl]
    refine ⟨(h i).1.alike hx hf, ?_⟩
    exact (Dict.keys_set_old (by rw [show (w.downtime i).downtimes.get? d = some x from hx]; simp)).trans (h i).2
  · intro j hj
    rw [hd, if_neg hj]

theorem Tallied.start (hl : Linked conf w) (hx : w.downtime? i d = some x) (hold : x.isInEffect = false) :
    Tallied ks (w.startDowntime conf env i d x) := by
  have href := hl.ref hx
  have hd : (w.startDowntime conf env i d x).downtime =
      (((w.addDowntime i d (x.started env.now)).changeDepth i 1).setInScheduledDowntime i true).downtime := by
    unfold World.startDowntime
    rw [href]
    exact (World.quiet_eq (raiseEnterDowntime_quiet ..)).2.2.2.1
  apply h.update (i := i)
  · rw [hd]
    simp only [World.setInScheduledDowntime, World.changeDepth, World.addDowntime, World.modifyDowntime_self]
    refine ⟨(h i).1.start hx hold rfl, ?_⟩
    exact (Dict.keys_set_old (by rw [show (w.downtime i).downtimes.get? d = some x from hx]; simp)).trans (h i).2
  · intro j hj
    rw [hd]
    simp only [World.setInScheduledDowntime, World.changeDepth, World.addDowntime, World.modifyDowntime_ne _ hj]

theorem Tallied.stop (hx : w.downtime? i d = some x) (hold : x.isInEffect = true) :
    Tallied ks (cancelDepth i (w.changeDowntime i d fun x => { x with isInEffect := false })) := by
  have hd := changeDowntime_downtime hx fun x => { x with isInEffect := false }
  apply h.update (i := i)
  · rw [cancelDepth_downtime, if_pos rfl, hd, if_pos rfl]
    refine ⟨(h i).1.stop hx hold rfl, ?_⟩
    exact (Dict.keys_set_old (by rw [show (w.downtime i).downtimes.get? d = some x from hx]; simp)).trans (h i).2
  · intro j hj
    rw [cancelDepth_downtime, if_neg hj, hd, if_neg hj]

end

theorem downtime?_cancelDepth (i : Nat) (w : World) : (cancelDepth i w).downtime? = w.downtime? := by
  funext j c
  unfold World.downtime?
  rw [cancelDepth_downtime]
  split
  · rename_i hj
    rw [hj]
    rfl
  · rfl

theorem delDowntimeComment_downtime (i : Nat) (comment : Option Nat) (w : World) :
    (w.delDowntimeComment i comment).downtime = w.downtime := by cases comment <;> rfl

theorem downtime?_of_downtime (h : s.downtime = w.downtime) : s.downtime? = w.downtime? := by
  unfold World.downtime?
  rw [h]

/-! ## Ends and cancellations -/

section
variable {ks : Nat → List Nat}

theorem Tallied.mark (h : Tallied ks s) (hx : s.downtime? i d = some x) (comment : Option Nat) {f : Downtime → Downtime}
    (hf : (f x).isInEffect = x.isInEffect) {g : AckState → AckState} :
    Tallied ks (((s.delDowntimeComment j comment).changeDowntime i d f).modifyAck k g) := by
  have hdel : Tallied ks (s.delDowntimeComment j comment) := h.of_downtime (delDowntimeComment_downtime j comment s)
  have hx' : (s.delDowntimeComment j comment).downtime? i d = some x := by
    rw [downtime?_of_downtime (delDowntimeComment_downtime j comment s)]
    exact hx
  exact (hdel.change hx' hf).of_downtime rfl

theorem downtime?_mark (hx : s.downtime? i d = some x) (comment : Option Nat) (f : Downtime → Downtime) (g : AckState → AckState)
    (j' c : Nat) : (((s.delDowntimeComment j comment).changeDowntime i d f).modifyAck k g).downtime? j' c =
      if j' = i ∧ c = d then some (f x) else s.downtime? j' c := by
  show ((s.delDowntimeComment j comment).changeDowntime i d f).downtime? j' c = _
  rw [downtime?_changeDowntime, downtime?_of_downtime (delDowntimeComment_downtime j comment s), hx]
  rfl

theorem endDowntime_off (hx : w.downtime? i d = some x) :
    (endDowntime conf env i (w.changeDowntime i d fun x => { x with isInEffect := false })).downtime? i d =
      some { x with isInEffect := false } ∧
    ∀ j c, ¬ (j = i ∧ c = d) →
      (endDowntime conf env i (w.changeDowntime i d fun x => { x with isInEffect := false })).downtime? j c = w.downtime? j c := by
  rw [downtime?_of_downtime (endDowntime_downtime i _), downtime?_cancelDepth]
  constructor
  · rw [downtime?_changeDowntime, if_pos ⟨rfl, rfl⟩, hx]
    rfl
  · intro j c hjc
    rw [downtime?_changeDowntime, if_neg hjc]

theorem exit_eq (hl : Linked conf w) (hx : w.downtime? i d = some x) : Downtime.exit conf env i d w =
    (((if x.isInEffect then endDowntime conf env i (w.changeDowntime i d fun x => { x with isInEffect := false }) else w).delDowntimeComment
      i x.commentId).changeDowntime i d fun x => { x with canBeDeleted := true }).modifyAck i fun a =>
        { a with inScheduledDowntimeDuringLastCheck := true } := by
  unfold Downtime.exit
  rw [hx]
  simp only [hl.ref hx]

theorem Tallied.exit (h : Tallied ks w) (hl : Linked conf w) (hx : w.downtime? i d = some x) :
    Tallied ks (Downtime.exit conf env i d w) := by
  rw [exit_eq hl hx]
  by_cases hon : x.isInEffect = true
  · rw [if_pos hon]
    have hstop := h.stop hx hon
    exact Tallied.mark (hstop.of_downtime (endDowntime_downtime i _)) (endDowntime_off hx).1 x.commentId rfl
  · rw [if_neg hon]
    exact h.mark hx x.commentId rfl

def Downtime.ended (x : Downtime) : Downtime := { x with isInEffect := false, canBeDeleted := true }

theorem downtime?_exit (hl : Linked conf w) (hx : w.downtime? i d = some x) (j c : Nat) :
    (Downtime.exit conf env i d w).downtime? j c = if j = i ∧ c = d then some x.ended else w.downtime? j c := by
  rw [exit_eq hl hx]
  by_cases hon : x.isInEffect = true
  · rw [if_pos hon, downtime?_mark (endDowntime_off hx).1]
    split
    · rfl
    · exact (endDowntime_off hx).2 j c ‹_›
  · rw [if_neg hon, downtime?_mark hx]
    have hoff : x.isInEffect = false := by simpa using hon
    unfold Downtime.ended
    rw [← hoff]

theorem Tallied.cancel (h : Tallied ks w) (hl : Linked conf w) (hx : w.downtime? i d = some x) (hon : x.isInEffect = true) :
    Tallied ks (w.cancelDowntime i d x) := by
  unfold World.cancelDowntime
  rw [hl.ref hx]
  have hx' : (cancelDepth i (w.changeDowntime i d fun x => { x with isInEffect := false })).downtime? i d =
      some { x with isInEffect := false } := by
    rw [downtime?_cancelDepth, downtime?_changeDowntime, if_pos ⟨rfl, rfl⟩, hx]
    rfl
  exact (h.stop hx hon).mark hx' x.commentId rfl

end

end

end Alignak.Scheduling
