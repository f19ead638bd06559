import Alignak.DowntimeDepth

/-!
# Runs of downtime events

In a run the depth of each item counts its downtimes in effect, unless a
downtime is cancelled that is not in effect, or one starts again that has ended.
-/

namespace Alignak.Scheduling

section
variable {conf : Conf} {env : Env} {w s s' : World} {i j d c k fuel : Nat} {x y : Downtime}

/-! ## Runs of downtime events -/

/-- What happens to the downtimes of the items: `other` is any change of the
rest of the world. -/
inductive DowntimeEvent
  | schedule (i : Nat) (fixed : Bool) (startTime endTime duration : Int) (triggerId : Option Nat)
  | update
  | checkForFlexible (i : Nat)
  | enter (i d : Nat)
  | exit (i d : Nat)
  | cancel (i d : Nat)
  | delete (i : Nat)
  | other

namespace DowntimeEvent

def run (conf : Conf) (env : Env) : DowntimeEvent → Sched Unit
  | schedule i fixed startTime endTime duration triggerId => scheduleDowntime conf i fixed startTime endTime duration triggerId
  | update => updateDowntimesAndComments conf env
  | checkForFlexible i => checkForFlexibleDowntime conf env i
  | enter i d => enterDowntime conf env i d
  | exit i d => modify (Downtime.exit conf env i d)
  | cancel i d => Downtime.cancel i d
  | delete i => modify (deleteMarked i)
  | other => pure ⟨⟩

def Enabled (w : World) : DowntimeEvent → Prop
  | schedule _ _ _ _ _ triggerId => triggerId ≠ some w.nextDowntime
  | _ => True

/-- A downtime is cancelled while it is in effect. What starts has no trigger
and is not in effect, and neither it nor what hangs on it has ended before. -/
def InOrder (w : World) : DowntimeEvent → Prop
  | cancel i d => ∀ x, w.downtime? i d = some x → x.isInEffect = true
  | checkForFlexible i => ∀ d x, w.downtime? i d = some x → x.activable (w.checkState i) = true → w.Fresh d
  | enter i d => ∀ x, w.downtime? i d = some x → x.triggerId = none ∧ x.isInEffect = false ∧ w.Fresh d
  | _ => True

end DowntimeEvent

inductive DowntimeStep (conf : Conf) (w : World) : DowntimeEvent → World → Prop
  | ran (env : Env) (ev : DowntimeEvent) (enabled : ev.Enabled w) : DowntimeStep conf w ev (stateAfter (ev.run conf env w))
  | other {w' : World} (hd : w'.downtime = w.downtime) (hn : w'.nextDowntime = w.nextDowntime) : DowntimeStep conf w .other w'

inductive DowntimeRun (conf : Conf) (w₀ : World) : List (World × DowntimeEvent) → World → Prop
  | nil : DowntimeRun conf w₀ [] w₀
  | snoc {trace : List (World × DowntimeEvent)} {w w' : World} {ev : DowntimeEvent} (h : DowntimeRun conf w₀ trace w)
      (hs : DowntimeStep conf w ev w') : DowntimeRun conf w₀ (trace ++ [(w, ev)]) w'

theorem checkForFlexibleDowntime_standing (h : Standing conf w) (hfresh : (DowntimeEvent.checkForFlexible i).InOrder w) :
    Standing conf (stateAfter (checkForFlexibleDowntime conf env i w)) := by
  have hturns : Keeps (fun s => Standing conf s ∧ s.links = w.links ∧ s.checkState = w.checkState ∧
      (∀ j c, (s.downtime? j c).map Downtime.canBeDeleted = (w.downtime? j c).map Downtime.canBeDeleted) ∧
      ∀ j c y, s.downtime? j c = some y → y.isInEffect = true ∨ w.downtime? j c = some y)
      (checkForFlexibleDowntime conf env i) := by
    refine Keeps.read fun s => Keeps.forM fun d _ => Leads.readAt fun s hs => ?_
    obtain ⟨hS, hlinks, hstate, hmarks, hsame⟩ := hs
    intro t e
    subst e
    cases hx : t.downtime? i d with
    | none => exact ⟨⟨hS, hlinks, hstate, hmarks, hsame⟩, fun _ _ _ => trivial⟩
    | some x =>
      by_cases hact : x.activable (t.checkState i) = true
      · simp only [if_pos hact]
        have hidle : (x.isInEffect = false ∧ x.triggerId = none) := by
          unfold Downtime.activable at hact
          simp only [Bool.and_eq_true, Bool.not_eq_true', Bool.or_eq_false_iff, Option.isNone_iff_eq_none] at hact
          exact ⟨hact.1.1.1.1.2, hact.2⟩
        have hwx : w.downtime? i d = some x := (hsame i d x hx).resolve_left (by rw [hidle.1]; exact Bool.false_ne_true)
        have hF : t.Fresh d := by
          intro c hc j y hy
          have hc' : w.Hangs d c := (hangs_iff_of_links hlinks).mp hc
          obtain ⟨z, hz, -⟩ := entry_of_links hlinks hy
          have hm := hmarks j c
          rw [hy, hz, Option.map_some, Option.map_some, Option.some.injEq] at hm
          rw [hm]
          exact hfresh d x hwx (hstate ▸ hact) c hc' j z hz
        obtain ⟨w', hw', hS', hst, hmarks'⟩ := hS.enter hx env hidle.2 hidle.1 hF
        have hcore : (stateAfter (Scheduling.enterDowntime conf env i d t)).core = t.core := enterDowntime_core i d t
        rw [hw'] at hcore ⊢
        refine ⟨⟨hS', hst.links.trans hlinks, (World.core_eq hcore).2.1.trans hstate, fun j c => (hmarks' j c).trans (hmarks j c),
          fun j c y hy => ?_⟩, fun _ _ e => nomatch e⟩
        obtain ⟨z, hz, -⟩ := entry_of_links hst.links hy
        by_cases hc : t.Hangs d c
        · obtain ⟨y', hy', hon⟩ := hst.inside hz hc
          rw [show w'.downtime? j c = some y from hy] at hy'
          cases hy'
          exact .inl hon
        · have hout := hst.outside hz hc
          rw [show w'.downtime? j c = some y from hy] at hout
          cases hout
          exact hsame j c y hz
      · simp only [if_neg hact]
        exact ⟨⟨hS, hlinks, hstate, hmarks, hsame⟩, fun _ _ e => nomatch e⟩
  exact (hturns w ⟨h, rfl, rfl, fun _ _ => rfl, fun _ _ y hy => .inr hy⟩).1.1

theorem DowntimeStep.standing {ev : DowntimeEvent} (hs : DowntimeStep conf w ev s) (h : Standing conf w) (ho : ev.InOrder w) :
    Standing conf s := by
  cases hs with
  | other hd hn => exact h.of_downtime hd hn
  | ran env ev enabled =>
    cases ev with
    | schedule i fixed startTime endTime duration triggerId => exact h.scheduleDowntime fixed startTime endTime duration enabled
    | update => exact (updateDowntimesAndComments_standing w h).1
    | checkForFlexible i => exact checkForFlexibleDowntime_standing h ho
    | enter i d =>
      cases hx : w.downtime? i d with
      | none =>
        show Standing conf (stateAfter (Downtime.enter conf env (w.nextDowntime + 1) i d w))
        rw [Downtime.enter, get_bind, hx]
        exact h
      | some x =>
        obtain ⟨hroot, hoff, hfresh⟩ := ho x hx
        obtain ⟨w', hw', h', -⟩ := h.enter hx env hroot hoff hfresh
        show Standing conf (stateAfter (enterDowntime conf env i d w))
        rw [hw']
        exact h'
    | exit i d =>
      show Standing conf (Downtime.exit conf env i d w)
      cases hx : w.downtime? i d with
      | none =>
        rw [Downtime.exit, hx]
        exact h
      | some x => exact h.exit hx
    | cancel i d =>
      show Standing conf (stateAfter (Downtime.cancel i d w))
      cases hx : w.downtime? i d with
      | none =>
        rw [Downtime.cancel, get_bind, hx]
        exact h
      | some x =>
        rw [cancel_eq hx]
        split
        · exact h.cancel hx (ho x hx)
        · exact h.cancel hx (ho x hx)
    | delete i => exact (h.deleteMarked i).1
    | other => exact h

theorem Initial.standing (h : Initial w) : Standing conf w := by
  have hnone : ∀ i d, w.downtime? i d = none := by
    intro i d
    unfold World.downtime?
    rw [h.downtime i]
    rfl
  refine ⟨h.linked, fun i => ?_, fun i => ?_, fun hx => ?_, fun hx => ?_, fun hx => ?_⟩
  · rw [h.downtime i]
    exact ⟨rfl, by simp⟩
  · rw [h.downtime i]
    exact List.Pairwise.nil
  all_goals
    rw [hnone] at hx
    cases hx

theorem DowntimeRun.standing {w₀ : World} {trace : List (World × DowntimeEvent)} (h : DowntimeRun conf w₀ trace w) (h0 : Initial w₀)
    (ho : ∀ t ∈ trace, t.2.InOrder t.1) : Standing conf w := by
  induction h with
  | nil => exact h0.standing
  | snoc _ hs ih =>
    exact hs.standing (ih fun t ht => ho t (List.mem_append_left _ ht)) (ho _ (List.mem_append_right _ List.mem_cons_self))

/-- As long as the downtimes are started and cancelled in order, the depth of an
item is the number of its downtimes in effect. -/
theorem DowntimeRun.depth_counts {w₀ : World} {trace : List (World × DowntimeEvent)} (h : DowntimeRun conf w₀ trace w) (h₀ : Initial w₀)
    (ho : ∀ t ∈ trace, t.2.InOrder t.1) (i : Nat) :
    (w.downtime i).scheduledDowntimeDepth = (w.downtime i).downtimes.count Downtime.isInEffect ∧
    0 ≤ (w.downtime i).scheduledDowntimeDepth ∧
    ((w.downtime i).inScheduledDowntime = true ↔ 0 < (w.downtime i).downtimes.count Downtime.isInEffect) := by
  have hcounted := (h.standing h₀ ho).counted i
  refine ⟨hcounted.depth, ?_, hcounted.flag⟩
  rw [hcounted.depth]
  exact Int.natCast_nonneg _

/-! ## A downtime and its ends -/

def waitingWorld : World := stateAfter ((DowntimeEvent.schedule 0 true 100 200 100 none).run oneHost (plainEnv 10) startWorld)

def runningWorld : World := stateAfter (DowntimeEvent.update.run oneHost (plainEnv 150) waitingWorld)

theorem waiting_run : DowntimeRun oneHost startWorld ([] ++ [(startWorld, .schedule 0 true 100 200 100 none)]) waitingWorld :=
  DowntimeRun.nil.snoc (.ran (plainEnv 10) _ (Option.some_ne_none _).symm)

theorem running_downtime : (runningWorld.downtime? 0 0).any Downtime.isInEffect = true := by decide

/-- The cancellation of the downtime that runs. -/
theorem running_cancelled :
    ((stateAfter (Downtime.cancel 0 0 runningWorld)).downtime 0).scheduledDowntimeDepth =
      ((stateAfter (Downtime.cancel 0 0 runningWorld)).downtime 0).downtimes.count Downtime.isInEffect ∧
    0 ≤ ((stateAfter (Downtime.cancel 0 0 runningWorld)).downtime 0).scheduledDowntimeDepth ∧
    (((stateAfter (Downtime.cancel 0 0 runningWorld)).downtime 0).inScheduledDowntime = true ↔
      0 < ((stateAfter (Downtime.cancel 0 0 runningWorld)).downtime 0).downtimes.count Downtime.isInEffect) := by
  have hrun := (waiting_run.snoc (.ran (plainEnv 150) .update trivial)).snoc
    (DowntimeStep.ran (w := runningWorld) (plainEnv 160) (.cancel 0 0) trivial)
  refine hrun.depth_counts startWorld_initial (fun t ht => ?_) 0
  simp only [List.nil_append, List.cons_append, List.mem_cons, List.not_mem_nil, or_false] at ht
  rcases ht with rfl | rfl | rfl
  · trivial
  · trivial
  · intro x hx
    have hx : runningWorld.downtime? 0 0 = some x := hx
    have hon := running_downtime
    rw [hx] at hon
    exact hon

def flexibleWorld : World := stateAfter ((DowntimeEvent.schedule 0 false 50 1000 30 none).run oneHost (plainEnv 10) startWorld)

def World.goDown (w : World) : World := { w with checkState := fun _ => { state := .down, stateId := 1, lastChk := 100 } }

/-- The cancellation of a downtime that has not started makes the depth negative.
A flexible downtime that ends is started again by the next result, and is
deleted while it is in effect. -/
theorem depth_drifts :
    (∃ trace w, DowntimeRun oneHost startWorld trace w ∧ (w.downtime 0).scheduledDowntimeDepth = -1) ∧
    ∃ trace w, DowntimeRun oneHost startWorld trace w ∧ (w.downtime 0).scheduledDowntimeDepth = 1 ∧
      (w.downtime 0).inScheduledDowntime = true ∧ (w.downtime 0).downtimes.count Downtime.isInEffect = 0 := by
  constructor
  · exact ⟨_, _, waiting_run.snoc (.ran (plainEnv 20) (.cancel 0 0) trivial), by decide⟩
  · have hmade : DowntimeRun oneHost startWorld ([] ++ [(startWorld, .schedule 0 false 50 1000 30 none)]) flexibleWorld :=
      DowntimeRun.nil.snoc (.ran (plainEnv 10) _ (Option.some_ne_none _).symm)
    have hquiet : DowntimeStep oneHost flexibleWorld .other flexibleWorld.goDown := .other rfl rfl
    have hdown := hmade.snoc hquiet
    have hstarted := hdown.snoc (.ran (plainEnv 100) (.checkForFlexible 0) trivial)
    have hended := hstarted.snoc (.ran (plainEnv 200) .update trivial)
    have hagain := hended.snoc (.ran (plainEnv 201) (.checkForFlexible 0) trivial)
    exact ⟨_, _, hagain.snoc (.ran (plainEnv 202) .update trivial), by decide⟩

end

end Alignak.Scheduling
