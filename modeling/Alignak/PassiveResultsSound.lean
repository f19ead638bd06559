import Alignak.CheckLookups
import Alignak.PassiveResults

/-!
# No passive result is lost

An accepted command puts its result at the end of the queue of its item, and a
pass takes the results out of the queues: what has been accepted is what has
been consumed, followed by what waits.
-/

namespace Alignak.Checking

open Scheduling

variable {done : List Nat}

section
variable {conf : Conf} {env : Env} {u w v : World} {c i : Nat}

/-! ## An accepted result -/

theorem mem_progress (w : World) : c ∈ ((updateInChecking i (w.modifyItem i fun x =>
    { x with checksInProgress := x.checksInProgress ++ [c] })).item i).checksInProgress := by
  unfold updateInChecking
  rw [modifyItem_modifyItem, modifyItem_self]
  exact List.mem_append_right _ List.mem_cons_self

theorem launchNewCheck_eq {t : Int} {r : Option Nat} {b : Bool} (hn : isNotLaunched conf w i b = false) :
    launchNewCheck conf env i t r b w = .ok (some w.nextCheck) (updateInChecking i
      ((newCheck env i t r false ((w.items.settings i).gotBusinessRule || env.isInternalCommand i) w).modifyItem i fun x =>
        { x with checksInProgress := x.checksInProgress ++ [w.nextCheck] })) := by
  show (if isNotLaunched conf w i b = true then _ else _ : Sched (Option Nat)) _ = _
  rw [hn]
  rfl

structure LaunchedFor (i c : Nat) (w u : World) : Prop where
  spared : Spared w u
  mem : c ∈ (u.item i).checksInProgress

theorem launchCheck_forced (t : Int)
    (hl : forcedCheck (updateInChecking i w) i true = none → isNotLaunched conf w i false = false) :
    ∃ c u, launchCheck conf env i t none true false w = .ok (some c) u ∧ LaunchedFor i c w u := by
  have hfirst : Spared w (updateInChecking i w) := spared_modifyItem fun _ => rfl
  cases hf : forcedCheck (updateInChecking i w) i true with
  | some c =>
    refine ⟨c, (updateInChecking i w).modifyData c fun x => { x with tToGo := env.now }, ?_,
      hfirst.trans (spared_modifyResult fun _ => rfl), ?_⟩
    · unfold launchCheck
      rw [modify_bind, get_bind, hf]
      rfl
    · unfold forcedCheck at hf
      split at hf
      · exact List.mem_of_mem_head? (Option.filter_eq_some_iff.mp hf).1
      · cases hf
  | none =>
    have hn : isNotLaunched conf (updateInChecking i w) i false = false := by
      refine Eq.trans ?_ (hl hf)
      unfold isNotLaunched updateInChecking
      rw [modifyItem_self]
    have hr : launchCheck conf env i t none true false w = launchNewCheck conf env i t none false (updateInChecking i w) := by
      unfold launchCheck
      rw [modify_bind, get_bind, hf]
      rfl
    refine ⟨_, _, hr.trans (launchNewCheck_eq hn), hfirst.trans spared_launched, ?_⟩
    exact mem_progress _

def fillResult (c : Nat) (r : PassiveResult) (w : World) : World :=
  addCheck c ((w.modifyCheck c fun x =>
    { x with exitStatus := r.exitStatus, status := .waitConsume, checkTime := r.timestamp }).modifyData c fun x =>
    { x with output := r.output, longOutput := r.longOutput, perfData := r.perfData, passiveCheck := true })

structure Filled (i : Nat) (r : PassiveResult) (w v : World) : Prop where
  placed : Placed v
  consumed : v.consumed = w.consumed
  self : v.pendingResults i = [r]
  other : ∀ j, j ≠ i → v.pendingResults j = w.pendingResults j

theorem addCheck_parts (c : Nat) (w : World) : (addCheck c w).items = w.items ∧ (addCheck c w).data = w.data ∧
    (addCheck c w).item = w.item ∧ (addCheck c w).nextCheck = w.nextCheck ∧ (addCheck c w).consumed = w.consumed ∧
    w.checks ⊆ (addCheck c w).checks ∧ c ∈ (addCheck c w).checks := by
  unfold addCheck
  split
  · exact ⟨rfl, rfl, rfl, rfl, rfl, fun _ => id, ‹_›⟩
  · exact ⟨rfl, rfl, rfl, rfl, rfl, fun _ => List.mem_append_left _, List.mem_append_right _ List.mem_cons_self⟩

theorem fillResult_filled {r : PassiveResult} (h : Placed w) (he : w.holds i = []) (hc : c ∈ (w.item i).checksInProgress) :
    Filled i r w (fillResult c r w) := by
  obtain ⟨hk, hr⟩ := h.known i c hc
  obtain ⟨h1, h2, h3, h4, h5, h6, h7⟩ := addCheck_parts c ((w.modifyCheck c fun x =>
    { x with exitStatus := r.exitStatus, status := .waitConsume, checkTime := r.timestamp }).modifyData c fun x =>
    { x with output := r.output, longOutput := r.longOutput, perfData := r.perfData, passiveCheck := true })
  have hitem : (fillResult c r w).item = w.item := h3
  have hnext : (fillResult c r w).nextCheck = w.nextCheck := h4
  have hself : (fillResult c r w).check c =
        { w.check c with exitStatus := r.exitStatus, status := .waitConsume, checkTime := r.timestamp } ∧
      (fillResult c r w).data c =
        { w.data c with output := r.output, longOutput := r.longOutput, perfData := r.perfData, passiveCheck := true } := by
    constructor
    · show (fillResult c r w).items.check c = _
      unfold fillResult
      rw [h1]
      exact Function.update_self ..
    · unfold fillResult
      rw [h2]
      exact Function.update_self ..
  have hne : ∀ d, d ≠ c → (fillResult c r w).check d = w.check d ∧ (fillResult c r w).data d = w.data d := fun d hd => by
    constructor
    · show (fillResult c r w).items.check d = _
      unfold fillResult
      rw [h1]
      exact Function.update_of_ne hd ..
    · unfold fillResult
      rw [h2]
      exact Function.update_of_ne hd ..
  have href : ∀ d, ((fillResult c r w).check d).ref = (w.check d).ref := fun d => by
    by_cases hd : d = c
    · rw [hd, hself.1]
    · rw [(hne d hd).1]
  have hself_holds : (fillResult c r w).holds i = [c] := by
    have hflag : ∀ d ∈ (w.item i).checksInProgress, ((fillResult c r w).data d).passiveCheck = decide (d = c) := fun d hd => by
      by_cases hdc : d = c
      · rw [hdc, hself.2]
        simp
      · rw [(hne d hdc).2, Placed.flag_of_holds he d hd, decide_eq_false hdc]
    unfold World.holds
    rw [hitem, List.filter_congr hflag, List.filter_eq c, List.count_eq_one_of_mem (h.nodup i) hc]
    rfl
  have hother : ∀ j, j ≠ i → (fillResult c r w).holds j = w.holds j := fun j hj => by
    unfold World.holds
    rw [hitem]
    refine List.filter_congr fun d hd => ?_
    have hdc : d ≠ c := by
      rintro rfl
      exact hj ((h.known j d hd).2.symm.trans hr)
    rw [(hne d hdc).2]
  have hwaits : (fillResult c r w).waits c := Or.inl (by rw [hself.1])
  refine ⟨⟨fun j => ?_, fun j d hd => ?_, fun d hd hp => ?_, fun j => ?_⟩, h5, ?_, fun j hj => ?_⟩
  · rw [hitem]
    exact h.nodup j
  · rw [hitem] at hd
    rw [hnext, href]
    exact h.known j d hd
  · rw [hnext] at hd
    rw [href, hitem]
    by_cases hdc : d = c
    · subst hdc
      exact Or.inl ⟨hwaits, hr ▸ hc, h7⟩
    · obtain ⟨g1, g2⟩ := hne d hdc
      rw [g2] at hp
      unfold World.waits World.over
      rw [g1]
      exact (h.passive d hd hp).imp (fun ho => ⟨ho.1, ho.2.1, h6 ho.2.2⟩) id
  · by_cases hj : j = i
    · rw [hj, hself_holds]
      exact le_rfl
    · rw [hother j hj]
      exact h.single j
  · unfold World.pendingResults
    rw [hself_holds, List.map_singleton]
    unfold World.outcome PassiveResult.ofOutcome
    rw [hself.1, hself.2]
  · unfold World.pendingResults
    rw [hother j hj]
    refine List.map_congr_left fun d hd => ?_
    have hdc : d ≠ c := by
      rintro rfl
      exact hj ((h.passive_of_mem hd).2.1.symm.trans hr)
    unfold World.outcome
    rw [(hne d hdc).1, (hne d hdc).2]

theorem processCheckResult_spec {r : PassiveResult} (h : Placed w)
    (hc : Turn.SparesResults conf ⟨w, env, .processCheckResult i r⟩) :
    w.accepts conf env i r = false ∧ processCheckResult conf env i r w = .ok () w ∨
    w.accepts conf env i r = true ∧ ∃ v, processCheckResult conf env i r w = .ok () v ∧ Filled i r w v := by
  by_cases ha : w.accepts conf env i r = true
  · obtain ⟨he, hl⟩ := hc ha
    obtain ⟨c, u, hu, hlaunched⟩ := @launchCheck_forced conf env w i env.now hl
    have hu' : Filled i r u (fillResult c r u) :=
      fillResult_filled (hlaunched.spared.placed h) ((hlaunched.spared.holds h i).trans he) hlaunched.mem
    refine Or.inr ⟨ha, fillResult c r u, ?_, hu'.placed, hu'.consumed.trans hlaunched.spared.consumed, hu'.self, fun j hj =>
      (hu'.other j hj).trans (hlaunched.spared.pendingResults h j)⟩
    unfold World.accepts at ha
    rw [Bool.not_eq_true'] at ha
    show (if _ = true then pure () else _ : Sched Unit) w = _
    rw [if_neg (by rw [ha]; decide), bind_ok hu]
    rfl
  · rw [Bool.not_eq_true] at ha
    refine Or.inl ⟨ha, ?_⟩
    unfold World.accepts at ha
    rw [Bool.not_eq_false'] at ha
    show (if _ = true then pure () else _ : Sched Unit) w = _
    rw [if_pos ha]
    rfl

/-! ## A pass over the results -/

/-- The checks `l` have been consumed since `w`, each of which took its result
out of the queue of its item. -/
structure Consumed (w : World) (l : List Nat) (s : World) : Prop where
  consumed : s.consumed = w.consumed ++ l
  placed : Placed s
  nextCheck : w.nextCheck ≤ s.nextCheck
  flag : ∀ c < w.nextCheck, (s.data c).passiveCheck = (w.data c).passiveCheck
  fresh : ∀ c < s.nextCheck, w.nextCheck ≤ c → (s.data c).passiveCheck = false
  ref : ∀ c < w.nextCheck, (s.check c).ref = (w.check c).ref
  queue : ∀ i, ((l.filter (w.carries i)).map fun c => PassiveResult.ofOutcome (w.outcome c)) ++ s.pendingResults i = w.pendingResults i
  waits : ∀ c < w.nextCheck, (w.data c).passiveCheck = true → s.waits c → w.waits c ∧ s.outcome c = w.outcome c

theorem Consumed.refl (h : Placed w) : Consumed w [] w :=
  ⟨(List.append_nil _).symm, h, le_rfl, fun _ _ => rfl, fun _ hc hn => absurd hc (Nat.not_lt.mpr hn), fun _ _ => rfl,
    fun _ => rfl, fun _ _ _ hw => ⟨hw, rfl⟩⟩

theorem Spared.back (h : Spared w v) (hw : Placed w) (hk : c < w.nextCheck) (hp : (w.data c).passiveCheck = true)
    (hv : v.waits c) : w.waits c := by
  by_contra hn
  exact over_not_waits (h.ended c hk hp (hw.not_waits hk hp hn)) hv

theorem Consumed.spared {l : List Nat} (h : Consumed u l w) (hs : Spared w v) : Consumed u l v where
  consumed := hs.consumed.trans h.consumed
  placed := hs.placed h.placed
  nextCheck := h.nextCheck.trans hs.nextCheck
  flag c hc := (hs.flag c (hc.trans_le h.nextCheck)).trans (h.flag c hc)
  fresh c hc hn := by
    by_cases hw : c < w.nextCheck
    · rw [hs.flag c hw]
      exact h.fresh c hw hn
    · exact hs.fresh c hc (Nat.not_lt.mp hw)
  ref c hc := (hs.ref c (hc.trans_le h.nextCheck)).trans (h.ref c hc)
  queue i := by
    rw [hs.pendingResults h.placed]
    exact h.queue i
  waits c hc hp hw := by
    have hk := hc.trans_le h.nextCheck
    have hp' := (h.flag c hc).trans hp
    have hback := hs.back h.placed hk hp' hw
    obtain ⟨h1, h2⟩ := h.waits c hc hp hback
    exact ⟨h1, (hs.waits c hk hp' hback).2.1.trans h2⟩

structure TakenFrom (c : Nat) (w v : World) : Prop where
  check : ∀ d, (v.check d).ref = (w.check d).ref
  other : ∀ d, d ≠ c → v.check d = w.check d
  ended : v.over c
  data : v.data = w.data
  checks : v.checks = w.checks
  nextCheck : v.nextCheck = w.nextCheck
  consumed : v.consumed = w.consumed ++ [c]
  progress : ∀ j, (v.item j).checksInProgress =
    if j = (w.check c).ref then (w.item j).checksInProgress.erase c else (w.item j).checksInProgress

theorem Finished.takenFrom (h : Finished conf c w v) : TakenFrom c w v := by
  obtain ⟨e, he⟩ := h.check
  refine ⟨fun d => ?_, fun d hd => ?_, ?_, h.data, h.checks, h.nextCheck, h.consumed, fun j => ?_⟩
  · rw [he]
    by_cases hd : d = c
    · subst hd
      rw [Function.update_self]
    · rw [Function.update_of_ne hd]
  · rw [he, Function.update_of_ne hd]
  · unfold World.over
    rw [he, Function.update_self]
    exact (finished_cases (w.check c)).elim (fun hf => Or.inr hf.1) fun hf => Or.inl hf.1
  · rw [h.item]
    exact takeCheck_inProgress j

namespace TakenFrom

theorem mem_progress (h : TakenFrom c w v) {d j : Nat} (hd : d ∈ (v.item j).checksInProgress) :
    d ∈ (w.item j).checksInProgress := by
  rw [h.progress] at hd
  split at hd
  · exact List.mem_of_mem_erase hd
  · exact hd

theorem not_mem (h : TakenFrom c w v) (hw : Placed w) (j : Nat) : c ∉ (v.item j).checksInProgress := by
  rw [h.progress]
  split
  · exact (hw.nodup j).not_mem_erase
  · rename_i hj
    exact fun hm => hj ((hw.known j c hm).2).symm

theorem mem_of_ne (h : TakenFrom c w v) {d j : Nat} (hd : d ≠ c) (hm : d ∈ (w.item j).checksInProgress) :
    d ∈ (v.item j).checksInProgress := by
  rw [h.progress]
  split
  · exact (List.mem_erase_of_ne hd).mpr hm
  · exact hm

theorem holds_sublist (h : TakenFrom c w v) (j : Nat) : (v.holds j).Sublist (w.holds j) := by
  unfold World.holds
  rw [h.data, h.progress]
  refine List.Sublist.filter _ ?_
  split
  · exact List.erase_sublist
  · exact List.Sublist.refl _

theorem placed (h : TakenFrom c w v) (hw : Placed w) : Placed v where
  nodup j := by
    rw [h.progress]
    split
    · exact (hw.nodup j).erase c
    · exact hw.nodup j
  known j d hd := by
    rw [h.nextCheck, h.check]
    exact hw.known j d (h.mem_progress hd)
  passive d hd hp := by
    rw [h.nextCheck] at hd
    rw [h.data] at hp
    rw [h.check, h.checks]
    by_cases hdc : d = c
    · subst hdc
      exact Or.inr ⟨h.ended, h.not_mem hw _⟩
    · have hcheck := h.other d hdc
      unfold World.waits World.over
      rw [hcheck]
      exact (hw.passive d hd hp).imp (fun ho => ⟨ho.1, h.mem_of_ne hdc ho.2.1, ho.2.2⟩) fun ho =>
        ⟨ho.1, fun hm => ho.2 (h.mem_progress hm)⟩
  single j := (h.holds_sublist j).length_le.trans (hw.single j)

theorem holds_eq (h : TakenFrom c w v) (hw : Placed w) (j : Nat) :
    v.holds j = if c ∈ w.holds j then [] else w.holds j := by
  split
  · rename_i hc
    obtain ⟨d, hd⟩ := List.length_eq_one_iff.mp (le_antisymm (hw.single j) (List.length_pos_of_mem hc))
    refine List.eq_nil_iff_forall_not_mem.mpr fun e he => ?_
    have hed := (h.holds_sublist j).mem he
    rw [hd, List.mem_singleton] at hed hc
    rw [hed, ← hc] at he
    exact h.not_mem hw j (List.mem_filter.mp he).1
  · rename_i hc
    unfold World.holds at hc ⊢
    rw [h.data, h.progress]
    split
    · rw [(hw.nodup j).erase_eq_filter, List.filter_filter]
      refine List.filter_congr fun d hd => ?_
      by_cases hp : (w.data d).passiveCheck = true
      · have hdc : d ≠ c := fun e => hc (e ▸ List.mem_filter.mpr ⟨hd, hp⟩)
        simp [hp, hdc]
      · rw [Bool.not_eq_true] at hp
        rw [hp]
        rfl
    · rfl

theorem outcome (h : TakenFrom c w v) {d : Nat} (hd : d ≠ c) : v.outcome d = w.outcome d := by
  unfold World.outcome
  rw [h.other d hd, h.data]

end TakenFrom

theorem Consumed.taken {l : List Nat} (h : Consumed u l w) (hw : w.waits c) (ht : TakenFrom c w v) : Consumed u (l ++ [c]) v where
  consumed := by rw [ht.consumed, h.consumed, List.append_assoc]
  placed := ht.placed h.placed
  nextCheck := ht.nextCheck ▸ h.nextCheck
  flag d hd := by
    rw [ht.data]
    exact h.flag d hd
  fresh d hd hn := by
    rw [ht.nextCheck] at hd
    rw [ht.data]
    exact h.fresh d hd hn
  ref d hd := (ht.check d).trans (h.ref d hd)
  queue i := by
    rw [← h.queue i, List.filter_append, List.map_append, List.append_assoc]
    congr 1
    unfold World.pendingResults
    rw [ht.holds_eq h.placed]
    by_cases hc : c ∈ w.holds i
    · obtain ⟨hk, hr, hp, -⟩ := h.placed.passive_of_mem hc
      have hold : c < u.nextCheck := by
        by_contra hn
        rw [h.fresh c hk (Nat.not_lt.mp hn)] at hp
        cases hp
      have hp' := (h.flag c hold).symm.trans hp
      have hcarries : u.carries i c = true := by
        unfold World.carries
        rw [hp', ← h.ref c hold, hr]
        simp [hold]
      obtain ⟨d, hd⟩ := List.length_eq_one_iff.mp (le_antisymm (h.placed.single i) (List.length_pos_of_mem hc))
      rw [hd, List.mem_singleton] at hc
      rw [hd, ← hc, if_pos List.mem_cons_self, List.filter_singleton, hcarries]
      show [PassiveResult.ofOutcome (u.outcome c)] = [PassiveResult.ofOutcome (w.outcome c)]
      rw [(h.waits c hold hp' hw).2]
    · have hcarries : u.carries i c = false := by
        by_contra hcon
        rw [Bool.not_eq_false] at hcon
        unfold World.carries at hcon
        rw [Bool.and_eq_true, Bool.and_eq_true, decide_eq_true_eq, beq_iff_eq] at hcon
        obtain ⟨⟨hk, hp⟩, hr⟩ := hcon
        have hp' := (h.flag c hk).trans hp
        have hr' := (h.ref c hk).trans hr
        rcases h.placed.passive c (hk.trans_le h.nextCheck) hp' with ⟨-, hm, -⟩ | ⟨ho, -⟩
        · exact hc (List.mem_filter.mpr ⟨hr' ▸ hm, hp'⟩)
        · exact over_not_waits ho hw
      rw [if_neg hc, List.filter_singleton, hcarries]
      refine List.map_congr_left fun d hd => ?_
      rw [ht.outcome fun e => hc (e ▸ hd)]
  waits d hd hp hv := by
    have hdc : d ≠ c := by
      rintro rfl
      exact over_not_waits ht.ended hv
    rw [ht.outcome hdc]
    refine h.waits d hd hp ?_
    unfold World.waits at hv ⊢
    rw [ht.other d hdc] at hv
    exact hv

theorem mustWait_status (hm : mustWait conf.toConf w.items c = true) : (w.check c).status = .waitConsume := by
  unfold mustWait at hm
  rw [Bool.and_eq_true, Bool.and_eq_true, beq_iff_eq] at hm
  exact hm.1.2

theorem consumeResult_waitDepend (hm : mustWait conf.toConf w.items c = true) :
    Ensures (· = w) (onItems (Scheduling.consumeResult conf.toConf env.toEnv c)) fun _ v => v = w.setStatus c .waitDepend := by
  intro s hs a v hr
  subst hs
  have hrun : Scheduling.consumeResult conf.toConf env.toEnv c s.items =
      .ok ⟨⟩ (s.items.setCheck c { s.items.check c with status := .waitDepend }) := by
    show (if mustWait conf.toConf s.items c = true then _ else _ : Scheduling.Sched Unit) _ = _
    rw [if_pos hm]
    rfl
  unfold onItems at hr
  rw [hrun] at hr
  cases hr
  rfl

structure Waited (c : Nat) (w v : World) : Prop where
  spared : Spared w v
  passed : c < w.nextCheck → (w.data c).passiveCheck = true → (v.check c).status ≠ .waitConsume

theorem consumeAndAdd_waited (hm : mustWait conf.toConf w.items c = true) :
    Ensures (· = w) (consumeAndAdd conf env c) fun _ => Waited c w := by
  have hs := mustWait_status hm
  have hfirst : Spared w (w.setStatus c .waitDepend) := by
    refine spared_status rfl ⟨rfl, rfl⟩ (fun _ => ⟨Or.inr ?_, fun e => ?_⟩) fun ho => ?_
    · rw [modifyCheck_self]
    · cases e
    · rcases ho with ho | ho <;> rw [hs] at ho <;> cases ho
  have hrest : Ensures (· = w) (consumeAndAdd conf env c) fun _ => Spared (w.setStatus c .waitDepend) := by
    refine Ensures.bind (R := fun _ => Spared (w.setStatus c .waitDepend)) (Ensures.readAt fun v hv => ?_) fun l =>
      Ensures.modify fun v hv => hv.trans (spared_addChecks l)
    subst hv
    rw [if_pos hm]
    refine Ensures.bind (consumeResult_waitDepend hm) fun _ => ?_
    refine Ensures.bind (R := fun _ => Spared (v.setStatus c .waitDepend)) ?_ fun raised => ?_
    · exact (raiseDependenciesCheck_spares c _ _).ensures.pre fun s hs => hs ▸ Spared.refl _
    · refine Ensures.bind (R := fun _ => Spared (v.setStatus c .waitDepend)) (Ensures.modify fun s hs => ?_) fun _ =>
        Ensures.pure fun s hs => hs
      exact hs.trans (spared_modifyResult fun _ => rfl)
  refine hrest.post fun _ v hv => ⟨hfirst.trans hv, fun hk hp he => ?_⟩
  have hwaits : (w.setStatus c .waitDepend).waits c := Or.inr (by simp)
  have hback := (hv.waits c hk hp hwaits).2.2.1 he
  rw [setStatus_status] at hback
  cases hback

theorem consumeAndAdd_takes (hw : w.waits c) :
    Ensures (· = w) (consumeAndAdd conf env c) fun _ v => Waited c w v ∨ TakenFrom c w v := by
  by_cases hm : mustWait conf.toConf w.items c = true
  · exact (consumeAndAdd_waited hm).post fun _ v hv => Or.inl hv
  · rw [Bool.not_eq_true] at hm
    exact (consumeAndAdd_finished hw hm).post fun _ v hv => Or.inr hv.takenFrom

/-! ## The whole pass -/

/-- A pass since `w`, which has come by the checks `done`. -/
structure Passing (w : World) (done : List Nat) (s : World) : Prop where
  consumed : ∃ l, Consumed w l s
  passed : ∀ c ∈ done, c < w.nextCheck → (w.data c).passiveCheck = true → (s.check c).status ≠ .waitConsume

theorem Passing.step (h : Passing u done w) (hw : w.waits c) (hv : Waited c w v ∨ TakenFrom c w v) :
    Passing u (done ++ [c]) v := by
  obtain ⟨l, hl⟩ := h.consumed
  have hcons : ∃ l, Consumed u l v := by
    rcases hv with hv | hv
    · exact ⟨l, hl.spared hv.spared⟩
    · exact ⟨_, hl.taken hw hv⟩
  refine ⟨hcons, fun d hd hk hp he => ?_⟩
  have hk' := hk.trans_le hl.nextCheck
  have hp' := (hl.flag d hk).trans hp
  rcases hv with hv | hv
  · rcases List.mem_append.mp hd with hd | hd
    · have hback := hv.spared.back hl.placed hk' hp' (Or.inl he)
      exact h.passed d hd hk hp ((hv.spared.waits d hk' hp' hback).2.2.1 he)
    · rw [List.mem_singleton.mp hd] at hk' hp' he
      exact hv.passed hk' hp' he
  · by_cases hdc : d = c
    · subst hdc
      exact over_not_waits hv.ended (Or.inl he)
    · rw [hv.other d hdc] at he
      exact h.passed d ((List.mem_append.mp hd).resolve_right fun hm => hdc (List.mem_singleton.mp hm)) hk hp he

theorem Passing.spared (h : Passing u done w) (hs : Spared w v) : Passing u done v := by
  obtain ⟨l, hl⟩ := h.consumed
  refine ⟨⟨l, hl.spared hs⟩, fun d hd hk hp he => ?_⟩
  have hk' := hk.trans_le hl.nextCheck
  have hp' := (hl.flag d hk).trans hp
  have hback := hs.back hl.placed hk' hp' (Or.inl he)
  exact h.passed d hd hk hp ((hs.waits d hk' hp' hback).2.2.1 he)

theorem consumeWaiting_passing (c : Nat) :
    Ensures (Passing u done) (consumeWaiting conf env c) fun _ => Passing u (done ++ [c]) := by
  refine Ensures.readAt fun w h => Ensures.ite (fun hw => ?_) fun hw => Ensures.pure fun s hs => ?_
  · exact (consumeAndAdd_takes (Or.inl hw)).post fun _ v hv => h.step (Or.inl hw) hv
  · subst hs
    refine ⟨h.consumed, fun d hd hk hp => ?_⟩
    rcases List.mem_append.mp hd with hd | hd
    · exact h.passed d hd hk hp
    · rw [List.mem_singleton.mp hd]
      exact hw

theorem consumeIfReady_passing (c : Nat) :
    Ensures (Passing u done) (consumeIfReady conf env c) fun _ => Passing u done := by
  refine Ensures.readAt fun w h => Ensures.ite (fun hr => ?_) fun _ => Ensures.pure fun s hs => hs ▸ h
  have hw : w.waits c := Or.inr (ready_iff.mp hr).1
  refine (consumeAndAdd_takes hw).post fun _ v hv => ?_
  obtain ⟨h1, h2⟩ := h.step hw hv
  exact ⟨h1, fun d hd => h2 d (List.mem_append_left _ hd)⟩

theorem resolveCheck_passing (r : Bool) (c : Nat) :
    Ensures (Passing u done) (resolveCheck r c) fun _ => Passing u done := by
  refine Ensures.readAt fun w h => ?_
  refine Ensures.ite (fun hs => ?_) fun _ => Ensures.pure fun s hs => hs ▸ h
  have hspared : Ensures (· = w) (tellDependants c) fun _ => Spared w :=
    (tellDependants_spares c w).ensures.pre fun s hs => hs ▸ Spared.refl w
  have hitems : Ensures (· = w) (tellDependants c) fun _ s => s.items = w.items := by
    intro s hs a s' he
    have hrest := tellDependants_rest c s
    rw [he, hs] at hrest
    exact congrArg Prod.fst hrest
  refine Ensures.bind (hspared.and hitems) fun _ => Ensures.bind (R := fun _ => Passing u done) (Ensures.modify fun s hs' => ?_) fun _ =>
    Ensures.pure fun s hs' => hs'
  have hstatus : (s.check c).status = .waitingMe := by
    show (s.items.check c).status = _
    rw [hs'.2]
    exact hs
  refine (h.spared hs'.1).spared (spared_status rfl ⟨rfl, rfl⟩ (fun hw => ?_) fun _ => Or.inl ?_)
  · rcases hw with hw | hw <;> rw [hstatus] at hw <;> cases hw
  · rw [modifyCheck_self]

theorem resolveLoop_passing : ∀ fuel,
    Ensures (Passing u done) (resolveLoop conf env fuel) fun _ => Passing u done
  | 0 => Ensures.throw
  | fuel + 1 => by
    unfold resolveLoop
    refine Ensures.bind (R := fun _ => Passing u done) (Ensures.readAt fun w h => ?_) fun r => ?_
    · exact (Ensures.foldlM (I := fun _ _ => Passing u done) (d := []) fun _ r c _ => resolveCheck_passing r c).pre
        fun s hs => hs ▸ h
    · refine Ensures.bind (R := fun _ => Passing u done) (Ensures.readAt fun w h => ?_) fun _ => ?_
      · exact (Ensures.forM (I := fun _ => Passing u done) (d := []) fun _ c _ => consumeIfReady_passing c).pre fun s hs => hs ▸ h
      · exact Ensures.ite (fun _ => resolveLoop_passing fuel) fun _ => Ensures.pure fun _ h => h

theorem consumeResults_passing (h : Placed w) : Ensures (· = w) (consumeResults conf env) fun _ => Passing w w.checks := by
  have hstart : Passing w [] w := ⟨⟨[], Consumed.refl h⟩, nofun⟩
  refine Ensures.bind (R := fun _ => Passing w w.checks) (Ensures.readAt fun s hs => ?_) fun _ => Ensures.readAt fun s hs => ?_
  · subst hs
    have hloop : Ensures (Passing s []) (s.checks.forM (consumeWaiting conf env)) fun _ => Passing s ([] ++ s.checks) :=
      Ensures.forM fun d c _ => consumeWaiting_passing c
    exact hloop.pre fun v hv => hv ▸ hstart
  · exact (resolveLoop_passing _).pre fun v hv => hv ▸ hs

/-! ## Runs -/

theorem Initial.placed (h : Initial w) : Placed w := by
  have hitem : ∀ i, (w.item i).checksInProgress = [] := fun i => (h.inProgress i).1
  refine ⟨fun i => ?_, fun i => ?_, fun c hc => ?_, fun i => ?_⟩
  · rw [hitem]
    exact List.nodup_nil
  · rw [hitem]
    exact nofun
  · rw [h.nextCheck] at hc
    exact absurd hc (Nat.not_lt_zero c)
  · unfold World.holds
    rw [hitem]
    exact Nat.zero_le _

theorem consumedResults_concat (i : Nat) (t : Turn) (v : World) : ∀ trace : List Turn,
    consumedResults i (trace ++ [t]) v = consumedResults i trace t.world ++ t.consumedBy i v
  | [] => rfl
  | [u] => rfl
  | u :: u' :: trace => by
    show u.consumedBy i u'.world ++ consumedResults i ((u' :: trace) ++ [t]) v = _
    rw [consumedResults_concat i t v (u' :: trace), ← List.append_assoc]
    rfl

theorem consumedBy_none {t : Turn} (h : v.consumed = t.world.consumed) (i : Nat) : t.consumedBy i v = [] := by
  unfold Turn.consumedBy
  rw [h, List.drop_length]
  rfl

theorem Step.queue {ev : Event} (hs : Step conf env w ev v) (h : Placed w) (hc : Turn.SparesResults conf ⟨w, env, ev⟩) :
    Placed v ∧ ∀ i, w.pendingResults i ++ Turn.accepted conf i ⟨w, env, ev⟩ =
      Turn.consumedBy i ⟨w, env, ev⟩ v ++ v.pendingResults i := by
  by_cases hev : ev.isResult = false
  · have hspared := hs.spared h hc hev
    refine ⟨hspared.placed h, fun i => ?_⟩
    have haccepted : Turn.accepted conf i ⟨w, env, ev⟩ = [] := by
      cases ev with
      | processCheckResult j r => cases hev
      | _ => rfl
    rw [haccepted, consumedBy_none hspared.consumed, hspared.pendingResults h, List.append_nil, List.nil_append]
  · cases ev with
    | processCheckResult j r =>
      have hv : ∀ {s}, processCheckResult conf env j r w = .ok () s → v = s := fun {s} hr => by
        rw [hs.after]
        show stateAfter (processCheckResult conf env j r w) = s
        rw [hr]
        rfl
      rcases processCheckResult_spec h hc with ⟨ha, hr⟩ | ⟨ha, s, hr, hf⟩
      · rw [hv hr]
        refine ⟨h, fun i => ?_⟩
        have haccepted : Turn.accepted conf i ⟨w, env, .processCheckResult j r⟩ = [] :=
          if_neg fun hi => by rw [ha] at hi; cases hi.2
        rw [haccepted, consumedBy_none rfl, List.append_nil, List.nil_append]
      · rw [hv hr]
        refine ⟨hf.placed, fun i => ?_⟩
        rw [consumedBy_none hf.consumed, List.nil_append]
        by_cases hi : j = i
        · subst hi
          have haccepted : Turn.accepted conf j ⟨w, env, .processCheckResult j r⟩ = [r] := if_pos ⟨rfl, ha⟩
          have hempty : w.pendingResults j = [] := by
            unfold World.pendingResults
            rw [(hc ha).1]
            rfl
          rw [haccepted, hempty, hf.self, List.nil_append]
        · have haccepted : Turn.accepted conf i ⟨w, env, .processCheckResult j r⟩ = [] := if_neg fun ho => hi ho.1
          rw [haccepted, hf.other i (Ne.symm hi), List.append_nil]
    | consumeResults =>
      cases hs with
      | returned _ hr =>
        obtain ⟨l, hl⟩ := (consumeResults_passing h w rfl () v hr).consumed
        refine ⟨hl.placed, fun i => ?_⟩
        unfold Turn.consumedBy
        rw [hl.consumed, List.drop_left, hl.queue]
        exact List.append_nil _
      | dropped _ hcommand _ => cases hcommand
    | _ => exact absurd rfl hev

/-- What the commands have brought an item is what it has consumed, in the order
of the commands, and the result that waits in one of its checks. -/
structure Delivered (conf : Conf) (i : Nat) (trace : List Turn) (w : World) : Prop where
  results : acceptedResults conf i trace = consumedResults i trace w ++ w.pendingResults i
  single : (w.pendingResults i).length ≤ 1
  waits : ∀ c ∈ w.holds i, c ∈ w.checks ∧ w.waits c
  /-- Only a result that waits for the dependencies outlives a pass. -/
  passed : ∀ t ∈ trace.getLast?, t.event = .consumeResults → ∀ c ∈ w.holds i, (w.check c).status = .waitDepend

theorem Step.passed (hs : Step conf env w .consumeResults v) (h : Placed w) (hv : Placed v) (i : Nat) :
    ∀ c ∈ v.holds i, (v.check c).status = .waitDepend := by
  cases hs with
  | returned _ hr =>
    intro c hc
    obtain ⟨⟨l, hl⟩, hpassed⟩ := consumeResults_passing h w rfl () v hr
    obtain ⟨hk, -, hp, hw, -⟩ := hv.passive_of_mem hc
    have hold : c < w.nextCheck := by
      by_contra hn
      rw [hl.fresh c hk (Nat.not_lt.mp hn)] at hp
      cases hp
    rw [hl.flag c hold] at hp
    have hwaits := (hl.waits c hold hp hw).1
    have hmem : c ∈ w.checks := by
      rcases h.passive c hold hp with ⟨-, -, hm⟩ | ⟨ho, -⟩
      · exact hm
      · exact absurd hwaits (over_not_waits ho)
    exact hw.resolve_left (hpassed c hmem hold hp)
  | dropped _ hcommand _ => cases hcommand

theorem passive_results_delivered {w₀ : World} {trace : List Turn} (h₀ : Initial w₀) (hr : Run conf w₀ trace w)
    (hc : ∀ t ∈ trace, t.SparesResults conf) (i : Nat) : Delivered conf i trace w := by
  have hrun : Placed w ∧ acceptedResults conf i trace = consumedResults i trace w ++ w.pendingResults i ∧
      ∀ t ∈ trace.getLast?, t.event = .consumeResults → ∀ c ∈ w.holds i, (w.check c).status = .waitDepend := by
    induction hr with
    | nil =>
      refine ⟨h₀.placed, ?_, fun t ht => ?_⟩
      · unfold World.pendingResults World.holds
        rw [(h₀.inProgress i).1]
        rfl
      · rw [List.getLast?_nil] at ht
        cases ht
    | @snoc trace w v env ev hr hs ih =>
      obtain ⟨hp, hq, -⟩ := ih fun t ht => hc t (List.mem_append_left _ ht)
      obtain ⟨hp', hq'⟩ := hs.queue hp (hc _ (List.mem_append_right _ List.mem_cons_self))
      refine ⟨hp', ?_, fun t ht hev => ?_⟩
      · have haccepted : acceptedResults conf i (trace ++ [⟨w, env, ev⟩]) =
            acceptedResults conf i trace ++ Turn.accepted conf i ⟨w, env, ev⟩ := by
          unfold acceptedResults
          rw [List.flatMap_append, List.flatMap_singleton]
        rw [haccepted, hq, consumedResults_concat, List.append_assoc, List.append_assoc, hq' i]
      · rw [List.getLast?_concat] at ht
        cases ht
        cases hev
        exact hs.passed hp hp' i
  obtain ⟨hp, hq, hl⟩ := hrun
  refine ⟨hq, ?_, fun c hm => ?_, hl⟩
  · unfold World.pendingResults
    rw [List.length_map]
    exact hp.single i
  · obtain ⟨-, -, -, hw, hk⟩ := hp.passive_of_mem hm
    exact ⟨hk, hw⟩

end

/-! ## Two results between two passes -/

def downResult : PassiveResult := ⟨1, "unreachable", "", "", 8⟩

def upResult : PassiveResult := ⟨0, "PING OK", "", "", 8⟩

def atEight (l : List Event) : List (Env × Event) := l.map fun ev => (checkingEnv 8, ev)

def passInBetween : List (Env × Event) :=
  atEight [.processCheckResult 0 downResult, .consumeResults, .processCheckResult 0 upResult, .consumeResults]

theorem passive_results_delivered_twice :
    Delivered oneCheckedHost 0 (turns oneCheckedHost quietWorld passInBetween) (worldAfter oneCheckedHost quietWorld passInBetween) := by
  have hrun : Run oneCheckedHost quietWorld (turns oneCheckedHost quietWorld passInBetween)
      (worldAfter oneCheckedHost quietWorld passInBetween) := run_of_executes oneCheckedHost (by decide +kernel)
  have hspares : ∀ t ∈ turns oneCheckedHost quietWorld passInBetween, t.SparesResults oneCheckedHost := by
    intro t ht
    rcases List.mem_cons.mp ht with rfl | ht
    · exact fun _ => ⟨by decide +kernel, fun _ => by decide +kernel⟩
    rcases List.mem_cons.mp ht with rfl | ht
    · trivial
    rcases List.mem_cons.mp ht with rfl | ht
    · exact fun _ => ⟨by decide +kernel, fun _ => by decide +kernel⟩
    · rw [List.mem_singleton.mp ht]
      trivial
  exact passive_results_delivered quietWorld_initial hrun hspares 0

def noPassBetween : List (Env × Event) :=
  atEight [.processCheckResult 0 downResult, .processCheckResult 0 upResult, .consumeResults]

/-- The second result is written over the first one. -/
theorem passive_result_lost : Initial quietWorld ∧
    Run oneCheckedHost quietWorld (turns oneCheckedHost quietWorld noPassBetween) (worldAfter oneCheckedHost quietWorld noPassBetween) ∧
    ¬ Delivered oneCheckedHost 0 (turns oneCheckedHost quietWorld noPassBetween)
      (worldAfter oneCheckedHost quietWorld noPassBetween) := by
  have hrun : Run oneCheckedHost quietWorld (turns oneCheckedHost quietWorld noPassBetween)
      (worldAfter oneCheckedHost quietWorld noPassBetween) := run_of_executes oneCheckedHost (by decide +kernel)
  refine ⟨quietWorld_initial, hrun, fun h => ?_⟩
  have hlength := congrArg List.length h.results
  exact absurd hlength (by decide +kernel)

end Alignak.Checking
