import Alignak.Maintenance
import Mathlib.Order.Interval.Set.Basic

/-!
# Runs with maintenance periods

A tick returns exactly when each maintenance period that it finds open is left
later.
-/

namespace Alignak.Scheduling

section
variable {conf : Conf} {P : Periods} {env : Env} {now : Rat} {w s s' : World} {i j d c p n : Nat} {x y : Downtime}
  {autos : Set Nat}

/-! ## The identifiers of the maintenance downtimes -/

def World.presence (w : World) : (Nat → Nat → Bool) × (Nat → Option Nat) × Nat :=
  (fun i d => (w.downtime? i d).isSome, fun i => (w.downtime i).inMaintenance, w.nextDowntime)

theorem presence_eq (h : s.presence = w.presence) : (∀ i d, (s.downtime? i d).isSome = (w.downtime? i d).isSome) ∧
    (∀ i, (s.downtime i).inMaintenance = (w.downtime i).inMaintenance) ∧ s.nextDowntime = w.nextDowntime :=
  ⟨fun i d => congrFun (congrFun (congrArg Prod.fst h) i) d, fun i => congrFun (congrArg (fun q => q.2.1) h) i,
    congrArg (fun q => q.2.2) h⟩

theorem presence_of_plans (h : s.plans = w.plans) : s.presence = w.presence := by
  have hrest : s.plans.2 = w.plans.2 := congrArg Prod.snd h
  refine Prod.ext (funext fun i => funext fun d => ?_) hrest
  have hmap : (s.downtime? i d).map Downtime.plan = (w.downtime? i d).map Downtime.plan :=
    congrFun (congrFun (congrArg Prod.fst h) i) d
  have hsome := congrArg Option.isSome hmap
  rwa [Option.isSome_map, Option.isSome_map] at hsome

theorem changeDowntime_presence (w : World) (i d : Nat) (f : Downtime → Downtime) : (w.changeDowntime i d f).presence = w.presence := by
  refine Prod.ext (funext fun j => funext fun c => ?_) (Prod.ext (funext fun j => ?_) ?_)
  · show ((w.changeDowntime i d f).downtime? j c).isSome = (w.downtime? j c).isSome
    rw [downtime?_changeDowntime]
    split
    · rename_i h
      rw [h.1, h.2, Option.isSome_map]
    · rfl
  · show ((w.changeDowntime i d f).downtime j).inMaintenance = (w.downtime j).inMaintenance
    unfold World.changeDowntime
    cases w.downtime? i d with
    | none => rfl
    | some x =>
      unfold World.addDowntime
      by_cases hj : j = i
      · subst hj
        rw [World.modifyDowntime_self]
      · rw [World.modifyDowntime_ne w hj]
  · show (w.changeDowntime i d f).nextDowntime = w.nextDowntime
    unfold World.changeDowntime
    cases w.downtime? i d <;> rfl

structure OneAutomatic (autos : Set Nat) (w : World) : Prop where
  made : ∀ d ∈ autos, d < w.nextDowntime
  kept : ∀ {i d}, (w.downtime? i d).isSome → d ∈ autos → (w.downtime i).inMaintenance = some d

namespace OneAutomatic

theorem of_presence (h : OneAutomatic autos w) (hs : s.presence = w.presence) : OneAutomatic autos s := by
  obtain ⟨h1, h2, h3⟩ := presence_eq hs
  refine ⟨fun d hd => h3 ▸ h.made d hd, fun {i d} hd ha => ?_⟩
  rw [h2]
  exact h.kept (h1 i d ▸ hd) ha

theorem unique (h : OneAutomatic autos w) (hd : d ∈ autos) (hc : c ∈ autos) (hdi : (w.downtime? i d).isSome)
    (hci : (w.downtime? i c).isSome) : d = c := Option.some.inj ((h.kept hdi hd).symm.trans (h.kept hci hc))

theorem newDowntime (h : OneAutomatic autos w) (i : Nat) (x : Downtime) : OneAutomatic autos (newDowntime i x w) := by
  refine ⟨fun d hd => Nat.lt_succ_of_lt (h.made d hd), fun {j c} hc ha => ?_⟩
  rw [downtime?_newDowntime] at hc
  split at hc
  · rename_i hjc
    exact absurd (h.made c ha) (by rw [hjc.2]; exact lt_irrefl _)
  · refine Eq.trans ?_ (h.kept hc ha)
    show (((w.addComment i ⟨i, 2⟩).addDowntime i w.nextDowntime _).downtime j).inMaintenance = _
    unfold World.addDowntime
    by_cases hj : j = i
    · subst hj
      rw [World.modifyDowntime_self]
      rfl
    · rw [World.modifyDowntime_ne _ hj]
      rfl

theorem delDowntime (h : OneAutomatic autos w) (i d : Nat) : OneAutomatic autos (w.delDowntime i d) := by
  refine ⟨h.made, fun {j c} hc ha => ?_⟩
  rw [downtime?_delDowntime] at hc
  split at hc
  · cases hc
  · refine Eq.trans ?_ (h.kept hc ha)
    unfold World.delDowntime
    by_cases hj : j = i
    · subst hj
      rw [World.modifyDowntime_self]
    · rw [World.modifyDowntime_ne _ hj]

theorem deleteMarked (h : OneAutomatic autos w) (i : Nat) : OneAutomatic autos (deleteMarked i w) := by
  unfold Scheduling.deleteMarked
  refine List.foldlRecOn _ _ h fun s hs d _ => ?_
  split
  · split
    · exact hs.delDowntime i d
    · exact hs
  · exact hs

end OneAutomatic

/-- The downtimes made by earlier ticks, and those of the tick that has begun with `n` as its first identifier. -/
def since (autos : Set Nat) (n : Nat) (w : World) : Set Nat := autos ∪ Set.Ico n w.nextDowntime

structure InTick (conf : Conf) (autos : Set Nat) (n : Nat) (w : World) : Prop where
  linked : Linked conf w
  le : n ≤ w.nextDowntime
  one : OneAutomatic (since autos n w) w

theorem InTick.openMaintenance (h : InTick conf autos n w) (hm : (w.downtime i).inMaintenance = none) (startDt endDt : Int) :
    InTick conf autos n (w.openMaintenance i startDt endDt) := by
  have hnext : (w.openMaintenance i startDt endDt).nextDowntime = w.nextDowntime + 1 := rfl
  have hold : ∀ {c}, c ∈ since autos n (w.openMaintenance i startDt endDt) → c < w.nextDowntime → c ∈ since autos n w := by
    rintro c (ha | hc) hlt
    · exact Or.inl ha
    · exact Or.inr ⟨hc.1, hlt⟩
  refine ⟨?_, Nat.le_succ_of_le h.le, ?_, ?_⟩
  · have hnew : Linked conf (newDowntime i (Downtime.create i true startDt (endDt - 1) 0 none) w) := h.linked.newDowntime rfl rfl
    exact hnew.of_links (modifyDowntime_links (f := fun s => { s with inMaintenance := some w.nextDowntime }) fun _ => rfl)
  · rintro c (ha | hc)
    · exact Nat.lt_succ_of_lt (h.one.made c (Or.inl ha))
    · exact hc.2
  · intro j c hc ha
    rw [downtime?_openMaintenance] at hc
    split at hc
    · rename_i hjc
      rw [hjc.1, hjc.2]
      exact openMaintenance_self w i startDt endDt
    · obtain ⟨y, hy⟩ := Option.isSome_iff_exists.mp hc
      have hk := h.one.kept hc (hold ha (h.linked.made hy))
      by_cases hj : j = i
      · subst hj
        rw [hm] at hk
        cases hk
      · rw [openMaintenance_ne startDt endDt hj]
        exact hk

theorem InTick.leaveMaintenance (h : InTick conf autos n w) (hm : (w.downtime i).inMaintenance = some d) (hd : w.downtime? i d = none) :
    InTick conf autos n (w.leaveMaintenance i) := by
  refine ⟨h.linked.of_links (modifyDowntime_links (f := fun s => { s with inMaintenance := none }) fun _ => rfl), h.le, h.one.made, ?_⟩
  intro j c hc ha
  rw [downtime?_leaveMaintenance] at hc
  have hk := h.one.kept hc ha
  by_cases hj : j = i
  · -- the one that the item keeps is the only one that could be there
    subst hj
    rw [hm] at hk
    rw [← Option.some.inj hk, hd] at hc
    cases hc
  · rw [leaveMaintenance_ne hj]
    exact hk

theorem checkMaintenance_inTick (i : Nat) : Keeps (InTick conf autos n) (checkMaintenance (P.at env now) i) := by
  intro w h
  refine ⟨?_, fun _ _ _ => trivial⟩
  by_cases ho : ∃ p, Opens P now w i p
  · obtain ⟨p, ho⟩ := ho
    cases hr : (P.at env now).getNextInvalidTime p (⌊now⌋ + 1) with
    | none =>
      rw [checkMaintenance_raises ho hr]
      exact h
    | some r =>
      rw [checkMaintenance_opens ho hr]
      exact h.openMaintenance ho.2.1 _ _
  · rcases @checkMaintenance_idle _ env _ _ _ fun p hp => ho ⟨p, hp⟩ with e | ⟨⟨d, hm, hd⟩, e⟩
    · rw [e]
      exact h
    · rw [e]
      exact h.leaveMaintenance hm hd

/-! ## The three passes of a tick -/

theorem checkStartStopAt_plans {l : Plans} (i d : Nat) : Keeps (fun w => w.plans = l) (checkStartStopAt conf env now i d) := by
  refine Keeps.read fun w => ?_
  cases w.downtime? i d with
  | none => exact Keeps.throw trivial
  | some x =>
    exact Keeps.ite (fun _ => Keeps.modify fun s h => (exit_plans i d s).trans h) fun _ =>
      Keeps.ite (fun _ => enterDowntime_plans i d) fun _ => Keeps.pure _

theorem startStopAll_plans {l : Plans} : Keeps (fun w => w.plans = l) (startStopAll conf env now) :=
  Keeps.forM fun i _ => Keeps.read fun _ => Keeps.forM fun d _ => checkStartStopAt_plans i d

theorem InTick.of_plans (h : InTick conf autos n w) (hs : s.plans = w.plans) : InTick conf autos n s := by
  have hnext : s.nextDowntime = w.nextDowntime := (presence_eq (presence_of_plans hs)).2.2
  refine ⟨h.linked.of_links (links_of_plans hs), hnext ▸ h.le, ?_⟩
  have hset : since autos n s = since autos n w := congrArg (fun k => autos ∪ Set.Ico n k) hnext
  rw [hset]
  exact h.one.of_presence (presence_of_plans hs)

theorem deleteMarked_next (i : Nat) (w : World) : (deleteMarked i w).nextDowntime = w.nextDowntime := by
  refine foldl_same (p := World.nextDowntime) (fun w d => ?_) _ w
  split
  · split <;> rfl
  · rfl

theorem InTick.deleteMarked (h : InTick conf autos n w) (i : Nat) : InTick conf autos n (deleteMarked i w) := by
  have hnext := deleteMarked_next i w
  refine ⟨deleteMarked_linked i h.linked, hnext ▸ h.le, ?_⟩
  have hset : since autos n (Scheduling.deleteMarked i w) = since autos n w := congrArg (fun k => autos ∪ Set.Ico n k) hnext
  rw [hset]
  exact h.one.deleteMarked i

theorem tick_inTick : Keeps (InTick conf autos n) (tick conf P env now) := by
  refine Keeps.bind (Keeps.forM fun i _ => checkMaintenance_inTick i) fun _ => Keeps.bind (Keeps.modify fun s h => ?_) fun _ => ?_
  · exact List.foldlRecOn _ _ h fun w hw i _ => hw.deleteMarked i
  · intro s h
    exact ⟨h.of_plans (startStopAll_plans s rfl).1, fun _ _ _ => trivial⟩

def Opened (P : Periods) (env : Env) (now : Rat) (n : Nat) (w : World) (i p : Nat) : Prop :=
  ∃ d x r, n ≤ d ∧ (w.downtime i).inMaintenance = some d ∧ w.downtime? i d = some x ∧
    (P.at env now).getNextInvalidTime p (⌊now⌋ + 1) = some r ∧ x.canBeDeleted = false ∧
      x.plan = (Downtime.create i true ⌊now⌋ (r - 1) 0 none).plan

theorem Opened.of_downtime (h : Opened P env now n w i p) (hd : s.downtime i = w.downtime i) : Opened P env now n s i p := by
  unfold Opened World.downtime? at h ⊢
  rw [hd]
  exact h

theorem Opens.of_same (h : Opens P now w i p) (hs : s.settings = w.settings) (hd : s.downtime i = w.downtime i) : Opens P now s i p := by
  obtain ⟨h1, h2, h3⟩ := h
  exact ⟨hs ▸ h1, hd ▸ h2, h3⟩

theorem checkMaintenance_turn (h : ∀ p, Opens P now w i p → P.EndsLater now p) : ∃ s, checkMaintenance (P.at env now) i w = .ok ⟨⟩ s ∧
    s.settings = w.settings ∧ (∀ j, j ≠ i → s.downtime j = w.downtime j) ∧ w.nextDowntime ≤ s.nextDowntime ∧
      ∀ p, Opens P now w i p → Opened P env now w.nextDowntime s i p := by
  by_cases ho : ∃ p, Opens P now w i p
  · obtain ⟨p, ho⟩ := ho
    obtain ⟨r, hr⟩ := at_getNextInvalidTime.mpr (h p ho)
    refine ⟨_, checkMaintenance_opens ho hr, rfl, fun j hj => openMaintenance_ne _ _ hj, Nat.le_succ _, fun q hq => ?_⟩
    have hpq : q = p := Option.some.inj (hq.1.symm.trans ho.1)
    subst hpq
    exact ⟨w.nextDowntime, _, r, le_rfl, openMaintenance_self w i _ _, (downtime?_openMaintenance w i _ _ i _).trans (if_pos ⟨rfl, rfl⟩),
      hr, rfl, rfl⟩
  · have hidle : ∀ p, ¬ Opens P now w i p := fun p hp => ho ⟨p, hp⟩
    rcases @checkMaintenance_idle _ env _ _ _ hidle with e | ⟨-, e⟩
    · exact ⟨w, e, rfl, fun _ _ => rfl, le_rfl, fun p hp => absurd hp (hidle p)⟩
    · exact ⟨_, e, rfl, fun j hj => leaveMaintenance_ne hj, le_rfl, fun p hp => absurd hp (hidle p)⟩

theorem checkMaintenances_run : ∀ {l : List Nat} {w : World}, l.Nodup → (∀ i ∈ l, ∀ p, Opens P now w i p → P.EndsLater now p) →
    ∃ s, l.forM (checkMaintenance (P.at env now)) w = .ok ⟨⟩ s ∧ (∀ j, j ∉ l → s.downtime j = w.downtime j) ∧
      ∀ i ∈ l, ∀ p, Opens P now w i p → Opened P env now w.nextDowntime s i p
  | [], w, _, _ => ⟨w, rfl, fun _ _ => rfl, fun i hi => absurd hi List.not_mem_nil⟩
  | i :: l, w, hn, h => by
    obtain ⟨s, hs, hset, hother, hle, hopened⟩ := @checkMaintenance_turn _ env _ _ _ (h i List.mem_cons_self)
    obtain ⟨hi, hl⟩ := List.nodup_cons.mp hn
    have hne : ∀ j ∈ l, j ≠ i := fun j hj e => hi (e ▸ hj)
    obtain ⟨s', hs', hother', hopened'⟩ := checkMaintenances_run (w := s) hl fun j hj p hp =>
      h j (List.mem_cons_of_mem _ hj) p (hp.of_same hset.symm (hother j (hne j hj)).symm)
    refine ⟨s', (bind_ok hs).trans hs', fun j hj => ?_, fun j hj p hp => ?_⟩
    · obtain ⟨hji, hjl⟩ := not_or.mp (fun e => hj (List.mem_cons.mpr e))
      exact (hother' j hjl).trans (hother j hji)
    · rcases List.mem_cons.mp hj with rfl | hj
      · exact (hopened p hp).of_downtime (hother' j hi)
      · obtain ⟨d, x, r, hd, hrest⟩ := hopened' j hj p (hp.of_same hset (hother j (hne j hj)))
        exact ⟨d, x, r, hle.trans hd, hrest⟩

theorem checkMaintenances_ends : ∀ {l : List Nat} {w s : World}, l.Nodup → l.forM (checkMaintenance (P.at env now)) w = .ok ⟨⟩ s →
    ∀ i ∈ l, ∀ p, Opens P now w i p → P.EndsLater now p
  | [], _, _, _, _, i, hi, _, _ => absurd hi List.not_mem_nil
  | i :: l, w, s, hn, hok, j, hj, p, hp => by
    obtain ⟨hi, hl⟩ := List.nodup_cons.mp hn
    by_cases hend : ∀ q, Opens P now w i q → P.EndsLater now q
    · rcases List.mem_cons.mp hj with rfl | hj
      · exact hend p hp
      · obtain ⟨s₁, hs1, hset, hother, -⟩ := @checkMaintenance_turn _ env _ _ _ hend
        have hrest : l.forM (checkMaintenance (P.at env now)) s₁ = .ok ⟨⟩ s := (bind_ok hs1).symm.trans hok
        exact checkMaintenances_ends hl hrest j hj p (hp.of_same hset (hother j fun e => hi (e ▸ hj)))
    · push Not at hend
      obtain ⟨q, hq, hnot⟩ := hend
      have hnone : (P.at env now).getNextInvalidTime q (⌊now⌋ + 1) = none := by
        by_contra hsome
        obtain ⟨r, hr⟩ := Option.ne_none_iff_exists'.mp hsome
        exact hnot (at_getNextInvalidTime.mp ⟨r, hr⟩)
      have herr : (i :: l).forM (checkMaintenance (P.at env now)) w = .error .typeError w := by
        show (checkMaintenance (P.at env now) i >>= fun _ => l.forM (checkMaintenance (P.at env now))) w = _
        rw [bind_eq, checkMaintenance_raises hq hnone]
      rw [herr] at hok
      cases hok

theorem deleteMarked_unmarked (i : Nat) (hy : w.downtime? j c = some y) (hm : y.canBeDeleted = false) :
    (deleteMarked i w).downtime? j c = some y := by
  unfold deleteMarked
  refine List.foldlRecOn (motive := fun s : World => s.downtime? j c = some y) _ _ hy fun s hs d _ => ?_
  cases hx : s.downtime? i d with
  | none => exact hs
  | some x =>
    by_cases hd : x.canBeDeleted = true
    · simp only [hd, if_true]
      rw [downtime?_delDowntime, if_neg]
      · exact hs
      · rintro ⟨rfl, rfl⟩
        rw [hs] at hx
        rw [Option.some.inj hx, hd] at hm
        cases hm
    · simp only [hd]
      exact hs

theorem deleteMarked_inMaintenance (i : Nat) (w : World) (j : Nat) :
    ((deleteMarked i w).downtime j).inMaintenance = (w.downtime j).inMaintenance := by
  refine foldl_same (p := fun w : World => (w.downtime j).inMaintenance) (fun w d => ?_) _ w
  split
  · split
    · unfold World.delDowntime
      by_cases hj : j = i
      · subst hj
        rw [World.modifyDowntime_self]
      · rw [World.modifyDowntime_ne _ hj]
    · rfl
  · rfl

theorem Opened.deleteMarked (h : Opened P env now n w i p) (j : Nat) : Opened P env now n (deleteMarked j w) i p := by
  obtain ⟨d, x, r, hd, hm, hx, hr, hdel, hplan⟩ := h
  exact ⟨d, x, r, hd, (deleteMarked_inMaintenance j w i).trans hm, deleteMarked_unmarked j hx hdel, hr, hdel, hplan⟩

theorem checkStartStopAt_run (h : Linked conf w) (hx : (w.downtime? i d).isSome) :
    ∃ s, checkStartStopAt conf env now i d w = .ok ⟨⟩ s ∧ s.plans = w.plans := by
  obtain ⟨x, hx⟩ := Option.isSome_iff_exists.mp hx
  have hok : ∃ s, checkStartStopAt conf env now i d w = .ok ⟨⟩ s := by
    unfold checkStartStopAt
    rw [get_bind, hx]
    by_cases hend : (x.realEndTime : Rat) < now
    · exact ⟨_, run_pos hend w⟩
    · by_cases hstart : (x.startTime : Rat) ≤ now ∧ x.fixed ∧ !x.isInEffect
      · obtain ⟨s, hs, -⟩ := enter_started env (w.nextDowntime + 1) h hx (by omega)
        refine ⟨s, (run_neg hend w).trans ((run_pos hstart w).trans ?_)⟩
        exact hs
      · exact ⟨w, (run_neg hend w).trans (run_neg hstart w)⟩
  obtain ⟨s, hs⟩ := hok
  have hplans := (@checkStartStopAt_plans conf env now _ i d w rfl).1
  rw [hs] at hplans
  exact ⟨s, hs, hplans⟩

theorem startStops_run (i : Nat) : ∀ {l : List Nat} {w : World}, Linked conf w → (∀ d ∈ l, (w.downtime? i d).isSome) →
    ∃ s, l.forM (checkStartStopAt conf env now i) w = .ok ⟨⟩ s ∧ s.plans = w.plans
  | [], w, _, _ => ⟨w, rfl, rfl⟩
  | d :: l, w, h, hl => by
    obtain ⟨s, hs, hp⟩ := @checkStartStopAt_run _ env now _ _ _ h (hl d List.mem_cons_self)
    obtain ⟨hpres, -⟩ := presence_eq (presence_of_plans hp)
    obtain ⟨s', hs', hp'⟩ := startStops_run i (h.of_links (links_of_plans hp)) fun c hc =>
      (hpres i c).trans (hl c (List.mem_cons_of_mem _ hc))
    exact ⟨s', (bind_ok hs).trans hs', hp'.trans hp⟩

theorem startStopAll_run (h : Linked conf w) : ∃ s, startStopAll conf env now w = .ok ⟨⟩ s ∧ s.plans = w.plans := by
  have hall : ∀ (l : List Nat) (w : World), Linked conf w →
      ∃ s, l.forM (startStopItem conf env now) w = .ok ⟨⟩ s ∧ s.plans = w.plans := by
    intro l
    induction l with
    | nil => exact fun w _ => ⟨w, rfl, rfl⟩
    | cons i l ih =>
      intro w h
      obtain ⟨s, hs, hp⟩ := @startStops_run _ env now i (w.downtime i).downtimes.keys _ h fun d hd =>
        Option.isSome_iff_ne_none.mpr (Dict.mem_keys.mp hd)
      obtain ⟨s', hs', hp'⟩ := ih s (h.of_links (links_of_plans hp))
      exact ⟨s', (bind_ok hs).trans hs', hp'.trans hp⟩
  exact hall _ w h

/-! ## A tick -/

/-- The downtime of the item, made by the tick from `w` to `s`. -/
def Maintained (P : Periods) (now : Rat) (w s : World) (i p : Nat) : Prop :=
  ∃ d x, w.nextDowntime ≤ d ∧ (s.downtime i).inMaintenance = some d ∧ s.downtime? i d = some x ∧ x.ref = i ∧ x.fixed = true ∧
    x.startTime = ⌊now⌋ ∧ ((P.timeperiods p).ReturnsFirstInvalid (⌊now⌋ + 1) → ∀ r, (P.timeperiods p).FirstInvalid (⌊now⌋ + 1) r →
      r ≤ ⌊now⌋ + 1 + 3600 * 24 * 365 → x.endTime = r - 1)

/-- The tick returns, and each open period has its downtime. -/
def TickMaintains (conf : Conf) (P : Periods) (env : Env) (now : Rat) (w : World) : Prop :=
  ∃ s, tick conf P env now w = .ok ⟨⟩ s ∧ ∀ i ∈ conf.allMyHostsAndServices, ∀ p, Opens P now w i p → Maintained P now w s i p

theorem Opened.maintained (h : Opened P env now w.nextDowntime s i p) (hp : s'.plans = s.plans) : Maintained P now w s' i p := by
  obtain ⟨d, x, r, hd, hm, hx, hr, -, hplan⟩ := h
  obtain ⟨-, hmain, -⟩ := presence_eq (presence_of_plans hp)
  have hmap : (s'.downtime? i d).map Downtime.plan = (s.downtime? i d).map Downtime.plan :=
    congrFun (congrFun (congrArg Prod.fst hp) i) d
  rw [hx, Option.map_some] at hmap
  obtain ⟨y, hy, hyx⟩ := Option.map_eq_some_iff.mp hmap
  have hplan := hyx.trans hplan
  simp only [Downtime.plan, Downtime.create, Prod.mk.injEq] at hplan
  obtain ⟨href, hfixed, hstart, hstop, -⟩ := hplan
  refine ⟨d, y, hd, (hmain i).trans hm, hy, href, hfixed, hstart, fun hexact q hq hle => ?_⟩
  -- the answer with the fuel of a year is the answer
  obtain ⟨k, hk⟩ := hexact q hq hle
  have hok : Timeperiod.getNextInvalidTimeFromT Timeperiod.yearFuel (P.timeperiods p) (⌊now⌋ + 1) = .ok r := by
    have hr : (Timeperiod.getNextInvalidTimeFromT Timeperiod.yearFuel (P.timeperiods p) (⌊now⌋ + 1)).toOption = some r := hr
    cases ha : Timeperiod.getNextInvalidTimeFromT Timeperiod.yearFuel (P.timeperiods p) (⌊now⌋ + 1) with
    | error e =>
      rw [ha] at hr
      cases hr
    | ok r' =>
      rw [ha] at hr
      exact congrArg Except.ok (Option.some.inj hr)
  have hmax := Timeperiod.getNextInvalidTimeFromT_fuel (le_max_left Timeperiod.yearFuel k) hok
  rw [hk _ (le_max_right _ _)] at hmax
  rw [hstop, Except.ok.inj hmax]

theorem tickMaintains_iff (h : Linked conf w) : TickMaintains conf P env now w ↔
    ∀ i ∈ conf.allMyHostsAndServices, ∀ p, Opens P now w i p → P.EndsLater now p := by
  constructor
  · rintro ⟨s, hs, -⟩
    cases hl : conf.allMyHostsAndServices.forM (checkMaintenance (P.at env now)) w with
    | ok u s₁ => exact checkMaintenances_ends conf.nodup hl
    | error e s₁ =>
      unfold tick at hs
      rw [bind_eq, hl] at hs
      cases hs
  · intro hends
    obtain ⟨s₁, hs1, -, hopened⟩ := @checkMaintenances_run _ env _ conf.allMyHostsAndServices _ conf.nodup hends
    have hl1 : Linked conf s₁ := by
      have hk := (Keeps.forM (l := conf.allMyHostsAndServices) (fun i _ => @checkMaintenance_linked conf (P.at env now) i) w h).1
      rw [hs1] at hk
      exact hk
    have hl2 : Linked conf (conf.allMyHostsAndServices.foldl (fun w i => deleteMarked i w) s₁) :=
      List.foldlRecOn _ _ hl1 fun w hw i _ => deleteMarked_linked i hw
    obtain ⟨s₃, hs3, hp3⟩ := @startStopAll_run _ (P.at env now) now _ hl2
    refine ⟨s₃, ?_, fun i hi p hp => ?_⟩
    · unfold tick
      rw [bind_ok hs1, modify_bind]
      exact hs3
    · refine @Opened.maintained _ env _ _ _ _ _ _ ?_ hp3
      exact List.foldlRecOn (motive := fun s => Opened P env now w.nextDowntime s i p) _ _ (hopened i hi p hp) fun s hs j _ => hs.deleteMarked j

/-! ## The other events -/

theorem keeps_of_plans {m : Sched Unit} (h : ∀ l, Keeps (fun w => w.plans = l) m) : Keeps (OneAutomatic autos) m :=
  fun s hs => ⟨hs.of_presence (presence_of_plans ((h s.plans) s rfl).1), fun _ _ _ => trivial⟩

theorem scheduleDowntime_oneAutomatic (i : Nat) (fixed : Bool) (startTime endTime duration : Int) (triggerId : Option Nat) :
    Keeps (OneAutomatic autos) (scheduleDowntime conf i fixed startTime endTime duration triggerId) := by
  refine Keeps.read fun w => Keeps.bind (Keeps.modify fun s h => h.newDowntime i _) fun _ => ?_
  cases triggerId with
  | none => exact Keeps.pure _
  | some t =>
    refine Keeps.forM fun j _ => Keeps.read fun s => Keeps.ite (fun _ => ?_) fun _ => Keeps.pure _
    refine Keeps.read fun s => Keeps.ite (fun _ => Keeps.throw trivial) fun _ => ?_
    exact Keeps.modify fun s h => h.of_presence (changeDowntime_presence s i t _)

theorem runEvent_oneAutomatic {ev : Event} (hev : ev ≠ .updateDowntimesAndComments) : Keeps (OneAutomatic autos) (runEvent conf env ev) := by
  by_cases hq : ev.isQuiet = true
  · intro s hs
    exact ⟨hs.of_presence (presence_of_plans (plans_of_quiet (runEvent_quiet conf env hq s))), fun _ _ _ => trivial⟩
  cases ev with
  | receiveResult c chk => exact Keeps.modify fun s h => h.of_presence rfl
  | consumeResult c => exact keeps_of_plans fun l => consumeResult_plans c
  | updateDowntimesAndComments => exact absurd rfl hev
  | command cmd =>
    cases cmd with
    | scheduleDowntime i fixed startTime endTime duration t => exact scheduleDowntime_oneAutomatic i fixed startTime endTime duration t
    | delDowntime t d => exact keeps_of_plans fun l => delDowntimeCommand_plans t d
    | changeMaxCheckAttempts i k => exact Keeps.modify fun s h => h.of_presence rfl
    | changeSettings i f => exact Keeps.modify fun s h => h.of_presence rfl
    | _ => exact absurd rfl hq
  | _ => exact absurd rfl hq

end

/-! ## Runs -/

/-- A run of ticks, in any order of their times, and of the other events, with the downtimes that the ticks have made. A tick that
raises ends the run. -/
inductive MaintenanceRun (conf : Conf) (P : Periods) (w₀ : World) : Set Nat → World → Prop
  | nil : MaintenanceRun conf P w₀ ∅ w₀
  | tick {autos : Set Nat} {w w' : World} (env : Env) (now : Rat) (run : MaintenanceRun conf P w₀ autos w)
      (hs : tick conf P env now w = .ok ⟨⟩ w') : MaintenanceRun conf P w₀ (autos ∪ Set.Ico w.nextDowntime w'.nextDowntime) w'
  | other {autos : Set Nat} {w w' : World} {env : Env} {ev : Event} (run : MaintenanceRun conf P w₀ autos w)
      (hev : ev ≠ .updateDowntimesAndComments) (hs : Step conf env w ev w') : MaintenanceRun conf P w₀ autos w'

section
variable {conf : Conf} {P : Periods} {env : Env} {now : Rat} {w₀ w s : World} {autos : Set Nat}

theorem oneAutomatic_empty (w : World) : OneAutomatic ∅ w :=
  ⟨fun _ hd => absurd hd (Set.notMem_empty _), fun _ ha => absurd ha (Set.notMem_empty _)⟩

theorem Step.oneAutomatic {ev : Event} (hs : Step conf env w ev s) (hev : ev ≠ .updateDowntimesAndComments) (h : OneAutomatic autos w) :
    OneAutomatic autos s := by
  rw [hs.after]
  exact (runEvent_oneAutomatic hev w h).1

theorem MaintenanceRun.invariant (h : MaintenanceRun conf P w₀ autos w) (h0 : Initial w₀) : Linked conf w ∧ OneAutomatic autos w := by
  induction h with
  | nil => exact ⟨h0.linked, oneAutomatic_empty _⟩
  | @tick autos w w' env now hr hs ih =>
    obtain ⟨hl, ho⟩ := ih
    have hbegin : InTick conf autos w.nextDowntime w := by
      refine ⟨hl, le_rfl, ?_⟩
      unfold since
      rw [Set.Ico_self, Set.union_empty]
      exact ho
    have hend := (@tick_inTick _ P env now _ _ w hbegin).1
    rw [hs] at hend
    exact ⟨hend.linked, hend.one⟩
  | other hr hev hs ih => exact ⟨hs.linked ih.1, hs.oneAutomatic hev ih.2⟩

/-- In each state of a run no item has two of the downtimes that the ticks have made, and the next tick, whatever its time, returns
and gives each open period its downtime exactly when each open period ends later. -/
theorem maintenance_iff (h₀ : Initial w₀) (h : MaintenanceRun conf P w₀ autos w) :
    (∀ i d c, d ∈ autos → c ∈ autos → (w.downtime? i d).isSome → (w.downtime? i c).isSome → d = c) ∧
    ∀ env now, TickMaintains conf P env now w ↔ ∀ i ∈ conf.allMyHostsAndServices, ∀ p, Opens P now w i p → P.EndsLater now p := by
  obtain ⟨hl, ho⟩ := h.invariant h₀
  exact ⟨fun i d c hd hc hdi hci => ho.unique hd hc hdi hci, fun env now => tickMaintains_iff hl⟩

end

/-! ## A window -/

def windowPeriods : Periods where
  timeperiods := fun _ => Timeperiod.window 10 20
  isTimeValid := fun _ t => (Timeperiod.window 10 20).isTimeValid ⌊t⌋
  whole := fun _ _ h => h
  answers := by
    intro p d hd
    rw [List.mem_singleton.mp hd]
    exact Timeperiod.window_answers 10 20

def maintainedWorld : World := { startWorld with settings := fun _ => { maintenancePeriod := some 0 } }

theorem maintainedWorld_initial : Initial maintainedWorld := { startWorld_initial with }

theorem window_endsLater {now : Rat} {p : Nat} : windowPeriods.EndsLater now p ↔ ⌊now⌋ + 1 ≤ 20 := by
  constructor
  · rintro ⟨⟨d, hd, u, hu, hv⟩, -⟩
    rw [List.mem_singleton.mp hd] at hv
    have hwin := of_decide_eq_true hv
    omega
  · intro hle
    refine ⟨⟨_, List.mem_singleton.mpr rfl, 20, hle, rfl⟩, fun d hd => ?_⟩
    rw [List.mem_singleton.mp hd]
    exact Timeperiod.window_ends 10 20 _

/-- A tick at 12.5 opens the downtime, and the runs go on from there. -/
theorem maintenance_window : ∃ s, tick oneHost windowPeriods (plainEnv 12) (25 / 2) maintainedWorld = .ok ⟨⟩ s ∧
    Maintained windowPeriods (25 / 2) maintainedWorld s 0 0 ∧
    (∀ i d c, d ∈ ∅ ∪ Set.Ico maintainedWorld.nextDowntime s.nextDowntime → c ∈ ∅ ∪ Set.Ico maintainedWorld.nextDowntime s.nextDowntime →
      (s.downtime? i d).isSome → (s.downtime? i c).isSome → d = c) := by
  obtain ⟨s, hs, hall⟩ := ((maintenance_iff maintainedWorld_initial (@MaintenanceRun.nil oneHost windowPeriods _)).2
    (plainEnv 12) (25 / 2)).mpr fun i _ p _ => window_endsLater.mpr (by decide +kernel)
  refine ⟨s, hs, hall 0 (by decide) 0 ⟨rfl, rfl, by decide +kernel⟩, ?_⟩
  exact (maintenance_iff maintainedWorld_initial (MaintenanceRun.nil.tick (plainEnv 12) (25 / 2) hs)).1

/-- In the last second of a window after which the period is never valid again, the tick raises. -/
theorem last_second_raises : Opens windowPeriods (41 / 2) maintainedWorld 0 0 ∧
    tick oneHost windowPeriods (plainEnv 20) (41 / 2) maintainedWorld = .error .typeError maintainedWorld ∧
    ¬ TickMaintains oneHost windowPeriods (plainEnv 20) (41 / 2) maintainedWorld := by
  have hopen : Opens windowPeriods (41 / 2) maintainedWorld 0 0 := ⟨rfl, rfl, by decide +kernel⟩
  have hnone : (windowPeriods.at (plainEnv 20) (41 / 2)).getNextInvalidTime 0 (⌊(41 / 2 : Rat)⌋ + 1) = none := by
    by_contra hsome
    obtain ⟨r, hr⟩ := Option.ne_none_iff_exists'.mp hsome
    exact absurd (window_endsLater.mp (at_getNextInvalidTime.mp ⟨r, hr⟩)) (by decide +kernel)
  have herr : tick oneHost windowPeriods (plainEnv 20) (41 / 2) maintainedWorld = .error .typeError maintainedWorld := by
    unfold tick
    rw [bind_eq]
    have hone : oneHost.allMyHostsAndServices.forM (checkMaintenance (windowPeriods.at (plainEnv 20) (41 / 2))) maintainedWorld =
        .error .typeError maintainedWorld := by
      show (checkMaintenance (windowPeriods.at (plainEnv 20) (41 / 2)) 0 >>= fun _ => (pure ⟨⟩ : Sched Unit)) maintainedWorld = _
      rw [bind_eq, checkMaintenance_raises hopen hnone]
    rw [hone]
  refine ⟨hopen, herr, ?_⟩
  rintro ⟨s, hs, -⟩
  rw [herr] at hs
  cases hs

end Alignak.Scheduling
