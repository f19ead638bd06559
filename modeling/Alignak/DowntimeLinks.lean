import Alignak.Scheduler
import Mathlib.Logic.Relation

/-!
# Downtimes that trigger others

A downtime that names another one as its trigger is entered in the list of that
one where both are on the same item.
-/

namespace Alignak.Scheduling

def Downtime.link (x : Downtime) := (x.ref, x.triggerId, x.activateMe)

abbrev Links := (Nat → Nat → Option (Nat × Option Nat × List Nat)) × Nat

def World.links (w : World) : Links :=
  (fun i d => (w.downtime? i d).map Downtime.link, w.nextDowntime)

def Downtime.plan (x : Downtime) := (x.ref, x.fixed, x.startTime, x.endTime, x.duration, x.triggerId, x.activateMe)

abbrev Plans := (Nat → Nat → Option (Nat × Bool × Int × Int × Int × Option Nat × List Nat)) × (Nat → Option Nat) × Nat

def World.plans (w : World) : Plans :=
  (fun i d => (w.downtime? i d).map Downtime.plan, fun i => (w.downtime i).inMaintenance, w.nextDowntime)

variable {f : DowntimeState → DowntimeState} {l : Plans} {m : Sched Unit} {t u fuel : Nat}

section
variable {conf : Conf} {env : Env} {w w' : World} {i j d c : Nat} {x y : Downtime}

theorem downtime?_addDowntime (w : World) (i d : Nat) (x : Downtime) (j c : Nat) :
    (w.addDowntime i d x).downtime? j c = if j = i ∧ c = d then some x else w.downtime? j c := by
  unfold World.downtime? World.addDowntime World.modifyDowntime
  by_cases hj : j = i
  · subst hj
    simp only [Function.update_self, Dict.get?_set, true_and]
  · simp only [Function.update_of_ne hj, hj, false_and, if_false]

theorem downtime?_changeDowntime (w : World) (i d : Nat) (f : Downtime → Downtime) (j c : Nat) :
    (w.changeDowntime i d f).downtime? j c = if j = i ∧ c = d then (w.downtime? i d).map f else w.downtime? j c := by
  unfold World.changeDowntime
  cases hx : w.downtime? i d with
  | some x => exact downtime?_addDowntime w i d (f x) j c
  | none =>
    simp only [Option.map_none]
    split
    · rename_i h
      rw [h.1, h.2, hx]
    · rfl

theorem downtime?_modifyDowntime (hf : ∀ s, (f s).downtimes = s.downtimes) (j c : Nat) :
    (w.modifyDowntime i f).downtime? j c = w.downtime? j c := by
  unfold World.downtime? World.modifyDowntime
  by_cases hj : j = i
  · subst hj
    simp only [Function.update_self, hf]
  · simp only [Function.update_of_ne hj]

theorem downtime?_delDowntime (w : World) (i d j c : Nat) :
    (w.delDowntime i d).downtime? j c = if j = i ∧ c = d then none else w.downtime? j c := by
  unfold World.downtime? World.delDowntime World.modifyDowntime
  by_cases hj : j = i
  · subst hj
    simp only [Function.update_self, Dict.get?_erase, true_and]
  · simp only [Function.update_of_ne hj, hj, false_and, if_false]

theorem downtime?_of_quiet (h : w'.quiet = w.quiet) : w'.downtime? = w.downtime? := by
  obtain ⟨-, -, -, h4, -⟩ := World.quiet_eq h
  unfold World.downtime?
  rw [h4]

theorem links_of_same (h : w'.downtime? = w.downtime?) (hn : w'.nextDowntime = w.nextDowntime) : w'.links = w.links := by
  unfold World.links
  rw [h, hn]

theorem links_of_plans (h : w'.plans = w.plans) : w'.links = w.links := by
  have hplan : ∀ o o' : Option Downtime, o'.map Downtime.plan = o.map Downtime.plan → o'.map Downtime.link = o.map Downtime.link := by
    intro o o' ho
    have hp := congrArg (Option.map fun p : Nat × Bool × Int × Int × Int × Option Nat × List Nat =>
      (p.1, p.2.2.2.2.2.1, p.2.2.2.2.2.2)) ho
    rw [Option.map_map, Option.map_map] at hp
    exact hp
  refine Prod.ext (funext fun i => funext fun d => hplan _ _ ?_) (congrArg (fun p : Plans => p.2.2) h)
  exact congrFun (congrFun (congrArg Prod.fst h) i) d

theorem links_of_downtime (hd : w'.downtime = w.downtime) (hn : w'.nextDowntime = w.nextDowntime) : w'.links = w.links := by
  refine links_of_same ?_ hn
  unfold World.downtime?
  rw [hd]

theorem links_of_quiet (h : w'.quiet = w.quiet) : w'.links = w.links :=
  links_of_same (downtime?_of_quiet h) (World.quiet_eq h).2.2.2.2.2

theorem modifyDowntime_links (hf : ∀ s, (f s).downtimes = s.downtimes) :
    (w.modifyDowntime i f).links = w.links :=
  links_of_same (funext fun j => funext fun c => downtime?_modifyDowntime hf j c) rfl

theorem plans_of_downtime (hd : w'.downtime = w.downtime) (hn : w'.nextDowntime = w.nextDowntime) : w'.plans = w.plans := by
  unfold World.plans World.downtime?
  rw [hd, hn]

theorem plans_of_quiet (h : w'.quiet = w.quiet) : w'.plans = w.plans := by
  obtain ⟨-, -, -, h4, -, h6⟩ := World.quiet_eq h
  exact plans_of_downtime h4 h6

theorem modifyDowntime_plans (hf : ∀ s, (f s).downtimes = s.downtimes)
    (hm : ∀ s, (f s).inMaintenance = s.inMaintenance) : (w.modifyDowntime i f).plans = w.plans := by
  refine Prod.ext (funext fun j => funext fun c => ?_) (Prod.ext (funext fun j => ?_) rfl)
  · exact congrArg (Option.map Downtime.plan) (downtime?_modifyDowntime hf j c)
  · show ((w.modifyDowntime i f).downtime j).inMaintenance = (w.downtime j).inMaintenance
    by_cases hj : j = i
    · subst hj
      rw [World.modifyDowntime_self]
      exact hm _
    · rw [World.modifyDowntime_ne w hj]

theorem addDowntime_plans (hx : w.downtime? i d = some x) (hy : y.plan = x.plan) : (w.addDowntime i d y).plans = w.plans := by
  refine Prod.ext (funext fun j => funext fun c => ?_) (Prod.ext (funext fun j => ?_) rfl)
  · show ((w.addDowntime i d y).downtime? j c).map Downtime.plan = _
    rw [downtime?_addDowntime]
    split
    · rename_i h
      show _ = (w.downtime? j c).map Downtime.plan
      rw [h.1, h.2, hx, Option.map_some, Option.map_some, hy]
    · rfl
  · show ((w.addDowntime i d y).downtime j).inMaintenance = (w.downtime j).inMaintenance
    unfold World.addDowntime
    by_cases hj : j = i
    · subst hj
      rw [World.modifyDowntime_self]
    · rw [World.modifyDowntime_ne w hj]

theorem changeDowntime_plans {f : Downtime → Downtime} (hf : ∀ x, (f x).plan = x.plan) :
    (w.changeDowntime i d f).plans = w.plans := by
  unfold World.changeDowntime
  cases hx : w.downtime? i d with
  | none => rfl
  | some x => exact addDowntime_plans hx (hf x)

theorem changeDepth_plans (w : World) (i : Nat) (n : Int) : (w.changeDepth i n).plans = w.plans :=
  modifyDowntime_plans (f := fun s => { s with scheduledDowntimeDepth := s.scheduledDowntimeDepth + n }) (fun _ => rfl) fun _ => rfl

theorem setInScheduledDowntime_plans (w : World) (i : Nat) (b : Bool) : (w.setInScheduledDowntime i b).plans = w.plans :=
  modifyDowntime_plans (f := fun s => { s with inScheduledDowntime := b }) (fun _ => rfl) fun _ => rfl

theorem setInEffect_plans (w : World) (i d : Nat) (b : Bool) :
    (w.changeDowntime i d fun x => { x with isInEffect := b }).plans = w.plans :=
  changeDowntime_plans (f := fun x => { x with isInEffect := b }) fun _ => rfl

theorem setCanBeDeleted_plans (w : World) (i d : Nat) :
    (w.changeDowntime i d fun x => { x with canBeDeleted := true }).plans = w.plans :=
  changeDowntime_plans (f := fun x => { x with canBeDeleted := true }) fun _ => rfl

theorem setCancelled_plans (w : World) (i d : Nat) :
    (w.changeDowntime i d fun x => { x with commentId := none, canBeDeleted := true }).plans = w.plans :=
  changeDowntime_plans (f := fun x => { x with commentId := none, canBeDeleted := true }) fun _ => rfl

/-! ## What leaves the plans -/

def Downtime.started (x : Downtime) (now : Int) : Downtime :=
  { x with isInEffect := true, realEndTime := if x.fixed then x.realEndTime else now + x.duration }

theorem raiseEnterDowntime_plans (i : Nat) (w : World) : (raiseEnterDowntime conf env i w).plans = w.plans :=
  plans_of_quiet (raiseEnterDowntime_quiet i w)

theorem enter_plans : ∀ fuel i d,
    Keeps (fun w => w.plans = l) (Downtime.enter conf env fuel i d)
  | 0, _, _ => Keeps.throw trivial
  | fuel + 1, i, d => by
    unfold Downtime.enter
    refine Leads.readAt fun w hw => ?_
    cases hx : w.downtime? i d with
    | none => exact (Keeps.throw trivial : Keeps (fun w : World => w.plans = l) _).pre fun s e => e ▸ hw
    | some x =>
      refine leads_step (Leads.pre (I := fun w => w.plans = l) ?_ fun s e => ?_)
      · refine Keeps.bind (Keeps.modify fun s h => ?_) fun _ => ?_
        · exact (setInScheduledDowntime_plans _ _ _).trans ((changeDepth_plans _ _ _).trans h)
        refine Keeps.bind (Keeps.modify fun s h => (raiseEnterDowntime_plans x.ref s).trans h) fun _ => ?_
        refine Keeps.forM fun c _ => Keeps.forM fun j _ => Keeps.read fun s => ?_
        exact Keeps.ite (fun _ => enter_plans fuel j c) fun _ => Keeps.pure _
      · have hadd : (w.addDowntime i d (x.started env.now)).plans = w.plans := addDowntime_plans hx rfl
        subst e
        exact hadd.trans hw

theorem keepsLinks_of_plans {l : Links} (h : ∀ l, Keeps (fun w => w.plans = l) m) : Keeps (fun w => w.links = l) m :=
  fun s hs => ⟨(links_of_plans ((h s.plans) s rfl).1).trans hs, fun _ _ _ => trivial⟩

theorem enterDowntime_plans (i d : Nat) :
    Keeps (fun w => w.plans = l) (enterDowntime conf env i d) := Keeps.read fun _ => enter_plans _ i d

theorem endDowntime_plans (i : Nat) (w : World) : (endDowntime conf env i w).plans = w.plans := by
  unfold endDowntime
  simp only
  split
  · refine (setInScheduledDowntime_plans _ _ _).trans (Eq.trans ?_ (changeDepth_plans w i (-1)))
    exact plans_of_quiet (createNotifications_quiet ..)
  · exact changeDepth_plans w i (-1)

theorem exit_plans (i d : Nat) (w : World) : (Downtime.exit conf env i d w).plans = w.plans := by
  unfold Downtime.exit
  split
  · rfl
  · simp only
    refine (plans_of_quiet (modifyAck_quiet ..)).trans ((setCanBeDeleted_plans _ _ _).trans ?_)
    refine (plans_of_quiet (delDowntimeComment_quiet _ _ _)).trans ?_
    split
    · exact (endDowntime_plans _ _).trans (setInEffect_plans _ _ _ _)
    · rfl

theorem cancelDepth_plans (i : Nat) (w : World) : (cancelDepth i w).plans = w.plans := by
  unfold cancelDepth
  simp only
  split
  · exact (setInScheduledDowntime_plans _ _ _).trans (changeDepth_plans _ _ _)
  · exact changeDepth_plans _ _ _

theorem cancel_plans (i d : Nat) :
    Keeps (fun w => w.plans = l) (Downtime.cancel i d) := by
  unfold Downtime.cancel
  refine Keeps.read fun w => ?_
  cases w.downtime? i d with
  | none => exact Keeps.throw trivial
  | some x =>
    refine Keeps.bind (Keeps.modify fun s h => ?_) fun _ => Keeps.bind (Keeps.modify fun s h => ?_) fun _ => ?_
    · exact (cancelDepth_plans _ _).trans ((setInEffect_plans _ _ _ _).trans h)
    · refine (plans_of_quiet (modifyAck_quiet ..)).trans ((setCancelled_plans _ _ _).trans ?_)
      exact (plans_of_quiet (delDowntimeComment_quiet _ _ _)).trans h
    · exact Keeps.ite (fun _ => Keeps.throw trivial) fun _ => Keeps.pure _

theorem checkForFlexibleDowntime_plans (i : Nat) : Keeps (fun w => w.plans = l) (checkForFlexibleDowntime conf env i) := by
  refine Keeps.read fun w => Keeps.forM fun d _ => Keeps.read fun w => ?_
  cases w.downtime? i d with
  | none => exact Keeps.throw trivial
  | some x => exact Keeps.ite (fun _ => enterDowntime_plans i d) fun _ => Keeps.pure _

theorem keeps_plans_of_aside (h : Unchanged World.aside m) : Keeps (fun w => w.plans = l) m := by
  intro s hs
  have ha := h s
  simp only [World.aside, Prod.mk.injEq] at ha
  exact ⟨(plans_of_downtime ha.2.1 ha.2.2.2.2.2.2.2.2.1).trans hs, fun _ _ _ => trivial⟩

theorem changeState_plans (i : Nat) (chk : Check) (b : Bool) : Keeps (fun w => w.plans = l) (changeState conf env i chk b) :=
  KeptByParts.changeState ⟨fun _ _ _ h => h, fun _ _ hq h => (plans_of_quiet hq).trans h, checkForFlexibleDowntime_plans i,
    keeps_plans_of_aside (noMoreAProblem_aside i), keeps_plans_of_aside (setMyselfAsProblem_aside i)⟩

theorem consumeResult_plans (k : Nat) : Keeps (fun w => w.plans = l) (consumeResult conf env k) := by
  refine Keeps.read fun w => Keeps.ite (fun _ => Keeps.modify fun _ h => h) fun _ => ?_
  refine Keeps.bind (Keeps.modify fun s h => ?_) fun _ => Keeps.read fun s => ?_
  · obtain ⟨-, -, h3, -, h5⟩ := @updateItemInformation_rest conf env k s
    exact (plans_of_downtime h3 h5).trans h
  refine Keeps.bind (Keeps.modify fun t h => ?_) fun _ => ?_
  · obtain ⟨-, -, h3, h4⟩ := @resolveDependencies_rest conf env k t
    exact (plans_of_downtime h3 h4).trans h
  · exact Keeps.bind (changeState_plans _ _ _) fun _ => Keeps.modify fun _ h => h

theorem enterDowntime_links {l : Links} (i d : Nat) : Keeps (fun w => w.links = l) (enterDowntime conf env i d) :=
  keepsLinks_of_plans fun _ => enterDowntime_plans i d

theorem exit_links (i d : Nat) (w : World) : (Downtime.exit conf env i d w).links = w.links := links_of_plans (exit_plans i d w)

theorem cancel_links {l : Links} (i d : Nat) : Keeps (fun w => w.links = l) (Downtime.cancel i d) :=
  keepsLinks_of_plans fun _ => cancel_plans i d

/-! ## The links of a reachable world -/

structure Linked (conf : Conf) (w : World) : Prop where
  ref : ∀ {i d x}, w.downtime? i d = some x → x.ref = i
  made : ∀ {i d x}, w.downtime? i d = some x → d < w.nextDowntime
  single : ∀ {i j d x y}, w.downtime? i d = some x → w.downtime? j d = some y → i = j
  link : ∀ {i d x c}, w.downtime? i d = some x → c ∈ x.activateMe → i ∈ conf.allMyHostsAndServices ∧ d < c ∧
    c < w.nextDowntime ∧ ∀ {j y}, w.downtime? j c = some y → j = i ∧ y.triggerId = some d
  nodup : ∀ {i d x}, w.downtime? i d = some x → x.activateMe.Nodup

theorem Linked.same (h : Linked conf w) (j : Nat) (hj : (w.downtime? j d).isSome) (hi : (w.downtime? i d).isSome) : j = i := by
  obtain ⟨x, hx⟩ := Option.isSome_iff_exists.mp hj
  obtain ⟨y, hy⟩ := Option.isSome_iff_exists.mp hi
  exact h.single hx hy

theorem Linked.shrink (h : Linked conf w) (hn : w'.nextDowntime = w.nextDowntime)
    (hs : ∀ i d x, w'.downtime? i d = some x → ∃ y, w.downtime? i d = some y ∧ y.link = x.link) : Linked conf w' := by
  have hold : ∀ {i d x}, w'.downtime? i d = some x →
      ∃ y, w.downtime? i d = some y ∧ y.ref = x.ref ∧ y.triggerId = x.triggerId ∧ y.activateMe = x.activateMe := by
    intro i d x hx
    obtain ⟨y, hy, hl⟩ := hs i d x hx
    simp only [Downtime.link, Prod.mk.injEq] at hl
    exact ⟨y, hy, hl⟩
  refine ⟨fun hx => ?_, fun hx => ?_, fun hx hy => ?_, fun hx hc => ?_, fun hx => ?_⟩
  · obtain ⟨x', hx', h1, -⟩ := hold hx
    exact h1 ▸ h.ref hx'
  · obtain ⟨x', hx', -⟩ := hold hx
    exact hn ▸ h.made hx'
  · obtain ⟨x', hx', -⟩ := hold hx
    obtain ⟨y', hy', -⟩ := hold hy
    exact h.single hx' hy'
  · obtain ⟨x', hx', -, -, h3⟩ := hold hx
    obtain ⟨h1, h2, hlt, hy⟩ := h.link hx' (h3 ▸ hc)
    refine ⟨h1, h2, hn ▸ hlt, fun hz => ?_⟩
    obtain ⟨z', hz', -, ht, -⟩ := hold hz
    obtain ⟨e, ht'⟩ := hy hz'
    exact ⟨e, ht ▸ ht'⟩
  · obtain ⟨x', hx', -, -, h3⟩ := hold hx
    exact h3 ▸ h.nodup hx'

theorem Linked.of_links (h : Linked conf w) (hl : w'.links = w.links) : Linked conf w' := by
  have h1 : ∀ i d, (w'.downtime? i d).map Downtime.link = (w.downtime? i d).map Downtime.link := fun i d =>
    congrFun (congrFun (congrArg Prod.fst hl) i) d
  refine h.shrink (congrArg Prod.snd hl) fun i d x hx => ?_
  have h2 := h1 i d
  rw [hx, Option.map_some] at h2
  exact Option.map_eq_some_iff.mp h2.symm

theorem keepsLinked_of_plans (h : ∀ l, Keeps (fun w => w.plans = l) m) : Keeps (Linked conf) m :=
  fun s hs => ⟨hs.of_links (links_of_plans ((h s.plans) s rfl).1), fun _ _ _ => trivial⟩

theorem downtime?_newDowntime (w : World) (i : Nat) (x : Downtime) (j c : Nat) : (newDowntime i x w).downtime? j c =
    if j = i ∧ c = w.nextDowntime then some { x with commentId := some w.nextComment } else w.downtime? j c :=
  downtime?_addDowntime (w.addComment i ⟨i, 2⟩) i w.nextDowntime _ j c

theorem Linked.newDowntime (h : Linked conf w) (hr : x.ref = i) (ha : x.activateMe = []) :
    Linked conf (newDowntime i x w) := by
  have hget := downtime?_newDowntime w i x
  have hcase : ∀ {j c y}, (Scheduling.newDowntime i x w).downtime? j c = some y →
      (j = i ∧ c = w.nextDowntime ∧ y = { x with commentId := some w.nextComment }) ∨
        (c < w.nextDowntime ∧ w.downtime? j c = some y) := by
    intro j c y hy
    rw [hget] at hy
    split at hy
    · rename_i hjc
      exact Or.inl ⟨hjc.1, hjc.2, (Option.some.inj hy).symm⟩
    · exact Or.inr ⟨h.made hy, hy⟩
  have hnext : (Scheduling.newDowntime i x w).nextDowntime = w.nextDowntime + 1 := rfl
  refine ⟨fun hx => ?_, fun hx => ?_, fun hx hy => ?_, fun hx hc => ?_, fun hx => ?_⟩
  · rcases hcase hx with ⟨rfl, -, rfl⟩ | ⟨-, hx⟩
    · exact hr
    · exact h.ref hx
  · rcases hcase hx with ⟨-, rfl, -⟩ | ⟨hlt, -⟩ <;> omega
  · rcases hcase hx with ⟨rfl, rfl, -⟩ | ⟨hlt, hx⟩
    · rcases hcase hy with ⟨rfl, -⟩ | ⟨hlt, -⟩
      · rfl
      · omega
    · rcases hcase hy with ⟨-, rfl, -⟩ | ⟨-, hy⟩
      · omega
      · exact h.single hx hy
  · rcases hcase hx with ⟨-, -, rfl⟩ | ⟨-, hx⟩
    · rw [ha] at hc
      cases hc
    · obtain ⟨h1, h2, h3, h4⟩ := h.link hx hc
      refine ⟨h1, h2, by omega, fun hy => ?_⟩
      rcases hcase hy with ⟨-, rfl, -⟩ | ⟨-, hy⟩
      · omega
      · exact h4 hy
  · rcases hcase hx with ⟨-, -, rfl⟩ | ⟨-, hx⟩
    · rw [ha]
      exact List.nodup_nil
    · exact h.nodup hx

/-! ## A new link -/

/-- The body of the loop that looks for the trigger of downtime `u`. -/
def triggerTurn (i t u j : Nat) : Sched Unit := do
  if ((← get).downtime? j t).isSome then
    if ((← get).downtime? i t).isNone then throw .keyError
    else modify fun w => w.changeDowntime i t fun x => { x with activateMe := x.activateMe ++ [u] }

def World.triggerMe (w : World) (i t u : Nat) : World :=
  w.changeDowntime i t fun x => { x with activateMe := x.activateMe ++ [u] }

theorem triggerTurn_none (h : w.downtime? j t = none) : triggerTurn i t u j w = .ok ⟨⟩ w := by
  show (if (w.downtime? j t).isSome then _ else pure ⟨⟩ : Sched Unit) w = _
  rw [h]
  rfl

theorem triggerTurn_some (h : (w.downtime? j t).isSome) :
    triggerTurn i t u j w = if (w.downtime? i t).isSome then .ok ⟨⟩ (w.triggerMe i t u) else .error .keyError w := by
  show (if (w.downtime? j t).isSome then _ else pure ⟨⟩ : Sched Unit) w = _
  rw [if_pos h]
  show (if (w.downtime? i t).isNone then throw .keyError else modify _ : Sched Unit) w = _
  cases w.downtime? i t <;> rfl

theorem triggerTurns_none : ∀ {l : List Nat}, (∀ j ∈ l, w.downtime? j t = none) →
    l.forM (triggerTurn i t u) w = .ok ⟨⟩ w
  | [], _ => rfl
  | j :: l, h => by
    show (triggerTurn i t u j >>= fun _ => l.forM (triggerTurn i t u)) w = _
    rw [bind_ok (triggerTurn_none (h j List.mem_cons_self))]
    exact triggerTurns_none fun k hk => h k (List.mem_cons_of_mem _ hk)

theorem triggerTurns_state (hs : ∀ j, (w.downtime? j t).isSome → (w.downtime? i t).isSome → j = i) :
    ∀ {l : List Nat}, l.Nodup → stateAfter (l.forM (triggerTurn i t u) w) = w ∨
      i ∈ l ∧ stateAfter (l.forM (triggerTurn i t u) w) = w.triggerMe i t u
  | [], _ => Or.inl rfl
  | j :: l, hn => by
    rw [List.nodup_cons] at hn
    show stateAfter ((triggerTurn i t u j >>= fun _ => l.forM (triggerTurn i t u)) w) = w ∨
      i ∈ j :: l ∧ stateAfter ((triggerTurn i t u j >>= fun _ => l.forM (triggerTurn i t u)) w) = w.triggerMe i t u
    by_cases hj : (w.downtime? j t).isSome
    · have hturn := triggerTurn_some (i := i) (u := u) hj
      by_cases hi : (w.downtime? i t).isSome
      · rw [if_pos hi] at hturn
        have hji := hs j hj hi
        subst hji
        have hrest : l.forM (triggerTurn j t u) (w.triggerMe j t u) = .ok ⟨⟩ (w.triggerMe j t u) := by
          refine triggerTurns_none fun k hk => ?_
          have hkj : k ≠ j := fun e => hn.1 (e ▸ hk)
          unfold World.triggerMe
          rw [downtime?_changeDowntime, if_neg fun h => hkj h.1]
          by_contra hne
          exact hkj (hs k (Option.isSome_iff_ne_none.mpr hne) hj)
        rw [bind_ok hturn, hrest]
        exact Or.inr ⟨List.mem_cons_self, rfl⟩
      · rw [if_neg hi] at hturn
        rw [bind_eq, hturn]
        exact Or.inl rfl
    · rw [bind_ok (triggerTurn_none (Option.not_isSome_iff_eq_none.mp hj))]
      exact (triggerTurns_state hs hn.2).imp_right fun h => ⟨List.mem_cons_of_mem _ h.1, h.2⟩

theorem Linked.triggerMe (h : Linked conf w) (hi : i ∈ conf.allMyHostsAndServices) (hy : w.downtime? i u = some y)
    (ht : y.triggerId = some t) (hlt : t < u) (hnew : ∀ x, w.downtime? i t = some x → u ∉ x.activateMe) :
    Linked conf (w.triggerMe i t u) := by
  have hget : ∀ j c, (w.triggerMe i t u).downtime? j c = if j = i ∧ c = t then
      (w.downtime? i t).map fun x => { x with activateMe := x.activateMe ++ [u] } else w.downtime? j c :=
    downtime?_changeDowntime w i t _
  have hold : ∀ {j c z}, (w.triggerMe i t u).downtime? j c = some z → ∃ x, w.downtime? j c = some x ∧
      z.ref = x.ref ∧ z.triggerId = x.triggerId ∧
      (z.activateMe = x.activateMe ∨ j = i ∧ c = t ∧ z.activateMe = x.activateMe ++ [u]) := by
    intro j c z hz
    rw [hget] at hz
    split at hz
    · rename_i hjc
      obtain ⟨x, hx, rfl⟩ := Option.map_eq_some_iff.mp hz
      exact ⟨x, by rw [hjc.1, hjc.2]; exact hx, rfl, rfl, Or.inr ⟨hjc.1, hjc.2, rfl⟩⟩
    · exact ⟨z, hz, rfl, rfl, Or.inl rfl⟩
  have hnext : (w.triggerMe i t u).nextDowntime = w.nextDowntime := by
    unfold World.triggerMe World.changeDowntime
    split <;> rfl
  refine ⟨fun hx => ?_, fun hx => ?_, fun hx hz => ?_, fun hx hc => ?_, fun hx => ?_⟩
  · obtain ⟨x', hx', h1, -⟩ := hold hx
    exact h1 ▸ h.ref hx'
  · obtain ⟨x', hx', -⟩ := hold hx
    exact hnext ▸ h.made hx'
  · obtain ⟨x', hx', -⟩ := hold hx
    obtain ⟨z', hz', -⟩ := hold hz
    exact h.single hx' hz'
  · obtain ⟨x', hx', -, -, h3⟩ := hold hx
    rw [hnext]
    rcases h3 with h3 | ⟨rfl, rfl, h3⟩
    · obtain ⟨h1, h2, hlt, hz⟩ := h.link hx' (h3 ▸ hc)
      refine ⟨h1, h2, hlt, fun hz' => ?_⟩
      obtain ⟨z, hz'', -, e, -⟩ := hold hz'
      exact e ▸ hz hz''
    · rw [h3, List.mem_append, List.mem_singleton] at hc
      rcases hc with hc | rfl
      · obtain ⟨h1, h2, hlt, hz⟩ := h.link hx' hc
        refine ⟨h1, h2, hlt, fun hz' => ?_⟩
        obtain ⟨z, hz'', -, e, -⟩ := hold hz'
        exact e ▸ hz hz''
      · refine ⟨hi, hlt, h.made hy, fun hz' => ?_⟩
        obtain ⟨z, hz'', -, e, -⟩ := hold hz'
        have hji := h.single hz'' hy
        subst hji
        rw [hy] at hz''
        cases hz''
        exact ⟨rfl, e.trans ht⟩
  · obtain ⟨x', hx', -, -, h3⟩ := hold hx
    rcases h3 with h3 | ⟨rfl, rfl, h3⟩
    · exact h3 ▸ h.nodup hx'
    · rw [h3]
      exact List.Nodup.append (h.nodup hx') (List.nodup_singleton u) fun a ha hb =>
        hnew x' hx' (List.mem_singleton.mp hb ▸ ha)

/-! ## The steps -/

theorem scheduleDowntime_linked (fixed : Bool) (startTime endTime duration : Int) {triggerId : Option Nat}
    (h : Linked conf w) (hne : triggerId ≠ some w.nextDowntime) :
    Linked conf (stateAfter (scheduleDowntime conf i fixed startTime endTime duration triggerId w)) := by
  have hnew := h.newDowntime (i := i) (x := Downtime.create i fixed startTime endTime duration triggerId) rfl rfl
  cases triggerId with
  | none => exact hnew
  | some t =>
    show Linked conf (stateAfter ((itemsOfType conf (conf.myType i)).forM (triggerTurn i t w.nextDowntime) (newDowntime i
      (Downtime.create i fixed startTime endTime duration (some t)) w)))
    have hnodup : (itemsOfType conf (conf.myType i)).Nodup := by
      have h2 := List.nodup_append.mp conf.nodup
      unfold itemsOfType
      split
      · exact h2.1
      · exact h2.2.1
    have hitems : ∀ j ∈ itemsOfType conf (conf.myType i), j ∈ conf.allMyHostsAndServices := by
      intro j hj
      unfold itemsOfType at hj
      unfold Conf.allMyHostsAndServices
      split at hj
      · exact List.mem_append_left _ hj
      · exact List.mem_append_right _ hj
    rcases triggerTurns_state (u := w.nextDowntime) hnew.same hnodup with e | ⟨hi, e⟩
    · rw [e]
      exact hnew
    · rw [e]
      have hget := downtime?_newDowntime w i (Downtime.create i fixed startTime endTime duration (some t))
      have htne : t ≠ w.nextDowntime := fun e => hne (congrArg some e)
      by_cases ht : t < w.nextDowntime
      · refine hnew.triggerMe (hitems i hi) (y := { Downtime.create i fixed startTime endTime duration (some t) with commentId := some w.nextComment })
          ?_ rfl ht ?_
        · exact (hget i w.nextDowntime).trans (if_pos ⟨rfl, rfl⟩)
        · intro x hx hu
          have hx' : w.downtime? i t = some x := by
            rw [← hx]
            exact ((hget i t).trans (if_neg fun h => htne h.2)).symm
          exact absurd (h.link hx' hu).2.2.1 (lt_irrefl _)
      · -- no downtime has that identifier
        have hnone : (newDowntime i (Downtime.create i fixed startTime endTime duration (some t)) w).downtime? i t = none := by
          cases hx : (newDowntime i (Downtime.create i fixed startTime endTime duration (some t)) w).downtime? i t with
          | none => rfl
          | some x =>
            have hx' : w.downtime? i t = some x := by
              rw [← hx]
              exact ((hget i t).trans (if_neg fun h => htne h.2)).symm
            exact absurd (h.made hx') ht
        unfold World.triggerMe World.changeDowntime
        rw [hnone]
        exact hnew

theorem deleteMarked_linked (i : Nat) (h : Linked conf w) : Linked conf (deleteMarked i w) := by
  have hdel : ∀ (w : World) (d : Nat), Linked conf w → Linked conf (w.delDowntime i d) := by
    intro w d h
    refine h.shrink rfl fun j c x hx => ⟨x, ?_, rfl⟩
    rw [downtime?_delDowntime] at hx
    split at hx
    · cases hx
    · exact hx
  unfold deleteMarked
  refine List.foldlRecOn _ _ h fun w hw d _ => ?_
  split
  · split
    · exact hdel w d hw
    · exact hw
  · exact hw

theorem checkMaintenance_linked (i : Nat) : Keeps (Linked conf) (checkMaintenance env i) := by
  have hm : ∀ (w : World) (m : Option Nat), Linked conf w → Linked conf (w.modifyDowntime i fun s => { s with inMaintenance := m }) :=
    fun w m h => h.of_links (modifyDowntime_links (f := fun s => { s with inMaintenance := m }) fun _ => rfl)
  refine Keeps.read fun w => ?_
  split
  · exact Keeps.pure _
  · refine Keeps.ite (fun _ => ?_) fun _ => Keeps.pure _
    split
    · exact Keeps.throw trivial
    · split
      · exact Keeps.throw trivial
      · exact Keeps.bind (Keeps.modify fun s h => h.newDowntime rfl rfl) fun _ => Keeps.modify fun s h => hm s _ h
  · exact Keeps.ite (fun _ => Keeps.modify fun s h => hm s _ h) fun _ => Keeps.pure _

theorem checkStartStop_plans (i d : Nat) : Keeps (fun w => w.plans = l) (checkStartStop conf env i d) := by
  refine Keeps.read fun w => ?_
  cases w.downtime? i d with
  | none => exact Keeps.throw trivial
  | some x =>
    exact Keeps.ite (fun _ => Keeps.modify fun s h => (exit_plans i d s).trans h) fun _ =>
      Keeps.ite (fun _ => enterDowntime_plans i d) fun _ => Keeps.pure _

theorem updateDowntimesAndComments_linked : Keeps (Linked conf) (updateDowntimesAndComments conf env) := by
  refine Keeps.bind (Keeps.forM fun i _ => checkMaintenance_linked i) fun _ => ?_
  refine Keeps.bind (Keeps.modify fun s h => List.foldlRecOn _ _ h fun w hw i _ => deleteMarked_linked i hw) fun _ => ?_
  refine Keeps.forM fun i _ => Keeps.read fun w => Keeps.forM fun d _ => ?_
  exact keepsLinked_of_plans fun l => checkStartStop_plans i d

theorem delDowntimeCommand_plans {l : Plans} (t : ItemType) (d : Nat) : Keeps (fun w => w.plans = l) (delDowntimeCommand conf t d) := by
  refine Keeps.read fun w => ?_
  split
  · exact Keeps.pure _
  · exact cancel_plans _ d

theorem runEvent_linked (env : Env) {ev : Event} (h : Linked conf w) (he : ev.Enabled w) : Linked conf (stateAfter (runEvent conf env ev w)) := by
  by_cases hq : ev.isQuiet = true
  · exact h.of_links (links_of_quiet (runEvent_quiet conf env hq w))
  cases ev with
  | receiveResult c chk => exact h.of_links rfl
  | consumeResult c => exact (keepsLinked_of_plans fun l => consumeResult_plans c : Keeps (Linked conf) _) w h |>.1
  | updateDowntimesAndComments => exact (updateDowntimesAndComments_linked w h).1
  | command cmd =>
    cases cmd with
    | scheduleDowntime i fixed startTime endTime duration t => exact scheduleDowntime_linked fixed startTime endTime duration h he
    | delDowntime t d =>
      exact ((keepsLinked_of_plans fun l => delDowntimeCommand_plans t d : Keeps (Linked conf) (delDowntimeCommand conf t d)) w h).1
    | changeMaxCheckAttempts i n => exact h.of_links rfl
    | changeSettings i f => exact h.of_links rfl
    | _ => exact absurd rfl hq
  | _ => exact absurd rfl hq

theorem Initial.linked (h : Initial w) : Linked conf w := by
  have hnone : ∀ i d, w.downtime? i d = none := by
    intro i d
    unfold World.downtime?
    rw [h.downtime i]
    rfl
  refine ⟨fun hx => ?_, fun hx => ?_, fun hx _ => ?_, fun hx _ => ?_, fun hx => ?_⟩ <;> rw [hnone] at hx <;> cases hx

theorem Step.linked {ev : Event} (hs : Step conf env w ev w') (h : Linked conf w) : Linked conf w' := by
  rw [hs.after]
  exact runEvent_linked env h hs.enabled

theorem Reachable.linked (h : Reachable conf w) : Linked conf w := by
  obtain ⟨w₀, trace, h0, hr⟩ := h
  exact hr.invariant conf (P := fun _ => True) (fun _ _ => trivial) h0.linked fun w env ev w' hI _ hs => hs.linked hI

/-! ## The start of a downtime -/

/-- Downtime `c` has downtime `d` as its trigger. -/
def World.Names (w : World) (d c : Nat) : Prop := ∃ j y, w.downtime? j c = some y ∧ y.triggerId = some d

/-- The downtimes that `d` triggers, by themselves or by others. -/
def World.Triggers (w : World) : Nat → Nat → Prop := Relation.ReflTransGen w.Names

/-- Downtime `c` is on the list of downtime `d`. -/
def World.Lists (w : World) (d c : Nat) : Prop := ∃ i x y, w.downtime? i d = some x ∧ c ∈ x.activateMe ∧ w.downtime? i c = some y

def World.Hangs (w : World) : Nat → Nat → Prop := Relation.ReflTransGen w.Lists

theorem Linked.triggers_of_hangs (h : Linked conf w) (hd : w.Hangs d c) : w.Triggers d c := by
  refine Relation.ReflTransGen.mono (r := w.Lists) ?_ d c hd
  rintro a b ⟨i, x, y, hx, hb, hy⟩
  exact ⟨i, y, hy, ((h.link hx hb).2.2.2 hy).2⟩

theorem entry_of_links (hl : w'.links = w.links) (hx : w'.downtime? i d = some x) :
    ∃ y, w.downtime? i d = some y ∧ y.link = x.link := by
  have h1 : (w'.downtime? i d).map Downtime.link = (w.downtime? i d).map Downtime.link :=
    congrFun (congrFun (congrArg Prod.fst hl) i) d
  rw [hx, Option.map_some] at h1
  exact Option.map_eq_some_iff.mp h1.symm

theorem none_of_links (hl : w'.links = w.links) (hx : w.downtime? i d = none) : w'.downtime? i d = none := by
  cases h : w'.downtime? i d with
  | none => rfl
  | some y =>
    obtain ⟨x, h', -⟩ := entry_of_links hl h
    rw [hx] at h'
    cases h'

theorem lists_of_links (hl : w'.links = w.links) (h : w'.Lists d c) : w.Lists d c := by
  obtain ⟨i, x, y, hx, hc, hy⟩ := h
  obtain ⟨x', hx', e⟩ := entry_of_links hl hx
  obtain ⟨y', hy', -⟩ := entry_of_links hl hy
  simp only [Downtime.link, Prod.mk.injEq] at e
  exact ⟨i, x', y', hx', e.2.2 ▸ hc, hy'⟩

theorem hangs_iff_of_links (hl : w'.links = w.links) : w'.Hangs d c ↔ w.Hangs d c :=
  ⟨Relation.ReflTransGen.mono (fun _ _ => lists_of_links hl) d c, Relation.ReflTransGen.mono (fun _ _ => lists_of_links hl.symm) d c⟩

/-- The downtimes of `S` are in effect, and the others are as before. -/
structure Started (S : Nat → Prop) (w w' : World) : Prop where
  links : w'.links = w.links
  inside : ∀ {j c y}, w.downtime? j c = some y → S c → ∃ y', w'.downtime? j c = some y' ∧ y'.isInEffect = true
  outside : ∀ {j c y}, w.downtime? j c = some y → ¬ S c → w'.downtime? j c = some y

theorem Started.refl (w : World) : Started (fun _ => False) w w := ⟨rfl, fun _ h => h.elim, fun hy _ => hy⟩

theorem Started.trans {S T : Nat → Prop} {u : World} (h : Started S w w') (h' : Started T w' u) :
    Started (fun c => S c ∨ T c) w u := by
  refine ⟨h'.links.trans h.links, fun {j c y} hy hc => ?_, fun {j c y} hy hc => ?_⟩
  · by_cases hs : S c
    · obtain ⟨y', hy', he⟩ := h.inside hy hs
      by_cases ht : T c
      · exact h'.inside hy' ht
      · exact ⟨y', h'.outside hy' ht, he⟩
    · exact h'.inside (h.outside hy hs) (hc.resolve_left hs)
  · exact h'.outside (h.outside hy fun hs => hc (Or.inl hs)) fun ht => hc (Or.inr ht)

theorem Started.congr {S T : Nat → Prop} (h : Started S w w') (hst : ∀ c, S c ↔ T c) : Started T w w' :=
  ⟨h.links, fun hy hc => h.inside hy ((hst _).mpr hc), fun hy hc => h.outside hy fun hs => hc ((hst _).mp hs)⟩

theorem forM_none {f : Nat → Sched PUnit} : ∀ {l : List Nat}, (∀ j ∈ l, f j w = .ok ⟨⟩ w) → l.forM f w = .ok ⟨⟩ w
  | [], _ => rfl
  | j :: l, h => by
    show (f j >>= fun _ => l.forM f) w = _
    rw [bind_ok (h j List.mem_cons_self)]
    exact forM_none fun k hk => h k (List.mem_cons_of_mem _ hk)

theorem forM_once {f : Nat → Sched PUnit} (hi : f i w = .ok ⟨⟩ w') : ∀ {l : List Nat}, l.Nodup → i ∈ l →
    (∀ j ∈ l, j ≠ i → f j w = .ok ⟨⟩ w ∧ f j w' = .ok ⟨⟩ w') → l.forM f w = .ok ⟨⟩ w'
  | j :: l, hn, hmem, h => by
    rw [List.nodup_cons] at hn
    show (f j >>= fun _ => l.forM f) w = _
    by_cases hj : j = i
    · subst hj
      rw [bind_ok hi]
      exact forM_none fun k hk => (h k (List.mem_cons_of_mem _ hk) fun e => hn.1 (e ▸ hk)).2
    · rw [bind_ok (h j List.mem_cons_self hj).1]
      exact forM_once hi hn.2 ((List.mem_cons.mp hmem).resolve_left (Ne.symm hj)) fun k hk => h k (List.mem_cons_of_mem _ hk)

def enterTurn (conf : Conf) (env : Env) (fuel c : Nat) : Sched Unit :=
  conf.allMyHostsAndServices.forM fun j => do
    if ((← get).downtime? j c).isSome then Downtime.enter conf env fuel j c

theorem enterTurn_none (h : ∀ j, w.downtime? j c = none) : enterTurn conf env fuel c w = .ok ⟨⟩ w := by
  refine forM_none fun j _ => ?_
  show (if (w.downtime? j c).isSome then _ else pure ⟨⟩ : Sched Unit) w = _
  rw [h j]
  rfl

theorem enterTurn_run (h : Linked conf w) (hi : i ∈ conf.allMyHostsAndServices) (hy : w.downtime? i c = some y)
    (henter : Downtime.enter conf env fuel i c w = .ok ⟨⟩ w') (hl : w'.links = w.links) : enterTurn conf env fuel c w = .ok ⟨⟩ w' := by
  have hnoop (t : World) (j : Nat) (ht : t.downtime? j c = none) :
      (do if ((← get).downtime? j c).isSome then Downtime.enter conf env fuel j c : Sched Unit) t = .ok ⟨⟩ t := by
    show (if (t.downtime? j c).isSome then _ else pure ⟨⟩ : Sched Unit) t = _
    rw [ht]
    rfl
  have hother (j : Nat) (hj : j ≠ i) : w.downtime? j c = none := by
    cases hz : w.downtime? j c with
    | none => rfl
    | some z => exact absurd (h.single hz hy) hj
  refine forM_once (i := i) ?_ conf.nodup hi fun j _ hj => ⟨hnoop w j (hother j hj), hnoop w' j (none_of_links hl (hother j hj))⟩
  show (if (w.downtime? i c).isSome then _ else pure ⟨⟩ : Sched Unit) w = _
  rw [hy]
  exact henter

theorem enterTurns_started {S : Nat → Nat → Prop} : ∀ {l : List Nat} {w : World},
    (∀ c ∈ l, ∀ s, s.links = w.links → ∃ s', enterTurn conf env fuel c s = .ok ⟨⟩ s' ∧ Started (S c) s s') →
    ∃ w', l.forM (enterTurn conf env fuel) w = .ok ⟨⟩ w' ∧ Started (fun k => ∃ c ∈ l, S c k) w w'
  | [], w, _ => ⟨w, rfl, (Started.refl w).congr fun k => by simp⟩
  | c :: l, w, h => by
    obtain ⟨s, hs, hst⟩ := h c List.mem_cons_self w rfl
    obtain ⟨s', hs', hst'⟩ := enterTurns_started (l := l) (w := s) fun c' hc' t ht =>
      h c' (List.mem_cons_of_mem _ hc') t (ht.trans hst.links)
    refine ⟨s', ?_, (hst.trans hst').congr fun k => by simp⟩
    show (enterTurn conf env fuel c >>= fun _ => l.forM (enterTurn conf env fuel)) w = _
    rw [bind_ok hs, hs']

def World.startDowntime (conf : Conf) (env : Env) (w : World) (i d : Nat) (x : Downtime) : World :=
  raiseEnterDowntime conf env x.ref (((w.addDowntime i d (x.started env.now)).changeDepth x.ref 1).setInScheduledDowntime x.ref true)

theorem downtime?_startDowntime (w : World) (i d : Nat) (x : Downtime) (j c : Nat) :
    (w.startDowntime conf env i d x).downtime? j c = if j = i ∧ c = d then some (x.started env.now) else w.downtime? j c := by
  rw [← downtime?_addDowntime]
  unfold World.startDowntime
  rw [downtime?_of_quiet (raiseEnterDowntime_quiet _ _)]
  refine (downtime?_modifyDowntime (f := fun s => { s with inScheduledDowntime := true }) (fun _ => rfl) j c).trans ?_
  exact downtime?_modifyDowntime (f := fun s => { s with scheduledDowntimeDepth := s.scheduledDowntimeDepth + 1 }) (fun _ => rfl) j c

theorem startDowntime_started (env : Env) (h : Linked conf w) (hx : w.downtime? i d = some x) :
    Started (· = d) w (w.startDowntime conf env i d x) := by
  have hget : ∀ j c, (w.startDowntime conf env i d x).downtime? j c =
      if j = i ∧ c = d then some (x.started env.now) else w.downtime? j c := downtime?_startDowntime w i d x
  refine ⟨?_, fun {j c y} hy hc => ?_, fun {j c y} hy hc => ?_⟩
  · have hadd : (w.addDowntime i d (x.started env.now)).plans = w.plans := addDowntime_plans hx rfl
    refine links_of_plans ((raiseEnterDowntime_plans _ _).trans ((setInScheduledDowntime_plans _ _ _).trans ?_))
    exact (changeDepth_plans _ _ _).trans hadd
  · subst hc
    have hj := h.single hy hx
    subst hj
    exact ⟨_, (hget _ _).trans (if_pos ⟨rfl, rfl⟩), rfl⟩
  · rw [hget, if_neg fun e => hc e.2]
    exact hy

theorem enter_eq (hx : w.downtime? i d = some x) : Downtime.enter conf env (fuel + 1) i d w =
    x.activateMe.forM (enterTurn conf env fuel) (w.startDowntime conf env i d x) := by
  rw [Downtime.enter, get_bind, hx]
  rfl

theorem enter_started (env : Env) : ∀ (fuel : Nat) {w : World} {i d : Nat} {x : Downtime}, Linked conf w → w.downtime? i d = some x →
    w.nextDowntime ≤ d + fuel → ∃ w', Downtime.enter conf env fuel i d w = .ok ⟨⟩ w' ∧ Started (w.Hangs d) w w'
  | 0, w, i, d, x, h, hx, hf => absurd (h.made hx) (by omega)
  | fuel + 1, w, i, d, x, h, hx, hf => by
    have hstart := startDowntime_started env h hx
    obtain ⟨w', hw', hst⟩ := @enterTurns_started fuel conf env
      (fun c k => (∃ y, w.downtime? i c = some y) ∧ w.Hangs c k) x.activateMe (w.startDowntime conf env i d x) (by
      intro c hc s hs
      have hl : s.links = w.links := hs.trans hstart.links
      obtain ⟨hi, hdc, -, hon⟩ := h.link hx hc
      cases hy : w.downtime? i c with
      | none =>
        -- the downtime is on the same item, if it is still there
        refine ⟨s, enterTurn_none fun j => none_of_links hl ?_, (Started.refl s).congr fun k => ?_⟩
        · cases hz : w.downtime? j c with
          | none => rfl
          | some z =>
            have hj := (hon hz).1
            subst hj
            rw [hy] at hz
            cases hz
        · simp
      | some y =>
        obtain ⟨y', hy', -⟩ := entry_of_links hl.symm hy
        have hnext : s.nextDowntime = w.nextDowntime := congrArg Prod.snd hl
        obtain ⟨s', hs', hst'⟩ := enter_started env fuel (h.of_links hl) hy' (by omega)
        refine ⟨s', enterTurn_run (h.of_links hl) hi hy' hs' hst'.links, hst'.congr fun k => ?_⟩
        rw [hangs_iff_of_links hl]
        exact ⟨fun hk => ⟨⟨y, rfl⟩, hk⟩, fun hk => hk.2⟩)
    refine ⟨w', (enter_eq hx).trans hw', (hstart.trans hst).congr fun k => ?_⟩
    constructor
    · rintro (rfl | ⟨c, hc, ⟨y, hy⟩, hk⟩)
      · exact Relation.ReflTransGen.refl
      · exact Relation.ReflTransGen.head ⟨i, x, y, hx, hc, hy⟩ hk
    · intro hk
      rcases Relation.ReflTransGen.cases_head hk with rfl | ⟨c, ⟨j, x', y, hx', hc, hy⟩, hk⟩
      · exact Or.inl rfl
      · have hji := h.single hx' hx
        subst hji
        rw [hx] at hx'
        cases hx'
        exact Or.inr ⟨c, hc, ⟨y, hy⟩, hk⟩

/-! ## The cancellation of a downtime -/

def World.cancelDowntime (w : World) (i d : Nat) (x : Downtime) : World :=
  (((cancelDepth x.ref (w.changeDowntime i d fun x => { x with isInEffect := false })).delDowntimeComment x.ref
    x.commentId).changeDowntime i d fun x => { x with commentId := none, canBeDeleted := true }).modifyAck x.ref fun a =>
    { a with inScheduledDowntimeDuringLastCheck := true }

theorem cancel_eq (hx : w.downtime? i d = some x) : Downtime.cancel i d w =
    if x.activateMe ≠ [] then .error .attributeError (w.cancelDowntime i d x) else .ok ⟨⟩ (w.cancelDowntime i d x) := by
  unfold Downtime.cancel
  rw [get_bind, hx]
  show (if x.activateMe ≠ [] then throw .attributeError else pure ⟨⟩ : Sched Unit) (w.cancelDowntime i d x) = _
  split <;> rfl

theorem downtime?_cancelDowntime (hx : w.downtime? i d = some x) (j c : Nat) : (w.cancelDowntime i d x).downtime? j c =
    if j = i ∧ c = d then some { x with commentId := none, isInEffect := false, canBeDeleted := true } else w.downtime? j c := by
  have hdepth : ∀ (u : World), (cancelDepth x.ref u).downtime? = u.downtime? := by
    intro u
    have hd : (u.changeDepth x.ref (-1)).downtime? = u.downtime? := funext fun j => funext fun c =>
      downtime?_modifyDowntime (f := fun s => { s with scheduledDowntimeDepth := s.scheduledDowntimeDepth + -1 }) (fun _ => rfl) j c
    unfold cancelDepth
    simp only
    split
    · refine Eq.trans (funext fun j => funext fun c => ?_) hd
      exact downtime?_modifyDowntime (f := fun s => { s with inScheduledDowntime := false }) (fun _ => rfl) j c
    · exact hd
  unfold World.cancelDowntime
  rw [downtime?_of_quiet (modifyAck_quiet ..), downtime?_changeDowntime, downtime?_of_quiet (delDowntimeComment_quiet ..), hdepth]
  simp only [downtime?_changeDowntime, hx, and_self, if_true, Option.map_some]
  split <;> rfl

/-! ## The downtimes that are triggered -/

variable (conf env) in
def StartsTriggered (w : World) (i d : Nat) : Prop :=
  ∃ w', enterDowntime conf env i d w = .ok ⟨⟩ w' ∧ ∀ j c y, w.downtime? j c = some y →
    (w.Triggers d c → ∃ y', w'.downtime? j c = some y' ∧ y'.isInEffect = true) ∧
    (¬ w.Triggers d c → w'.downtime? j c = some y)

def CancelsTriggered (w : World) (i d : Nat) : Prop :=
  ∃ w', Downtime.cancel i d w = .ok ⟨⟩ w' ∧ ∀ j c y, w.Triggers d c → w'.downtime? j c = some y →
    y.canBeDeleted = true ∧ y.isInEffect = false

def Listed (w : World) (d : Nat) : Prop :=
  ∀ j c y, w.downtime? j c = some y → w.Triggers d c → w.Hangs d c ∨ y.isInEffect = true

def TriggersNone (w : World) (d : Nat) (x : Downtime) : Prop :=
  x.activateMe = [] ∧ ∀ j c y, w.downtime? j c = some y → c ≠ d → w.Triggers d c → y.canBeDeleted = true ∧ y.isInEffect = false

theorem startsTriggered_iff (h : Linked conf w) (hx : w.downtime? i d = some x) : StartsTriggered conf env w i d ↔ Listed w d := by
  obtain ⟨w', hok, hst⟩ := enter_started env (w.nextDowntime + 1) h hx (by omega)
  have hrun : enterDowntime conf env i d w = .ok ⟨⟩ w' := hok
  constructor
  · rintro ⟨w'', hok', hall⟩ j c y hy ht
    rw [hrun] at hok'
    cases hok'
    by_cases hc : w.Hangs d c
    · exact Or.inl hc
    · obtain ⟨y', hy', he⟩ := (hall j c y hy).1 ht
      rw [hst.outside hy hc] at hy'
      cases hy'
      exact Or.inr he
  · intro hl
    refine ⟨w', hrun, fun j c y hy => ⟨fun ht => ?_, fun ht => hst.outside hy fun hc => ht (h.triggers_of_hangs hc)⟩⟩
    by_cases hc : w.Hangs d c
    · exact hst.inside hy hc
    · exact ⟨y, hst.outside hy hc, (hl j c y hy ht).resolve_left hc⟩

theorem cancelsTriggered_iff (h : Linked conf w) (hx : w.downtime? i d = some x) : CancelsTriggered w i d ↔ TriggersNone w d x := by
  have heq := cancel_eq hx
  have hget := downtime?_cancelDowntime hx
  constructor
  · rintro ⟨w', hok, hall⟩
    rw [heq] at hok
    split at hok
    · cases hok
    · rename_i hnil
      cases hok
      refine ⟨not_not.mp hnil, fun j c y hy hc ht => hall j c y ht ?_⟩
      rw [hget, if_neg fun e => hc e.2]
      exact hy
  · rintro ⟨hnil, hall⟩
    rw [if_neg (not_not.mpr hnil)] at heq
    refine ⟨_, heq, fun j c y ht hy => ?_⟩
    rw [hget] at hy
    split at hy
    · cases hy
      exact ⟨rfl, rfl⟩
    · rename_i hne
      refine hall j c y hy (fun hc => hne ⟨?_, hc⟩) ht
      subst hc
      exact h.single hy hx

/-- In a reachable world, the start is right exactly when what the downtime
triggers is on its lists, and the cancellation exactly when it triggers none. -/
theorem triggered_iff (hr : Reachable conf w) (hx : w.downtime? i d = some x) :
    (StartsTriggered conf env w i d ↔ Listed w d) ∧ (CancelsTriggered w i d ↔ TriggersNone w d x) :=
  ⟨startsTriggered_iff hr.linked hx, cancelsTriggered_iff hr.linked hx⟩

end

/-! ## A downtime that triggers another one -/

def triggering : List (Env × Event) :=
  [(plainEnv 10, .command (.scheduleDowntime 0 true 100 200 100 none)),
    (plainEnv 20, .command (.scheduleDowntime 0 true 100 200 100 (some 0)))]

def triggeringWorld : World := worldAfter oneHost startWorld triggering

def triggeringDowntime : Downtime := { Downtime.create 0 true 100 200 100 none with activateMe := [1], commentId := some 0 }

theorem triggeringWorld_reachable : Reachable oneHost triggeringWorld :=
  ⟨startWorld, _, startWorld_initial, run_of_executes oneHost (show executes oneHost startWorld triggering = true by decide)⟩

theorem triggeringWorld_downtimes : triggeringWorld.downtime? 0 0 = some triggeringDowntime ∧
    triggeringWorld.downtime? 0 1 = some { Downtime.create 0 true 100 200 100 (some 0) with commentId := some 1 } := by
  decide

theorem triggeringWorld_entries {j c : Nat} {y : Downtime} (hy : triggeringWorld.downtime? j c = some y) : c = 0 ∨ c = 1 := by
  have hlt : c < 2 := triggeringWorld_reachable.linked.made hy
  omega

theorem triggered_started : StartsTriggered oneHost (plainEnv 100) triggeringWorld 0 0 := by
  refine (triggered_iff triggeringWorld_reachable triggeringWorld_downtimes.1).1.mpr fun j c y hy ht => Or.inl ?_
  rcases triggeringWorld_entries hy with rfl | rfl
  · exact Relation.ReflTransGen.refl
  · refine Relation.ReflTransGen.single ⟨0, triggeringDowntime, _, triggeringWorld_downtimes.1, ?_, triggeringWorld_downtimes.2⟩
    exact List.mem_singleton.mpr rfl

/-- The cancellation of the first one raises, and leaves the second one to start. -/
theorem cancelled_trigger : ∃ w x, Reachable oneHost w ∧ w.downtime? 0 0 = some x ∧ w.Triggers 0 1 ∧ ¬ CancelsTriggered w 0 0 := by
  refine ⟨triggeringWorld, _, triggeringWorld_reachable, triggeringWorld_downtimes.1, ?_, ?_⟩
  · exact Relation.ReflTransGen.single ⟨0, _, triggeringWorld_downtimes.2, rfl⟩
  · rintro ⟨w', hok, -⟩
    rw [cancel_eq triggeringWorld_downtimes.1] at hok
    cases hok

def hostPair : Conf := { oneHost with hosts := [0, 1], nodup := by decide }

def firstDowntime : World := worldAfter hostPair startWorld [(plainEnv 10, .command (.scheduleDowntime 0 true 100 200 100 none))]

end Alignak.Scheduling
