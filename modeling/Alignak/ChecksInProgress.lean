import Alignak.Checks

/-!
# The checks in progress of an item

An item is in checking as long as it has checks in progress, and each of them
must be alive: a check that is dropped without a word to its item leaves the
item in checking.
-/

namespace Alignak.Checking

open Scheduling

def alive (s : ActStatus) : Prop := s ≠ .zombie ∧ s ≠ .waitingMe

structure BusyItem (w : World) (i : Nat) (x : ItemChecks) : Prop where
  nodup : x.checksInProgress.Nodup
  ref : ∀ c ∈ x.checksInProgress, (w.check c).ref = i
  known : ∀ c ∈ x.checksInProgress, c < w.nextCheck
  live : ∀ c ∈ x.checksInProgress, alive (w.check c).status
  present : ∀ c ∈ x.checksInProgress, c ∈ w.checks ∨ c ∈ x.actions
  inChecking : x.inChecking = (x.checksInProgress != [])

def Busy (w : World) : Prop := ∀ i, BusyItem w i (w.item i)

section
variable {conf : Conf} {env : Env} {w v : World} {i c : Nat} {x y : ItemChecks}

/-! ## The parts of the world -/

@[simp] theorem modifyItem_self (f : ItemChecks → ItemChecks) : (w.modifyItem i f).item i = f (w.item i) :=
  Function.update_self ..

theorem modifyItem_ne {j : Nat} (f : ItemChecks → ItemChecks) (h : j ≠ i) : (w.modifyItem i f).item j = w.item j :=
  Function.update_of_ne h ..

theorem modifyItem_modifyItem (f g : ItemChecks → ItemChecks) :
    (w.modifyItem i f).modifyItem i g = w.modifyItem i fun x => g (f x) := by simp [World.modifyItem]

@[simp] theorem modifyCheck_self (f : Scheduling.Check → Scheduling.Check) : (w.modifyCheck c f).check c = f (w.check c) :=
  Function.update_self ..

theorem modifyCheck_ne {d : Nat} (f : Scheduling.Check → Scheduling.Check) (h : d ≠ c) :
    (w.modifyCheck c f).check d = w.check d := Function.update_of_ne h ..

/-! ## What keeps the checks in progress -/

theorem BusyItem.of_same (h : BusyItem w i x) (hl : y.checksInProgress = x.checksInProgress) (hf : y.inChecking = x.inChecking)
    (hn : w.nextCheck ≤ v.nextCheck) (hr : ∀ c < w.nextCheck, (v.check c).ref = (w.check c).ref)
    (hs : ∀ c ∈ x.checksInProgress, alive (w.check c).status → alive (v.check c).status)
    (hp : ∀ c, c ∈ w.checks ∨ c ∈ x.actions → c ∈ v.checks ∨ c ∈ y.actions) : BusyItem v i y where
  nodup := by rw [hl]; exact h.nodup
  ref c hc := by rw [hl] at hc; rw [hr c (h.known c hc)]; exact h.ref c hc
  known c hc := by rw [hl] at hc; exact Nat.lt_of_lt_of_le (h.known c hc) hn
  live c hc := by rw [hl] at hc; exact hs c hc (h.live c hc)
  present c hc := by rw [hl] at hc; exact hp c (h.present c hc)
  inChecking := by rw [hl, hf]; exact h.inChecking

theorem Busy.setItem {f : ItemChecks → ItemChecks} (h : Busy w) (hi : BusyItem w i (f (w.item i))) : Busy (w.modifyItem i f) := by
  intro j
  by_cases hj : j = i
  · subst hj
    rw [modifyItem_self]
    exact ⟨hi.nodup, hi.ref, hi.known, hi.live, hi.present, hi.inChecking⟩
  · rw [modifyItem_ne f hj]
    exact ⟨(h j).nodup, (h j).ref, (h j).known, (h j).live, (h j).present, (h j).inChecking⟩

theorem Busy.modifyItem {f : ItemChecks → ItemChecks} (h : Busy w)
    (hf : ∀ x, (f x).checksInProgress = x.checksInProgress ∧ (f x).inChecking = x.inChecking ∧ x.actions ⊆ (f x).actions) :
    Busy (w.modifyItem i f) := by
  obtain ⟨h1, h2, h3⟩ := hf (w.item i)
  exact h.setItem ((h i).of_same h1 h2 (Nat.le_refl _) (fun _ _ => rfl) (fun _ _ => id) fun c hc => hc.imp id fun ha => h3 ha)

theorem Busy.updateInChecking (h : Busy w) (i : Nat) : Checking.updateInChecking i w = w := by
  have hx : (fun x : ItemChecks => { x with inChecking := x.checksInProgress != [] }) (w.item i) = w.item i := by
    simp only [← (h i).inChecking]
  unfold Checking.updateInChecking World.modifyItem
  rw [hx, Function.update_eq_self]

theorem Busy.modifyData {f : CheckData → CheckData} (h : Busy w) : Busy (w.modifyData c f) := fun j =>
  ⟨(h j).nodup, (h j).ref, (h j).known, (h j).live, (h j).present, (h j).inChecking⟩

theorem Busy.modifyCheck {f : Scheduling.Check → Scheduling.Check} (h : Busy w) (hr : (f (w.check c)).ref = (w.check c).ref)
    (hs : ∀ i, c ∈ (w.item i).checksInProgress → alive (f (w.check c)).status) : Busy (w.modifyCheck c f) := by
  intro j
  refine (h j).of_same rfl rfl (Nat.le_refl _) (fun d _ => ?_) (fun d hd ha => ?_) fun _ => id
  · by_cases hd : d = c
    · subst hd
      rw [modifyCheck_self]
      exact hr
    · rw [modifyCheck_ne f hd]
  · by_cases he : d = c
    · subst he
      rw [modifyCheck_self]
      exact hs j hd
    · rw [modifyCheck_ne f he]
      exact ha

theorem Busy.addCheck (h : Busy w) : Busy (addCheck c w) := by
  unfold Checking.addCheck
  split
  · exact h
  · intro j
    refine (h j).of_same rfl rfl (Nat.le_refl _) (fun _ _ => rfl) (fun _ _ => id) fun d hp => ?_
    exact hp.imp (fun hd => List.mem_append_left _ hd) id

theorem Busy.addChecks {l : List Nat} (h : Busy w) : Busy (l.foldl (fun w d => Checking.addCheck d w) w) :=
  List.foldlRecOn (motive := Busy) l _ h fun _ hb _ _ => hb.addCheck

/-! ## Launching -/

theorem newCheck_check (i : Nat) (t : Int) (r : Option Nat) (b b' : Bool) {d : Nat} (h : d ≠ w.nextCheck) :
    (newCheck env i t r b b' w).check d = w.check d := Function.update_of_ne h ..

theorem newCheck_new (i : Nat) (t : Int) (r : Option Nat) (b b' : Bool) :
    (newCheck env i t r b b' w).check w.nextCheck = ⟨i, .scheduled, 3, 0, false, b, r.toList⟩ := Function.update_self ..

theorem newCheck_item (j : Nat) (t : Int) (r : Option Nat) (b b' : Bool) :
    ((newCheck env i t r b b' w).item j).checksInProgress = (w.item j).checksInProgress ∧
    ((newCheck env i t r b b' w).item j).inChecking = (w.item j).inChecking ∧
    (w.item j).actions ⊆ ((newCheck env i t r b b' w).item j).actions ∧
    (j = i → w.nextCheck ∈ ((newCheck env i t r b b' w).item j).actions) := by
  have hv : (newCheck env i t r b b' w).item = (w.modifyItem i fun x => { x with actions := x.actions ++ [w.nextCheck] }).item := rfl
  rw [hv]
  by_cases hj : j = i
  · subst hj
    rw [modifyItem_self]
    exact ⟨rfl, rfl, fun _ ha => List.mem_append_left _ ha, fun _ => List.mem_append_right _ List.mem_cons_self⟩
  · rw [modifyItem_ne _ hj]
    exact ⟨rfl, rfl, fun _ => id, fun e => absurd e hj⟩

theorem Busy.newCheck (h : Busy w) {t : Int} {r : Option Nat} {b b' : Bool} : Busy (newCheck env i t r b b' w) := by
  intro j
  obtain ⟨h1, h2, h3, -⟩ := @newCheck_item env w i j t r b b'
  refine (h j).of_same h1 h2 (Nat.le_succ _) (fun d hd => ?_) (fun d hd ha => ?_) fun c hc => hc.imp id fun ha => h3 ha
  · rw [newCheck_check i t r b b' (Nat.ne_of_lt hd)]
  · rw [newCheck_check i t r b b' (Nat.ne_of_lt ((h j).known d hd))]
    exact ha

theorem Busy.progress (h : Busy w) (hr : (w.check c).ref = i) (hn : c < w.nextCheck) (ha : alive (w.check c).status)
    (hc : c ∈ (w.item i).actions) (hnew : c ∉ (w.item i).checksInProgress) :
    Busy (Checking.updateInChecking i (w.modifyItem i fun x => { x with checksInProgress := x.checksInProgress ++ [c] })) := by
  unfold Checking.updateInChecking
  rw [modifyItem_modifyItem]
  have hi := h i
  refine h.setItem ⟨?_, fun d hd => ?_, fun d hd => ?_, fun d hd => ?_, fun d hd => ?_, rfl⟩
  · refine List.nodup_append.mpr ⟨hi.nodup, List.nodup_singleton c, fun d hd e he h => hnew ?_⟩
    exact (h.trans (List.mem_singleton.mp he)) ▸ hd
  all_goals
    rcases List.mem_append.mp hd with hd | hd
  · exact hi.ref d hd
  · rw [List.mem_singleton.mp hd]; exact hr
  · exact hi.known d hd
  · rw [List.mem_singleton.mp hd]; exact hn
  · exact hi.live d hd
  · rw [List.mem_singleton.mp hd]; exact ha
  · exact hi.present d hd
  · rw [List.mem_singleton.mp hd]; exact Or.inr hc

theorem Busy.launched (h : Busy w) {t : Int} {r : Option Nat} {b b' : Bool} :
    Busy (Checking.updateInChecking i ((Checking.newCheck env i t r b b' w).modifyItem i fun x =>
      { x with checksInProgress := x.checksInProgress ++ [w.nextCheck] })) := by
  obtain ⟨h1, -, -, h4⟩ := @newCheck_item env w i i t r b b'
  have hn := @newCheck_new env w i t r b b'
  refine Busy.progress h.newCheck (by rw [hn]) (Nat.lt_succ_self _) ?_ (h4 rfl) fun hm => ?_
  · rw [hn]
    exact ⟨nofun, nofun⟩
  · rw [h1] at hm
    exact Nat.lt_irrefl _ ((h i).known _ hm)

theorem launchDependencyCheck_busy (t : Int) (r : Option Nat) : Keeps Busy (launchDependencyCheck env i t r) := by
  refine Leads.readAt fun w hw => ?_
  cases (w.item i).checksInProgress with
  | nil => exact fun s hs => ⟨hs ▸ hw, fun _ _ _ => trivial⟩
  | cons c l =>
    refine Leads.pre (I := Busy) (Keeps.ite (fun _ => ?_) fun _ => Keeps.throw trivial) fun s hs => hs ▸ hw
    exact Keeps.bind (Keeps.modify fun s hs => hs.newCheck) fun _ => Keeps.pure _

theorem launchNewCheck_busy (t : Int) (r : Option Nat) (b : Bool) : Keeps Busy (launchNewCheck conf env i t r b) := by
  refine Leads.readAt fun w hw => ?_
  by_cases hc : isNotLaunched conf w i b = true
  · rw [if_pos hc]
    exact fun s hs => ⟨hs ▸ hw, fun _ _ _ => trivial⟩
  · rw [if_neg hc]
    rintro _ rfl
    exact ⟨hw.launched, fun _ _ _ => trivial⟩

theorem launchCheck_busy (t : Int) (r : Option Nat) (force b : Bool) : Keeps Busy (launchCheck conf env i t r force b) := by
  refine Keeps.bind (Keeps.modify fun s hs => by rw [hs.updateInChecking]; exact hs) fun _ => Keeps.read fun w => ?_
  split
  · exact Keeps.bind (Keeps.modify fun s hs => hs.modifyData) fun _ => Keeps.pure _
  · refine Keeps.ite (fun _ => launchDependencyCheck_busy t r) fun _ => Keeps.ite (fun _ => launchNewCheck_busy t r b) fun _ => ?_
    split
    · exact Keeps.throw trivial
    · exact Keeps.pure _
    · exact launchNewCheck_busy t r b

theorem schedule_busy (force : Bool) (forceTime : Option Int) : Keeps Busy (schedule conf env i force forceTime) := by
  refine Keeps.read fun w => Keeps.ite (fun _ => Keeps.pure _) fun _ => Keeps.ite (fun _ => Keeps.pure _) fun _ => ?_
  refine Keeps.ite (fun _ => Keeps.pure _) fun _ => ?_
  split
  · exact Keeps.pure _
  · exact launchCheck_busy _ _ _ _

theorem raiseDependency_busy (c i : Nat) (raised : Raised) (dep : Dependency) :
    Keeps Busy (raiseDependency conf env c i raised dep) := by
  refine Keeps.read fun w => Keeps.ite (fun _ => Keeps.pure _) fun _ => Keeps.ite (fun _ => ?_) fun _ => ?_
  · refine Keeps.bind (launchCheck_busy _ _ _ _) fun n => ?_
    split <;> exact Keeps.pure _
  · split
    · exact Keeps.pure _
    · refine Keeps.ite (fun _ => ?_) fun _ => Keeps.throw trivial
      exact Keeps.bind (Keeps.modify fun s hs => hs.modifyCheck rfl fun j hj => (hs j).live _ hj) fun _ => Keeps.pure _

theorem raiseDependenciesCheck_busy (c i : Nat) : Keeps Busy (raiseDependenciesCheck conf env c i) :=
  Keeps.foldlM fun raised dep _ => raiseDependency_busy c i raised dep

end

/-! ## The status of a consumed check -/

section
variable {conf : Scheduling.Conf} {env : Scheduling.Env}

theorem changeState_check (i : Nat) (chk : Scheduling.Check) (b : Bool) {t : Nat → Scheduling.Check} :
    Keeps (fun w => w.check = t) (changeState conf env i chk b) := by
  refine KeptByParts.changeState ⟨fun _ _ _ h => h, fun s s' hq h => ?_, ?_, ?_, ?_⟩
  · obtain ⟨-, -, -, -, h5, -⟩ := World.quiet_eq hq
    exact h5.trans h
  · exact (checkForFlexibleDowntime_core i).keeps (J := fun p => p.2.2.2 = t)
  · exact (noMoreAProblem_aside i).keeps (J := fun p => p.2.2.2.2.2.1 = t)
  · exact (setMyselfAsProblem_aside i).keeps (J := fun p => p.2.2.2.2.2.1 = t)

def finishedStatus (x : Scheduling.Check) : ActStatus := if x.dependOnMe ≠ [] then .waitingMe else .zombie

theorem resolveDependencies_finished {c : Nat} {w : Scheduling.World}
    (h : (w.check c).status = .waitConsume ∨ (w.check c).status = .waitDepend) :
    (resolveDependencies conf env c w).check =
      Function.update w.check c { w.check c with status := finishedStatus (w.check c) } := by
  have hw : (if (w.check c).status = .waitDepend then checkAndSetUnreachability conf env (w.check c).ref w else w).check =
      w.check := by
    split
    · exact (checkAndSetUnreachability_rest conf env _ w).2.2.2.1
    · rfl
  unfold resolveDependencies finishCheck
  simp only [hw, if_pos h]
  unfold Scheduling.World.setCheck finishedStatus
  simp only [hw]

theorem consumeResult_check {c : Nat} {w : Scheduling.World}
    (h : (w.check c).status = .waitConsume ∨ (w.check c).status = .waitDepend) :
    Ensures (· = w) (Scheduling.consumeResult conf env c) fun _ s => ∃ e, s.check = Function.update w.check c
      { w.check c with exitStatus := e, status := if mustWait conf w c then .waitDepend else finishedStatus (w.check c) } := by
  refine Ensures.readAt fun s hs => ?_
  cases hs
  refine Ensures.ite (fun hm => Ensures.modify ?_) fun hm => ?_
  · rintro _ rfl
    exact ⟨_, by rw [if_pos hm]; rfl⟩
  obtain ⟨-, -, -, hu, -⟩ := @updateItemInformation_rest conf env c w
  refine Ensures.bind (R := fun _ v => v = updateItemInformation conf env c w) (Ensures.modify ?_) fun _ => ?_
  · rintro _ rfl
    rfl
  refine Ensures.readAt fun v hv => ?_
  subst hv
  refine Ensures.bind (R := fun _ v => v.check = Function.update w.check c { w.check c with
    exitStatus := modulatedExitStatus conf env (w.check c), status := finishedStatus (w.check c) }) (Ensures.modify ?_) fun _ => ?_
  · rintro _ rfl
    rw [resolveDependencies_finished, hu]
    · simp [finishedStatus]
    · rw [hu]
      simpa using h
  refine Ensures.bind (changeState_check _ _ _).ensures fun _ => Ensures.modify fun s hs => ?_
  refine ⟨modulatedExitStatus conf env (w.check c), ?_⟩
  rw [if_neg hm]
  exact hs

end

section
variable {conf : Conf} {env : Env} {w v : World} {i c : Nat}

theorem onItems_ensures {α : Type} {m : Scheduling.Sched α} {Q : α → Scheduling.World → Prop}
    (h : Ensures (· = w.items) m Q) : Ensures (· = w) (onItems m) fun a v => Q a v.items ∧ v = { w with items := v.items } := by
  rintro _ rfl a v hr
  unfold onItems at hr
  cases hm : m _ with
  | ok b s =>
    rw [hm] at hr
    cases hr
    exact ⟨h _ rfl _ _ hm, rfl⟩
  | error e s =>
    rw [hm] at hr
    cases hr

structure Finished (conf : Conf) (c : Nat) (w v : World) : Prop where
  checks : v.checks = w.checks
  data : v.data = w.data
  item : v.item = (takeCheck conf c w).item
  nextCheck : v.nextCheck = w.nextCheck
  consumed : v.consumed = w.consumed ++ [c]
  check : ∃ e, v.check = Function.update w.check c
    { w.check c with exitStatus := e, status := finishedStatus (w.check c) }

theorem consumeAndAdd_finished (h : (w.check c).status = .waitConsume ∨ (w.check c).status = .waitDepend)
    (hm : mustWait conf.toConf w.items c = false) : Ensures (· = w) (consumeAndAdd conf env c) fun _ => Finished conf c w := by
  refine Ensures.bind (R := fun l v => l = [] ∧ Finished conf c w v) ?_ fun l => Ensures.modify fun v hv => ?_
  · refine Ensures.readAt fun v hv => ?_
    cases hv
    rw [if_neg (by rw [hm]; decide)]
    refine Ensures.bind (R := fun _ v => v = takeCheck conf c w) (Ensures.modify ?_) fun _ => ?_
    · rintro _ rfl
      rfl
    have hc := @consumeResult_check conf.toConf env.toEnv c (takeCheck conf c w).items h
    refine Ensures.bind (onItems_ensures hc) fun _ => Ensures.pure fun v hv => ⟨rfl, ?_⟩
    obtain ⟨⟨e, he⟩, hv⟩ := hv
    have hm' : mustWait conf.toConf (takeCheck conf c w).items c = false := hm
    rw [hm'] at he
    rw [hv]
    exact ⟨rfl, rfl, rfl, rfl, rfl, e, he⟩
  · obtain ⟨rfl, hv⟩ := hv
    exact hv

theorem removeInProgress_item : (removeInProgressCheck i c w) = w.modifyItem i fun x =>
    { x with checksInProgress := x.checksInProgress.erase c, inChecking := x.checksInProgress.erase c != [] } := by
  unfold removeInProgressCheck Checking.updateInChecking
  rw [modifyItem_modifyItem]

theorem Busy.removeInProgress (h : Busy w) : Busy (removeInProgressCheck i c w) := by
  rw [removeInProgress_item]
  have hi := h i
  have hs : ∀ d ∈ (w.item i).checksInProgress.erase c, d ∈ (w.item i).checksInProgress := fun d hd => List.mem_of_mem_erase hd
  exact h.setItem ⟨hi.nodup.erase c, fun d hd => hi.ref d (hs d hd), fun d hd => hi.known d (hs d hd),
    fun d hd => hi.live d (hs d hd), fun d hd => hi.present d (hs d hd), rfl⟩

theorem Busy.takeCheck (h : Busy w) : Busy (takeCheck conf c w) := by
  have hv : Busy (removeInProgressCheck (w.check c).ref c w) := h.removeInProgress
  have hm := hv.modifyItem (i := (w.check c).ref) (f := fun y => { y with
    output := (w.data c).output, perfData := if conf.processPerfData (w.check c).ref then (w.data c).perfData else y.perfData })
    fun x => ⟨rfl, rfl, fun _ => id⟩
  exact fun j => ⟨(hm j).nodup, (hm j).ref, (hm j).known, (hm j).live, (hm j).present, (hm j).inChecking⟩

theorem takeCheck_inProgress (j : Nat) : ((takeCheck conf c w).item j).checksInProgress =
    if j = (w.check c).ref then (w.item j).checksInProgress.erase c else (w.item j).checksInProgress := by
  have hv : ((takeCheck conf c w).item j).checksInProgress =
      ((removeInProgressCheck (w.check c).ref c w).item j).checksInProgress := by
    unfold takeCheck
    simp only
    by_cases hj : j = (w.check c).ref
    · rw [hj, modifyItem_self]
    · rw [modifyItem_ne _ hj]
  rw [hv, removeInProgress_item]
  by_cases hj : j = (w.check c).ref
  · subst hj
    rw [modifyItem_self, if_pos rfl]
  · rw [modifyItem_ne _ hj, if_neg hj]

theorem Busy.taken (h : Busy w) (j : Nat) : c ∉ ((Checking.takeCheck conf c w).item j).checksInProgress := by
  rw [takeCheck_inProgress]
  split
  · exact (h j).nodup.not_mem_erase
  · rename_i hj
    exact fun hm => hj ((h j).ref c hm).symm

theorem Finished.busy (hf : Finished conf c w v) (h : Busy w) : Busy v := by
  obtain ⟨e, he⟩ := hf.check
  intro j
  have hj : BusyItem (takeCheck conf c w) j ((takeCheck conf c w).item j) := h.takeCheck j
  have hn : c ∉ ((takeCheck conf c w).item j).checksInProgress := h.taken j
  rw [hf.item]
  refine hj.of_same rfl rfl (le_of_eq hf.nextCheck.symm) (fun d _ => ?_) (fun d hd ha => ?_) fun d hd => ?_
  · rw [he]
    by_cases hd : d = c
    · subst hd
      rw [Function.update_self]
      rfl
    · rw [Function.update_of_ne hd]
      rfl
  · have hne : d ≠ c := by
      rintro rfl
      exact hn hd
    rw [he, Function.update_of_ne hne]
    exact ha
  · rw [hf.checks]
    exact hd

theorem waits_busy (h : Busy w) (hs : (w.check c).status = .waitConsume ∨ (w.check c).status = .waitDepend)
    (hm : mustWait conf.toConf w.items c = true) : Ensures (· = w) (onItems (Scheduling.consumeResult conf.toConf env.toEnv c))
    fun _ v => Busy v ∧ v = { w with items := v.items } := by
  refine (onItems_ensures (consumeResult_check hs)).post ?_
  rintro _ v ⟨⟨e, he⟩, hv⟩
  refine ⟨?_, hv⟩
  rw [if_pos hm] at he
  have hb : Busy (w.modifyCheck c fun x => { x with exitStatus := e, status := .waitDepend }) :=
    h.modifyCheck rfl fun _ _ => ⟨nofun, nofun⟩
  rw [hv]
  intro j
  refine (hb j).of_same rfl rfl (Nat.le_refl _) (fun d _ => ?_) (fun d _ ha => ?_) fun _ => id
  · show (v.items.check d).ref = _
    rw [he]
    rfl
  · show alive (v.items.check d).status
    rw [he]
    exact ha

theorem consumeAndAdd_busy (h : Busy w) (hs : (w.check c).status = .waitConsume ∨ (w.check c).status = .waitDepend) :
    Ensures (· = w) (consumeAndAdd conf env c) fun _ => Busy := by
  by_cases hm : mustWait conf.toConf w.items c = true
  · refine Ensures.bind (R := fun _ => Busy) ?_ fun l => Ensures.modify fun v hv => hv.addChecks
    refine Ensures.readAt fun v hv => ?_
    cases hv
    rw [if_pos hm]
    refine Ensures.bind (R := fun _ => Busy) ((waits_busy h hs hm).post fun _ _ hv => hv.1) fun _ => ?_
    refine Ensures.bind (raiseDependenciesCheck_busy _ _).ensures fun _ => ?_
    exact Ensures.bind (Ensures.modify fun v hv => hv.modifyData) fun _ => Ensures.pure fun _ h => h
  · rw [Bool.not_eq_true] at hm
    exact (consumeAndAdd_finished hs hm).post fun _ v hv => hv.busy h

end

end Alignak.Checking
