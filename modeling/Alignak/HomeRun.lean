import Alignak.Satellite

/-!
# The results that wait for their return

A push that is accepted takes the results of a scheduler away, and so does a
push that the link or the network refuses: a satellite keeps every result just
in the runs in which no push fails.
-/

namespace Alignak.Satellites

section
variable {conf : Conf} {s s' : Satellite} {u v id : Nat} {link : SchedulerLink}

def Pending (s : Satellite) (u id : Nat) : Prop := ∃ link, s.schedulers.get? u = some link ∧ id ∈ link.waitHomerun.keys

/-- `push_results` has something to push there. -/
def Busy (s : Satellite) (u : Nat) : Prop :=
  ∃ link, s.schedulers.get? u = some link ∧ link.active = true ∧ link.waitHomerun.entries ≠ []

def Connected (s : Satellite) (u : Nat) : Prop :=
  ∃ link, s.schedulers.get? u = some link ∧ link.con = true ∧ link.runningId ≠ 0

/-- The call for the link is made: the ones before it have not raised. -/
def Calls (s : Satellite) (u : Nat) : Prop :=
  Busy s u ∧ Connected s u ∧ ∀ v ∈ s.schedulers.keys.takeWhile (· ≠ u), Busy s v → Connected s v

def Accepts (s : Satellite) (response : Nat → Dispatching.Response Bool) (u : Nat) : Prop :=
  ∃ link, s.schedulers.get? u = some link ∧ link.alive = true ∧ link.reachable = true ∧ response u = .content true

def Turn.Delivers (t : Turn) (u id : Nat) : Prop :=
  ∃ response, t.event = .pushResults response ∧ Calls t.state u ∧ Accepts t.state response u ∧ Pending t.state u id

def Turn.Accepted (t : Turn) : Prop := ∀ response, t.event = .pushResults response → ∀ u, Calls t.state u → Accepts t.state response u

/-! ## The loop over the links -/

def waiting (s : Satellite) (u : Nat) : Option (Dict Nat Action) := (s.schedulers.get? u).map (·.waitHomerun)

theorem pending_iff : Pending s u id ↔ ∃ w, waiting s u = some w ∧ id ∈ w.keys := by
  unfold Pending waiting
  constructor
  · rintro ⟨link, hl, hk⟩
    exact ⟨link.waitHomerun, by rw [hl]; rfl, hk⟩
  · rintro ⟨w, hw, hk⟩
    obtain ⟨link, hl, rfl⟩ := Option.map_eq_some_iff.mp hw
    exact ⟨link, hl, hk⟩

theorem get?_setScheduler {x : SchedulerLink} :
    (s.setScheduler u x).schedulers.get? v = if v = u then some x else s.schedulers.get? v := Dict.get?_set

theorem waiting_setScheduler {x : SchedulerLink} :
    waiting (s.setScheduler u x) v = if v = u then some x.waitHomerun else waiting s v := by
  unfold waiting
  rw [get?_setScheduler]
  split <;> rfl

theorem waiting_setScheduler_of_eq {link' : SchedulerLink} (hl : s.schedulers.get? u = some link)
    (hw : link'.waitHomerun = link.waitHomerun) : waiting (s.setScheduler u link') v = waiting s v := by
  rw [waiting_setScheduler]
  split
  · rename_i hv
    subst hv
    unfold waiting
    rw [hl, hw]
    rfl
  · rfl

theorem call_ok {α : Type} {n : Int} {x : Dispatching.SatelliteLink} (r : Dispatching.Response α) (hc : x.con = true)
    (hr : x.runningId ≠ 0) : ∃ y a, call n x r = (y, .ok a) := by
  unfold call
  rw [if_neg (by simp [hc, hr])]
  split
  · exact ⟨_, _, rfl⟩
  · split
    · exact ⟨_, _, rfl⟩
    · cases r <;> exact ⟨_, _, rfl⟩

theorem call_linkError {α : Type} {n : Int} {x : Dispatching.SatelliteLink} (r : Dispatching.Response α)
    (h : ¬ (x.con = true ∧ x.runningId ≠ 0)) : call n x r = (x, .error .linkError) := by
  unfold call
  rw [if_pos]
  by_cases hc : x.con = true
  · have hr : x.runningId = 0 := by
      by_contra hr
      exact h ⟨hc, hr⟩
    simp [hr]
  · simp [hc]

theorem pushResultsTo_cases (response : Dispatching.Response Bool) (hl : s.schedulers.get? u = some link) :
    (¬ Busy s u ∧ pushResultsTo response u s = .ok ⟨⟩ s) ∨
    (Busy s u ∧ ¬ Connected s u ∧ ∃ e s', pushResultsTo response u s = .error e s' ∧ ∀ v, waiting s' v = waiting s v) ∨
    (Busy s u ∧ Connected s u ∧ ∃ y, pushResultsTo response u s =
      .ok ⟨⟩ (s.setScheduler u { link with toSatelliteLink := y, waitHomerun := Dict.empty })) := by
  have hbusy : Busy s u ↔ link.active = true ∧ link.waitHomerun.entries ≠ [] := by
    unfold Busy
    simp [hl]
  have hcon : Connected s u ↔ link.con = true ∧ link.runningId ≠ 0 := by
    unfold Connected
    simp [hl]
  have hget : pushResultsTo response u s = pushLink response u link s := by
    unfold pushResultsTo
    rw [get_bind, hl]
  by_cases hb : Busy s u
  · rw [hget]
    unfold pushLink
    rw [if_pos (hbusy.mp hb)]
    by_cases hc : Connected s u
    · obtain ⟨y, a, he⟩ := call_ok (n := link.maxCheckAttempts) response (hcon.mp hc).1 (hcon.mp hc).2
      rw [he]
      exact Or.inr (Or.inr ⟨hb, hc, y, rfl⟩)
    · rw [call_linkError response fun h => hc (hcon.mpr h)]
      refine Or.inr (Or.inl ⟨hb, hc, _, _, rfl, fun v => ?_⟩)
      exact waiting_setScheduler_of_eq hl rfl
  · rw [hget]
    unfold pushLink
    rw [if_neg fun h => hb (hbusy.mpr h)]
    exact Or.inl ⟨hb, rfl⟩

def Cleared (l : List Nat) (s : Satellite) (u : Nat) : Prop :=
  u ∈ l ∧ Busy s u ∧ Connected s u ∧ ∀ v ∈ l.takeWhile (· ≠ u), Busy s v → Connected s v

theorem busy_congr (h : s'.schedulers.get? u = s.schedulers.get? u) : (Busy s' u ↔ Busy s u) ∧ (Connected s' u ↔ Connected s u) := by
  unfold Busy Connected
  rw [h]
  exact ⟨Iff.rfl, Iff.rfl⟩

theorem cleared_cons {l : List Nat} (hu : u ≠ v) (hv : Busy s v → Connected s v) (hn : v ∉ l)
    (hs : ∀ w, w ≠ v → s'.schedulers.get? w = s.schedulers.get? w) : Cleared (v :: l) s u ↔ Cleared l s' u := by
  have htake : (v :: l).takeWhile (· ≠ u) = v :: l.takeWhile (· ≠ u) := List.takeWhile_cons_of_pos (by simpa using hu.symm)
  have hmem : ∀ w ∈ l.takeWhile (· ≠ u), w ≠ v := fun w hw e => hn (e ▸ (List.takeWhile_prefix _).subset hw)
  unfold Cleared
  rw [htake, (busy_congr (hs u hu)).1, (busy_congr (hs u hu)).2]
  simp only [List.mem_cons, forall_eq_or_imp, hu, false_or]
  refine and_congr_right fun _ => and_congr_right fun _ => and_congr_right fun _ => ?_
  constructor
  · intro h w hw
    rw [(busy_congr (hs w (hmem w hw))).1, (busy_congr (hs w (hmem w hw))).2]
    exact h.2 w hw
  · intro h
    refine ⟨hv, fun w hw => ?_⟩
    have hw' := h w hw
    rwa [(busy_congr (hs w (hmem w hw))).1, (busy_congr (hs w (hmem w hw))).2] at hw'

theorem pushLoop_waiting (response : Nat → Dispatching.Response Bool) : ∀ {l : List Nat} {s : Satellite}, l.Nodup →
    (∀ v ∈ l, s.schedulers.get? v ≠ none) → ∀ u,
    (Cleared l s u → waiting (stateAfter (l.forM (fun v => pushResultsTo (response v) v) s)) u = some Dict.empty) ∧
    (¬ Cleared l s u → waiting (stateAfter (l.forM (fun v => pushResultsTo (response v) v) s)) u = waiting s u)
  | [], s, _, _, u => ⟨fun h => (nomatch h.1), fun _ => rfl⟩
  | v :: l, s, hn, hk, u => by
    obtain ⟨hv, hn⟩ := List.nodup_cons.mp hn
    obtain ⟨link, hl⟩ := Option.ne_none_iff_exists'.mp (hk v List.mem_cons_self)
    have hforM : ∀ s, (v :: l).forM (fun v => pushResultsTo (response v) v) s =
        (pushResultsTo (response v) v >>= fun _ => l.forM fun v => pushResultsTo (response v) v) s := fun _ => rfl
    have hother : u ≠ v → Cleared (v :: l) s u → Busy s v → Connected s v := by
      intro hu hc hb
      refine hc.2.2.2 v ?_ hb
      rw [List.takeWhile_cons_of_pos (by simpa using hu.symm)]
      exact List.mem_cons_self
    rw [hforM]
    rcases pushResultsTo_cases (response v) hl with ⟨hb, he⟩ | ⟨hb, hc, e, s', he, hw⟩ | ⟨hb, hc, y, he⟩
    · rw [bind_ok he]
      have ih := pushLoop_waiting response hn (fun w hw => hk w (List.mem_cons_of_mem _ hw)) u
      by_cases hu : u = v
      · subst hu
        have h1 : ¬ Cleared l s u := fun h => hv h.1
        have h2 : ¬ Cleared (u :: l) s u := fun h => hb h.2.1
        exact ⟨fun h => absurd h h2, fun _ => ih.2 h1⟩
      · have hiff : Cleared (v :: l) s u ↔ Cleared l s u := cleared_cons hu (fun h => absurd h hb) hv fun _ _ => rfl
        rw [hiff]
        exact ih
    · rw [bind_eq, he]
      have hnot : ¬ Cleared (v :: l) s u := by
        intro h
        by_cases hu : u = v
        · subst hu
          exact hc h.2.2.1
        · exact hc (hother hu h hb)
      exact ⟨fun h => absurd h hnot, fun _ => hw u⟩
    · rw [bind_ok he]
      have hget : ∀ w, w ≠ v → (s.setScheduler v { link with toSatelliteLink := y, waitHomerun := Dict.empty }).schedulers.get? w =
          s.schedulers.get? w := fun w hw => by rw [get?_setScheduler, if_neg hw]
      have ih := pushLoop_waiting response hn (s := s.setScheduler v { link with toSatelliteLink := y, waitHomerun := Dict.empty })
        (fun w hw => by
          rw [hget w fun e => hv (e ▸ hw)]
          exact hk w (List.mem_cons_of_mem _ hw)) u
      by_cases hu : u = v
      · subst hu
        have h1 : ¬ Cleared l (s.setScheduler u { link with toSatelliteLink := y, waitHomerun := Dict.empty }) u := fun h => hv h.1
        have h2 : Cleared (u :: l) s u := by
          refine ⟨List.mem_cons_self, hb, hc, ?_⟩
          rw [List.takeWhile_cons_of_neg (by simp)]
          simp
        refine ⟨fun _ => ?_, fun h => absurd h2 h⟩
        rw [ih.2 h1, waiting_setScheduler, if_pos rfl]
      · rw [cleared_cons hu (fun _ => hc) hv hget]
        refine ⟨ih.1, fun h => ?_⟩
        rw [ih.2 h, waiting_setScheduler, if_neg hu]

theorem pushResults_waiting (response : Nat → Dispatching.Response Bool) (s : Satellite) (u : Nat) :
    (Calls s u → waiting (stateAfter (pushResults response s)) u = some Dict.empty) ∧
    (¬ Calls s u → waiting (stateAfter (pushResults response s)) u = waiting s u) := by
  have h := pushLoop_waiting response s.schedulers.nodup (fun v hv => Dict.mem_keys.mp hv) u
  have hiff : Calls s u ↔ Cleared s.schedulers.keys s u := by
    refine ⟨fun hc => ⟨?_, hc⟩, fun hc => hc.2⟩
    obtain ⟨link, hl, -⟩ := hc.1
    exact Dict.mem_keys.mpr (by rw [hl]; exact Option.some_ne_none link)
  rw [hiff]
  exact h

/-! ## The other events -/

structure KeptByActions (I : Satellite → Prop) : Prop where
  keep : ∀ {s} v a, I s → I (keepAction v a s)
  rest : ∀ {s s'}, I s → s'.schedulers = s.schedulers → I s'

section
variable {I : Satellite → Prop} (h : KeptByActions I)
include h

theorem assignToAQueue_keeps (a : Action) : Keeps I (assignToAQueue a) := by
  refine Keeps.bind (Keeps.read fun s => ?_) fun worker => ?_
  · split
    · exact Keeps.throw trivial
    · exact Keeps.ite (fun _ => Keeps.pure _) fun _ => Keeps.bind (Keeps.modify fun s hs => h.rest hs rfl) fun _ => Keeps.pure _
  · cases worker with
    | none => exact Keeps.pure _
    | some worker => exact Keeps.bind (Keeps.modify fun s hs => h.rest hs rfl) fun _ => Keeps.pure _

theorem addAction_keeps (v : Nat) (a : Action) : Keeps I (addAction v a) := by
  refine Keeps.read fun s => ?_
  split
  · exact Keeps.throw trivial
  · refine Keeps.ite (fun _ => ?_) fun _ => Keeps.pure _
    refine Keeps.bind (Keeps.modify fun s hs => h.keep v _ hs) fun _ => ?_
    exact Keeps.bind (assignToAQueue_keeps h _) fun b => Keeps.modify fun s hs => h.keep v b hs

theorem addActions_keeps (actions : List Action) (schedulerInstanceId : Nat) : Keeps I (addActions actions schedulerInstanceId) := by
  refine Keeps.read fun s => ?_
  split
  · exact Keeps.pure _
  · exact Keeps.forM fun a _ => addAction_keeps h _ a

theorem delZombieWorker_keeps (worker : Nat) : Keeps I (delZombieWorker worker) := by
  refine Keeps.read fun s => ?_
  split
  · exact Keeps.throw trivial
  · split
    · exact Keeps.throw trivial
    · refine Keeps.bind (Keeps.modify fun s hs => h.rest hs rfl) fun _ => ?_
      refine Keeps.bind (Keeps.forM fun v _ => Keeps.read fun s => ?_) fun _ => Keeps.modify fun s hs => h.rest hs rfl
      split
      · exact Keeps.throw trivial
      · refine Keeps.forM fun a _ => Keeps.ite (fun _ => ?_) fun _ => Keeps.pure _
        exact Keeps.bind (assignToAQueue_keeps h a) fun b => Keeps.modify fun s hs => h.keep v b hs

theorem createAndLaunchWorker_keeps (mod : Nat) : Keeps I (createAndLaunchWorker conf mod) := by
  have hnew : Keeps I (modify fun s => { s with
      workers := s.workers.set s.nextWorker ⟨mod, true⟩
      qByMod := s.qByMod.set mod ((s.qByMod.get? mod).getD [] ++ [s.nextWorker])
      held := Function.update s.held s.nextWorker []
      nextWorker := s.nextWorker + 1 } : Sat Unit) := Keeps.modify fun s hs => h.rest hs rfl
  unfold createAndLaunchWorker
  cases conf.moduleKind mod with
  | notWorker => exact Keeps.throw trivial
  | unknown => exact Keeps.pure _
  | fork => exact hnew
  | workerCapable => exact hnew

theorem adjustWorkerNumberByLoad_keeps : Keeps I (adjustWorkerNumberByLoad conf) := by
  refine Keeps.read fun s => Keeps.ite (fun _ => Keeps.pure _) fun _ => ?_
  refine Keeps.bind (Keeps.foldlM fun toDel mod _ => Keeps.read fun s => ?_) fun toDel => Keeps.modify fun s hs => h.rest hs rfl
  refine Keeps.ite (fun _ => Keeps.pure _) fun _ => ?_
  exact Keeps.bind (Keeps.forM fun mod _ => createAndLaunchWorker_keeps h mod) fun _ => Keeps.pure _

theorem event_keeps {ev : Event} (hr : ev ≠ .manageReturn) (hp : ∀ response, ev ≠ .pushResults response)
    (hl : ∀ v x active, ev ≠ .linkChanges v x active) : Keeps I (runEvent conf ev) := by
  cases ev with
  | addActions actions schedulerInstanceId => exact addActions_keeps h actions schedulerInstanceId
  | workerReturns worker a status =>
    refine Keeps.modify fun s hs => h.rest hs ?_
    unfold workerReturns
    split <;> rfl
  | workerDies worker =>
    refine Keeps.modify fun s hs => h.rest hs ?_
    unfold workerDies
    split <;> rfl
  | manageReturn => exact absurd rfl hr
  | checkAndDelZombieWorkers => exact Keeps.read fun _ => Keeps.forM fun worker _ => delZombieWorker_keeps h worker
  | adjustWorkerNumberByLoad => exact adjustWorkerNumberByLoad_keeps h
  | pushResults response => exact absurd rfl (hp response)
  | linkChanges v x active => exact absurd rfl (hl v x active)

end

theorem keptByActions_waiting (s₀ : Satellite) : KeptByActions fun s => ∀ u, waiting s u = waiting s₀ u where
  keep := by
    intro s v a hs u
    rw [← hs u]
    unfold keepAction
    cases hl : s.schedulers.get? v with
    | none => rfl
    | some link => exact waiting_setScheduler_of_eq hl rfl
  rest := by
    intro s s' hs he u
    rw [← hs u]
    unfold waiting
    rw [he]

theorem manageReturn_pending (h : Pending s u id) : Pending (manageReturn s) u id := by
  unfold manageReturn
  split
  · exact h
  · rename_i a l _
    unfold manageActionReturn
    split
    · exact h
    · rename_i link hl
      obtain ⟨w, hw, hk⟩ := pending_iff.mp h
      refine pending_iff.mpr ?_
      rw [waiting_setScheduler]
      by_cases hu : u = a.myScheduler
      · subst hu
        rw [if_pos rfl]
        unfold waiting at hw
        rw [hl] at hw
        cases hw
        exact ⟨_, rfl, Dict.mem_keys_set.mpr (Or.inr hk)⟩
      · rw [if_neg hu]
        exact ⟨w, hw, hk⟩

theorem pending_of_event {ev : Event} (hev : ∀ response, ev ≠ .pushResults response) (h : Pending s u id) :
    Pending (stateAfter (runEvent conf ev s)) u id := by
  have hw : (∀ v, waiting (stateAfter (runEvent conf ev s)) v = waiting s v) → Pending (stateAfter (runEvent conf ev s)) u id := by
    intro hs
    rw [pending_iff, hs]
    exact pending_iff.mp h
  by_cases hr : ev = .manageReturn
  · subst hr
    exact manageReturn_pending h
  by_cases hl : ∃ v x active, ev = .linkChanges v x active
  · obtain ⟨v, x, active, rfl⟩ := hl
    refine hw fun w => ?_
    show waiting (linkChanges v x active s) w = _
    unfold linkChanges
    cases hl : s.schedulers.get? v with
    | none => rfl
    | some link => exact waiting_setScheduler_of_eq hl rfl
  · refine hw (event_keeps (keptByActions_waiting s) hr hev (fun v x active e => hl ⟨v, x, active, e⟩) s fun _ => rfl).1

/-! ## Runs -/

theorem turn_keeps_iff (conf : Conf) (t : Turn) :
    (∀ u id, Pending t.state u id → Pending (t.after conf) u id ∨ t.Delivers u id) ↔ t.Accepted := by
  constructor
  · rintro h response he u hc
    obtain ⟨link, hl, -, hne⟩ := id hc.1
    obtain ⟨e, ids, hk⟩ := List.exists_cons_of_ne_nil hne
    have hp : Pending t.state u e.1 := ⟨link, hl, by unfold Dict.keys; rw [hk]; exact List.mem_cons_self⟩
    rcases h u e.1 hp with hafter | ⟨response', he', -, ha, -⟩
    · obtain ⟨w, hw, hmem⟩ := pending_iff.mp hafter
      unfold Turn.after at hw
      rw [he] at hw
      cases hw.symm.trans ((pushResults_waiting response t.state u).1 hc)
      cases hmem
    · rw [he] at he'
      cases he'
      exact ha
  · intro h u id hp
    by_cases hev : ∃ response, t.event = .pushResults response
    · obtain ⟨response, he⟩ := hev
      by_cases hc : Calls t.state u
      · exact Or.inr ⟨response, he, hc, h response he u hc, hp⟩
      · refine Or.inl (pending_iff.mpr ?_)
        unfold Turn.after
        rw [he]
        obtain ⟨w, hw, hk⟩ := pending_iff.mp hp
        exact ⟨w, ((pushResults_waiting response t.state u).2 hc).trans hw, hk⟩
    · exact Or.inl (pending_of_event (fun response e => hev ⟨response, e⟩) hp)

def KeptIn (conf : Conf) (s₀ : Satellite) (trace : List Turn) : Prop :=
  ∀ before between after s s', trace = before ++ between ++ after → Run conf s₀ before s → Run conf s₀ (before ++ between) s' →
    ∀ u id, Pending s u id → Pending s' u id ∨ ∃ t ∈ between, t.Delivers u id

theorem results_kept_iff {s₀ : Satellite} {trace : List Turn} (h : Run conf s₀ trace s) :
    KeptIn conf s₀ trace ↔ ∀ t ∈ trace, t.Accepted := by
  constructor
  · intro hk t ht
    obtain ⟨before, after, rfl⟩ := List.append_of_mem ht
    rw [← turn_keeps_iff conf]
    intro u id hp
    have hsplit : before ++ t :: after = before ++ [t] ++ after := by simp
    obtain ⟨s', hs'⟩ := Run.before (hsplit ▸ h)
    obtain ⟨hs, rfl⟩ := hs'.snoc_inv
    rcases hk before [t] after _ _ hsplit hs hs' u id hp with hafter | ⟨t', ht', hd⟩
    · exact Or.inl hafter
    · rw [List.mem_singleton.mp ht'] at hd
      exact Or.inr hd
  · intro ha before between after s₁ s₂ hsplit h1 h2 u id hp
    have hall : ∀ t ∈ between, t.Accepted := fun t ht => ha t (by rw [hsplit]; simp [ht])
    clear hsplit
    induction between using List.reverseRecOn generalizing s₂ with
    | nil =>
      rw [List.append_nil] at h2
      rw [h2.eq h1]
      exact Or.inl hp
    | append_singleton between t ih =>
      rw [← List.append_assoc] at h2
      obtain ⟨hs, rfl⟩ := h2.snoc_inv
      rcases ih _ hs (fun t' ht' => hall t' (List.mem_append_left _ ht')) with hb | ⟨t', ht', hd⟩
      · rcases (turn_keeps_iff conf t).mpr (hall t (List.mem_append_right _ List.mem_cons_self)) u id hb with hafter | hd
        · exact Or.inl hafter
        · exact Or.inr ⟨t, List.mem_append_right _ List.mem_cons_self, hd⟩
      · exact Or.inr ⟨t', List.mem_append_left _ ht', hd⟩

end

def homeRun : Satellite where
  schedulers := Dict.empty.set 0
    { con := true, runningId := 1, alive := true, reachable := true, instanceId := 0, active := true, maxCheckAttempts := 3
      waitHomerun := Dict.empty.set 7 ⟨7, 0, .done, 0, some 0⟩ }
  workers := Dict.empty
  qByMod := Dict.empty
  held := fun _ => []
  returnsQueue := []
  rrQid := 0
  nextWorker := 0
  interrupted := false

def forkOnly : Conf := ⟨1, fun _ => .fork⟩

theorem homeRun_pending : Pending homeRun 0 7 := ⟨_, rfl, by decide⟩

theorem homeRun_kept : KeptIn forkOnly homeRun [⟨homeRun, .pushResults fun _ => .content true⟩] := by
  refine (results_kept_iff (Run.nil.snoc _)).mpr fun t ht => ?_
  rw [List.mem_singleton.mp ht]
  rintro response he u ⟨⟨link, hl, -⟩, -⟩
  cases he
  have hu : u = 0 := by
    by_contra hne
    have hnone : homeRun.schedulers.get? u = none := by
      unfold homeRun
      rw [Dict.get?_set_ne hne]
      rfl
    cases hnone.symm.trans hl
  subst hu
  exact ⟨_, rfl, rfl, rfl, rfl⟩

/-- A push that times out drops the result. -/
theorem result_dropped : ∃ s₀ trace s, Run forkOnly s₀ trace s ∧ ¬ KeptIn forkOnly s₀ trace := by
  refine ⟨homeRun, [⟨homeRun, .pushResults fun _ => .timeout⟩], _, Run.nil.snoc _, fun h => ?_⟩
  rcases h [] [⟨homeRun, .pushResults fun _ => .timeout⟩] [] _ _ rfl .nil (Run.nil.snoc _) 0 7 homeRun_pending with hp | ⟨t, ht, hd⟩
  · obtain ⟨w, hw, hk⟩ := pending_iff.mp hp
    have hempty : waiting (Turn.after forkOnly ⟨homeRun, .pushResults fun _ => .timeout⟩) 0 = some Dict.empty := by rfl
    cases hempty.symm.trans hw
    cases hk
  · rw [List.mem_singleton.mp ht] at hd
    obtain ⟨response, he, -, ⟨link, -, -, -, hr⟩, -⟩ := hd
    cases he
    cases hr

end Alignak.Satellites
