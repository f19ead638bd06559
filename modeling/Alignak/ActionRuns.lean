import Alignak.Workers

/-!
# Accepted actions

An action that is accepted is in the map of its scheduler until its result is
managed.
-/

namespace Alignak.Satellites

section
variable {conf : Conf} {s s' s₀ : Satellite} {u v id : Nat} {a : Action} {trace : List Turn}

/-! ## Actions that wait for their result -/

def Known (s : Satellite) (u id : Nat) : Prop := ∃ a, Entry s u id a

/-- The action is one of those that the turn adds, new or known. -/
def Turn.Accepts (t : Turn) (u id : Nat) : Prop :=
  ∃ actions schedulerInstanceId link, t.event = .addActions actions schedulerInstanceId ∧
    t.state.schedulers.entries.find? (fun e => e.2.instanceId == schedulerInstanceId) = some (u, link) ∧
    ∃ a ∈ actions, a.uuid = id

def Turn.Manages (t : Turn) (u id : Nat) : Prop :=
  t.event = .manageReturn ∧ ∃ a l, t.state.returnsQueue = a :: l ∧ a.uuid = id ∧ a.myScheduler = u

theorem keptByActions_known (u id : Nat) : KeptByActions fun s => Known s u id where
  keep := by
    rintro s v a ⟨b, hb⟩
    by_cases hv : s.schedulers.get? v = none
    · have hsame : keepAction v a s = s := by
        unfold keepAction
        rw [hv]
      rw [hsame]
      exact ⟨b, hb⟩
    · by_cases he : u = v ∧ id = a.uuid
      · exact ⟨a, (entry_keepAction hv).mpr (Or.inl ⟨he.1, he.2, rfl⟩)⟩
      · exact ⟨b, (entry_keepAction hv).mpr (Or.inr ⟨he, hb⟩)⟩
  rest := by
    rintro s s' ⟨b, hb⟩ he
    exact ⟨b, (entry_of_schedulers he).mpr hb⟩

theorem known_keptByLinks (u id : Nat) : KeptByLinks fun s => Known s u id := by
  rintro s v link link' ⟨a, ha⟩ hl he
  exact ⟨a, (entry_setScheduler hl he).mpr ha⟩

theorem known_of_event {t : Turn} (h : Known t.state u id) (hm : ¬ t.Manages u id) : Known (t.after conf) u id := by
  obtain ⟨s, ev⟩ := t
  by_cases hr : ev = .manageReturn
  · subst hr
    obtain ⟨a, ha⟩ := h
    refine ⟨a, entry_manageReturn.mpr ⟨ha, fun c hc e => hm ⟨rfl, c, s.returnsQueue.tail, ?_, e.2.symm, e.1.symm⟩⟩⟩
    exact List.eq_cons_of_mem_head? hc
  by_cases hp : ∃ response, ev = .pushResults response
  · obtain ⟨response, rfl⟩ := hp
    exact (pushResults_keeps (known_keptByLinks u id) response s h).1
  by_cases hl : ∃ v x active, ev = .linkChanges v x active
  · obtain ⟨v, x, active, rfl⟩ := hl
    exact linkChanges_keeps (known_keptByLinks u id) h x active
  exact (event_keeps (keptByActions_known u id) hr (fun r e => hp ⟨r, e⟩) (fun v x b e => hl ⟨v, x, b, e⟩) s h).1

theorem addAction_known (u : Nat) (a : Action) : Ensures (fun _ => True) (addAction u a) fun _ s => Known s u a.uuid := by
  refine Ensures.readAt fun s _ => ?_
  cases hl : s.schedulers.get? u with
  | none => exact Ensures.throw
  | some link =>
    have hu : s.schedulers.get? u ≠ none := by
      rw [hl]
      exact Option.some_ne_none link
    refine Ensures.ite (fun _ => ?_) fun hn => Ensures.pure fun s' e => ?_
    · refine Ensures.bind (R := fun _ s => Known s u a.uuid) (Ensures.modify fun s' e => ?_) fun _ => Keeps.ensures (E := fun _ => True) ?_
      · rw [e]
        exact ⟨_, (entry_keepAction hu).mpr (Or.inl ⟨rfl, rfl, rfl⟩)⟩
      · refine Keeps.bind (assignToAQueue_keeps (keptByActions_known u a.uuid) _) fun b => ?_
        exact Keeps.modify fun s hs => (keptByActions_known u a.uuid).keep u b hs
    · rw [Option.isNone_iff_eq_none] at hn
      obtain ⟨b, hb⟩ := Option.ne_none_iff_exists'.mp hn
      rw [e]
      exact ⟨b, link, hl, hb⟩

theorem accepted_known {t : Turn} (h : Staffed conf t.state) (hm : t.Manned) (ha : t.Accepts u id) : Known (t.after conf) u id := by
  obtain ⟨s, ev⟩ := t
  obtain ⟨actions, schedulerInstanceId, link, rfl, hf, a, hmem, rfl⟩ := ha
  obtain ⟨s', he, -⟩ := addActions_ok h hm
  have hloop : Ensures (fun _ => True) (actions.forM (addAction u)) fun _ s => ∀ a ∈ actions, Known s u a.uuid := by
    have hI := Ensures.forM (I := fun d s => ∀ a ∈ d, Known s u a.uuid) (f := addAction u) (l := actions) (d := []) fun d a _ s hs _ s' e => ?_
    · exact hI.pre fun _ _ => List.forall_mem_nil _
    · intro b hb
      rcases List.mem_append.mp hb with hb | hb
      · exact (addAction_keeps (keptByActions_known u b.uuid) u a).ensures s (hs b hb) _ s' e
      · rw [List.mem_singleton.mp hb]
        exact addAction_known u a s trivial _ s' e
  have hget : addActions actions schedulerInstanceId s = actions.forM (addAction u) s := by
    unfold addActions
    rw [get_bind, hf]
  show Known (stateAfter (addActions actions schedulerInstanceId s)) u a.uuid
  rw [he]
  exact hloop s trivial _ s' (hget.symm.trans he) a hmem

theorem run_known (h : Run conf s₀ trace s) {before after : List Turn} {t : Turn} (he : trace = before ++ t :: after)
    (hk : Known (t.after conf) u id) : Known s u id ∨ ∃ t' ∈ after, t'.Manages u id := by
  induction h generalizing after with
  | nil => simp at he
  | snoc h ev ih =>
    rename_i trace s
    rcases List.eq_nil_or_concat after with rfl | ⟨after, t', rfl⟩
    · obtain ⟨rfl, ht⟩ := List.append_inj' he rfl
      cases ht
      exact Or.inl hk
    · rw [List.concat_eq_append, ← List.cons_append, ← List.append_assoc] at he
      obtain ⟨rfl, ht⟩ := List.append_inj' he rfl
      cases ht
      rcases ih rfl with hs | ⟨t, ht, hm⟩
      · by_cases hm : Turn.Manages ⟨s, ev⟩ u id
        · exact Or.inr ⟨_, by simp, hm⟩
        · exact Or.inl (known_of_event hs hm)
      · exact Or.inr ⟨t, by simp [ht], hm⟩

/-! ## Lost actions -/

structure Lost (u id : Nat) (s : Satellite) : Prop where
  entry : ∃ a, Entry s u id a ∧ a.status ≠ .queued
  tagged : ∀ {v i b}, Entry s v i b → b.uuid = i ∧ b.myScheduler = v
  held : ∀ k, ∀ b ∈ s.held k, ¬ (b.uuid = id ∧ b.myScheduler = u)
  returned : ∀ b ∈ s.returnsQueue, ¬ (b.uuid = id ∧ b.myScheduler = u)

theorem Lost.rest (h : Lost u id s) (hs : s'.schedulers = s.schedulers) (hr : s'.returnsQueue = s.returnsQueue)
    (hh : ∀ k, ∀ b ∈ s'.held k, ¬ (b.uuid = id ∧ b.myScheduler = u)) : Lost u id s' where
  entry := by
    obtain ⟨a, ha, hne⟩ := h.entry
    exact ⟨a, (entry_of_schedulers hs).mpr ha, hne⟩
  tagged he := h.tagged ((entry_of_schedulers hs).mp he)
  held := hh
  returned := by
    rw [hr]
    exact h.returned

theorem mem_update {held : Nat → List Action} {worker k : Nat} {l : List Action} {b : Action}
    (hb : b ∈ Function.update held worker l k) : b ∈ l ∨ b ∈ held k := by
  by_cases hk : k = worker
  · subst hk
    rw [Function.update_self] at hb
    exact Or.inl hb
  · rw [Function.update_of_ne hk] at hb
    exact Or.inr hb

theorem lost_keptByLinks (u id : Nat) : KeptByLinks (Lost u id) := by
  intro s v link link' h hl ha
  refine ⟨?_, fun he => h.tagged ((entry_setScheduler hl ha).mp he), h.held, h.returned⟩
  obtain ⟨a, hent, hne⟩ := h.entry
  exact ⟨a, (entry_setScheduler hl ha).mpr hent, hne⟩

theorem Lost.keepAction (h : Lost u id s) (hv : a.myScheduler = v) (hne : ¬ (a.uuid = id ∧ v = u)) :
    Lost u id (keepAction v a s) := by
  by_cases hn : s.schedulers.get? v = none
  · have hsame : Satellites.keepAction v a s = s := by
      unfold Satellites.keepAction
      rw [hn]
    rw [hsame]
    exact h
  · obtain ⟨-, -, h3, h4, -⟩ := keepAction_rest v a s
    refine ⟨?_, fun {w i b} he => ?_, by rw [h3]; exact h.held, by rw [h4]; exact h.returned⟩
    · obtain ⟨b, hb, hq⟩ := h.entry
      exact ⟨b, (entry_keepAction hn).mpr (Or.inr ⟨fun e => hne ⟨e.2.symm, e.1.symm⟩, hb⟩), hq⟩
    · rcases (entry_keepAction hn).mp he with ⟨rfl, rfl, rfl⟩ | ⟨-, he⟩
      · exact ⟨rfl, hv⟩
      · exact h.tagged he

theorem assigned_lost (hv : a.myScheduler = v) (hne : ¬ (a.uuid = id ∧ v = u)) :
    Keeps (Lost u id) (assignToAQueue a >>= fun b => modify (keepAction v b)) := by
  have hassign : Keeps (Lost u id) (assignToAQueue a) := by
    refine Keeps.bind (Keeps.read fun s => ?_) fun worker => ?_
    · split
      · exact Keeps.throw trivial
      · exact Keeps.ite (fun _ => Keeps.pure _) fun _ => Keeps.bind (Keeps.modify fun s hs => hs.rest rfl rfl hs.held) fun _ => Keeps.pure _
    · cases worker with
      | none => exact Keeps.pure _
      | some worker =>
        refine Keeps.bind (Keeps.modify fun s hs => hs.rest rfl rfl fun k b hb => ?_) fun _ => Keeps.pure _
        rcases mem_update hb with hb | hb
        · rcases List.mem_append.mp hb with hb | hb
          · exact hs.held worker b hb
          · rw [List.mem_singleton.mp hb]
            exact fun e => hne ⟨e.1, hv.symm.trans e.2⟩
        · exact hs.held k b hb
  have hsame : Ensures (fun _ => True) (assignToAQueue a) fun b _ => b.uuid = a.uuid ∧ b.myScheduler = a.myScheduler := by
    refine Ensures.bind (R := fun _ _ => True) (fun _ _ _ _ _ => trivial) fun worker => ?_
    cases worker with
    | none => exact Ensures.pure fun _ _ => ⟨rfl, rfl⟩
    | some worker => exact Ensures.bind (R := fun _ _ => True) (fun _ _ _ _ _ => trivial) fun _ => Ensures.pure fun _ _ => ⟨rfl, rfl⟩
  refine Leads.bindOk hassign (hsame.pre fun _ _ => trivial) (fun b => Leads.modify ?_) fun _ h => h
  rintro s ⟨h, h1, h2⟩
  exact h.keepAction (h2.trans hv) (h1 ▸ hne)

theorem addAction_lost (v : Nat) (a : Action) : Keeps (Lost u id) (addAction v a) := by
  refine Leads.readAt fun s h => ?_
  cases hl : s.schedulers.get? v with
  | none => exact (Keeps.throw trivial).pre fun _ e => e ▸ h
  | some link =>
    by_cases hn : (link.actions.get? a.uuid).isNone = true
    · have hne : ¬ (a.uuid = id ∧ v = u) := by
        rintro ⟨rfl, rfl⟩
        obtain ⟨b, ⟨link', hl', hb⟩, -⟩ := h.entry
        rw [hl] at hl'
        cases hl'
        rw [hb] at hn
        cases hn
      simp only [hn, if_true]
      refine Leads.pre (I := Lost u id) ?_ fun _ e => e ▸ h
      exact Keeps.bind (Keeps.modify fun s hs => hs.keepAction rfl hne) fun _ => assigned_lost rfl hne
    · simp only [hn]
      exact (Keeps.pure _).pre fun _ e => e ▸ h

theorem requeueActions_lost (worker v : Nat) : Keeps (Lost u id) (requeueActions worker v) := by
  refine Leads.readAt fun s h => ?_
  cases hl : s.schedulers.get? v with
  | none => exact (Keeps.throw trivial).pre fun _ e => e ▸ h
  | some link =>
    refine Leads.pre (I := Lost u id) ?_ fun _ e => e ▸ h
    refine Keeps.forM fun a ha => Keeps.ite (fun hq => ?_) fun _ => Keeps.pure _
    obtain ⟨i, hi⟩ := Dict.mem_values.mp ha
    obtain ⟨rfl, hsch⟩ := h.tagged ⟨link, hl, hi⟩
    refine assigned_lost hsch ?_
    rintro ⟨rfl, rfl⟩
    obtain ⟨b, ⟨link', hl', hb⟩, hne⟩ := h.entry
    rw [hl] at hl'
    cases hl'
    rw [hi] at hb
    cases hb
    exact hne hq.1

theorem createAndLaunchWorker_lost (mod : Nat) : Keeps (Lost u id) (createAndLaunchWorker conf mod) := by
  have hnew : Keeps (Lost u id) (modify fun s => { s with
      workers := s.workers.set s.nextWorker ⟨mod, true⟩
      qByMod := s.qByMod.set mod ((s.qByMod.get? mod).getD [] ++ [s.nextWorker])
      held := Function.update s.held s.nextWorker []
      nextWorker := s.nextWorker + 1 } : Sat Unit) := by
    refine Keeps.modify fun s hs => hs.rest rfl rfl fun k b hb => ?_
    exact hs.held k b ((mem_update hb).resolve_left List.not_mem_nil)
  unfold createAndLaunchWorker
  cases conf.moduleKind mod with
  | notWorker => exact Keeps.throw trivial
  | unknown => exact Keeps.pure _
  | fork => exact hnew
  | workerCapable => exact hnew

theorem workerReturns_lost (worker : Nat) (c : Action) (status : Scheduling.ActStatus) (h : Lost u id s) :
    Lost u id (workerReturns worker c status s) := by
  unfold workerReturns
  split
  · rename_i hc
    refine ⟨h.entry, h.tagged, fun k b hb => ?_, fun b hb => ?_⟩
    · rcases mem_update hb with hb | hb
      · exact h.held worker b (List.mem_of_mem_erase hb)
      · exact h.held k b hb
    · rcases List.mem_append.mp hb with hb | hb
      · exact h.returned b hb
      · rw [List.mem_singleton.mp hb]
        exact h.held worker c hc
  · exact h

theorem workerDies_lost (worker : Nat) (h : Lost u id s) : Lost u id (workerDies worker s) := by
  unfold workerDies
  split
  · exact h
  · exact h.rest rfl rfl fun k b hb => h.held k b ((mem_update hb).resolve_left List.not_mem_nil)

theorem manageReturn_lost (h : Lost u id s) : Lost u id (manageReturn s) := by
  obtain ⟨-, -, h3, h4, -⟩ := manageReturn_rest s
  refine ⟨?_, fun he => h.tagged (entry_manageReturn.mp he).1, by rw [h3]; exact h.held, fun b hb => ?_⟩
  · obtain ⟨a, ha, hne⟩ := h.entry
    refine ⟨a, entry_manageReturn.mpr ⟨ha, fun c hc e => ?_⟩, hne⟩
    exact h.returned c (List.mem_of_head? hc) ⟨e.2.symm, e.1.symm⟩
  · rw [h4] at hb
    exact h.returned b (List.mem_of_mem_tail hb)

theorem event_lost (ev : Event) (h : Lost u id s) : Lost u id (stateAfter (runEvent conf ev s)) := by
  cases ev with
  | addActions actions schedulerInstanceId =>
    refine ((?_ : Keeps (Lost u id) (addActions actions schedulerInstanceId)) s h).1
    refine Keeps.read fun s => ?_
    split
    · exact Keeps.pure _
    · exact Keeps.forM fun a _ => addAction_lost _ a
  | workerReturns worker a status => exact workerReturns_lost worker a status h
  | workerDies worker => exact workerDies_lost worker h
  | manageReturn => exact manageReturn_lost h
  | checkAndDelZombieWorkers =>
    refine ((?_ : Keeps (Lost u id) checkAndDelZombieWorkers) s h).1
    refine Keeps.read fun _ => Keeps.forM fun worker _ => Keeps.read fun s => ?_
    split
    · exact Keeps.throw trivial
    · split
      · exact Keeps.throw trivial
      · refine Keeps.bind (Keeps.modify fun s hs => hs.rest rfl rfl hs.held) fun _ => ?_
        refine Keeps.bind (Keeps.forM fun v _ => requeueActions_lost worker v) fun _ => ?_
        exact Keeps.modify fun s hs => hs.rest rfl rfl hs.held
  | adjustWorkerNumberByLoad =>
    refine ((?_ : Keeps (Lost u id) (adjustWorkerNumberByLoad conf)) s h).1
    refine Keeps.read fun s => Keeps.ite (fun _ => Keeps.pure _) fun _ => ?_
    refine Keeps.bind (Keeps.foldlM fun toDel mod _ => Keeps.read fun s => ?_) fun toDel =>
      Keeps.modify fun s hs => hs.rest rfl rfl hs.held
    refine Keeps.ite (fun _ => Keeps.pure _) fun _ => ?_
    exact Keeps.bind (Keeps.forM fun mod _ => createAndLaunchWorker_lost mod) fun _ => Keeps.pure _
  | pushResults response => exact (pushResults_keeps (lost_keptByLinks u id) response s h).1
  | linkChanges v x active => exact linkChanges_keeps (lost_keptByLinks u id) h x active

theorem run_lost (h : Run conf s₀ trace s) (h0 : Lost u id s₀) : Lost u id s := by
  induction h with
  | nil => exact h0
  | snoc h ev ih => exact event_lost ev ih

theorem Lost.not_given (h : Lost u id s) (ha : Entry s u id a) : ¬ Given s u id a ∧ ∀ worker, a ∉ s.held worker := by
  have hheld : ∀ worker, a ∉ s.held worker := fun worker hm => h.held worker a hm (h.tagged ha)
  refine ⟨?_, hheld⟩
  rintro ⟨worker, -, -, -, -, hm | ⟨b, hb, he⟩⟩
  · exact hheld worker hm
  · exact h.returned b hb he

theorem lost_of_noQueue {link : SchedulerLink} (hl : s.schedulers.get? u = some link) (hn : link.actions.get? a.uuid = none)
    (hq : s.qByMod.get? a.moduleType = some []) (hs : a.status ≠ .queued)
    (ht : ∀ {v i b}, Entry s v i b → b.uuid = i ∧ b.myScheduler = v)
    (hh : ∀ k, ∀ b ∈ s.held k, ¬ (b.uuid = a.uuid ∧ b.myScheduler = u))
    (hr : ∀ b ∈ s.returnsQueue, ¬ (b.uuid = a.uuid ∧ b.myScheduler = u)) :
    Lost u a.uuid (stateAfter (addAction u a s)) := by
  have hu : s.schedulers.get? u ≠ none := by
    rw [hl]
    exact Option.some_ne_none link
  set b : Action := { a with myScheduler := u } with hb
  have hu1 : (keepAction u b s).schedulers.get? u ≠ none := known_keepAction hu
  obtain ⟨-, h2, h3, h4, -⟩ := keepAction_rest u b s
  obtain ⟨-, -, g3, g4, -⟩ := keepAction_rest u b (keepAction u b s)
  have hassign : assignToAQueue b (keepAction u b s) = .ok b (keepAction u b s) := by
    have hget : getQueueForTheAction b (keepAction u b s) = .ok none (keepAction u b s) := by
      have hb' : (keepAction u b s).qByMod.get? b.moduleType = some [] := by
        rw [h2]
        exact hq
      unfold getQueueForTheAction
      rw [get_bind, hb']
      rfl
    unfold assignToAQueue
    rw [bind_ok hget]
    rfl
  have hstate : stateAfter (addAction u a s) = keepAction u b (keepAction u b s) := by
    unfold addAction
    rw [get_bind, hl]
    simp only [hn, Option.isNone_none, if_true]
    show stateAfter ((assignToAQueue b >>= fun c => modify (keepAction u c)) (keepAction u b s)) = _
    rw [bind_ok hassign]
    rfl
  rw [hstate]
  refine ⟨⟨b, (entry_keepAction hu1).mpr (Or.inl ⟨rfl, rfl, rfl⟩), hs⟩, fun {v i c} he => ?_, ?_, ?_⟩
  · rcases (entry_keepAction hu1).mp he with ⟨rfl, rfl, rfl⟩ | ⟨-, he⟩
    · exact ⟨rfl, rfl⟩
    · rcases (entry_keepAction hu).mp he with ⟨rfl, rfl, rfl⟩ | ⟨-, he⟩
      · exact ⟨rfl, rfl⟩
      · exact ht he
  · rw [g3, h3]
    exact hh
  · rw [g4, h4]
    exact hr

/-! ## Results -/

theorem actions_with_workers (h₀ : Starts s₀) (h : Run conf s₀ trace s) (hm : ∀ t ∈ trace, t.Manned) :
    (∀ before t after, trace = before ++ t :: after → ∀ u id, t.Accepts u id →
      (∃ a, Entry s u id a ∧ Placed s u id a) ∨ ∃ t' ∈ after, t'.Manages u id) ∧
    (s.interrupted = false → Turn.Manned ⟨s, .checkAndDelZombieWorkers⟩ →
      ∀ u id a, Entry (Turn.after conf ⟨s, .checkAndDelZombieWorkers⟩) u id a →
        Given (Turn.after conf ⟨s, .checkAndDelZombieWorkers⟩) u id a) := by
  have hs : Staffed conf s := run_staffed h₀ h hm
  constructor
  · rintro before t after rfl u id ha
    have hsplit : before ++ t :: after = before ++ [t] ++ after := by simp
    obtain ⟨s₁, h1⟩ := Run.before (hsplit ▸ h)
    have ht : Staffed conf t.state := run_staffed h₀ h1.snoc_inv.1 fun t' ht' => hm t' (List.mem_append_left _ ht')
    rcases run_known h rfl (accepted_known ht (hm t (by simp)) ha) with ⟨a, hent⟩ | hmanaged
    · exact Or.inl ⟨a, hent, hs.placed hent⟩
    · exact Or.inr hmanaged
  · intro hi hmanned u id a
    obtain ⟨s', he, hs'⟩ := checkAndDelZombieWorkers_ok hs hi fun he hw hx hd => hmanned.2 rfl hi _ _ _ _ _ he hw hx hd
    have hafter : Turn.after conf ⟨s, .checkAndDelZombieWorkers⟩ = s' := by
      show stateAfter (checkAndDelZombieWorkers s) = s'
      rw [he]
      rfl
    rw [hafter]
    exact hs'.given

end

def unstaffed : Satellite where
  schedulers := Dict.empty.set 0
    { con := true, runningId := 1, alive := true, reachable := true, instanceId := 0, active := true, maxCheckAttempts := 3 }
  workers := Dict.empty
  qByMod := Dict.empty.set 0 []
  held := fun _ => []
  returnsQueue := []
  rrQid := 0
  nextWorker := 0
  interrupted := false

theorem unstaffed_links {v : Nat} {link : SchedulerLink} (h : unstaffed.schedulers.get? v = some link) : link.actions = Dict.empty := by
  unfold unstaffed at h
  rw [Dict.get?_set] at h
  split at h
  · cases h
    rfl
  · cases h

theorem unstaffed_starts : Starts unstaffed := by
  refine ⟨rfl, fun {mod q} hq => ?_, unstaffed_links⟩
  unfold unstaffed at hq
  rw [Dict.get?_set] at hq
  split at hq
  · cases hq
    rfl
  · cases hq

def newAction : Action := ⟨7, 0, .polled, 0, none⟩

def staffing : List Turn := [⟨unstaffed, .adjustWorkerNumberByLoad⟩,
  ⟨Turn.after forkOnly ⟨unstaffed, .adjustWorkerNumberByLoad⟩, .addActions [newAction] 0⟩]

theorem newAction_with_worker : ∃ s, Run forkOnly unstaffed staffing s ∧ ∃ a, Entry s 0 7 a ∧ Placed s 0 7 a := by
  have hrun : Run forkOnly unstaffed staffing _ := (Run.nil.snoc .adjustWorkerNumberByLoad).snoc (.addActions [newAction] 0)
  refine ⟨_, hrun, ?_⟩
  have hmanned : ∀ t ∈ staffing, t.Manned := by
    intro t ht
    rcases List.mem_cons.mp ht with rfl | ht
    · exact ⟨fun _ _ _ _ e => (nomatch e), fun e => (nomatch e)⟩
    · rw [List.mem_singleton.mp ht]
      refine ⟨fun actions schedulerInstanceId u link he _ a ha _ => ?_, fun e => (nomatch e)⟩
      cases he
      rw [List.mem_singleton.mp ha]
      exact ⟨[0], rfl, by simp⟩
  have haccepts : Turn.Accepts ⟨Turn.after forkOnly ⟨unstaffed, .adjustWorkerNumberByLoad⟩, .addActions [newAction] 0⟩ 0 7 :=
    ⟨[newAction], 0, _, rfl, rfl, newAction, List.mem_cons_self, rfl⟩
  have hall := (actions_with_workers unstaffed_starts hrun hmanned).1 [_] _ [] rfl 0 7 haccepts
  exact hall.resolve_right fun ⟨_, ht, _⟩ => (nomatch ht)

/-- Without, no worker that comes later gets it. -/
theorem newAction_lost : ∃ s, Starts unstaffed ∧ Run forkOnly unstaffed [⟨unstaffed, .addActions [newAction] 0⟩] s ∧
    Turn.Accepts ⟨unstaffed, .addActions [newAction] 0⟩ 0 7 ∧
    ∀ rest s', Run forkOnly s rest s' → ∃ a, Entry s' 0 7 a ∧ ¬ Given s' 0 7 a ∧ ∀ worker, a ∉ s'.held worker := by
  refine ⟨_, unstaffed_starts, Run.nil.snoc _, ⟨_, _, _, rfl, rfl, _, List.mem_cons_self, rfl⟩, fun rest s' h => ?_⟩
  have hlost : Lost 0 7 (stateAfter (addAction 0 newAction unstaffed)) := by
    have hq : unstaffed.qByMod.get? newAction.moduleType = some [] := rfl
    refine lost_of_noQueue rfl rfl hq (by decide) ?_ (fun _ b hb => ?_) fun b hb => ?_
    · rintro v i b ⟨link, hl, hb⟩
      rw [unstaffed_links hl] at hb
      cases hb
    · cases hb
    · cases hb
  have hafter : Turn.after forkOnly ⟨unstaffed, .addActions [newAction] 0⟩ = stateAfter (addAction 0 newAction unstaffed) := by rfl
  rw [hafter] at h
  have hs' : Lost 0 7 s' := run_lost h hlost
  obtain ⟨a, ha, -⟩ := hs'.entry
  exact ⟨a, ha, hs'.not_given ha⟩

end Alignak.Satellites
