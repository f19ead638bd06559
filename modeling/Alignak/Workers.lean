import Alignak.HomeRun

/-!
# The actions and their workers

An action that is received while its module has no worker stays in the map of
its scheduler without one, and so does an action whose last worker dies.
-/

namespace Alignak.Satellites

variable {r : Nat} {visited : Nat → Prop}

section
variable {conf : Conf} {s s' : Satellite} {u v id worker d : Nat} {a b : Action} {x : Worker} {q l : List Nat} {l' : List Action}

/-! ## Entries of the maps -/

def Entry (s : Satellite) (u id : Nat) (a : Action) : Prop :=
  ∃ link, s.schedulers.get? u = some link ∧ link.actions.get? id = some a

theorem entry_of_schedulers (h : s'.schedulers = s.schedulers) : Entry s' u id a ↔ Entry s u id a := by
  unfold Entry
  rw [h]

theorem keepAction_rest (u : Nat) (a : Action) (s : Satellite) :
    (keepAction u a s).workers = s.workers ∧ (keepAction u a s).qByMod = s.qByMod ∧ (keepAction u a s).held = s.held ∧
    (keepAction u a s).returnsQueue = s.returnsQueue ∧ (keepAction u a s).nextWorker = s.nextWorker ∧
    (keepAction u a s).schedulers.keys = s.schedulers.keys := by
  unfold keepAction
  cases hl : s.schedulers.get? u with
  | none => exact ⟨rfl, rfl, rfl, rfl, rfl, rfl⟩
  | some link =>
    refine ⟨rfl, rfl, rfl, rfl, rfl, ?_⟩
    show (s.schedulers.set u _).keys = _
    unfold Dict.keys
    rw [Dict.set_entries_old (by rw [hl]; exact Option.some_ne_none link), Dict.replaced_keys]

theorem entry_keepAction (hu : s.schedulers.get? u ≠ none) : Entry (keepAction u a s) v id b ↔
    (v = u ∧ id = a.uuid ∧ b = a) ∨ (¬ (v = u ∧ id = a.uuid) ∧ Entry s v id b) := by
  obtain ⟨link, hl⟩ := Option.ne_none_iff_exists'.mp hu
  unfold Entry keepAction
  rw [hl]
  simp only [get?_setScheduler]
  by_cases hv : v = u
  · subst hv
    simp only [if_true, Option.some.injEq, exists_eq_left', Dict.get?_set, hl, true_and]
    by_cases hi : id = a.uuid
    · simp [hi, eq_comm]
    · simp [hi]
  · simp only [hv, if_false, false_and, false_or, not_false_iff, true_and]

theorem known_keepAction (hv : s.schedulers.get? v ≠ none) : (keepAction u a s).schedulers.get? v ≠ none := by
  unfold keepAction
  cases hl : s.schedulers.get? u with
  | none => exact hv
  | some link =>
    simp only
    rw [get?_setScheduler]
    split
    · exact Option.some_ne_none _
    · exact hv

/-! ## Giving an action to a worker -/

def Action.givenTo (a : Action) (worker : Nat) : Action := { a with myWorker := some worker, status := .queued }

def Satellite.give (s : Satellite) (rrQid worker : Nat) (a : Action) : Satellite :=
  { s with rrQid := rrQid, held := Function.update s.held worker (s.held worker ++ [a]) }

theorem assignToAQueue_ok (a : Action) (hq : s.qByMod.get? a.moduleType = some q) (hne : q ≠ []) :
    ∃ r worker, worker ∈ q ∧ assignToAQueue a s = .ok (a.givenTo worker) (s.give r worker (a.givenTo worker)) := by
  have hlt : (s.rrQid + 1) % q.length < q.length := Nat.mod_lt _ (List.length_pos_iff.mpr hne)
  refine ⟨(s.rrQid + 1) % q.length, q[(s.rrQid + 1) % q.length], List.getElem_mem hlt, ?_⟩
  have hget : getQueueForTheAction a s =
      .ok (some q[(s.rrQid + 1) % q.length]) { s with rrQid := (s.rrQid + 1) % q.length } := by
    unfold getQueueForTheAction
    rw [get_bind, hq]
    simp only
    rw [if_neg hne]
    show EStateM.Result.ok q[(s.rrQid + 1) % q.length]? _ = _
    rw [List.getElem?_eq_getElem hlt]
  unfold assignToAQueue
  rw [bind_ok hget]
  rfl

def handOver (u r worker : Nat) (a : Action) (s : Satellite) : Satellite :=
  keepAction u (a.givenTo worker) (s.give r worker (a.givenTo worker))

theorem handOver_rest (u r worker : Nat) (a : Action) (s : Satellite) :
    (handOver u r worker a s).workers = s.workers ∧ (handOver u r worker a s).qByMod = s.qByMod ∧
    (handOver u r worker a s).returnsQueue = s.returnsQueue ∧ (handOver u r worker a s).nextWorker = s.nextWorker ∧
    (handOver u r worker a s).schedulers.keys = s.schedulers.keys := by
  obtain ⟨h1, h2, -, h4, h5, h6⟩ := keepAction_rest u (a.givenTo worker) (s.give r worker (a.givenTo worker))
  exact ⟨h1, h2, h4, h5, h6⟩

theorem held_handOver (u r worker : Nat) (a : Action) (s : Satellite) :
    a.givenTo worker ∈ (handOver u r worker a s).held worker ∧
    ∀ k, ∀ b ∈ s.held k, b ∈ (handOver u r worker a s).held k := by
  obtain ⟨-, -, h3, -⟩ := keepAction_rest u (a.givenTo worker) (s.give r worker (a.givenTo worker))
  unfold handOver
  rw [h3]
  unfold Satellite.give
  refine ⟨by simp, fun k b hb => ?_⟩
  by_cases hk : k = worker
  · subst hk
    simp [hb]
  · simpa [Function.update_of_ne hk] using hb

theorem entry_handOver (hu : s.schedulers.get? u ≠ none) : Entry (handOver u r worker a s) v id b ↔
    (v = u ∧ id = a.uuid ∧ b = a.givenTo worker) ∨ (¬ (v = u ∧ id = a.uuid) ∧ Entry s v id b) :=
  entry_keepAction (s := s.give r worker (a.givenTo worker)) (a := a.givenTo worker) hu

/-! ## What a turn needs and keeps -/

structure Queues (conf : Conf) (s : Satellite) : Prop where
  known : ∀ {mod q worker}, s.qByMod.get? mod = some q → worker ∈ q → ∃ x, s.workers.get? worker = some x ∧ x.moduleName = mod
  queued : ∀ {worker x}, s.workers.get? worker = some x → ∃ q, s.qByMod.get? x.moduleName = some q ∧ worker ∈ q
  nodup : ∀ {mod q}, s.qByMod.get? mod = some q → q.Nodup
  fresh : ∀ {worker x}, s.workers.get? worker = some x → worker < s.nextWorker
  kind : ∀ {worker x}, s.workers.get? worker = some x → conf.moduleKind x.moduleName ≠ .notWorker

def Returned (s : Satellite) (u id : Nat) : Prop := ∃ b ∈ s.returnsQueue, b.uuid = id ∧ b.myScheduler = u

/-- The action is with a registered worker, which has it or has returned it,
or has died since the last pass that looks for the dead ones. -/
structure Placed (s : Satellite) (u id : Nat) (a : Action) : Prop where
  uuid : a.uuid = id
  scheduler : a.myScheduler = u
  status : a.status = .queued
  worker : ∃ worker x, a.myWorker = some worker ∧ s.workers.get? worker = some x ∧
    (x.isAlive = false ∨ a ∈ s.held worker ∨ Returned s u id)

/-- The action is with a live worker, which has it or has returned it. -/
def Given (s : Satellite) (u id : Nat) (a : Action) : Prop :=
  ∃ worker x, a.myWorker = some worker ∧ s.workers.get? worker = some x ∧ x.isAlive = true ∧
    (a ∈ s.held worker ∨ Returned s u id)

structure Staffed (conf : Conf) (s : Satellite) : Prop where
  queues : Queues conf s
  placed : ∀ {u id a}, Entry s u id a → Placed s u id a

def HasAlive (s : Satellite) (mod : Nat) : Prop :=
  ∃ q worker x, s.qByMod.get? mod = some q ∧ worker ∈ q ∧ s.workers.get? worker = some x ∧ x.isAlive = true

/-- Each new action of the turn has a queue, and each action of a dead worker
that the turn removes has a live worker that can take it. -/
def Turn.Manned (t : Turn) : Prop :=
  (∀ actions schedulerInstanceId u link, t.event = .addActions actions schedulerInstanceId →
    t.state.schedulers.entries.find? (fun e => e.2.instanceId == schedulerInstanceId) = some (u, link) →
    ∀ a ∈ actions, link.actions.get? a.uuid = none → ∃ q, t.state.qByMod.get? a.moduleType = some q ∧ q ≠ []) ∧
  (t.event = .checkAndDelZombieWorkers → t.state.interrupted = false → ∀ u id a worker x, Entry t.state u id a →
    a.myWorker = some worker → t.state.workers.get? worker = some x → x.isAlive = false → HasAlive t.state a.moduleType)

theorem Queues.congr (h : Queues conf s) (hw : s'.workers = s.workers) (hq : s'.qByMod = s.qByMod)
    (hn : s'.nextWorker = s.nextWorker) : Queues conf s' where
  known := by
    rw [hq, hw]
    exact h.known
  queued := by
    rw [hq, hw]
    exact h.queued
  nodup := by
    rw [hq]
    exact h.nodup
  fresh := by
    rw [hw, hn]
    exact h.fresh
  kind := by
    rw [hw]
    exact h.kind

theorem Placed.congr (h : Placed s u id a) (hw : s'.workers = s.workers) (hh : ∀ k, ∀ b ∈ s.held k, b ∈ s'.held k)
    (hr : Returned s u id → Returned s' u id) : Placed s' u id a := by
  obtain ⟨worker, x, h1, h2, h3⟩ := h.worker
  refine ⟨h.uuid, h.scheduler, h.status, worker, x, h1, hw ▸ h2, ?_⟩
  exact h3.imp_right fun h => h.imp (hh worker a) hr

theorem handOver_staffed (h : Staffed conf s) (hu : s.schedulers.get? u ≠ none)
    (hq : s.qByMod.get? a.moduleType = some q) (hw : worker ∈ q) (ha : a.myScheduler = u) :
    Staffed conf (handOver u r worker a s) := by
  obtain ⟨h1, h2, h3, h4, -⟩ := handOver_rest u r worker a s
  refine ⟨h.queues.congr h1 h2 h4, fun {v id b} he => ?_⟩
  rcases (entry_handOver hu).mp he with ⟨rfl, rfl, rfl⟩ | ⟨-, he⟩
  · obtain ⟨x, hx, -⟩ := h.queues.known hq hw
    exact ⟨rfl, ha, rfl, worker, x, rfl, h1 ▸ hx, Or.inr (Or.inl (held_handOver v r worker a s).1)⟩
  · refine (h.placed he).congr h1 (held_handOver u r worker a s).2 fun hr => ?_
    unfold Returned
    rw [h3]
    exact hr

/-! ## New actions -/

theorem addAction_ok (hu : s.schedulers.get? u ≠ none) (hnew : ∀ link, s.schedulers.get? u = some link →
    link.actions.get? a.uuid = none → ∃ q, s.qByMod.get? a.moduleType = some q ∧ q ≠ []) :
    addAction u a s = .ok ⟨⟩ s ∨ ∃ r q worker, s.qByMod.get? a.moduleType = some q ∧ worker ∈ q ∧
      addAction u a s = .ok ⟨⟩ (handOver u r worker { a with myScheduler := u } (keepAction u { a with myScheduler := u } s)) := by
  obtain ⟨link, hl⟩ := Option.ne_none_iff_exists'.mp hu
  have hget : addAction u a s = (if (link.actions.get? a.uuid).isNone then (do
      let a := { a with myScheduler := u }
      modify (keepAction u a)
      modify (keepAction u (← assignToAQueue a)) : Sat Unit) else pure ⟨⟩) s := by
    unfold addAction
    rw [get_bind, hl]
  rw [hget]
  by_cases hn : link.actions.get? a.uuid = none
  · obtain ⟨q, hq, hne⟩ := hnew link hl hn
    rw [if_pos (by rw [hn]; rfl)]
    obtain ⟨h1, h2, -⟩ := keepAction_rest u { a with myScheduler := u } s
    obtain ⟨r, worker, hw, he⟩ := assignToAQueue_ok (s := keepAction u { a with myScheduler := u } s)
      { a with myScheduler := u } (by rw [h2]; exact hq) hne
    refine Or.inr ⟨r, q, worker, hq, hw, ?_⟩
    show (assignToAQueue { a with myScheduler := u } >>= fun b => modify (keepAction u b) : Sat Unit)
      (keepAction u { a with myScheduler := u } s) = _
    rw [bind_ok he]
    rfl
  · rw [if_neg (by rw [Option.isNone_iff_eq_none]; exact hn)]
    exact Or.inl rfl

theorem newAction_staffed (h : Staffed conf s) (hu : s.schedulers.get? u ≠ none)
    (hq : s.qByMod.get? a.moduleType = some q) (hw : worker ∈ q) (ha : a.myScheduler = u) :
    Staffed conf (handOver u r worker a (keepAction u a s)) := by
  have hsame := handOver_staffed (r := r) h hu hq hw ha
  obtain ⟨k1, k2, k3, k4, k5, -⟩ := keepAction_rest u a s
  have hu' : (keepAction u a s).schedulers.get? u ≠ none := known_keepAction hu
  obtain ⟨h1, h2, h3, h4, -⟩ := handOver_rest u r worker a (keepAction u a s)
  obtain ⟨g1, g2, g3, g4, -⟩ := handOver_rest u r worker a s
  refine ⟨h.queues.congr (h1.trans k1) (h2.trans k2) (h4.trans k5), fun {v id b} he => ?_⟩
  have he' : Entry (handOver u r worker a s) v id b := by
    rw [entry_handOver hu'] at he
    rw [entry_handOver hu]
    rcases he with he | ⟨hne, he⟩
    · exact Or.inl he
    · rcases (entry_keepAction hu).mp he with ⟨hv, hi, -⟩ | ⟨-, he⟩
      · exact absurd ⟨hv, hi⟩ hne
      · exact Or.inr ⟨hne, he⟩
  have hheld : (handOver u r worker a (keepAction u a s)).held = (handOver u r worker a s).held := by
    unfold handOver
    rw [(keepAction_rest u _ ((keepAction u a s).give r worker _)).2.2.1, (keepAction_rest u _ (s.give r worker _)).2.2.1]
    unfold Satellite.give
    rw [k3]
  refine (hsame.placed he').congr ?_ (fun k b hb => by rw [hheld]; exact hb) fun hr => ?_
  · rw [h1, k1, g1]
  · unfold Returned at hr ⊢
    rw [h3, k4, ← g3]
    exact hr

theorem addActions_staffed (hm : ∀ a ∈ l', ∀ link, s.schedulers.get? u = some link → link.actions.get? a.uuid = none →
    ∃ q, s.qByMod.get? a.moduleType = some q ∧ q ≠ []) (h : Staffed conf s) (hu : s.schedulers.get? u ≠ none) :
    ∃ s', (l'.forM (addAction u)) s = .ok ⟨⟩ s' ∧ Staffed conf s' := by
  induction l' generalizing s with
  | nil => exact ⟨s, rfl, h⟩
  | cons a l' ih =>
    have hforM : (a :: l').forM (addAction u) s = (addAction u a >>= fun _ => l'.forM (addAction u)) s := rfl
    rw [hforM]
    rcases addAction_ok hu (hm a List.mem_cons_self) with he | ⟨r, q, worker, hq, hw, he⟩
    · rw [bind_ok he]
      exact ih (fun b hb => hm b (List.mem_cons_of_mem _ hb)) h hu
    · rw [bind_ok he]
      have hu' : (keepAction u { a with myScheduler := u } s).schedulers.get? u ≠ none := known_keepAction hu
      refine ih (fun b hb link hl hn => ?_) (newAction_staffed h hu hq hw rfl) (known_keepAction hu')
      obtain ⟨-, h2, -⟩ := handOver_rest u r worker { a with myScheduler := u } (keepAction u { a with myScheduler := u } s)
      rw [h2, (keepAction_rest u _ s).2.1]
      obtain ⟨old, ho⟩ := Option.ne_none_iff_exists'.mp hu
      refine hm b (List.mem_cons_of_mem _ hb) old ho ?_
      by_contra hne
      obtain ⟨c, hc⟩ := Option.ne_none_iff_exists'.mp hne
      -- what the map had it still has, or has given to a worker
      have hentry : ∃ c', Entry (handOver u r worker { a with myScheduler := u } (keepAction u { a with myScheduler := u } s)) u b.uuid c' := by
        by_cases hab : b.uuid = a.uuid
        · exact ⟨_, (entry_handOver hu').mpr (Or.inl ⟨rfl, hab, rfl⟩)⟩
        · refine ⟨c, (entry_handOver hu').mpr (Or.inr ⟨fun e => hab e.2, (entry_keepAction hu).mpr (Or.inr ⟨fun e => hab e.2, ?_⟩)⟩)⟩
          exact ⟨old, ho, hc⟩
      obtain ⟨c', link', hl', hc'⟩ := hentry
      rw [hl] at hl'
      cases hl'
      exact absurd (hn.symm.trans hc') (by simp)

/-! ## The pass that removes the dead workers -/

/-- The workers of `l` and the worker `d` are dead and about to be removed, the
queue of `d` is gone, and each action that is with one of them finds another. -/
structure Removing (conf : Conf) (d : Nat) (l : List Nat) (s : Satellite) : Prop where
  known : ∀ {mod q worker}, s.qByMod.get? mod = some q → worker ∈ q →
    worker ≠ d ∧ ∃ x, s.workers.get? worker = some x ∧ x.moduleName = mod
  queued : ∀ {worker x}, worker ≠ d → s.workers.get? worker = some x → ∃ q, s.qByMod.get? x.moduleName = some q ∧ worker ∈ q
  nodup : ∀ {mod q}, s.qByMod.get? mod = some q → q.Nodup
  fresh : ∀ {worker x}, s.workers.get? worker = some x → worker < s.nextWorker
  kind : ∀ {worker x}, s.workers.get? worker = some x → conf.moduleKind x.moduleName ≠ .notWorker
  dead : ∀ {worker x}, s.workers.get? worker = some x → (x.isAlive = false ↔ worker = d ∨ worker ∈ l)
  placed : ∀ {u id a}, Entry s u id a → Placed s u id a
  manned : ∀ {u id a worker}, Entry s u id a → a.myWorker = some worker → worker = d ∨ worker ∈ l → HasAlive s a.moduleType

/-- In the loop over the actions `vs` of scheduler `u`: those of the schedulers
in `visited` are with another worker. -/
structure Requeuing (conf : Conf) (d : Nat) (l : List Nat) (visited : Nat → Prop) (u : Nat) (vs : List Action) (s : Satellite) : Prop
    extends Removing conf d l s where
  visited : ∀ {v id a}, visited v → Entry s v id a → a.myWorker ≠ some d
  left : ∀ {id a}, Entry s u id a → a.myWorker = some d → a ∈ vs
  own : ∀ a ∈ vs, a.myScheduler = u ∧ a.status = .queued ∧ (a.myWorker = some d → HasAlive s a.moduleType)

theorem HasAlive.congr {mod : Nat} (h : HasAlive s mod) (hw : s'.workers = s.workers) (hq : s'.qByMod = s.qByMod) :
    HasAlive s' mod := by
  unfold HasAlive
  rw [hw, hq]
  exact h

theorem Removing.handOver (h : Removing conf d l s) (hu : s.schedulers.get? u ≠ none)
    (hq : s.qByMod.get? a.moduleType = some q) (hw : worker ∈ q) (ha : a.myScheduler = u) (hm : HasAlive s a.moduleType) :
    Removing conf d l (handOver u r worker a s) := by
  obtain ⟨h1, h2, h3, h4, -⟩ := handOver_rest u r worker a s
  constructor
  · rw [h1, h2]; exact h.known
  · rw [h1, h2]; exact h.queued
  · rw [h2]; exact h.nodup
  · rw [h1, h4]; exact h.fresh
  · rw [h1]; exact h.kind
  · rw [h1]; exact h.dead
  · intro v id b he
    rcases (entry_handOver hu).mp he with ⟨rfl, rfl, rfl⟩ | ⟨-, he⟩
    · obtain ⟨-, x, hx, -⟩ := h.known hq hw
      exact ⟨rfl, ha, rfl, worker, x, rfl, h1 ▸ hx, Or.inr (Or.inl (held_handOver v r worker a s).1)⟩
    · refine (h.placed he).congr h1 (held_handOver u r worker a s).2 fun hr => ?_
      unfold Returned
      rw [h3]
      exact hr
  · intro v id b k he hk hd
    rcases (entry_handOver hu).mp he with ⟨-, -, rfl⟩ | ⟨-, he⟩
    · exact hm.congr h1 h2
    · exact (h.manned he hk hd).congr h1 h2

def requeueAction (worker u : Nat) (a : Action) : Sat Unit := do
  if a.status = .queued ∧ a.myWorker = some worker then modify (keepAction u (← assignToAQueue a))

theorem requeueLoop : ∀ {vs : List Action} {s : Satellite}, Requeuing conf d l visited u vs s →
    s.schedulers.get? u ≠ none →
    ∃ s', vs.forM (requeueAction d u) s = .ok ⟨⟩ s' ∧ Requeuing conf d l visited u [] s' ∧ s'.schedulers.keys = s.schedulers.keys ∧
      s'.workers = s.workers
  | [], s, h, _ => ⟨s, rfl, h, rfl, rfl⟩
  | a :: vs, s, h, hu => by
    have hforM : (a :: vs).forM (requeueAction d u) s = (requeueAction d u a >>= fun _ => vs.forM (requeueAction d u)) s := rfl
    rw [hforM]
    obtain ⟨ha, hst, hm⟩ := h.own a List.mem_cons_self
    by_cases hd : a.myWorker = some d
    · obtain ⟨q, wk, x, hq, hwk, -⟩ := hm hd
      obtain ⟨r, worker, hw, he⟩ := assignToAQueue_ok a hq (List.ne_nil_of_mem hwk)
      have hstep : requeueAction d u a s = .ok ⟨⟩ (handOver u r worker a s) := by
        unfold requeueAction
        rw [if_pos ⟨hst, hd⟩, bind_ok he]
        rfl
      rw [bind_ok hstep]
      obtain ⟨h1, h2, -, -, h5⟩ := handOver_rest u r worker a s
      have hne : worker ≠ d := (h.known hq hw).1
      have hgiven : (a.givenTo worker).myWorker ≠ some d := fun e => hne (Option.some.inj e)
      have hnext : Requeuing conf d l visited u vs (handOver u r worker a s) := by
        refine ⟨h.toRemoving.handOver hu hq hw ha (hm hd), fun {v id b} hv he => ?_, fun {id b} he hb => ?_, fun b hb => ?_⟩
        · rcases (entry_handOver hu).mp he with ⟨-, -, rfl⟩ | ⟨-, he⟩
          · exact hgiven
          · exact h.visited hv he
        · rcases (entry_handOver hu).mp he with ⟨-, -, rfl⟩ | ⟨hid, he⟩
          · exact absurd hb hgiven
          · refine (List.mem_cons.mp (h.left he hb)).resolve_left fun e => hid ⟨rfl, ?_⟩
            rw [← e]
            exact (h.placed he).uuid.symm
        · obtain ⟨g1, g2, g3⟩ := h.own b (List.mem_cons_of_mem _ hb)
          exact ⟨g1, g2, fun e => (g3 e).congr h1 h2⟩
      have hu' : (handOver u r worker a s).schedulers.get? u ≠ none := Dict.mem_keys.mp (h5 ▸ Dict.mem_keys.mpr hu)
      obtain ⟨s', he', hs', hk, hws⟩ := requeueLoop hnext hu'
      exact ⟨s', he', hs', hk.trans h5, hws.trans h1⟩
    · have hstep : requeueAction d u a s = .ok ⟨⟩ s := by
        unfold requeueAction
        rw [if_neg fun e => hd e.2]
        rfl
      rw [bind_ok hstep]
      refine requeueLoop ⟨h.toRemoving, h.visited, fun {id b} he hb => ?_, fun b hb => h.own b (List.mem_cons_of_mem _ hb)⟩ hu
      exact (List.mem_cons.mp (h.left he hb)).resolve_left fun e => hd (e ▸ hb)

theorem requeueActions_ok (h : Removing conf d l s) (hu : s.schedulers.get? u ≠ none)
    (hv : ∀ {v id a}, visited v → Entry s v id a → a.myWorker ≠ some d) :
    ∃ s', requeueActions d u s = .ok ⟨⟩ s' ∧ Removing conf d l s' ∧ s'.schedulers.keys = s.schedulers.keys ∧
      s'.workers = s.workers ∧ ∀ {v id a}, v = u ∨ visited v → Entry s' v id a → a.myWorker ≠ some d := by
  obtain ⟨link, hl⟩ := Option.ne_none_iff_exists'.mp hu
  have hget : requeueActions d u s = link.actions.values.forM (requeueAction d u) s := by
    unfold requeueActions
    rw [get_bind, hl]
    rfl
  have hstart : Requeuing conf d l visited u link.actions.values s := by
    refine ⟨h, hv, ?_, fun a ha => ?_⟩
    · rintro id a ⟨link', hl', ha⟩ -
      rw [hl] at hl'
      cases hl'
      exact Dict.mem_values.mpr ⟨id, ha⟩
    · obtain ⟨id, hid⟩ := Dict.mem_values.mp ha
      have he : Entry s u id a := ⟨link, hl, hid⟩
      exact ⟨(h.placed he).scheduler, (h.placed he).status, fun hw => h.manned he hw (Or.inl rfl)⟩
  obtain ⟨s', he, hs', hk, hw⟩ := requeueLoop hstart hu
  refine ⟨s', hget.trans he, hs'.toRemoving, hk, hw, fun {v id a} hva hen hd => ?_⟩
  rcases hva with rfl | hva
  · exact (nomatch hs'.left hen hd)
  · exact hs'.visited hva hen hd

theorem requeueAll_ok {us : List Nat} (h : Removing conf d l s) (hus : ∀ u ∈ us, u ∈ s.schedulers.keys)
    (hv : ∀ {v id a}, visited v → Entry s v id a → a.myWorker ≠ some d) :
    ∃ s', us.forM (requeueActions d) s = .ok ⟨⟩ s' ∧ Removing conf d l s' ∧ s'.schedulers.keys = s.schedulers.keys ∧
      s'.workers = s.workers ∧ ∀ {v id a}, v ∈ us ∨ visited v → Entry s' v id a → a.myWorker ≠ some d := by
  induction us generalizing s visited with
  | nil => exact ⟨s, rfl, h, rfl, rfl, fun hva => hv (hva.resolve_left List.not_mem_nil)⟩
  | cons u us ih =>
    obtain ⟨s₁, he1, h1, hk1, hw1, hv1⟩ := requeueActions_ok h (Dict.mem_keys.mp (hus u List.mem_cons_self)) hv
    obtain ⟨s₂, he2, h2, hk2, hw2, hv2⟩ := ih h1 (fun v hm => hk1 ▸ hus v (List.mem_cons_of_mem _ hm)) hv1
    refine ⟨s₂, ?_, h2, hk2.trans hk1, hw2.trans hw1, fun hva => hv2 ?_⟩
    · show (requeueActions d u >>= fun _ => us.forM (requeueActions d)) s = _
      rw [bind_ok he1]
      exact he2
    · rw [List.mem_cons] at hva
      tauto

/-- The workers of `l` are the dead ones, and each action that is with one of
them can be given to another. -/
structure Passing (conf : Conf) (l : List Nat) (s : Satellite) : Prop extends Staffed conf s where
  dead : ∀ {worker x}, s.workers.get? worker = some x → (x.isAlive = false ↔ worker ∈ l)
  manned : ∀ {u id a worker}, Entry s u id a → a.myWorker = some worker → worker ∈ l → HasAlive s a.moduleType

theorem Passing.removing (h : Passing conf (d :: l) s) (hx : s.workers.get? d = some x) (hq : s.qByMod.get? x.moduleName = some q) :
    Removing conf d l { s with qByMod := s.qByMod.set x.moduleName (q.erase d) } := by
  have hget : ∀ {mod q'}, (s.qByMod.set x.moduleName (q.erase d)).get? mod = some q' →
      ∃ q₀, s.qByMod.get? mod = some q₀ ∧ q' = if mod = x.moduleName then q₀.erase d else q₀ := by
    intro mod q' hq'
    rw [Dict.get?_set] at hq'
    by_cases hm : mod = x.moduleName
    · rw [if_pos hm] at hq'
      cases hq'
      exact ⟨q, hm ▸ hq, by rw [if_pos hm]⟩
    · rw [if_neg hm] at hq'
      exact ⟨q', hq', by rw [if_neg hm]⟩
  have hkeep : ∀ {worker mod q₀}, worker ≠ d → s.qByMod.get? mod = some q₀ → worker ∈ q₀ →
      ∃ q', (s.qByMod.set x.moduleName (q.erase d)).get? mod = some q' ∧ worker ∈ q' := by
    intro worker mod q₀ hne hq0 hw
    rw [Dict.get?_set]
    by_cases hm : mod = x.moduleName
    · subst hm
      rw [hq] at hq0
      cases hq0
      exact ⟨_, if_pos rfl, (List.mem_erase_of_ne hne).mpr hw⟩
    · exact ⟨q₀, by rw [if_neg hm, hq0], hw⟩
  have halive : ∀ {mod}, HasAlive s mod → HasAlive { s with qByMod := s.qByMod.set x.moduleName (q.erase d) } mod := by
    rintro mod ⟨q₀, worker, y, hq0, hw, hy, ha⟩
    have hne : worker ≠ d := by
      rintro rfl
      exact absurd ((h.dead hy).mpr List.mem_cons_self) (by simp [ha])
    obtain ⟨q', hq', hw'⟩ := hkeep hne hq0 hw
    exact ⟨q', worker, y, hq', hw', hy, ha⟩
  refine ⟨fun {mod q' worker} hq' hw => ?_, fun {worker y} hne hy => ?_, fun {mod q'} hq' => ?_, h.queues.fresh, h.queues.kind,
    fun hy => (h.dead hy).trans List.mem_cons, fun {u id a} he => ?_, fun {u id a worker} he hw hl => ?_⟩
  · obtain ⟨q₀, hq0, rfl⟩ := hget hq'
    by_cases hm : mod = x.moduleName
    · rw [if_pos hm] at hw
      exact ⟨((h.queues.nodup hq0).mem_erase_iff.mp hw).1, h.queues.known hq0 ((h.queues.nodup hq0).mem_erase_iff.mp hw).2⟩
    · rw [if_neg hm] at hw
      refine ⟨?_, h.queues.known hq0 hw⟩
      rintro rfl
      obtain ⟨y, hy, hmod⟩ := h.queues.known hq0 hw
      rw [hx] at hy
      cases hy
      exact hm hmod.symm
  · obtain ⟨q₀, hq0, hw⟩ := h.queues.queued hy
    exact hkeep hne hq0 hw
  · obtain ⟨q₀, hq0, rfl⟩ := hget hq'
    split
    · exact (h.queues.nodup hq0).erase d
    · exact h.queues.nodup hq0
  · exact (h.placed he).congr rfl (fun _ _ hb => hb) fun hr => hr
  · exact halive (h.manned he hw (List.mem_cons.mpr hl))

theorem Removing.removed (h : Removing conf d l s) (hd : d ∉ l)
    (hleft : ∀ {v id a}, Entry s v id a → a.myWorker ≠ some d) :
    Passing conf l { s with workers := s.workers.erase d } := by
  have hget : ∀ {worker x}, (s.workers.erase d).get? worker = some x → worker ≠ d ∧ s.workers.get? worker = some x := by
    intro worker x hx
    rw [Dict.get?_erase] at hx
    split at hx
    · cases hx
    · rename_i hne
      exact ⟨hne, hx⟩
  have hkeep : ∀ {worker x}, worker ≠ d → s.workers.get? worker = some x → (s.workers.erase d).get? worker = some x :=
    fun hne hx => (Dict.get?_erase_ne hne).trans hx
  refine ⟨⟨⟨fun hq hw => ?_, fun hx => h.queued (hget hx).1 (hget hx).2, h.nodup, fun hx => h.fresh (hget hx).2,
    fun hx => h.kind (hget hx).2⟩, fun {u id a} he => ?_⟩, fun {worker x} hx => ?_, fun {u id a worker} he hw hl => ?_⟩
  · obtain ⟨hne, x, hx, hm⟩ := h.known hq hw
    exact ⟨x, hkeep hne hx, hm⟩
  · have hp := h.placed he
    obtain ⟨worker, x, hw, hx, hcase⟩ := hp.worker
    refine ⟨hp.uuid, hp.scheduler, hp.status, worker, x, hw, hkeep ?_ hx, hcase⟩
    rintro rfl
    exact hleft he hw
  · rw [h.dead (hget hx).2]
    simp [(hget hx).1]
  · obtain ⟨q, k, x, hq, hk, hx, ha⟩ := h.manned he hw (Or.inr hl)
    exact ⟨q, k, x, hq, hk, hkeep (h.known hq hk).1 hx, ha⟩

theorem delZombieWorker_ok (h : Passing conf (d :: l) s) (hd : d ∉ l) (hx : s.workers.get? d = some x) :
    ∃ s', delZombieWorker d s = .ok ⟨⟩ s' ∧ Passing conf l s' ∧ s'.workers = s.workers.erase d := by
  obtain ⟨q, hq, -⟩ := h.queues.queued hx
  have hnone : ∀ {v id a}, False → Entry { s with qByMod := s.qByMod.set x.moduleName (q.erase d) } v id a →
      a.myWorker ≠ some d := fun hf => hf.elim
  obtain ⟨s', he, hs', hk, hw, hleft⟩ := requeueAll_ok (h.removing hx hq) (fun _ hu => hu) hnone
  have hstep : delZombieWorker d s = .ok ⟨⟩ { s' with workers := s'.workers.erase d } := by
    unfold delZombieWorker
    rw [get_bind, hx]
    simp only
    rw [hq]
    show (s.schedulers.keys.forM (requeueActions d) >>= fun _ => modify fun s => { s with workers := s.workers.erase d } : Sat Unit)
      { s with qByMod := s.qByMod.set x.moduleName (q.erase d) } = _
    rw [bind_ok he]
    rfl
  refine ⟨_, hstep, hs'.removed hd fun {v id a} hen => hleft (Or.inl ?_) hen, by rw [hw]⟩
  obtain ⟨link, hl, -⟩ := hen
  show v ∈ s.schedulers.keys
  rw [← hk]
  exact Dict.mem_keys.mpr (by rw [hl]; exact Option.some_ne_none link)

theorem delZombieWorkers_ok (h : Passing conf l s) (hn : l.Nodup) (hx : ∀ worker ∈ l, s.workers.get? worker ≠ none) :
    ∃ s', l.forM delZombieWorker s = .ok ⟨⟩ s' ∧ Passing conf [] s' := by
  induction l generalizing s with
  | nil => exact ⟨s, rfl, h⟩
  | cons d l ih =>
    obtain ⟨hd, hn⟩ := List.nodup_cons.mp hn
    obtain ⟨x, hget⟩ := Option.ne_none_iff_exists'.mp (hx d List.mem_cons_self)
    obtain ⟨s₁, he1, h1, hw1⟩ := delZombieWorker_ok h hd hget
    have hx1 : ∀ worker ∈ l, s₁.workers.get? worker ≠ none := by
      intro worker hm
      have hne : worker ≠ d := fun e => hd (e ▸ hm)
      rw [hw1, Dict.get?_erase_ne hne]
      exact hx worker (List.mem_cons_of_mem _ hm)
    obtain ⟨s₂, he2, h2⟩ := ih h1 hn hx1
    refine ⟨s₂, ?_, h2⟩
    show (delZombieWorker d >>= fun _ => l.forM delZombieWorker) s = _
    rw [bind_ok he1]
    exact he2

theorem Passing.given (h : Passing conf [] s) (he : Entry s u id a) : Given s u id a := by
  obtain ⟨worker, x, hw, hx, hcase⟩ := (h.placed he).worker
  have ha : x.isAlive = true := by
    by_contra hd
    exact List.not_mem_nil ((h.dead hx).mp (by simpa using hd))
  exact ⟨worker, x, hw, hx, ha, hcase.resolve_left (by simp [ha])⟩

theorem checkAndDelZombieWorkers_ok (h : Staffed conf s) (hi : s.interrupted = false)
    (hm : ∀ {u id a worker x}, Entry s u id a → a.myWorker = some worker → s.workers.get? worker = some x → x.isAlive = false →
      HasAlive s a.moduleType) :
    ∃ s', checkAndDelZombieWorkers s = .ok ⟨⟩ s' ∧ Passing conf [] s' := by
  unfold checkAndDelZombieWorkers
  rw [get_bind]
  generalize hl : s.workers.keys.filter _ = l
  have hmem : ∀ {worker}, worker ∈ l ↔ ∃ x, s.workers.get? worker = some x ∧ x.isAlive = false := by
    intro worker
    rw [← hl, List.mem_filter, Dict.mem_keys, hi]
    cases hw : s.workers.get? worker with
    | none => simp
    | some x => simp
  refine delZombieWorkers_ok ⟨h, fun hx => ?_, fun he hw hd => ?_⟩ (hl ▸ s.workers.nodup.filter _) fun worker hw => ?_
  · refine Iff.trans ?_ hmem.symm
    simp [hx]
  · obtain ⟨x, hx, ha⟩ := hmem.mp hd
    exact hm he hw hx ha
  · obtain ⟨x, hx, -⟩ := hmem.mp hw
    rw [hx]
    exact Option.some_ne_none x

/-! ## Workers come and go -/

theorem workerReturns_staffed (worker : Nat) (a : Action) (status : Scheduling.ActStatus) (h : Staffed conf s) :
    Staffed conf (workerReturns worker a status s) := by
  unfold workerReturns
  split
  · refine ⟨h.queues.congr rfl rfl rfl, fun {u id b} he => ?_⟩
    have hp := h.placed he
    obtain ⟨k, x, hk, hx, hcase⟩ := hp.worker
    refine ⟨hp.uuid, hp.scheduler, hp.status, k, x, hk, hx, ?_⟩
    have hret : Returned s u id → ∃ c ∈ s.returnsQueue ++ [{ a with status := status }], c.uuid = id ∧ c.myScheduler = u := by
      rintro ⟨c, hc, hid⟩
      exact ⟨c, List.mem_append_left _ hc, hid⟩
    rcases hcase with hd | hb | hr
    · exact Or.inl hd
    · by_cases hba : b = a
      · subst hba
        exact Or.inr (Or.inr ⟨_, List.mem_append_right _ List.mem_cons_self, hp.uuid, hp.scheduler⟩)
      · refine Or.inr (Or.inl ?_)
        show b ∈ Function.update s.held worker ((s.held worker).erase a) k
        by_cases hkw : k = worker
        · subst hkw
          rw [Function.update_self]
          exact (List.mem_erase_of_ne hba).mpr hb
        · rw [Function.update_of_ne hkw]
          exact hb
    · exact Or.inr (Or.inr (hret hr))
  · exact h

theorem workerDies_staffed (worker : Nat) (h : Staffed conf s) : Staffed conf (workerDies worker s) := by
  unfold workerDies
  split
  · exact h
  · rename_i y hy
    have hget : ∀ {k x}, (s.workers.set worker { y with isAlive := false }).get? k = some x →
        ∃ x₀, s.workers.get? k = some x₀ ∧ x.moduleName = x₀.moduleName := by
      intro k x hx
      rw [Dict.get?_set] at hx
      split at hx
      · rename_i hk
        subst hk
        cases hx
        exact ⟨y, hy, rfl⟩
      · exact ⟨x, hx, rfl⟩
    have hkeep : ∀ {k x}, s.workers.get? k = some x → k ≠ worker →
        (s.workers.set worker { y with isAlive := false }).get? k = some x := fun hx hk => (Dict.get?_set_ne hk).trans hx
    refine ⟨⟨fun {mod q k} hq hk => ?_, fun hx => ?_, h.queues.nodup, fun hx => ?_, fun hx => ?_⟩, fun {u id a} he => ?_⟩
    · obtain ⟨x, hx, hm⟩ := h.queues.known hq hk
      by_cases hkw : k = worker
      · subst hkw
        rw [hy] at hx
        cases hx
        exact ⟨_, Dict.get?_set_self, hm⟩
      · exact ⟨x, hkeep hx hkw, hm⟩
    · obtain ⟨x₀, hx0, hm⟩ := hget hx
      rw [hm]
      exact h.queues.queued hx0
    · obtain ⟨x₀, hx0, -⟩ := hget hx
      exact h.queues.fresh hx0
    · obtain ⟨x₀, hx0, hm⟩ := hget hx
      rw [hm]
      exact h.queues.kind hx0
    · have hp := h.placed he
      obtain ⟨k, x, hk, hx, hcase⟩ := hp.worker
      by_cases hkw : k = worker
      · subst hkw
        exact ⟨hp.uuid, hp.scheduler, hp.status, k, _, hk, Dict.get?_set_self, Or.inl rfl⟩
      · refine ⟨hp.uuid, hp.scheduler, hp.status, k, x, hk, hkeep hx hkw, ?_⟩
        refine hcase.imp_right fun hc => hc.imp_left fun hb => ?_
        show a ∈ Function.update s.held worker [] k
        rw [Function.update_of_ne hkw]
        exact hb

theorem manageReturn_rest (s : Satellite) :
    (manageReturn s).workers = s.workers ∧ (manageReturn s).qByMod = s.qByMod ∧ (manageReturn s).held = s.held ∧
    (manageReturn s).returnsQueue = s.returnsQueue.tail ∧ (manageReturn s).nextWorker = s.nextWorker := by
  unfold manageReturn
  cases hl : s.returnsQueue with
  | nil => exact ⟨rfl, rfl, rfl, hl, rfl⟩
  | cons c l =>
    simp only
    unfold manageActionReturn
    cases s.schedulers.get? c.myScheduler with
    | none => exact ⟨rfl, rfl, rfl, rfl, rfl⟩
    | some link => exact ⟨rfl, rfl, rfl, rfl, rfl⟩

theorem entry_manageReturn : Entry (manageReturn s) u id a ↔
    Entry s u id a ∧ ∀ c, s.returnsQueue.head? = some c → ¬ (u = c.myScheduler ∧ id = c.uuid) := by
  unfold manageReturn
  cases hl : s.returnsQueue with
  | nil => simp
  | cons c l =>
    simp only [List.head?_cons, Option.some.injEq, forall_eq']
    unfold manageActionReturn Entry
    cases hg : s.schedulers.get? c.myScheduler with
    | none =>
      constructor
      · rintro ⟨link, hlink, ha⟩
        refine ⟨⟨link, hlink, ha⟩, fun e => ?_⟩
        rw [← e.1, hlink] at hg
        cases hg
      · exact fun h => h.1
    | some link =>
      simp only [get?_setScheduler]
      by_cases hu : u = c.myScheduler
      · subst hu
        simp only [if_true, Option.some.injEq, exists_eq_left', hg, true_and, Dict.get?_erase]
        by_cases hid : id = c.uuid
        · simp [hid]
        · simp [hid]
      · simp [hu]

theorem manageReturn_staffed (h : Staffed conf s) : Staffed conf (manageReturn s) := by
  obtain ⟨h1, h2, h3, h4, h5⟩ := manageReturn_rest s
  refine ⟨h.queues.congr h1 h2 h5, fun {u id a} he => ?_⟩
  obtain ⟨he, hne⟩ := entry_manageReturn.mp he
  refine (h.placed he).congr h1 (fun k b hb => by rw [h3]; exact hb) ?_
  rintro ⟨b, hb, rfl, rfl⟩
  unfold Returned
  rw [h4]
  cases hl : s.returnsQueue with
  | nil =>
    rw [hl] at hb
    cases hb
  | cons c l =>
    rw [hl] at hb
    rcases List.mem_cons.mp hb with rfl | hb
    · exact absurd ⟨rfl, rfl⟩ (hne b (by rw [hl]; rfl))
    · exact ⟨b, hb, rfl, rfl⟩

theorem createAndLaunchWorker_staffed (mod : Nat) : Keeps (Staffed conf) (createAndLaunchWorker conf mod) := by
  unfold createAndLaunchWorker
  have hnew : conf.moduleKind mod ≠ .notWorker → Keeps (Staffed conf) (modify fun s => { s with
      workers := s.workers.set s.nextWorker ⟨mod, true⟩
      qByMod := s.qByMod.set mod ((s.qByMod.get? mod).getD [] ++ [s.nextWorker])
      held := Function.update s.held s.nextWorker []
      nextWorker := s.nextWorker + 1 } : Sat Unit) := by
    refine fun hkind => Keeps.modify fun s h => ?_
    have hfree : ∀ {k x}, s.workers.get? k = some x → k ≠ s.nextWorker := fun hx => Nat.ne_of_lt (h.queues.fresh hx)
    have hkeep : ∀ {k x}, s.workers.get? k = some x → (s.workers.set s.nextWorker ⟨mod, true⟩).get? k = some x :=
      fun hx => (Dict.get?_set_ne (hfree hx)).trans hx
    have hget : ∀ {k x}, (s.workers.set s.nextWorker ⟨mod, true⟩).get? k = some x →
        (k = s.nextWorker ∧ x.moduleName = mod) ∨ s.workers.get? k = some x := by
      intro k x hx
      rw [Dict.get?_set] at hx
      split at hx
      · cases hx
        exact Or.inl ⟨by assumption, rfl⟩
      · exact Or.inr hx
    have hqueue : ∀ {m q k}, s.qByMod.get? m = some q → k ∈ q → k < s.nextWorker := by
      intro m q k hq hk
      obtain ⟨x, hx, -⟩ := h.queues.known hq hk
      exact h.queues.fresh hx
    have hq0 : ∀ k ∈ (s.qByMod.get? mod).getD [], ∃ q, s.qByMod.get? mod = some q ∧ k ∈ q := by
      intro k hk
      cases hq : s.qByMod.get? mod with
      | none =>
        rw [hq] at hk
        exact (nomatch hk)
      | some q =>
        rw [hq] at hk
        exact ⟨q, rfl, hk⟩
    refine ⟨⟨fun {m q k} hq hk => ?_, fun {k x} hx => ?_, fun {m q} hq => ?_, fun {k x} hx => ?_, fun {k x} hx => ?_⟩, fun {u id a} he => ?_⟩
    · rw [Dict.get?_set] at hq
      split at hq
      · rename_i hm
        subst hm
        cases hq
        rcases List.mem_append.mp hk with hk | hk
        · obtain ⟨q, hq, hk⟩ := hq0 k hk
          obtain ⟨x, hx, hm⟩ := h.queues.known hq hk
          exact ⟨x, hkeep hx, hm⟩
        · rw [List.mem_singleton.mp hk]
          exact ⟨_, Dict.get?_set_self, rfl⟩
      · obtain ⟨x, hx, hm⟩ := h.queues.known hq hk
        exact ⟨x, hkeep hx, hm⟩
    · rw [Dict.get?_set]
      rcases hget hx with ⟨rfl, hm⟩ | hx
      · rw [if_pos hm]
        exact ⟨_, rfl, List.mem_append_right _ List.mem_cons_self⟩
      · obtain ⟨q, hq, hk⟩ := h.queues.queued hx
        split
        · rename_i hm
          rw [hm] at hq
          exact ⟨_, rfl, List.mem_append_left _ (by rw [hq]; exact hk)⟩
        · exact ⟨q, hq, hk⟩
    · rw [Dict.get?_set] at hq
      split at hq
      · cases hq
        refine List.nodup_append.mpr ⟨?_, by simp, fun k hk k' hk' => ?_⟩
        · cases hq : s.qByMod.get? mod with
          | none => exact List.nodup_nil
          | some q => exact h.queues.nodup hq
        · obtain ⟨q, hq, hk⟩ := hq0 k hk
          rw [List.mem_singleton.mp hk']
          exact Nat.ne_of_lt (hqueue hq hk)
      · exact h.queues.nodup hq
    · rcases hget hx with ⟨rfl, -⟩ | hx
      · exact Nat.lt_succ_self _
      · exact Nat.lt_succ_of_lt (h.queues.fresh hx)
    · rcases hget hx with ⟨-, hm⟩ | hx
      · rw [hm]
        exact hkind
      · exact h.queues.kind hx
    · have hp := h.placed he
      obtain ⟨k, x, hk, hx, hcase⟩ := hp.worker
      refine ⟨hp.uuid, hp.scheduler, hp.status, k, x, hk, hkeep hx, ?_⟩
      refine hcase.imp_right fun hc => hc.imp_left fun hb => ?_
      show a ∈ Function.update s.held s.nextWorker [] k
      rw [Function.update_of_ne (hfree hx)]
      exact hb
  cases hk : conf.moduleKind mod with
  | notWorker => exact Keeps.throw trivial
  | unknown => exact Keeps.pure _
  | fork => exact hnew (by rw [hk]; exact fun e => nomatch e)
  | workerCapable => exact hnew (by rw [hk]; exact fun e => nomatch e)

theorem get?_erased {toDel : List Nat} {q₀ : Dict Nat (List Nat)} {mod : Nat} :
    (toDel.foldl (fun q mod => q.erase mod) q₀).get? mod = if mod ∈ toDel then none else q₀.get? mod := by
  induction toDel generalizing q₀ with
  | nil => rfl
  | cons m toDel ih =>
    rw [List.foldl_cons, ih, Dict.get?_erase]
    by_cases h : mod = m
    · simp [h]
    · simp [h]

theorem adjustWorkerNumberByLoad_staffed : Keeps (Staffed conf) (adjustWorkerNumberByLoad conf) := by
  refine Keeps.read fun s => Keeps.ite (fun _ => Keeps.pure _) fun _ => ?_
  refine Leads.bindOk (R := fun toDel _ => ∀ mod ∈ toDel, conf.moduleKind mod = .notWorker) ?_ ?_ (fun toDel => ?_) fun _ h => h
  · refine Keeps.foldlM fun toDel mod _ => Keeps.read fun s => ?_
    refine Keeps.ite (fun _ => Keeps.pure _) fun _ => ?_
    exact Keeps.bind (Keeps.forM fun mod _ => createAndLaunchWorker_staffed mod) fun _ => Keeps.pure _
  · have hloop : Ensures (fun _ => ∀ mod ∈ ([] : List Nat), conf.moduleKind mod = .notWorker) (s.qByMod.keys.foldlM (fun toDel mod => do
        let todo := conf.minWorkers - (((← get).qByMod.get? mod).getD []).length
        if conf.moduleKind mod = .notWorker ∧ 0 < todo then return toDel ++ [mod]
        else
          (List.replicate todo mod).forM (createAndLaunchWorker conf)
          return toDel) [] : Sat (List Nat)) fun toDel _ => ∀ mod ∈ toDel, conf.moduleKind mod = .notWorker := by
      refine Ensures.foldlM (d := []) (I := fun _ toDel _ => ∀ mod ∈ toDel, conf.moduleKind mod = .notWorker) fun _ toDel mod _ => ?_
      refine Ensures.readAt fun s hs => Ensures.ite (fun hk => Ensures.pure fun _ _ m hm => ?_) fun _ => ?_
      · rcases List.mem_append.mp hm with hm | hm
        · exact hs m hm
        · rw [List.mem_singleton.mp hm]
          exact hk.1
      · exact Ensures.bind (R := fun _ _ => True) (fun _ _ _ _ _ => trivial) fun _ => Ensures.pure fun _ _ => hs
    exact hloop.pre fun _ _ => List.forall_mem_nil _
  · refine Leads.modify fun s ⟨h, hdel⟩ => ?_
    have hget : ∀ {mod q}, (toDel.foldl (fun q mod => q.erase mod) s.qByMod).get? mod = some q → s.qByMod.get? mod = some q := by
      intro mod q hq
      rw [get?_erased] at hq
      split at hq
      · cases hq
      · exact hq
    refine ⟨⟨fun hq hk => h.queues.known (hget hq) hk, fun {k x} hx => ?_, fun hq => h.queues.nodup (hget hq), h.queues.fresh,
      h.queues.kind⟩, fun he => (h.placed he).congr rfl (fun _ _ hb => hb) fun hr => hr⟩
    rw [get?_erased, if_neg fun hm => h.queues.kind hx (hdel _ hm)]
    exact h.queues.queued hx

/-! ## The other events -/

def KeptByLinks (I : Satellite → Prop) : Prop :=
  ∀ {s : Satellite} {u : Nat} {link link' : SchedulerLink}, I s → s.schedulers.get? u = some link → link'.actions = link.actions →
    I (s.setScheduler u link')

theorem pushResults_keeps {I : Satellite → Prop} (h : KeptByLinks I) (response : Nat → Dispatching.Response Bool) :
    Keeps I (pushResults response) := by
  refine Keeps.read fun s => Keeps.forM fun v _ => ?_
  intro s hs
  refine ⟨?_, fun _ _ _ => trivial⟩
  unfold pushResultsTo
  rw [get_bind]
  cases hl : s.schedulers.get? v with
  | none => exact hs
  | some link =>
    simp only
    unfold pushLink
    split
    · obtain ⟨x, answer⟩ := call link.maxCheckAttempts link.toSatelliteLink (response v)
      cases answer with
      | error e => exact h hs hl rfl
      | ok a => exact h hs hl rfl
    · exact hs

theorem linkChanges_keeps {I : Satellite → Prop} (h : KeptByLinks I) (hs : I s) (x : Dispatching.SatelliteLink) (active : Bool) :
    I (linkChanges u x active s) := by
  unfold linkChanges
  cases hl : s.schedulers.get? u with
  | none => exact hs
  | some link => exact h hs hl rfl

theorem entry_setScheduler {link link' : SchedulerLink} (hl : s.schedulers.get? u = some link) (ha : link'.actions = link.actions) :
    Entry (s.setScheduler u link') v id a ↔ Entry s v id a := by
  unfold Entry
  rw [get?_setScheduler]
  by_cases hv : v = u
  · subst hv
    simp [hl, ha]
  · simp [hv]

theorem staffed_keptByLinks : KeptByLinks (Staffed conf) := by
  intro s u link link' h hl ha
  refine ⟨h.queues.congr rfl rfl rfl, fun {v id a} he => ?_⟩
  exact (h.placed ((entry_setScheduler hl ha).mp he)).congr rfl (fun _ _ hb => hb) fun hr => hr

theorem addActions_ok {actions : List Action} {schedulerInstanceId : Nat} (h : Staffed conf s)
    (hm : Turn.Manned ⟨s, .addActions actions schedulerInstanceId⟩) :
    ∃ s', addActions actions schedulerInstanceId s = .ok ⟨⟩ s' ∧ Staffed conf s' := by
  unfold addActions
  rw [get_bind]
  cases hf : s.schedulers.entries.find? fun e => e.2.instanceId == schedulerInstanceId with
  | none => exact ⟨s, rfl, h⟩
  | some e =>
    have hl : s.schedulers.get? e.1 = some e.2 := Dict.get?_eq_some.mpr (List.mem_of_find?_eq_some hf)
    refine addActions_staffed (fun a ha link hlink hn => ?_) h (by rw [hl]; exact Option.some_ne_none _)
    rw [hl] at hlink
    cases hlink
    exact hm.1 actions schedulerInstanceId e.1 e.2 rfl hf a ha hn

theorem event_staffed {t : Turn} (h : Staffed conf t.state) (hm : t.Manned) : Staffed conf (t.after conf) := by
  obtain ⟨s, ev⟩ := t
  unfold Turn.after
  cases ev with
  | addActions actions schedulerInstanceId =>
    obtain ⟨s', he, hs'⟩ := addActions_ok h hm
    show Staffed conf (stateAfter (addActions actions schedulerInstanceId s))
    rw [he]
    exact hs'
  | workerReturns worker a status => exact workerReturns_staffed worker a status h
  | workerDies worker => exact workerDies_staffed worker h
  | manageReturn => exact manageReturn_staffed h
  | checkAndDelZombieWorkers =>
    show Staffed conf (stateAfter (checkAndDelZombieWorkers s))
    by_cases hi : s.interrupted = false
    · obtain ⟨s', he, hs'⟩ := checkAndDelZombieWorkers_ok h hi fun he hw hx hd => hm.2 rfl hi _ _ _ _ _ he hw hx hd
      rw [he]
      exact hs'.toStaffed
    · have hnone : checkAndDelZombieWorkers s = .ok ⟨⟩ s := by
        unfold checkAndDelZombieWorkers
        show (List.forM _ delZombieWorker : Sat Unit) s = _
        rw [List.filter_eq_nil_iff.mpr fun worker _ => by simp [hi]]
        rfl
      rw [hnone]
      exact h
  | adjustWorkerNumberByLoad => exact (adjustWorkerNumberByLoad_staffed s h).1
  | pushResults response => exact (pushResults_keeps staffed_keptByLinks response s h).1
  | linkChanges v x active => exact linkChanges_keeps staffed_keptByLinks h x active

/-! ## Runs -/

structure Starts (s : Satellite) : Prop where
  workers : s.workers = Dict.empty
  queues : ∀ {mod q}, s.qByMod.get? mod = some q → q = []
  actions : ∀ {u link}, s.schedulers.get? u = some link → link.actions = Dict.empty

theorem Starts.staffed (h : Starts s) : Staffed conf s where
  queues := by
    refine ⟨fun hq hw => ?_, fun hx => ?_, fun hq => ?_, fun hx => ?_, fun hx => ?_⟩
    · rw [h.queues hq] at hw
      exact (nomatch hw)
    · rw [h.workers] at hx
      cases hx
    · rw [h.queues hq]
      exact List.nodup_nil
    · rw [h.workers] at hx
      cases hx
    · rw [h.workers] at hx
      cases hx
  placed := by
    rintro u id a ⟨link, hl, ha⟩
    rw [h.actions hl] at ha
    cases ha

theorem run_staffed {s₀ : Satellite} {trace : List Turn} (h0 : Starts s₀) (h : Run conf s₀ trace s)
    (hm : ∀ t ∈ trace, t.Manned) : Staffed conf s := by
  induction h with
  | nil => exact h0.staffed
  | snoc h ev ih =>
    refine event_staffed (ih fun t ht => hm t (List.mem_append_left _ ht)) ?_
    exact hm _ (List.mem_append_right _ List.mem_cons_self)

end

end Alignak.Satellites
