import Alignak.CheckRuns
import Alignak.ManageResults

/-!
# No item in checking without a check

Every step keeps the checks in progress alive, except two: an internal check of
an item whose active checks are disabled is wiped out without a word to its
item, and a queue that is cleaned asks the item to forget the check itself, where
it keeps an identifier.
-/

namespace Alignak.Checking

open Scheduling

section
variable {conf : Conf} {env : Env} {w v : World} {i c : Nat}

/-! ## The checks and their items -/

theorem Busy.setStatus {s : ActStatus} (h : Busy w) (hs : ∀ i, c ∈ (w.item i).checksInProgress → alive s) :
    Busy (w.setStatus c s) := h.modifyCheck rfl hs

theorem alive_waitConsume : alive .waitConsume := ⟨nofun, nofun⟩

theorem Busy.addLaunched {o : Option Nat} (h : Busy w) : Busy (addLaunched o w) := by
  cases o with
  | none => exact h
  | some c => exact h.addCheck

theorem Busy.clearActions (h : Busy w) (ha : ∀ c ∈ (w.item i).actions, c ∈ w.checks) :
    Busy (w.modifyItem i fun x => { x with actions := [] }) := by
  have hi := h i
  refine h.setItem ⟨hi.nodup, hi.ref, hi.known, hi.live, fun c hc => Or.inl ?_, hi.inChecking⟩
  exact (hi.present c hc).elim id (ha c)

theorem addCheck_item (w : World) : (addCheck c w).item = w.item := by
  unfold addCheck
  split <;> rfl

theorem addChecks_spec : ∀ (l : List Nat) (w : World), (l.foldl (fun w c => addCheck c w) w).item = w.item ∧
    w.checks ⊆ (l.foldl (fun w c => addCheck c w) w).checks ∧ ∀ c ∈ l, c ∈ (l.foldl (fun w c => addCheck c w) w).checks
  | [], _ => ⟨rfl, fun _ => id, fun _ hc => absurd hc List.not_mem_nil⟩
  | d :: l, w => by
    obtain ⟨h1, h2, h3⟩ := addChecks_spec l (addCheck d w)
    have hd : w.checks ⊆ (addCheck d w).checks ∧ d ∈ (addCheck d w).checks := by
      unfold addCheck
      split
      · rename_i hm
        exact ⟨fun _ => id, hm⟩
      · exact ⟨fun _ => List.mem_append_left _, List.mem_append_right _ List.mem_cons_self⟩
    refine ⟨h1.trans (addCheck_item w), fun e he => h2 (hd.1 he), fun e he => ?_⟩
    rcases List.mem_cons.mp he with rfl | he
    · exact h2 hd.2
    · exact h3 e he

theorem Busy.getNewActions (h : Busy w) : Busy (getNewActions conf w) := by
  refine List.foldlRecOn (motive := Busy) _ _ h fun v hv i _ => ?_
  obtain ⟨h1, -, h3⟩ := addChecks_spec (v.item i).actions v
  exact hv.addChecks.clearActions fun c hc => h3 c (by rw [h1] at hc; exact hc)

/-! ## Launching -/

theorem scheduleItem_busy (i : Nat) : Keeps Busy (scheduleItem conf env i) :=
  Keeps.bind (schedule_busy _ _) fun _ => Keeps.modify fun _ h => h.addLaunched

theorem processCheckResult_busy (i : Nat) (r : PassiveResult) : Keeps Busy (processCheckResult conf env i r) := by
  refine Keeps.read fun w => Keeps.ite (fun _ => Keeps.pure _) fun _ => Keeps.bind (launchCheck_busy _ _ _ _) fun c => ?_
  split
  · exact Keeps.pure _
  · refine Keeps.bind (Keeps.modify fun s hs => ?_) fun _ => Keeps.modify fun s hs => hs.addCheck
    exact (hs.modifyCheck rfl fun _ _ => alive_waitConsume).modifyData

theorem endInProgress_busy (i c : Nat) : Keeps Busy (endInProgress env i c) := by
  refine Keeps.read fun w => Keeps.ite (fun _ => Keeps.modify fun s hs => ?_) fun _ => Keeps.throw trivial
  exact (hs.modifyCheck rfl fun _ _ => alive_waitConsume).modifyData

theorem disableActiveChecks_busy (i : Nat) : Keeps Busy (disableActiveChecks env i) := by
  refine Keeps.read fun w => Keeps.ite (fun _ => ?_) fun _ => Keeps.pure _
  refine Keeps.bind (Keeps.modify fun s hs => hs.modifyItem fun x => ⟨rfl, rfl, fun _ => id⟩) fun _ => Keeps.read fun w => ?_
  exact Keeps.forM fun c _ => endInProgress_busy i c

theorem checkItemFreshness_busy (i : Nat) : Keeps Busy (checkItemFreshness conf env i) := by
  refine Keeps.read fun w => Keeps.guarded fun _ => Keeps.bind (launchCheck_busy _ _ _ _) fun c => ?_
  split
  · exact Keeps.pure _
  · refine Keeps.bind (Keeps.modify fun s hs => ?_) fun _ => Keeps.modify fun s hs => hs.addCheck
    exact (hs.modifyCheck rfl fun j hj => (hs j).live _ hj).modifyData

/-! ## Polling and results -/

theorem Busy.getToRunChecks (h : Busy w) (tagged : Nat → Bool) : Busy (getToRunChecks env tagged w) := by
  refine List.foldlRecOn (motive := Busy) _ _ h fun v hv c _ => ?_
  split
  · exact hv.setStatus fun _ _ => ⟨nofun, nofun⟩
  · exact hv

theorem Busy.checkOrphaned (h : Busy w) (late : Nat → Bool) : Busy (checkOrphaned late w) := by
  refine List.foldlRecOn (motive := Busy) _ _ h fun v hv c _ => ?_
  split
  · exact hv.setStatus fun _ _ => ⟨nofun, nofun⟩
  · exact hv

theorem Busy.getReturnFrom {o : Outcome} (h : Busy w) : Busy (getReturnFrom c o w) :=
  (h.modifyCheck rfl fun j hj => (h j).live _ hj).modifyData

theorem Busy.manageResults {action : Action} (h : Busy w) : Busy (manageResults conf action w).2 := by
  unfold Checking.manageResults
  simp only
  split
  · split
    · exact h.setStatus fun _ _ => alive_waitConsume
    · split
      · exact h.setStatus fun _ _ => alive_waitConsume
      · exact h.getReturnFrom.setStatus fun _ _ => alive_waitConsume
  · exact h

theorem Busy.deleteZombieChecks (h : Busy w) : Busy (deleteZombieChecks w) := by
  intro j
  refine ⟨(h j).nodup, (h j).ref, (h j).known, (h j).live, fun c hc => ?_, (h j).inChecking⟩
  refine ((h j).present c hc).imp (fun hm => List.mem_filter.mpr ⟨hm, ?_⟩) id
  simpa using ((h j).live c hc).1

/-! ## Consumption -/

theorem tellDependants_busy (c : Nat) : Keeps Busy (tellDependants c) :=
  Keeps.read fun _ => Keeps.forM fun _ _ => Keeps.read fun _ =>
    Keeps.ite (fun _ => Keeps.modify fun _ hs => hs.modifyData) fun _ => Keeps.throw trivial

theorem tellDependants_rest (c : Nat) : Unchanged (fun w => (w.items, w.item)) (tellDependants c) := by
  refine Unchanged.bind Unchanged.get fun w => Unchanged.forM fun d _ => Unchanged.bind Unchanged.get fun w => ?_
  exact Unchanged.ite (Unchanged.modify fun _ => rfl) (Unchanged.throw _)

theorem resolveCheck_busy (r : Bool) (c : Nat) : Ensures Busy (resolveCheck r c) fun _ => Busy := by
  intro w h b v hr
  by_cases hs : (w.check c).status = .waitingMe
  · have hrest : Keeps (fun s => Busy s ∧ (s.check c).status = .waitingMe) (tellDependants c) := by
      intro s hs
      refine ⟨⟨(tellDependants_busy c s hs.1).1, ?_⟩, fun _ _ _ => trivial⟩
      have hsame : (stateAfter (tellDependants c s)).items = s.items := congrArg Prod.fst (tellDependants_rest c s)
      show ((stateAfter (tellDependants c s)).items.check c).status = _
      rw [hsame]
      exact hs.2
    have hE : Ensures (fun s => Busy s ∧ (s.check c).status = .waitingMe) (do
        tellDependants c
        modify fun w => w.setStatus c .zombie
        return r || (w.check c).dependOnMe != []) fun _ => Busy := by
      refine Ensures.bind hrest.ensures fun _ => Ensures.bind (R := fun _ => Busy) (Ensures.modify fun s hs => ?_) fun _ =>
        Ensures.pure fun _ h => h
      exact hs.1.setStatus fun j hj => absurd hs.2 ((hs.1 j).live c hj).2
    have hw : resolveCheck r c w = (do
        tellDependants c
        modify fun w => w.setStatus c .zombie
        return r || (w.check c).dependOnMe != [] : Sched Bool) w := by
      show (if (w.check c).status = .waitingMe then _ else _ : Sched Bool) w = _
      rw [if_pos hs]
    rw [hw] at hr
    exact hE w ⟨h, hs⟩ b v hr
  · have hsame : resolveCheck r c w = .ok r w := by
      show (if (w.check c).status = .waitingMe then _ else _ : Sched Bool) w = _
      rw [if_neg hs]
      rfl
    rw [hsame] at hr
    cases hr
    exact h

theorem consumeIf_busy {p : World → Prop} [DecidablePred p]
    (hp : ∀ w, p w → (w.check c).status = .waitConsume ∨ (w.check c).status = .waitDepend) :
    Ensures Busy (do guarded (p (← get)) (consumeAndAdd conf env c)) fun _ => Busy := by
  refine Ensures.readAt fun w h => Ensures.ite (fun hw => ?_) fun _ => Ensures.pure fun s hs => hs ▸ h
  exact consumeAndAdd_busy h (hp w hw)

theorem consumeWaiting_busy (c : Nat) : Ensures Busy (consumeWaiting conf env c) fun _ => Busy :=
  consumeIf_busy (p := fun w => (w.check c).status = .waitConsume) fun _ => Or.inl

theorem consumeIfReady_busy (c : Nat) : Ensures Busy (consumeIfReady conf env c) fun _ => Busy :=
  consumeIf_busy (p := fun w => w.ready c = true) fun w hw => by
    unfold World.ready at hw
    rw [Bool.and_eq_true, beq_iff_eq] at hw
    exact Or.inr hw.1

theorem forM_busy {f : Nat → Sched Unit} (h : ∀ c, Ensures Busy (f c) fun _ => Busy) (l : List Nat) :
    Ensures Busy (l.forM f) fun _ => Busy :=
  Ensures.forM (I := fun _ => Busy) (d := []) fun _ c _ => h c

theorem resolveLoop_busy : ∀ fuel, Ensures Busy (resolveLoop conf env fuel) fun _ => Busy
  | 0 => Ensures.throw
  | fuel + 1 => by
    unfold resolveLoop
    refine Ensures.bind (R := fun _ => Busy) (Ensures.readAt fun w h => ?_) fun r => ?_
    · exact (Ensures.foldlM (I := fun _ _ => Busy) (d := []) fun _ r c _ => resolveCheck_busy r c).pre fun s hs => hs ▸ h
    · refine Ensures.bind (R := fun _ => Busy) (Ensures.readAt fun w h => ?_) fun _ => ?_
      · exact (forM_busy consumeIfReady_busy _).pre fun s hs => hs ▸ h
      · exact Ensures.ite (fun _ => resolveLoop_busy fuel) fun _ => Ensures.pure fun _ h => h

theorem consumeResults_busy : Ensures Busy (consumeResults conf env) fun _ => Busy := by
  refine Ensures.bind (R := fun _ => Busy) (Ensures.readAt fun w h => ?_) fun _ => Ensures.readAt fun w h => ?_
  · exact (forM_busy consumeWaiting_busy _).pre fun s hs => hs ▸ h
  · exact (resolveLoop_busy _).pre fun s hs => hs ▸ h

/-! ## The checks that are wiped out -/

def InternalActive (env : Env) (w : World) : Prop := ∀ c ∈ w.checks, w.internalReady env c = true →
  (w.item (w.check c).ref).activeChecksEnabled = false → c ∉ (w.item (w.check c).ref).checksInProgress

structure Executed (env : Env) (w v : World) : Prop where
  busy : Busy v
  item : v.item = w.item
  ref : ∀ c, (v.check c).ref = (w.check c).ref
  ready : ∀ c, v.internalReady env c = true → w.internalReady env c = true

theorem Executed.setStatus {s : ActStatus} (h : Executed env w v) (hs : s ≠ .scheduled)
    (hb : ∀ i, c ∈ (v.item i).checksInProgress → alive s) : Executed env w (v.setStatus c s) := by
  refine ⟨h.busy.setStatus hb, h.item, fun d => ?_, fun d hd => h.ready d ?_⟩ <;> by_cases he : d = c
  · subst he
    exact (setStatus_ref s).trans (h.ref d)
  · exact (congrArg _ (modifyCheck_ne _ he)).trans (h.ref d)
  · subst he
    unfold World.internalReady at hd
    rw [setStatus_status] at hd
    simp [hs] at hd
  · unfold World.internalReady at hd ⊢
    rw [show (v.setStatus c s).check d = v.check d from modifyCheck_ne _ he] at hd
    exact hd

theorem getReturnFrom_ready {o : Outcome} (d : Nat) : ((getReturnFrom c o v).check d).ref = (v.check d).ref ∧
    ((getReturnFrom c o v).check d).status = (v.check d).status ∧
    ((getReturnFrom c o v).data d).internal = (v.data d).internal ∧ ((getReturnFrom c o v).data d).tToGo = (v.data d).tToGo := by
  by_cases hd : d = c
  · subst hd
    simp [getReturnFrom, World.modifyData, World.modifyCheck, World.check, World.setCheck]
  · simp [getReturnFrom, World.modifyData, World.modifyCheck, World.check, World.setCheck, hd]

theorem Executed.getReturnFrom {o : Outcome} (h : Executed env w v) : Executed env w (getReturnFrom c o v) := by
  refine ⟨h.busy.getReturnFrom, h.item, fun d => ?_, fun d hd => h.ready d ?_⟩
  · exact (getReturnFrom_ready d).1.trans (h.ref d)
  · obtain ⟨-, h2, h3, h4⟩ := @getReturnFrom_ready v c o d
    unfold World.internalReady World.launchable at hd ⊢
    rw [h2, h3, h4] at hd
    exact hd

theorem Busy.manageInternalChecks (h : Busy w) (hi : InternalActive env w) : Busy (manageInternalChecks env w) := by
  have hstart : Executed env w w := ⟨h, rfl, fun _ => rfl, fun _ => id⟩
  refine (List.foldlRecOn (motive := Executed env w) _ _ hstart fun v hv c hc => ?_).busy
  unfold manageInternalCheck
  split
  · rename_i hr
    split
    · exact hv.getReturnFrom.setStatus nofun fun _ _ => alive_waitConsume
    · rename_i ha
      rw [hv.item, hv.ref, Bool.not_eq_true] at ha
      refine hv.setStatus nofun fun j hj => ?_
      have hrj := (hv.busy j).ref c hj
      rw [hv.item] at hj
      rw [hv.ref] at hrj
      rw [← hrj] at hj
      exact absurd hj (hi c hc (hv.ready c hr) ha)
  · exact hv

def DropsNone (conf : Conf) (w : World) : Prop := conf.tickCleanQueues ≠ 0 →
  ∀ c ∈ toDelChecks conf w, c ∉ (w.item (w.check c).ref).checksInProgress

theorem Busy.erase (h : Busy w) (hc : ∀ i, c ∉ (w.item i).checksInProgress) :
    Busy { w with checks := w.checks.erase c } := by
  intro j
  refine ⟨(h j).nodup, (h j).ref, (h j).known, (h j).live, fun d hd => ?_, (h j).inChecking⟩
  refine ((h j).present d hd).imp (fun hm => ?_) id
  have hne : d ≠ c := by
    rintro rfl
    exact hc j hd
  exact (List.mem_erase_of_ne hne).mpr hm

theorem dropCheck_busy (hc : c ∉ (w.item (w.check c).ref).checksInProgress) :
    Keeps (fun v => Busy v ∧ v.items = w.items ∧ v.item = w.item) (dropCheck c) := by
  refine Keeps.read fun s => Keeps.bind (Keeps.modify fun v hv => by rw [hv.1.updateInChecking]; exact hv) fun _ => ?_
  refine Keeps.bind (fun v hv => ?_) fun _ => Keeps.read fun v => Keeps.ite (fun _ => Keeps.modify fun u hu => ?_) fun _ =>
    Keeps.throw trivial
  · have hrest := tellDependants_rest c v
    simp only [Prod.mk.injEq] at hrest
    exact ⟨⟨(tellDependants_busy c v hv.1).1, hrest.1.trans hv.2.1, hrest.2.trans hv.2.2⟩, fun _ _ _ => trivial⟩
  · refine ⟨hu.1.erase fun j hj => hc ?_, hu.2⟩
    have hrj := (hu.1 j).ref c hj
    unfold World.check at hrj ⊢
    rw [hu.2.1] at hrj
    rw [hu.2.2, ← hrj] at hj
    exact hj

theorem cleanQueues_busy (hd : DropsNone conf w) (h : Busy w) : Leads (· = w) (cleanQueues conf) Busy := by
  refine Leads.readAt fun v hv => ?_
  cases hv
  have hk : Keeps (fun v => Busy v ∧ v.items = w.items ∧ v.item = w.item)
      (guarded (conf.tickCleanQueues ≠ 0) ((toDelChecks conf w).forM dropCheck)) :=
    Keeps.guarded fun ht => Keeps.forM fun c hc => dropCheck_busy (hd ht c hc)
  rintro _ rfl
  exact ⟨(hk _ ⟨h, rfl, rfl⟩).1.1, fun _ _ _ => trivial⟩

end

/-! ## The other events -/

section
variable {conf : Scheduling.Conf} {env : Scheduling.Env}

def leavesChecks : Scheduling.Event → Prop
  | .receiveResult _ _ => False
  | .consumeResult _ => False
  | _ => True

theorem runEvent_check (ev : Scheduling.Event) (h : leavesChecks ev) :
    Unchanged Scheduling.World.check (Scheduling.runEvent conf env ev) := by
  by_cases hq : ev.isCore = true
  · exact fun w => (World.core_eq (Scheduling.runEvent_core conf env hq w)).2.2.2
  cases ev with
  | receiveResult c chk => exact h.elim
  | consumeResult c => exact h.elim
  | command cmd =>
    cases cmd with
    | changeMaxCheckAttempts i n => exact Unchanged.modify fun _ => rfl
    | changeSettings i f => exact Unchanged.modify fun _ => rfl
    | _ => exact absurd rfl hq
  | _ => exact absurd rfl hq

end

section
variable {conf : Conf} {w v : World} {env : Env}

theorem onItems_busy {m : Scheduling.Sched Unit} (h : Unchanged Scheduling.World.check m) : Keeps Busy (onItems m) := by
  intro s hs
  refine ⟨?_, fun _ _ _ => trivial⟩
  have hsame : ∀ t : Scheduling.World, t.check = s.items.check → Busy { s with items := t } := fun t ht j => by
    refine (hs j).of_same rfl rfl le_rfl (fun c _ => ?_) (fun c _ ha => ?_) fun _ => id
    · exact congrArg Scheduling.Check.ref (congrFun ht c)
    · show alive (t.check c).status
      rw [ht]
      exact ha
  have hm := h s.items
  unfold onItems
  cases hr : m s.items with
  | ok a t =>
    rw [hr] at hm
    exact hsame t hm
  | error e t =>
    rw [hr] at hm
    exact hsame t hm

def Turn.Orderly (conf : Conf) (t : Turn) : Prop :=
  match t.event with
  | .manageInternalChecks => InternalActive t.env t.world
  | .cleanQueues => DropsNone conf t.world
  | _ => True

instance (conf : Conf) : ∀ t : Turn, Decidable (t.Orderly conf)
  | ⟨w, env, .manageInternalChecks⟩ => inferInstanceAs (Decidable (∀ c ∈ w.checks, w.internalReady env c = true → _ → _))
  | ⟨w, _, .cleanQueues⟩ => inferInstanceAs (Decidable (_ → ∀ c ∈ toDelChecks conf w, c ∉ (w.item (w.check c).ref).checksInProgress))
  | ⟨_, _, .getNewActions⟩ | ⟨_, _, .schedule⟩ | ⟨_, _, .scheduleCheck _ _ _⟩ | ⟨_, _, .processCheckResult _ _⟩
  | ⟨_, _, .disableActiveChecks _⟩ | ⟨_, _, .enableActiveChecks _⟩ | ⟨_, _, .changePassiveChecks _ _⟩
  | ⟨_, _, .getToRunChecks _⟩ | ⟨_, _, .manageResults _⟩ | ⟨_, _, .checkFreshness⟩ | ⟨_, _, .consumeResults⟩
  | ⟨_, _, .deleteZombieChecks⟩ | ⟨_, _, .checkOrphaned _⟩ | ⟨_, _, .items _⟩ => isTrue trivial

theorem Step.busy {ev : Event} (hs : Step conf env w ev v) (ho : Turn.Orderly conf ⟨w, env, ev⟩) (h : Busy w) : Busy v := by
  have hk : ∀ {m : Sched Unit}, runEvent conf env ev = m → Keeps Busy m → Busy v := by
    rintro m rfl hm
    rw [hs.after]
    exact (hm w h).1
  cases ev with
  | getNewActions => exact hk rfl (Keeps.modify fun _ h => h.getNewActions)
  | schedule => exact hk rfl (Keeps.forM fun i _ => scheduleItem_busy i)
  | scheduleCheck i force t => exact hk rfl (Keeps.bind (schedule_busy force _) fun _ => Keeps.pure _)
  | processCheckResult i r => exact hk rfl (processCheckResult_busy i r)
  | disableActiveChecks i => exact hk rfl (disableActiveChecks_busy i)
  | enableActiveChecks i => exact hk rfl (Keeps.modify fun _ h => h.modifyItem fun _ => ⟨rfl, rfl, fun _ => id⟩)
  | changePassiveChecks i b => exact hk rfl (Keeps.modify fun _ h => h.modifyItem fun _ => ⟨rfl, rfl, fun _ => id⟩)
  | getToRunChecks tagged => exact hk rfl (Keeps.modify fun _ h => h.getToRunChecks tagged)
  | manageResults action => exact hk rfl (Keeps.modify fun _ h => h.manageResults)
  | checkFreshness => exact hk rfl (Keeps.forM fun i _ => checkItemFreshness_busy i)
  | manageInternalChecks =>
    rw [hs.after]
    exact h.manageInternalChecks ho
  | consumeResults =>
    cases hs with
    | returned _ hr => exact consumeResults_busy w h () v hr
    | dropped _ hc _ => cases hc
  | deleteZombieChecks => exact hk rfl (Keeps.modify fun _ h => h.deleteZombieChecks)
  | cleanQueues =>
    rw [hs.after]
    exact (cleanQueues_busy ho h w rfl).1
  | checkOrphaned late => exact hk rfl (Keeps.modify fun _ h => h.checkOrphaned late)
  | items e =>
    refine hk rfl (onItems_busy (runEvent_check e ?_))
    have he := hs.enabled
    cases e <;> first | exact he | trivial

theorem Initial.busy (h : Initial w) : Busy w := by
  intro i
  obtain ⟨h1, h2, -⟩ := h.inProgress i
  refine ⟨?_, ?_, ?_, ?_, ?_, ?_⟩ <;> rw [h1]
  · exact List.nodup_nil
  · exact nofun
  · exact nofun
  · exact nofun
  · exact nofun
  · rw [h2]
    rfl

structure ChecksLive (w : World) : Prop where
  live : ∀ i, ∀ c ∈ (w.item i).checksInProgress,
    (c ∈ w.checks ∨ c ∈ (w.item i).actions) ∧ (w.check c).status ≠ .zombie
  inChecking : ∀ i, (w.item i).inChecking = true ↔ (w.item i).checksInProgress ≠ []

theorem Busy.checksLive (h : Busy w) : ChecksLive w where
  live i c hc := ⟨(h i).present c hc, ((h i).live c hc).1⟩
  inChecking i := by
    rw [(h i).inChecking]
    simp

theorem run_busy {w₀ : World} {trace : List Turn} (h0 : Initial w₀) (hr : Run conf w₀ trace w)
    (ho : ∀ t ∈ trace, t.Orderly conf) : Busy w := by
  induction hr with
  | nil => exact h0.busy
  | snoc _ hs ih =>
    exact hs.busy (ho _ (List.mem_append_right _ List.mem_cons_self)) (ih fun t ht => ho t (List.mem_append_left _ ht))

theorem checks_in_progress_live {w₀ : World} {trace : List Turn} (h₀ : Initial w₀) (hr : Run conf w₀ trace w)
    (ho : ∀ t ∈ trace, t.Orderly conf) : ChecksLive w := (run_busy h₀ hr ho).checksLive

end

/-! ## An internal check of an item without active checks -/

def idleWorld : World where
  items := startWorld
  checks := []
  data := fun _ => ⟨"", "", "", 0, 0, 0, 0, 0, false, false, []⟩
  item := fun _ => { activeChecksEnabled := false }
  nextCheck := 0
  consumed := []

def internalEnv : Env := { checkingEnv 8 with isInternalCommand := fun _ => true }

def afterEvent (w : World) (ev : Event) : World := stateAfter (runEvent oneCheckedHost internalEnv ev w)

def forcedWorld : World := afterEvent idleWorld (.scheduleCheck 0 true 8)

def takenWorld : World := afterEvent forcedWorld .getNewActions

theorem takenWorld_run : Run oneCheckedHost idleWorld
    [⟨idleWorld, internalEnv, .scheduleCheck 0 true 8⟩, ⟨forcedWorld, internalEnv, .getNewActions⟩] takenWorld := by
  have h1 : Step oneCheckedHost internalEnv idleWorld (.scheduleCheck 0 true 8) forcedWorld := .returned trivial rfl
  have h2 : Step oneCheckedHost internalEnv forcedWorld .getNewActions takenWorld := .returned trivial rfl
  exact (Run.nil.snoc h1).snoc h2

theorem checks_in_progress_live_forced : ChecksLive takenWorld :=
  checks_in_progress_live (⟨startWorld_initial, rfl, fun _ => ⟨rfl, rfl, rfl⟩, rfl⟩) takenWorld_run fun t ht => by
    rcases List.mem_cons.mp ht with rfl | ht
    · trivial
    · rw [List.mem_singleton.mp ht]
      trivial

/-- The active checks of the item are disabled: the check is a zombie, and its
item is in checking. -/
theorem in_checking_for_ever : ∃ trace, Run oneCheckedHost idleWorld trace (afterEvent takenWorld .manageInternalChecks) ∧
    ¬ ChecksLive (afterEvent takenWorld .manageInternalChecks) := by
  have h3 : Step oneCheckedHost internalEnv takenWorld .manageInternalChecks (afterEvent takenWorld .manageInternalChecks) :=
    .returned trivial rfl
  refine ⟨_, takenWorld_run.snoc h3, fun h => ?_⟩
  exact (h.live 0 0 (by decide)).2 rfl

end Alignak.Checking
