import Alignak.LastChecks
import Alignak.PassiveResults

/-!
# The age of the passive results

A passive result that is older than `last_chk` is ignored.
-/

namespace Alignak.Checking

open Scheduling

structure FreshConf extends toChecking : Conf where
  checkHostFreshness : Bool
  hostFreshnessCheckInterval : Nat
  checkServiceFreshness : Bool
  serviceFreshnessCheckInterval : Nat
  checkFreshness : Nat → Bool

structure FreshEnv extends toChecking : Env where
  /-- `none`: the scheduler has no ticks yet. -/
  ticks : Option Nat
  /-- The text with the last hard state change and the time of the pass. -/
  expiredOutput : Nat → String

structure Taken where
  item : Nat
  checkTime : Int
  freshnessExpiryCheck : Bool
  deriving DecidableEq, Repr

/-- `taken` is no data of the source: it lists the results in the order of their
consumption. -/
structure FreshWorld where
  checking : World
  freshnessExpired : Nat → Bool
  taken : List Taken

abbrev FreshSched := EStateM Exn FreshWorld

def onChecking {α : Type} (m : Sched α) : FreshSched α := fun w =>
  match m w.checking with
  | .ok a s => .ok a { w with checking := s }
  | .error e s => .error e { w with checking := s }

namespace FreshWorld

variable (w : FreshWorld)

def setFreshnessExpired (i : Nat) (b : Bool) : FreshWorld :=
  { w with freshnessExpired := Function.update w.freshnessExpired i b }

def lastChk (i : Nat) : Int := w.checking.lastChks i

end FreshWorld

section
variable (conf : FreshConf) (env : FreshEnv)

/-! ## The freshness pass -/

def refresh (w : FreshWorld) (i : Nat) : FreshWorld :=
  { w with checking :=
    { w.checking.modifyItem i fun x => { x with output := env.expiredOutput i } with
      items := w.checking.items.modifyCheckState i fun x => { x with lastChk := env.now } } }

def FreshWorld.stillExpired (w : FreshWorld) (i : Nat) : Bool := conf.checkFreshness i && w.freshnessExpired i

def FreshWorld.mayExpire (w : FreshWorld) (i : Nat) : Bool :=
  conf.checkFreshness i && !w.freshnessExpired i && (w.checking.item i).passiveChecksEnabled &&
    !(w.checking.item i).activeChecksEnabled

def FreshWorld.freshServices (w : FreshWorld) : List Nat := conf.services.filter fun s => !w.freshnessExpired (conf.host s)

def dueAt (interval : Nat) : Prop := env.ticks.getD interval % interval = 0

instance (interval : Nat) : Decidable (dueAt env interval) := inferInstanceAs (Decidable (_ = _))

def passOver (enabled : Bool) (interval : Nat) (items : FreshWorld → List Nat) : FreshSched (List Nat) := do
  if enabled then
    if interval = 0 then throw .zeroDivisionError
    else if dueAt env interval then
      let w ← get
      modify fun v => ((items w).filter (w.stillExpired conf)).foldl (refresh env) v
      return (items w).filter (w.mayExpire conf)
    else return []
  else return []

def checkFreshness : FreshSched Unit := do
  let hosts ← passOver conf env conf.checkHostFreshness conf.hostFreshnessCheckInterval fun _ => conf.hosts
  let services ← passOver conf env conf.checkServiceFreshness conf.serviceFreshnessCheckInterval fun w => w.freshServices conf
  (hosts ++ services).forM fun i => onChecking (checkItemFreshness conf.toChecking env.toChecking i)

/-! ## Consumption -/

def FreshWorld.forgetExpiry (w : FreshWorld) (c : Nat) : FreshWorld :=
  let x := w.checking.check c
  if x.freshnessExpiryCheck then w else w.setFreshnessExpired x.ref false

def FreshWorld.take (w : FreshWorld) (c : Nat) : FreshWorld :=
  let x := w.checking.check c
  if mustWait conf.toChecking.toConf w.checking.items c then w
  else { w with taken := w.taken ++ [⟨x.ref, x.checkTime, x.freshnessExpiryCheck⟩] }

def FreshWorld.noteExpiry (x : Scheduling.Check) (w : FreshWorld) : FreshWorld :=
  if x.freshnessExpiryCheck ∧ (w.checking.items.checkState x.ref).stateType = .hard then w.setFreshnessExpired x.ref true else w

def consume (c : Nat) : FreshSched Unit := do
  let w ← get
  modify fun v => (v.forgetExpiry c).take conf c
  onChecking (consumeAndAdd conf.toChecking env.toChecking c)
  guarded (mustWait conf.toChecking.toConf w.checking.items c = false) (modify (FreshWorld.noteExpiry (w.checking.check c)))

/-! ## Runs -/

inductive FreshEvent
  | consume (c : Nat)
  | resolveWaitingMe
  | checkFreshness
  | checks (ev : Event)

def runFreshEvent : FreshEvent → FreshSched Unit
  | .consume c => consume conf env c
  | .resolveWaitingMe => onChecking (do let _ ← resolveWaitingMe)
  | .checkFreshness => checkFreshness conf env
  | .checks ev => onChecking (runEvent conf.toChecking env.toChecking ev)

def FreshEvent.Enabled (w : FreshWorld) : FreshEvent → Prop
  | .consume c => (w.checking.check c).status = .waitConsume ∨ w.checking.ready c = true
  | .checks .consumeResults => False
  | .checks .checkFreshness => False
  | .checks ev => ev.Enabled w.checking
  | _ => True

def FreshEvent.isCommand : FreshEvent → Bool
  | .checks ev => ev.isCommand
  | _ => false

/-- A command that raises is dropped, with the state that it has reached. -/
inductive FreshStep (w : FreshWorld) : FreshEvent → FreshWorld → Prop
  | returned {ev : FreshEvent} {w' : FreshWorld} (enabled : ev.Enabled w) (h : runFreshEvent conf env ev w = .ok () w') :
      FreshStep w ev w'
  | dropped {ev : FreshEvent} {e : Exn} {w' : FreshWorld} (enabled : ev.Enabled w) (command : ev.isCommand = true)
      (h : runFreshEvent conf env ev w = .error e w') : FreshStep w ev w'

structure FreshTurn where
  world : FreshWorld
  env : FreshEnv
  event : FreshEvent

inductive FreshRun (w₀ : FreshWorld) : List FreshTurn → FreshWorld → Prop
  | nil : FreshRun w₀ [] w₀
  | snoc {trace : List FreshTurn} {w w' : FreshWorld} {env : FreshEnv} {ev : FreshEvent} (h : FreshRun w₀ trace w)
      (hs : FreshStep conf env w ev w') : FreshRun w₀ (trace ++ [⟨w, env, ev⟩]) w'

/-! ## Results that are too old -/

def World.tooOld (w : World) (i : Nat) (r : PassiveResult) : Bool := decide (r.timestamp < w.lastChks i)

/-- The results of the freshness checks count when `expiryCounts`. -/
def FreshWorld.lastTaken (expiryCounts : Bool) (w : FreshWorld) (i : Nat) : Option Int :=
  ((w.taken.filter fun t => t.item == i && (expiryCounts || !t.freshnessExpiryCheck)).getLast?).map Taken.checkTime

def FreshWorld.NeverTooOld (expiryCounts : Bool) (w : FreshWorld) (i : Nat) : Prop :=
  ∀ t, w.lastTaken expiryCounts i = some t → ∀ r : PassiveResult, t ≤ r.timestamp → w.checking.tooOld i r = false

def FreshWorld.found (enabled : Bool) (interval : Nat) (items : List Nat) (w : FreshWorld) (i : Nat) : Prop :=
  enabled = true ∧ dueAt env interval ∧ i ∈ items ∧ w.stillExpired conf i = true

def FreshWorld.refreshed (w : FreshWorld) (i : Nat) : Prop :=
  w.found conf env conf.checkHostFreshness conf.hostFreshnessCheckInterval conf.hosts i ∨
  w.found conf env conf.checkServiceFreshness conf.serviceFreshnessCheckInterval (w.freshServices conf) i

/-- The time that the turn writes is not past the one of the last result: the
pass does not find the item still expired, or it comes before that time, and so
does the result of a freshness check where this one does not count. -/
def FreshTurn.Harmless (expiryCounts : Bool) (i : Nat) (t : FreshTurn) : Prop :=
  match t.event with
  | .checkFreshness => t.world.refreshed conf t.env i → ∀ s, t.world.lastTaken expiryCounts i = some s → t.env.now ≤ s
  | .consume c =>
    expiryCounts = false → (t.world.checking.check c).freshnessExpiryCheck = true → (t.world.checking.check c).ref = i →
      mustWait conf.toChecking.toConf t.world.checking.items c = false →
      ∀ s, t.world.lastTaken expiryCounts i = some s → (t.world.checking.check c).checkTime ≤ s
  | _ => True

end

/-! ## What the steps write -/

section
variable {conf : FreshConf} {env : FreshEnv} {w v : FreshWorld} {b : Bool} {i c : Nat}

def FreshWorld.times (w : FreshWorld) : (Nat → Int) × List Taken := (w.checking.lastChks, w.taken)

theorem onChecking_after {α : Type} (m : Sched α) (w : FreshWorld) :
    stateAfter (onChecking m w) = { w with checking := stateAfter (m w.checking) } := by
  unfold onChecking
  cases m w.checking <;> rfl

theorem onChecking_times {α : Type} {m : Sched α} (h : Unchanged World.lastChks m) : Unchanged FreshWorld.times (onChecking m) := by
  intro w
  rw [onChecking_after]
  exact congrArg (·, w.taken) (h w.checking)

theorem runEvent_lastChks {ev : Event} (h : (FreshEvent.checks ev).Enabled w) :
    Unchanged World.lastChks (runEvent conf.toChecking env.toChecking ev) := by
  cases ev with
  | getNewActions => exact Unchanged.modify getNewActions_lastChks
  | schedule => exact Unchanged.forM fun i _ => scheduleItem_lastChks i
  | scheduleCheck i force t => exact Unchanged.bind (schedule_lastChks i force _) fun _ => Unchanged.pure _
  | processCheckResult i r => exact processCheckResult_lastChks i r
  | disableActiveChecks i => exact disableActiveChecks_lastChks i
  | enableActiveChecks i => exact Unchanged.modify fun _ => rfl
  | changePassiveChecks i enabled => exact Unchanged.modify fun _ => rfl
  | getToRunChecks tagged => exact Unchanged.modify (getToRunChecks_lastChks tagged)
  | manageResults action => exact Unchanged.modify (manageResults_lastChks action)
  | checkFreshness => exact h.elim
  | manageInternalChecks => exact Unchanged.modify manageInternalChecks_lastChks
  | consumeResults => exact h.elim
  | deleteZombieChecks => exact Unchanged.modify fun _ => rfl
  | cleanQueues => exact cleanQueues_lastChks
  | checkOrphaned late => exact Unchanged.modify (checkOrphaned_lastChks late)
  | items ev =>
    refine onItems_lastChks (Scheduling.runEvent_lastChks ev ?_)
    cases ev with
    | receiveResult c chk => exact h
    | consumeResult c => exact h
    | _ => trivial

/-! ## The freshness pass -/

theorem refresh_lastChk (w : FreshWorld) (i j : Nat) : (refresh env w i).lastChk j = if j = i then env.now else w.lastChk j := by
  unfold FreshWorld.lastChk World.lastChks Scheduling.World.lastChks refresh
  split
  · rename_i h
    subst h
    simp
  · rename_i h
    simp only
    rw [Scheduling.World.modifyCheckState_ne _ h]

theorem refreshAll (l : List Nat) : ∀ w : FreshWorld, (l.foldl (refresh env) w).taken = w.taken ∧
    (l.foldl (refresh env) w).freshnessExpired = w.freshnessExpired ∧
    ∀ j, (l.foldl (refresh env) w).lastChk j = if j ∈ l then env.now else w.lastChk j := by
  induction l with
  | nil => exact fun w => ⟨rfl, rfl, fun j => rfl⟩
  | cons a l ih =>
    intro w
    obtain ⟨h1, h2, h3⟩ := ih (refresh env w a)
    refine ⟨h1, h2, fun j => ?_⟩
    rw [List.foldl_cons, h3, refresh_lastChk]
    by_cases hj : j ∈ l
    · simp [hj]
    · simp [hj]

/-- The items of `P` have got the time of the pass, and the others their own. -/
structure Refreshed (env : FreshEnv) (P : Nat → Prop) (w v : FreshWorld) : Prop where
  taken : v.taken = w.taken
  freshnessExpired : v.freshnessExpired = w.freshnessExpired
  written : ∀ j, P j → v.lastChk j = env.now
  kept : ∀ j, ¬ P j → v.lastChk j = w.lastChk j

theorem Refreshed.same {P : Nat → Prop} (h : ∀ j, ¬ P j) : Refreshed env P w w :=
  ⟨rfl, rfl, fun j hj => absurd hj (h j), fun _ _ => rfl⟩

theorem Refreshed.trans {u : FreshWorld} {P Q : Nat → Prop} (h : Refreshed env P w u) (h' : Refreshed env Q u v) :
    Refreshed env (fun j => P j ∨ Q j) w v where
  taken := h'.taken.trans h.taken
  freshnessExpired := h'.freshnessExpired.trans h.freshnessExpired
  written j hj := by
    by_cases hq : Q j
    · exact h'.written j hq
    · rw [h'.kept j hq]
      exact h.written j (hj.resolve_right hq)
  kept j hj := by
    rw [not_or] at hj
    rw [h'.kept j hj.2, h.kept j hj.1]

theorem passOver_spec {enabled : Bool} {interval : Nat} {items : FreshWorld → List Nat} (w : FreshWorld) :
    Ensures (· = w) (passOver conf env enabled interval items) fun _ v =>
      Refreshed env (w.found conf env enabled interval (items w)) w v := by
  refine Ensures.ite (fun he => Ensures.ite (fun _ => Ensures.throw) fun _ => Ensures.ite (fun hd => ?_) fun hd => ?_) fun he => ?_
  · refine Ensures.readAt fun s hs => ?_
    subst hs
    refine Ensures.bind (R := fun _ => Refreshed env (s.found conf env enabled interval (items s)) s) (Ensures.modify fun u hu => ?_)
      fun _ => Ensures.pure fun _ h => h
    subst hu
    obtain ⟨h1, h2, h3⟩ := @refreshAll env ((items u).filter (u.stillExpired conf)) u
    refine ⟨h1, h2, fun j hj => ?_, fun j hj => ?_⟩
    · exact (h3 j).trans (if_pos (List.mem_filter.mpr hj.2.2))
    · exact (h3 j).trans (if_neg fun hm => hj ⟨he, hd, List.mem_filter.mp hm⟩)
  · refine Ensures.pure fun u hu => ?_
    subst hu
    exact Refreshed.same fun j hj => hd hj.2.1
  · refine Ensures.pure fun u hu => ?_
    subst hu
    exact Refreshed.same fun j hj => he hj.1

theorem checkFreshness_spec (w : FreshWorld) : Ensures (· = w) (checkFreshness conf env) fun _ v =>
    v.taken = w.taken ∧ (w.refreshed conf env i → v.lastChk i = env.now) ∧ (¬ w.refreshed conf env i → v.lastChk i = w.lastChk i) := by
  refine Ensures.bind (passOver_spec w) fun hosts => ?_
  refine Ensures.bind (R := fun _ v => Refreshed env (w.refreshed conf env) w v) (fun u hu l v hv => ?_) fun services => ?_
  · have hs := passOver_spec u u rfl l v hv
    have hf : u.found conf env conf.checkServiceFreshness conf.serviceFreshnessCheckInterval (u.freshServices conf) =
        w.found conf env conf.checkServiceFreshness conf.serviceFreshnessCheckInterval (w.freshServices conf) := by
      unfold FreshWorld.found FreshWorld.freshServices FreshWorld.stillExpired
      rw [hu.freshnessExpired]
    rw [hf] at hs
    exact hu.trans hs
  · have hk : Unchanged FreshWorld.times ((hosts ++ services).forM fun i => onChecking (checkItemFreshness conf.toChecking env.toChecking i)) :=
      Unchanged.forM fun i _ => onChecking_times (checkItemFreshness_lastChks i)
    intro u hu a v hv
    have ht := hk u
    rw [hv] at ht
    obtain ⟨h1, h2⟩ := Prod.mk.inj ht
    have hi : v.lastChk i = u.lastChk i := congrFun h1 i
    exact ⟨h2.trans hu.taken, fun h => hi.trans (hu.written i h), fun h => hi.trans (hu.kept i h)⟩

/-! ## Consumption -/

theorem forgetExpiry_checking (w : FreshWorld) (c : Nat) : (w.forgetExpiry c).checking = w.checking ∧ (w.forgetExpiry c).taken = w.taken := by
  unfold FreshWorld.forgetExpiry
  simp only
  split <;> exact ⟨rfl, rfl⟩

theorem take_checking (w : FreshWorld) (c : Nat) : (w.take conf c).checking = w.checking := by
  unfold FreshWorld.take
  simp only
  split <;> rfl

theorem noteExpiry_times (x : Scheduling.Check) (w : FreshWorld) : (w.noteExpiry x).times = w.times := by
  unfold FreshWorld.noteExpiry
  split <;> rfl

theorem consume_times (c : Nat) (w : FreshWorld) :
    (stateAfter (consume conf env c w)).times = (w.checking.takenTimes conf.toChecking c, (w.take conf c).taken) := by
  have hstart : ((w.forgetExpiry c).take conf c).checking = w.checking ∧
      ((w.forgetExpiry c).take conf c).taken = (w.take conf c).taken := by
    obtain ⟨h1, h2⟩ := forgetExpiry_checking w c
    refine ⟨(take_checking _ c).trans h1, ?_⟩
    unfold FreshWorld.take
    simp only [h1, h2]
    split
    · exact h2
    · rfl
  have hk : Leads (· = w) (consume conf env c) fun v => v.times = (w.checking.takenTimes conf.toChecking c, (w.take conf c).taken) := by
    refine Leads.readAt fun s hs => ?_
    subst hs
    refine leads_step (Leads.bind (K := fun v => v.times = (s.checking.takenTimes conf.toChecking c, (s.take conf c).taken))
      (fun u hu => ⟨?_, fun _ _ _ => trivial⟩) (fun _ => Keeps.guarded fun _ => Keeps.modify fun v hv => ?_) fun _ h => h)
    · subst hu
      rw [onChecking_after]
      unfold FreshWorld.times
      simp only [hstart.1, hstart.2]
      rw [consumeAndAdd_lastChks]
    · exact (noteExpiry_times _ v).trans hv
  exact (hk w rfl).1

/-! ## The last result -/

theorem processCheckResult_tooOld {conf : Conf} {env : Env} {w : World} {i : Nat} {r : PassiveResult} (h : w.tooOld i r = true) :
    processCheckResult conf env i r w = .ok () w := by
  have hold : r.timestamp < (w.items.checkState i).lastChk := of_decide_eq_true h
  unfold processCheckResult
  rw [get_bind]
  simp only [hold, decide_true, Bool.or_true, if_true]
  rfl

theorem neverTooOld_iff_le : w.NeverTooOld b i ↔ ∀ t, w.lastTaken b i = some t → w.lastChk i ≤ t := by
  refine ⟨fun h t ht => ?_, fun h t ht r hr => decide_eq_false (Int.not_lt.mpr ((h t ht).trans hr))⟩
  have := h t ht ⟨0, "", "", "", t⟩ (Int.le_refl t)
  exact Int.not_lt.mp (of_decide_eq_false this)

theorem neverTooOld_of_times (h : v.lastChk i = w.lastChk i) (ht : v.taken = w.taken) : v.NeverTooOld b i ↔ w.NeverTooOld b i := by
  rw [neverTooOld_iff_le, neverTooOld_iff_le, h]
  unfold FreshWorld.lastTaken
  rw [ht]

theorem lastTaken_append {t : Taken} (h : v.taken = w.taken ++ [t]) : v.lastTaken b i =
    if t.item = i ∧ (b || !t.freshnessExpiryCheck) = true then some t.checkTime else w.lastTaken b i := by
  unfold FreshWorld.lastTaken
  rw [h, List.filter_append]
  by_cases hc : t.item = i ∧ (b || !t.freshnessExpiryCheck) = true
  · rw [if_pos hc, List.filter_cons_of_pos (by simpa using hc)]
    simp
  · rw [if_neg hc, List.filter_cons_of_neg (by simpa using hc)]
    simp

theorem consume_neverTooOld (h : w.NeverTooOld b i) (hv : v.times = (w.checking.takenTimes conf.toChecking c, (w.take conf c).taken)) :
    v.NeverTooOld b i ↔ FreshTurn.Harmless conf b i ⟨w, env, .consume c⟩ := by
  obtain ⟨h1, h2⟩ := Prod.mk.inj hv
  have hchk : v.lastChk i = w.checking.takenTimes conf.toChecking c i := congrFun h1 i
  unfold World.takenTimes at hchk
  unfold FreshWorld.take at h2
  simp only at h2
  unfold FreshTurn.Harmless
  simp only
  by_cases hm : mustWait conf.toChecking.toConf w.checking.items c = true
  · rw [if_pos hm] at h2 hchk
    exact ⟨fun _ _ _ _ hn => absurd (hm.symm.trans hn) (by decide), fun _ => (neverTooOld_of_times hchk h2).mpr h⟩
  · rw [if_neg hm] at h2 hchk
    have hn : mustWait conf.toChecking.toConf w.checking.items c = false := Bool.eq_false_iff.mpr hm
    have hlast := lastTaken_append (b := b) (i := i) h2
    by_cases hi : (w.checking.check c).ref = i
    · subst hi
      rw [Function.update_self] at hchk
      rw [neverTooOld_iff_le, hchk]
      simp only [true_and] at hlast
      by_cases hb : (b || !(w.checking.check c).freshnessExpiryCheck) = true
      · rw [if_pos hb] at hlast
        refine ⟨fun _ hb' hx => ?_, fun _ t ht => ?_⟩
        · rw [hb', hx] at hb
          exact absurd hb (by decide)
        · rw [hlast] at ht
          exact le_of_eq (Option.some.inj ht)
      · rw [if_neg hb] at hlast
        rw [hlast]
        refine ⟨fun h' _ _ _ _ => h', fun h' => h' ?_ ?_ rfl hn⟩
        · cases b <;> simp_all
        · cases b <;> simp_all
    · rw [Function.update_of_ne (Ne.symm hi)] at hchk
      rw [if_neg fun hc => hi hc.1] at hlast
      refine ⟨fun _ _ _ hr => absurd hr hi, fun _ => ?_⟩
      rw [neverTooOld_iff_le] at h ⊢
      rw [hlast, hchk]
      exact h

theorem FreshStep.harmless_iff {ev : FreshEvent} (hs : FreshStep conf env w ev v) (h : w.NeverTooOld b i) :
    v.NeverTooOld b i ↔ FreshTurn.Harmless conf b i ⟨w, env, ev⟩ := by
  have hafter : stateAfter (runFreshEvent conf env ev w) = v := by
    cases hs with
    | returned _ hr => rw [hr]; rfl
    | dropped _ _ hr => rw [hr]; rfl
  have hsame : Unchanged FreshWorld.times (runFreshEvent conf env ev) → v.NeverTooOld b i := by
    intro hu
    have ht := hu w
    rw [hafter] at ht
    obtain ⟨h1, h2⟩ := Prod.mk.inj ht
    exact (neverTooOld_of_times (congrFun h1 i) h2).mpr h
  have henabled : ev.Enabled w := by
    cases hs with
    | returned he _ => exact he
    | dropped he _ _ => exact he
  cases ev with
  | consume c =>
    refine consume_neverTooOld h ?_
    rw [← hafter]
    exact consume_times c w
  | resolveWaitingMe =>
    refine iff_of_true (hsame ?_) trivial
    exact onChecking_times (Unchanged.bind resolveWaitingMe_lastChks fun _ => Unchanged.pure _)
  | checkFreshness =>
    cases hs with
    | returned _ hr =>
      obtain ⟨h1, h2, h3⟩ := checkFreshness_spec (i := i) w w rfl () v hr
      unfold FreshTurn.Harmless
      simp only
      by_cases hf : w.refreshed conf env i
      · have hl : v.lastTaken b i = w.lastTaken b i := by
          unfold FreshWorld.lastTaken
          rw [h1]
        rw [neverTooOld_iff_le, h2 hf, hl]
        exact ⟨fun h' _ => h', fun h' => h' hf⟩
      · exact iff_of_true ((neverTooOld_of_times (h3 hf) h1).mpr h) fun hc => absurd hc hf
    | dropped _ hc _ => cases hc
  | checks ev => exact iff_of_true (hsame (onChecking_times (runEvent_lastChks henabled))) trivial

/-- In every state of a run no passive result that is not older than the last
result taken is too old, exactly when no turn writes a time past that result. -/
theorem neverTooOld_iff (b : Bool) (i : Nat) {w₀ : FreshWorld} {trace : List FreshTurn} (h₀ : w₀.taken = [])
    (h : FreshRun conf w₀ trace w) :
    (∀ v ∈ trace.map FreshTurn.world ++ [w], v.NeverTooOld b i) ↔ ∀ t ∈ trace, t.Harmless conf b i := by
  induction h with
  | nil =>
    refine iff_of_true (fun v hv t ht => ?_) fun _ ht => nomatch ht
    rw [List.mem_singleton.mp hv] at ht
    unfold FreshWorld.lastTaken at ht
    rw [h₀] at ht
    cases ht
  | @snoc trace v v' env ev h hs ih =>
    have hsplit : (∀ u ∈ (trace ++ [(⟨v, env, ev⟩ : FreshTurn)]).map FreshTurn.world ++ [v'], u.NeverTooOld b i) ↔
        (∀ u ∈ trace.map FreshTurn.world ++ [v], u.NeverTooOld b i) ∧ v'.NeverTooOld b i := by
      rw [List.map_append, List.forall_mem_append, List.forall_mem_singleton]
      rfl
    refine hsplit.trans ((and_congr_left' ih).trans ?_)
    rw [List.forall_mem_append, List.forall_mem_singleton]
    refine and_congr_right fun ht => hs.harmless_iff ?_
    exact ih.mpr ht v (List.mem_append_right _ List.mem_cons_self)

end

/-! ## A host that is only checked passively -/

def silentHost : FreshConf where
  toChecking := oneCheckedHost
  checkHostFreshness := true
  hostFreshnessCheckInterval := 60
  checkServiceFreshness := false
  serviceFreshnessCheckInterval := 60
  checkFreshness := fun _ => true

def silentEnv (now : Int) : FreshEnv where
  toChecking :=
    { checkingEnv now with isFreshnessExpired := fun _ => true, freshnessOutcome := fun _ => ⟨0, "expired", "", "", now, 0, 0, 0⟩ }
  ticks := none
  expiredOutput := fun _ => "expired"

def afterFresh (now : Int) (ev : FreshEvent) (w : FreshWorld) : FreshWorld := stateAfter (runFreshEvent silentHost (silentEnv now) ev w)

theorem silentHost_step {now : Int} {ev : FreshEvent} {w : FreshWorld} (he : ev.Enabled w)
    (h : returns (runFreshEvent silentHost (silentEnv now) ev w) = true) :
    FreshStep silentHost (silentEnv now) w ev (afterFresh now ev w) := .returned he (eq_ok_of_returns h)

def upAt (t : Int) : PassiveResult := ⟨0, "UP", "", "", t⟩

def silentWorld : FreshWorld := ⟨idleWorld, fun _ => false, []⟩

def receivedWorld : FreshWorld := afterFresh 100 (.checks (.processCheckResult 0 (upAt 100))) silentWorld

def heardWorld : FreshWorld := afterFresh 100 (.consume 0) receivedWorld

theorem heardWorld_run : FreshRun silentHost silentWorld
    [⟨silentWorld, silentEnv 100, .checks (.processCheckResult 0 (upAt 100))⟩, ⟨receivedWorld, silentEnv 100, .consume 0⟩] heardWorld := by
  have h1 : FreshStep silentHost (silentEnv 100) silentWorld (.checks (.processCheckResult 0 (upAt 100))) receivedWorld :=
    silentHost_step trivial (by decide)
  have h2 : FreshStep silentHost (silentEnv 100) receivedWorld (.consume 0) heardWorld :=
    silentHost_step (Or.inl rfl) (by decide)
  exact (FreshRun.nil.snoc h1).snoc h2

theorem neverTooOld_heard :
    silentWorld.taken = [] ∧ ∀ v ∈ [silentWorld, receivedWorld] ++ [heardWorld], v.NeverTooOld true 0 :=
  ⟨rfl, (neverTooOld_iff true 0 rfl heardWorld_run).mpr fun t ht => by
    rcases List.mem_cons.mp ht with rfl | ht
    · trivial
    · rw [List.mem_singleton.mp ht]
      exact fun h => nomatch h⟩

def expiringWorld : FreshWorld := afterFresh 200 .checkFreshness heardWorld

def expiryCheck : FreshEvent := .checks (.manageResults ⟨1, .waitConsume, ⟨0, "expired", "", "", 200, 0, 0, 0⟩, true⟩)

def answeredWorld : FreshWorld := afterFresh 200 expiryCheck expiringWorld

def expiredWorld : FreshWorld := afterFresh 200 (.consume 1) answeredWorld

def refreshedWorld : FreshWorld := afterFresh 300 .checkFreshness expiredWorld

/-- The last result is of 200, and one of 250 is ignored after the pass of 300. -/
theorem late_result_ignored : ∃ trace w, FreshRun silentHost silentWorld trace w ∧ w.lastTaken true 0 = some 200 ∧
    w.lastTaken false 0 = some 100 ∧ processCheckResult oneCheckedHost (checkingEnv 300) 0 (upAt 250) w.checking = .ok () w.checking ∧
    ¬ w.NeverTooOld true 0 ∧ ¬ w.NeverTooOld false 0 := by
  have h3 : FreshStep silentHost (silentEnv 200) heardWorld .checkFreshness expiringWorld :=
    silentHost_step trivial (by decide +kernel)
  have h4 : FreshStep silentHost (silentEnv 200) expiringWorld expiryCheck answeredWorld :=
    silentHost_step trivial (by decide +kernel)
  have h5 : FreshStep silentHost (silentEnv 200) answeredWorld (.consume 1) expiredWorld :=
    silentHost_step (Or.inl rfl) (by decide +kernel)
  have h6 : FreshStep silentHost (silentEnv 300) expiredWorld .checkFreshness refreshedWorld :=
    silentHost_step trivial (by decide +kernel)
  have hlast : refreshedWorld.lastTaken true 0 = some 200 := by decide +kernel
  have hreal : refreshedWorld.lastTaken false 0 = some 100 := by decide +kernel
  have hold : refreshedWorld.checking.tooOld 0 (upAt 250) = true := by decide +kernel
  refine ⟨_, refreshedWorld, (((heardWorld_run.snoc h3).snoc h4).snoc h5).snoc h6, hlast, hreal,
    processCheckResult_tooOld hold, fun h => ?_, fun h => ?_⟩
  · exact Bool.false_ne_true ((h 200 hlast (upAt 250) (by decide)).symm.trans hold)
  · exact Bool.false_ne_true ((h 100 hreal (upAt 250) (by decide)).symm.trans hold)

end Alignak.Checking
