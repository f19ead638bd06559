import Alignak.Loops
import Mathlib.Data.Rat.Defs
import Mathlib.Algebra.Order.Ring.Rat

/-!
# Modules that wait for a restart

The modules manager keeps the instances that have failed in a list, and goes
through this list on each turn of its daemon. The loops of the daemons catch the
exceptions of the instances.
-/

namespace Alignak.ModuleRestarts

structure Instance where
  /-- Two instances are the same only if they are the same object. -/
  object : Nat
  name : String
  isExternal : Bool
  phases : List String
  deriving DecidableEq, Repr

structure Life where
  initTry : Nat
  lastInitTry : Rat
  process : Bool
  queues : Bool
  deriving Repr

structure ModulesManager where
  instances : List Instance
  toRestart : List Instance
  configurationErrors : List String
  life : Nat → Life
  /-- How many instances have been made. -/
  made : Nat

def newManager : ModulesManager := ⟨[], [], [], fun _ => ⟨0, 0, false, false⟩, 0⟩

namespace ModulesManager

def changeLife (i : Instance) (f : Life → Life) (m : ModulesManager) : ModulesManager :=
  { m with life := fun n => if n = i.object then f (m.life n) else m.life n }

def setToRestart (i : Instance) (m : ModulesManager) : ModulesManager := { m with toRestart := m.toRestart ++ [i] }

end ModulesManager

open ModulesManager

/-! ## Initialisation -/

def moduleInitPeriod : Rat := 5

inductive Init
  | returns (ok : Bool)
  | raises (exn : String)
  | noQueues (exn : String)
  deriving DecidableEq, Repr

/-- The two readings of the clock, and what `init` does. -/
structure Attempt where
  now : Rat
  later : Rat
  init : Init

def initError (i : Instance) (exn : String) : String :=
  "The module instance " ++ i.name ++ " raised an exception on initialization: " ++ exn ++ ", I remove it!"

def clearQueues (i : Instance) : ModulesManager → ModulesManager := changeLife i fun l => { l with queues := false }

def createQueues (i : Instance) : ModulesManager → ModulesManager := changeLife i fun l => { l with queues := true }

def tryInstanceInit (lateStart : Bool) (a : Attempt) (i : Instance) (m : ModulesManager) : Bool × ModulesManager :=
  let m := changeLife i (fun l => { l with initTry := l.initTry + 1 }) m
  let l := m.life i.object
  if lateStart = false ∧ 1 < l.initTry ∧ a.now - moduleInitPeriod < l.lastInitTry then (false, m)
  else
    let m := changeLife i (fun l => { l with lastInitTry := a.later }) m
    let ready := if i.isExternal then createQueues i m else m
    match a.init with
    | .returns ok => (ok, ready)
    | .raises exn => (false, { ready with configurationErrors := ready.configurationErrors ++ [initError i exn] })
    | .noQueues exn =>
      if i.isExternal then
        let m := clearQueues i m
        (false, { m with configurationErrors := m.configurationErrors ++ [initError i exn] })
      else (true, m)

def start (i : Instance) (m : ModulesManager) : ModulesManager :=
  if i.isExternal then changeLife i (fun l => { l with process := true }) m else m

def tryEach (body : Attempt → Instance → ModulesManager → Bool × ModulesManager) :
    (Nat → Attempt) → List Instance → ModulesManager → List Instance × ModulesManager
  | _, [], m => ([], m)
  | attempts, i :: l, m =>
    let r := body (attempts 0) i m
    let rest := tryEach body (fun n => attempts (n + 1)) l r.2
    (if r.1 then i :: rest.1 else rest.1, rest.2)

/-! ## Loading -/

def removeInstance (m : ModulesManager) (i : Instance) : ModulesManager :=
  let m := if i.isExternal then changeLife i (fun l => { l with process := false }) m else m
  let m := clearQueues i m
  { m with instances := m.instances.erase i }

def clearInstances (instances : Option (List Instance)) (m : ModulesManager) : ModulesManager :=
  (instances.getD m.instances).foldl removeInstance m

/-- A module that is imported, with what its `get_instance` gives. -/
structure Loaded where
  name : String
  getInstance : Except String (Bool × List String)

def loadError (name exn : String) : String :=
  "The module " ++ name ++ " raised an exception on loading: " ++ exn ++ ", I remove it!"

def makeInstance (m : ModulesManager) (l : Loaded) : ModulesManager :=
  match l.getInstance with
  | .ok (isExternal, phases) =>
    { m with
      instances := m.instances ++ [⟨m.made, l.name, isExternal, phases⟩]
      life := fun n => if n = m.made then ⟨0, 0, false, false⟩ else m.life n
      made := m.made + 1 }
  | .error exn => { m with configurationErrors := m.configurationErrors ++ [loadError l.name exn] }

def firstInit (a : Attempt) (i : Instance) (m : ModulesManager) : Bool × ModulesManager :=
  if i.isExternal then (true, m)
  else
    let r := tryInstanceInit false a i m
    if r.1 then r else (false, setToRestart i r.2)

def getInstances (loaded : List Loaded) (attempts : Nat → Attempt) (m : ModulesManager) : ModulesManager :=
  let m := loaded.foldl makeInstance (clearInstances none m)
  (tryEach firstInit attempts m.instances m).2

def startExternal (lateStart : Bool) (a : Attempt) (i : Instance) (m : ModulesManager) : Bool × ModulesManager :=
  let r := tryInstanceInit lateStart a i m
  if r.1 then (true, start i r.2) else (false, setToRestart i r.2)

def startExternalInstances (lateStart : Bool) (attempts : Nat → Attempt) (m : ModulesManager) :
    List Instance × ModulesManager :=
  tryEach (startExternal lateStart) attempts (m.instances.filter (·.isExternal)) m

def stopAll (m : ModulesManager) : ModulesManager := clearInstances (some (m.instances.filter (·.isExternal))) m

/-! ## Watching -/

/-- The process of an instance and the size of its queue, as they are seen from outside. -/
structure Watch where
  alive : Instance → Bool
  qsize : Instance → Nat
  maxQueueSize : Nat

def Watch.bad (w : Watch) (m : ModulesManager) (i : Instance) : Bool :=
  let l := m.life i.object
  (i.isExternal && l.process && !w.alive i) ||
    (w.maxQueueSize != 0 && decide (w.maxQueueSize < if l.queues then w.qsize i else 0))

def checkAlive (w : Watch) (m : ModulesManager) (i : Instance) : ModulesManager :=
  if i ∈ m.toRestart then m else if w.bad m i then setToRestart i (clearQueues i m) else m

def checkAliveInstances (w : Watch) (m : ModulesManager) : ModulesManager := m.instances.foldl (checkAlive w) m

def restart (a : Attempt) (i : Instance) (m : ModulesManager) : Bool × ModulesManager :=
  let r := tryInstanceInit false a i m
  if r.1 then (true, start i (changeLife i (fun l => { l with process := false }) r.2))
  else (false, { r.2 with toRestart := r.2.toRestart ++ [i] })

def tryToRestartDeads (attempts : Nat → Attempt) (m : ModulesManager) : List Instance × ModulesManager :=
  tryEach restart attempts m.toRestart { m with toRestart := [] }

def getInternalInstances (phase : Option String) (m : ModulesManager) : List Instance :=
  match phase with
  | none => m.instances.filter fun i => !i.isExternal
  | some p => m.instances.filter fun i => !i.isExternal && i.phases.contains p && !m.toRestart.contains i

def getExternalInstances (phase : Option String) (m : ModulesManager) : List Instance :=
  match phase with
  | none => m.instances.filter (·.isExternal)
  | some p => m.instances.filter fun i => i.isExternal && i.phases.contains p && !m.toRestart.contains i

/-! ## The calls that may fail -/

/-- The loop of a caller that catches what an instance raises. -/
def callEach (raises : Instance → Bool) (l : List Instance) (m : ModulesManager) : ModulesManager :=
  l.foldl (fun m i => if raises i then setToRestart i m else m) m

/-- `manage_brok` of the broker. -/
def manageBrok (raises : Instance → Bool) (m : ModulesManager) : ModulesManager :=
  callEach raises (getInternalInstances none m) m

def putBroks (raises : Instance → Bool) (m : ModulesManager) : ModulesManager :=
  callEach raises (getExternalInstances none m) m

def hookPoint (hasHook raises : Instance → Bool) (m : ModulesManager) : ModulesManager :=
  callEach raises (m.instances.filter hasHook) m

/-! ## Runs -/

inductive Event
  | getInstances (loaded : List Loaded) (attempts : Nat → Attempt)
  | startExternalInstances (lateStart : Bool) (attempts : Nat → Attempt)
  | checkAliveInstances (watch : Watch)
  | tryToRestartDeads (attempts : Nat → Attempt)
  | manageBrok (raises : Instance → Bool)
  | putBroks (raises : Instance → Bool)
  | hookPoint (hasHook raises : Instance → Bool)
  | stopAll

namespace ModulesManager

def happen (m : ModulesManager) : Event → List Instance × ModulesManager
  | .getInstances loaded attempts => ([], ModuleRestarts.getInstances loaded attempts m)
  | .startExternalInstances lateStart attempts => ModuleRestarts.startExternalInstances lateStart attempts m
  | .checkAliveInstances watch => ([], ModuleRestarts.checkAliveInstances watch m)
  | .tryToRestartDeads attempts => ModuleRestarts.tryToRestartDeads attempts m
  | .manageBrok raises => ([], ModuleRestarts.manageBrok raises m)
  | .putBroks raises => ([], ModuleRestarts.putBroks raises m)
  | .hookPoint hasHook raises => ([], ModuleRestarts.hookPoint hasHook raises m)
  | .stopAll => ([], ModuleRestarts.stopAll m)

def run (m : ModulesManager) (events : List Event) : ModulesManager := events.foldl (fun m e => (m.happen e).2) m

def Right (m : ModulesManager) (e : Event) : Prop :=
  (m.happen e).2.toRestart.Nodup ∧ ∀ i ∈ (m.happen e).1, i ∉ (m.happen e).2.toRestart

/-- The instances that fail, and the external ones that are started, do not wait already. -/
def Allowed (m : ModulesManager) : Event → Prop
  | .startExternalInstances _ _ => ∀ i ∈ m.instances, i.isExternal → i ∉ m.toRestart
  | .manageBrok raises => ∀ i ∈ m.instances, i.isExternal = false → raises i → i ∉ m.toRestart
  | .putBroks raises => ∀ i ∈ m.instances, i.isExternal → raises i → i ∉ m.toRestart
  | .hookPoint hasHook raises => ∀ i ∈ m.instances, hasHook i → raises i → i ∉ m.toRestart
  | .getInstances _ _ | .checkAliveInstances _ | .tryToRestartDeads _ | .stopAll => True

end ModulesManager

/-! ## What the functions do to the lists -/

variable {raises : Instance → Bool}

section
variable {m : ModulesManager} {i j : Instance} {f : Life → Life} {a : Attempt} {w : Watch} {lateStart : Bool}

@[simp] theorem setToRestart_toRestart : (setToRestart i m).toRestart = m.toRestart ++ [i] := rfl

structure SameLists (m m' : ModulesManager) : Prop where
  instances : m'.instances = m.instances
  toRestart : m'.toRestart = m.toRestart
  made : m'.made = m.made

theorem tryInstanceInit_lists : SameLists m (tryInstanceInit lateStart a i m).2 := by
  unfold tryInstanceInit clearQueues createQueues
  dsimp only
  split
  · exact ⟨rfl, rfl, rfl⟩
  · cases a.init with
    | returns ok => cases i.isExternal <;> exact ⟨rfl, rfl, rfl⟩
    | raises exn => cases i.isExternal <;> exact ⟨rfl, rfl, rfl⟩
    | noQueues exn => cases i.isExternal <;> exact ⟨rfl, rfl, rfl⟩

theorem start_lists : SameLists m (start i m) := by
  unfold start
  split <;> exact ⟨rfl, rfl, rfl⟩

/-! ## Tries -/

structure Waited (i : Instance) (m : ModulesManager) (r : Bool × ModulesManager) : Prop where
  instances : r.2.instances = m.instances
  made : r.2.made = m.made
  toRestart : r.2.toRestart = if r.1 then m.toRestart else m.toRestart ++ [i]

def Waits (body : Attempt → Instance → ModulesManager → Bool × ModulesManager) : Prop := ∀ a i m, Waited i m (body a i m)

theorem SameLists.trans {n : ModulesManager} (h : SameLists m n) {n' : ModulesManager} (h' : SameLists n n') :
    SameLists m n' :=
  ⟨h'.instances.trans h.instances, h'.toRestart.trans h.toRestart, h'.made.trans h.made⟩

theorem waited_split {ok : Bool} {n n' : ModulesManager} (h : SameLists m n) (h' : SameLists m n') :
    Waited i m (if ok then (true, n') else (false, setToRestart i n)) := by
  cases ok with
  | true => exact ⟨h'.instances, h'.made, h'.toRestart⟩
  | false => exact ⟨h.instances, h.made, congrArg (· ++ [i]) h.toRestart⟩

theorem waits_firstInit : Waits firstInit := by
  intro a i m
  have h : SameLists m (tryInstanceInit false a i m).2 := tryInstanceInit_lists
  unfold firstInit
  split
  · exact ⟨rfl, rfl, rfl⟩
  · generalize tryInstanceInit false a i m = r at h
    obtain ⟨ok, n⟩ := r
    have hsplit : Waited i m (if ok then (true, n) else (false, setToRestart i n)) := waited_split h h
    cases ok <;> exact hsplit

theorem waits_startExternal (lateStart : Bool) : Waits (startExternal lateStart) := by
  intro a i m
  exact waited_split tryInstanceInit_lists (tryInstanceInit_lists.trans start_lists)

theorem waits_restart : Waits restart := by
  intro a i m
  refine waited_split tryInstanceInit_lists (SameLists.trans ?_ start_lists)
  exact tryInstanceInit_lists.trans ⟨rfl, rfl, rfl⟩

section
variable {body : Attempt → Instance → ModulesManager → Bool × ModulesManager} {l : List Instance}

theorem tryEach_spec (h : Waits body) (l : List Instance) (attempts : Nat → Attempt) (m : ModulesManager) :
    (tryEach body attempts l m).2.instances = m.instances ∧ (tryEach body attempts l m).2.made = m.made ∧
      ∃ failed, (tryEach body attempts l m).2.toRestart = m.toRestart ++ failed ∧
        ((tryEach body attempts l m).1 ++ failed).Perm l := by
  induction l generalizing attempts m with
  | nil => exact ⟨rfl, rfl, [], by simp [tryEach], by simp [tryEach]⟩
  | cons i l ih =>
    have ⟨hinstances, hmade, hwaits⟩ := h (attempts 0) i m
    obtain ⟨hi, hm, failed, hf, hp⟩ := ih (fun n => attempts (n + 1)) (body (attempts 0) i m).2
    unfold tryEach
    dsimp only
    refine ⟨hi.trans hinstances, hm.trans hmade, ?_⟩
    cases hr : (body (attempts 0) i m).1 with
    | true =>
      rw [hr, if_pos rfl] at hwaits
      refine ⟨failed, by rw [hf, hwaits], ?_⟩
      exact hp.cons i
    | false =>
      rw [hr, if_neg Bool.false_ne_true] at hwaits
      refine ⟨i :: failed, by rw [hf, hwaits, List.append_assoc, List.singleton_append], ?_⟩
      exact List.perm_middle.trans (hp.cons i)

theorem tryEach_mem (h : Waits body) {attempts : Nat → Attempt} (hj : j ∈ (tryEach body attempts l m).2.toRestart) :
    j ∈ m.toRestart ∨ j ∈ l := by
  obtain ⟨-, -, failed, hf, hp⟩ := tryEach_spec h l attempts m
  rw [hf] at hj
  refine (List.mem_append.mp hj).imp_right ?_
  intro hj
  exact hp.mem_iff.mp (List.mem_append_right _ hj)

theorem tryEach_right (h : Waits body) (hl : l.Nodup) (attempts : Nat → Attempt) (m : ModulesManager) :
    ((tryEach body attempts l m).2.toRestart.Nodup ∧
        ∀ i ∈ (tryEach body attempts l m).1, i ∉ (tryEach body attempts l m).2.toRestart) ↔
      m.toRestart.Nodup ∧ ∀ i ∈ l, i ∉ m.toRestart := by
  obtain ⟨-, -, failed, hf, hp⟩ := tryEach_spec h l attempts m
  have hboth := List.nodup_append.mp (hp.nodup_iff.mpr hl)
  rw [hf, List.nodup_append]
  constructor
  · intro ⟨⟨hn, _, hdisjoint⟩, hstarted⟩
    refine ⟨hn, ?_⟩
    intro i hi hw
    rcases List.mem_append.mp (hp.mem_iff.mpr hi) with hs | hs
    · exact hstarted i hs (List.mem_append_left _ hw)
    · exact hdisjoint i hw i hs rfl
  · intro ⟨hn, hw⟩
    refine ⟨⟨hn, hboth.2.1, ?_⟩, ?_⟩
    · intro i hi k hk e
      subst e
      exact hw i (hp.mem_iff.mp (List.mem_append_right _ hk)) hi
    · intro i hi hmem
      rcases List.mem_append.mp hmem with hmem | hmem
      · exact hw i (hp.mem_iff.mp (List.mem_append_left _ hi)) hmem
      · exact hboth.2.2 i hi i hmem rfl

end

/-! ## Calls and watches -/

theorem callEach_spec (raises : Instance → Bool) (l : List Instance) (m : ModulesManager) :
    (callEach raises l m).instances = m.instances ∧ (callEach raises l m).made = m.made ∧
      (callEach raises l m).toRestart = m.toRestart ++ l.filter raises := by
  unfold callEach
  induction l generalizing m with
  | nil => simp
  | cons i l ih =>
    obtain ⟨hi, hm, hw⟩ := ih (if raises i then setToRestart i m else m)
    rw [List.foldl_cons, List.filter_cons]
    refine ⟨hi.trans ?_, hm.trans ?_, hw.trans ?_⟩
    · split <;> rfl
    · split <;> rfl
    · split <;> simp

theorem callEach_nodup {l : List Instance} (hl : l.Nodup) (hn : m.toRestart.Nodup) :
    (callEach raises l m).toRestart.Nodup ↔ ∀ i ∈ l, raises i → i ∉ m.toRestart := by
  rw [(callEach_spec raises l m).2.2, List.nodup_append]
  constructor
  · intro ⟨_, _, hdisjoint⟩ i hi hr hw
    exact hdisjoint i hw i (List.mem_filter.mpr ⟨hi, hr⟩) rfl
  · intro h
    refine ⟨hn, hl.filter _, ?_⟩
    intro i hi k hk e
    subst e
    obtain ⟨hk, hr⟩ := List.mem_filter.mp hk
    exact h i hk hr hi

structure Watched (l : List Instance) (m m' : ModulesManager) : Prop where
  instances : m'.instances = m.instances
  made : m'.made = m.made
  nodup : m.toRestart.Nodup → m'.toRestart.Nodup
  mem : ∀ j ∈ m'.toRestart, j ∈ m.toRestart ∨ j ∈ l

theorem checkAlive_watched (w : Watch) (i : Instance) (m : ModulesManager) : Watched [i] m (checkAlive w m i) := by
  unfold checkAlive
  split
  · exact ⟨rfl, rfl, id, fun j hj => Or.inl hj⟩
  · rename_i hi
    split
    · refine ⟨rfl, rfl, fun hn => ?_, fun j hj => List.mem_append.mp hj⟩
      exact List.nodup_append.mpr ⟨hn, List.nodup_singleton i, fun j hj k hk e => by
        rw [List.mem_singleton.mp hk] at e
        exact hi (e ▸ hj)⟩
    · exact ⟨rfl, rfl, id, fun j hj => Or.inl hj⟩

theorem checkAlives_watched (w : Watch) (l : List Instance) (m : ModulesManager) :
    Watched l m (l.foldl (checkAlive w) m) := by
  induction l generalizing m with
  | nil => exact ⟨rfl, rfl, id, fun j hj => Or.inl hj⟩
  | cons i l ih =>
    have hi := checkAlive_watched w i m
    have hl := ih (checkAlive w m i)
    refine ⟨hl.instances.trans hi.instances, hl.made.trans hi.made, fun hn => hl.nodup (hi.nodup hn), ?_⟩
    intro j hj
    rcases hl.mem j hj with hj | hj
    · refine (hi.mem j hj).imp_right ?_
      intro hj
      rw [List.mem_singleton.mp hj]
      exact List.mem_cons_self
    · exact Or.inr (List.mem_cons_of_mem i hj)

/-! ## Loading again -/

theorem clear_spec (l : List Instance) (m : ModulesManager) :
    (l.foldl removeInstance m).instances = m.instances.diff l ∧ (l.foldl removeInstance m).toRestart = m.toRestart ∧
      (l.foldl removeInstance m).made = m.made := by
  induction l generalizing m with
  | nil => exact ⟨rfl, rfl, rfl⟩
  | cons i l ih =>
    obtain ⟨hi, hw, hm⟩ := ih (removeInstance m i)
    have hremove : (removeInstance m i).instances = m.instances.erase i ∧ (removeInstance m i).toRestart = m.toRestart ∧
        (removeInstance m i).made = m.made := by
      unfold removeInstance clearQueues
      cases i.isExternal <;> exact ⟨rfl, rfl, rfl⟩
    rw [List.foldl_cons, hi, hw, hm, hremove.1, hremove.2.1, hremove.2.2, List.diff_cons]
    exact ⟨rfl, rfl, rfl⟩

theorem stopAll_spec (m : ModulesManager) : (stopAll m).instances = m.instances.diff (m.instances.filter (·.isExternal)) ∧
    (stopAll m).toRestart = m.toRestart ∧ (stopAll m).made = m.made := clear_spec _ m

theorem diff_self (l : List Instance) : l.diff l = [] := by
  induction l with
  | nil => rfl
  | cons i l ih => rw [List.diff_cons, List.erase_cons_head, ih]

end

/-! ## Known instances -/

structure Known (m : ModulesManager) : Prop where
  nodup : m.instances.Nodup
  instances : ∀ i ∈ m.instances, i.object < m.made
  toRestart : ∀ i ∈ m.toRestart, i.object < m.made

structure Made (first : Nat) (m : ModulesManager) : Prop where
  nodup : m.instances.Nodup
  since : ∀ i ∈ m.instances, first ≤ i.object ∧ i.object < m.made
  count : first ≤ m.made

section
variable {m m' : ModulesManager} {first : Nat}

theorem Made.makeInstance (h : Made first m) (l : Loaded) :
    Made first (makeInstance m l) ∧ (makeInstance m l).toRestart = m.toRestart := by
  unfold ModuleRestarts.makeInstance
  cases l.getInstance with
  | error exn => exact ⟨⟨h.nodup, h.since, h.count⟩, rfl⟩
  | ok kind =>
    refine ⟨⟨?_, ?_, Nat.le_succ_of_le h.count⟩, rfl⟩
    · refine List.nodup_append.mpr ⟨h.nodup, List.nodup_singleton _, ?_⟩
      intro i hi k hk e
      rw [List.mem_singleton.mp hk] at e
      have hlt := (h.since i hi).2
      rw [e] at hlt
      exact Nat.lt_irrefl _ hlt
    · intro i hi
      rcases List.mem_append.mp hi with hi | hi
      · exact ⟨(h.since i hi).1, Nat.lt_succ_of_lt (h.since i hi).2⟩
      · rw [List.mem_singleton.mp hi]
        exact ⟨h.count, Nat.lt_succ_self _⟩

theorem Made.foldl (h : Made first m) (loaded : List Loaded) :
    Made first (loaded.foldl ModuleRestarts.makeInstance m) ∧
      (loaded.foldl ModuleRestarts.makeInstance m).toRestart = m.toRestart := by
  induction loaded generalizing m with
  | nil => exact ⟨h, rfl⟩
  | cons l loaded ih =>
    obtain ⟨hm, hw⟩ := ih (h.makeInstance l).1
    exact ⟨hm, hw.trans (h.makeInstance l).2⟩

theorem Known.loaded (h : Known m) (loaded : List Loaded) (attempts : Nat → Attempt) :
    Known (getInstances loaded attempts m) ∧
      (m.toRestart.Nodup → (getInstances loaded attempts m).toRestart.Nodup) := by
  obtain ⟨hi, hw, hmade⟩ := clear_spec m.instances m
  have hcleared : Made m.made (clearInstances none m) := by
    change Made m.made (m.instances.foldl removeInstance m)
    have hnil := hi.trans (diff_self m.instances)
    refine ⟨hnil ▸ List.nodup_nil, ?_, hmade.ge⟩
    intro i hmem
    rw [hnil] at hmem
    cases hmem
  obtain ⟨hmake, hwaits⟩ := hcleared.foldl loaded
  have hold : (loaded.foldl makeInstance (clearInstances none m)).toRestart = m.toRestart := hwaits.trans hw
  unfold getInstances
  dsimp only
  generalize loaded.foldl makeInstance (clearInstances none m) = n at hmake hold
  obtain ⟨hinstances, hcount, -⟩ := tryEach_spec waits_firstInit n.instances attempts n
  refine ⟨⟨?_, ?_, ?_⟩, fun hn => ?_⟩
  · rw [hinstances]
    exact hmake.nodup
  · rw [hinstances, hcount]
    exact fun i hi => (hmake.since i hi).2
  · intro i hi
    rw [hcount]
    rcases tryEach_mem waits_firstInit hi with hi | hi
    · rw [hold] at hi
      exact Nat.lt_of_lt_of_le (h.toRestart i hi) hmake.count
    · exact (hmake.since i hi).2
  · refine ((tryEach_right waits_firstInit hmake.nodup attempts n).mpr ⟨hold ▸ hn, ?_⟩).1
    intro i hi hwait
    rw [hold] at hwait
    exact absurd (h.toRestart i hwait) (Nat.not_lt.mpr (hmake.since i hi).1)

theorem Known.of_same (h : Known m) (hi : m'.instances.Sublist m.instances) (hm : m'.made = m.made)
    (hw : ∀ i ∈ m'.toRestart, i ∈ m.toRestart ∨ i ∈ m.instances) : Known m' := by
  refine ⟨h.nodup.sublist hi, ?_, ?_⟩
  · rw [hm]
    exact fun i hmem => h.instances i (hi.subset hmem)
  · rw [hm]
    exact fun i hmem => (hw i hmem).elim (h.toRestart i) (h.instances i)

theorem Known.called (h : Known m) {l : List Instance} (hl : l.Sublist m.instances) :
    Known (callEach raises l m) := by
  obtain ⟨hi, hm, hw⟩ := callEach_spec raises l m
  refine h.of_same (hi ▸ List.Sublist.refl _) hm ?_
  intro i hmem
  rw [hw] at hmem
  exact (List.mem_append.mp hmem).imp_right fun hmem => hl.subset (List.mem_filter.mp hmem).1

theorem Known.happen (h : Known m) (e : Event) : Known (m.happen e).2 := by
  cases e with
  | getInstances loaded attempts => exact (h.loaded loaded attempts).1
  | startExternalInstances lateStart attempts =>
    obtain ⟨hi, hm, -⟩ := tryEach_spec (waits_startExternal lateStart) (m.instances.filter (·.isExternal)) attempts m
    refine h.of_same (hi ▸ List.Sublist.refl _) hm ?_
    intro i hmem
    exact (tryEach_mem (waits_startExternal lateStart) hmem).imp_right fun hmem => (List.mem_filter.mp hmem).1
  | checkAliveInstances watch =>
    have hw := checkAlives_watched watch m.instances m
    exact h.of_same (hw.instances ▸ List.Sublist.refl _) hw.made hw.mem
  | tryToRestartDeads attempts =>
    obtain ⟨hi, hm, -⟩ := tryEach_spec waits_restart m.toRestart attempts { m with toRestart := [] }
    refine h.of_same (hi ▸ List.Sublist.refl _) hm ?_
    intro i hmem
    exact (tryEach_mem waits_restart hmem).elim (fun hmem => nomatch hmem) Or.inl
  | manageBrok raises => exact h.called List.filter_sublist
  | putBroks raises => exact h.called List.filter_sublist
  | hookPoint hasHook raises => exact h.called List.filter_sublist
  | stopAll =>
    obtain ⟨hi, hw, hm⟩ := stopAll_spec m
    refine h.of_same (hi ▸ List.diff_sublist _ _) hm ?_
    intro i hmem
    exact Or.inl (hw ▸ hmem)

/-! ## One event -/

theorem right_callEach (h : Known m) (hn : m.toRestart.Nodup) {l : List Instance}
    (hl : l.Sublist m.instances) :
    ((callEach raises l m).toRestart.Nodup ∧ ∀ i ∈ ([] : List Instance), i ∉ (callEach raises l m).toRestart) ↔
      ∀ i ∈ l, raises i → i ∉ m.toRestart := by
  rw [callEach_nodup (h.nodup.sublist hl) hn]
  exact and_iff_left fun i hi => nomatch hi

theorem right_iff_allowed (h : Known m) (hn : m.toRestart.Nodup) (e : Event) : m.Right e ↔ m.Allowed e := by
  cases e with
  | getInstances loaded attempts =>
    exact iff_of_true ⟨(h.loaded loaded attempts).2 hn, fun i hi => nomatch hi⟩ trivial
  | startExternalInstances lateStart attempts =>
    refine (tryEach_right (waits_startExternal lateStart) (h.nodup.filter _) attempts m).trans ?_
    rw [and_iff_right hn]
    unfold Allowed
    simp only [List.mem_filter, and_imp]
  | checkAliveInstances watch =>
    exact iff_of_true ⟨(checkAlives_watched watch m.instances m).nodup hn, fun i hi => nomatch hi⟩ trivial
  | tryToRestartDeads attempts =>
    refine iff_of_true ?_ trivial
    exact (tryEach_right waits_restart hn attempts { m with toRestart := [] }).mpr
      ⟨List.nodup_nil, fun i _ hi => nomatch hi⟩
  | manageBrok raises =>
    refine (right_callEach h hn List.filter_sublist).trans ?_
    unfold Allowed
    simp only [List.mem_filter, Bool.not_eq_true', and_imp]
  | putBroks raises =>
    refine (right_callEach h hn List.filter_sublist).trans ?_
    unfold Allowed
    simp only [List.mem_filter, and_imp]
  | hookPoint hasHook raises =>
    refine (right_callEach h hn List.filter_sublist).trans ?_
    unfold Allowed
    simp only [List.mem_filter, and_imp]
  | stopAll =>
    refine iff_of_true ⟨?_, fun i hi => nomatch hi⟩ trivial
    exact (stopAll_spec m).2.1 ▸ hn

end

/-! ## Runs -/

/-- No instance ever waits twice, nor after a restart, if and only if no call
fails for an instance that waits. -/
theorem restarts_once (events : List Event) :
    (∀ l e, l ++ [e] <+: events → (newManager.run l).Right e) ↔
      ∀ l e, l ++ [e] <+: events → (newManager.run l).Allowed e := by
  have hnew : Known newManager ∧ newManager.toRestart.Nodup :=
    ⟨⟨List.nodup_nil, fun i hi => (nomatch hi), fun i hi => (nomatch hi)⟩, List.nodup_nil⟩
  refine prefixes_iff (P := fun m => Known m ∧ m.toRestart.Nodup) hnew ?_ ?_ events
  · intro m e hm
    exact right_iff_allowed hm.1 hm.2 e
  · intro m e hm hr
    exact ⟨hm.1.happen e, hr.1⟩

/-! ## A module that fails twice -/

def loadedOnce : Event := .getInstances [⟨"logs", .ok (false, ["running"])⟩] fun _ => ⟨0, 0, .returns true⟩

def logs : Instance := ⟨0, "logs", false, ["running"]⟩

/-- Two broks make it wait twice; a restart then leaves it waiting although it
works, for the second try comes too early. -/
theorem waits_twice :
    ¬ (newManager.run [loadedOnce, .manageBrok fun _ => true]).Right (.manageBrok fun _ => true) ∧
    (newManager.run [loadedOnce, .manageBrok fun _ => true, .manageBrok fun _ => true]).toRestart = [logs, logs] ∧
    ((newManager.run [loadedOnce, .manageBrok fun _ => true, .manageBrok fun _ => true]).happen
      (.tryToRestartDeads fun _ => ⟨10, 10, .returns true⟩)).1 = [logs] ∧
    ((newManager.run [loadedOnce, .manageBrok fun _ => true, .manageBrok fun _ => true]).happen
      (.tryToRestartDeads fun _ => ⟨10, 10, .returns true⟩)).2.toRestart = [logs] := by
  refine ⟨fun h => absurd h.1 (by decide +kernel), by decide +kernel, by decide +kernel, by decide +kernel⟩

end Alignak.ModuleRestarts
