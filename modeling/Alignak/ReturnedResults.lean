import Alignak.Checks

/-!
# The results of the satellites

`manage_results` takes the results that the satellites return, of the checks and
of the actions. The messages of the log are left out, but not what they read.
-/

namespace Alignak.ReturnedResults

open Scheduling Checking

/-! ## What the scheduler holds -/

structure StoredAction where
  isNotification : Bool
  ref : String
  contact : String
  command : String
  status : ActStatus
  outcome : Outcome
  deriving DecidableEq, Repr

structure StoredCheck where
  ref : String
  status : ActStatus
  outcome : Outcome
  deriving DecidableEq, Repr

structure SchedulingItem where
  myType : String
  fullName : String
  notificationsInProgress : List String
  lastNotification : Int
  deriving DecidableEq, Repr

structure OtherItem where
  myType : String
  fullName : String
  isContact : Bool
  deriving DecidableEq, Repr

inductive ResultBrok
  | updateStatus (item : String)
  | snapshot (uuid output : String) (exitStatus : Int)
  deriving DecidableEq, Repr

structure Counters where
  checks : Nat := 0
  checksTimeout : Nat := 0
  checksPassive : Nat := 0
  checksActive : Nat := 0
  actions : Nat := 0
  actionsTimeout : Nat := 0
  deriving DecidableEq, Repr

structure Scheduler where
  items : String → Option SchedulingItem
  others : String → Option OtherItem
  actions : String → Option StoredAction
  checks : String → Option StoredCheck
  broks : List ResultBrok
  counters : Counters

inductive IsA
  | notification
  | check
  | eventhandler
  | other (isA : String)
  deriving DecidableEq, Repr

structure Returned where
  isA : IsA
  uuid : String
  status : ActStatus
  isSnapshot : Bool
  passiveCheck : Bool
  command : String
  outcome : Outcome
  deriving DecidableEq, Repr

inductive Found
  | schedulingItem (item : SchedulingItem)
  | action
  | check
  | other (item : OtherItem)
  deriving DecidableEq, Repr

namespace Scheduler

def findItemById (s : Scheduler) (objectId : String) : Option Found :=
  match s.items objectId with
  | some item => some (.schedulingItem item)
  | none =>
    if (s.actions objectId).isSome then some .action
    else if (s.checks objectId).isSome then some .check
    else (s.others objectId).map .other

/-- What has a `remove_in_progress_notification`. -/
def findSchedulingItem (s : Scheduler) (objectId : String) : Option SchedulingItem :=
  match s.findItemById objectId with
  | some (.schedulingItem item) => some item
  | _ => none

def findNamed (s : Scheduler) (objectId : String) : Option (String × String) :=
  match s.findItemById objectId with
  | some (.schedulingItem item) => some (item.myType, item.fullName)
  | some (.other item) => some (item.myType, item.fullName)
  | _ => none

def findContact (s : Scheduler) (objectId : String) : Option OtherItem :=
  match s.findItemById objectId with
  | some (.other item) => if item.isContact then some item else none
  | _ => none

def modifyAction (u : String) (f : StoredAction → StoredAction) (s : Scheduler) : Scheduler :=
  { s with actions := Function.update s.actions u ((s.actions u).map f) }

def modifyCheck (u : String) (f : StoredCheck → StoredCheck) (s : Scheduler) : Scheduler :=
  { s with checks := Function.update s.checks u ((s.checks u).map f) }

def modifyItem (u : String) (f : SchedulingItem → SchedulingItem) (s : Scheduler) : Scheduler :=
  { s with items := Function.update s.items u ((s.items u).map f) }

def count (f : Counters → Counters) (s : Scheduler) : Scheduler := { s with counters := f s.counters }

def add (b : ResultBrok) (s : Scheduler) : Scheduler := { s with broks := s.broks ++ [b] }

end Scheduler

abbrev Managing := EStateM Exn Scheduler

/-! ## Exceptions -/

def readAttribute {α : Type} : Option α → Managing α
  | some a => pure a
  | none => throw .attributeError

/-- The `except (ValueError, AttributeError)` of the branches: the bad object is dropped. -/
def dropBad (m : Managing PUnit) : Managing PUnit := fun s =>
  match m s with
  | .ok a s => .ok a s
  | .error e s => if e = .valueError ∨ e = .attributeError then .ok ⟨⟩ s else .error e s

/-! ## Notifications -/

def getReturnFrom (r : Returned) (a : StoredAction) : StoredAction :=
  if a.isNotification then
    { a with outcome := { a.outcome with exitStatus := r.outcome.exitStatus, executionTime := r.outcome.executionTime } }
  else
    { a with outcome := { r.outcome with uTime := a.outcome.uTime, sTime := a.outcome.sTime } }

def removeInProgressNotification (u : String) (item : SchedulingItem) : SchedulingItem :=
  { item with notificationsInProgress := item.notificationsInProgress.erase u }

def noteNotification (r : Returned) (a : StoredAction) : Managing PUnit :=
  if r.status = .timeout then do
    let _ ← readAttribute (if a.isNotification then some a.contact else none)
    let s ← get
    modify (Scheduler.count fun c => { c with actionsTimeout := c.actionsTimeout + 1 })
    let _ ← readAttribute (s.findContact a.contact)
  else modify (Scheduler.count fun c => { c with actions := c.actions + 1 })

def endNotification (r : Returned) (a : StoredAction) : Managing PUnit := do
  modify (Scheduler.modifyItem a.ref (removeInProgressNotification r.uuid))
  modify (Scheduler.modifyAction r.uuid fun a => { a with status := .zombie })
  modify (Scheduler.modifyItem a.ref fun item => { item with lastNotification := r.outcome.checkTime })
  modify (Scheduler.add (.updateStatus a.ref))
  noteNotification r a

def manageNotification (r : Returned) (a : StoredAction) : Managing PUnit := do
  modify (Scheduler.modifyAction r.uuid (getReturnFrom r))
  let s ← get
  let _ ← readAttribute (s.findSchedulingItem a.ref)
  endNotification r a

/-! ## Checks -/

def takeOutcome (r : Returned) : Managing PUnit :=
  if r.passiveCheck then modify (Scheduler.count fun c => { c with checksPassive := c.checksPassive + 1 })
  else do
    modify (Scheduler.count fun c => { c with checksActive := c.checksActive + 1 })
    modify (Scheduler.modifyCheck r.uuid fun c => { c with outcome := r.outcome })

def noteCheck (r : Returned) (c : StoredCheck) : Managing PUnit :=
  if r.status = .timeout then do
    let s ← get
    let _ ← readAttribute (s.findNamed c.ref)
    modify (Scheduler.count fun c => { c with checksTimeout := c.checksTimeout + 1 })
  else do
    modify (Scheduler.count fun c => { c with checks := c.checks + 1 })
    takeOutcome r

def manageCheck (r : Returned) (c : StoredCheck) : Managing PUnit := do
  noteCheck r c
  modify (Scheduler.modifyCheck r.uuid fun c => { c with status := .waitConsume })

/-! ## Event handlers -/

def noteEventhandler (r : Returned) : Managing PUnit :=
  if r.status = .timeout then do
    let s ← get
    match s.checks r.uuid with
    | none => throw .keyError
    | some c =>
      let _ ← readAttribute (s.findItemById c.ref)
      modify (Scheduler.count fun c => { c with actionsTimeout := c.actionsTimeout + 1 })
  else modify (Scheduler.count fun c => { c with actions := c.actions + 1 })

def exportSnapshot (r : Returned) (a : StoredAction) : Managing PUnit :=
  guarded (r.isSnapshot = true) do
    modify (Scheduler.modifyAction r.uuid (getReturnFrom r))
    let s ← get
    let _ ← readAttribute (s.findNamed a.ref)
    let outcome := (getReturnFrom r a).outcome
    modify (Scheduler.add (.snapshot a.ref outcome.output outcome.exitStatus))

/-! ## Results -/

def manageResults (r : Returned) : Managing PUnit := do
  let s ← get
  match r.isA with
  | .notification =>
    match s.actions r.uuid with
    | none => return ⟨⟩
    | some a => dropBad (manageNotification r a)
  | .check =>
    match s.checks r.uuid with
    | none => return ⟨⟩
    | some c => dropBad (manageCheck r c)
  | .eventhandler =>
    match s.actions r.uuid with
    | none => return ⟨⟩
    | some a => do
      modify (Scheduler.modifyAction r.uuid fun a => { a with status := .zombie })
      dropBad do
        noteEventhandler r
        exportSnapshot r a
  | .other _ => return ⟨⟩

/-- The results that wait, as `consume_results` takes them. -/
def manageWaiting (waitingResults : List Returned) : Managing PUnit := waitingResults.forM manageResults

/-! ## Results that are managed -/

def Scheduler.IsZombie (s : Scheduler) (u : String) : Prop := ∃ a, s.actions u = some a ∧ a.status = .zombie

/-- No exception, and the action that is known ends as a zombie. -/
def Managed (s : Scheduler) (r : Returned) : Prop :=
  ∃ s', manageResults r s = .ok ⟨⟩ s' ∧
    (r.isA = .notification ∨ r.isA = .eventhandler → s.actions r.uuid ≠ none → s'.IsZombie r.uuid)

/-- An event handler that has timed out and is known is also a check. -/
def Survives (s : Scheduler) (r : Returned) : Prop :=
  r.isA = .eventhandler → r.status = .timeout → s.actions r.uuid ≠ none → s.checks r.uuid ≠ none

structure Fits (s : Scheduler) (r : Returned) : Prop where
  survives : Survives s r
  notification : r.isA = .notification → ∀ a, s.actions r.uuid = some a → a.status = .zombie ∨ s.items a.ref ≠ none

/-! ## Computations that drop what they cannot read -/

section
variable {m : Managing PUnit} {s s' : Scheduler} {u : String} {r : Returned} {a : StoredAction} {c : StoredCheck}

def keys (s : Scheduler) : (String → Bool) × (String → Bool) := (fun u => (s.actions u).isSome, fun u => (s.checks u).isSome)

theorem dropBad_stateAfter (m : Managing PUnit) (s : Scheduler) : stateAfter (dropBad m s) = stateAfter (m s) := by
  unfold dropBad
  cases m s with
  | ok a s => rfl
  | error e s =>
    dsimp only
    split <;> rfl

theorem dropBad_returns (h : Raises (· = s) m (· = .attributeError)) : dropBad m s = .ok ⟨⟩ (stateAfter (m s)) := by
  unfold dropBad
  cases hm : m s with
  | ok a s' => rfl
  | error e s' =>
    have he : e = .attributeError := h s rfl e s' hm
    rw [he]
    rfl

theorem dropBad_raises {e : Exn} (h : m s = .error e s') (hv : e ≠ .valueError) (ha : e ≠ .attributeError) :
    dropBad m s = .error e s' := by
  unfold dropBad
  rw [h]
  exact if_neg fun he => he.elim hv ha

theorem readAttribute_keeps {α : Type} {I : Scheduler → Prop} (o : Option α) :
    Keeps I (readAttribute o) (· = .attributeError) := by
  cases o with
  | none => exact Keeps.throw rfl
  | some a => exact Keeps.pure a

theorem keeps_leaves {α : Type} {I : Scheduler → Prop} {E : Exn → Prop} {m : Managing α} (h : Keeps I m E) : Keeps I m :=
  fun s hs => ⟨(h s hs).1, fun _ _ _ => trivial⟩

/-! ## What the tables keep -/

theorem isSome_update {α : Type} (f : String → Option α) (g : α → α) (u v : String) :
    (Function.update f u ((f u).map g) v).isSome = (f v).isSome := by
  by_cases h : v = u
  · subst h
    simp
  · rw [Function.update_of_ne h]

theorem keys_modifyAction (u : String) (f : StoredAction → StoredAction) (s : Scheduler) :
    keys (s.modifyAction u f) = keys s := by
  unfold keys Scheduler.modifyAction
  simp only [isSome_update]

theorem keys_modifyCheck (u : String) (f : StoredCheck → StoredCheck) (s : Scheduler) :
    keys (s.modifyCheck u f) = keys s := by
  unfold keys Scheduler.modifyCheck
  simp only [isSome_update]

theorem isZombie_modifyAction (h : s.IsZombie u) {f : StoredAction → StoredAction} (hf : ∀ a, a.status = .zombie → (f a).status = .zombie)
    (v : String) : (s.modifyAction v f).IsZombie u := by
  obtain ⟨a, ha, hz⟩ := h
  unfold Scheduler.IsZombie Scheduler.modifyAction
  by_cases huv : u = v
  · subst huv
    exact ⟨f a, by simp [ha], hf a hz⟩
  · exact ⟨a, (Function.update_of_ne huv ..).trans ha, hz⟩

theorem isZombie_of_set (h : s.actions u ≠ none) : (s.modifyAction u fun a => { a with status := .zombie }).IsZombie u := by
  obtain ⟨a, ha⟩ := Option.ne_none_iff_exists'.mp h
  exact ⟨{ a with status := .zombie }, by simp [Scheduler.modifyAction, ha], rfl⟩

theorem getReturnFrom_status (r : Returned) (a : StoredAction) : (getReturnFrom r a).status = a.status := by
  unfold getReturnFrom
  split <;> rfl

structure Stays (I : Scheduler → Prop) : Prop where
  returned : ∀ (r : Returned) u s, I s → I (s.modifyAction u (getReturnFrom r))
  zombie : ∀ (u : String) s, I s → I (s.modifyAction u fun a => { a with status := .zombie })
  item : ∀ (u : String) f s, I s → I (s.modifyItem u f)
  checks : ∀ (u : String) f s, I s → I (s.modifyCheck u f)
  count : ∀ f s, I s → I (s.count f)
  add : ∀ b s, I s → I (s.add b)

theorem stays_keys (k : (String → Bool) × (String → Bool)) : Stays fun s => keys s = k where
  returned _ u s h := (keys_modifyAction u _ s).trans h
  zombie u s h := (keys_modifyAction u _ s).trans h
  item _ _ _ h := h
  checks u f s h := (keys_modifyCheck u f s).trans h
  count _ _ h := h
  add _ _ h := h

theorem stays_zombie (u : String) : Stays fun s => s.IsZombie u where
  returned r v _ h := isZombie_modifyAction h (fun a ha => (getReturnFrom_status r a).trans ha) v
  zombie v _ h := isZombie_modifyAction h (fun _ _ => rfl) v
  item _ _ _ h := h
  checks _ _ _ h := h
  count _ _ h := h
  add _ _ h := h

/-! ## The parts of the management -/

section
variable {I : Scheduler → Prop}

theorem noteNotification_keeps (hI : Stays I) : Keeps I (noteNotification r a) (· = .attributeError) := by
  unfold noteNotification
  apply Keeps.ite
  · intro _
    refine Keeps.bind (readAttribute_keeps _) fun _ => Keeps.read fun s => ?_
    refine Keeps.bind (Keeps.modify (hI.count _)) fun _ => ?_
    exact Keeps.bind (readAttribute_keeps _) fun _ => Keeps.pure _
  · intro _
    exact Keeps.modify (hI.count _)

theorem endNotification_keeps (hI : Stays I) : Keeps I (endNotification r a) (· = .attributeError) := by
  unfold endNotification
  refine Keeps.bind (Keeps.modify (hI.item _ _)) fun _ => ?_
  refine Keeps.bind (Keeps.modify (hI.zombie _)) fun _ => ?_
  refine Keeps.bind (Keeps.modify (hI.item _ _)) fun _ => ?_
  exact Keeps.bind (Keeps.modify (hI.add _)) fun _ => noteNotification_keeps hI

theorem manageNotification_keeps (hI : Stays I) : Keeps I (manageNotification r a) (· = .attributeError) := by
  unfold manageNotification
  refine Keeps.bind (Keeps.modify (hI.returned r r.uuid)) fun _ => Keeps.read fun s => ?_
  exact Keeps.bind (readAttribute_keeps _) fun _ => endNotification_keeps hI

theorem takeOutcome_keeps (hI : Stays I) : Keeps I (takeOutcome r) (· = .attributeError) := by
  unfold takeOutcome
  apply Keeps.ite
  · intro _
    exact Keeps.modify (hI.count _)
  · intro _
    exact Keeps.bind (Keeps.modify (hI.count _)) fun _ => Keeps.modify (hI.checks _ _)

theorem noteCheck_keeps (hI : Stays I) : Keeps I (noteCheck r c) (· = .attributeError) := by
  unfold noteCheck
  apply Keeps.ite
  · intro _
    refine Keeps.read fun s => ?_
    exact Keeps.bind (readAttribute_keeps _) fun _ => Keeps.modify (hI.count _)
  · intro _
    exact Keeps.bind (Keeps.modify (hI.count _)) fun _ => takeOutcome_keeps hI

theorem manageCheck_keeps (hI : Stays I) : Keeps I (manageCheck r c) (· = .attributeError) :=
  Keeps.bind (noteCheck_keeps hI) fun _ => Keeps.modify (hI.checks _ _)

theorem noteEventhandler_keeps (hI : Stays I) : Keeps I (noteEventhandler r) := by
  unfold noteEventhandler
  apply Keeps.ite
  · intro _
    refine Keeps.read fun s => ?_
    cases s.checks r.uuid with
    | none => exact Keeps.throw trivial
    | some c => exact Keeps.bind (keeps_leaves (readAttribute_keeps _)) fun _ => Keeps.modify (hI.count _)
  · intro _
    exact Keeps.modify (hI.count _)

theorem exportSnapshot_keeps (hI : Stays I) : Keeps I (exportSnapshot r a) (· = .attributeError) := by
  unfold exportSnapshot
  apply Keeps.guarded
  intro _
  refine Keeps.bind (Keeps.modify (hI.returned r r.uuid)) fun _ => Keeps.read fun s => ?_
  exact Keeps.bind (readAttribute_keeps _) fun _ => Keeps.modify (hI.add _)

end

/-- Only the check that is missing raises what is not dropped. -/
theorem noteEventhandler_raises (h : r.status = .timeout → s.checks r.uuid ≠ none) :
    Raises (· = s) (noteEventhandler r) (· = .attributeError) := by
  unfold noteEventhandler
  apply Raises.ite
  · intro ht
    obtain ⟨c, hc⟩ := Option.ne_none_iff_exists'.mp (h ht)
    refine Raises.readAt fun t e => ?_
    rw [e, hc]
    have hkeeps : Keeps (fun _ => True) (readAttribute (s.findItemById c.ref) >>= fun _ =>
        modify (Scheduler.count fun c => { c with actionsTimeout := c.actionsTimeout + 1 })) (· = .attributeError) :=
      Keeps.bind (readAttribute_keeps _) fun _ => Keeps.modify fun _ h => h
    exact hkeeps.raises.pre fun _ _ => trivial
  · intro _
    exact Raises.modify

theorem noteEventhandler_keyError (ht : r.status = .timeout) (hc : s.checks r.uuid = none) :
    noteEventhandler r s = .error .keyError s := by
  unfold noteEventhandler
  rw [run_pos ht, get_bind, hc]
  rfl

/-! ## Results -/

theorem stays_true : Stays fun _ => True := by constructor <;> intros <;> trivial

theorem manageResults_keeps {I : Scheduler → Prop} (hI : Stays I) : Keeps I (manageResults r) := by
  have hdrop : ∀ m : Managing PUnit, Keeps I m → Keeps I (dropBad m) := by
    intro m hm s hs
    rw [dropBad_stateAfter]
    exact ⟨(hm s hs).1, fun _ _ _ => trivial⟩
  unfold manageResults
  refine Keeps.read fun s => ?_
  cases r.isA with
  | notification =>
    cases s.actions r.uuid with
    | none => exact Keeps.pure _
    | some a => exact hdrop _ (keeps_leaves (manageNotification_keeps hI))
  | check =>
    cases s.checks r.uuid with
    | none => exact Keeps.pure _
    | some c => exact hdrop _ (keeps_leaves (manageCheck_keeps hI))
  | eventhandler =>
    cases s.actions r.uuid with
    | none => exact Keeps.pure _
    | some a =>
      refine Keeps.bind (Keeps.modify (hI.zombie _)) fun _ => hdrop _ ?_
      exact Keeps.bind (noteEventhandler_keeps hI) fun _ => (keeps_leaves (exportSnapshot_keeps hI))
  | other isA => exact Keeps.pure _

theorem manageResults_notification (hr : r.isA = .notification) (ha : s.actions r.uuid = some a) :
    manageResults r s = .ok ⟨⟩ (stateAfter (manageNotification r a s)) := by
  unfold manageResults
  rw [get_bind, hr]
  dsimp only
  rw [ha]
  exact dropBad_returns ((manageNotification_keeps stays_true).raises.pre fun _ _ => trivial)

theorem endNotification_zombie (h : s.actions r.uuid ≠ none) : (stateAfter (endNotification r a s)).IsZombie r.uuid := by
  have hI := stays_zombie r.uuid
  unfold endNotification
  rw [modify_bind, modify_bind]
  refine (Keeps.bind (Keeps.modify (hI.item _ _)) (fun _ => Keeps.bind (Keeps.modify (hI.add _)) fun _ =>
    noteNotification_keeps hI) _ ?_).1
  apply isZombie_of_set
  exact h

theorem manageNotification_zombie (ha : s.actions r.uuid = some a) :
    (stateAfter (manageNotification r a s)).IsZombie r.uuid ↔ a.status = .zombie ∨ s.items a.ref ≠ none := by
  have hreturned : (s.modifyAction r.uuid (getReturnFrom r)).actions r.uuid = some (getReturnFrom r a) := by
    simp [Scheduler.modifyAction, ha]
  unfold manageNotification
  rw [modify_bind, get_bind]
  cases hi : s.items a.ref with
  | none =>
    have hfind : (s.modifyAction r.uuid (getReturnFrom r)).findSchedulingItem a.ref = none := by
      unfold Scheduler.findSchedulingItem Scheduler.findItemById
      have hitems : (s.modifyAction r.uuid (getReturnFrom r)).items a.ref = none := hi
      rw [hitems]
      dsimp only
      split
      · rename_i h
        split at h
        · cases h
        · split at h
          · cases h
          · rw [Option.map_eq_some_iff] at h
            obtain ⟨_, _, h⟩ := h
            cases h
      · rfl
    rw [hfind]
    change (s.modifyAction r.uuid (getReturnFrom r)).IsZombie r.uuid ↔ _
    unfold Scheduler.IsZombie
    rw [hreturned]
    simp [getReturnFrom_status]
  | some item =>
    have hfind : (s.modifyAction r.uuid (getReturnFrom r)).findSchedulingItem a.ref = some item := by
      unfold Scheduler.findSchedulingItem Scheduler.findItemById
      have hitems : (s.modifyAction r.uuid (getReturnFrom r)).items a.ref = some item := hi
      rw [hitems]
    rw [hfind]
    refine iff_of_true ?_ (Or.inr (Option.some_ne_none _))
    apply endNotification_zombie
    rw [hreturned]
    exact Option.some_ne_none _

theorem manageResults_eventhandler (hr : r.isA = .eventhandler) (ha : s.actions r.uuid = some a) :
    manageResults r s = dropBad (noteEventhandler r >>= fun _ => exportSnapshot r a)
      (s.modifyAction r.uuid fun a => { a with status := .zombie }) := by
  unfold manageResults
  rw [get_bind, hr]
  dsimp only
  rw [ha]
  rfl

theorem manageResults_ok_of_survives (h : Survives s r) : ∃ s', manageResults r s = .ok ⟨⟩ s' := by
  cases hr : r.isA with
  | notification =>
    cases ha : s.actions r.uuid with
    | none => exact ⟨s, by unfold manageResults; rw [get_bind, hr]; dsimp only; rw [ha]; rfl⟩
    | some a => exact ⟨_, manageResults_notification hr ha⟩
  | check =>
    unfold manageResults
    rw [get_bind, hr]
    dsimp only
    cases hc : s.checks r.uuid with
    | none => exact ⟨s, rfl⟩
    | some c => exact ⟨_, dropBad_returns ((manageCheck_keeps stays_true).raises.pre fun _ _ => trivial)⟩
  | eventhandler =>
    cases ha : s.actions r.uuid with
    | none => exact ⟨s, by unfold manageResults; rw [get_bind, hr]; dsimp only; rw [ha]; rfl⟩
    | some a =>
      refine ⟨_, (manageResults_eventhandler hr ha).trans (dropBad_returns ?_)⟩
      have hchecks : r.status = .timeout → s.checks r.uuid ≠ none := fun ht => h hr ht (ha ▸ Option.some_ne_none a)
      refine Raises.bind (R := fun _ _ => True) (noteEventhandler_raises hchecks) (fun _ _ _ _ _ => trivial) fun _ => ?_
      exact (exportSnapshot_keeps stays_true).raises
  | other isA => exact ⟨s, by unfold manageResults; rw [get_bind, hr]; rfl⟩

theorem manageResults_error (h : ¬ Survives s r) : ∃ s', manageResults r s = .error .keyError s' := by
  unfold Survives at h
  simp only [not_forall, not_not] at h
  obtain ⟨hr, ht, ha, hc⟩ := h
  obtain ⟨a, ha⟩ := Option.ne_none_iff_exists'.mp ha
  rw [manageResults_eventhandler hr ha]
  have hkey := noteEventhandler_keyError (s := s.modifyAction r.uuid fun a => { a with status := .zombie }) ht hc
  refine ⟨s.modifyAction r.uuid fun a => { a with status := .zombie }, dropBad_raises ?_ (by decide) (by decide)⟩
  rw [bind_eq, hkey]

theorem manageResults_ok_iff : (∃ s', manageResults r s = .ok ⟨⟩ s') ↔ Survives s r := by
  constructor
  · rintro ⟨s', hok⟩
    by_contra h
    obtain ⟨s'', herror⟩ := manageResults_error h
    rw [hok] at herror
    cases herror
  · exact manageResults_ok_of_survives

theorem managed_iff : Managed s r ↔ Fits s r := by
  constructor
  · rintro ⟨s', hok, hzombie⟩
    refine ⟨manageResults_ok_iff.mp ⟨s', hok⟩, ?_⟩
    intro hr a ha
    have hz := hzombie (Or.inl hr) (ha ▸ Option.some_ne_none a)
    rw [manageResults_notification hr ha] at hok
    cases hok
    exact (manageNotification_zombie ha).mp hz
  · intro h
    obtain ⟨s', hok⟩ := manageResults_ok_of_survives h.survives
    refine ⟨s', hok, ?_⟩
    intro hr hknown
    obtain ⟨a, ha⟩ := Option.ne_none_iff_exists'.mp hknown
    rcases hr with hr | hr
    · rw [manageResults_notification hr ha] at hok
      cases hok
      exact (manageNotification_zombie ha).mpr (h.notification hr a ha)
    · rw [manageResults_eventhandler hr ha] at hok
      have hz := dropBad_stateAfter (noteEventhandler r >>= fun _ => exportSnapshot r a)
        (s.modifyAction r.uuid fun a => { a with status := .zombie })
      rw [hok] at hz
      change s' = _ at hz
      rw [hz]
      refine (Keeps.bind (noteEventhandler_keeps (stays_zombie r.uuid)) (fun _ =>
        keeps_leaves (exportSnapshot_keeps (stays_zombie r.uuid))) _ ?_).1
      exact isZombie_of_set hknown

/-- What a result needs not to raise is told from the keys of the tables. -/
theorem survives_congr (h : keys s' = keys s) : Survives s' r ↔ Survives s r := by
  have hnone : ∀ {α : Type} {o o' : Option α}, o.isSome = o'.isSome → (o = none ↔ o' = none) := by
    intro α o o' he
    rw [← Option.not_isSome_iff_eq_none, ← Option.not_isSome_iff_eq_none, he]
  have hactions := hnone (congrFun (congrArg Prod.fst h) r.uuid)
  have hchecks := hnone (congrFun (congrArg Prod.snd h) r.uuid)
  unfold Survives
  rw [Ne, Ne, hactions, hchecks]

theorem manageWaiting_ok_iff (results : List Returned) (s : Scheduler) :
    (∃ s', manageWaiting results s = .ok ⟨⟩ s') ↔ ∀ r ∈ results, Survives s r := by
  induction results generalizing s with
  | nil => exact iff_of_true ⟨s, rfl⟩ fun r hr => nomatch hr
  | cons r results ih =>
    change (∃ s', (manageResults r >>= fun _ => manageWaiting results) s = .ok ⟨⟩ s') ↔ _
    rw [List.forall_mem_cons, ← manageResults_ok_iff, bind_eq]
    have hkeys := (manageResults_keeps (r := r) (stays_keys (keys s)) s rfl).1
    cases hrun : manageResults r s with
    | error e s₁ => exact iff_of_false (fun ⟨_, h⟩ => nomatch h) fun ⟨⟨_, h⟩, _⟩ => nomatch h
    | ok u s₁ =>
      rw [hrun] at hkeys
      have hkeys : keys s₁ = keys s := hkeys
      refine (ih s₁).trans ?_
      rw [and_iff_right ⟨s₁, rfl⟩]
      exact forall₂_congr fun r _ => survives_congr hkeys

end

/-- The results that wait are all taken if and only if no event handler that has
timed out is only an action; and each ends as it should if and only if it fits. -/
theorem results_managed (s : Scheduler) (results : List Returned) :
    ((∃ s', manageWaiting results s = .ok ⟨⟩ s') ↔ ∀ r ∈ results, Survives s r) ∧ ∀ r, Managed s r ↔ Fits s r :=
  ⟨manageWaiting_ok_iff results s, fun _ => managed_iff⟩

/-! ## An event handler that has timed out -/

def noOutcome : Outcome := ⟨0, "", "", "", 0, 0, 0, 0⟩

def storedHandler : StoredAction := ⟨false, "web", "", "restart", .polled, noOutcome⟩

def strayNotification : StoredAction := ⟨true, "gone", "admin", "notify", .polled, noOutcome⟩

def twoActions : Scheduler where
  items u := if u = "web" then some ⟨"host", "web", [], 0⟩ else none
  others _ := none
  actions u := if u = "a" then some storedHandler else if u = "n" then some strayNotification else none
  checks _ := none
  broks := []
  counters := {}

def lateHandler : Returned := ⟨.eventhandler, "a", .timeout, false, false, "restart", noOutcome⟩

def sentNotification : Returned := ⟨.notification, "n", .done, false, false, "notify", noOutcome⟩

/-- The first result raises and the second is not taken; taken alone, this one leaves its notification polled. -/
theorem not_managed : (∃ s', manageWaiting [lateHandler, sentNotification] twoActions = .error .keyError s') ∧
    ¬ Managed twoActions lateHandler ∧ ¬ Managed twoActions sentNotification := by
  refine ⟨⟨_, rfl⟩, ?_, ?_⟩
  · rintro ⟨s', hok, -⟩
    cases hok
  · rintro ⟨s', hok, hzombie⟩
    cases hok
    obtain ⟨a, ha, hz⟩ := hzombie (Or.inl rfl) (by simp [twoActions, sentNotification])
    cases ha
    cases hz

end Alignak.ReturnedResults
