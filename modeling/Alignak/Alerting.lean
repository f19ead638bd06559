import Alignak.Scheduler

/-!
# What the events do to the notifications

Between two passes that scatter the masters, the tables of the notifications
change in a few ways only: one rule for each, and what has the rules is kept by
every event.
-/

namespace Alignak.Scheduling

def World.loud (w : World) := (w.alert, w.notification, w.actions, w.nextNotification)

def AlertState.tables (a : AlertState) :=
  (a.notificationsInProgress, a.actions, a.currentNotificationNumber, a.notifiedContactsIds)

/-- The rules of an invariant, with the item that is cleared if one is;
`raises i t`: item `i` may get a new master of type `t`, a problem or a
recovery. -/
structure Alerting (conf : Conf) (raises : Nat → NotificationType → Prop) (I : Option Nat → World → Prop) : Prop where
  weaken : ∀ {c w}, I c w → I none w
  loud : ∀ {c w w'}, I c w → w'.loud = w.loud → I c w'
  flags : ∀ {c w i f}, I c w → (∀ a : AlertState, (f a).tables = a.tables) → I c (w.modifyAlert i f)
  setStatus : ∀ {c w n s}, I c w →
    (s = .zombie ∨ (w.notification n).contact.isSome ∨ (w.notification n).status ≠ .zombie) →
    I c (w.setNotificationStatus n s)
  remove : ∀ {c w i n}, I c w → I c (removeInProgressNotification i n w)
  clear : ∀ {c w i}, I c w → I (some i) (removeInProgressNotifications true i w)
  create : ∀ {c w i t env period}, I c w → t ≠ .problem ∧ t ≠ .recovery → I c (createNotifications conf env i t period w)
  raise : ∀ {w i t env period}, I (some i) w → raises i t → I none (createNotifications conf env i t period w)
  pick : ∀ {c w i n}, I c w → n ∈ (w.alert i).actions → I c (schedulerAdd n w)
  dequeue : ∀ {c w i}, I c w → I c (w.modifyAlert i fun a => { a with actions := [] })
  drop : ∀ {c w} {p : Nat → Bool}, I c w → I c { w with actions := w.actions.filter p }

structure Created (i : Nat) (t : NotificationType) (x : Notification) (w w' : World) : Prop where
  type : x.type = t
  ref : x.ref = i
  contact : x.contact = none
  status : x.status = .scheduled
  notifNb : x.notifNb = if t = .problem then (w.alert i).currentNotificationNumber + 1 else
    if t = .recovery then 0 else (w.alert i).currentNotificationNumber
  next : w'.nextNotification = w.nextNotification + 1
  notification : w'.notification = Function.update w.notification w.nextNotification x
  number : ∀ j, (w'.alert j).currentNotificationNumber =
    if j = i ∧ t = .recovery then 0 else (w.alert j).currentNotificationNumber
  notified : ∀ j, (w'.alert j).notifiedContactsIds = (w.alert j).notifiedContactsIds

theorem addNotification_self (i : Nat) (x : Notification) (w : World) : (addNotification i x w).alert i =
    { w.alert i with notificationsInProgress := (w.alert i).notificationsInProgress ++ [w.nextNotification] } :=
  Function.update_self ..

theorem addNotification_ne {i j : Nat} (x : Notification) (w : World) (h : j ≠ i) :
    (addNotification i x w).alert j = w.alert j := Function.update_of_ne h ..

theorem createNotifications_cases (conf : Conf) (env : Env) (i : Nat) (t : NotificationType) (period : Option Nat) (w : World) :
    isDropped conf env w i t period = true ∧ createNotifications conf env i t period w = w ∨
    isDropped conf env w i t period = false ∧ ∃ x, Created i t x w (createNotifications conf env i t period w) := by
  unfold createNotifications
  split
  · exact Or.inl ⟨‹_›, rfl⟩
  · rename_i hd
    refine Or.inr ⟨by simpa using hd, _, rfl, rfl, rfl, rfl, ?_, rfl, rfl, fun j => ?_, fun j => ?_⟩
    · by_cases hp : t = .problem
      · subst hp
        rfl
      · simp only [if_neg hp]
    · by_cases hj : j = i
      · subst hj
        rw [World.modifyAlert_self]
        by_cases hr : t = .recovery
        · simp [hr]
        · simp [hr]
      · rw [World.modifyAlert_ne _ hj, addNotification_ne _ w hj, if_neg]
        exact fun e => hj e.1
    · by_cases hj : j = i
      · subst hj
        rw [World.modifyAlert_self, addNotification_self]
      · rw [World.modifyAlert_ne _ hj, addNotification_ne _ w hj]

theorem removeInProgressNotification_cases (i n : Nat) (w : World) (k : Nat) :
    (removeInProgressNotification i n w).notification k = w.notification k ∨
      (removeInProgressNotification i n w).notification k = { w.notification k with status := .zombie } := by
  unfold removeInProgressNotification
  split
  · by_cases hk : k = n
    · subst hk
      exact Or.inr (Function.update_self ..)
    · exact Or.inl (Function.update_of_ne hk _ _)
  · exact Or.inl rfl

theorem removeInProgressNotification_tables (i n : Nat) (w : World) (j : Nat) :
    ((removeInProgressNotification i n w).alert j).currentNotificationNumber = (w.alert j).currentNotificationNumber ∧
    ((removeInProgressNotification i n w).alert j).notifiedContactsIds = (w.alert j).notifiedContactsIds ∧
    (removeInProgressNotification i n w).nextNotification = w.nextNotification := by
  unfold removeInProgressNotification
  split
  · by_cases hj : j = i
    · subst hj
      rw [World.modifyAlert_self]
      exact ⟨rfl, rfl, rfl⟩
    · rw [World.modifyAlert_ne _ hj]
      exact ⟨rfl, rfl, rfl⟩
  · exact ⟨rfl, rfl, rfl⟩

section
variable {conf : Conf} {env : Env} {raises : Nat → NotificationType → Prop} {I : Option Nat → World → Prop}
variable {c : Option Nat} {w : World} {i n : Nat}
variable (h : Alerting conf raises I)
include h

namespace Alerting

theorem same {w' : World} (hw : I c w) (ha : w'.aside = w.aside) : I c w' := by
  simp only [World.aside, Prod.mk.injEq] at ha
  refine h.loud hw ?_
  simp only [World.loud, Prod.mk.injEq]
  exact ⟨ha.2.2.2.1, ha.2.2.2.2.1, ha.2.2.2.2.2.2.1, ha.2.2.2.2.2.2.2.1⟩

theorem aside {α : Type} {m : Sched α} (hm : Unchanged World.aside m) : Keeps (I c) m :=
  fun s hs => ⟨h.same hs (hm s), fun _ _ _ => trivial⟩

/-! ## The functions of the items -/

theorem removeAll {master : Bool} (hw : I c w) : I c (removeInProgressNotifications master i w) := by
  unfold removeInProgressNotifications
  refine List.foldlRecOn _ _ hw fun w hw n _ => ?_
  unfold removeUnlessPreserved
  split
  · exact hw
  · split
    · exact hw
    · exact h.remove hw

theorem delAckComment (hw : I c w) : I c (delAckComment i w) := by
  unfold Scheduling.delAckComment
  split
  · exact h.loud hw rfl
  · exact hw

theorem delDowntimeComment {comment : Option Nat} (hw : I c w) : I c (w.delDowntimeComment i comment) := by
  cases comment with
  | none => exact hw
  | some comment => exact h.loud hw rfl

theorem acknowledgeItem {period : Option Nat} {sticky notify endTime : Int} (hw : I c w) :
    I c (acknowledgeItem conf env i period sticky notify endTime w) := by
  unfold Scheduling.acknowledgeItem
  split
  · exact hw
  · have hdel : I c (if (w.ack i).problemHasBeenAcknowledged then Scheduling.delAckComment i w else w) := by
      split
      · exact h.delAckComment hw
      · exact hw
    simp only
    generalize (if (w.ack i).problemHasBeenAcknowledged then Scheduling.delAckComment i w else w) = w₁ at hdel ⊢
    by_cases hn : notify ≠ 0
    · rw [if_pos hn]
      have hcreate : I c (createNotifications conf env i .acknowledgement period w₁) := h.create hdel (by decide)
      exact h.loud hcreate rfl
    · rw [if_neg hn]
      exact h.loud hdel rfl

theorem acknowledge {period : Option Nat} {sticky notify endTime : Int} (hw : I c w) :
    I c (acknowledgeProblem conf env i period sticky notify endTime w) := by
  unfold acknowledgeProblem
  simp only
  split
  · exact List.foldlRecOn _ _ (h.acknowledgeItem hw) fun w hw s _ => h.acknowledgeItem hw
  · exact h.acknowledgeItem hw

theorem unacknowledge (hw : I c w) : I c (unacknowledgeProblem i w) := by
  unfold unacknowledgeProblem
  split
  · exact h.loud (h.delAckComment hw) rfl
  · exact hw

theorem unacknowledgeIfNotSticky (hw : I c w) : I c (unacknowledgeProblemIfNotSticky i w) := by
  unfold unacknowledgeProblemIfNotSticky
  split
  · split
    · exact hw
    · exact h.unacknowledge hw
  · exact hw

theorem expireAcknowledge (hw : I c w) : I c (checkForExpireAcknowledge conf env w) := by
  refine List.foldlRecOn _ _ hw fun w hw i _ => ?_
  split
  · split
    · exact h.unacknowledge hw
    · exact hw
  · exact hw

theorem addFlapping {sample : Bool} (hw : I c w) : I c (addFlappingChange conf env i sample w) := by
  unfold addFlappingChange
  split
  · exact h.flags hw fun _ => rfl
  · exact hw

variable {b : Bool} {k : Nat} {chk : Check}

theorem raiseFlapping {t : NotificationType} (hw : I c w) (ht : t ≠ .problem ∧ t ≠ .recovery) :
    I c (raiseFlapping conf env i b t w) := by
  unfold Scheduling.raiseFlapping
  refine h.create (h.removeAll (h.flags hw ?_)) ht
  exact fun _ => rfl

theorem updateFlapping (hw : I c w) : I c (updateFlapping conf env i w) := by
  unfold Scheduling.updateFlapping
  simp only
  have hstop : ∀ res isFull, I c (stopFlapping conf env i res isFull w) := by
    intro res isFull
    unfold stopFlapping
    split
    · exact h.raiseFlapping (t := .flappingStop) hw (by decide)
    · exact hw
  unfold startFlapping
  split
  · exact h.raiseFlapping (t := .flappingStart) (hstop _ _) (by decide)
  · exact hstop _ _

theorem raiseAgain {t : NotificationType} (hw : I c w) (ht : raises i t) :
    I none (raiseAgain conf env i t b w) := by
  unfold Scheduling.raiseAgain
  simp only
  split
  · exact h.raise (h.clear hw) ht
  · exact h.weaken (h.clear hw)

/-! ## The queues -/

theorem newActions (hw : I c w) : I c (getNewActions conf w) := by
  unfold getNewActions
  refine List.foldlRecOn _ _ hw fun w hw i _ => h.dequeue ?_
  have hpick : ∀ (l : List Nat) (s : World), (∀ n ∈ l, n ∈ (s.alert i).actions) → I c s →
      I c (l.foldl (fun w n => schedulerAdd n w) s) := by
    intro l
    induction l with
    | nil => exact fun _ _ hs => hs
    | cons k l ih =>
      intro s hl hs
      refine ih _ (fun n hn => ?_) (h.pick hs (hl k List.mem_cons_self))
      have halert : (schedulerAdd k s).alert = s.alert := by
        unfold schedulerAdd
        split <;> rfl
      rw [halert]
      exact hl n (List.mem_cons_of_mem _ hn)
  exact hpick _ w (fun _ hn => hn) hw

theorem toRun {tagged : Nat → Bool} (hw : I c w) : I c (getToRunActions env tagged w) := by
  unfold getToRunActions
  refine List.foldlRecOn _ _ hw fun w hw n _ => ?_
  simp only
  split
  · rename_i hc
    simp only [Bool.and_eq_true] at hc
    exact h.setStatus hw (Or.inr (Or.inl hc.1.1.1))
  · exact hw

theorem result {t : Int} (hw : I c w) : I c (manageNotificationResult n t w) := by
  unfold manageNotificationResult
  split
  · refine h.flags (h.setStatus (h.remove hw) (Or.inl rfl)) ?_
    exact fun _ => rfl
  · exact hw

theorem clean {l : List Nat} (hw : I c w) : I c (cleanQueues l w) := by
  unfold cleanQueues
  refine List.foldlRecOn _ _ hw fun w hw n _ => ?_
  exact h.drop (h.remove hw)

theorem orphaned {late : Nat → Bool} (hw : I c w) : I c (checkOrphaned late w) := by
  unfold checkOrphaned
  refine List.foldlRecOn _ _ hw fun w hw n _ => ?_
  split
  · rename_i hc
    simp only [Bool.and_eq_true, beq_iff_eq] at hc
    exact h.setStatus hw (Or.inr (Or.inr (by rw [hc.1]; decide)))
  · exact hw

/-! ## The downtimes -/

theorem raiseEnterDowntime (hw : I c w) : I c (raiseEnterDowntime conf env i w) := by
  unfold Scheduling.raiseEnterDowntime
  split
  · simp only
    split
    · exact h.acknowledge (h.create (t := .downtimeStart) hw (by decide))
    · exact h.create hw (by decide)
  · exact hw

theorem changeDowntime {d : Nat} {f : Downtime → Downtime} (hw : I c w) : I c (w.changeDowntime i d f) := by
  unfold World.changeDowntime
  split
  · exact h.loud hw rfl
  · exact hw

theorem enter : ∀ fuel i d, Keeps (I c) (Downtime.enter conf env fuel i d)
  | 0, _, _ => Keeps.throw trivial
  | fuel + 1, i, d => by
    unfold Downtime.enter
    refine Keeps.read fun w => ?_
    cases w.downtime? i d with
    | none => exact Keeps.throw trivial
    | some x =>
      refine Keeps.bind (Keeps.modify fun s hs => h.loud hs rfl) fun _ => ?_
      refine Keeps.bind (Keeps.modify fun s hs => h.loud hs rfl) fun _ => ?_
      refine Keeps.bind (Keeps.modify fun s hs => h.raiseEnterDowntime hs) fun _ => ?_
      refine Keeps.forM fun k _ => Keeps.forM fun j _ => Keeps.read fun w => ?_
      exact Keeps.ite (fun _ => enter fuel j k) fun _ => Keeps.pure _

theorem enterDowntime (i d : Nat) : Keeps (I c) (enterDowntime conf env i d) := Keeps.read fun _ => h.enter _ i d

theorem checkForFlexibleDowntime (i : Nat) : Keeps (I c) (checkForFlexibleDowntime conf env i) := by
  refine Keeps.read fun w => Keeps.forM fun d _ => Keeps.read fun w => ?_
  cases w.downtime? i d with
  | none => exact Keeps.throw trivial
  | some x => exact Keeps.ite (fun _ => h.enterDowntime i d) fun _ => Keeps.pure _

theorem exit {d : Nat} (hw : I c w) : I c (Downtime.exit conf env i d w) := by
  have hend : ∀ j w, I c w → I c (endDowntime conf env j w) := by
    intro j w hw
    have hw' : I c (w.changeDepth j (-1)) := h.loud hw rfl
    unfold endDowntime
    simp only
    split
    · exact h.loud (h.create (t := .downtimeEnd) hw' (by decide)) rfl
    · exact hw'
  unfold Downtime.exit
  split
  · exact hw
  · simp only
    refine h.loud (h.changeDowntime (f := fun x => { x with canBeDeleted := true }) (h.delDowntimeComment ?_)) rfl
    split
    · exact hend _ _ (h.changeDowntime hw)
    · exact hw

theorem cancel (j d : Nat) : Keeps (I c) (Downtime.cancel j d) := by
  refine Keeps.read fun w => ?_
  cases w.downtime? j d with
  | none => exact Keeps.throw trivial
  | some x =>
    refine Keeps.bind (Keeps.modify fun s hs => ?_) fun _ => Keeps.bind (Keeps.modify fun s hs => ?_) fun _ => ?_
    · refine h.loud (w := s.changeDowntime j d fun x => { x with isInEffect := false }) (h.changeDowntime hs) ?_
      unfold cancelDepth
      simp only
      split <;> rfl
    · exact h.loud (h.changeDowntime (h.delDowntimeComment hs)) rfl
    · exact Keeps.ite (fun _ => Keeps.throw trivial) fun _ => Keeps.pure _

theorem updateDowntimes : Keeps (I c) (updateDowntimesAndComments conf env) := by
  refine Keeps.bind (Keeps.forM fun i _ => Keeps.read fun w => ?_) fun _ => Keeps.bind (Keeps.modify fun s hs => ?_) fun _ => ?_
  · split
    · exact Keeps.pure _
    · refine Keeps.ite (fun _ => ?_) fun _ => Keeps.pure _
      split
      · exact Keeps.throw trivial
      · split
        · exact Keeps.throw trivial
        · exact Keeps.bind (Keeps.modify fun s hs => h.loud hs rfl) fun _ => Keeps.modify fun s hs => h.loud hs rfl
    · exact Keeps.ite (fun _ => Keeps.modify fun s hs => h.loud hs rfl) fun _ => Keeps.pure _
  · refine List.foldlRecOn _ _ hs fun w hw i _ => List.foldlRecOn _ _ hw fun w hw d _ => ?_
    split
    · split
      · exact h.loud hw rfl
      · exact hw
    · exact hw
  · refine Keeps.forM fun i _ => Keeps.read fun w => Keeps.forM fun d _ => Keeps.read fun w => ?_
    cases w.downtime? i d with
    | none => exact Keeps.throw trivial
    | some x =>
      refine Keeps.ite (fun _ => Keeps.modify fun s hs => h.exit hs) fun _ => ?_
      exact Keeps.ite (fun _ => h.enterDowntime i d) fun _ => Keeps.pure _

/-! ## The consumption of a result -/

theorem setState {status : Int} (hw : I c w) : I c (setStateFromExitStatus conf env i status w) := by
  unfold setStateFromExitStatus
  simp only
  refine h.loud (w := recordFlapping conf env i _ (takeState conf i status w)) ?_ rfl
  have ht : I c (takeState conf i status w) := h.loud hw rfl
  unfold recordFlapping
  split
  · exact h.updateFlapping (h.addFlapping ht)
  · exact ht

theorem updateInformation (hw : I c w) : I c (updateItemInformation conf env k w) := by
  unfold updateItemInformation
  simp only
  refine h.loud (h.setState (h.loud hw ?_)) rfl
  rfl

omit h in
theorem resolveDependencies_loud (k : Nat) (w : World) : (resolveDependencies conf env k w).loud = w.loud := by
  have hf : ∀ w, (finishCheck k w).loud = w.loud := by
    intro w
    unfold finishCheck
    simp only
    split <;> rfl
  unfold resolveDependencies checkAndSetUnreachability
  rw [hf]
  split
  · split <;> rfl
  · rfl

theorem resolved (hw : I c w) : I c (resolved conf env k w) :=
  h.loud (h.updateInformation hw) (resolveDependencies_loud k _)

theorem modifyCheckState {f : CheckState → CheckState} :
    Keeps (I c) (modify fun w => w.modifyCheckState i f : Sched PUnit) := Keeps.modify fun _ hs => h.loud hs rfl

theorem addAttempt (hw : I c w) : I c (addAttempt i chk w) := by
  unfold Scheduling.addAttempt
  split
  · exact hw
  · exact h.loud hw rfl

theorem fromNonOkToOk (hr : (w.checkState i).stateType = .hard → raises i .recovery) :
    Leads (fun s => I none s ∧ s.checkState = w.checkState) (fromNonOkToOk conf env i chk b) (I none) := by
  refine Leads.bind (K := fun s => I none s ∧ s.checkState = w.checkState) (Leads.modify fun s hs => ?_) (fun _ => ?_)
    fun _ hs => hs.1
  · obtain ⟨-, hq, -⟩ := World.quiet_eq (unacknowledgeProblem_quiet i s)
    exact ⟨h.unacknowledge hs.1, hq.trans hs.2⟩
  · refine Leads.readAt fun s hs => ?_
    cases hs' : (s.checkState i).stateType with
    | soft =>
      refine Leads.pre (I := I none) ?_ fun s' e => e ▸ hs.1
      exact Keeps.bind (Keeps.modify fun s hs => h.addAttempt hs) fun _ => h.modifyCheckState
    | hard =>
      have hrec := hr (by rw [← hs.2]; exact hs')
      refine Leads.pre (I := I none) ?_ fun s' e => e ▸ hs.1
      refine Keeps.bind (Keeps.modify fun s hs => h.raiseAgain hs hrec) fun _ => ?_
      exact Keeps.bind h.modifyCheckState fun _ => h.aside (noMoreAProblem_aside i)

theorem volatileNonOk (hp : raises i .problem) (b : Bool) : Keeps (I none) (volatileNonOk conf env i b) := by
  refine Keeps.bind h.modifyCheckState fun _ => Keeps.bind (h.checkForFlexibleDowntime i) fun _ => ?_
  refine Keeps.bind (Keeps.modify fun s hs => h.raiseAgain hs hp) fun _ => ?_
  exact Keeps.guarded fun _ => h.aside (setMyselfAsProblem_aside i)

theorem enterHardProblem (hp : raises i .problem) (b : Bool) : Keeps (I none) (enterHardProblem conf env i b) := by
  refine Keeps.bind h.modifyCheckState fun _ => ?_
  refine Leads.bind (K := I (some i)) (Leads.modify fun s hs => h.clear hs) (fun _ => ?_) fun _ hs => h.weaken hs
  refine Leads.bind (h.checkForFlexibleDowntime i) (fun _ => ?_) fun _ hs => h.weaken hs
  by_cases hb : b = true
  · simp only [hb, if_true]
    refine Leads.bind (K := I none) (Leads.modify fun s hs => h.raise hs hp) (fun _ => ?_) fun _ hs => hs
    exact h.aside (setMyselfAsProblem_aside i)
  · simp only [hb]
    exact fun s hs => ⟨h.weaken hs, fun _ _ _ => trivial⟩

theorem fromOkToNonOk (hw : I none w) (hp : (w.settings i).maxCheckAttempts ≤ 1 → raises i .problem) :
    Leads (· = w) (fromOkToNonOk conf env i b) (I none) := by
  refine leads_step (Leads.readAt fun s e => ?_)
  have hs : I none s := e ▸ h.loud hw rfl
  refine Leads.pre (I := I none) (Keeps.ite (fun hmax => h.enterHardProblem (hp ?_) b) fun _ => h.modifyCheckState)
    fun s' e' => e' ▸ hs
  subst e
  unfold isMaxAttempts CheckState.isMaxAttempts at hmax
  rw [World.modifyCheckState_self] at hmax
  exact of_decide_eq_true hmax

theorem fromSoftNonOk (hw : I none w)
    (hp : isMaxAttempts (Scheduling.addAttempt i chk w) i = true → raises i .problem) :
    Leads (· = w) (fromSoftNonOk conf env i chk b) (I none) := by
  refine leads_step (leads_step (Leads.readAt fun s e => ?_))
  have hadd : I none (Scheduling.addAttempt i chk w) := h.addAttempt hw
  have hs : I none s ∧ s.quiet = (Scheduling.addAttempt i chk w).quiet := by
    subst e
    split
    · exact ⟨h.unacknowledgeIfNotSticky hadd, unacknowledgeProblemIfNotSticky_quiet _ _⟩
    · exact ⟨hadd, rfl⟩
  refine Leads.pre (I := I none) (Keeps.ite (fun hmax => h.enterHardProblem (hp ?_) b) fun _ => Keeps.pure _)
    fun s' e' => e' ▸ hs.1
  obtain ⟨h1, h2, -⟩ := World.quiet_eq hs.2
  unfold isMaxAttempts at hmax ⊢
  rw [← h1, ← h2]
  exact hmax

theorem notifyHard (hp : raises i .problem) (hw : I none w) : I none (notifyHardNonOk conf env i b w) := by
  unfold notifyHardNonOk
  split
  · simp only
    have hx : I none (w.modifyCheckState i fun x => x.updateHardUnknownPhaseState) := h.loud hw rfl
    split
    · exact h.raiseAgain (h.unacknowledgeIfNotSticky hx) hp
    · exact hx
  · split
    · exact h.raiseAgain hw hp
    · exact hw

theorem fromHardNonOk (hp : raises i .problem) (b : Bool) : Keeps (I none) (fromHardNonOk conf env i b) := by
  refine Keeps.bind (Keeps.modify fun s hs => h.notifyHard hp hs) fun _ => ?_
  refine Keeps.bind (Keeps.guarded fun _ => h.aside (setMyselfAsProblem_aside i)) fun _ => Keeps.modify fun s hs => ?_
  split
  · exact h.raiseAgain hs hp
  · exact hs

theorem changeState (hp : reachesHard conf w i chk = true → raises i .problem)
    (hr : chk.exitStatus = 0 → wasOk conf w i = false → (w.checkState i).stateType = .hard → raises i .recovery)
    (hw : I none w) : Leads (· = w) (changeState conf env i chk b) (I none) := by
  have hall : ∀ {m : Sched Unit}, Keeps (I none) m → Leads (· = w) m (I none) := fun hm => hm.pre fun s e => e ▸ hw
  refine Leads.readAt fun s e => ?_
  subst e
  by_cases he : chk.exitStatus = 0
  · rw [if_pos he]
    by_cases hok : wasOk conf s i = true
    · rw [if_pos hok]
      exact hall (Keeps.modify fun s hs => h.loud (h.unacknowledge hs) rfl)
    · rw [if_neg hok]
      exact (h.fromNonOkToOk (hr he (by simpa using hok))).pre fun s' e => by subst e; exact ⟨hw, rfl⟩
  · rw [if_neg he]
    unfold reachesHard at hp
    by_cases hv : isVolatile conf i = true
    · rw [if_pos hv]
      exact hall (h.volatileNonOk (hp (by simp [he, hv])) b)
    · rw [if_neg hv]
      by_cases hok : wasOk conf s i = true
      · rw [if_pos hok]
        exact h.fromOkToNonOk hw fun hmax => hp (by simp [he, hok, hmax])
      · rw [if_neg hok]
        by_cases hst : (s.checkState i).stateType = .soft
        · rw [if_pos hst]
          exact h.fromSoftNonOk hw fun hmax => hp (by simp [he, hok, hmax])
        · rw [if_neg hst]
          have hhard : (s.checkState i).stateType = .hard := by
            cases hx : (s.checkState i).stateType with
            | soft => exact absurd hx hst
            | hard => rfl
          exact hall (h.fromHardNonOk (hp (by simp [he, hok, hhard])) b)

theorem consumeResult (hp : hardProblem conf env w k = true → raises (w.check k).ref .problem)
    (hr : hardRecovery conf env w k = true → raises (w.check k).ref .recovery) (hw : I none w) :
    I none (stateAfter (consumeResult conf env k w)) := by
  suffices hl : Leads (· = w) (Scheduling.consumeResult conf env k) (I none) from (hl w rfl).1
  refine Leads.readAt fun s e => ?_
  subst e
  by_cases hm : mustWait conf s k = true
  · rw [if_pos hm]
    exact Leads.modify fun s' e => e ▸ h.loud hw rfl
  · rw [if_neg hm]
    refine leads_step (Leads.readAt fun u e => ?_)
    subst e
    rw [updateItemInformation_taken]
    refine leads_step (Leads.bind (h.changeState (fun hreach => hp ?_) (fun he hok hst => hr ?_) (h.resolved hw))
      (fun _ => Keeps.modify fun s hs => h.loud hs rfl) fun _ hs => hs)
    · have hreach' : reachesHard conf (Scheduling.resolved conf env k s) (s.check k).ref (takenCheck conf env s k) = true :=
        hreach
      unfold hardProblem
      simp [hm, hreach']
    · have he' : modulatedExitStatus conf env (s.check k) = 0 := he
      have hok' : wasOk conf (Scheduling.resolved conf env k s) (s.check k).ref = false := hok
      have hst' : ((Scheduling.resolved conf env k s).checkState (s.check k).ref).stateType = .hard := hst
      unfold hardRecovery
      simp [hm, he', hok', hst']

/-! ## The events -/

theorem command (cmd : Command) : Keeps (I none) (runCommand conf env cmd) := by
  cases cmd with
  | acknowledgeProblem i sticky notify endTime => exact Keeps.modify fun s hs => h.acknowledge hs
  | removeAcknowledgement i => exact Keeps.modify fun s hs => h.unacknowledge hs
  | scheduleDowntime i fixed startTime endTime duration triggerId =>
    refine Keeps.read fun w => Keeps.bind (Keeps.modify fun s hs => h.loud hs rfl) fun _ => ?_
    cases triggerId with
    | none => exact Keeps.pure _
    | some t =>
      refine Keeps.forM fun j _ => Keeps.read fun w => Keeps.ite (fun _ => ?_) fun _ => Keeps.pure _
      exact Keeps.read fun w => Keeps.ite (fun _ => Keeps.throw trivial) fun _ => Keeps.modify fun s hs => h.changeDowntime hs
  | delDowntime t d =>
    refine Keeps.read fun w => ?_
    split
    · exact Keeps.pure _
    · exact h.cancel _ d
  | changeMaxCheckAttempts i n => exact Keeps.modify fun s hs => h.loud hs rfl
  | changeSettings i f => exact Keeps.modify fun s hs => h.loud hs rfl
  | disableFlapDetection i =>
    refine Keeps.modify fun s hs => ?_
    unfold Scheduling.disableFlapDetection
    split
    · exact h.flags hs fun _ => rfl
    · exact hs
  | addComment i => exact Keeps.modify fun s hs => h.loud hs rfl
  | delComment t k =>
    refine Keeps.modify fun s hs => ?_
    unfold delCommentCommand
    split
    · exact hs
    · exact h.loud hs rfl
  | delAllComments i => exact Keeps.modify fun s hs => List.foldlRecOn _ _ hs fun w hw k _ => h.loud hw rfl

theorem event {ev : Event} (hev : ev ≠ .scatterMasterNotifications)
    (hc : ∀ k, ev = .consumeResult k → (hardProblem conf env w k = true → raises (w.check k).ref .problem) ∧
      (hardRecovery conf env w k = true → raises (w.check k).ref .recovery)) (hw : I none w) :
    I none (stateAfter (runEvent conf env ev w)) := by
  cases ev with
  | receiveResult k chk => exact h.loud hw rfl
  | consumeResult k => exact h.consumeResult (hc k rfl).1 (hc k rfl).2 hw
  | updateDowntimesAndComments => exact (h.updateDowntimes w hw).1
  | checkForExpireAcknowledge => exact h.expireAcknowledge hw
  | getNewActions => exact h.newActions hw
  | scatterMasterNotifications => exact absurd rfl hev
  | getToRunActions tagged => exact h.toRun hw
  | manageNotificationResult n t => exact h.result hw
  | cleanQueues l => exact h.clean hw
  | deleteZombieActions => exact h.drop hw
  | checkOrphaned late => exact h.orphaned hw
  | command cmd => exact (h.command cmd w hw).1

end Alerting

end

end Alignak.Scheduling
