import Alignak.SchedulingItem

/-!
# Notifications and acknowledgements

A master notification is created by its item, waits in the item's actions until
the scheduler takes it, and is scattered into one child for each contact and
command. Acknowledgements and the flapping detection raise some too.
-/

namespace Alignak.Scheduling

section
variable (conf : Conf) (env : Env)

/-! ## Blocked notifications -/

def businessRuleNotificationIsBlocked (w : World) (i : Nat) : Bool :=
  let s := w.settings i
  let acknowledged := (w.problem i).sourceProblems.countP fun p =>
    (w.checkState p).lastHardStateId != 0 &&
      ((w.ack p).problemHasBeenAcknowledged ||
        s.businessRuleDowntimeAsAck &&
          (decide (0 < (w.downtime p).scheduledDowntimeDepth) ||
            conf.myType p == .service && decide (0 < (w.downtime (conf.host p)).scheduledDowntimeDepth)))
  acknowledged == (w.problem i).sourceProblems.length

def blockedByBusinessRule (w : World) (i : Nat) (nType : NotificationType) : Bool :=
  (w.settings i).gotBusinessRule && (w.settings i).businessRuleSmartNotifications &&
    businessRuleNotificationIsBlocked conf w i && nType == .problem

def isFlappingType (t : NotificationType) : Bool := t == .flappingStart || t == .flappingStop || t == .flappingDisabled

def isDowntimeType (t : NotificationType) : Bool := t == .downtimeStart || t == .downtimeEnd || t == .downtimeCancelled

def isDowntimeEndType (t : NotificationType) : Bool := t == .downtimeEnd || t == .downtimeCancelled

def Host.isBlockingNotifications (w : World) (i : Nat) (period : Option Nat) (nType : NotificationType) (tWished : Int) :
    Bool :=
  let s := w.settings i
  let c := w.checkState i
  let depth := (w.downtime i).scheduledDowntimeDepth
  let option := fun letter => s.notificationOptions.contains letter
  !env.enableNotifications .host || !s.notificationsEnabled || option 'n' ||
  !env.periodValid period tWished ||
  (nType == .problem || nType == .recovery) &&
    (c.state == .down && !option 'd' || c.state == .up && !option 'r' || c.state == .unreachable && !option 'x') ||
  isFlappingType nType && !option 'f' ||
  isDowntimeType nType && !option 's' ||
  isFlappingType nType && decide (0 < depth) ||
  nType == .acknowledgement && c.state == .up ||
  decide (1 < depth) && !isDowntimeEndType nType ||
  decide (0 < depth) && (nType == .problem || nType == .recovery || nType == .acknowledgement) ||
  c.stateType == .soft && nType == .problem ||
  (w.ack i).problemHasBeenAcknowledged && !(nType == .acknowledgement || isDowntimeType nType) ||
  (w.alert i).isFlapping && !isFlappingType nType ||
  blockedByBusinessRule conf w i nType

def Service.isBlockingNotifications (w : World) (i : Nat) (period : Option Nat) (nType : NotificationType)
    (tWished : Int) : Bool :=
  let s := w.settings i
  let c := w.checkState i
  let depth := (w.downtime i).scheduledDowntimeDepth
  let option := fun letter => s.notificationOptions.contains letter
  !env.enableNotifications .service || !s.notificationsEnabled || option 'n' ||
  !env.periodValid period tWished ||
  (nType == .problem || nType == .recovery) &&
    (c.state == .unknown && !option 'u' || c.state == .warning && !option 'w' || c.state == .critical && !option 'c' ||
      c.state == .ok && !option 'r' || c.state == .unreachable && !option 'x') ||
  isFlappingType nType && !option 'f' ||
  isDowntimeType nType && !option 's' ||
  nType == .acknowledgement && c.state == .ok ||
  decide (0 < (w.downtime (conf.host i)).scheduledDowntimeDepth) ||
  decide (1 < depth) && !isDowntimeEndType nType ||
  decide (0 < depth) &&
    (nType == .problem || nType == .recovery || nType == .acknowledgement || isFlappingType nType) ||
  c.stateType == .soft && nType == .problem ||
  (w.ack i).problemHasBeenAcknowledged && nType != .acknowledgement ||
  (w.alert i).isFlapping && !isFlappingType nType ||
  (w.checkState (conf.host i)).state != .up ||
  blockedByBusinessRule conf w i nType

def isBlockingNotifications (w : World) (i : Nat) : Option Nat → NotificationType → Int → Bool :=
  match conf.myType i with
  | .host => Host.isBlockingNotifications conf env w i
  | .service => Service.isBlockingNotifications conf env w i

/-! ## Masters -/

def addNotification (i : Nat) (x : Notification) (w : World) : World :=
  { w with
    notification := Function.update w.notification w.nextNotification x
    nextNotification := w.nextNotification + 1
    alert := Function.update w.alert i
      { w.alert i with notificationsInProgress := (w.alert i).notificationsInProgress ++ [w.nextNotification] } }

def wishedTime (w : World) (i : Nat) (nType : NotificationType) : Int :=
  if (w.alert i).currentNotificationNumber = 0 ∧ nType = .problem then
    let lastTime := lastTimeNonOkOrUp (conf.myType i) (w.checkState i)
    (if lastTime ≠ 0 then lastTime + 1 else env.now) + (w.settings i).firstNotificationDelay * env.intervalLength
  else env.now

def isDropped (w : World) (i : Nat) (nType : NotificationType) (period : Option Nat) : Bool :=
  isBlockingNotifications conf env w i period nType (wishedTime conf env w i nType) &&
    (w.settings i).firstNotificationDelay == 0 && (w.settings i).notificationInterval == 0

def createNotifications (i : Nat) (nType : NotificationType) (period : Option Nat) (w : World) : World :=
  if isDropped conf env w i nType period then w
  else
    let tWished := wishedTime conf env w i nType
    let newT := match period with
      | none => some tWished
      | some p => env.getNextValidTime p tWished
    let number := if nType = .recovery then 0 else (w.alert i).currentNotificationNumber
    let notifNb := if nType = .problem then number + 1 else number
    (addNotification i ⟨nType, .scheduled, i, none, newT, notifNb, false⟩ w).modifyAlert i fun a =>
      { a with currentNotificationNumber := number, actions := a.actions ++ [w.nextNotification] }

def removeInProgressNotification (i n : Nat) (w : World) : World :=
  if n ∈ (w.alert i).notificationsInProgress then
    (w.setNotificationStatus n .zombie).modifyAlert i fun a =>
      { a with notificationsInProgress := a.notificationsInProgress.filter (· ≠ n) }
  else w

/-- The types that `remove_in_progress_notifications` leaves in progress. -/
def NotificationType.preserved (t : NotificationType) : Bool :=
  isDowntimeType t || t == .custom || t == .acknowledgement

def removeUnlessPreserved (master : Bool) (i : Nat) (w : World) (n : Nat) : World :=
  if master && (w.notification n).contact.isSome then w
  else if (w.notification n).type.preserved then w
  else removeInProgressNotification i n w

def removeInProgressNotifications (master : Bool) (i : Nat) (w : World) : World :=
  (w.alert i).notificationsInProgress.foldl (removeUnlessPreserved master i) w

/-! ## Acknowledgements -/

def delAckComment (i : Nat) (w : World) : World :=
  match (w.ack i).acknowledgement with
  | some a => w.delComment i a.commentId
  | none => w

def acknowledgeItem (i : Nat) (period : Option Nat) (sticky notify endTime : Int) (w : World) : World :=
  if (w.checkState i).state = okUp (conf.myType i) then w
  else
    let w := if (w.ack i).problemHasBeenAcknowledged then delAckComment i w else w
    let w := if notify ≠ 0 then createNotifications conf env i .acknowledgement period w else w
    (w.addComment i ⟨i, 4⟩).modifyAck i fun a =>
      { a with problemHasBeenAcknowledged := true, acknowledgement := some ⟨sticky == 2, endTime, w.nextComment⟩ }

/-- A host acknowledges its services too. The source has `sticky` bound to the
result of its test by then: the services get a 1 or a 0 when the host is not up. -/
def acknowledgeProblem (i : Nat) (period : Option Nat) (sticky notify endTime : Int) (w : World) : World :=
  let stickyOfServices :=
    if (w.checkState i).state = okUp (conf.myType i) then sticky else if sticky = 2 then 1 else 0
  let w := acknowledgeItem conf env i period sticky notify endTime w
  match conf.myType i with
  | .host => ((conf.hostServices i).filter (· ∈ conf.services)).foldl (fun w s =>
      acknowledgeItem conf env s period stickyOfServices notify endTime w) w
  | .service => w

def unacknowledgeProblem (i : Nat) (w : World) : World :=
  if (w.ack i).problemHasBeenAcknowledged then
    (delAckComment i w).modifyAck i fun a => { a with problemHasBeenAcknowledged := false, acknowledgement := none }
  else w

def unacknowledgeProblemIfNotSticky (i : Nat) (w : World) : World :=
  match (w.ack i).acknowledgement with
  | some a => if a.sticky then w else unacknowledgeProblem i w
  | none => w

def checkForExpireAcknowledge (w : World) : World :=
  conf.allMyHostsAndServices.foldl (fun w i =>
    match (w.ack i).acknowledgement with
    | some a => if a.endTime ≠ 0 ∧ a.endTime < env.now then unacknowledgeProblem i w else w
    | none => w) w

/-! ## Flapping -/

def addFlappingChange (i : Nat) (sample : Bool) (w : World) : World :=
  if (w.settings i).flapDetectionEnabled && env.enableFlapDetection (conf.myType i) then
    w.modifyAlert i fun a =>
      let changes := a.flappingChanges ++ [sample]
      { a with flappingChanges := if env.flapHistory < changes.length then changes.drop 1 else changes }
  else w

def percentStateChange (flapHistory : Nat) (changes : List Bool) : Rat :=
  let res := (changes.zipIdx 1).foldl (fun (res : Rat) (c : Bool × Nat) =>
    if c.1 then res + (c.2 * (12 / 10 - 8 / 10) / flapHistory + 8 / 10) else res) 0
  res / flapHistory * 100

def raiseFlapping (i : Nat) (isFlapping : Bool) (nType : NotificationType) (w : World) : World :=
  let w := w.modifyAlert i fun a => { a with isFlapping := isFlapping }
  createNotifications conf env i nType (w.settings i).notificationPeriod (removeInProgressNotifications true i w)

def stopFlapping (i : Nat) (res : Rat) (isFull : Bool) (w : World) : World :=
  if (w.alert i).isFlapping && decide (res < (w.settings i).lowFlapThreshold) && isFull then
    raiseFlapping conf env i false .flappingStop w
  else w

def startFlapping (i : Nat) (res : Rat) (isFull : Bool) (w : World) : World :=
  if !(w.alert i).isFlapping && decide ((w.settings i).highFlapThreshold ≤ res) && isFull then
    raiseFlapping conf env i true .flappingStart w
  else w

def updateFlapping (i : Nat) (w : World) : World :=
  let changes := (w.alert i).flappingChanges
  let res := percentStateChange env.flapHistory changes
  let isFull := decide (env.flapHistory ≤ changes.length)
  startFlapping conf env i res isFull (stopFlapping conf env i res isFull w)

/-! ## Children -/

def alreadyNotified (w : World) (i n contact : Nat) : Bool :=
  let c := w.checkState i
  (w.notification n).type == .problem && (w.settings i).notificationInterval == 0 && c.stateType == .hard &&
    c.lastStateType == c.stateType && c.state == c.lastState && (w.alert i).notifiedContactsIds.contains contact

def notificationContacts (w : World) (i n : Nat) : List Nat × Bool :=
  let x := w.notification n
  if x.type = .recovery then
    (if (w.settings i).firstNotificationDelay ≠ 0 ∧ (w.alert i).notifiedContactsIds = [] then []
      else (w.alert i).notifiedContactsIds, false)
  else if env.isEscalable i x (w.checkState i) then (env.getEscalableContacts i x (w.checkState i), true)
  else ((w.settings i).contacts, false)

def scatterChild (i n : Nat) (escalated : Bool) (children : List Nat × World) (recipient : Nat × Nat) : List Nat × World :=
  let w := children.2
  let x := w.notification n
  if env.wantNotification i recipient.1 recipient.2 (w.checkState i) x.type then
    let child : Notification := ⟨x.type, .scheduled, i, some recipient.1, x.tToGo, x.notifNb, escalated⟩
    let w' := addNotification i child w
    let w' := if x.type = .problem ∧ recipient.1 ∉ (w.alert i).notifiedContactsIds then
      w'.modifyAlert i fun a => { a with notifiedContactsIds := a.notifiedContactsIds ++ [recipient.1] } else w'
    (children.1 ++ [w.nextNotification], w')
  else children

def scatterNotification (i n : Nat) (w : World) : List Nat × World :=
  if (w.notification n).contact.isSome then ([], w)
  else
    let contacts := notificationContacts env w i n
    let w := if (w.notification n).type = .recovery then w.modifyAlert i fun a => { a with notifiedContactsIds := [] } else w
    let recipients := contacts.1.filter fun c => !alreadyNotified w i n c
    let commands := recipients.flatMap fun c => (env.getNotificationCommands c (conf.myType i)).map fun cmd => (c, cmd)
    commands.foldl (scatterChild env i n contacts.2) ([], w)

def schedulerAdd (n : Nat) (w : World) : World :=
  if n ∈ w.actions then w else { w with actions := w.actions ++ [n] }

def isLaunchable (x : Notification) (t : Int) : Bool :=
  match x.tToGo with
  | none => false
  | some tToGo => decide (tToGo ≤ t)

def scatterAllowed (n : Nat) (w : World) : List Nat × World :=
  let x := w.notification n
  if isBlockingNotifications conf env w x.ref (w.settings x.ref).notificationPeriod x.type env.now then ([], w)
  else scatterNotification conf env x.ref n w

def addChildren (children : List Nat) (w : World) : World :=
  children.foldl (fun w child => schedulerAdd child (w.setNotificationStatus child .scheduled)) w

def repeatMaster (n : Nat) (w : World) : World :=
  let x := w.notification n
  { w with notification := Function.update w.notification n { x with
      tToGo := some (env.getNextNotificationTime x.ref x (w.checkState x.ref))
      notifNb := (w.alert x.ref).currentNotificationNumber + 1 } }

def closeMaster (n : Nat) (sent : Bool) (w : World) : World :=
  let x := w.notification n
  if x.type = .problem then
    let w := if sent then w.modifyAlert x.ref fun a => { a with currentNotificationNumber := x.notifNb } else w
    if (w.settings x.ref).notificationInterval ≠ 0 ∧ x.tToGo ≠ none then repeatMaster env n w
    else removeInProgressNotification x.ref n w
  else removeInProgressNotification x.ref n w

def scatterMasterNotification (w : World) (n : Nat) : World :=
  let scattered := scatterAllowed conf env n w
  closeMaster env n (scattered.1 != []) (addChildren scattered.1 scattered.2)

/-! ## The queues of the scheduler -/

def scatterMasterNotifications (w : World) : World :=
  let notifications := w.actions.filter fun n =>
    let x := w.notification n
    x.status == .scheduled && x.contact.isNone && isLaunchable x env.now
  notifications.foldl (scatterMasterNotification conf env) w

def getNewActions (w : World) : World :=
  conf.allMyHostsAndServices.foldl (fun w i =>
    let w := (w.alert i).actions.foldl (fun w n => schedulerAdd n w) w
    w.modifyAlert i fun a => { a with actions := [] }) w

def getToRunActions (tagged : Nat → Bool) (w : World) : World :=
  w.actions.foldl (fun w n =>
    let x := w.notification n
    if x.contact.isSome && tagged n && x.status == .scheduled && isLaunchable x env.now then
      w.setNotificationStatus n .polled
    else w) w

def manageNotificationResult (n : Nat) (checkTime : Int) (w : World) : World :=
  if n ∈ w.actions then
    let i := (w.notification n).ref
    let w := (removeInProgressNotification i n w).setNotificationStatus n .zombie
    w.modifyAlert i fun a => { a with lastNotification := checkTime }
  else w

/-- `toDelActions` are the actions that are too many, by age. -/
def cleanQueues (toDelActions : List Nat) (w : World) : World :=
  (toDelActions.filter (· ∈ w.actions)).foldl (fun w n =>
    let w := removeInProgressNotification (w.notification n).ref n w
    { w with actions := w.actions.filter (· ≠ n) }) w

def deleteZombieActions (w : World) : World :=
  { w with actions := w.actions.filter fun n => (w.notification n).status != .zombie }

/-- `late` are the actions that no reactionner has answered for too long. -/
def checkOrphaned (late : Nat → Bool) (w : World) : World :=
  w.actions.foldl (fun w n =>
    if (w.notification n).status == .polled && late n then w.setNotificationStatus n .scheduled else w) w

end

/-! ## What they leave -/

def World.still (w : World) :=
  (w.settings, w.checkState, w.problem, w.downtime, w.ack, w.check, w.nextDowntime, w.comments, w.nextComment)

def World.quiet (w : World) := (w.settings, w.checkState, w.problem, w.downtime, w.check, w.nextDowntime)

theorem World.quiet_eq {w w' : World} (h : w'.quiet = w.quiet) : w'.settings = w.settings ∧ w'.checkState = w.checkState ∧
    w'.problem = w.problem ∧ w'.downtime = w.downtime ∧ w'.check = w.check ∧ w'.nextDowntime = w.nextDowntime := by
  simpa only [World.quiet, Prod.mk.injEq] using h

theorem quiet_of_still {w w' : World} (h : w'.still = w.still) : w'.quiet = w.quiet := by
  simp only [World.still, Prod.mk.injEq] at h
  obtain ⟨h1, h2, h3, h4, -, h6, h7, -⟩ := h
  simp only [World.quiet, h1, h2, h3, h4, h6, h7]

theorem foldl_same {σ α γ : Type} {p : σ → γ} {f : σ → α → σ} (h : ∀ s a, p (f s a) = p s) :
    ∀ (l : List α) (s : σ), p (l.foldl f s) = p s
  | [], _ => rfl
  | a :: l, s => (foldl_same h l (f s a)).trans (h s a)

section
variable {conf : Conf} {env : Env} (i n : Nat) (w : World)

/-! ### Notifications -/

@[simp] theorem setNotificationStatus_still (s : ActStatus) : (w.setNotificationStatus n s).still = w.still := rfl

@[simp] theorem modifyAlert_still (f : AlertState → AlertState) : (w.modifyAlert i f).still = w.still := rfl

@[simp] theorem addNotification_still (x : Notification) : (addNotification i x w).still = w.still := rfl

@[simp] theorem createNotifications_still (t : NotificationType) (period : Option Nat) :
    (createNotifications conf env i t period w).still = w.still := by
  unfold createNotifications
  split <;> rfl

@[simp] theorem removeInProgressNotification_still : (removeInProgressNotification i n w).still = w.still := by
  unfold removeInProgressNotification
  split <;> simp

@[simp] theorem removeInProgressNotifications_still (master : Bool) :
    (removeInProgressNotifications master i w).still = w.still := by
  refine foldl_same (p := World.still) (fun w n => ?_) _ w
  unfold removeUnlessPreserved
  split
  · rfl
  · split <;> simp

@[simp] theorem addFlappingChange_still (sample : Bool) : (addFlappingChange conf env i sample w).still = w.still := by
  unfold addFlappingChange
  split <;> simp

@[simp] theorem raiseFlapping_still (b : Bool) (t : NotificationType) :
    (raiseFlapping conf env i b t w).still = w.still := by
  unfold raiseFlapping
  simp

@[simp] theorem stopFlapping_still (res : Rat) (isFull : Bool) : (stopFlapping conf env i res isFull w).still = w.still := by
  unfold stopFlapping
  split <;> simp

@[simp] theorem startFlapping_still (res : Rat) (isFull : Bool) : (startFlapping conf env i res isFull w).still = w.still := by
  unfold startFlapping
  split <;> simp

@[simp] theorem updateFlapping_still : (updateFlapping conf env i w).still = w.still := by
  unfold updateFlapping
  simp

theorem scatterChild_still (escalated : Bool) (children : List Nat × World) (recipient : Nat × Nat) :
    (scatterChild env i n escalated children recipient).2.still = children.2.still := by
  unfold scatterChild
  simp only
  split
  · split <;> simp
  · rfl

@[simp] theorem scatterNotification_still : (scatterNotification conf env i n w).2.still = w.still := by
  unfold scatterNotification
  split
  · rfl
  · simp only
    refine (foldl_same (p := fun s : List Nat × World => s.2.still) (scatterChild_still i n _) _ _).trans ?_
    simp only
    split <;> simp

@[simp] theorem schedulerAdd_still : (schedulerAdd n w).still = w.still := by
  unfold schedulerAdd
  split <;> rfl

@[simp] theorem scatterAllowed_still : (scatterAllowed conf env n w).2.still = w.still := by
  unfold scatterAllowed
  simp only
  split <;> simp

@[simp] theorem addChildren_still (children : List Nat) : (addChildren children w).still = w.still :=
  foldl_same (p := World.still) (fun w c => by simp) _ w

@[simp] theorem repeatMaster_still : (repeatMaster env n w).still = w.still := rfl

@[simp] theorem closeMaster_still (sent : Bool) : (closeMaster env n sent w).still = w.still := by
  unfold closeMaster
  simp only
  split
  · cases sent
    · simp only [Bool.false_eq_true, if_false]
      split <;> simp
    · simp only [if_true]
      split <;> simp
  · simp

@[simp] theorem scatterMasterNotification_still : (scatterMasterNotification conf env w n).still = w.still := by
  unfold scatterMasterNotification
  simp

theorem scatterMasterNotifications_still : (scatterMasterNotifications conf env w).still = w.still :=
  foldl_same (p := World.still) (fun w n => scatterMasterNotification_still n w) _ w

theorem getNewActions_still : (getNewActions conf w).still = w.still := by
  refine foldl_same (p := World.still) (fun w i => ?_) _ w
  rw [modifyAlert_still, foldl_same (p := World.still) fun w n => schedulerAdd_still n w]

theorem getToRunActions_still (tagged : Nat → Bool) : (getToRunActions env tagged w).still = w.still := by
  refine foldl_same (p := World.still) (fun w i => ?_) _ w
  simp only
  split <;> simp

theorem manageNotificationResult_still (t : Int) : (manageNotificationResult n t w).still = w.still := by
  unfold manageNotificationResult
  split <;> simp

theorem cleanQueues_still (l : List Nat) : (cleanQueues l w).still = w.still := by
  refine foldl_same (p := World.still) (fun w n => ?_) _ w
  exact removeInProgressNotification_still _ n w

theorem checkOrphaned_still (late : Nat → Bool) : (checkOrphaned late w).still = w.still := by
  refine foldl_same (p := World.still) (fun w n => ?_) _ w
  split <;> simp

/-! ### Acknowledgements -/

@[simp] theorem createNotifications_quiet (t : NotificationType) (period : Option Nat) :
    (createNotifications conf env i t period w).quiet = w.quiet := quiet_of_still (createNotifications_still ..)

@[simp] theorem removeInProgressNotifications_quiet (master : Bool) :
    (removeInProgressNotifications master i w).quiet = w.quiet := quiet_of_still (removeInProgressNotifications_still ..)

@[simp] theorem modifyAck_quiet (f : AckState → AckState) : (w.modifyAck i f).quiet = w.quiet := rfl

@[simp] theorem addComment_quiet (x : Comment) : (w.addComment i x).quiet = w.quiet := rfl

@[simp] theorem delComment_quiet : (w.delComment i n).quiet = w.quiet := rfl

@[simp] theorem delAckComment_quiet : (delAckComment i w).quiet = w.quiet := by
  unfold delAckComment
  split <;> rfl

@[simp] theorem acknowledgeItem_quiet (period : Option Nat) (sticky notify endTime : Int) :
    (acknowledgeItem conf env i period sticky notify endTime w).quiet = w.quiet := by
  unfold acknowledgeItem
  split
  · rfl
  · have hdel : (if (w.ack i).problemHasBeenAcknowledged then delAckComment i w else w).quiet = w.quiet := by
      split <;> simp
    simp only [modifyAck_quiet, addComment_quiet]
    split
    · rw [createNotifications_quiet, hdel]
    · exact hdel

@[simp] theorem acknowledgeProblem_quiet (period : Option Nat) (sticky notify endTime : Int) :
    (acknowledgeProblem conf env i period sticky notify endTime w).quiet = w.quiet := by
  unfold acknowledgeProblem
  simp only
  split
  · rw [foldl_same (p := World.quiet) fun w s => acknowledgeItem_quiet s w _ _ _ _]
    simp
  · simp

@[simp] theorem unacknowledgeProblem_quiet : (unacknowledgeProblem i w).quiet = w.quiet := by
  unfold unacknowledgeProblem
  split <;> simp

@[simp] theorem unacknowledgeProblemIfNotSticky_quiet : (unacknowledgeProblemIfNotSticky i w).quiet = w.quiet := by
  unfold unacknowledgeProblemIfNotSticky
  split
  · split <;> simp
  · rfl

@[simp] theorem checkForExpireAcknowledge_quiet : (checkForExpireAcknowledge conf env w).quiet = w.quiet := by
  refine foldl_same (p := World.quiet) (fun w i => ?_) _ w
  split
  · split <;> simp
  · rfl

end

end Alignak.Scheduling
