import Alignak.Downtimes
import Alignak.ProblemImpact

/-!
# The consumption of a check result

`SchedulingItem.consume_result`, cut where the source has a comment: the update
of the item, the dependencies of the check, and one function for each way from
the last state to the new one.
-/

namespace Alignak.Scheduling

section
variable (conf : Conf) (env : Env)

def takeState (i : Nat) (status : Int) (w : World) : World :=
  let isImpact := (w.problem i).isImpact
  let result := stateOfExitStatus (conf.myType i) status
  w.modifyCheckState i fun x => { x with lastState := x.lastStateOf conf isImpact }.setState result.1 result.2.1

def recordFlapping (i : Nat) (stateCode : Char) (w : World) : World :=
  if stateCode ∈ (w.settings i).flapDetectionOptions then
    let changed := decide ((w.checkState i).state ≠ (w.checkState i).lastState)
    updateFlapping conf env i (addFlappingChange conf env i changed w)
  else w

def CheckState.recordStateChange (x : CheckState) (t : ItemType) : CheckState :=
  if x.state ≠ x.lastState ∧ ¬ (t = .host ∧ x.state = .down ∧ x.lastState = .unreachable) then
    { x with lastStateChange := x.lastStateUpdate }
  else x

def setStateFromExitStatus (i : Nat) (status : Int) (w : World) : World :=
  let stateCode := (stateOfExitStatus (conf.myType i) status).2.2
  (recordFlapping conf env i stateCode (takeState conf i status w)).modifyCheckState i fun x =>
    x.recordStateChange (conf.myType i)

def modulatedExitStatus (chk : Check) : Int :=
  let status := (conf.resultmodulations chk.ref).foldl (fun status m => env.moduleReturn m status) chk.exitStatus
  if !chk.freshnessExpiryCheck ∧ status = 1 ∧ conf.myType chk.ref = .host then 2 else status

def updateItemInformation (c : Nat) (w : World) : World :=
  let chk := w.check c
  let status := modulatedExitStatus conf env chk
  let w := w.setCheck c { chk with exitStatus := status }
  let w := w.modifyCheckState chk.ref fun x =>
    { x with lastChk := chk.checkTime
             lastStateUpdate := if chk.freshnessExpiryCheck then x.lastStateUpdate else env.now }
  let w := setStateFromExitStatus conf env chk.ref status w
  w.modifyCheckState chk.ref fun x =>
    { x with lastStateType := x.stateType, returnCode := status, stateChangedSinceImpact := true }

/-! ## Dependencies -/

def isEnableActionDependent (w : World) (i : Nat) : Bool :=
  (conf.actDependOf i).any fun dep =>
    dep.status.contains (.letter 'n') || !dep.status.any (isState (conf.myType dep.item) (w.checkState dep.item).state)

def checkAndSetUnreachability (i : Nat) (w : World) : World :=
  if (conf.actDependOf i).all fun dep => (w.checkState dep.item).state ∈ [State.down, .critical, .unknown, .unreachable] then
    w.modifyCheckState i fun x => x.setUnreachable env.now
  else w

def enableAction (w : World) (c : Nat) : Bool :=
  if (w.check c).status = .waitDepend then isEnableActionDependent conf w (w.check c).ref else true

def finishCheck (c : Nat) (w : World) : World :=
  let chk := w.check c
  if chk.status = .waitConsume ∨ chk.status = .waitDepend then
    w.setCheck c { chk with status := if chk.dependOnMe ≠ [] then .waitingMe else .zombie }
  else w

def resolveDependencies (c : Nat) (w : World) : World :=
  finishCheck c (if (w.check c).status = .waitDepend then checkAndSetUnreachability conf env (w.check c).ref w else w)

/-! ## From one state to the next -/

def isMaxAttempts (w : World) (i : Nat) : Bool := (w.checkState i).isMaxAttempts (w.settings i).maxCheckAttempts

def raiseAgain (i : Nat) (nType : NotificationType) (enableAction : Bool) (w : World) : World :=
  let w := removeInProgressNotifications true i w
  if enableAction then createNotifications conf env i nType (w.settings i).notificationPeriod w else w

def addAttempt (i : Nat) (chk : Check) (w : World) : World :=
  if chk.dependencyCheck then w
  else w.modifyCheckState i fun x => x.addAttempt (w.settings i).maxCheckAttempts

def fromOkToOk (i : Nat) (w : World) : World :=
  (unacknowledgeProblem i w).modifyCheckState i fun x =>
    if x.stateType = .soft ∧ x.lastState ≠ .pending then
      if x.isMaxAttempts (w.settings i).maxCheckAttempts then { x with stateType := .hard } else x
    else { x with attempt := 1, stateType := .hard }

def fromNonOkToOk (i : Nat) (chk : Check) (enableAction : Bool) : Sched Unit := do
  modify (unacknowledgeProblem i)
  if ((← get).checkState i).stateType = .soft then
    modify (addAttempt i chk)
    modify fun w => w.modifyCheckState i fun x => { x with stateType := .hard, attempt := 1 }
  else
    modify (raiseAgain conf env i .recovery enableAction)
    modify fun w => w.modifyCheckState i fun x => { x with attempt := 1 }
    noMoreAProblem conf i

def volatileNonOk (i : Nat) (enableAction : Bool) : Sched Unit := do
  modify fun w => w.modifyCheckState i fun x => { x with attempt := 1, stateType := .hard }
  checkForFlexibleDowntime conf env i
  modify (raiseAgain conf env i .problem enableAction)
  guarded enableAction (setMyselfAsProblem conf env i)

def enterHardProblem (i : Nat) (enableAction : Bool) : Sched Unit := do
  modify fun w => w.modifyCheckState i fun x => { x with stateType := .hard }
  modify (removeInProgressNotifications true i)
  checkForFlexibleDowntime conf env i
  if enableAction then
    modify fun w => createNotifications conf env i .problem (w.settings i).notificationPeriod w
    setMyselfAsProblem conf env i

def fromOkToNonOk (i : Nat) (enableAction : Bool) : Sched Unit := do
  modify fun w => w.modifyCheckState i fun x => { x with attempt := 1 }
  if isMaxAttempts (← get) i then enterHardProblem conf env i enableAction
  else modify fun w => w.modifyCheckState i fun x => { x with stateType := .soft }

def fromSoftNonOk (i : Nat) (chk : Check) (enableAction : Bool) : Sched Unit := do
  modify (addAttempt i chk)
  modify fun w =>
    if (w.checkState i).state ≠ (w.checkState i).lastState then unacknowledgeProblemIfNotSticky i w else w
  if isMaxAttempts (← get) i then enterHardProblem conf env i enableAction

def notifyHardNonOk (i : Nat) (enableAction : Bool) (w : World) : World :=
  if (w.checkState i).state ≠ (w.checkState i).lastState then
    let w := w.modifyCheckState i fun x => x.updateHardUnknownPhaseState
    if !(w.checkState i).inHardUnknownReachPhase ∧ !(w.checkState i).wasInHardUnknownReachPhase then
      raiseAgain conf env i .problem enableAction (unacknowledgeProblemIfNotSticky i w)
    else w
  else if (w.ack i).inScheduledDowntimeDuringLastCheck then raiseAgain conf env i .problem enableAction w
  else w

def fromHardNonOk (i : Nat) (enableAction : Bool) : Sched Unit := do
  modify (notifyHardNonOk conf env i enableAction)
  guarded enableAction (setMyselfAsProblem conf env i)
  modify fun w =>
    if enableAction ∧ (w.settings i).notificationsEnabled ∧ (w.alert i).currentNotificationNumber = 0 then
      raiseAgain conf env i .problem true w
    else w

def wasOk (w : World) (i : Nat) : Bool := okLike (conf.myType i) (w.checkState i).lastState

def isVolatile (i : Nat) : Bool := conf.myType i == .service && conf.isVolatile i

def changeState (i : Nat) (chk : Check) (enableAction : Bool) : Sched Unit := do
  let w ← get
  if chk.exitStatus = 0 then
    if wasOk conf w i then modify (fromOkToOk i) else fromNonOkToOk conf env i chk enableAction
  else if isVolatile conf i then volatileNonOk conf env i enableAction
  else if wasOk conf w i then fromOkToNonOk conf env i enableAction
  else if (w.checkState i).stateType = .soft then fromSoftNonOk conf env i chk enableAction
  else fromHardNonOk conf env i enableAction

def closeConsumption (i : Nat) (w : World) : World :=
  let w := w.modifyCheckState i fun x =>
    let x := x.updateHardUnknownPhaseState
    if x.stateType = .hard then { x with stateTypeId := 1, lastHardState := x.state, lastHardStateId := x.stateId }
    else { x with stateTypeId := 0 }
  w.modifyAck i fun a => { a with inScheduledDowntimeDuringLastCheck := false }

def mustWait (w : World) (c : Nat) : Bool :=
  (w.check c).exitStatus != 0 && (w.check c).status == .waitConsume && (conf.actDependOf (w.check c).ref) != []

def consumeResult (c : Nat) : Sched Unit := do
  if mustWait conf (← get) c then
    modify fun w => w.setCheck c { w.check c with status := .waitDepend }
  else
    modify (updateItemInformation conf env c)
    let w ← get
    modify (resolveDependencies conf env c)
    changeState conf env (w.check c).ref (w.check c) (enableAction conf w c)
    modify (closeConsumption (w.check c).ref)

end

/-! ## What a change of state keeps -/

section
variable {conf : Conf} {env : Env} {I : World → Prop} {E : Exn → Prop} {i : Nat}

theorem raiseAgain_still (t : NotificationType) (b : Bool) (w : World) : (raiseAgain conf env i t b w).still = w.still := by
  unfold raiseAgain
  simp only
  split <;> simp

theorem raiseAgain_quiet (t : NotificationType) (b : Bool) (w : World) : (raiseAgain conf env i t b w).quiet = w.quiet :=
  quiet_of_still (raiseAgain_still t b w)

theorem recordFlapping_still (stateCode : Char) (w : World) : (recordFlapping conf env i stateCode w).still = w.still := by
  unfold recordFlapping
  split <;> simp

theorem CheckState.recordStateChange_eq (x : CheckState) (t : ItemType) :
    x.recordStateChange t = { x with lastStateChange := (x.recordStateChange t).lastStateChange } := by
  unfold CheckState.recordStateChange
  split <;> rfl

theorem setState_quiet (conf : Conf) (env : Env) (i : Nat) (status : Int) (w : World) :
    (recordFlapping conf env i (stateOfExitStatus (conf.myType i) status).2.2 (takeState conf i status w)).quiet =
      (takeState conf i status w).quiet := quiet_of_still (recordFlapping_still _ _)

theorem takeState_quietRest (status : Int) (w : World) :
    (setStateFromExitStatus conf env i status w).settings = w.settings ∧
    (setStateFromExitStatus conf env i status w).problem = w.problem ∧
    (setStateFromExitStatus conf env i status w).downtime = w.downtime ∧
    (setStateFromExitStatus conf env i status w).check = w.check ∧
    (setStateFromExitStatus conf env i status w).nextDowntime = w.nextDowntime := by
  have hq := setState_quiet conf env i status w
  obtain ⟨h1, -, h3, h4, h5, h6⟩ := World.quiet_eq hq
  exact ⟨h1, h3, h4, h5, h6⟩

theorem setState_checkState (status : Int) (w : World) :
    (setStateFromExitStatus conf env i status w).checkState =
      ((takeState conf i status w).modifyCheckState i fun x => x.recordStateChange (conf.myType i)).checkState := by
  obtain ⟨-, h2, -⟩ := World.quiet_eq (setState_quiet conf env i status w)
  show Function.update _ _ _ = Function.update _ _ _
  rw [h2]

theorem updateItemInformation_rest (c : Nat) (w : World) :
    (updateItemInformation conf env c w).settings = w.settings ∧
    (updateItemInformation conf env c w).problem = w.problem ∧
    (updateItemInformation conf env c w).downtime = w.downtime ∧
    (updateItemInformation conf env c w).check =
      Function.update w.check c { w.check c with exitStatus := modulatedExitStatus conf env (w.check c) } ∧
    (updateItemInformation conf env c w).nextDowntime = w.nextDowntime := takeState_quietRest _ _

theorem updateItemInformation_other (c : Nat) (w : World) {j : Nat} (h : j ≠ (w.check c).ref) :
    (updateItemInformation conf env c w).checkState j = w.checkState j := by
  unfold updateItemInformation
  simp only
  rw [World.modifyCheckState_ne _ h, setState_checkState]
  unfold takeState
  rw [World.modifyCheckState_ne _ h, World.modifyCheckState_ne _ h, World.modifyCheckState_ne _ h]
  rfl

theorem updateItemInformation_self (c : Nat) (w : World) :
    let x := w.checkState (w.check c).ref
    let x' := (updateItemInformation conf env c w).checkState (w.check c).ref
    let result := stateOfExitStatus (conf.myType (w.check c).ref) (modulatedExitStatus conf env (w.check c))
    x'.state = result.1 ∧ x'.stateId = result.2.1 ∧
      x'.lastState = x.lastStateOf conf (w.problem (w.check c).ref).isImpact ∧
      x'.stateType = x.stateType ∧ x'.attempt = x.attempt ∧ x'.stateChangedSinceImpact = true ∧
      x'.lastChk = (w.check c).checkTime := by
  simp only
  unfold updateItemInformation
  simp only
  rw [World.modifyCheckState_self, setState_checkState]
  unfold takeState
  rw [World.modifyCheckState_self, World.modifyCheckState_self, World.modifyCheckState_self, CheckState.recordStateChange_eq]
  exact ⟨rfl, rfl, rfl, rfl, rfl, rfl, rfl⟩

theorem checkAndSetUnreachability_rest (conf : Conf) (env : Env) (i : Nat) (w : World) :
    (checkAndSetUnreachability conf env i w).settings = w.settings ∧
    (checkAndSetUnreachability conf env i w).problem = w.problem ∧
    (checkAndSetUnreachability conf env i w).downtime = w.downtime ∧
    (checkAndSetUnreachability conf env i w).check = w.check ∧
    (checkAndSetUnreachability conf env i w).nextDowntime = w.nextDowntime := by
  unfold checkAndSetUnreachability
  split <;> exact ⟨rfl, rfl, rfl, rfl, rfl⟩

theorem finishCheck_rest (c : Nat) (w : World) : (finishCheck c w).settings = w.settings ∧
    (finishCheck c w).checkState = w.checkState ∧ (finishCheck c w).problem = w.problem ∧
    (finishCheck c w).downtime = w.downtime ∧ (finishCheck c w).nextDowntime = w.nextDowntime := by
  unfold finishCheck
  simp only
  split <;> exact ⟨rfl, rfl, rfl, rfl, rfl⟩

theorem resolveDependencies_rest (c : Nat) (w : World) :
    (resolveDependencies conf env c w).settings = w.settings ∧
    (resolveDependencies conf env c w).problem = w.problem ∧
    (resolveDependencies conf env c w).downtime = w.downtime ∧
    (resolveDependencies conf env c w).nextDowntime = w.nextDowntime := by
  obtain ⟨h1, -, h3, h4, h5⟩ := finishCheck_rest c
    (if (w.check c).status = .waitDepend then checkAndSetUnreachability conf env (w.check c).ref w else w)
  obtain ⟨g1, g3, g4, -, g5⟩ := checkAndSetUnreachability_rest conf env (w.check c).ref w
  unfold resolveDependencies
  rw [h1, h3, h4, h5]
  split
  · exact ⟨g1, g3, g4, g5⟩
  · exact ⟨rfl, rfl, rfl, rfl⟩

theorem resolveDependencies_other (c : Nat) (w : World) {j : Nat} (h : j ≠ (w.check c).ref) :
    (resolveDependencies conf env c w).checkState j = w.checkState j := by
  unfold resolveDependencies checkAndSetUnreachability
  rw [(finishCheck_rest c _).2.1]
  split
  · split
    · exact World.modifyCheckState_ne w h
    · rfl
  · rfl

theorem resolveDependencies_self (c : Nat) (w : World) :
    (resolveDependencies conf env c w).checkState (w.check c).ref = w.checkState (w.check c).ref ∨
    (w.check c).status = .waitDepend ∧
      (resolveDependencies conf env c w).checkState (w.check c).ref = (w.checkState (w.check c).ref).setUnreachable env.now := by
  unfold resolveDependencies checkAndSetUnreachability
  rw [(finishCheck_rest c _).2.1]
  split
  · rename_i hd
    split
    · exact Or.inr ⟨hd, World.modifyCheckState_self w⟩
    · exact Or.inl rfl
  · exact Or.inl rfl

def CheckState.outcome (x : CheckState) := (x.state, x.stateBeforeImpact, x.stateChangedSinceImpact)

theorem CheckState.updateHardUnknown_same (x : CheckState) : x.updateHardUnknownPhaseState.outcome = x.outcome ∧
    x.updateHardUnknownPhaseState.stateType = x.stateType ∧ x.updateHardUnknownPhaseState.attempt = x.attempt := by
  unfold CheckState.updateHardUnknownPhaseState
  simp only
  split
  · exact ⟨rfl, rfl, rfl⟩
  · unfold CheckState.denyHardUnknownPhase CheckState.endHardUnknownPhase
    split <;> split <;> exact ⟨rfl, rfl, rfl⟩

theorem CheckState.updateHardUnknown_lastChk (x : CheckState) : x.updateHardUnknownPhaseState.lastChk = x.lastChk := by
  unfold CheckState.updateHardUnknownPhaseState
  simp only
  split
  · rfl
  · unfold CheckState.denyHardUnknownPhase CheckState.endHardUnknownPhase
    split <;> split <;> rfl

/-- The ways that `changeState` acts on the world. -/
structure KeptByMoves (conf : Conf) (env : Env) (I : World → Prop) (E : Exn → Prop) (i : Nat) : Prop where
  check : ∀ f s, (∀ x, (f x).outcome = x.outcome ∧ (f x).lastChk = x.lastChk) → I s → I (s.modifyCheckState i f)
  still : ∀ s s', s'.still = s.still → I s → I s'
  unacknowledge : ∀ s, I s → I (unacknowledgeProblem i s)
  flexible : Keeps I (checkForFlexibleDowntime conf env i) E
  recovery : Keeps I (noMoreAProblem conf i) E
  problem : Keeps I (setMyselfAsProblem conf env i) E

namespace KeptByMoves

theorem modifyStill {f : World → World} (h : KeptByMoves conf env I E i) (hf : ∀ s, (f s).still = s.still) :
    Keeps I (modify f) E := Keeps.modify fun s hs => h.still s _ (hf s) hs

theorem modifyCheck {f : CheckState → CheckState} (h : KeptByMoves conf env I E i)
    (hf : ∀ x, (f x).outcome = x.outcome ∧ (f x).lastChk = x.lastChk) : Keeps I (modify fun w => w.modifyCheckState i f) E :=
  Keeps.modify fun s hs => h.check f s hf hs

variable {chk : Check} {b : Bool}

theorem addAttempt (h : KeptByMoves conf env I E i) : Keeps I (modify (addAttempt i chk)) E := by
  refine Keeps.modify fun s hs => ?_
  unfold Scheduling.addAttempt
  split
  · exact hs
  · exact h.check _ s (fun _ => ⟨rfl, rfl⟩) hs

theorem unacknowledgeIfNotSticky {s : World} (h : KeptByMoves conf env I E i) (hs : I s) :
    I (unacknowledgeProblemIfNotSticky i s) := by
  unfold unacknowledgeProblemIfNotSticky
  split
  · split
    · exact hs
    · exact h.unacknowledge s hs
  · exact hs

theorem enterHard (h : KeptByMoves conf env I E i) : Keeps I (enterHardProblem conf env i b) E := by
  refine Keeps.bind (h.modifyCheck fun _ => ⟨rfl, rfl⟩) fun _ => Keeps.bind (h.modifyStill fun s => by simp) fun _ => ?_
  refine Keeps.bind h.flexible fun _ => Keeps.ite (fun _ => ?_) fun _ => Keeps.pure _
  exact Keeps.bind (h.modifyStill fun s => by simp) fun _ => h.problem

theorem notifyHard (h : KeptByMoves conf env I E i) : Keeps I (modify (notifyHardNonOk conf env i b)) E := by
  refine Keeps.modify fun s hs => ?_
  unfold notifyHardNonOk
  split
  · have hx : I (s.modifyCheckState i fun x => x.updateHardUnknownPhaseState) :=
      h.check _ s (fun x => ⟨x.updateHardUnknown_same.1, x.updateHardUnknown_lastChk⟩) hs
    simp only
    split
    · exact h.still _ _ (raiseAgain_still _ _ _) (h.unacknowledgeIfNotSticky hx)
    · exact hx
  · split
    · exact h.still _ _ (raiseAgain_still _ _ _) hs
    · exact hs

theorem fromOkToOk {s : World} (h : KeptByMoves conf env I E i) (hs : I (unacknowledgeProblem i s)) : I (fromOkToOk i s) := by
  refine h.check _ _ (fun x => ?_) hs
  split
  · split <;> exact ⟨rfl, rfl⟩
  · exact ⟨rfl, rfl⟩

theorem fromNonOkToOk {I₀ : World → Prop} (h : KeptByMoves conf env I E i)
    (h0 : ∀ s, I₀ s → I (unacknowledgeProblem i s)) : Leads I₀ (fromNonOkToOk conf env i chk b) I E := by
  refine Leads.bind (K := I) (Leads.modify h0) (fun _ => ?_) fun _ hs => hs
  refine Keeps.read fun w => Keeps.ite (fun _ => ?_) fun _ => ?_
  · exact Keeps.bind h.addAttempt fun _ => h.modifyCheck fun _ => ⟨rfl, rfl⟩
  · exact Keeps.bind (h.modifyStill fun s => raiseAgain_still _ _ s) fun _ =>
      Keeps.bind (h.modifyCheck fun _ => ⟨rfl, rfl⟩) fun _ => h.recovery

theorem changeStateFrom {I₀ : World → Prop} (h : KeptByMoves conf env I E i)
    (h0 : chk.exitStatus = 0 → ∀ s, I₀ s → I (unacknowledgeProblem i s)) (h1 : chk.exitStatus ≠ 0 → ∀ s, I₀ s → I s) :
    Leads I₀ (changeState conf env i chk b) I E := by
  refine Leads.readAt fun w hw => ?_
  by_cases he : chk.exitStatus = 0
  · rw [if_pos he]
    by_cases hok : wasOk conf w i = true
    · rw [if_pos hok]
      exact Leads.modify fun s e => e ▸ h.fromOkToOk (h0 he w hw)
    · rw [if_neg hok]
      exact (h.fromNonOkToOk (h0 he)).pre fun s e => e ▸ hw
  · rw [if_neg he]
    refine Leads.pre (I := I) ?_ fun s e => e ▸ h1 he w hw
    refine Keeps.ite (fun _ => ?_) fun _ => Keeps.ite (fun _ => ?_) fun _ => Keeps.ite (fun _ => ?_) fun _ => ?_
    · refine Keeps.bind (h.modifyCheck fun _ => ⟨rfl, rfl⟩) fun _ => Keeps.bind h.flexible fun _ => ?_
      exact Keeps.bind (h.modifyStill fun s => raiseAgain_still _ _ s) fun _ => Keeps.guarded fun _ => h.problem
    · refine Keeps.bind (h.modifyCheck fun _ => ⟨rfl, rfl⟩) fun _ => Keeps.read fun w => Keeps.ite (fun _ => h.enterHard) fun _ => ?_
      exact h.modifyCheck fun _ => ⟨rfl, rfl⟩
    · refine Keeps.bind h.addAttempt fun _ => Keeps.bind (Keeps.modify fun s hs => ?_) fun _ => Keeps.read fun w => ?_
      · split
        · exact h.unacknowledgeIfNotSticky hs
        · exact hs
      · exact Keeps.ite (fun _ => h.enterHard) fun _ => Keeps.pure _
    · refine Keeps.bind h.notifyHard fun _ => Keeps.bind (Keeps.guarded fun _ => h.problem) fun _ => ?_
      refine h.modifyStill fun s => ?_
      split
      · exact raiseAgain_still _ _ s
      · rfl

end KeptByMoves

/-- The ways that `changeState` acts on the world, for what no acknowledgement
changes. -/
structure KeptByParts (conf : Conf) (env : Env) (I : World → Prop) (E : Exn → Prop) (i : Nat) : Prop where
  check : ∀ f s, (∀ x, (f x).outcome = x.outcome ∧ (f x).lastChk = x.lastChk) → I s → I (s.modifyCheckState i f)
  quiet : ∀ s s', s'.quiet = s.quiet → I s → I s'
  flexible : Keeps I (checkForFlexibleDowntime conf env i) E
  recovery : Keeps I (noMoreAProblem conf i) E
  problem : Keeps I (setMyselfAsProblem conf env i) E

theorem KeptByParts.moves (h : KeptByParts conf env I E i) : KeptByMoves conf env I E i where
  check := h.check
  still := fun s s' hs => h.quiet s s' (quiet_of_still hs)
  unacknowledge := fun s => h.quiet s _ (unacknowledgeProblem_quiet i s)
  flexible := h.flexible
  recovery := h.recovery
  problem := h.problem

theorem KeptByParts.changeState {chk : Check} {b : Bool} (h : KeptByParts conf env I E i) :
    Keeps I (changeState conf env i chk b) E :=
  h.moves.changeStateFrom (fun _ => h.moves.unacknowledge) fun _ _ hs => hs

end

/-! ## The way of a result -/

def resolved (conf : Conf) (env : Env) (c : Nat) (w : World) : World :=
  resolveDependencies conf env c (updateItemInformation conf env c w)

def hardRecovery (conf : Conf) (env : Env) (w : World) (c : Nat) : Bool :=
  let i := (w.check c).ref
  !mustWait conf w c && modulatedExitStatus conf env (w.check c) == 0 &&
    !wasOk conf (resolved conf env c w) i && ((resolved conf env c w).checkState i).stateType == .hard

def reachesHard (conf : Conf) (w : World) (i : Nat) (chk : Check) : Bool :=
  chk.exitStatus != 0 && (isVolatile conf i ||
    if wasOk conf w i then decide ((w.settings i).maxCheckAttempts ≤ 1)
    else (w.checkState i).stateType == .hard || isMaxAttempts (addAttempt i chk w) i)

def takenCheck (conf : Conf) (env : Env) (w : World) (c : Nat) : Check :=
  { w.check c with exitStatus := modulatedExitStatus conf env (w.check c) }

def hardProblem (conf : Conf) (env : Env) (w : World) (c : Nat) : Bool :=
  !mustWait conf w c && reachesHard conf (resolved conf env c w) (w.check c).ref (takenCheck conf env w c)

theorem updateItemInformation_taken (conf : Conf) (env : Env) (c : Nat) (w : World) :
    (updateItemInformation conf env c w).check c = takenCheck conf env w c := by
  rw [(updateItemInformation_rest c w).2.2.2.1, Function.update_self]
  rfl

theorem leads_hardRecovery {conf : Conf} {env : Env} {w : World} {k : Nat} {J : World → Prop}
    (hr : hardRecovery conf env w k = true)
    (h : Leads (· = unacknowledgeProblem (w.check k).ref (resolved conf env k w))
      (do
        modify (raiseAgain conf env (w.check k).ref .recovery (enableAction conf (updateItemInformation conf env k w) k))
        modify fun w' => w'.modifyCheckState (w.check k).ref fun x => { x with attempt := 1 }
        noMoreAProblem conf (w.check k).ref) J)
    (hJ : ∀ s, J s → J (closeConsumption (w.check k).ref s)) : Leads (· = w) (consumeResult conf env k) J := by
  unfold hardRecovery at hr
  simp only [Bool.and_eq_true, Bool.not_eq_true', beq_iff_eq] at hr
  obtain ⟨⟨⟨hm, he⟩, hok⟩, hst⟩ := hr
  refine Leads.readAt fun s e => ?_
  subst e
  rw [if_neg (by rw [hm]; decide)]
  refine leads_step (Leads.readAt fun s' e => ?_)
  subst e
  rw [updateItemInformation_taken]
  refine leads_step (Leads.bind (Leads.readAt fun s' e => ?_) (fun _ => Leads.modify hJ) fun _ hs => hs)
  have hok' : wasOk conf s' (takenCheck conf env s k).ref = false := by rw [e]; exact hok
  have he' : (takenCheck conf env s k).exitStatus = 0 := he
  rw [if_pos he', if_neg fun hw => absurd (hok'.symm.trans hw) (by decide)]
  have e' : s' = resolved conf env k s := e
  subst e'
  refine leads_step (Leads.readAt fun s' e => ?_)
  subst e
  have hst' : ((unacknowledgeProblem (takenCheck conf env s k).ref (resolved conf env k s)).checkState
      (takenCheck conf env s k).ref).stateType = .hard := by
    obtain ⟨-, hq, -⟩ := World.quiet_eq (unacknowledgeProblem_quiet (takenCheck conf env s k).ref (resolved conf env k s))
    rw [hq]
    exact hst
  rw [if_neg fun hs => absurd (hst'.symm.trans hs) (by decide)]
  exact h

end Alignak.Scheduling
