import Alignak.Effect
import Alignak.Notifications

/-!
# Downtimes

A downtime is an object of its item's table. `enter`, `exit` and `cancel` move
the depth of the item, and mark the downtime for the deletion that the next
`update_downtimes_and_comments` makes.
-/

namespace Alignak.Scheduling

/-- `Downtime.__init__`: `triggerId` is none for `''` and `'0'`. -/
def Downtime.create (ref : Nat) (fixed : Bool) (startTime endTime duration : Int) (triggerId : Option Nat) : Downtime :=
  let fixed := if triggerId.isSome then false else fixed
  { ref := ref, fixed := fixed, startTime := startTime, endTime := endTime, realEndTime := endTime
    duration := if fixed then endTime - startTime else duration
    triggerId := triggerId, activateMe := [], isInEffect := false, canBeDeleted := false }

namespace World

variable (w : World)

def downtime? (i d : Nat) : Option Downtime := (w.downtime i).downtimes.get? d

def addDowntime (i d : Nat) (x : Downtime) : World :=
  w.modifyDowntime i fun s => { s with downtimes := s.downtimes.set d x }

def changeDowntime (i d : Nat) (f : Downtime → Downtime) : World :=
  match w.downtime? i d with
  | some x => w.addDowntime i d (f x)
  | none => w

/-- The source sets `can_be_deleted` here too, on an object that no table holds
any more. -/
def delDowntime (i d : Nat) : World := w.modifyDowntime i fun s => { s with downtimes := s.downtimes.erase d }

def changeDepth (i : Nat) (n : Int) : World :=
  w.modifyDowntime i fun s => { s with scheduledDowntimeDepth := s.scheduledDowntimeDepth + n }

def delDowntimeComment (i : Nat) (commentId : Option Nat) : World :=
  match commentId with
  | some c => w.delComment i c
  | none => w

def setInScheduledDowntime (i : Nat) (b : Bool) : World := w.modifyDowntime i fun s => { s with inScheduledDowntime := b }

end World

section
variable (conf : Conf) (env : Env)

def raiseEnterDowntime (i : Nat) (w : World) : World :=
  if (w.downtime i).scheduledDowntimeDepth = 1 then
    let period := (w.settings i).notificationPeriod
    let w := createNotifications conf env i .downtimeStart period w
    if conf.myType i = .host then acknowledgeProblem conf env i period 2 1 0 w else w
  else w

/-- The object is entry `d` of item `i`. -/
def Downtime.enter : Nat → Nat → Nat → Sched Unit
  | 0, _, _ => throw .diverges
  | fuel + 1, i, d => do
    match (← get).downtime? i d with
    | none => throw .keyError
    | some x =>
      modify fun w => w.addDowntime i d
        { x with isInEffect := true, realEndTime := if x.fixed then x.realEndTime else env.now + x.duration }
      modify fun w => (w.changeDepth x.ref 1).setInScheduledDowntime x.ref true
      modify (raiseEnterDowntime conf env x.ref)
      x.activateMe.forM fun c => conf.allMyHostsAndServices.forM fun j => do
        if ((← get).downtime? j c).isSome then Downtime.enter fuel j c

def enterDowntime (i d : Nat) : Sched Unit := do Downtime.enter conf env ((← get).nextDowntime + 1) i d

def endDowntime (i : Nat) (w : World) : World :=
  let w := w.changeDepth i (-1)
  if (w.downtime i).scheduledDowntimeDepth = 0 then
    (createNotifications conf env i .downtimeEnd (w.settings i).notificationPeriod w).setInScheduledDowntime i false
  else w

def Downtime.exit (i d : Nat) (w : World) : World :=
  match w.downtime? i d with
  | none => w
  | some x =>
    let w := if x.isInEffect then
      endDowntime conf env x.ref (w.changeDowntime i d fun x => { x with isInEffect := false }) else w
    ((w.delDowntimeComment x.ref x.commentId).changeDowntime i d fun x => { x with canBeDeleted := true }).modifyAck x.ref fun a =>
      { a with inScheduledDowntimeDuringLastCheck := true }

def cancelDepth (i : Nat) (w : World) : World :=
  let w := w.changeDepth i (-1)
  if (w.downtime i).scheduledDowntimeDepth = 0 then w.setInScheduledDowntime i false else w

/-- The triggered downtimes are kept by their identifiers, and a string has no
`cancel`. -/
def Downtime.cancel (i d : Nat) : Sched Unit := do
  match (← get).downtime? i d with
  | none => throw .keyError
  | some x =>
    modify fun w => cancelDepth x.ref (w.changeDowntime i d fun x => { x with isInEffect := false })
    modify fun w => ((w.delDowntimeComment x.ref x.commentId).changeDowntime i d fun x =>
      { x with commentId := none, canBeDeleted := true }).modifyAck x.ref fun a =>
      { a with inScheduledDowntimeDuringLastCheck := true }
    if x.activateMe ≠ [] then throw .attributeError

def Downtime.activable (x : Downtime) (c : CheckState) : Bool :=
  !(x.fixed || x.isInEffect) &&
    decide (x.startTime ≤ c.lastChk) && decide (c.lastChk ≤ x.endTime) && c.stateId != 0 && x.triggerId.isNone

def checkForFlexibleDowntime (i : Nat) : Sched Unit := do
  ((← get).downtime i).downtimes.keys.forM fun d => do
    let w ← get
    match w.downtime? i d with
    | none => throw .keyError
    | some x => if x.activable (w.checkState i) then enterDowntime conf env i d

/-! ## The pass of each tick -/

def newDowntime (i : Nat) (x : Downtime) (w : World) : World :=
  { (w.addComment i ⟨i, 2⟩).addDowntime i w.nextDowntime { x with commentId := some w.nextComment } with
    nextDowntime := w.nextDowntime + 1 }

def checkMaintenance (i : Nat) : Sched Unit := do
  let w ← get
  match (w.settings i).maintenancePeriod, (w.downtime i).inMaintenance with
  | none, _ => pure ()
  | some p, none =>
    if env.isTimeValid p env.now then
      match env.getNextValidTime p env.now with
      | none => throw .typeError
      | some startDt =>
        match env.getNextInvalidTime p (startDt + 1) with
        | none => throw .typeError
        | some endDt => do
          modify (newDowntime i (Downtime.create i true startDt (endDt - 1) 0 none))
          modify fun w' => w'.modifyDowntime i fun s => { s with inMaintenance := some w.nextDowntime }
  | some _, some d =>
    if (w.downtime? i d).isNone then modify fun w => w.modifyDowntime i fun s => { s with inMaintenance := none }

def deleteMarked (i : Nat) (w : World) : World :=
  (w.downtime i).downtimes.keys.foldl (fun w d =>
    match w.downtime? i d with
    | some x => if x.canBeDeleted then w.delDowntime i d else w
    | none => w) w

def checkStartStop (i d : Nat) : Sched Unit := do
  match (← get).downtime? i d with
  | none => throw .keyError
  | some x =>
    if x.realEndTime < env.now then modify (Downtime.exit conf env i d)
    else if x.startTime ≤ env.now ∧ x.fixed ∧ !x.isInEffect then enterDowntime conf env i d

def updateDowntimesAndComments : Sched Unit := do
  conf.allMyHostsAndServices.forM (checkMaintenance env)
  modify fun w => conf.allMyHostsAndServices.foldl (fun w i => deleteMarked i w) w
  conf.allMyHostsAndServices.forM fun i => do
    ((← get).downtime i).downtimes.keys.forM (checkStartStop conf env i)

/-! ## The commands -/

def itemsOfType (t : ItemType) : List Nat :=
  match t with
  | .host => conf.hosts
  | .service => conf.services

/-- `schedule_host_downtime` and `schedule_svc_downtime`. -/
def scheduleDowntime (i : Nat) (fixed : Bool) (startTime endTime duration : Int) (triggerId : Option Nat) : Sched Unit := do
  let uuid := (← get).nextDowntime
  modify (newDowntime i (Downtime.create i fixed startTime endTime duration triggerId))
  match triggerId with
  | none => pure ()
  | some t => (itemsOfType conf (conf.myType i)).forM fun j => do
      if ((← get).downtime? j t).isSome then
        if ((← get).downtime? i t).isNone then throw .keyError
        else modify fun w => w.changeDowntime i t fun x => { x with activateMe := x.activateMe ++ [uuid] }

/-- `del_host_comment` and `del_svc_comment`. -/
def delCommentCommand (t : ItemType) (c : Nat) (w : World) : World :=
  match (itemsOfType conf t).find? fun i => ((w.comments i).get? c).isSome with
  | none => w
  | some i => w.delComment i c

/-- `del_all_host_comments` and `del_all_svc_comments`. -/
def delAllComments (i : Nat) (w : World) : World := (w.comments i).keys.foldl (fun w c => w.delComment i c) w

/-- `del_host_downtime` and `del_svc_downtime`. -/
def delDowntimeCommand (t : ItemType) (d : Nat) : Sched Unit := do
  let w ← get
  match (itemsOfType conf t).find? fun i => (w.downtime? i d).isSome with
  | none => pure ()
  | some i => Downtime.cancel i d

end

/-! ## What they leave -/

def World.core (w : World) := (w.settings, w.checkState, w.problem, w.check)

theorem World.core_eq {w w' : World} (h : w'.core = w.core) : w'.settings = w.settings ∧ w'.checkState = w.checkState ∧
    w'.problem = w.problem ∧ w'.check = w.check := by
  simpa only [World.core, Prod.mk.injEq] using h

theorem core_of_quiet {w w' : World} (h : w'.quiet = w.quiet) : w'.core = w.core := by
  obtain ⟨h1, h2, h3, -, h5, -⟩ := World.quiet_eq h
  simp only [World.core, h1, h2, h3, h5]

section
variable {conf : Conf} {env : Env}

theorem changeDowntime_core (w : World) (i d : Nat) (f : Downtime → Downtime) : (w.changeDowntime i d f).core = w.core := by
  unfold World.changeDowntime
  split <;> rfl

theorem delDowntimeComment_quiet (w : World) (i : Nat) (c : Option Nat) : (w.delDowntimeComment i c).quiet = w.quiet := by
  cases c <;> rfl

theorem delDowntimeComment_core (w : World) (i : Nat) (c : Option Nat) : (w.delDowntimeComment i c).core = w.core :=
  core_of_quiet (delDowntimeComment_quiet w i c)

theorem delCommentCommand_quiet (t : ItemType) (c : Nat) (w : World) : (delCommentCommand conf t c w).quiet = w.quiet := by
  unfold delCommentCommand
  split <;> rfl

theorem delAllComments_quiet (i : Nat) (w : World) : (delAllComments i w).quiet = w.quiet :=
  foldl_same (p := World.quiet) (fun w c => delComment_quiet i c w) _ w

theorem raiseEnterDowntime_quiet (i : Nat) (w : World) : (raiseEnterDowntime conf env i w).quiet = w.quiet := by
  unfold raiseEnterDowntime
  split
  · simp only
    split <;> simp
  · rfl

theorem enter_core : ∀ fuel i d, Unchanged World.core (Downtime.enter conf env fuel i d)
  | 0, _, _ => Unchanged.throw _
  | fuel + 1, i, d => by
    unfold Downtime.enter
    refine Unchanged.bind Unchanged.get fun w => ?_
    cases w.downtime? i d with
    | none => exact Unchanged.throw _
    | some x =>
      refine Unchanged.bind (Unchanged.modify fun _ => rfl) fun _ => ?_
      refine Unchanged.bind (Unchanged.modify fun _ => rfl) fun _ => ?_
      refine Unchanged.bind (Unchanged.modify fun w => core_of_quiet (raiseEnterDowntime_quiet _ w)) fun _ => ?_
      refine Unchanged.forM fun c _ => Unchanged.forM fun j _ => Unchanged.bind Unchanged.get fun w => ?_
      exact Unchanged.ite (enter_core fuel j c) (Unchanged.pure _)

theorem enterDowntime_core (i d : Nat) : Unchanged World.core (enterDowntime conf env i d) :=
  Unchanged.bind Unchanged.get fun _ => enter_core _ i d

theorem endDowntime_core (i : Nat) (w : World) : (endDowntime conf env i w).core = w.core := by
  unfold endDowntime
  simp only
  split
  · have h : (createNotifications conf env i .downtimeEnd (w.settings i).notificationPeriod (w.changeDepth i (-1))).quiet =
        (w.changeDepth i (-1)).quiet := createNotifications_quiet ..
    have hc := core_of_quiet h
    exact hc
  · rfl

theorem exit_core (i d : Nat) (w : World) : (Downtime.exit conf env i d w).core = w.core := by
  unfold Downtime.exit
  split
  · rfl
  · simp only
    refine (changeDowntime_core _ i d _).trans ((delDowntimeComment_core _ _ _).trans ?_)
    split
    · exact (endDowntime_core _ _).trans (changeDowntime_core w i d _)
    · rfl

theorem cancelDepth_core (i : Nat) (w : World) : (cancelDepth i w).core = w.core := by
  unfold cancelDepth
  simp only
  split <;> rfl

theorem cancel_core (i d : Nat) : Unchanged World.core (Downtime.cancel i d) := by
  unfold Downtime.cancel
  refine Unchanged.bind Unchanged.get fun w => ?_
  cases w.downtime? i d with
  | none => exact Unchanged.throw _
  | some x =>
    refine Unchanged.bind (Unchanged.modify fun w => (cancelDepth_core _ _).trans (changeDowntime_core w i d _)) fun _ => ?_
    refine Unchanged.bind (Unchanged.modify fun w => ?_) fun _ => Unchanged.ite (Unchanged.throw _) (Unchanged.pure _)
    exact (changeDowntime_core _ i d _).trans (delDowntimeComment_core w _ _)

theorem checkForFlexibleDowntime_core (i : Nat) : Unchanged World.core (checkForFlexibleDowntime conf env i) := by
  refine Unchanged.bind Unchanged.get fun w => Unchanged.forM fun d _ => Unchanged.bind Unchanged.get fun w => ?_
  cases w.downtime? i d with
  | none => exact Unchanged.throw _
  | some x => exact Unchanged.ite (enterDowntime_core i d) (Unchanged.pure _)

theorem checkMaintenance_core (i : Nat) : Unchanged World.core (checkMaintenance env i) := by
  refine Unchanged.bind Unchanged.get fun w => ?_
  split
  · exact Unchanged.pure _
  · refine Unchanged.ite ?_ (Unchanged.pure _)
    split
    · exact Unchanged.throw _
    · split
      · exact Unchanged.throw _
      · exact Unchanged.bind (Unchanged.modify fun _ => rfl) fun _ => Unchanged.modify fun _ => rfl
  · exact Unchanged.ite (Unchanged.modify fun _ => rfl) (Unchanged.pure _)

theorem deleteMarked_core (i : Nat) (w : World) : (deleteMarked i w).core = w.core := by
  refine foldl_same (p := World.core) (fun w d => ?_) _ w
  split
  · split <;> rfl
  · rfl

theorem checkStartStop_core (i d : Nat) : Unchanged World.core (checkStartStop conf env i d) := by
  refine Unchanged.bind Unchanged.get fun w => ?_
  cases w.downtime? i d with
  | none => exact Unchanged.throw _
  | some x =>
    exact Unchanged.ite (Unchanged.modify fun w => exit_core i d w) (Unchanged.ite (enterDowntime_core i d) (Unchanged.pure _))

theorem updateDowntimesAndComments_core : Unchanged World.core (updateDowntimesAndComments conf env) := by
  refine Unchanged.bind (Unchanged.forM fun i _ => checkMaintenance_core i) fun _ => ?_
  refine Unchanged.bind (Unchanged.modify fun w => foldl_same (p := World.core) (fun w i => deleteMarked_core i w) _ w) fun _ => ?_
  exact Unchanged.forM fun i _ => Unchanged.bind Unchanged.get fun w => Unchanged.forM fun d _ => checkStartStop_core i d

theorem scheduleDowntime_core (i : Nat) (fixed : Bool) (startTime endTime duration : Int) (triggerId : Option Nat) :
    Unchanged World.core (scheduleDowntime conf i fixed startTime endTime duration triggerId) := by
  refine Unchanged.bind Unchanged.get fun w => Unchanged.bind (Unchanged.modify fun _ => rfl) fun _ => ?_
  cases triggerId with
  | none => exact Unchanged.pure _
  | some t =>
    refine Unchanged.forM fun j _ => Unchanged.bind Unchanged.get fun w => Unchanged.ite ?_ (Unchanged.pure _)
    refine Unchanged.bind Unchanged.get fun w => Unchanged.ite (Unchanged.throw _) ?_
    exact Unchanged.modify fun w => changeDowntime_core w i t _

theorem delDowntimeCommand_core (t : ItemType) (d : Nat) : Unchanged World.core (delDowntimeCommand conf t d) := by
  refine Unchanged.bind Unchanged.get fun w => ?_
  split
  · exact Unchanged.pure _
  · exact cancel_core _ d

end

end Alignak.Scheduling
