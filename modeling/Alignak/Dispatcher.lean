import Alignak.SatelliteLink

/-!
# The dispatcher

The arbiter prepares the configuration parts of the realms for the schedulers
and for their satellites, sends them, and checks that the daemons manage what
they were given.
-/

namespace Alignak.Dispatching

inductive SatType
  | reactionner
  | poller
  | broker
  | receiver
  deriving DecidableEq, Repr

def SatType.all : List SatType := [.reactionner, .poller, .broker, .receiver]

structure Realm where
  parts : List Nat
  nodup : parts.Nodup
  schedulers : List Nat
  potentialSchedulers : List Nat
  satellites : SatType → List Nat
  potentialSatellites : SatType → List Nat
  nbOfMustHave : SatType → Nat

structure Conf where
  arbiterLink : Nat
  arbiters : List Nat
  schedulers : List Nat
  reactionners : List Nat
  pollers : List Nat
  brokers : List Nat
  receivers : List Nat
  realms : List Realm
  active : Nat → Bool
  spare : Nat → Bool
  maxCheckAttempts : Nat → Int
  pollingInterval : Nat → Int
  nodup : (reactionners ++ pollers ++ brokers ++ receivers ++ schedulers ++ arbiters).Nodup
  disjoint : realms.Pairwise fun realm realm' => ∀ p ∈ realm.parts, p ∉ realm'.parts

def Conf.allSatellites (conf : Conf) : List Nat := conf.reactionners ++ conf.pollers ++ conf.brokers ++ conf.receivers

def Conf.allDaemonsLinks (conf : Conf) : List Nat := conf.allSatellites ++ conf.schedulers ++ conf.arbiters

structure ToSatellites where
  toSatellite : Option SatSchedulerCfg
  needDispatch : Bool
  managedBy : List Nat
  deriving DecidableEq, Repr

structure World where
  link : Nat → SatelliteLink
  part : Nat → Part
  toSatellites : Nat → SatType → Nat → Option ToSatellites
  notConfigured : List Nat
  dispatchOk : Bool
  newToDispatch : Bool
  firstDispatchDone : Bool

abbrev Dispatch := EStateM Raised World

/-- What one call reads from outside: the clock, the hash of a serialized part
and the responses of the daemons. -/
structure Env where
  now : Int
  flavor : Nat → Nat
  managedConfigurations : Nat → Response (List Managed)
  pushConfiguration : Nat → Response Unit
  doNotRun : Nat → Response Unit

namespace World

variable (w : World)

def modifyLink (i : Nat) (f : SatelliteLink → SatelliteLink) : World := { w with link := Function.update w.link i (f (w.link i)) }

def modifyPart (p : Nat) (f : Part → Part) : World := { w with part := Function.update w.part p (f (w.part p)) }

def setToSatellites (k : Nat) (t : SatType) (p : Nat) (x : ToSatellites) : World :=
  { w with toSatellites := fun k' t' p' => if k' = k ∧ t' = t ∧ p' = p then some x else w.toSatellites k' t' p' }

def setAllToSatellites (k p : Nat) (x : ToSatellites) : World :=
  { w with toSatellites := fun k' t' p' => if k' = k ∧ p' = p then some x else w.toSatellites k' t' p' }

end World

section
variable (conf : Conf) (env : Env)

/-! ## Calls to a daemon -/

def validConnection {α : Type} (i : Nat) (call : Dispatch (Answer α)) : Dispatch (Answer α) := do
  let w ← get
  if !(w.link i).con || (w.link i).runningId == 0 then throw .linkError else call

def answer {α : Type} (i : Nat) : Except HTTPClientException (Answer α) → Dispatch (Answer α)
  | .ok a => pure a
  | .error .connection => do
    modify fun w => w.modifyLink i fun x => x.setDead
    return .none
  | .error .timeout => do
    modify fun w => w.modifyLink i fun x => x.addFailedCheckAttempt (conf.maxCheckAttempts i)
    return .false
  | .error .data => throw .systemExit
  | .error .other => do
    modify fun w => w.modifyLink i fun x => x.addFailedCheckAttempt (conf.maxCheckAttempts i)
    return .none

def communicate {α : Type} (i : Nat) (call : Dispatch (Except HTTPClientException (Answer α))) : Dispatch (Answer α) := do
  let w ← get
  if !(w.link i).alive then return .none
  else if !(w.link i).reachable then
    modify fun w => w.modifyLink i fun x => x.addFailedCheckAttempt (conf.maxCheckAttempts i)
    return .false
  else answer conf i (← call)

def getConf (i : Nat) : Dispatch (Answer (List Managed)) :=
  validConnection i <| communicate conf i do
    match (env.managedConfigurations i).request with
    | .ok managed =>
      modify fun w => w.modifyLink i fun x => { x with cfgManaged := some managed }
      return .ok (.got managed)
    | .error e => return .error e

def updateInfos (forced : Bool) (i : Nat) : Dispatch (Answer (List Managed)) :=
  validConnection i <| communicate conf i do
    let x := (← get).link i
    if !forced && x.lastCheck != 0 && decide (env.now < x.lastCheck + conf.pollingInterval i) then return .ok .none
    else
      let _ ← getConf conf env i
      modify fun w => w.modifyLink i fun x => { x with lastCheck := env.now }
      match ((← get).link i).cfgManaged with
      | none => return .ok .none
      | some managed => return .ok (.got managed)

def putConf (i : Nat) : Dispatch (Answer Unit) := do
  modify fun w => w.modifyLink i fun x => { x with putConfDone := false }
  validConnection i <| communicate conf i do
    match (env.pushConfiguration i).request with
    | .ok content =>
      modify fun w => w.modifyLink i fun x => { x with putConfDone := true }
      return .ok (.got content)
    | .error e => return .error e

/-- `ArbiterLink.do_not_run`, which no decorator protects. -/
def doNotRun (i : Nat) : Dispatch Unit := do
  if !((← get).link i).con then throw .attributeError
  else match (env.doNotRun i).request with
    | .ok _ => return ()
    | .error .connection =>
      modify fun w => w.modifyLink i fun x => (x.addFailedCheckAttempt (conf.maxCheckAttempts i)).setDead
    | .error _ => modify fun w => w.modifyLink i fun x => x.addFailedCheckAttempt (conf.maxCheckAttempts i)

/-! ## Preparing -/

def potentialLinks (satellites own potential : List Nat) : List Nat :=
  let matching := satellites.filter (· ∈ own)
  if matching ≠ [] then matching else satellites.filter (· ∈ potential)

def masterThenSpare (links : List Nat) : List Nat := links.filter (!conf.spare ·) ++ links.filter conf.spare

def Realm.schedulerLinks (realm : Realm) : List Nat :=
  potentialLinks (masterThenSpare conf conf.schedulers) realm.schedulers realm.potentialSchedulers

def Realm.satelliteLinks (realm : Realm) (t : SatType) : List Nat :=
  potentialLinks conf.allSatellites (realm.satellites t) (realm.potentialSatellites t)

def prepareArbiter (w : World) (i : Nat) : World :=
  if !conf.active i then w
  else w.modifyLink i fun x => { x with cfgToManage := some .whole, needConf := false, configurationSent := false }

def popScheduler (w : World) : List Nat → Option Nat × List Nat
  | [] => (none, [])
  | s :: rest => if (w.link s).needConf then (some s, rest) else popScheduler w rest

def noScheduler (k p : Nat) (w : World) : World := w.setAllToSatellites k p ⟨none, false, []⟩

def assignTo (k p s : Nat) (w : World) : World :=
  let satSchedulerCfg : SatSchedulerCfg := ⟨s, p, env.flavor p⟩
  let w := w.modifyPart p fun _ => ⟨true, some s, env.flavor p⟩
  let w := w.setAllToSatellites k p ⟨some satSchedulerCfg, true, []⟩
  w.modifyLink s fun x =>
    { x with cfgToManage := some (.part p), needConf := false, configurationSent := false
             schedulers := Dict.empty.set s (some satSchedulerCfg) }

/-- The schedulers that are left are the reverse of the source's list. -/
def assignPart (k : Nat) (assigned : List Nat × World) (p : Nat) : List Nat × World :=
  match popScheduler assigned.2 assigned.1 with
  | (some s, rest) => (rest, assignTo env k p s assigned.2)
  | (none, rest) => (rest, noScheduler k p assigned.2)

def giveToSatellite (p : Nat) (x : ToSatellites) (i : Nat) (w : World) : World :=
  w.modifyLink i fun l =>
    { l with cfgToManage := some (.part p), needConf := false, configurationSent := false
             schedulers := l.schedulers.set p x.toSatellite }

def prepareSatellite (k : Nat) (realm : Realm) (p : Nat) (t : SatType) (prepared : Nat × World) (i : Nat) : Nat × World :=
  match prepared.2.toSatellites k t p with
  | none => prepared
  | some x =>
    if !conf.active i then prepared
    else
      let nbCfgPrepared := prepared.1 + 1
      (nbCfgPrepared, (giveToSatellite p x i prepared.2).setToSatellites k t p
        { x with managedBy := x.managedBy ++ [i]
                 needDispatch := x.needDispatch && nbCfgPrepared != realm.nbOfMustHave t })

/-- The satellites of one type, for one part; `none` where the source returns
from `prepare_dispatch`. -/
def prepareSatellites (k : Nat) (realm : Realm) (w : World) (job : Nat × SatType) : Option World :=
  match w.toSatellites k job.2 job.1 with
  | none => none
  | some x =>
    if !x.needDispatch then none
    else some ((realm.satelliteLinks conf job.2).foldl (prepareSatellite conf k realm job.1 job.2) (0, w)).2

def untilReturn {α : Type} (turn : World → α → Option World) : List α → World → Bool × World
  | [], w => (false, w)
  | a :: l, w =>
    match turn w a with
    | none => (true, w)
    | some w => untilReturn turn l w

def partsToDispatch (realm : Realm) (w : World) : List Nat := realm.parts.filter fun p => !(w.part p).isAssigned

def assignParts (k : Nat) (realm : Realm) (w : World) : World :=
  ((partsToDispatch realm w).foldl (assignPart env k) ((realm.schedulerLinks conf).reverse, w)).2

def satelliteJobs (parts : List Nat) : List (Nat × SatType) := parts.flatMap fun p => SatType.all.map fun t => (p, t)

def prepareRealm (k : Nat) (realm : Realm) (w : World) : Bool × World :=
  if partsToDispatch realm w = [] then (false, w)
  else if realm.schedulerLinks conf = [] then (false, w)
  else untilReturn (prepareSatellites conf k realm) (satelliteJobs realm.parts) (assignParts conf env k realm w)

def prepareRealms : List (Realm × Nat) → World → Bool × World
  | [], w => (false, w)
  | (realm, k) :: realms, w =>
    match prepareRealm conf env k realm w with
    | (true, w) => (true, w)
    | (false, w) => prepareRealms realms w

def closePreparation (w : World) : World :=
  conf.schedulers.foldl (fun w s =>
    if (w.link s).cfgToManage = none then w.modifyLink s fun x => { x with needConf := false } else w) w

def prepared (w : World) : World :=
  let w := (masterThenSpare conf conf.arbiters).foldl (prepareArbiter conf) { w with newToDispatch := true, firstDispatchDone := false }
  match prepareRealms conf env conf.realms.zipIdx w with
  | (true, w) => w
  | (false, w) => closePreparation conf w

def prepareDispatch : Dispatch Unit := do
  if (← get).newToDispatch then throw .dispatcherError
  else modify (prepared conf env)

/-! ## Sending -/

def dispatchToArbiter (i : Nat) : Dispatch Unit := do
  let x := (← get).link i
  if i = conf.arbiterLink ∨ !conf.active i ∨ !conf.spare i ∨ x.configurationSent ∨ !x.reachable then return ()
  else
    let _ ← putConf conf env i
    modify fun w => w.modifyLink i fun x => { x with configurationSent := true }
    doNotRun conf env i

def dispatchToLink (i : Nat) : Dispatch Unit := do
  let x := (← get).link i
  if x.configurationSent ∨ !conf.active i ∨ !x.reachable then return ()
  else
    let _ ← putConf conf env i
    modify fun w => w.modifyLink i fun x => { x with configurationSent := true }

def dispatch : Dispatch Unit := do
  let w ← get
  if !w.newToDispatch then throw .dispatcherError
  else if w.firstDispatchDone then throw .dispatcherError
  else if w.dispatchOk then return ()
  else
    modify fun w => { w with dispatchOk := true }
    conf.arbiters.forM (dispatchToArbiter conf env)
    conf.schedulers.forM (dispatchToLink conf env)
    conf.allSatellites.forM (dispatchToLink conf env)
    modify fun w => if w.dispatchOk then { w with newToDispatch := false, firstDispatchDone := true } else w

/-! ## Checking -/

/-- A handler for `LinkError` that leaves the result at `False`. -/
def orFalse {α : Type} (call : Dispatch (Answer α)) : Dispatch (Answer α) := fun w =>
  match call w with
  | .error .linkError w' => .ok .false w'
  | r => r

def setNotConfigured (i : Nat) (w : World) : World := { w with notConfigured := w.notConfigured ++ [i] }

def notePolled (i : Nat) : Answer (List Managed) → World → World
  | .none, w => w
  | .false, w => setNotConfigured i w
  | .got managed, w =>
    if managed = [] then (setNotConfigured i w).modifyLink i fun x => { x with configurationSent := false }
    else if !w.firstDispatchDone then setNotConfigured i w
    else w

def pollLink (forced : Bool) (i : Nat) : Dispatch Unit := do
  if i = conf.arbiterLink ∨ !conf.active i then return ()
  else
    let w ← get
    let result ← orFalse (updateInfos conf env (forced || w.newToDispatch) i)
    modify (notePolled i result)

def pollLinks (forced : Bool) : Dispatch Unit := do
  modify fun w => { w with notConfigured := [] }
  conf.allDaemonsLinks.forM (pollLink conf env forced)

/-- The end of `check_reachable`: some daemons are not configured. -/
def dispatchIfNotConfigured : Dispatch Unit := do
  let w ← get
  if w.notConfigured ≠ [] ∧ w.newToDispatch ∧ !w.firstDispatchDone then
    modify fun w => { w with dispatchOk := false }
    dispatch conf env
  else if w.notConfigured ≠ [] ∧ w.firstDispatchDone then
    modify fun w => { w with dispatchOk := false, newToDispatch := true, firstDispatchDone := false }
    dispatch conf env

def checkReachable (forced : Bool) : Dispatch Bool := do
  pollLinks conf env forced
  dispatchIfNotConfigured conf env
  return true

def redispatch (k : Nat) (t : SatType) (p : Nat) (w : World) : World :=
  match w.toSatellites k t p with
  | none => w
  | some x => { w.setToSatellites k t p { x with needDispatch := true, managedBy := [] } with dispatchOk := false }

def checkSatellite (k : Nat) (t : SatType) (p : Nat) (w : World) (i : Nat) : World :=
  if !(w.link i).reachable then w
  else if !(w.link i).manages p (w.part p) then redispatch k t p w
  else w

def checkSatellites (k : Nat) (realm : Realm) (p : Nat) (t : SatType) : Dispatch Unit := do
  match (← get).toSatellites k t p with
  | none => throw .keyError
  | some x =>
    guarded (x.managedBy.length < realm.nbOfMustHave t) (modify (redispatch k t p))
    let managedBy := if x.managedBy.length < realm.nbOfMustHave t then [] else x.managedBy
    modify fun w => managedBy.foldl (checkSatellite k t p) w

def resetScheduler (s p : Nat) (w : World) : World :=
  if !(w.link s).manages p (w.part p) then
    { w.modifyLink s fun x => { x with cfgToManage := none, needConf := true } with dispatchOk := false }
  else w

def checkPart (k : Nat) (realm : Realm) (p : Nat) : Dispatch Unit := do
  match ((← get).part p).schedulerLink with
  | none => modify fun w => { w with dispatchOk := false }
  | some s =>
    modify (resetScheduler s p)
    SatType.all.forM (checkSatellites k realm p)

def checkRealm (realm : Realm × Nat) : Dispatch Unit := realm.1.parts.forM (checkPart realm.2 realm.1)

def checkDispatch : Dispatch Bool := do
  if !(← get).firstDispatchDone then throw .dispatcherError
  else
    modify fun w => { w with dispatchOk := true }
    let _ ← checkReachable conf env true
    conf.realms.zipIdx.forM checkRealm
    return (← get).dispatchOk

/-! ## Runs -/

def getRunningId (i : Nat) (identity : Response Nat) : Dispatch (Answer Unit) :=
  communicate conf i do
    match identity.request with
    | .ok runningId =>
      modify fun w => w.modifyLink i fun x => { x with runningId := runningId }.setAlive
      return .ok (.got ())
    | .error e => return .error e

def otherCall (i : Nat) (response : Response Unit) : Dispatch (Answer Unit) :=
  validConnection i (communicate conf i (return response.request.map .got))

/-- The retries of `daemon_connection_init`. -/
def tryConnection (i : Nat) (waitNewConf : Response Unit) : List (Response Nat) → Dispatch Unit
  | [] => return ()
  | identity :: identities => do
    match ← getRunningId conf i identity with
    | .got _ =>
      let _ ← otherCall conf i waitNewConf
      return ()
    | _ => tryConnection i waitNewConf identities

def daemonConnectionInit (i : Nat) (created : Bool) (identities : List (Response Nat)) (waitNewConf : Response Unit) :
    Dispatch Unit := do
  if !conf.active i then return ()
  else if !created then
    modify fun w => w.modifyLink i fun x => x.setDead
    throw .linkError
  else
    modify fun w => w.modifyLink i fun x => { x with con := true, alive := true, reachable := true }
    tryConnection conf i waitNewConf (identities.take (conf.maxCheckAttempts i).toNat)

end

inductive Call
  | prepareDispatch
  | dispatch
  | checkReachable (forced : Bool)
  | checkDispatch
  | daemonConnectionInit (i : Nat) (created : Bool) (identities : List (Response Nat)) (waitNewConf : Response Unit)
  | otherCall (i : Nat) (response : Response Unit)

section
variable (conf : Conf)

def runCall (env : Env) : Call → Dispatch Unit
  | .prepareDispatch => prepareDispatch conf env
  | .dispatch => Dispatching.dispatch conf env
  | .checkReachable forced => discard (Dispatching.checkReachable conf env forced)
  | .checkDispatch => discard (Dispatching.checkDispatch conf env)
  | .daemonConnectionInit i created identities waitNewConf =>
    Dispatching.daemonConnectionInit conf i created identities waitNewConf
  | .otherCall i response => discard (Dispatching.otherCall conf i response)

/-- A call returns or raises: the arbiter may go on in both cases. -/
def Step (env : Env) (call : Call) (w w' : World) : Prop := stateAfter (runCall conf env call w) = w'

structure Turn where
  world : World
  env : Env
  call : Call

inductive Run (w₀ : World) : List Turn → World → Prop
  | nil : Run w₀ [] w₀
  | snoc {trace : List Turn} {w w' : World} {env : Env} {call : Call} (h : Run w₀ trace w) (hs : Step conf env call w w') :
      Run w₀ (trace ++ [⟨w, env, call⟩]) w'

/-- The state that `Dispatcher.__init__` leaves: connections apart, nothing has
been done. -/
structure Initial (w : World) : Prop where
  needConf : ∀ i, i ≠ conf.arbiterLink → (w.link i).needConf = true
  configurationSent : ∀ i, (w.link i).configurationSent = false
  cfgToManage : ∀ i, (w.link i).cfgToManage = none
  cfgManaged : ∀ i, (w.link i).cfgManaged = none
  schedulers : ∀ i, (w.link i).schedulers = Dict.empty
  part : ∀ p, w.part p = {}
  toSatellites : ∀ k t p, w.toSatellites k t p = none
  dispatchOk : w.dispatchOk = false
  newToDispatch : w.newToDispatch = false
  firstDispatchDone : w.firstDispatchDone = false

def Reachable (w : World) : Prop := ∃ w₀ trace, Initial conf w₀ ∧ Run conf w₀ trace w

theorem Run.invariant {I : World → Prop} {P : Turn → Prop} {w₀ w : World} {trace : List Turn} (h : Run conf w₀ trace w)
    (hP : ∀ t ∈ trace, P t) (h0 : I w₀)
    (hs : ∀ w env call w', I w → P ⟨w, env, call⟩ → Step conf env call w w' → I w') : I w := by
  induction h with
  | nil => exact h0
  | snoc _ hstep ih =>
    have hI := ih fun t ht => hP t (List.mem_append_left _ ht)
    exact hs _ _ _ _ hI (hP _ (List.mem_append_right _ List.mem_cons_self)) hstep

end

end Alignak.Dispatching
