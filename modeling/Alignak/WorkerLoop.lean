import Alignak.PluginOutputs
import Alignak.SchedulingItem
import Mathlib.Algebra.Order.Ring.Rat

/-!
# The loop of a worker

A worker takes actions from its queue, launches them, looks at their processes
and puts those that are finished in the returns queue. What the system answers
to a launch, a read or a kill is an input of each step.
-/

namespace Alignak.WorkerLoop

open Scheduling (ActStatus)

structure Action where
  uuid : Nat
  command : String
  timeout : Int
  status : ActStatus
  checkTime : Rat
  lastPoll : Rat
  waitTime : Rat
  executionTime : Rat
  stdoutdata : String
  stderrdata : String
  output : String
  longOutput : String
  perfData : String
  exitStatus : Int
  deriving DecidableEq, Repr

/-! ## Launching -/

/-- `ActionError` has its text; the others come from the reading of the outputs
and from `os.killpg`. -/
inductive Raised
  | actionError (text : String)
  | unicodeDecodeError
  | typeError
  | permissionError
  | processLookupError
  deriving DecidableEq, Repr

/-- What `psutil.Popen` does. -/
inductive Popen
  | process (pid : Nat)
  | fileNotFoundError
  | osError (errno : Int) (strerror text : String)
  | exception
  deriving DecidableEq, Repr

/-- What `execute` returns. -/
inductive Returned
  | process (pid : Nat)
  | text (s : String)
  deriving DecidableEq, Repr

/-- The answers of the system to a launch; `shlexSplit` fails with a text or
gives the text of the arguments. -/
structure Launch where
  now : Rat
  shlexSplit : String → Except String String
  popen : Bool → Popen
  failedAt : Rat

def shellChars : List Char :=
  ['!', '$', '^', '&', '*', '(', ')', '~', '[', ']', '|', '{', '}', ';', '<', '>', '?', '`']

def Action.gotShellCharacters (a : Action) : Bool := a.command.toList.any fun c => shellChars.contains c

def Action.failed (a : Action) (l : Launch) (output : String) (exitStatus : Int) : Action :=
  { a with output := output, exitStatus := exitStatus, status := .done, executionTime := l.failedAt - a.checkTime }

/-- `_execute`; the retry is with a forced shell. -/
def executeWith (l : Launch) (retry : Action → Except Raised Returned × Action) (forceShell : Bool) (a : Action) :
    Except Raised Returned × Action :=
  let forceShell := forceShell || a.gotShellCharacters
  match (if forceShell then .ok a.command else l.shlexSplit a.command : Except String String) with
  | .error e => (.error (.actionError "no_process_launched"), a.failed l ("Not a valid shell command: " ++ e) 3)
  | .ok cmd =>
    match l.popen forceShell with
    | .process pid => (.ok (.process pid), a)
    | .fileNotFoundError =>
      let output := "Missing executable command: " ++ cmd
      (.error (.actionError ("process_launch_failed: " ++ output)), a.failed l output 2)
    | .osError errno strerror text =>
      if !forceShell && errno = 8 && strerror = "Exec format error" then retry a
      else if errno = 24 && strerror = "Too many open files" then
        (.error (.actionError ("toomanyopenfiles: " ++ text)), a.failed l text 2)
      else (.error (.actionError ("process_launch_failed: " ++ text)), a.failed l text 2)
    | .exception => (.error (.actionError ("process_launch_failed: " ++ a.output)), a)

def executeForced (l : Launch) (a : Action) : Except Raised Returned × Action :=
  executeWith l (fun a => (.error (.actionError ""), a)) true a

def execute (l : Launch) (a : Action) : Except Raised Returned × Action :=
  executeWith l (executeForced l) false
    { a with status := .launched, checkTime := l.now, waitTime := 1 / 10000, lastPoll := l.now
             stdoutdata := "", stderrdata := "" }

/-! ## Looking at the processes -/

/-- What is read from a stream: bytes that are a text or not, nothing yet, or an
empty text for a read that fails. -/
inductive Read
  | text (s : String)
  | undecodable
  | nothing
  | failed
  deriving DecidableEq, Repr

inductive ProcessState
  | running (stdout stderr : Read)
  | exited (returncode : Int) (stdout stderr : Read)
  deriving DecidableEq, Repr

/-- `kill` is what `os.killpg` does if the process is too late: a process of
another user cannot be killed. -/
structure Poll where
  polledAt : Rat
  now : Rat
  process : ProcessState
  kill : Except Raised Unit

/-- The outputs of a process that still runs; what is no bytes ends the reading. -/
def readRunning (stdout stderr : Read) (a : Action) : Except Raised Action :=
  match stdout with
  | .undecodable => .error .unicodeDecodeError
  | .nothing | .failed => .ok a
  | .text s =>
    let a := { a with stdoutdata := a.stdoutdata ++ s }
    match stderr with
    | .undecodable => .error .unicodeDecodeError
    | .nothing | .failed => .ok a
    | .text s => .ok { a with stderrdata := a.stderrdata ++ s }

/-- What cannot be decoded is added as it is, which fails for bytes and for nothing. -/
def readExited (data : String) : Read → Except Raised String
  | .text s => .ok (data ++ s)
  | .failed => .ok (data ++ "")
  | .undecodable | .nothing => .error .typeError

def contains (s part : String) : Bool := decide (part.toList <:+: s.toList)

def badSyntax (stderrdata : String) : Bool :=
  contains stderrdata "sh: -c: line 0: unexpected EOF" ||
    (contains stderrdata "sh: -c: " && contains stderrdata ": Syntax" ||
      contains stderrdata "Syntax error: Unterminated quoted string")

def finalOutput (stdoutdata stderrdata : String) : String :=
  if stripString stdoutdata = "" then stderrdata else stripString stdoutdata

structure Conf where
  processesByWorker : Nat
  getOutputs : String → Alignak.Action.Outputs

/-- The outputs of a plugin are cut by `get_outputs`. -/
def Conf.of (processesByWorker maxPluginsOutputLength : Nat) : Conf :=
  ⟨processesByWorker, fun out => Alignak.Action.getOutputs maxPluginsOutputLength out.toList⟩

def Action.setOutputs (a : Action) (o : Alignak.Action.Outputs) : Action :=
  { a with
    output := String.ofList o.output
    longOutput := String.ofList o.longOutput
    perfData := String.ofList o.perfData }

def finished (conf : Conf) (now : Rat) (returncode : Int) (a : Action) : Action :=
  let stdoutdata := if badSyntax a.stderrdata then a.stdoutdata ++ a.stderrdata else a.stdoutdata
  let exitStatus := if badSyntax a.stderrdata then 3 else returncode
  { a.setOutputs (conf.getOutputs (finalOutput stdoutdata a.stderrdata)) with
    exitStatus := if exitStatus ∈ [0, 1, 2, 3] then exitStatus else 3
    status := .done
    executionTime := now - a.checkTime }

def timedOut (conf : Conf) (now : Rat) (a : Action) : Action :=
  { a.setOutputs (conf.getOutputs (finalOutput a.stdoutdata a.stderrdata)) with
    status := .timeout
    executionTime := now - a.checkTime
    exitStatus := 3 }

def checkFinished (conf : Conf) (p : Poll) (a : Action) : Except Raised Action :=
  let a := { a with lastPoll := p.polledAt }
  match p.process with
  | .running stdout stderr =>
    match readRunning stdout stderr { a with waitTime := min (a.waitTime * 2) (1 / 2) } with
    | .error e => .error e
    | .ok a =>
      if a.timeout < p.now - a.checkTime then
        -- The process is killed before the status is set.
        match p.kill with
        | .error e => .error e
        | .ok () => .ok (timedOut conf p.now a)
      else .ok a
  | .exited returncode stdout stderr =>
    match readExited a.stdoutdata stdout with
    | .error e => .error e
    | .ok stdoutdata =>
      match readExited a.stderrdata stderr with
      | .error e => .error e
      | .ok stderrdata => .ok (finished conf p.now returncode { a with stdoutdata := stdoutdata, stderrdata := stderrdata })

/-! ## The loop -/

structure QueuedAction where
  action : Action
  queued : action.status = .queued

/-- What a reading of the actions queue gives; `failed` is any other exception. -/
inductive Got
  | void
  | do_ (a : QueuedAction)
  | ping
  | other
  | full
  | empty
  | closed
  | failed

inductive Phase
  | getting
  | launching
  | managing
  | middle
  | stopped
  | crashed (raised : Raised)
  deriving DecidableEq, Repr

/-- `returns` are the actions of the messages put in the returns queue; `taken`
are the actions got from the queue so far. -/
structure World where
  checks : List Action
  iAmDying : Bool
  interrupted : Bool
  idletime : Nat
  actionsGot : Nat
  actionsLaunched : Nat
  actionsFinished : Nat
  returns : List Action
  pongs : Nat
  taken : List Nat
  phase : Phase

/-- Nothing more is read after an exception. -/
def getNewChecks (conf : Conf) : List Got → World → World
  | [], w => if w.checks.length < conf.processesByWorker ∧ w.checks = [] then { w with idletime := w.idletime + 1 } else w
  | got :: rest, w =>
    if w.checks.length < conf.processesByWorker then
      match got with
      | .void | .other => getNewChecks conf rest w
      | .do_ a =>
        getNewChecks conf rest
          { w with checks := w.checks ++ [a.action], actionsGot := w.actionsGot + 1, taken := w.taken ++ [a.action.uuid] }
      | .ping => getNewChecks conf rest { w with pongs := w.pongs + 1 }
      | .full | .failed => w
      | .empty => if w.checks = [] then { w with idletime := w.idletime + 1 } else w
      | .closed => { w with interrupted := true }
    else w

/-- The checks before and after the one that is looked at; an exception leaves
the loop with what has been done. -/
def launchNewChecks (launch : Nat → Launch) : List Action → List Action → World → Except Raised Unit × World
  | done, [], w => (.ok (), { w with checks := done })
  | done, a :: rest, w =>
    if a.status ≠ .queued then launchNewChecks launch (done ++ [a]) rest w
    else
      let w := { w with idletime := 0, actionsLaunched := w.actionsLaunched + 1 }
      match execute (launch a.uuid) a with
      | (.error e, a) => (.error e, { w with checks := done ++ a :: rest })
      | (.ok (.process _), a) => launchNewChecks launch (done ++ [a]) rest w
      | (.ok (.text s), a) =>
        launchNewChecks launch (done ++ [a]) rest (if s = "toomanyopenfiles" then { w with iAmDying := true } else w)

def Action.isDue (a : Action) (now : Rat) : Bool := a.status = .launched && decide (a.lastPoll < now - a.waitTime)

/-- `checks` of the world are those that are not finished. -/
def manageFinishedChecks (conf : Conf) (now : Rat) (poll : Nat → Poll) :
    List Action → List Action → World → Except Raised Unit × World
  | kept, [], w => (.ok (), { w with checks := kept })
  | kept, a :: rest, w =>
    match (if a.isDue now then checkFinished conf (poll a.uuid) a else .ok a) with
    | .error e => (.error e, { w with checks := kept ++ a :: rest })
    | .ok a =>
      if a.status = .done ∨ a.status = .timeout then
        manageFinishedChecks conf now poll kept rest
          { w with actionsFinished := w.actionsFinished + 1, returns := w.returns ++ [a] }
      else manageFinishedChecks conf now poll (kept ++ [a]) rest w

/-- The inputs of one turn of the loop; `die` is an order of the master, `signal`
one of the system. -/
structure Input where
  got : List Got
  launch : Nat → Launch
  now : Rat
  poll : Nat → Poll
  die : Bool
  signal : Bool

/-- The next phase, or the end of the process for an exception. -/
def andThen (phase : Phase) (r : Except Raised Unit × World) : World :=
  match r with
  | (.ok (), w) => { w with phase := phase }
  | (.error e, w) => { w with phase := .crashed e }

/-- One step of `do_work`. -/
def World.step (conf : Conf) (w : World) (i : Input) : World :=
  match w.phase with
  | .getting =>
    if w.iAmDying then { w with phase := .managing } else { getNewChecks conf i.got w with phase := .launching }
  | .launching => andThen .managing (launchNewChecks i.launch [] w.checks w)
  | .managing => andThen .middle (manageFinishedChecks conf i.now i.poll [] w.checks w)
  | .middle =>
    let w := { w with interrupted := w.interrupted || i.signal }
    if i.die || w.interrupted || (w.checks = [] && w.iAmDying) then { w with phase := .stopped }
    else { w with phase := .getting }
  | .stopped | .crashed _ => w

def World.run (conf : Conf) (w : World) (inputs : List Input) : World := inputs.foldl (World.step conf) w

end Alignak.WorkerLoop
