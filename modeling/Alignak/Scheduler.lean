import Alignak.ConsumeResult

/-!
# Runs of the scheduler

The events that reach the items: a check result, the passes of a tick, the
reactionners and the external commands.
-/

namespace Alignak.Scheduling

inductive Command
  | acknowledgeProblem (i : Nat) (sticky notify endTime : Int)
  | removeAcknowledgement (i : Nat)
  | scheduleDowntime (i : Nat) (fixed : Bool) (startTime endTime duration : Int) (triggerId : Option Nat)
  | delDowntime (t : ItemType) (d : Nat)
  | changeMaxCheckAttempts (i : Nat) (checkAttempts : Int)
  | changeSettings (i : Nat) (f : Settings → Settings)
  | disableFlapDetection (i : Nat)
  | addComment (i : Nat)
  | delComment (t : ItemType) (c : Nat)
  | delAllComments (i : Nat)

inductive Event
  | receiveResult (c : Nat) (chk : Check)
  | consumeResult (c : Nat)
  | updateDowntimesAndComments
  | checkForExpireAcknowledge
  | getNewActions
  | scatterMasterNotifications
  | getToRunActions (tagged : Nat → Bool)
  | manageNotificationResult (n : Nat) (checkTime : Int)
  | cleanQueues (toDelActions : List Nat)
  | deleteZombieActions
  | checkOrphaned (late : Nat → Bool)
  | command (cmd : Command)

section
variable (conf : Conf) (env : Env)

def receiveResult (c : Nat) (chk : Check) (w : World) : World := w.setCheck c { chk with status := .waitConsume }

def changeMaxCheckAttempts (i : Nat) (checkAttempts : Int) (w : World) : World :=
  let w := w.modifySettings i fun s => { s with maxCheckAttempts := checkAttempts }
  w.modifyCheckState i fun x =>
    if x.stateType = .hard ∧ x.state = okUp (conf.myType i) ∧ 1 < x.attempt then { x with attempt := checkAttempts } else x

def disableFlapDetection (i : Nat) (w : World) : World :=
  if (w.alert i).isFlapping then w.modifyAlert i fun a => { a with isFlapping := false, flappingChanges := [] } else w

def runCommand : Command → Sched Unit
  | .acknowledgeProblem i sticky notify endTime => modify fun w =>
      acknowledgeProblem conf env i (w.settings i).notificationPeriod sticky notify endTime w
  | .removeAcknowledgement i => modify (unacknowledgeProblem i)
  | .scheduleDowntime i fixed startTime endTime duration triggerId =>
      scheduleDowntime conf i fixed startTime endTime duration triggerId
  | .delDowntime t d => delDowntimeCommand conf t d
  | .changeMaxCheckAttempts i checkAttempts => modify (changeMaxCheckAttempts conf i checkAttempts)
  | .changeSettings i f => modify fun w => w.modifySettings i fun s => { f s with maxCheckAttempts := s.maxCheckAttempts }
  | .disableFlapDetection i => modify (disableFlapDetection i)
  | .addComment i => modify fun w => w.addComment i ⟨i, 1⟩
  | .delComment t c => modify (delCommentCommand conf t c)
  | .delAllComments i => modify (delAllComments i)

def runEvent : Event → Sched Unit
  | .receiveResult c chk => modify (receiveResult c chk)
  | .consumeResult c => consumeResult conf env c
  | .updateDowntimesAndComments => updateDowntimesAndComments conf env
  | .checkForExpireAcknowledge => modify (checkForExpireAcknowledge conf env)
  | .getNewActions => modify (getNewActions conf)
  | .scatterMasterNotifications => modify (scatterMasterNotifications conf env)
  | .getToRunActions tagged => modify (getToRunActions env tagged)
  | .manageNotificationResult n checkTime => modify (manageNotificationResult n checkTime)
  | .cleanQueues toDelActions => modify (cleanQueues toDelActions)
  | .deleteZombieActions => modify deleteZombieActions
  | .checkOrphaned late => modify (checkOrphaned late)
  | .command cmd => runCommand conf env cmd

def Event.notifies : Event → Bool
  | .getNewActions | .scatterMasterNotifications | .getToRunActions _ | .manageNotificationResult .. | .cleanQueues _
  | .deleteZombieActions | .checkOrphaned _ | .command (.disableFlapDetection _) => true
  | _ => false

theorem disableFlapDetection_still (i : Nat) (w : World) : (disableFlapDetection i w).still = w.still := by
  unfold disableFlapDetection
  split <;> rfl

theorem runEvent_still {ev : Event} (h : ev.notifies = true) (w : World) :
    (stateAfter (runEvent conf env ev w)).still = w.still := by
  cases ev with
  | getNewActions => exact getNewActions_still w
  | scatterMasterNotifications => exact scatterMasterNotifications_still w
  | getToRunActions tagged => exact getToRunActions_still w tagged
  | manageNotificationResult n t => exact manageNotificationResult_still n w t
  | cleanQueues l => exact cleanQueues_still w l
  | deleteZombieActions => rfl
  | checkOrphaned late => exact checkOrphaned_still w late
  | command cmd =>
    cases cmd with
    | disableFlapDetection i => exact disableFlapDetection_still i w
    | _ => cases h
  | _ => cases h

/-- The events that leave `World.quiet`. -/
def Event.isQuiet : Event → Bool
  | .checkForExpireAcknowledge | .command (.acknowledgeProblem ..) | .command (.removeAcknowledgement _)
  | .command (.addComment _) | .command (.delComment ..) | .command (.delAllComments _) => true
  | ev => ev.notifies

theorem runEvent_quiet {ev : Event} (h : ev.isQuiet = true) (w : World) :
    (stateAfter (runEvent conf env ev w)).quiet = w.quiet := by
  by_cases hn : ev.notifies = true
  · exact quiet_of_still (runEvent_still conf env hn w)
  cases ev with
  | checkForExpireAcknowledge => exact checkForExpireAcknowledge_quiet w
  | command cmd =>
    cases cmd with
    | acknowledgeProblem i sticky notify endTime => exact acknowledgeProblem_quiet i w _ _ _ _
    | removeAcknowledgement i => exact unacknowledgeProblem_quiet i w
    | addComment i => rfl
    | delComment t c => exact delCommentCommand_quiet t c w
    | delAllComments i => exact delAllComments_quiet i w
    | _ => exact absurd h hn
  | _ => exact absurd h hn

/-- The events that leave `World.core`. -/
def Event.isCore : Event → Bool
  | .updateDowntimesAndComments | .command (.scheduleDowntime ..) | .command (.delDowntime ..) => true
  | ev => ev.isQuiet

theorem runEvent_core {ev : Event} (h : ev.isCore = true) (w : World) : (stateAfter (runEvent conf env ev w)).core = w.core := by
  by_cases hq : ev.isQuiet = true
  · exact core_of_quiet (runEvent_quiet conf env hq w)
  cases ev with
  | updateDowntimesAndComments => exact updateDowntimesAndComments_core w
  | command cmd =>
    cases cmd with
    | scheduleDowntime i fixed startTime endTime duration triggerId =>
      exact scheduleDowntime_core i fixed startTime endTime duration triggerId w
    | delDowntime t d => exact delDowntimeCommand_core t d w
    | _ => exact absurd h hq
  | _ => exact absurd h hq

/-- `consume_results` takes the checks that wait; a check that waits for others
is taken when they are done. The identifier of a new downtime is not known to
the command that makes it. -/
def Event.Enabled (w : World) : Event → Prop
  | .consumeResult c => (w.check c).status = .waitConsume ∨ (w.check c).status = .waitDepend
  | .command (.scheduleDowntime _ _ _ _ _ triggerId) => triggerId ≠ some w.nextDowntime
  | _ => True

inductive Step (w : World) : Event → World → Prop
  | returned {ev : Event} {w' : World} (enabled : ev.Enabled w) (h : runEvent conf env ev w = .ok () w') : Step w ev w'
  | dropped {cmd : Command} {e : Exn} {w' : World} (enabled : (Event.command cmd).Enabled w)
      (h : runCommand conf env cmd w = .error e w') : Step w (.command cmd) w'

theorem Step.after {conf : Conf} {env : Env} {w w' : World} {ev : Event} (hs : Step conf env w ev w') :
    w' = stateAfter (runEvent conf env ev w) := by
  cases hs with
  | returned _ hr => rw [hr]; rfl
  | @dropped cmd _ _ _ hr =>
    show w' = stateAfter (runCommand conf env cmd w)
    rw [hr]; rfl

theorem Step.enabled {conf : Conf} {env : Env} {w w' : World} {ev : Event} (hs : Step conf env w ev w') : ev.Enabled w := by
  cases hs with
  | returned he _ => exact he
  | dropped he _ => exact he

structure Turn where
  world : World
  env : Env
  event : Event

inductive Run (w₀ : World) : List Turn → World → Prop
  | nil : Run w₀ [] w₀
  | snoc {trace : List Turn} {w w' : World} {env : Env} {ev : Event} (h : Run w₀ trace w) (hs : Step conf env w ev w') :
      Run w₀ (trace ++ [⟨w, env, ev⟩]) w'

structure Initial (w : World) : Prop where
  checkState : ∀ i, ∃ s stateId, w.checkState i = { state := s, stateId := stateId }
  problem : ∀ i, w.problem i = {}
  downtime : ∀ i, w.downtime i = {}
  ack : ∀ i, w.ack i = {}
  alert : ∀ i, w.alert i = {}
  check : ∀ c, (w.check c).status = .zombie
  actions : w.actions = []
  nextNotification : w.nextNotification = 0
  nextDowntime : w.nextDowntime = 0
  comments : ∀ i, w.comments i = Dict.empty

def oneHost : Conf where
  hosts := [0]
  services := []
  nodup := by decide
  host := fun _ => 0
  hostServices := fun _ => []
  actDependOf := fun _ => []
  actDependOfMe := fun _ => []
  isVolatile := fun _ => false
  resultmodulations := fun _ => []
  enableProblemImpactsStatesChange := false

def plainEnv (now : Int) : Env where
  now := now
  intervalLength := 60
  enableNotifications := fun _ => true
  enableFlapDetection := fun _ => false
  flapHistory := 20
  isTimeValid := fun _ _ => true
  getNextValidTime := fun _ t => some t
  getNextInvalidTime := fun _ _ => none
  moduleReturn := fun _ status => status
  isEscalable := fun _ _ _ => false
  getEscalableContacts := fun _ _ _ => []
  getNextNotificationTime := fun _ x _ => x.tToGo.getD 0
  getNotificationCommands := fun _ _ => [0]
  wantNotification := fun _ _ _ _ _ => true

def startWorld : World where
  settings := fun _ => {}
  checkState := fun _ => { state := .up }
  problem := fun _ => {}
  downtime := fun _ => {}
  ack := fun _ => {}
  alert := fun _ => {}
  notification := fun _ => ⟨.custom, .zombie, 0, none, none, 0, false⟩
  check := fun _ => ⟨0, .zombie, 0, 0, false, false, []⟩
  actions := []
  nextNotification := 0
  nextDowntime := 0

theorem startWorld_initial : Initial startWorld where
  checkState := fun _ => ⟨.up, 0, rfl⟩
  problem := fun _ => rfl
  downtime := fun _ => rfl
  ack := fun _ => rfl
  alert := fun _ => rfl
  check := fun _ => rfl
  actions := rfl
  nextNotification := rfl
  nextDowntime := rfl
  comments := fun _ => rfl

def Reachable (w : World) : Prop := ∃ w₀ trace, Initial w₀ ∧ Run conf w₀ trace w

theorem Run.invariant {I : World → Prop} {P : Turn → Prop} {w₀ w : World} {trace : List Turn} (h : Run conf w₀ trace w)
    (hP : ∀ t ∈ trace, P t) (h0 : I w₀)
    (hs : ∀ w env ev w', I w → P ⟨w, env, ev⟩ → Step conf env w ev w' → I w') : I w := by
  induction h with
  | nil => exact h0
  | snoc _ hstep ih =>
    have hI := ih fun t ht => hP t (List.mem_append_left _ ht)
    exact hs _ _ _ _ hI (hP _ (List.mem_append_right _ List.mem_cons_self)) hstep

/-! ## The run of a list of events -/

instance Event.decidableEnabled (w : World) : (ev : Event) → Decidable (ev.Enabled w)
  | .consumeResult c => inferInstanceAs (Decidable ((w.check c).status = .waitConsume ∨ (w.check c).status = .waitDepend))
  | .command (.scheduleDowntime _ _ _ _ _ triggerId) => inferInstanceAs (Decidable (triggerId ≠ some w.nextDowntime))
  | .command (.acknowledgeProblem ..) | .command (.removeAcknowledgement _) | .command (.delDowntime ..)
  | .command (.changeMaxCheckAttempts ..) | .command (.changeSettings ..) | .command (.disableFlapDetection _)
  | .command (.addComment _) | .command (.delComment ..) | .command (.delAllComments _)
  | .receiveResult .. | .updateDowntimesAndComments | .checkForExpireAcknowledge | .getNewActions
  | .scatterMasterNotifications | .getToRunActions _ | .manageNotificationResult .. | .cleanQueues _
  | .deleteZombieActions | .checkOrphaned _ => isTrue trivial

def turns (w : World) : List (Env × Event) → List Turn
  | [] => []
  | (env, ev) :: l => ⟨w, env, ev⟩ :: turns (stateAfter (runEvent conf env ev w)) l

def worldAfter (w : World) : List (Env × Event) → World
  | [] => w
  | (env, ev) :: l => worldAfter (stateAfter (runEvent conf env ev w)) l

def executes (w : World) : List (Env × Event) → Bool
  | [] => true
  | (env, ev) :: l =>
    decide (ev.Enabled w) && returns (runEvent conf env ev w) && executes (stateAfter (runEvent conf env ev w)) l

theorem Run.append {w₀ : World} {trace : List Turn} : ∀ {l : List (Env × Event)} {w : World}, Run conf w₀ trace w →
    executes conf w l = true → Run conf w₀ (trace ++ turns conf w l) (worldAfter conf w l)
  | [], _, h, _ => by
    rw [turns, List.append_nil]
    exact h
  | (env, ev) :: l, w, h, he => by
    simp only [executes, Bool.and_eq_true, decide_eq_true_eq] at he
    have hs : Step conf env w ev (stateAfter (runEvent conf env ev w)) := .returned he.1.1 (eq_ok_of_returns he.1.2)
    have hr := Run.append (h.snoc hs) he.2
    rw [List.append_assoc] at hr
    exact hr

theorem run_of_executes {w₀ : World} {l : List (Env × Event)} (h : executes conf w₀ l = true) :
    Run conf w₀ (turns conf w₀ l) (worldAfter conf w₀ l) := Run.append conf Run.nil h

end

end Alignak.Scheduling
