import Alignak.WorkerLoop
import Mathlib.Data.List.Count
import Mathlib.Tactic.NormNum

/-!
# The actions of a worker

A launch that starts a process changes only its action, and a read of outputs
that are texts never fails. Any other launch or read, and a kill that the system
refuses, ends the worker with all the actions that it holds.
-/

namespace Alignak.WorkerLoop

open Scheduling (ActStatus)

section
variable {conf : Conf} {w : World} {i : Input} {a b : Action} {l : Launch} {p : Poll} {now : Rat}
  {launch : Nat → Launch} {poll : Nat → Poll}

/-! ## Launches -/

def Popen.Starts (r : Popen) : Prop := ∃ pid, r = .process pid

theorem not_starts_fileNotFoundError : ¬ Popen.fileNotFoundError.Starts := by
  rintro ⟨pid, h⟩
  cases h

theorem not_starts_osError {errno : Int} {strerror text : String} : ¬ (Popen.osError errno strerror text).Starts := by
  rintro ⟨pid, h⟩
  cases h

theorem not_starts_exception : ¬ Popen.exception.Starts := by
  rintro ⟨pid, h⟩
  cases h

def Starts (l : Launch) (a : Action) : Prop :=
  if a.gotShellCharacters then (l.popen true).Starts
  else (∃ cmd, l.shlexSplit a.command = .ok cmd) ∧
    ((l.popen false).Starts ∨
      (∃ text, l.popen false = .osError 8 "Exec format error" text) ∧ (l.popen true).Starts)

def Action.started (l : Launch) (a : Action) : Action :=
  { a with status := .launched, checkTime := l.now, waitTime := 1 / 10000, lastPoll := l.now
           stdoutdata := "", stderrdata := "" }

theorem executeWith_forced (l : Launch) (retry : Action → Except Raised Returned × Action) (forceShell : Bool) (a : Action)
    (h : (forceShell || a.gotShellCharacters) = true) :
    (∃ pid, l.popen true = .process pid ∧ executeWith l retry forceShell a = (.ok (.process pid), a)) ∨
    ¬ (l.popen true).Starts ∧ ∃ e, (executeWith l retry forceShell a).1 = .error e := by
  unfold executeWith
  rw [h]
  simp only [if_true, Bool.not_true, Bool.false_and, Bool.false_eq_true, if_false]
  cases hp : l.popen true with
  | process pid => exact Or.inl ⟨pid, rfl, rfl⟩
  | fileNotFoundError => exact Or.inr ⟨not_starts_fileNotFoundError, _, rfl⟩
  | osError errno strerror text =>
    refine Or.inr ⟨not_starts_osError, ?_⟩
    dsimp only
    split
    · exact ⟨_, rfl⟩
    · exact ⟨_, rfl⟩
  | exception => exact Or.inr ⟨not_starts_exception, _, rfl⟩

theorem executeWith_direct (l : Launch) (a : Action) (h : a.gotShellCharacters = false) :
    (∃ pid, Starts l a ∧ executeWith l (executeForced l) false a = (.ok (.process pid), a)) ∨
    ¬ Starts l a ∧ ∃ e, (executeWith l (executeForced l) false a).1 = .error e := by
  have hforced := executeWith_forced l (fun a => (.error (.actionError ""), a)) true a rfl
  unfold Starts executeWith
  simp only [h, Bool.or_false, Bool.false_eq_true, if_false, Bool.not_false, Bool.true_and]
  cases hs : l.shlexSplit a.command with
  | error e =>
    refine Or.inr ⟨?_, _, rfl⟩
    rintro ⟨⟨cmd, hc⟩, -⟩
    cases hc
  | ok cmd =>
    cases hp : l.popen false with
    | process pid => exact Or.inl ⟨pid, ⟨⟨cmd, rfl⟩, Or.inl ⟨pid, rfl⟩⟩, rfl⟩
    | fileNotFoundError =>
      refine Or.inr ⟨?_, _, rfl⟩
      rintro ⟨-, ⟨pid, hpid⟩ | ⟨⟨text, htext⟩, -⟩⟩
      · cases hpid
      · cases htext
    | exception =>
      refine Or.inr ⟨?_, _, rfl⟩
      rintro ⟨-, ⟨pid, hpid⟩ | ⟨⟨text, htext⟩, -⟩⟩
      · cases hpid
      · cases htext
    | osError errno strerror text =>
      dsimp only
      split
      · rename_i hretry
        simp only [Bool.and_eq_true, decide_eq_true_eq] at hretry
        obtain ⟨rfl, rfl⟩ := hretry
        rcases hforced with ⟨pid, hpid, he⟩ | ⟨hnot, he⟩
        · exact Or.inl ⟨pid, ⟨⟨cmd, rfl⟩, Or.inr ⟨⟨text, rfl⟩, pid, hpid⟩⟩, he⟩
        · refine Or.inr ⟨?_, he⟩
          rintro ⟨-, ⟨pid, hpid⟩ | ⟨-, hstarts⟩⟩
          · cases hpid
          · exact hnot hstarts
      · rename_i hretry
        have hnot : ¬ ((∃ cmd', (.ok cmd : Except String String) = .ok cmd') ∧
            ((Popen.osError errno strerror text).Starts ∨
              (∃ text', Popen.osError errno strerror text = .osError 8 "Exec format error" text') ∧ (l.popen true).Starts)) := by
          rintro ⟨-, ⟨pid, hpid⟩ | ⟨⟨text', htext⟩, -⟩⟩
          · cases hpid
          · cases htext
            exact hretry (by decide)
        split
        · exact Or.inr ⟨hnot, _, rfl⟩
        · exact Or.inr ⟨hnot, _, rfl⟩

/-- A launch returns a process or raises. -/
theorem execute_cases (l : Launch) (a : Action) :
    (∃ pid, Starts l a ∧ execute l a = (.ok (.process pid), a.started l)) ∨
    ¬ Starts l a ∧ ∃ e, (execute l a).1 = .error e := by
  have hstarts : Starts l (a.started l) ↔ Starts l a := Iff.rfl
  have hexecute : execute l a = executeWith l (executeForced l) false (a.started l) := rfl
  rw [hexecute, ← hstarts]
  cases hg : (a.started l).gotShellCharacters with
  | false => exact executeWith_direct l (a.started l) hg
  | true =>
    have hshell : Starts l (a.started l) ↔ (l.popen true).Starts := by
      unfold Starts
      rw [hg]
      rfl
    rw [hshell]
    rcases executeWith_forced l (executeForced l) false (a.started l) hg with ⟨pid, hpid, he⟩ | h
    · exact Or.inl ⟨pid, ⟨pid, hpid⟩, he⟩
    · exact Or.inr h

def launchOne (launch : Nat → Launch) (a : Action) : Action :=
  if a.status = .queued then a.started (launch a.uuid) else a

@[simp] theorem launchOne_uuid (launch : Nat → Launch) (a : Action) : (launchOne launch a).uuid = a.uuid := by
  unfold launchOne
  split <;> rfl

structure Rest (w w' : World) : Prop where
  taken : w'.taken = w.taken
  iAmDying : w'.iAmDying = w.iAmDying
  interrupted : w'.interrupted = w.interrupted

theorem launchNewChecks_ok (done rest : List Action) (w : World)
    (h : ∀ a ∈ rest, a.status = .queued → Starts (launch a.uuid) a) :
    ∃ w', launchNewChecks launch done rest w = (.ok (), w') ∧ w'.checks = done ++ rest.map (launchOne launch) ∧
      w'.returns = w.returns ∧ Rest w w' := by
  induction rest generalizing done w with
  | nil => exact ⟨{ w with checks := done }, rfl, by simp, rfl, rfl, rfl, rfl⟩
  | cons a rest ih =>
    have hrest := fun b hb => h b (List.mem_cons_of_mem a hb)
    rw [launchNewChecks]
    by_cases hq : a.status = .queued
    · obtain ⟨pid, -, he⟩ := (execute_cases (launch a.uuid) a).resolve_right
        (fun hn => hn.1 (h a List.mem_cons_self hq))
      rw [if_neg (not_not.mpr hq), he]
      obtain ⟨w', hrun, hchecks, hreturns, hw⟩ := ih (done ++ [a.started (launch a.uuid)])
        { w with idletime := 0, actionsLaunched := w.actionsLaunched + 1 } hrest
      refine ⟨w', hrun, ?_, hreturns, hw.1, hw.2, hw.3⟩
      rw [hchecks, List.map_cons, launchOne, if_pos hq, List.append_assoc]
      rfl
    · rw [if_pos hq]
      obtain ⟨w', hrun, hchecks, hreturns, hw⟩ := ih (done ++ [a]) w hrest
      refine ⟨w', hrun, ?_, hreturns, hw⟩
      rw [hchecks, List.map_cons, launchOne, if_neg hq, List.append_assoc]
      rfl

theorem launchNewChecks_raises (launch : Nat → Launch) (done rest : List Action) (w : World) (ha : a ∈ rest) (hq : a.status = .queued)
    (h : ¬ Starts (launch a.uuid) a) : ∃ e, (launchNewChecks launch done rest w).1 = .error e := by
  induction rest generalizing done w with
  | nil => cases ha
  | cons b rest ih =>
    rw [launchNewChecks]
    by_cases hb : b.status = .queued
    · rw [if_neg (not_not.mpr hb)]
      rcases execute_cases (launch b.uuid) b with ⟨pid, hs, he⟩ | ⟨-, e, he⟩
      · rw [he]
        rcases List.mem_cons.mp ha with rfl | ha
        · exact absurd hs h
        · exact ih _ _ ha
      · have hpair : execute (launch b.uuid) b = (.error e, (execute (launch b.uuid) b).2) := Prod.ext he rfl
        rw [hpair]
        exact ⟨e, rfl⟩
    · rw [if_pos hb]
      rcases List.mem_cons.mp ha with rfl | ha
      · exact absurd hq hb
      · exact ih _ _ ha

/-! ## Processes -/

def Readable (p : Poll) : Prop :=
  match p.process with
  | .running stdout stderr => stdout ≠ .undecodable ∧ ((∃ s, stdout = .text s) → stderr ≠ .undecodable)
  | .exited _ stdout stderr =>
    (stdout ≠ .undecodable ∧ stdout ≠ .nothing) ∧ stderr ≠ .undecodable ∧ stderr ≠ .nothing

def Ends (p : Poll) (a : Action) : Prop :=
  match p.process with
  | .running _ _ => a.timeout < p.now - a.checkTime
  | .exited _ _ _ => True

/-- A process that still runs when its action is too late can be killed. -/
def Killable (p : Poll) (a : Action) : Prop :=
  match p.process with
  | .running _ _ => a.timeout < p.now - a.checkTime → p.kill = .ok ()
  | .exited _ _ _ => True

structure Sound (p : Poll) (a : Action) : Prop where
  readable : Readable p
  killable : Killable p a

def Action.isFinal (a : Action) : Bool := a.status = .done || a.status = .timeout

theorem readRunning_cases (stdout stderr : Read) (a : Action) :
    ((stdout ≠ .undecodable ∧ ((∃ s, stdout = .text s) → stderr ≠ .undecodable)) ∧
      ∃ out err, readRunning stdout stderr a = .ok { a with stdoutdata := out, stderrdata := err }) ∨
    ¬ (stdout ≠ .undecodable ∧ ((∃ s, stdout = .text s) → stderr ≠ .undecodable)) ∧
      ∃ e, readRunning stdout stderr a = .error e := by
  cases stdout with
  | undecodable => exact Or.inr ⟨fun h => h.1 rfl, _, rfl⟩
  | nothing => exact Or.inl ⟨by simp, _, _, rfl⟩
  | failed => exact Or.inl ⟨by simp, _, _, rfl⟩
  | text s =>
    cases stderr with
    | undecodable => exact Or.inr ⟨fun h => h.2 ⟨s, rfl⟩ rfl, _, rfl⟩
    | nothing => exact Or.inl ⟨by simp, _, _, rfl⟩
    | failed => exact Or.inl ⟨by simp, _, _, rfl⟩
    | text s' => exact Or.inl ⟨by simp, _, _, rfl⟩

theorem readExited_cases (data : String) (r : Read) :
    ((r ≠ .undecodable ∧ r ≠ .nothing) ∧ ∃ out, readExited data r = .ok out) ∨
    ¬ (r ≠ .undecodable ∧ r ≠ .nothing) ∧ ∃ e, readExited data r = .error e := by
  cases r with
  | text s => exact Or.inl ⟨by simp, _, rfl⟩
  | failed => exact Or.inl ⟨by simp, _, rfl⟩
  | undecodable => exact Or.inr ⟨fun h => h.1 rfl, _, rfl⟩
  | nothing => exact Or.inr ⟨fun h => h.2 rfl, _, rfl⟩

structure Looked (p : Poll) (a b : Action) : Prop where
  uuid : b.uuid = a.uuid
  ended : Ends p a → b.isFinal = true
  goes : ¬ Ends p a → b.status = a.status ∧ b.waitTime ≤ 1 / 2

theorem checkFinished_cases (conf : Conf) (p : Poll) (a : Action) :
    (Sound p a ∧ ∃ b, checkFinished conf p a = .ok b ∧ Looked p a b) ∨
    ¬ Sound p a ∧ ∃ e, checkFinished conf p a = .error e := by
  have hsound : Sound p a ↔ Readable p ∧ Killable p a := ⟨fun h => ⟨h.1, h.2⟩, fun h => ⟨h.1, h.2⟩⟩
  rw [hsound]
  unfold checkFinished Readable Killable
  cases hp : p.process with
  | running stdout stderr =>
    dsimp only
    have hends : Ends p a ↔ a.timeout < p.now - a.checkTime := by
      unfold Ends
      rw [hp]
    rcases readRunning_cases stdout stderr { a with lastPoll := p.polledAt, waitTime := min (a.waitTime * 2) (1 / 2) }
      with ⟨hr, out, err, he⟩ | ⟨hr, e, he⟩
    · rw [he]
      dsimp only
      split
      · rename_i ht
        cases hk : p.kill with
        | ok => exact Or.inl ⟨⟨hr, fun _ => rfl⟩, _, rfl, rfl, fun _ => rfl, fun hn => absurd (hends.mpr ht) hn⟩
        | error e =>
          refine Or.inr ⟨?_, e, rfl⟩
          intro h
          cases h.2 ht
      · rename_i ht
        exact Or.inl ⟨⟨hr, fun h => absurd h ht⟩, _, rfl, rfl, fun h => absurd (hends.mp h) ht,
          fun _ => ⟨rfl, min_le_right _ _⟩⟩
    · refine Or.inr ⟨fun h => hr h.1, e, ?_⟩
      rw [he]
  | exited returncode stdout stderr =>
    dsimp only
    have hends : Ends p a := by
      unfold Ends
      rw [hp]
      trivial
    rcases readExited_cases a.stdoutdata stdout with ⟨hout, out, ho⟩ | ⟨hout, e, ho⟩
    · rw [ho]
      dsimp only
      rcases readExited_cases a.stderrdata stderr with ⟨herr, err, he⟩ | ⟨herr, e, he⟩
      · rw [he]
        exact Or.inl ⟨⟨⟨hout, herr⟩, trivial⟩, _, rfl, rfl, fun _ => rfl, fun hn => absurd hends hn⟩
      · rw [he]
        exact Or.inr ⟨fun h => herr h.1.2, e, rfl⟩
    · rw [ho]
      exact Or.inr ⟨fun h => hout h.1.1, e, rfl⟩

def managed (conf : Conf) (now : Rat) (poll : Nat → Poll) (a : Action) : Action :=
  match (if a.isDue now then checkFinished conf (poll a.uuid) a else .ok a) with
  | .ok b => b
  | .error _ => a

theorem managed_due (conf : Conf) (h : a.isDue now = true) (hr : Sound (poll a.uuid) a) :
    checkFinished conf (poll a.uuid) a = .ok (managed conf now poll a) ∧
      Looked (poll a.uuid) a (managed conf now poll a) := by
  obtain ⟨-, b, he, hb⟩ := (checkFinished_cases conf (poll a.uuid) a).resolve_right fun hn => hn.1 hr
  have hm : managed conf now poll a = b := by
    unfold managed
    rw [if_pos h, he]
  rw [hm]
  exact ⟨he, hb⟩

theorem managed_not_due (conf : Conf) (h : a.isDue now = false) : managed conf now poll a = a := by
  unfold managed
  rw [h]
  rfl

theorem manageFinishedChecks_ok (conf : Conf) (kept rest : List Action) (w : World)
    (h : ∀ a ∈ rest, a.isDue now = true → Sound (poll a.uuid) a) :
    ∃ w', manageFinishedChecks conf now poll kept rest w = (.ok (), w') ∧
      w'.checks = kept ++ (rest.map (managed conf now poll)).filter (fun a => !a.isFinal) ∧
      w'.returns = w.returns ++ (rest.map (managed conf now poll)).filter Action.isFinal ∧ Rest w w' := by
  induction rest generalizing kept w with
  | nil => exact ⟨{ w with checks := kept }, rfl, by simp, by simp, rfl, rfl, rfl⟩
  | cons a rest ih =>
    have hrest := fun b hb => h b (List.mem_cons_of_mem a hb)
    have hone : (if a.isDue now then checkFinished conf (poll a.uuid) a else .ok a) = .ok (managed conf now poll a) := by
      cases hd : a.isDue now with
      | true => exact (managed_due conf hd (h a List.mem_cons_self hd)).1
      | false =>
        rw [managed_not_due conf hd]
        rfl
    rw [manageFinishedChecks, hone]
    dsimp only
    generalize hm : managed conf now poll a = b
    cases hf : b.isFinal with
    | true =>
      have hfinal : b.status = .done ∨ b.status = .timeout := by simpa [Action.isFinal] using hf
      rw [if_pos hfinal]
      obtain ⟨w', hrun, hchecks, hreturns, hw⟩ := ih kept
        { w with actionsFinished := w.actionsFinished + 1, returns := w.returns ++ [b] } hrest
      refine ⟨w', hrun, ?_, ?_, hw.1, hw.2, hw.3⟩
      · rw [hchecks, List.map_cons, hm]
        simp [hf]
      · rw [hreturns, List.map_cons, hm]
        simp [hf]
    | false =>
      have hfinal : ¬ (b.status = .done ∨ b.status = .timeout) := by simpa [Action.isFinal] using hf
      rw [if_neg hfinal]
      obtain ⟨w', hrun, hchecks, hreturns, hw⟩ := ih (kept ++ [b]) w hrest
      refine ⟨w', hrun, ?_, ?_, hw⟩
      · rw [hchecks, List.map_cons, hm]
        simp [hf]
      · rw [hreturns, List.map_cons, hm]
        simp [hf]

theorem manageFinishedChecks_raises (conf : Conf) (kept rest : List Action) (w : World) (ha : a ∈ rest) (hd : a.isDue now = true)
    (h : ¬ Sound (poll a.uuid) a) : ∃ e, (manageFinishedChecks conf now poll kept rest w).1 = .error e := by
  induction rest generalizing kept w with
  | nil => cases ha
  | cons b rest ih =>
    rw [manageFinishedChecks]
    cases hr : (if b.isDue now then checkFinished conf (poll b.uuid) b else .ok b) with
    | error e => exact ⟨e, rfl⟩
    | ok c =>
      rcases List.mem_cons.mp ha with rfl | ha
      · rw [if_pos hd] at hr
        obtain ⟨-, e, he⟩ := (checkFinished_cases conf (poll a.uuid) a).resolve_left fun hn => h hn.1
        rw [he] at hr
        cases hr
      · dsimp only
        split
        · exact ih _ _ ha
        · exact ih _ _ ha

/-! ## What a step must do -/

def uuids (l : List Action) : List Nat := l.map Action.uuid

/-- Each action that has been taken is answered once or held, the launch goes
on with all the actions, and what has ended is answered; the worker stops with
actions only when it is told to. -/
structure Right (conf : Conf) (w : World) (i : Input) : Prop where
  alive : ∀ e, (w.step conf i).phase ≠ .crashed e
  once : ∀ id, (w.step conf i).taken.count id =
    (uuids (w.step conf i).returns).count id + (uuids (w.step conf i).checks).count id
  final : ∀ a ∈ (w.step conf i).returns, a.isFinal = true
  launched : w.phase = .launching → ∀ a ∈ (w.step conf i).checks, a.status = .launched
  answered : w.phase = .managing → ∀ a ∈ w.checks, a.isDue i.now = true → Ends (i.poll a.uuid) a →
    ∃ b ∈ (w.step conf i).returns.drop w.returns.length, b.uuid = a.uuid
  soon : ∀ a ∈ (w.step conf i).checks, a.status = .launched → a.waitTime ≤ 1 / 2
  stops : (w.step conf i).phase = .stopped →
    w.phase = .stopped ∨ i.die = true ∨ w.interrupted = true ∨ i.signal = true ∨ (w.step conf i).checks = []

def Allowed (w : World) (i : Input) : Prop :=
  match w.phase with
  | .launching => ∀ a ∈ w.checks, a.status = .queued → Starts (i.launch a.uuid) a
  | .managing => ∀ a ∈ w.checks, a.isDue i.now = true → Sound (i.poll a.uuid) a
  | _ => True

structure Initial (w : World) : Prop where
  checks : w.checks = []
  returns : w.returns = []
  taken : w.taken = []
  phase : w.phase = .getting

/-! ## Steps -/

structure Inv (w : World) : Prop where
  alive : ∀ e, w.phase ≠ .crashed e
  once : ∀ id, w.taken.count id = (uuids w.returns).count id + (uuids w.checks).count id
  final : ∀ a ∈ w.returns, a.isFinal = true
  held : ∀ a ∈ w.checks, (a.status = .launched ∧ a.waitTime ≤ 1 / 2) ∨ (a.status = .queued ∧ w.phase = .launching)

theorem Initial.inv (h : Initial w) : Inv w where
  alive e he := by
    rw [h.phase] at he
    cases he
  once id := by
    rw [h.taken, h.returns, h.checks]
    rfl
  final a ha := by
    rw [h.returns] at ha
    cases ha
  held a ha := by
    rw [h.checks] at ha
    cases ha

structure Pulled (w w' : World) : Prop where
  returns : w'.returns = w.returns
  once : ∀ id, w'.taken.count id + (uuids w.checks).count id = w.taken.count id + (uuids w'.checks).count id
  checks : ∀ a ∈ w'.checks, a ∈ w.checks ∨ a.status = .queued

theorem Pulled.refl (w : World) : Pulled w w := ⟨rfl, fun _ => rfl, fun _ ha => Or.inl ha⟩

theorem getNewChecks_pulled (conf : Conf) (got : List Got) (w : World) : Pulled w (getNewChecks conf got w) := by
  induction got generalizing w with
  | nil =>
    unfold getNewChecks
    split
    · exact ⟨rfl, fun _ => rfl, fun _ ha => Or.inl ha⟩
    · exact Pulled.refl w
  | cons g rest ih =>
    unfold getNewChecks
    split
    · cases g with
      | void => exact ih w
      | other => exact ih w
      | do_ a =>
        have h := ih { w with checks := w.checks ++ [a.action], actionsGot := w.actionsGot + 1, taken := w.taken ++ [a.action.uuid] }
        refine ⟨h.returns, ?_, ?_⟩
        · intro id
          have hid := h.once id
          simp only [uuids, List.map_append, List.count_append, List.map_cons, List.map_nil] at hid ⊢
          omega
        · intro b hb
          rcases h.checks b hb with hb | hb
          · rcases List.mem_append.mp hb with hb | hb
            · exact Or.inl hb
            · exact Or.inr (List.mem_singleton.mp hb ▸ a.queued)
          · exact Or.inr hb
      | ping =>
        have h := ih { w with pongs := w.pongs + 1 }
        exact ⟨h.returns, h.once, h.checks⟩
      | full => exact Pulled.refl w
      | failed => exact Pulled.refl w
      | empty =>
        dsimp only
        split
        · exact ⟨rfl, fun _ => rfl, fun _ ha => Or.inl ha⟩
        · exact Pulled.refl w
      | closed => exact ⟨rfl, fun _ => rfl, fun _ ha => Or.inl ha⟩
    · exact Pulled.refl w

theorem uuids_launchOne (launch : Nat → Launch) (l : List Action) : uuids (l.map (launchOne launch)) = uuids l := by
  simp [uuids, Function.comp_def]

theorem managed_uuid (conf : Conf) (now : Rat) (poll : Nat → Poll) (a : Action) :
    (managed conf now poll a).uuid = a.uuid := by
  cases hd : a.isDue now with
  | false => rw [managed_not_due conf hd]
  | true =>
    rcases checkFinished_cases conf (poll a.uuid) a with ⟨hr, -⟩ | ⟨-, e, he⟩
    · exact (managed_due conf hd hr).2.uuid
    · unfold managed
      rw [if_pos hd, he]

theorem count_managed (conf : Conf) (now : Rat) (poll : Nat → Poll) (l : List Action) (id : Nat) :
    (uuids ((l.map (managed conf now poll)).filter Action.isFinal)).count id +
      (uuids ((l.map (managed conf now poll)).filter fun a => !a.isFinal)).count id = (uuids l).count id := by
  induction l with
  | nil => rfl
  | cons a l ih =>
    have ha : (managed conf now poll a).uuid = a.uuid := managed_uuid conf now poll a
    simp only [uuids, List.map_cons, List.count_cons] at ih ⊢
    cases hf : (managed conf now poll a).isFinal with
    | true =>
      simp only [List.filter_cons, hf, if_true, Bool.not_true, Bool.false_eq_true, if_false, List.map_cons, ha,
        List.count_cons]
      omega
    | false =>
      simp only [List.filter_cons, hf, if_true, Bool.not_false, Bool.false_eq_true, if_false, List.map_cons, ha,
        List.count_cons]
      omega

theorem step_launching (conf : Conf) (hp : w.phase = .launching) (h : ∀ a ∈ w.checks, a.status = .queued → Starts (i.launch a.uuid) a) :
    (w.step conf i).phase = .managing ∧ (w.step conf i).checks = w.checks.map (launchOne i.launch) ∧
      (w.step conf i).returns = w.returns ∧ Rest w (w.step conf i) := by
  obtain ⟨w', hrun, hchecks, hreturns, hw⟩ := launchNewChecks_ok [] w.checks w h
  have hstep : w.step conf i = { w' with phase := .managing } := by
    unfold World.step
    rw [hp]
    dsimp only
    rw [hrun]
    rfl
  rw [hstep]
  exact ⟨rfl, hchecks, hreturns, hw.1, hw.2, hw.3⟩

theorem step_managing (conf : Conf) (hp : w.phase = .managing) (h : ∀ a ∈ w.checks, a.isDue i.now = true → Sound (i.poll a.uuid) a) :
    (w.step conf i).phase = .middle ∧
      (w.step conf i).checks = (w.checks.map (managed conf i.now i.poll)).filter (fun a => !a.isFinal) ∧
      (w.step conf i).returns = w.returns ++ (w.checks.map (managed conf i.now i.poll)).filter Action.isFinal ∧
      Rest w (w.step conf i) := by
  obtain ⟨w', hrun, hchecks, hreturns, hw⟩ := manageFinishedChecks_ok conf [] w.checks w h
  have hstep : w.step conf i = { w' with phase := .middle } := by
    unfold World.step
    rw [hp]
    dsimp only
    rw [hrun]
    rfl
  rw [hstep]
  exact ⟨rfl, hchecks, hreturns, hw.1, hw.2, hw.3⟩

theorem Right.of_launching (hp : w.phase = .launching) (hi : Inv w)
    (h : ∀ a ∈ w.checks, a.status = .queued → Starts (i.launch a.uuid) a) : Right conf w i := by
  obtain ⟨hphase, hchecks, hreturns, hw⟩ := step_launching conf hp h
  have hlaunched : ∀ a ∈ (w.step conf i).checks, a.status = .launched ∧ a.waitTime ≤ 1 / 2 := by
    intro a ha
    rw [hchecks] at ha
    obtain ⟨b, hb, rfl⟩ := List.mem_map.mp ha
    unfold launchOne
    split
    · exact ⟨rfl, by norm_num [Action.started]⟩
    · rename_i hq
      exact (hi.held b hb).resolve_right fun hn => hq hn.1
  refine ⟨?_, ?_, ?_, fun _ a ha => (hlaunched a ha).1, ?_, fun a ha _ => (hlaunched a ha).2, ?_⟩
  · intro e he
    rw [hphase] at he
    cases he
  · intro id
    rw [hw.taken, hreturns, hchecks, uuids_launchOne]
    exact hi.once id
  · rw [hreturns]
    exact hi.final
  · intro hm
    rw [hp] at hm
    cases hm
  · intro hs
    rw [hphase] at hs
    cases hs

theorem Right.of_managing (hp : w.phase = .managing) (hi : Inv w)
    (h : ∀ a ∈ w.checks, a.isDue i.now = true → Sound (i.poll a.uuid) a) : Right conf w i := by
  obtain ⟨hphase, hchecks, hreturns, hw⟩ := step_managing conf hp h
  refine ⟨?_, ?_, ?_, ?_, ?_, ?_, ?_⟩
  · intro e he
    rw [hphase] at he
    cases he
  · intro id
    have hcount := count_managed conf i.now i.poll w.checks id
    have hold := hi.once id
    rw [hw.taken, hreturns, hchecks]
    simp only [uuids, List.map_append, List.count_append] at hcount hold ⊢
    omega
  · rw [hreturns]
    intro a ha
    rcases List.mem_append.mp ha with ha | ha
    · exact hi.final a ha
    · exact (List.mem_filter.mp ha).2
  · intro hl
    rw [hp] at hl
    cases hl
  · intro _ a ha hd hends
    rw [hreturns, List.drop_left]
    refine ⟨managed conf i.now i.poll a, ?_, managed_uuid conf i.now i.poll a⟩
    rw [List.mem_filter]
    exact ⟨List.mem_map_of_mem ha, (managed_due conf hd (h a ha hd)).2.ended hends⟩
  · intro a ha _
    rw [hchecks, List.mem_filter] at ha
    obtain ⟨hmem, hf⟩ := ha
    obtain ⟨b, hb, rfl⟩ := List.mem_map.mp hmem
    have hwait : b.waitTime ≤ 1 / 2 := by
      rcases hi.held b hb with hb | ⟨-, hb⟩
      · exact hb.2
      · rw [hp] at hb
        cases hb
    cases hd : b.isDue i.now with
    | false =>
      rw [managed_not_due conf hd]
      exact hwait
    | true =>
      have hlooked := (managed_due conf hd (h b hb hd)).2
      apply (hlooked.goes ?_).2
      intro hends
      rw [hlooked.ended hends] at hf
      cases hf
  · intro hs
    rw [hphase] at hs
    cases hs

theorem step_getting (hp : w.phase = .getting) : w.step conf i =
    if w.iAmDying then { w with phase := .managing } else { getNewChecks conf i.got w with phase := .launching } := by
  unfold World.step
  rw [hp]

theorem Right.of_others (hl : w.phase ≠ .launching) (hm : w.phase ≠ .managing) (hi : Inv w) : Right conf w i := by
  have hlaunched : ∀ a ∈ w.checks, a.status = .launched ∧ a.waitTime ≤ 1 / 2 := fun a ha =>
    (hi.held a ha).resolve_right fun hn => hl hn.2
  have hsame : (∀ e, (w.step conf i).phase ≠ .crashed e) → (w.step conf i).taken = w.taken →
      (w.step conf i).returns = w.returns → (w.step conf i).checks = w.checks → ((w.step conf i).phase = .stopped →
        w.phase = .stopped ∨ i.die = true ∨ w.interrupted = true ∨ i.signal = true ∨ (w.step conf i).checks = []) →
      Right conf w i := by
    intro halive htaken hreturns hchecks hstops
    refine ⟨halive, ?_, ?_, fun h => absurd h hl, fun h => absurd h hm, ?_, hstops⟩
    · intro id
      rw [htaken, hreturns, hchecks]
      exact hi.once id
    · rw [hreturns]
      exact hi.final
    · intro a ha _
      rw [hchecks] at ha
      exact (hlaunched a ha).2
  cases hp : w.phase with
  | launching => exact absurd hp hl
  | managing => exact absurd hp hm
  | crashed e => exact absurd hp (hi.alive e)
  | stopped =>
    have hstep : w.step conf i = w := by
      unfold World.step
      rw [hp]
    refine hsame ?_ ?_ ?_ ?_ fun _ => Or.inl hp
    all_goals rw [hstep]
    exact hi.alive
  | getting =>
    cases hd : w.iAmDying with
    | true =>
      have hstep : w.step conf i = { w with phase := .managing } := by
        rw [step_getting hp, hd]
        rfl
      apply hsame
      all_goals rw [hstep]
      · intro e h
        cases h
      · intro h
        cases h
    | false =>
      have hstep : w.step conf i = { getNewChecks conf i.got w with phase := .launching } := by
        rw [step_getting hp, hd]
        rfl
      have hpulled := getNewChecks_pulled conf i.got w
      refine ⟨?_, ?_, ?_, fun h => absurd h hl, fun h => absurd h hm, ?_, ?_⟩
      · intro e he
        rw [hstep] at he
        cases he
      · intro id
        rw [hstep]
        have hid := hpulled.once id
        have hold := hi.once id
        dsimp only
        rw [hpulled.returns]
        omega
      · rw [hstep]
        intro a ha
        exact hi.final a (hpulled.returns ▸ ha)
      · intro a ha hs
        rw [hstep] at ha
        rcases hpulled.checks a ha with ha | hq
        · exact (hlaunched a ha).2
        · rw [hq] at hs
          cases hs
      · intro hs
        rw [hstep] at hs
        cases hs
  | middle =>
    have hstep : w.step conf i =
        if i.die || (w.interrupted || i.signal) || (w.checks = [] && w.iAmDying) then
          { w with interrupted := w.interrupted || i.signal, phase := .stopped }
        else { w with interrupted := w.interrupted || i.signal, phase := .getting } := by
      unfold World.step
      rw [hp]
    by_cases hstop : (i.die || (w.interrupted || i.signal) || (w.checks = [] && w.iAmDying)) = true
    · rw [if_pos hstop] at hstep
      apply hsame
      all_goals rw [hstep]
      · intro e h
        cases h
      · intro _
        simp only [Bool.or_eq_true, Bool.and_eq_true, decide_eq_true_eq] at hstop
        tauto
    · rw [if_neg hstop] at hstep
      apply hsame
      all_goals rw [hstep]
      · intro e h
        cases h
      · intro h
        cases h

theorem right_iff (hi : Inv w) (i : Input) : Right conf w i ↔ Allowed w i := by
  by_cases hl : w.phase = .launching
  · have hallowed : Allowed w i ↔ ∀ a ∈ w.checks, a.status = .queued → Starts (i.launch a.uuid) a := by
      unfold Allowed
      rw [hl]
    rw [hallowed]
    refine ⟨?_, Right.of_launching hl hi⟩
    intro hright a ha hq
    by_contra hn
    obtain ⟨e, he⟩ := launchNewChecks_raises i.launch [] w.checks w ha hq hn
    have hpair : launchNewChecks i.launch [] w.checks w = (.error e, (launchNewChecks i.launch [] w.checks w).2) :=
      Prod.ext he rfl
    apply hright.alive e
    unfold World.step
    rw [hl]
    dsimp only
    rw [hpair]
    rfl
  · by_cases hm : w.phase = .managing
    · have hallowed : Allowed w i ↔ ∀ a ∈ w.checks, a.isDue i.now = true → Sound (i.poll a.uuid) a := by
        unfold Allowed
        rw [hm]
      rw [hallowed]
      refine ⟨?_, Right.of_managing hm hi⟩
      intro hright a ha hd
      by_contra hn
      obtain ⟨e, he⟩ := manageFinishedChecks_raises conf [] w.checks w ha hd hn
      have hpair : manageFinishedChecks conf i.now i.poll [] w.checks w =
          (.error e, (manageFinishedChecks conf i.now i.poll [] w.checks w).2) := Prod.ext he rfl
      apply hright.alive e
      unfold World.step
      rw [hm]
      dsimp only
      rw [hpair]
      rfl
    · refine iff_of_true (Right.of_others hl hm hi) ?_
      unfold Allowed
      cases hp : w.phase with
      | launching => exact absurd hp hl
      | managing => exact absurd hp hm
      | _ => trivial

theorem held_step (hi : Inv w) (ha : Allowed w i) : ∀ a ∈ (w.step conf i).checks,
    a.status = .launched ∨ a.status = .queued ∧ (w.step conf i).phase = .launching := by
  cases hp : w.phase with
  | launching =>
    unfold Allowed at ha
    rw [hp] at ha
    intro a hmem
    exact Or.inl ((Right.of_launching hp hi ha).launched hp a hmem)
  | managing =>
    unfold Allowed at ha
    rw [hp] at ha
    obtain ⟨-, hchecks, -⟩ := step_managing conf hp ha
    intro a hmem
    rw [hchecks, List.mem_filter] at hmem
    obtain ⟨hmem, hf⟩ := hmem
    obtain ⟨b, hb, rfl⟩ := List.mem_map.mp hmem
    have hlaunched : b.status = .launched := by
      rcases hi.held b hb with hb | ⟨-, hb⟩
      · exact hb.1
      · rw [hp] at hb
        cases hb
    left
    cases hd : b.isDue i.now with
    | false => rwa [managed_not_due conf hd]
    | true =>
      have hlooked := (managed_due conf hd (ha b hb hd)).2
      rw [(hlooked.goes ?_).1, hlaunched]
      intro hends
      rw [hlooked.ended hends] at hf
      cases hf
  | crashed e => exact absurd hp (hi.alive e)
  | stopped =>
    have hstep : w.step conf i = w := by
      unfold World.step
      rw [hp]
    rw [hstep]
    exact fun a hmem => (hi.held a hmem).imp_left And.left
  | getting =>
    rw [step_getting hp]
    split
    · intro a hmem
      rcases hi.held a hmem with h | ⟨-, h⟩
      · exact Or.inl h.1
      · rw [hp] at h
        cases h
    · intro a hmem
      rcases (getNewChecks_pulled conf i.got w).checks a hmem with hmem | hq
      · rcases hi.held a hmem with h | ⟨-, h⟩
        · exact Or.inl h.1
        · rw [hp] at h
          cases h
      · exact Or.inr ⟨hq, rfl⟩
  | middle =>
    have hchecks : (w.step conf i).checks = w.checks := by
      unfold World.step
      rw [hp]
      dsimp only
      split <;> rfl
    intro a hmem
    rw [hchecks] at hmem
    rcases hi.held a hmem with h | ⟨-, h⟩
    · exact Or.inl h.1
    · rw [hp] at h
      cases h

theorem Inv.step (hi : Inv w) (ha : Allowed w i) : Inv (w.step conf i) := by
  have hright : Right conf w i := (right_iff hi i).mpr ha
  refine ⟨hright.alive, hright.once, hright.final, ?_⟩
  intro a hmem
  exact (held_step hi ha a hmem).imp_left fun h => ⟨h, hright.soon a hmem h⟩

theorem Inv.run (hi : Inv w) (inputs : List Input)
    (h : ∀ l i, l ++ [i] <+: inputs → Allowed (w.run conf l) i) : Inv (w.run conf inputs) := by
  induction inputs generalizing w with
  | nil => exact hi
  | cons i inputs ih =>
    have hfirst : Allowed w i := h [] i ⟨inputs, rfl⟩
    apply ih (hi.step hfirst)
    intro l j hl
    apply h (i :: l) j
    exact List.cons_prefix_cons.mpr ⟨rfl, hl⟩

/-! ## Runs -/

/-- A run of a worker is right if and only if each of its steps is allowed. -/
theorem run_right_iff (conf : Conf) {w₀ : World} (h₀ : Initial w₀) (inputs : List Input) :
    (∀ l i, l ++ [i] <+: inputs → Right conf (w₀.run conf l) i) ↔
      ∀ l i, l ++ [i] <+: inputs → Allowed (w₀.run conf l) i := by
  constructor
  · intro h l i hp
    have hinv : ∀ l, l <+: inputs → Inv (w₀.run conf l) := by
      intro l
      induction l using List.reverseRecOn with
      | nil => exact fun _ => h₀.inv
      | append_singleton l j ih =>
        intro hl
        have hbefore := ih ((List.prefix_append l [j]).trans hl)
        rw [World.run, List.foldl_append]
        exact hbefore.step ((right_iff hbefore j).mp (h l j hl))
    exact (right_iff (hinv l ((List.prefix_append l [i]).trans hp)) i).mp (h l i hp)
  · intro h l i hp
    have hinv : Inv (w₀.run conf l) := by
      apply h₀.inv.run
      intro l' j hl'
      exact h l' j (hl'.trans ((List.prefix_append l [i]).trans hp))
    exact (right_iff hinv i).mpr (h l i hp)

end

/-! ## Two actions -/

def workerConf : Conf := .of 8 8192

def idle : World := ⟨[], false, false, 0, 0, 0, 0, [], 0, [], .getting⟩

def ping (uuid : Nat) : QueuedAction :=
  ⟨⟨uuid, "check_ping", 10, .queued, 0, 0, 0, 0, "", "", "", "", "", 0⟩, rfl⟩

def twoPings (second : Popen) : Input where
  got := [.do_ (ping 1), .do_ (ping 2)]
  launch uuid := ⟨0, fun command => .ok command, fun _ => if uuid = 2 then second else .process uuid, 0⟩
  now := 1
  poll _ := ⟨1, 1, .exited 0 (.text "OK") (.text ""), .ok ()⟩
  die := false
  signal := false

theorem initial_idle : Initial idle := ⟨rfl, rfl, rfl, rfl⟩

theorem run_right_iff_two :
    (∀ l i, l ++ [i] <+: [twoPings (.process 2), twoPings (.process 2), twoPings (.process 2)] →
      Right workerConf (idle.run workerConf l) i) ↔
    ∀ l i, l ++ [i] <+: [twoPings (.process 2), twoPings (.process 2), twoPings (.process 2)] →
      Allowed (idle.run workerConf l) i :=
  run_right_iff workerConf initial_idle _

/-- The missing executable of the second action ends the worker. -/
theorem missing_executable : Initial idle ∧
    ¬ Right workerConf (idle.run workerConf [twoPings .fileNotFoundError]) (twoPings .fileNotFoundError) := by
  refine ⟨initial_idle, ?_⟩
  intro h
  exact h.alive (.actionError "process_launch_failed: Missing executable command: check_ping") (by decide +kernel)

end Alignak.WorkerLoop
