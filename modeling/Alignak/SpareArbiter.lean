import Mathlib.Data.Rat.Defs
import Mathlib.Algebra.Order.Ring.Rat
import Mathlib.Data.List.Induction
import Mathlib.Tactic.Common

/-!
# The spare arbiter

A spare arbiter waits for the death of its master. The requests of the master
come between two turns of the waiting loop; the work of a master is only
told from the waiting. A configuration that is pushed ends the daemon.
-/

namespace Alignak.SpareArbiter

structure ArbiterLink where
  spare : Bool
  spareCheckInterval : Int
  spareMaxCheckAttempts : Int
  alive : Bool
  deriving Repr

inductive Phase
  | mainLoop
  | waiting (masterTimeout : Int)
  | ended
  deriving DecidableEq, Repr

structure World where
  isMaster : Bool
  mustRun : Bool
  interrupted : Bool
  newConf : Bool
  arbiters : List ArbiterLink
  lastMasterPing : Rat
  lastMasterSpeak : Option Rat
  phase : Phase
  deriving Repr

/-! ## Requests -/

inductive Answer
  | status (status : String)
  | unboundLocalError
  deriving DecidableEq, Repr

def doNotRun (now : Rat) (w : World) : Answer × World :=
  if w.isMaster then (.status "ERR", w)
  else (.unboundLocalError, { w with lastMasterSpeak := some now, mustRun := false })

def pushConfiguration (w : World) : World := { w with mustRun := false, newConf := true }

/-! ## The loops -/

def masterTimeout (arbiters : List ArbiterLink) : Int :=
  arbiters.foldl (fun t l => if l.spare then t else l.spareCheckInterval * l.spareMaxCheckAttempts) 300

inductive Outcome
  | answered (answer : Answer)
  | waits
  | works
  | masterDead
  | notImplementedError
  | nothing
  deriving DecidableEq, Repr

def waitForMasterDeath (now : Rat) (w : World) : World :=
  { w with lastMasterPing := now, phase := .waiting (masterTimeout w.arbiters) }

def doLoopTurn (now : Rat) (w : World) : Outcome × World :=
  if w.isMaster then (.works, w) else (.waits, waitForMasterDeath now w)

/-- `Arbiter.setup_new_conf` begins with that of `Daemon`, which raises. -/
def setupNewConf (w : World) : Outcome × World := (.notImplementedError, { w with phase := .ended })

/-- A turn of `do_main_loop`, when the loop has not been interrupted. -/
def loopTurn (now : Rat) (w : World) : Outcome × World :=
  if w.newConf then setupNewConf w else doLoopTurn now w

def takeLead (w : World) : World :=
  { w with
    arbiters := w.arbiters.map fun l => if l.spare then l else { l with alive := false }
    mustRun := true
    phase := .mainLoop }

def waitTurn (tcdiff now : Rat) (timeout : Int) (w : World) : Outcome × World :=
  if w.interrupted then (.nothing, { w with phase := .mainLoop })
  else
    let w := { w with lastMasterPing := w.lastMasterPing + tcdiff }
    if w.newConf then setupNewConf w
    else if timeout < now - w.lastMasterPing then (.masterDead, takeLead w)
    else (.nothing, w)

inductive Event
  | doNotRun (now : Rat)
  | pushConfiguration (now : Rat)
  | loopTurn (now : Rat)
  | waitTurn (tcdiff now : Rat)
  | interrupt
  deriving Repr

def World.step (w : World) (e : Event) : Outcome × World :=
  if w.phase = .ended then (.nothing, w)
  else
    match e with
    | .doNotRun now => let (answer, w) := SpareArbiter.doNotRun now w; (.answered answer, w)
    | .pushConfiguration _ => (.nothing, SpareArbiter.pushConfiguration w)
    | .loopTurn now => if w.phase = .mainLoop ∧ w.interrupted = false then SpareArbiter.loopTurn now w else (.nothing, w)
    | .waitTurn tcdiff now =>
      match w.phase with
      | .mainLoop | .ended => (.nothing, w)
      | .waiting timeout => SpareArbiter.waitTurn tcdiff now timeout w
    | .interrupt => (.nothing, { w with interrupted := true })

/-! ## What the spare should know -/

structure Heard where
  lastMessage : Option Rat
  dead : Bool

def Heard.step (h : Heard) (o : Outcome) : Event → Heard
  | .doNotRun now | .pushConfiguration now => ⟨some now, false⟩
  | .waitTurn tcdiff _ => ⟨h.lastMessage.map (· + tcdiff), h.dead || o == .masterDead⟩
  | .loopTurn _ | .interrupt => h

structure State where
  world : World
  heard : Heard

def State.step (s : State) (e : Event) : State :=
  ⟨(s.world.step e).2, s.heard.step (s.world.step e).1 e⟩

def State.run (s : State) (events : List Event) : State := events.foldl State.step s

def Heard.SilentFor (h : Heard) (timeout : Int) (now : Rat) : Prop := ∀ m, h.lastMessage = some m → timeout < now - m

def State.Right (s : State) (e : Event) : Prop :=
  match e with
  | .doNotRun _ => (s.world.step e).1 = .answered (.status "OK")
  | .waitTurn _ now => (s.world.step e).1 = .masterDead →
      (s.step e).heard.SilentFor (masterTimeout s.world.arbiters) now
  | .loopTurn _ => s.heard.dead = true → (s.world.step e).1 = .works ∨ (s.world.step e).1 = .nothing
  | .pushConfiguration _ | .interrupt => True

/-- The master sends no such request, and no loop turn begins after its death
has been declared. -/
def State.Allowed (s : State) (e : Event) : Prop :=
  match e with
  | .doNotRun _ => False
  | .loopTurn _ => s.heard.dead = true → s.world.phase = .mainLoop → s.world.interrupted = true
  | .waitTurn _ _ | .pushConfiguration _ | .interrupt => True

structure Initial (s : State) : Prop where
  spare : s.world.isMaster = false
  mainLoop : s.world.phase = .mainLoop
  heard : s.heard = ⟨none, false⟩

/-! ## Steps -/

section
variable {s : State} {w : World} {e : Event} {now tcdiff : Rat} {t : Int}

/-- What a turn of a loop keeps; only a configuration that has been pushed ends the daemon. -/
structure Turned (w w' : World) : Prop where
  isMaster : w'.isMaster = w.isMaster
  newConf : w'.newConf = w.newConf
  ended : w'.phase = .ended → w.phase = .ended ∨ w.newConf = true

theorem Turned.refl (w : World) : Turned w w := ⟨rfl, rfl, Or.inl⟩

theorem waitTurn_turned (tcdiff now : Rat) (t : Int) (w : World) : Turned w (waitTurn tcdiff now t w).2 := by
  unfold waitTurn
  split
  · exact ⟨rfl, rfl, nofun⟩
  · dsimp only
    split
    · rename_i hn
      exact ⟨rfl, rfl, fun _ => Or.inr hn⟩
    · split
      · exact ⟨rfl, rfl, nofun⟩
      · exact ⟨rfl, rfl, Or.inl⟩

theorem loopTurn_turned (now : Rat) (w : World) : Turned w (loopTurn now w).2 := by
  unfold loopTurn doLoopTurn
  split
  · rename_i hn
    exact ⟨rfl, rfl, fun _ => Or.inr hn⟩
  · split
    · exact Turned.refl w
    · exact ⟨rfl, rfl, nofun⟩

/-- A configuration that waits to be taken is never overlooked. -/
theorem waitTurn_masterDead (h : (waitTurn tcdiff now t w).1 = .masterDead) : w.newConf = false := by
  unfold waitTurn at h
  split at h
  · cases h
  · dsimp only at h
    split at h
    · cases h
    · rename_i hn
      exact Bool.eq_false_iff.mpr hn

theorem loopTurn_spare (h : w.isMaster = false) (now : Rat) :
    ¬ ((loopTurn now w).1 = .works ∨ (loopTurn now w).1 = .nothing) := by
  unfold loopTurn doLoopTurn
  rw [h]
  split
  · rintro (h | h) <;> cases h
  · rintro (h | h) <;> cases h

theorem step_doNotRun (h : w.isMaster = false) (now : Rat) : (w.step (.doNotRun now)).1 ≠ .answered (.status "OK") := by
  unfold World.step doNotRun
  rw [h]
  split
  · nofun
  · nofun

theorem step_loopTurn (w : World) (now : Rat) : w.step (.loopTurn now) =
    if w.phase = .mainLoop ∧ w.interrupted = false then loopTurn now w else (.nothing, w) := by
  unfold World.step
  split
  · rename_i hp
    rw [hp]
    rfl
  · rfl

theorem step_waitTurn (w : World) (tcdiff now : Rat) : w.step (.waitTurn tcdiff now) = (.nothing, w) ∨
    ∃ t, w.phase = .waiting t ∧ w.step (.waitTurn tcdiff now) = waitTurn tcdiff now t w := by
  unfold World.step
  cases hp : w.phase with
  | mainLoop => exact Or.inl rfl
  | ended => exact Or.inl rfl
  | waiting t => exact Or.inr ⟨t, rfl, rfl⟩

/-- A spare that has heard of its master has a configuration to take, unless it
has been told not to run. -/
structure Unheard (s : State) : Prop where
  spare : s.world.isMaster = false
  message : s.world.newConf = false → s.heard.lastMessage = none
  ended : s.world.phase = .ended → s.world.newConf = true

theorem Initial.unheard (h : Initial s) : Unheard s where
  spare := h.spare
  message _ := by rw [h.heard]
  ended hp := by
    rw [h.mainLoop] at hp
    cases hp

/-- A turn that does not make the spare hear of its master. -/
theorem Unheard.turned (h : Unheard s) (ht : Turned s.world (s.step e).world)
    (hm : s.heard.lastMessage = none → (s.step e).heard.lastMessage = none) : Unheard (s.step e) where
  spare := ht.isMaster.trans h.spare
  message hn := by
    rw [ht.newConf] at hn
    exact hm (h.message hn)
  ended hp := by
    rw [ht.newConf]
    exact (ht.ended hp).elim h.ended id

theorem Unheard.step (h : Unheard s) (ha : s.Allowed e) : Unheard (s.step e) := by
  cases e with
  | doNotRun now => exact ha.elim
  | pushConfiguration now =>
    have hnew : (s.step (.pushConfiguration now)).world.newConf = true := by
      unfold State.step World.step
      dsimp only
      split
      · rename_i hp
        exact h.ended hp
      · rfl
    refine ⟨?_, fun hn => ?_, fun _ => hnew⟩
    · unfold State.step World.step
      dsimp only
      split <;> exact h.spare
    · rw [hnew] at hn
      cases hn
  | interrupt =>
    apply h.turned
    · unfold State.step World.step
      dsimp only
      split
      · exact Turned.refl s.world
      · exact ⟨rfl, rfl, Or.inl⟩
    · exact id
  | loopTurn now =>
    apply h.turned
    · unfold State.step
      rw [step_loopTurn]
      split
      · exact loopTurn_turned now s.world
      · exact Turned.refl s.world
    · exact id
  | waitTurn tcdiff now =>
    apply h.turned
    · unfold State.step
      rcases step_waitTurn s.world tcdiff now with hs | ⟨t, -, hs⟩
      · rw [hs]
        exact Turned.refl s.world
      · rw [hs]
        exact waitTurn_turned tcdiff now t s.world
    · intro hm
      change s.heard.lastMessage.map (· + tcdiff) = none
      rw [hm]
      rfl

theorem right_iff (h : Unheard s) (e : Event) : s.Right e ↔ s.Allowed e := by
  cases e with
  | doNotRun now => exact iff_of_false (step_doNotRun h.spare now) id
  | pushConfiguration now => exact Iff.rfl
  | interrupt => exact Iff.rfl
  | loopTurn now =>
    unfold State.Right State.Allowed
    dsimp only
    rw [step_loopTurn]
    by_cases ht : s.world.phase = .mainLoop ∧ s.world.interrupted = false
    · rw [if_pos ht]
      have hspare := loopTurn_spare h.spare now
      simp [hspare, ht]
    · rw [if_neg ht]
      refine iff_of_true (fun _ => Or.inr rfl) fun _ hp => ?_
      rw [← Bool.not_eq_false]
      exact fun hi => ht ⟨hp, hi⟩
  | waitTurn tcdiff now =>
    refine iff_of_true ?_ trivial
    intro hdead m hm
    have hnew : s.world.newConf = false := by
      rcases step_waitTurn s.world tcdiff now with hs | ⟨t, -, hs⟩
      · rw [hs] at hdead
        cases hdead
      · rw [hs] at hdead
        exact waitTurn_masterDead hdead
    have hnone : (s.step (.waitTurn tcdiff now)).heard.lastMessage = none := by
      change s.heard.lastMessage.map (· + tcdiff) = none
      rw [h.message hnew]
      rfl
    rw [hnone] at hm
    cases hm

/-! ## Runs -/

theorem run_append (s : State) (l : List Event) (e : Event) : s.run (l ++ [e]) = (s.run l).step e := by
  unfold State.run
  rw [List.foldl_append]
  rfl

/-- A run is right if and only if each of its events is allowed. -/
theorem right_run_iff {s₀ : State} (h₀ : Initial s₀) (events : List Event) :
    (∀ l e, l ++ [e] <+: events → (s₀.run l).Right e) ↔ ∀ l e, l ++ [e] <+: events → (s₀.run l).Allowed e := by
  have hunheard : ∀ (P : State → Event → Prop), (∀ s e, Unheard s → P s e → s.Allowed e) →
      (∀ l e, l ++ [e] <+: events → P (s₀.run l) e) → ∀ l, l <+: events → Unheard (s₀.run l) := by
    intro P hP h l
    induction l using List.reverseRecOn with
    | nil => exact fun _ => h₀.unheard
    | append_singleton l e ih =>
      intro hl
      have hbefore := ih ((List.prefix_append l [e]).trans hl)
      rw [run_append]
      exact hbefore.step (hP _ _ hbefore (h l e hl))
  constructor
  · intro h l e hp
    have hs := hunheard State.Right (fun s e hs => (right_iff hs e).mp) h l ((List.prefix_append l [e]).trans hp)
    exact (right_iff hs e).mp (h l e hp)
  · intro h l e hp
    have hs := hunheard State.Allowed (fun _ _ _ => id) h l ((List.prefix_append l [e]).trans hp)
    exact (right_iff hs e).mpr (h l e hp)

end

/-! ## A master that speaks -/

def master : ArbiterLink := ⟨false, 10, 3, true⟩

def spareStarted : State :=
  ⟨⟨false, true, false, false, [master, ⟨true, 10, 3, true⟩], 0, none, .mainLoop⟩, ⟨none, false⟩⟩

theorem initial_spareStarted : Initial spareStarted := ⟨rfl, rfl, rfl⟩

/-- A silent master is declared dead after thirty seconds. -/
theorem right_run_iff_silent : (∀ l e, l ++ [e] <+: [.loopTurn 0, .waitTurn 0 29, .waitTurn 0 31] →
      (spareStarted.run l).Right e) ↔
    ∀ l e, l ++ [e] <+: [.loopTurn 0, .waitTurn 0 29, .waitTurn 0 31] → (spareStarted.run l).Allowed e :=
  right_run_iff initial_spareStarted _

/-- The request fails, the master is declared dead one second after it has
spoken, and then the spare waits again. -/
theorem not_right : Initial spareStarted ∧
    ¬ (spareStarted.run [.loopTurn 0]).Right (.doNotRun 30) ∧
    ¬ (spareStarted.run [.loopTurn 0, .doNotRun 30]).Right (.waitTurn 0 31) ∧
    ¬ (spareStarted.run [.loopTurn 0, .doNotRun 30, .waitTurn 0 31]).Right (.loopTurn 32) := by
  refine ⟨initial_spareStarted, ?_, ?_, ?_⟩
  · intro h
    have hanswer : ((spareStarted.run [.loopTurn 0]).world.step (.doNotRun 30)).1 = .answered (.status "OK") := h
    exact absurd hanswer (by decide +kernel)
  · intro h
    have hsilent := h (by decide +kernel) 30 (by decide +kernel)
    exact absurd hsilent (by decide +kernel)
  · intro h
    have hworks := h (by decide +kernel)
    exact absurd hworks (by decide +kernel)

end Alignak.SpareArbiter
