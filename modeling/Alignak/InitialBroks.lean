import Alignak.BroksSound
import Alignak.BrokerSound

/-!
# The initial broks of the schedulers

A broker that starts asks each of its schedulers to raise its initial broks.
The broker keeps one flag for all of them, and a scheduler one in its link to
the broker.
-/

namespace Alignak.InitialBroks

open Broks (Content BrokerLink addBrok sendBroksToModules)
open Broker (Answer askInitialBroks doLoopTurn)

/-! ## The scheduler -/

structure Initials where
  programStatus : Content
  skipInitialBroks : Bool
  objects : List Content
  done : Content

def Initials.contents (x : Initials) : List Content :=
  x.programStatus :: (if x.skipInitialBroks then [] else x.objects) ++ [x.done]

def brokCount (brokerUuid : String) (brokers : List BrokerLink) : Nat :=
  match brokers.find? fun l => l.uuid = brokerUuid with
  | some l => l.broks.length
  | none => 0

def setInitialized (brokerUuid : String) (brokers : List BrokerLink) : List BrokerLink :=
  brokers.map fun l => if l.uuid = brokerUuid then { l with initialized := true } else l

def addInitials (brokerUuid : String) (time : Int) (contents : List Content) (w : Broks.World) : Broks.World :=
  contents.foldl (fun w c => addBrok w.nextBrok (some brokerUuid) (w.newBrok c time)) w

def fillInitialBroks (initials : Initials) (time : Int) (brokerName : String) (w : Broks.World) : Nat × Broks.World :=
  match w.brokers.find? fun l => brokerName = l.name with
  | none => (0, w)
  | some l =>
    if l.initialized then (0, w)
    else
      let v := addInitials l.uuid time initials.contents w
      let count := brokCount l.uuid v.brokers - brokCount l.uuid w.brokers
      (count, sendBroksToModules { v with brokers := setInitialized l.uuid v.brokers })

def linkFlag (brokerName : String) (w : Broks.World) : Option Bool :=
  (w.brokers.find? fun l => brokerName = l.name).map BrokerLink.initialized

/-! ## The system -/

structure Conf extends Broker.Conf where
  brokerName : String
  initials : Nat → Initials
  schedulers_nodup : schedulers.Nodup

/-- What a scheduler has answered to the broker, and whether it has already
raised its initial broks for the current run of the broker. -/
structure Reply where
  scheduler : Nat
  count : Nat
  configured : Bool
  received : Bool
  deriving DecidableEq, Repr

structure Schedulers where
  world : Nat → Broks.World
  /-- The last run of the broker that a scheduler has raised its broks for. -/
  raised : Nat → Option Nat
  replies : List Reply

structure World where
  broker : Broker.World
  run : Nat
  schedulers : Schedulers

/-- A request is treated and answered, or neither. -/
inductive Contact
  | reached
  | notAlive
  | linkError
  deriving DecidableEq, Repr

section
variable (conf : Conf)

/-- A call of `_initial_broks`. -/
def getInitialBroks (run : Nat) (contact : Nat → Contact) (time : Int) (i : Nat) (s : Schedulers) :
    Answer Nat × Schedulers :=
  match contact i with
  | .linkError => (.linkError, s)
  | .notAlive => (.returned none, s)
  | .reached =>
    let (count, w) := fillInitialBroks (conf.initials i) time conf.brokerName (s.world i)
    (.returned (some count), {
      world := Function.update s.world i w
      raised := if count = 0 then s.raised else Function.update s.raised i (some run)
      replies := s.replies ++
        [⟨i, count, (linkFlag conf.brokerName (s.world i)).isSome, decide (s.raised i = some run)⟩] })

inductive Event
  | turn (contact : Nat → Contact) (time : Int) (env : Broker.Env)
  /-- The daemon of the broker is started again. -/
  | restart
  /-- The broker gets a configuration. -/
  | brokerConf
  /-- A scheduler gets a configuration with these links. -/
  | schedulerConf (i : Nat) (links : List BrokerLink)
  /-- The daemon of a scheduler is started again. -/
  | schedulerRestart (i : Nat)
  | schedulerStep (i : Nat) (event : Broks.Event)

def startedBroker : Broker.World :=
  ⟨false, fun _ => ⟨"", none, false, none⟩, 0, [], [], [], [], fun _ => [], fun _ => [], [], [], false⟩

def World.modifyScheduler (i : Nat) (f : Broks.World → Broks.World) (w : World) : World :=
  { w with schedulers := { w.schedulers with
      world := Function.update w.schedulers.world i (f (w.schedulers.world i)) } }

def newLink (l : BrokerLink) : BrokerLink := { l with initialized := false }

def World.step (w : World) : Event → World
  | .turn contact time env =>
    let (broker, schedulers) :=
      doLoopTurn conf.toConf (getInitialBroks conf w.run contact time) env w.broker w.schedulers
    { w with broker := broker, schedulers := schedulers }
  | .restart => { w with broker := startedBroker, run := w.run + 1 }
  | .brokerConf => { w with broker := { w.broker with gotInitialBroks := false } }
  | .schedulerConf i links => w.modifyScheduler i fun s => { s with brokers := links.map newLink }
  | .schedulerRestart i => w.modifyScheduler i fun s => { s with brokers := [] }
  | .schedulerStep i event => w.modifyScheduler i fun s => s.step event

def World.runs (w : World) (events : List Event) : World := events.foldl (World.step conf) w

structure Initial (w : World) : Prop where
  got : w.broker.gotInitialBroks = false
  replies : w.schedulers.replies = []

/-- The flag of the broker is about all its schedulers, and a scheduler that
has a configuration refuses the broker only if it has answered it before. -/
structure Agreed (w : World) : Prop where
  raised : w.broker.gotInitialBroks = true → ∀ i ∈ conf.schedulers, w.schedulers.raised i = some w.run
  refused : ∀ r ∈ w.schedulers.replies, r.configured = true → r.count = 0 → r.received = true

/-! ## The turns of a broker that waits -/

def Schedulers.ready (contact : Nat → Contact) (s : Schedulers) (i : Nat) : Bool :=
  contact i = .reached ∧ linkFlag conf.brokerName (s.world i) = some false

def Schedulers.stops (contact : Nat → Contact) (s : Schedulers) (i : Nat) : Bool :=
  contact i = .notAlive ∨ contact i = .reached ∧ linkFlag conf.brokerName (s.world i) ≠ some false

def Schedulers.asked (contact : Nat → Contact) (s : Schedulers) : List Nat → List Nat
  | [] => []
  | i :: is => i :: if s.stops conf contact i then [] else Schedulers.asked contact s is

/-- When a broker that waits asks its schedulers, no link has been initialized
for an earlier run, and the schedulers raise their broks together. -/
def World.TurnReady (contact : Nat → Contact) (w : World) : Prop :=
  w.broker.gotInitialBroks = false →
    (∀ i ∈ w.schedulers.asked conf contact conf.schedulers, contact i = .reached →
      linkFlag conf.brokerName (w.schedulers.world i) = some true → w.schedulers.raised i = some w.run) ∧
    ((∃ i ∈ w.schedulers.asked conf contact conf.schedulers, w.schedulers.ready conf contact i = true) →
      ∀ j ∈ conf.schedulers,
        j ∈ w.schedulers.asked conf contact conf.schedulers ∧ w.schedulers.ready conf contact j = true ∨
          w.schedulers.raised j = some w.run)

end

/-! ## The broks of a scheduler -/

section
variable {u v w : Broks.World} {uuid name : String} {links : List BrokerLink}

theorem brokCount_map {f : BrokerLink → BrokerLink} (hu : ∀ l, (f l).uuid = l.uuid)
    (hb : ∀ l, l.uuid = uuid → (f l).broks.length = l.broks.length + 1) (h : uuid ∈ links.map BrokerLink.uuid) :
    brokCount uuid (links.map f) = brokCount uuid links + 1 := by
  induction links with
  | nil => cases h
  | cons l links ih =>
    by_cases hl : l.uuid = uuid
    · unfold brokCount
      rw [List.map_cons, List.find?_cons_of_pos (by simpa [hu] using hl), List.find?_cons_of_pos (by simpa using hl)]
      exact hb l hl
    · have hm : uuid ∈ links.map BrokerLink.uuid := by
        rcases List.mem_cons.mp h with h | h
        · exact absurd h.symm hl
        · exact h
      have hstep := ih hm
      unfold brokCount at hstep ⊢
      rw [List.map_cons, List.find?_cons_of_neg (by simpa [hu] using hl), List.find?_cons_of_neg (by simpa using hl)]
      exact hstep

theorem addBrok_uuids (b : Nat) (u : Option String) (w : Broks.World) :
    (addBrok b u w).brokers.map BrokerLink.uuid = w.brokers.map BrokerLink.uuid := by
  rw [Broks.addBrok_brokers]
  split
  · rw [List.map_map]
    refine List.map_congr_left fun l _ => ?_
    show (if _ then l.append b else l).uuid = l.uuid
    split <;> rfl
  · rw [List.map_map]
    rfl

theorem brokCount_addBrok (b : Nat) (h : uuid ∈ w.brokers.map BrokerLink.uuid) :
    brokCount uuid (addBrok b (some uuid) w).brokers = brokCount uuid w.brokers + 1 := by
  have hlength : ∀ l : BrokerLink, (l.append b).broks.length = l.broks.length + 1 := fun l => List.length_append
  rw [Broks.addBrok_brokers]
  split
  · rename_i u hu
    obtain rfl : uuid = u := by
      by_cases he : uuid = ""
      · simp [Option.filter, he] at hu
      · simpa [Option.filter, he] using hu
    refine brokCount_map (fun l => ?_) (fun l hl => ?_) h
    · split <;> rfl
    · rw [if_pos hl]
      exact hlength l
  · exact brokCount_map (fun _ => rfl) (fun l _ => hlength l) h

theorem brokCount_addInitials (time : Int) (contents : List Content) (h : uuid ∈ w.brokers.map BrokerLink.uuid) :
    brokCount uuid (addInitials uuid time contents w).brokers = brokCount uuid w.brokers + contents.length := by
  induction contents generalizing w with
  | nil => rfl
  | cons c contents ih =>
    have hstep : brokCount uuid (addBrok w.nextBrok (some uuid) (w.newBrok c time)).brokers =
        brokCount uuid w.brokers + 1 := brokCount_addBrok w.nextBrok (w := w.newBrok c time) h
    have hmem : uuid ∈ (addBrok w.nextBrok (some uuid) (w.newBrok c time)).brokers.map BrokerLink.uuid := by
      rw [addBrok_uuids]
      exact h
    show brokCount uuid (addInitials uuid time contents _).brokers = _
    rw [ih hmem, hstep, List.length_cons]
    omega

theorem fillInitialBroks_count (initials : Initials) (time : Int) (name : String) (w : Broks.World) :
    (linkFlag name w = some false → (fillInitialBroks initials time name w).1 = initials.contents.length) ∧
    (linkFlag name w ≠ some false → fillInitialBroks initials time name w = (0, w)) := by
  unfold linkFlag fillInitialBroks
  cases hf : w.brokers.find? fun l => decide (name = l.name) with
  | none => exact ⟨fun h => (by cases h), fun _ => rfl⟩
  | some l =>
    cases hi : l.initialized with
    | true => exact ⟨fun h => absurd h (by simp [hi]), fun _ => by simp [hi]⟩
    | false =>
      refine ⟨fun _ => ?_, fun h => absurd (by rw [Option.map_some, hi]) h⟩
      simp only [hi, Bool.false_eq_true, if_false]
      have hmem : l.uuid ∈ w.brokers.map BrokerLink.uuid := List.mem_map_of_mem (List.mem_of_find?_eq_some hf)
      rw [brokCount_addInitials time initials.contents hmem]
      omega

theorem contents_pos (initials : Initials) : 0 < initials.contents.length := Nat.succ_pos _

end

/-! ## One turn -/

section
variable {conf : Conf} {contact : Nat → Contact} {s : Schedulers} {run : Nat} {time : Int} {i j : Nat}

def Schedulers.reply (brokerName : String) (initials : Nat → Initials) (run : Nat) (s : Schedulers) (i : Nat) : Reply :=
  ⟨i, if linkFlag brokerName (s.world i) = some false then (initials i).contents.length else 0,
    (linkFlag brokerName (s.world i)).isSome, decide (s.raised i = some run)⟩

theorem ready_eq_true : s.ready conf contact i = true ↔
    contact i = .reached ∧ linkFlag conf.brokerName (s.world i) = some false := decide_eq_true_iff

theorem stops_eq_true : s.stops conf contact i = true ↔
    contact i = .notAlive ∨ contact i = .reached ∧ linkFlag conf.brokerName (s.world i) ≠ some false := decide_eq_true_iff

theorem mem_asked : ∀ {is : List Nat}, i ∈ s.asked conf contact is → i ∈ is
  | j :: is, h => by
    unfold Schedulers.asked at h
    rcases List.mem_cons.mp h with rfl | h
    · exact List.mem_cons_self
    · split at h
      · cases h
      · exact List.mem_cons_of_mem _ (mem_asked h)

theorem asked_congr {s' : Schedulers} : ∀ {is : List Nat}, (∀ i ∈ is, s'.world i = s.world i) →
    s'.asked conf contact is = s.asked conf contact is
  | [], _ => rfl
  | i :: is, h => by
    have hstops : s'.stops conf contact i = s.stops conf contact i := by
      unfold Schedulers.stops
      rw [h i List.mem_cons_self]
    unfold Schedulers.asked
    rw [hstops, asked_congr fun j hj => h j (List.mem_cons_of_mem _ hj)]

theorem getInitialBroks_reached (conf : Conf) (run : Nat) (time : Int) (s : Schedulers) (h : contact i = .reached) :
    (getInitialBroks conf run contact time i s).1 =
      .returned (some (s.reply conf.brokerName conf.initials run i).count) ∧
    (getInitialBroks conf run contact time i s).2.replies = s.replies ++ [s.reply conf.brokerName conf.initials run i] ∧
    (∀ j ≠ i, (getInitialBroks conf run contact time i s).2.world j = s.world j) ∧
    (getInitialBroks conf run contact time i s).2.raised =
      (if linkFlag conf.brokerName (s.world i) = some false then Function.update s.raised i (some run) else s.raised) := by
  have hcount : (fillInitialBroks (conf.initials i) time conf.brokerName (s.world i)).1 =
      (s.reply conf.brokerName conf.initials run i).count := by
    obtain ⟨hpos, hzero⟩ := fillInitialBroks_count (conf.initials i) time conf.brokerName (s.world i)
    show _ = if _ then _ else _
    split
    · rename_i hf
      exact hpos hf
    · rename_i hf
      rw [hzero hf]
  have hzero : (s.reply conf.brokerName conf.initials run i).count = 0 ↔
      linkFlag conf.brokerName (s.world i) ≠ some false := by
    show (if _ then _ else _) = 0 ↔ _
    split
    · rename_i hf
      exact iff_of_false (Nat.ne_of_gt (contents_pos _)) (not_not_intro hf)
    · rename_i hf
      exact iff_of_true rfl hf
  unfold getInitialBroks
  rw [h]
  dsimp only
  rw [hcount]
  refine ⟨rfl, rfl, fun j hj => Function.update_of_ne hj .., ?_⟩
  by_cases hf : linkFlag conf.brokerName (s.world i) = some false
  · rw [if_neg fun h => hzero.mp h hf, if_pos hf]
  · rw [if_pos (hzero.mpr hf), if_neg hf]

theorem asked_of_stops {is : List Nat} (h : s.stops conf contact i = true) : s.asked conf contact (i :: is) = [i] := by
  show (i :: if s.stops conf contact i then [] else s.asked conf contact is) = _
  rw [if_pos h]

theorem asked_of_not_stops {is : List Nat} (h : s.stops conf contact i ≠ true) :
    s.asked conf contact (i :: is) = i :: s.asked conf contact is := by
  show (i :: if s.stops conf contact i then [] else s.asked conf contact is) = _
  rw [if_neg h]

theorem askInitialBroks_returned {σ : Type} {ask : Nat → σ → Answer Nat × σ} {is : List Nat} {w : Broker.World} {x : σ}
    {n : Option Nat} (h : (ask i x).1 = .returned n) : askInitialBroks ask (i :: is) w x =
      if n.getD 0 = 0 then (w, (ask i x).2, false)
      else askInitialBroks ask is { w with gotInitialBroks := true } (ask i x).2 := by
  have hpair : ask i x = (.returned n, (ask i x).2) := Prod.ext h rfl
  conv_lhs => unfold askInitialBroks
  rw [hpair]

structure Asked (conf : Conf) (contact : Nat → Contact) (run : Nat) (is : List Nat) (s s' : Schedulers) (got got' : Bool) :
    Prop where
  got : got' = true ↔ got = true ∨ ∃ i ∈ s.asked conf contact is, s.ready conf contact i = true
  raised : ∀ j, s'.raised j =
    if j ∈ s.asked conf contact is ∧ s.ready conf contact j = true then some run else s.raised j
  replies : s'.replies = s.replies ++
    ((s.asked conf contact is).filter fun i => contact i = .reached).map (s.reply conf.brokerName conf.initials run)

theorem askInitialBroks_asked (contact : Nat → Contact) (run : Nat) (time : Int) : ∀ (is : List Nat) (w : Broker.World)
    (s : Schedulers), is.Nodup → Asked conf contact run is s
      (askInitialBroks (getInitialBroks conf run contact time) is w s).2.1 w.gotInitialBroks
      (askInitialBroks (getInitialBroks conf run contact time) is w s).1.gotInitialBroks
  | [], w, s, _ => by
    refine ⟨⟨Or.inl, ?_⟩, fun j => ?_, (List.append_nil _).symm⟩
    · rintro (h | ⟨i, hi, -⟩)
      · exact h
      · cases hi
    · rw [if_neg fun h => by cases h.1]
      rfl
  | i :: is, w, s, hd => by
    rw [List.nodup_cons] at hd
    cases hc : contact i with
    | linkError =>
      have hask : getInitialBroks conf run contact time i s = (.linkError, s) := by
        unfold getInitialBroks
        rw [hc]
      have hready : s.ready conf contact i = false := by
        rw [Bool.eq_false_iff, Ne, ready_eq_true, hc]
        exact fun h => by cases h.1
      have hasked : s.asked conf contact (i :: is) = i :: s.asked conf contact is := by
        refine asked_of_not_stops ?_
        rw [Ne, stops_eq_true, hc]
        rintro (h | h)
        · cases h
        · cases h.1
      have ih := askInitialBroks_asked contact run time is w s hd.2
      unfold askInitialBroks
      rw [hask]
      refine ⟨?_, fun j => ?_, ?_⟩
      · rw [ih.got, hasked]
        simp only [List.mem_cons, exists_eq_or_imp, hready, Bool.false_eq_true, false_or]
      · rw [ih.raised, hasked]
        by_cases hj : j = i
        · subst hj
          simp only [hready, Bool.false_eq_true, and_false, if_false]
        · simp only [List.mem_cons, hj, false_or]
      · rw [ih.replies, hasked, List.filter_cons_of_neg (by simp [hc])]
    | notAlive =>
      have hask : getInitialBroks conf run contact time i s = (.returned none, s) := by
        unfold getInitialBroks
        rw [hc]
      have hready : s.ready conf contact i = false := by
        rw [Bool.eq_false_iff, Ne, ready_eq_true, hc]
        exact fun h => by cases h.1
      have hasked : s.asked conf contact (i :: is) = [i] := asked_of_stops (stops_eq_true.mpr (Or.inl hc))
      rw [askInitialBroks_returned (congrArg Prod.fst hask), hask, Option.getD_none, if_pos rfl]
      refine ⟨?_, fun j => ?_, ?_⟩
      · rw [hasked]
        simp only [List.mem_singleton, exists_eq_left, hready, Bool.false_eq_true, or_false]
      · rw [hasked, if_neg fun h => by rw [List.mem_singleton.mp h.1, hready] at h; cases h.2]
      · rw [hasked, List.filter_cons_of_neg (by simp [hc])]
        exact (List.append_nil _).symm
    | reached =>
      obtain ⟨hanswer, hreplies, hworld, hraised⟩ := getInitialBroks_reached conf run time s hc
      have hone : [i].filter (fun i => decide (contact i = .reached)) = [i] := by simp [hc]
      by_cases hf : linkFlag conf.brokerName (s.world i) = some false
      · have hready : s.ready conf contact i = true := ready_eq_true.mpr ⟨hc, hf⟩
        have hasked : s.asked conf contact (i :: is) = i :: s.asked conf contact is := by
          refine asked_of_not_stops ?_
          rw [Ne, stops_eq_true, hc]
          rintro (h | h)
          · cases h
          · exact h.2 hf
        have hcount : (s.reply conf.brokerName conf.initials run i).count ≠ 0 := by
          show (if _ then _ else _) ≠ 0
          rw [if_pos hf]
          exact Nat.ne_of_gt (contents_pos _)
        have hother : ∀ j ∈ is, j ≠ i := fun j hj he => hd.1 (he ▸ hj)
        have ih := askInitialBroks_asked contact run time is { w with gotInitialBroks := true }
          (getInitialBroks conf run contact time i s).2 hd.2
        have hsame : (getInitialBroks conf run contact time i s).2.asked conf contact is = s.asked conf contact is :=
          asked_congr fun j hj => hworld j (hother j hj)
        have hsameReady : ∀ j ≠ i, (getInitialBroks conf run contact time i s).2.ready conf contact j =
            s.ready conf contact j := by
          intro j hj
          unfold Schedulers.ready
          rw [hworld j hj]
        rw [if_pos hf] at hraised
        rw [askInitialBroks_returned hanswer, Option.getD_some, if_neg hcount]
        refine ⟨iff_of_true (ih.got.mpr (Or.inl rfl)) (Or.inr ⟨i, hasked ▸ List.mem_cons_self, hready⟩), fun j => ?_, ?_⟩
        · rw [ih.raised, hsame, hasked, hraised]
          by_cases hj : j = i
          · subst hj
            rw [Function.update_self, ite_self, if_pos ⟨List.mem_cons_self, hready⟩]
          · rw [hsameReady j hj, Function.update_of_ne hj]
            simp only [List.mem_cons, hj, false_or]
        · rw [ih.replies, hsame, hasked, hreplies, List.append_assoc, List.filter_cons_of_pos (by simp [hc]), List.map_cons]
          have hmap : ((s.asked conf contact is).filter fun i => contact i = .reached).map
              ((getInitialBroks conf run contact time i s).2.reply conf.brokerName conf.initials run) =
              ((s.asked conf contact is).filter fun i => contact i = .reached).map
                (s.reply conf.brokerName conf.initials run) := by
            refine List.map_congr_left fun j hj => ?_
            have hji : j ≠ i := hother j (mem_asked (List.mem_filter.mp hj).1)
            unfold Schedulers.reply
            rw [hworld j hji, hraised, Function.update_of_ne hji]
          rw [hmap]
          rfl
      · have hready : s.ready conf contact i = false := by
          rw [Bool.eq_false_iff, Ne, ready_eq_true]
          exact fun h => hf h.2
        have hasked : s.asked conf contact (i :: is) = [i] := asked_of_stops (stops_eq_true.mpr (Or.inr ⟨hc, hf⟩))
        have hcount : (s.reply conf.brokerName conf.initials run i).count = 0 := if_neg hf
        rw [if_neg hf] at hraised
        rw [askInitialBroks_returned hanswer, Option.getD_some, if_pos hcount]
        refine ⟨?_, fun j => ?_, ?_⟩
        · rw [hasked]
          simp only [List.mem_singleton, exists_eq_left, hready, Bool.false_eq_true, or_false]
        · rw [hasked, hraised, if_neg fun h => by rw [List.mem_singleton.mp h.1, hready] at h; cases h.2]
        · rw [hasked, hone, hreplies]
          rfl

/-! ## Runs -/

variable {w : World} {env : Broker.Env}

theorem step_turn_waiting (conf : Conf) (contact : Nat → Contact) (time : Int) (env : Broker.Env) (w : World)
    (hg : w.broker.gotInitialBroks = false) : Asked conf contact w.run conf.schedulers w.schedulers
      (w.step conf (.turn contact time env)).schedulers false
      (w.step conf (.turn contact time env)).broker.gotInitialBroks := by
  have h : Asked conf contact w.run conf.schedulers w.schedulers _ w.broker.gotInitialBroks _ :=
    askInitialBroks_asked contact w.run time conf.schedulers w.broker w.schedulers conf.schedulers_nodup
  rw [hg] at h
  unfold World.step doLoopTurn
  simp only [hg, Bool.false_eq_true, if_false]
  split
  · simp only [Broker.getObjectsFromFromQueues_got, Broker.manage_got]
    exact h
  · exact h

theorem step_turn_got (conf : Conf) (contact : Nat → Contact) (time : Int) (env : Broker.Env) (w : World)
    (hg : w.broker.gotInitialBroks = true) :
    (w.step conf (.turn contact time env)).schedulers = w.schedulers ∧
      (w.step conf (.turn contact time env)).broker.gotInitialBroks = true := by
  unfold World.step doLoopTurn
  simp only [hg, if_true, Broker.getObjectsFromFromQueues_got, Broker.manage_got, and_self]

theorem Agreed.turn_iff (h : Agreed conf w) :
    Agreed conf (w.step conf (.turn contact time env)) ↔ w.TurnReady conf contact := by
  cases hg : w.broker.gotInitialBroks with
  | true =>
    obtain ⟨hs, hgot⟩ := step_turn_got conf contact time env w hg
    refine iff_of_true ⟨fun _ => ?_, ?_⟩ fun hf => by rw [hg] at hf; cases hf
    · rw [hs]
      exact h.raised hg
    · rw [hs]
      exact h.refused
  | false =>
    have ht := step_turn_waiting conf contact time env w hg
    constructor
    · intro ha _
      refine ⟨fun i hi hc hf => ?_, fun hex j hj => ?_⟩
      · have hreply : w.schedulers.reply conf.brokerName conf.initials w.run i ∈
            (w.step conf (.turn contact time env)).schedulers.replies := by
          rw [ht.replies]
          exact List.mem_append_right _ (List.mem_map_of_mem (List.mem_filter.mpr ⟨hi, decide_eq_true hc⟩))
        have hreceived := ha.refused _ hreply (by show Option.isSome _ = true; rw [hf]; rfl)
          (by show (if _ then _ else _) = 0; rw [if_neg (by rw [hf]; decide)])
        exact of_decide_eq_true hreceived
      · have hraised := ha.raised (ht.got.mpr (Or.inr hex)) j hj
        rw [ht.raised] at hraised
        split at hraised
        · rename_i hj'
          exact Or.inl hj'
        · exact Or.inr hraised
    · intro hr
      obtain ⟨hstale, htogether⟩ := hr hg
      constructor
      · intro hgot i hi
        obtain hf | hex := ht.got.mp hgot
        · cases hf
        · rw [ht.raised]
          split
          · rfl
          · rename_i hn
            exact (htogether hex i hi).resolve_left hn
      · intro r hr hconf hcount
        rw [ht.replies] at hr
        rcases List.mem_append.mp hr with hr | hr
        · exact h.refused r hr hconf hcount
        · obtain ⟨i, hi, rfl⟩ := List.mem_map.mp hr
          obtain ⟨hasked, hc⟩ := List.mem_filter.mp hi
          refine decide_eq_true (hstale i hasked (of_decide_eq_true hc) ?_)
          cases hf : linkFlag conf.brokerName (w.schedulers.world i) with
          | none =>
            have hsome : (linkFlag conf.brokerName (w.schedulers.world i)).isSome = true := hconf
            rw [hf] at hsome
            cases hsome
          | some flag =>
            cases flag with
            | true => rfl
            | false =>
              have hzero : (if linkFlag conf.brokerName (w.schedulers.world i) = some false
                then (conf.initials i).contents.length else 0) = 0 := hcount
              rw [if_pos hf] at hzero
              exact absurd hzero (Nat.ne_of_gt (contents_pos _))

theorem Agreed.step (h : Agreed conf w) {ev : Event} (hev : ∀ contact time env, ev ≠ .turn contact time env) :
    Agreed conf (w.step conf ev) := by
  cases ev with
  | turn contact time env => exact absurd rfl (hev contact time env)
  | restart => exact ⟨fun hg => (by cases hg), h.refused⟩
  | brokerConf => exact ⟨fun hg => (by cases hg), h.refused⟩
  | schedulerConf i links => exact ⟨h.raised, h.refused⟩
  | schedulerRestart i => exact ⟨h.raised, h.refused⟩
  | schedulerStep i event => exact ⟨h.raised, h.refused⟩

theorem Initial.agreed (h : Initial w) : Agreed conf w :=
  ⟨fun hg => (by rw [h.got] at hg; cases hg), fun r hr => (by rw [h.replies] at hr; cases hr)⟩

theorem runs_append (w : World) (l l' : List Event) : w.runs conf (l ++ l') = (w.runs conf l).runs conf l' :=
  List.foldl_append

/-- The two sides agree all along a run if and only if each of its turns is made
when the schedulers are ready. -/
theorem agreed_iff {w₀ : World} (h₀ : Initial w₀) (events : List Event) :
    (∀ l, l <+: events → Agreed conf (w₀.runs conf l)) ↔
      ∀ l contact time env, l ++ [.turn contact time env] <+: events → (w₀.runs conf l).TurnReady conf contact := by
  constructor
  · intro h l contact time env hp
    have hafter := h _ hp
    rw [runs_append] at hafter
    exact (h l ((List.prefix_append l _).trans hp)).turn_iff.mp hafter
  · intro h l
    induction l using List.reverseRecOn with
    | nil => exact fun _ => h₀.agreed
    | append_singleton l ev ih =>
      intro hp
      have hl := ih ((List.prefix_append l _).trans hp)
      rw [runs_append]
      by_cases hev : ∃ contact time env, ev = .turn contact time env
      · obtain ⟨contact, time, env, rfl⟩ := hev
        exact hl.turn_iff.mpr (h l contact time env hp)
      · exact hl.step fun contact time env he => hev ⟨contact, time, env, he⟩

end

/-! ## Two schedulers -/

def twoSchedulers : Conf where
  schedulers := [0, 1]
  pollers := []
  reactionners := []
  receivers := []
  instanceId := fun _ => ""
  externalModules := []
  internalModules := []
  external_nodup := List.nodup_nil
  internal_nodup := List.nodup_nil
  brokerName := "broker-master"
  initials := fun _ => ⟨⟨"program_status", ""⟩, false, [], ⟨"initial_broks_done", ""⟩⟩
  schedulers_nodup := by decide

def nothingConfigured : World := ⟨startedBroker, 0, ⟨fun _ => Broks.knowing [], fun _ => none, []⟩⟩

def configured (i : Nat) : Event := .schedulerConf i [Broks.brokerLink "broker-master"]

def turn : Event := .turn (fun _ => .reached) 7 ⟨fun _ => .returned none, fun _ => true, fun _ _ => false, fun _ => 0⟩

theorem initial_nothingConfigured : Initial nothingConfigured := ⟨rfl, rfl⟩

theorem agreed_iff_together :
    (∀ l, l <+: [configured 0, configured 1, turn] → Agreed twoSchedulers (nothingConfigured.runs twoSchedulers l)) ↔
      ∀ l contact time env, l ++ [.turn contact time env] <+: [configured 0, configured 1, turn] →
        (nothingConfigured.runs twoSchedulers l).TurnReady twoSchedulers contact :=
  agreed_iff initial_nothingConfigured [configured 0, configured 1, turn]

/-- The second scheduler is not ready when the first one is, and a broker that
is started again is refused. -/
theorem not_agreed : Initial nothingConfigured ∧
    ¬ Agreed twoSchedulers (nothingConfigured.runs twoSchedulers [configured 0, turn]) ∧
    ¬ Agreed twoSchedulers (nothingConfigured.runs twoSchedulers [configured 0, configured 1, turn, .restart, turn]) := by
  refine ⟨initial_nothingConfigured, fun h => ?_, fun h => ?_⟩
  · have hraised := h.raised (by decide +kernel) 1 (by decide)
    exact absurd hraised (by decide +kernel)
  · have hrefused := h.refused ⟨0, 0, true, false⟩ (by decide +kernel) rfl rfl
    cases hrefused

end Alignak.InitialBroks
