import Alignak.DowntimeLinks
import Alignak.SearchFuel
import Mathlib.Data.Rat.Floor

/-!
# Maintenance periods

At each tick `update_downtimes_and_comments` opens a downtime for the items that
are in their maintenance period, up to the next invalid time of that period.
-/

namespace Alignak

namespace Timeperiod

/-- From `t` on the period is valid again, and no daterange of the search is valid for ever. -/
def EndsLater (tp : Timeperiod) (t : Int) : Prop :=
  (∃ d ∈ tp.dateranges, ∃ u, t ≤ u ∧ d.isTimeValid u = true) ∧ ∀ d ∈ tp.asked, d.Ends t

section
variable {tp : Timeperiod} {t : Int}

theorem getNextInvalidTimeFromT_ok_iff (h : ∀ d ∈ tp.asked, d.ExactAnswers) :
    (∃ r, getNextInvalidTimeFromT yearFuel tp t = .ok r) ↔ tp.EndsLater t := by
  constructor
  · rintro ⟨r, hr⟩
    have hends := ends_of_ok h hr
    refine ⟨?_, hends⟩
    obtain ⟨ls, xs, hls, -, hD, -⟩ := collects_asked h hends (le_refl _)
    by_contra hno
    push Not at hno
    refine getNextInvalidTimeFromT_error (hD.trans (congrArg Except.ok ?_)) hr
    rw [List.eq_nil_iff_forall_not_mem]
    intro p hp
    obtain ⟨d, hd, hper⟩ := mem_periods hls hp
    exact hno d hd p.1 hper.from_t (hper.valid p.1 (le_refl _) hper.lt)
  · rintro ⟨⟨d, hd, u, hu, hv⟩, hends⟩
    obtain ⟨ls, xs, hls, -, hD, hX⟩ := collects_asked h hends (show 3600 * 24 * 365 + 2 ≤ yearFuel from le_refl _)
    cases hs : sortByStart ls.flatten with
    | nil => exact absurd (sortByStart_eq_nil.mp hs) (periods_ne_nil hls hd hu hv)
    | cons p l => exact ⟨_, getNextInvalidTimeFromT_eq hD hX hs⟩

theorem searchLoop_valid (h : ∀ d ∈ tp.asked, d.ExactAnswers) (hv : tp.isTimeValid t = true) :
    searchLoop tp t yearFuel t = .ok (some t) := by
  obtain ⟨hc, hx⟩ := (isTimeValid_iff_covered tp t).mp hv
  refine searchLoop_fuel (show 1 ≤ yearFuel by decide) (searchLoop_covered (fun d hd => ?_) hc fun ha => hx ha.some)
  exact (h d (List.mem_append_left _ hd)).valid

end

end Timeperiod

namespace Scheduling

/-- The timeperiods of the items, whose dateranges answer exactly. `is_time_valid` is asked with the fraction of a second that
the clock gives, and what is valid then was valid when the second began. -/
structure Periods where
  timeperiods : Nat → Timeperiod
  isTimeValid : Nat → Rat → Bool
  whole : ∀ p t, isTimeValid p t = true → (timeperiods p).isTimeValid ⌊t⌋ = true
  answers : ∀ p, ∀ d ∈ (timeperiods p).asked, d.ExactAnswers

/-- What a tick reads. A search that raises does so for the same reason as the arithmetic on `None`. -/
def Periods.at (P : Periods) (env : Env) (now : Rat) : Env :=
  { env with
    now := ⌊now⌋
    isTimeValid := fun p t => if t = ⌊now⌋ then P.isTimeValid p now else (P.timeperiods p).isTimeValid t
    getNextValidTime := fun p t => (Timeperiod.searchLoop (P.timeperiods p) t Timeperiod.yearFuel t).toOption.join
    getNextInvalidTime := fun p t => (Timeperiod.getNextInvalidTimeFromT Timeperiod.yearFuel (P.timeperiods p) t).toOption }

section
variable (conf : Conf) (P : Periods) (env : Env) (now : Rat)

/-- `checkStartStop`, on a clock with fractions. -/
def checkStartStopAt (i d : Nat) : Sched Unit := do
  match (← get).downtime? i d with
  | none => throw .keyError
  | some x =>
    if x.realEndTime < now then modify (Downtime.exit conf env i d)
    else if x.startTime ≤ now ∧ x.fixed ∧ !x.isInEffect then enterDowntime conf env i d

def startStopItem (i : Nat) : Sched Unit := do ((← get).downtime i).downtimes.keys.forM (checkStartStopAt conf env now i)

def startStopAll : Sched Unit := conf.allMyHostsAndServices.forM (startStopItem conf env now)

/-- `update_downtimes_and_comments`, on a clock with fractions. -/
def tick : Sched Unit := do
  conf.allMyHostsAndServices.forM (checkMaintenance (P.at env now))
  modify fun w => conf.allMyHostsAndServices.foldl (fun w i => deleteMarked i w) w
  startStopAll conf (P.at env now) now

end

/-! ## The turn of one item -/

section
variable {conf : Conf} {P : Periods} {env : Env} {now : Rat} {w s : World} {i j d c p : Nat} {x y : Downtime}

def Opens (P : Periods) (now : Rat) (w : World) (i p : Nat) : Prop :=
  (w.settings i).maintenancePeriod = some p ∧ (w.downtime i).inMaintenance = none ∧ P.isTimeValid p now = true

def Periods.EndsLater (P : Periods) (now : Rat) (p : Nat) : Prop := (P.timeperiods p).EndsLater (⌊now⌋ + 1)

/-- The world with the downtime of the item, up to `endDt`. -/
def World.openMaintenance (w : World) (i : Nat) (startDt endDt : Int) : World :=
  (newDowntime i (Downtime.create i true startDt (endDt - 1) 0 none) w).modifyDowntime i fun s =>
    { s with inMaintenance := some w.nextDowntime }

def World.leaveMaintenance (w : World) (i : Nat) : World := w.modifyDowntime i fun s => { s with inMaintenance := none }

theorem at_isTimeValid (P : Periods) (env : Env) (now : Rat) (p : Nat) :
    (P.at env now).isTimeValid p (P.at env now).now = P.isTimeValid p now := if_pos rfl

theorem at_getNextValidTime (h : P.isTimeValid p now = true) : (P.at env now).getNextValidTime p (P.at env now).now = some ⌊now⌋ := by
  have hs := Timeperiod.searchLoop_valid (P.answers p) (P.whole p now h)
  show (Timeperiod.searchLoop (P.timeperiods p) ⌊now⌋ Timeperiod.yearFuel ⌊now⌋).toOption.join = _
  rw [hs]
  rfl

theorem at_getNextInvalidTime : (∃ r, (P.at env now).getNextInvalidTime p (⌊now⌋ + 1) = some r) ↔ P.EndsLater now p := by
  refine Iff.trans (exists_congr fun r => ?_) (Timeperiod.getNextInvalidTimeFromT_ok_iff (P.answers p))
  show (Timeperiod.getNextInvalidTimeFromT Timeperiod.yearFuel (P.timeperiods p) (⌊now⌋ + 1)).toOption = some r ↔ _
  cases Timeperiod.getNextInvalidTimeFromT Timeperiod.yearFuel (P.timeperiods p) (⌊now⌋ + 1) with
  | error e => exact ⟨(fun h => nomatch h), (fun h => nomatch h)⟩
  | ok r' => exact ⟨fun h => congrArg Except.ok (Option.some.inj h), fun h => congrArg some (Except.ok.inj h)⟩

theorem checkMaintenance_opens (ho : Opens P now w i p) {r : Int} (hr : (P.at env now).getNextInvalidTime p (⌊now⌋ + 1) = some r) :
    checkMaintenance (P.at env now) i w = .ok ⟨⟩ (w.openMaintenance i ⌊now⌋ r) := by
  obtain ⟨hp, hm, hv⟩ := ho
  unfold checkMaintenance
  rw [get_bind, hp, hm]
  simp only [at_isTimeValid, hv, if_true, at_getNextValidTime hv, hr]
  rfl

theorem checkMaintenance_raises (ho : Opens P now w i p) (hr : (P.at env now).getNextInvalidTime p (⌊now⌋ + 1) = none) :
    checkMaintenance (P.at env now) i w = .error .typeError w := by
  obtain ⟨hp, hm, hv⟩ := ho
  unfold checkMaintenance
  rw [get_bind, hp, hm]
  simp only [at_isTimeValid, hv, if_true, at_getNextValidTime hv, hr]
  rfl

theorem checkMaintenance_idle (ho : ∀ p, ¬ Opens P now w i p) : checkMaintenance (P.at env now) i w = .ok ⟨⟩ w ∨
    (∃ d, (w.downtime i).inMaintenance = some d ∧ w.downtime? i d = none) ∧
      checkMaintenance (P.at env now) i w = .ok ⟨⟩ (w.leaveMaintenance i) := by
  unfold checkMaintenance
  rw [get_bind]
  cases hp : (w.settings i).maintenancePeriod with
  | none =>
    cases (w.downtime i).inMaintenance <;> exact Or.inl rfl
  | some p =>
    cases hm : (w.downtime i).inMaintenance with
    | none =>
      have hv : ¬ P.isTimeValid p now = true := fun hv => ho p ⟨hp, hm, hv⟩
      simp only [at_isTimeValid, hv, Bool.false_eq_true, if_false]
      exact Or.inl rfl
    | some d =>
      by_cases hd : (w.downtime? i d).isNone
      · simp only [hd, if_true]
        exact Or.inr ⟨⟨d, rfl, Option.isNone_iff_eq_none.mp hd⟩, rfl⟩
      · simp only [hd]
        exact Or.inl rfl

/-! ## What a turn leaves -/

theorem downtime?_openMaintenance (w : World) (i : Nat) (startDt endDt : Int) (j c : Nat) :
    (w.openMaintenance i startDt endDt).downtime? j c = if j = i ∧ c = w.nextDowntime then
      some { Downtime.create i true startDt (endDt - 1) 0 none with commentId := some w.nextComment } else w.downtime? j c :=
  (downtime?_modifyDowntime (f := fun s => { s with inMaintenance := some w.nextDowntime }) (fun _ => rfl) j c).trans
    (downtime?_newDowntime w i _ j c)

theorem downtime?_leaveMaintenance (w : World) (i j c : Nat) : (w.leaveMaintenance i).downtime? j c = w.downtime? j c :=
  downtime?_modifyDowntime (f := fun s => { s with inMaintenance := none }) (fun _ => rfl) j c

theorem openMaintenance_self (w : World) (i : Nat) (startDt endDt : Int) :
    ((w.openMaintenance i startDt endDt).downtime i).inMaintenance = some w.nextDowntime := by
  unfold World.openMaintenance
  rw [World.modifyDowntime_self]

theorem openMaintenance_ne (startDt endDt : Int) (h : j ≠ i) : (w.openMaintenance i startDt endDt).downtime j = w.downtime j :=
  (World.modifyDowntime_ne _ h).trans (World.modifyDowntime_ne (w.addComment i ⟨i, 2⟩) (f := fun s => { s with downtimes := s.downtimes.set _ _ }) h)

theorem leaveMaintenance_ne (h : j ≠ i) : (w.leaveMaintenance i).downtime j = w.downtime j := World.modifyDowntime_ne _ h

end

end Scheduling

end Alignak
