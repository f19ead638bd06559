import Alignak.Dateranges
import Alignak.Queries

/-!
# What a daterange remembers

A daterange without a year takes the one of the first reference time that it is
asked for, and keeps it.
-/

namespace Alignak

/-! ## The searches -/

namespace Daterange

abbrev Search := Queries Int (Int × Int)

section
variable (clock : Clock) (timeranges : List Timerange)

def startAndEndTime (ref : Int) : Search (Int × Int) := .ask ref .done

def isTimeDayValid (timestamp : Int) : Search Bool := do
  let (startTime, endTime) ← startAndEndTime timestamp
  return decide (startTime ≤ timestamp ∧ timestamp ≤ endTime)

def isTimeValid (timestamp : Int) : Search Bool := do
  if ← isTimeDayValid timestamp then return timeranges.any fun timerange => timerange.isTimeValid clock timestamp
  else return false

def getNextValidDay (timestamp : Int) : Search (Option Int) := do
  let (startTime, _) ← match Timerange.nextStart clock timeranges timestamp with
    | none => startAndEndTime (clock.getDay timestamp + 86400)
    | some _ => startAndEndTime timestamp
  if timestamp ≤ startTime then return some (clock.getDay startTime)
  else if ← isTimeDayValid timestamp then return some (clock.getDay timestamp)
  else return none

def getNextValidTimeFromT (timestamp : Int) : Search (Option Int) := do
  if ← isTimeValid clock timeranges timestamp then return some timestamp
  else match ← getNextValidDay clock timeranges timestamp with
    | none => return none
    | some tDay =>
      match Timerange.nextStart clock timeranges (if timestamp < tDay then tDay else timestamp) with
      | some secFromMorning => return some (tDay + secFromMorning)
      | none =>
        match ← getNextValidDay clock timeranges (clock.getDay timestamp + 86400) with
        | none => return none
        | some tDay2 => return (Timerange.nextStart clock timeranges tDay2).map fun secFromMorning => tDay2 + secFromMorning

end

end Daterange

/-! ## The stored years -/

namespace Daterange

def entry (d : Daterange) : Daterange := { d with syear := 0, eyear := 0 }

def effective (now : LocalTime) (d : Daterange) : Daterange :=
  { d with
    syear := if d.syear = 0 then now.year else d.syear
    eyear := if d.eyear = 0 then now.year else d.eyear }

def Fits (clock : Clock) (configured d : Daterange) (ref : Int) : Prop :=
  (d.effective (clock.localtime ref)).syear = (configured.effective (clock.localtime ref)).syear ∧
    (d.effective (clock.localtime ref)).eyear = (configured.effective (clock.localtime ref)).eyear

instance (clock : Clock) (configured d : Daterange) (ref : Int) : Decidable (Fits clock configured d ref) :=
  inferInstanceAs (Decidable (_ ∧ _))

variable {clock : Clock} {d configured : Daterange} {now : LocalTime} {ref : Int}

theorem effective_eq (he : d.entry = configured.entry) (hf : Fits clock configured d ref) :
    d.effective (clock.localtime ref) = configured.effective (clock.localtime ref) := by
  obtain ⟨hs, he'⟩ := hf
  simp only [entry, mk.injEq] at he
  simp only [effective] at hs he' ⊢
  rw [mk.injEq]
  exact ⟨hs, he.2.1, he.2.2.1, he.2.2.2.1, he.2.2.2.2.1, he', he.2.2.2.2.2.2⟩

@[simp] theorem effective_effective (now : LocalTime) (d : Daterange) : (d.effective now).effective now = d.effective now := by
  simp only [effective]
  rw [mk.injEq]
  refine ⟨?_, rfl, rfl, rfl, rfl, ?_, rfl, rfl, rfl, rfl⟩ <;> split <;> simp_all

/-! ### No call changes the entry -/

theorem fillStartYear_entry (now : LocalTime) : Unchanged entry (fillStartYear now) :=
  Unchanged.modify fun d => by split <;> rfl

theorem fillEndYear_entry (now : LocalTime) : Unchanged entry (fillEndYear now) :=
  Unchanged.modify fun d => by split <;> rfl

theorem weekdayOf_unchanged {γ : Type} (p : Daterange → γ) (year month weekday offset : Int) :
    Unchanged p (weekdayOf year month weekday offset) := by
  intro d
  unfold weekdayOf
  cases findDayByWeekdayOffset year month weekday offset with
  | error e => rfl
  | ok day => cases day <;> rfl

theorem nextEndMonth_entry (month : Int) : Unchanged entry (nextEndMonth month) :=
  Unchanged.ite (Unchanged.bind (Unchanged.modify fun _ => rfl) fun _ => Unchanged.pure _) (Unchanged.pure _)

theorem nextStartMonth_entry (month : Int) : Unchanged entry (nextStartMonth month) :=
  Unchanged.ite (Unchanged.bind (Unchanged.modify fun _ => rfl) fun _ => Unchanged.pure _) (Unchanged.pure _)

theorem previousStartMonth_entry (month : Int) : Unchanged entry (previousStartMonth month) :=
  Unchanged.ite (Unchanged.bind (Unchanged.modify fun _ => rfl) fun _ => Unchanged.pure _) (Unchanged.pure _)

theorem startByWeekday_unchanged {γ : Type} (p : Daterange → γ) (year month weekday offset : Int) :
    Unchanged p (startByWeekday clock year month weekday offset) :=
  Unchanged.bind (weekdayOf_unchanged p _ _ _ _) fun _ => Unchanged.pure _

theorem endByWeekday_unchanged {γ : Type} (p : Daterange → γ) (year month weekday offset : Int) :
    Unchanged p (endByWeekday clock year month weekday offset) :=
  Unchanged.bind (weekdayOf_unchanged p _ _ _ _) fun _ => Unchanged.pure _

theorem monthWeekDay_entry : Unchanged entry (MonthWeekDayDaterange.getStartAndEndTime clock ref) := by
  unfold MonthWeekDayDaterange.getStartAndEndTime
  refine Unchanged.bind (fillStartYear_entry _) fun _ => Unchanged.bind Unchanged.get fun d => ?_
  refine Unchanged.bind (startByWeekday_unchanged _ _ _ _ _) fun startTime => Unchanged.bind (fillEndYear_entry _) fun _ => ?_
  refine Unchanged.bind Unchanged.get fun d => Unchanged.bind (endByWeekday_unchanged _ _ _ _ _) fun endTime => ?_
  apply Unchanged.ite
  · apply Unchanged.ite
    · exact Unchanged.bind (endByWeekday_unchanged _ _ _ _ _) fun _ => Unchanged.pure _
    · exact Unchanged.bind (startByWeekday_unchanged _ _ _ _ _) fun _ => Unchanged.pure _
  · apply Unchanged.ite
    · exact Unchanged.bind (startByWeekday_unchanged _ _ _ _ _) fun _ =>
        Unchanged.bind (endByWeekday_unchanged _ _ _ _ _) fun _ => Unchanged.pure _
    · exact Unchanged.pure _

theorem monthDate_entry : Unchanged entry (MonthDateDaterange.getStartAndEndTime clock ref) := by
  unfold MonthDateDaterange.getStartAndEndTime
  refine Unchanged.bind (fillStartYear_entry _) fun _ => Unchanged.bind (fillEndYear_entry _) fun _ =>
    Unchanged.bind Unchanged.get fun d => ?_
  exact Unchanged.ite (Unchanged.ite (Unchanged.pure _) (Unchanged.pure _)) (Unchanged.ite (Unchanged.pure _) (Unchanged.pure _))

theorem weekDay_startOf_entry (month : Int) : Unchanged entry (WeekDayDaterange.startOf clock month) :=
  Unchanged.bind Unchanged.get fun _ => startByWeekday_unchanged _ _ _ _ _

theorem weekDay_endOf_entry (month : Int) : Unchanged entry (WeekDayDaterange.endOf clock month) :=
  Unchanged.bind Unchanged.get fun _ => endByWeekday_unchanged _ _ _ _ _

theorem weekDay_nextEnd_entry (month : Int) : Unchanged entry (WeekDayDaterange.nextEnd clock month) :=
  Unchanged.bind (nextEndMonth_entry _) fun _ => Unchanged.bind (weekDay_endOf_entry _) fun _ => Unchanged.pure _

theorem weekDay_entry : Unchanged entry (WeekDayDaterange.getStartAndEndTime clock ref) := by
  unfold WeekDayDaterange.getStartAndEndTime
  refine Unchanged.bind (fillStartYear_entry _) fun _ => Unchanged.bind (weekDay_startOf_entry _) fun startTime => ?_
  refine Unchanged.bind (fillEndYear_entry _) fun _ => Unchanged.bind (weekDay_endOf_entry _) fun endTime => ?_
  refine Unchanged.bind (Unchanged.ite (weekDay_nextEnd_entry _) (Unchanged.pure _)) fun p => ?_
  refine Unchanged.ite ?_ (Unchanged.pure _)
  refine Unchanged.bind (nextEndMonth_entry _) fun _ => Unchanged.bind (nextStartMonth_entry _) fun _ => ?_
  exact Unchanged.bind (weekDay_startOf_entry _) fun _ => Unchanged.bind (weekDay_endOf_entry _) fun _ => Unchanged.pure _

theorem monthDay_entry : Unchanged entry (MonthDayDaterange.getStartAndEndTime clock ref) := by
  unfold MonthDayDaterange.getStartAndEndTime
  refine Unchanged.bind (fillStartYear_entry _) fun _ => Unchanged.bind (fillEndYear_entry _) fun _ =>
    Unchanged.bind Unchanged.get fun d => ?_
  refine Unchanged.bind (Unchanged.ite (previousStartMonth_entry _) (Unchanged.pure _)) fun _ =>
    Unchanged.bind Unchanged.get fun d => ?_
  refine Unchanged.ite ?_ (Unchanged.pure _)
  exact Unchanged.bind (nextEndMonth_entry _) fun _ => Unchanged.bind (nextStartMonth_entry _) fun _ =>
    Unchanged.bind Unchanged.get fun _ => Unchanged.pure _

theorem getStartAndEndTime_entry (cls : DaterangeClass) (ref : Int) : Unchanged entry (cls.getStartAndEndTime clock ref) := by
  cases cls with
  | calendar => exact Unchanged.bind Unchanged.get fun _ => Unchanged.pure _
  | monthWeekDay => exact monthWeekDay_entry
  | monthDate => exact monthDate_entry
  | weekDay => exact weekDay_entry
  | monthDay => exact monthDay_entry

/-! ### An answer depends on the years that are used -/

theorem fillStartYear_apply (now : LocalTime) (d : Daterange) :
    fillStartYear now d = .ok ⟨⟩ { d with syear := (d.effective now).syear } := by
  show EStateM.Result.ok PUnit.unit (if d.syear = 0 then { d with syear := now.year } else d) = _
  unfold effective
  split <;> rfl

theorem fillEndYear_apply (now : LocalTime) (d : Daterange) :
    fillEndYear now d = .ok ⟨⟩ { d with eyear := (d.effective now).eyear } := by
  show EStateM.Result.ok PUnit.unit (if d.eyear = 0 then { d with eyear := now.year } else d) = _
  unfold effective
  split <;> rfl

section
variable {α β : Type}

theorem fillYears_apply (k : DaterangeM α) (d : Daterange) :
    (fillStartYear now >>= fun _ => fillEndYear now >>= fun _ => k) d = k (d.effective now) := by
  rw [bind_ok (fillStartYear_apply now d), bind_ok (fillEndYear_apply now _)]
  rfl

def lift : Except Exn α → DaterangeM α
  | .ok a => pure a
  | .error e => throw e

theorem startByWeekday_eq (clock : Clock) (year month weekday offset : Int) :
    ∃ v, startByWeekday clock year month weekday offset = lift v := by
  unfold startByWeekday weekdayOf
  cases findDayByWeekdayOffset year month weekday offset with
  | error e => exact ⟨.error e, rfl⟩
  | ok day =>
    cases day with
    | none => exact ⟨.error .typeError, rfl⟩
    | some day => exact ⟨.ok (clock.getStartOfDay year month day), rfl⟩

theorem fillAround_apply {look : Daterange → DaterangeM α} {k : α → DaterangeM β} (d : Daterange)
    (h : ∃ v, look { d with syear := (d.effective now).syear } = lift v ∧ look (d.effective now) = lift v) :
    outcome ((fillStartYear now >>= fun _ => get >>= fun d => look d >>= fun a => fillEndYear now >>= fun _ => k a) d) =
      outcome ((look (d.effective now) >>= k) (d.effective now)) := by
  obtain ⟨v, h1, h2⟩ := h
  rw [bind_ok (fillStartYear_apply now d), h2]
  show outcome ((look { d with syear := (d.effective now).syear } >>= _) _) = _
  rw [h1]
  cases v with
  | error e => rfl
  | ok a =>
    show outcome ((fillEndYear now >>= fun _ => k a) _) = outcome (k a (d.effective now))
    rw [bind_ok (fillEndYear_apply now _)]
    rfl

theorem monthDate_outcome (d : Daterange) : outcome (MonthDateDaterange.getStartAndEndTime clock ref d) =
    outcome (MonthDateDaterange.getStartAndEndTime clock ref (d.effective (clock.localtime ref))) := by
  unfold MonthDateDaterange.getStartAndEndTime
  simp only
  rw [fillYears_apply, fillYears_apply, effective_effective]

theorem monthDay_outcome (d : Daterange) : outcome (MonthDayDaterange.getStartAndEndTime clock ref d) =
    outcome (MonthDayDaterange.getStartAndEndTime clock ref (d.effective (clock.localtime ref))) := by
  unfold MonthDayDaterange.getStartAndEndTime
  simp only
  rw [fillYears_apply, fillYears_apply, effective_effective]

theorem monthWeekDay_outcome (d : Daterange) : outcome (MonthWeekDayDaterange.getStartAndEndTime clock ref d) =
    outcome (MonthWeekDayDaterange.getStartAndEndTime clock ref (d.effective (clock.localtime ref))) := by
  have hlook : ∀ d : Daterange, ∃ v,
      startByWeekday clock { d with syear := (d.effective (clock.localtime ref)).syear }.syear d.smon d.swday d.swdayOffset = lift v ∧
      startByWeekday clock (d.effective (clock.localtime ref)).syear d.smon d.swday d.swdayOffset = lift v := by
    intro d
    obtain ⟨v, hv⟩ := startByWeekday_eq clock (d.effective (clock.localtime ref)).syear d.smon d.swday d.swdayOffset
    exact ⟨v, hv, hv⟩
  unfold MonthWeekDayDaterange.getStartAndEndTime
  simp only
  rw [fillAround_apply d (hlook d), fillAround_apply _ (hlook _), effective_effective]

theorem weekDay_outcome (d : Daterange) : outcome (WeekDayDaterange.getStartAndEndTime clock ref d) =
    outcome (WeekDayDaterange.getStartAndEndTime clock ref (d.effective (clock.localtime ref))) := by
  have hlook : ∀ d : Daterange, ∃ v,
      startByWeekday clock { d with syear := (d.effective (clock.localtime ref)).syear }.syear (clock.localtime ref).mon d.swday
        d.swdayOffset = lift v ∧
      startByWeekday clock (d.effective (clock.localtime ref)).syear (clock.localtime ref).mon d.swday d.swdayOffset = lift v := by
    intro d
    obtain ⟨v, hv⟩ := startByWeekday_eq clock (d.effective (clock.localtime ref)).syear (clock.localtime ref).mon d.swday
      d.swdayOffset
    exact ⟨v, hv, hv⟩
  unfold WeekDayDaterange.getStartAndEndTime
  simp only [WeekDayDaterange.startOf, bind_assoc]
  rw [fillAround_apply d (hlook d), fillAround_apply _ (hlook _), effective_effective]

end

/-! ## Any number of calls -/

theorem calendar_unchanged (ref : Int) : Unchanged id (CalendarDaterange.getStartAndEndTime clock ref) :=
  Unchanged.bind Unchanged.get fun _ => Unchanged.pure _

def Reached (cls : DaterangeClass) (configured d : Daterange) : Prop :=
  d.entry = configured.entry ∧ (cls = .calendar → d = configured)

theorem reached_keeps (clock : Clock) (cls : DaterangeClass) (configured : Daterange) (ref : Int) :
    Keeps (Reached cls configured) (cls.getStartAndEndTime clock ref) := by
  refine fun d ⟨he, hcal⟩ => ⟨⟨?_, fun e => ?_⟩, fun _ _ _ => trivial⟩
  · rw [getStartAndEndTime_entry cls ref d, he]
  · subst e
    exact (calendar_unchanged ref d).trans (hcal rfl)

theorem outcome_of_fits {cls : DaterangeClass} (h : Reached cls configured d) (hf : Fits clock configured d ref) :
    outcome (cls.getStartAndEndTime clock ref d) = outcome (cls.getStartAndEndTime clock ref configured) := by
  have he := effective_eq h.1 hf
  cases cls with
  | calendar => rw [h.2 rfl]
  | monthWeekDay => exact (monthWeekDay_outcome d).trans (he ▸ (monthWeekDay_outcome configured).symm)
  | monthDate => exact (monthDate_outcome d).trans (he ▸ (monthDate_outcome configured).symm)
  | weekDay => exact (weekDay_outcome d).trans (he ▸ (weekDay_outcome configured).symm)
  | monthDay => exact (monthDay_outcome d).trans (he ▸ (monthDay_outcome configured).symm)

section
variable {α : Type} {cls : DaterangeClass} {history : List Int}

/-- Whatever it was asked for before, a daterange answers a search as the
configured one does, when it uses the years of the configured one all along. -/
theorem search_after_history (clock : Clock) (cls : DaterangeClass) (configured : Daterange) (history : List Int) (search : Search α)
    (h : search.Along (cls.getStartAndEndTime clock) (Fits clock configured)
      (Queries.after (cls.getStartAndEndTime clock) history configured))
    (hfresh : search.Along (cls.getStartAndEndTime clock) (Fits clock configured) configured) :
    outcome (search.run (cls.getStartAndEndTime clock) (Queries.after (cls.getStartAndEndTime clock) history configured)) =
      outcome (search.run (cls.getStartAndEndTime clock) configured) := by
  have hkeeps := reached_keeps clock cls configured
  have hanswers : ∀ ref d, Reached cls configured d → Fits clock configured d ref →
      outcome (cls.getStartAndEndTime clock ref d) = outcome (cls.getStartAndEndTime clock ref configured) :=
    fun _ _ => outcome_of_fits
  have hconfigured : Reached cls configured configured := ⟨rfl, fun _ => rfl⟩
  rw [Queries.outcome_run hkeeps hanswers search (Queries.after_keeps (fun query _ => hkeeps query) hconfigured) h,
    Queries.outcome_run hkeeps hanswers search hconfigured hfresh]

/-! ### Within one year -/

def summer : Daterange := ⟨0, 6, 1, 0, 0, 0, 8, 31, 0, 0⟩

def monthEnd : Daterange := ⟨0, 0, 25, 0, 0, 0, 0, 5, 0, 0⟩

/-- Asked in January and in November 2024, and then on July 1 of that year. -/
theorem summer_same_year : outcome ((getNextValidTimeFromT .utc [⟨8, 0, 18, 0⟩] 1719810000).run
      (DaterangeClass.monthDate.getStartAndEndTime .utc)
      (Queries.after (DaterangeClass.monthDate.getStartAndEndTime .utc) [1705312800, 1732096800] summer)) =
    outcome ((getNextValidTimeFromT .utc [⟨8, 0, 18, 0⟩] 1719810000).run
      (DaterangeClass.monthDate.getStartAndEndTime .utc) summer) :=
  search_after_history .utc .monthDate summer [1705312800, 1732096800] _ (by decide) (by decide)

/-- Asked in July 2020, the summer of 2022 is not found again; at the end of
December the second answer is another one than the first. -/
theorem history_changes_answers :
    outcome (DaterangeClass.monthDate.getStartAndEndTime .utc 1657000000
      (Queries.after (DaterangeClass.monthDate.getStartAndEndTime .utc) [1594000000] summer)) ≠
    outcome (DaterangeClass.monthDate.getStartAndEndTime .utc 1657000000 summer) ∧
    outcome (DaterangeClass.monthDay.getStartAndEndTime .utc 1735300000
      (Queries.after (DaterangeClass.monthDay.getStartAndEndTime .utc) [1735300000] monthEnd)) ≠
    outcome (DaterangeClass.monthDay.getStartAndEndTime .utc 1735300000 monthEnd) := by
  decide

end

end Daterange

end Alignak
