import Alignak.MonthDates

/-!
# The occurrences of weekdays and days of months

These dateranges recur each month, from a day of it to another one, or to that
of the next month.
-/

namespace Alignak

/-! ## Each month -/

def monthlyOccurrences (clock : Clock) (startDay endDay : Int → Int → Int) : Recurrence Int where
  first k := clock.getStartOfDay (k / 12) (k % 12 + 1) (startDay (k / 12) (k % 12 + 1))
  last k := clock.getEndOfDay (k / 12) (k % 12 + 1) (endDay (k / 12) (k % 12 + 1))

def Clock.monthOf (clock : Clock) (t : Int) : Int := monthNumber (clock.localtime t).year (clock.localtime t).mon

section
variable {clock : Clock} (hclock : clock.Lawful) {startDay endDay : Int → Int → Int} (hstart : MonthlyDay startDay) (hend : MonthlyDay endDay)
include hclock

theorem monthOf_div (t : Int) : clock.monthOf t / 12 = (clock.localtime t).year ∧ clock.monthOf t % 12 + 1 = (clock.localtime t).mon :=
  monthNumber_div (hclock.isDate t).inYear _

include hstart hend

theorem monthlyOccurrences_ordered : (monthlyOccurrences clock startDay endDay).Ordered where
  first _ _ hlt := hclock.first_lt_first (month_valid _) (month_valid _) (hstart.oneEach.mono hlt)
  last _ _ hlt := hclock.last_lt_last (month_valid _) (month_valid _) (hend.oneEach.mono hlt)

theorem monthlyOccurrences_around (t : Int) : (monthlyOccurrences clock startDay endDay).Around t (clock.monthOf t) :=
  around_of_days clock hstart.oneEach hend.oneEach firstDay_mono (fun _ _ => hclock.first_le_iff (month_valid _))
    (fun _ _ => hclock.le_last_iff (month_valid _)) (hclock.isDate t).in_month

end

/-! ## The months that are looked up -/

section
variable (k : Int) {d : Daterange}

theorem nextEndMonth_apply (h : d.eyear = k / 12) :
    nextEndMonth (k % 12 + 1) d = .ok ((k + 1) % 12 + 1) { d with eyear := (k + 1) / 12 } := by
  unfold nextEndMonth
  by_cases hover : k % 12 + 1 + 1 > 12
  · rw [run_pos hover, modify_bind, h, show (k + 1) / 12 = k / 12 + 1 by omega, show (k + 1) % 12 + 1 = 1 by omega]
    rfl
  · rw [run_neg hover, show (k + 1) / 12 = k / 12 by omega, ← h, show (k + 1) % 12 + 1 = k % 12 + 1 + 1 by omega]
    rfl

theorem nextStartMonth_apply (h : d.syear = k / 12) :
    nextStartMonth (k % 12 + 1) d = .ok ((k + 1) % 12 + 1) { d with syear := (k + 1) / 12 } := by
  unfold nextStartMonth
  by_cases hover : k % 12 + 1 + 1 > 12
  · rw [run_pos hover, modify_bind, h, show (k + 1) / 12 = k / 12 + 1 by omega, show (k + 1) % 12 + 1 = 1 by omega]
    rfl
  · rw [run_neg hover, show (k + 1) / 12 = k / 12 by omega, ← h, show (k + 1) % 12 + 1 = k % 12 + 1 + 1 by omega]
    rfl

theorem previousStartMonth_apply (h : d.syear = k / 12) :
    previousStartMonth (k % 12 + 1) d = .ok ((k - 1) % 12 + 1) { d with syear := (k - 1) / 12 } := by
  unfold previousStartMonth
  by_cases hunder : k % 12 + 1 - 1 < 1
  · rw [run_pos hunder, modify_bind, h, show (k - 1) / 12 = k / 12 - 1 by omega, show (k - 1) % 12 + 1 = 12 by omega]
    rfl
  · rw [run_neg hunder, show (k - 1) / 12 = k / 12 by omega, ← h, show (k - 1) % 12 + 1 = k % 12 + 1 - 1 by omega]
    rfl

end

/-! ## Days -/

namespace MonthDayDaterange

def occurrences (clock : Clock) (d : Daterange) : Recurrence Int :=
  monthlyOccurrences clock (fun year month => findDayByOffset year month d.smday) fun year month => findDayByOffset year month d.emday

/-- Where the month before wraps as the one of the time does. -/
def FindsAt (clock : Clock) (d : Daterange) (ref : Int) : Prop :=
  if (occurrences clock d).Wraps (clock.monthOf ref) then
    ref ≤ (occurrences clock d).last (clock.monthOf ref) → (occurrences clock d).Wraps (clock.monthOf ref - 1)
  else (occurrences clock d).Settles ref (clock.monthOf ref)

instance FindsAt.decidable (clock : Clock) (d : Daterange) (ref : Int) : Decidable (FindsAt clock d ref) := by
  unfold FindsAt
  infer_instance

variable {clock : Clock} {d : Daterange} {ref : Int}

def startMonth (clock : Clock) (d : Daterange) (k : Int) : Int := if (occurrences clock d).Wraps k then k - 1 else k

theorem getStartAndEndTime_fresh (hclock : clock.Lawful) (hs : d.syear = 0) (he : d.eyear = 0) {k : Int} (hk : clock.monthOf ref = k) :
    outcome (getStartAndEndTime clock ref d) = .ok (
      if (occurrences clock d).last k < ref then
        ((occurrences clock d).first (startMonth clock d k + 1), (occurrences clock d).last (k + 1))
      else ((occurrences clock d).first (startMonth clock d k), (occurrences clock d).last k)) := by
  obtain ⟨hyear, hmon⟩ := monthOf_div hclock ref
  rw [hk] at hyear hmon
  have hsyear : (d.effective (clock.localtime ref)).syear = k / 12 := (if_pos hs).trans hyear.symm
  have heyear : (d.effective (clock.localtime ref)).eyear = k / 12 := (if_pos he).trans hyear.symm
  generalize hi : startMonth clock d k = i
  have hmonth : (if startByDay clock (k / 12) (k % 12 + 1) (d.effective (clock.localtime ref)).smday >
        endByDay clock (k / 12) (k % 12 + 1) (d.effective (clock.localtime ref)).emday
      then previousStartMonth (k % 12 + 1) else pure (k % 12 + 1) : DaterangeM Int) (d.effective (clock.localtime ref)) =
      .ok (i % 12 + 1) { d.effective (clock.localtime ref) with syear := i / 12 } := by
    subst hi
    unfold startMonth
    by_cases hw : (occurrences clock d).Wraps k
    · rw [if_pos hw]
      exact (run_pos hw _).trans (previousStartMonth_apply k hsyear)
    · rw [if_neg hw]
      refine (run_neg hw _).trans ?_
      rw [← hsyear]
      rfl
  unfold getStartAndEndTime
  simp only
  rw [Daterange.fillYears_apply, get_bind, hclock.now_epoch, hsyear, heyear, ← hmon, bind_ok hmonth, get_bind]
  by_cases hlt : (occurrences clock d).last k < ref
  · rw [if_pos hlt]
    have heyear' : ({ d.effective (clock.localtime ref) with syear := i / 12 } : Daterange).eyear = k / 12 := heyear
    refine (congrArg outcome (run_pos hlt _)).trans ?_
    rw [bind_ok (nextEndMonth_apply k heyear'), bind_ok (nextStartMonth_apply i rfl), get_bind]
    rfl
  · rw [if_neg hlt]
    exact (congrArg outcome (run_neg hlt _)).trans rfl

theorem found_iff (hclock : clock.Lawful) (hs : d.syear = 0) (he : d.eyear = 0) (ref : Int) :
    (∃ p, outcome (getStartAndEndTime clock ref d) = .ok p ∧ (occurrences clock d).Found ref p) ↔ FindsAt clock d ref := by
  have hstart := findDayByOffset_monthly d.smday
  have hend := findDayByOffset_monthly d.emday
  have ho : (occurrences clock d).Ordered := monthlyOccurrences_ordered hclock hstart hend
  have ha : (occurrences clock d).Around ref (clock.monthOf ref) := monthlyOccurrences_around hclock hstart hend ref
  unfold FindsAt
  rw [getStartAndEndTime_fresh hclock hs he rfl]
  simp only [Except.ok.injEq, exists_eq_left', startMonth]
  by_cases hw : (occurrences clock d).Wraps (clock.monthOf ref)
  · simp only [if_pos hw]
    by_cases hlt : (occurrences clock d).last (clock.monthOf ref) < ref
    · have hle := ha.lasting (show clock.monthOf ref < clock.monthOf ref + 1 by omega)
      have hcurrent := Recurrence.found_current ho ha ((Recurrence.finish_wraps hw).symm ▸ hle)
      rw [Recurrence.finish_wraps hw] at hcurrent
      simp only [if_pos hlt, Int.sub_add_cancel, hcurrent, not_le.mpr hlt, and_false, not_false_eq_true, or_true, false_implies]
    · have hle := not_lt.mp hlt
      simp only [if_neg hlt, Recurrence.found_previous ho ha hw hle, hle, true_and, true_implies]
  · simp only [if_neg hw, Recurrence.found_within ho ha hw]

end MonthDayDaterange

/-! ## Weekdays -/

def WeekdayExists (weekday offset : Int) : Prop :=
  ∀ year {month}, 1 ≤ month ∧ month ≤ 12 → ∃ day, findDayByWeekdayOffset year month weekday offset = .ok (some day) ∧ IsDate year month day

def dayByWeekdayOffset (weekday offset year month : Int) : Int :=
  ((findDayByWeekdayOffset year month weekday offset).toOption.bind id).getD 0

theorem WeekdayExists.found {weekday offset : Int} (h : WeekdayExists weekday offset) (year : Int) {month : Int}
    (hm : 1 ≤ month ∧ month ≤ 12) :
    findDayByWeekdayOffset year month weekday offset = .ok (some (dayByWeekdayOffset weekday offset year month)) ∧
      IsDate year month (dayByWeekdayOffset weekday offset year month) := by
  obtain ⟨day, hfound, hdate⟩ := h year hm
  have hday : dayByWeekdayOffset weekday offset year month = day := by
    rw [dayByWeekdayOffset, hfound]
    rfl
  rw [hday]
  exact ⟨hfound, hdate⟩

theorem WeekdayExists.monthly {weekday offset : Int} (h : WeekdayExists weekday offset) : MonthlyDay (dayByWeekdayOffset weekday offset) where
  nonneg year month hm := by
    have hday := (h.found year hm).2.inMonth
    omega
  le year month hm := (h.found year hm).2.inMonth.2
  alike := by
    refine .inl fun year month hm => ?_
    have hday := (h.found year hm).2.inMonth
    omega

section
variable {clock : Clock} {weekday offset : Int} (h : WeekdayExists weekday offset) (k : Int) (s : Daterange)
include h

theorem WeekdayExists.startByWeekday_apply : startByWeekday clock (k / 12) (k % 12 + 1) weekday offset s =
    .ok (clock.getStartOfDay (k / 12) (k % 12 + 1) (dayByWeekdayOffset weekday offset (k / 12) (k % 12 + 1))) s := by
  unfold startByWeekday weekdayOf
  rw [(h.found (k / 12) (month_valid k)).1]
  rfl

theorem WeekdayExists.endByWeekday_apply : endByWeekday clock (k / 12) (k % 12 + 1) weekday offset s =
    .ok (clock.getEndOfDay (k / 12) (k % 12 + 1) (dayByWeekdayOffset weekday offset (k / 12) (k % 12 + 1))) s := by
  unfold endByWeekday weekdayOf
  rw [(h.found (k / 12) (month_valid k)).1]
  rfl

end

namespace WeekDayDaterange

def occurrences (clock : Clock) (d : Daterange) : Recurrence Int :=
  monthlyOccurrences clock (dayByWeekdayOffset d.swday d.swdayOffset) (dayByWeekdayOffset d.ewday d.ewdayOffset)

/-- Where the time is not in an occurrence of the month before. -/
def FindsAt (clock : Clock) (d : Daterange) (ref : Int) : Prop :=
  if (occurrences clock d).Wraps (clock.monthOf ref) then
    (occurrences clock d).first (clock.monthOf ref) ≤ ref ∨
      ¬ ((occurrences clock d).Wraps (clock.monthOf ref - 1) ∧ ref ≤ (occurrences clock d).last (clock.monthOf ref))
  else (occurrences clock d).Settles ref (clock.monthOf ref)

instance FindsAt.decidable (clock : Clock) (d : Daterange) (ref : Int) : Decidable (FindsAt clock d ref) := by
  unfold FindsAt
  infer_instance

variable {clock : Clock} {d s : Daterange} {ref : Int}

section
variable (k : Int)

theorem startOf_apply (h : WeekdayExists s.swday s.swdayOffset) (hs : s.syear = k / 12) :
    startOf clock (k % 12 + 1) s = .ok ((occurrences clock s).first k) s := by
  unfold startOf
  rw [get_bind, hs]
  exact h.startByWeekday_apply k s

theorem endOf_apply (h : WeekdayExists s.ewday s.ewdayOffset) (he : s.eyear = k / 12) :
    endOf clock (k % 12 + 1) s = .ok ((occurrences clock s).last k) s := by
  unfold endOf
  rw [get_bind, he]
  exact h.endByWeekday_apply k s

theorem nextEnd_apply (h : WeekdayExists s.ewday s.ewdayOffset) (he : s.eyear = k / 12) :
    nextEnd clock (k % 12 + 1) s =
      .ok ((k + 1) % 12 + 1, (occurrences clock s).last (k + 1)) { s with eyear := (k + 1) / 12 } := by
  unfold nextEnd
  rw [bind_ok (nextEndMonth_apply k he)]
  exact bind_ok (endOf_apply (k + 1) h rfl)

end

/-! ### The search -/

theorem fillStartYear_same {now : LocalTime} (h : s.syear = now.year) : fillStartYear now s = .ok ⟨⟩ s := by
  have hsame : (s.effective now).syear = s.syear := by
    unfold Daterange.effective
    split <;> simp_all
  rw [Daterange.fillStartYear_apply, hsame]

theorem fillEndYear_same {now : LocalTime} (h : s.eyear = now.year) : fillEndYear now s = .ok ⟨⟩ s := by
  have hsame : (s.effective now).eyear = s.eyear := by
    unfold Daterange.effective
    split <;> simp_all
  rw [Daterange.fillEndYear_apply, hsame]

theorem getStartAndEndTime_fresh (hclock : clock.Lawful) (hstart : WeekdayExists d.swday d.swdayOffset)
    (hend : WeekdayExists d.ewday d.ewdayOffset) (hs : d.syear = 0) (he : d.eyear = 0) {k : Int} (hk : clock.monthOf ref = k)
    (hle : ref ≤ (occurrences clock d).last (k + 1)) :
    outcome (getStartAndEndTime clock ref d) = .ok (
      if (occurrences clock d).Wraps k then ((occurrences clock d).first k, (occurrences clock d).last (k + 1))
      else if (occurrences clock d).last k < ref then ((occurrences clock d).first (k + 1), (occurrences clock d).last (k + 1))
      else ((occurrences clock d).first k, (occurrences clock d).last k)) := by
  obtain ⟨hyear, hmon⟩ := monthOf_div hclock ref
  rw [hk] at hyear hmon
  rw [Daterange.weekDay_outcome]
  generalize hd : d.effective (clock.localtime ref) = d'
  have hocc : occurrences clock d = occurrences clock d' := by
    rw [← hd]
    rfl
  have hsyear : d'.syear = (clock.localtime ref).year := by
    rw [← hd]
    exact if_pos hs
  have heyear : d'.eyear = (clock.localtime ref).year := by
    rw [← hd]
    exact if_pos he
  replace hstart : WeekdayExists d'.swday d'.swdayOffset := by
    rw [← hd]
    exact hstart
  replace hend : WeekdayExists d'.ewday d'.ewdayOffset := by
    rw [← hd]
    exact hend
  rw [hocc] at hle ⊢
  unfold getStartAndEndTime
  simp only
  rw [bind_ok (fillStartYear_same hsyear), ← hmon, bind_ok (startOf_apply k hstart (hsyear.trans hyear.symm)),
    bind_ok (fillEndYear_same heyear), bind_ok (endOf_apply k hend (heyear.trans hyear.symm)), hclock.now_epoch]
  by_cases hw : (occurrences clock d').Wraps k
  · have hnext : (if (occurrences clock d').first k > (occurrences clock d').last k then nextEnd clock (k % 12 + 1)
        else pure (k % 12 + 1, (occurrences clock d').last k) : DaterangeM (Int × Int)) d' =
        .ok ((k + 1) % 12 + 1, (occurrences clock d').last (k + 1)) { d' with eyear := (k + 1) / 12 } :=
      (run_pos hw d').trans (nextEnd_apply k hend (heyear.trans hyear.symm))
    rw [if_pos hw, bind_ok hnext]
    exact (congrArg outcome (run_neg (not_lt.mpr hle) _)).trans rfl
  · have hsame : (if (occurrences clock d').first k > (occurrences clock d').last k then nextEnd clock (k % 12 + 1)
        else pure (k % 12 + 1, (occurrences clock d').last k) : DaterangeM (Int × Int)) d' =
        .ok (k % 12 + 1, (occurrences clock d').last k) d' := (run_neg hw d').trans rfl
    rw [if_neg hw, bind_ok hsame]
    by_cases hlt : (occurrences clock d').last k < ref
    · have heyear' : d'.eyear = k / 12 := heyear.trans hyear.symm
      have hsyear' : ({ d' with eyear := (k + 1) / 12 } : Daterange).syear = k / 12 := hsyear.trans hyear.symm
      rw [if_pos hlt, if_pos hlt, bind_ok (nextEndMonth_apply k heyear'), bind_ok (nextStartMonth_apply k hsyear'),
        bind_ok (startOf_apply (s := { d' with syear := (k + 1) / 12, eyear := (k + 1) / 12 }) (k + 1) hstart rfl),
        bind_ok (endOf_apply (s := { d' with syear := (k + 1) / 12, eyear := (k + 1) / 12 }) (k + 1) hend rfl)]
      rfl
    · rw [if_neg hlt, if_neg hlt]
      rfl

theorem found_iff (hclock : clock.Lawful) (hstart : WeekdayExists d.swday d.swdayOffset) (hend : WeekdayExists d.ewday d.ewdayOffset)
    (hs : d.syear = 0) (he : d.eyear = 0) (ref : Int) :
    (∃ p, outcome (getStartAndEndTime clock ref d) = .ok p ∧ (occurrences clock d).Found ref p) ↔ FindsAt clock d ref := by
  have ho : (occurrences clock d).Ordered := monthlyOccurrences_ordered hclock hstart.monthly hend.monthly
  have ha : (occurrences clock d).Around ref (clock.monthOf ref) := monthlyOccurrences_around hclock hstart.monthly hend.monthly ref
  have hle := ha.lasting (show clock.monthOf ref < clock.monthOf ref + 1 by omega)
  unfold FindsAt
  rw [getStartAndEndTime_fresh hclock hstart hend hs he rfl hle]
  simp only [Except.ok.injEq, exists_eq_left']
  by_cases hw : (occurrences clock d).Wraps (clock.monthOf ref)
  · have hcurrent := Recurrence.found_current ho ha ((Recurrence.finish_wraps hw).symm ▸ hle)
    rw [Recurrence.finish_wraps hw] at hcurrent
    simp only [if_pos hw, hcurrent]
  · simp only [if_neg hw, Recurrence.found_within ho ha hw]

end WeekDayDaterange

/-! ### Days that each month has -/

/-- The weeks of a month of `days` days with `before` days of its first week in the month before. -/
def weeksOf (before days : Nat) : List (List Int) :=
  (List.range ((before + days + 6) / 7)).map fun w => (List.range 7).map fun i =>
    if before ≤ w * 7 + i ∧ w * 7 + i < before + days then ((w * 7 + i : Nat) : Int) - before + 1 else 0

def dayInWeeks (cal : List (List Int)) (weekday : Nat) (offset : Int) : Except Exn (Option Int) :=
  findWeek (if offset < 0 then cal.reverse else cal) weekday offset.natAbs (offset.natAbs + 1) 0 0

def isDay (days : Nat) : Except Exn (Option Int) → Bool
  | .ok (some day) => decide (1 ≤ day ∧ day ≤ days)
  | _ => false

theorem four_weeks : ((List.range 7).all fun before => [28, 29, 30, 31].all fun days => (List.range 7).all fun weekday =>
    [1, 2, 3, 4, -1, -2, -3, -4].all fun offset => isDay days (dayInWeeks (weeksOf before days) weekday offset)) = true := by
  rw [List.all_eq_true]
  intro before hb
  have hbefore := List.mem_range.mp hb
  -- One start of the week after the other, so that each evaluation is small.
  interval_cases before <;> decide +kernel

theorem findDayByWeekdayOffset_eq (year month weekday offset : Int) : findDayByWeekdayOffset year month weekday offset =
    dayInWeeks (weeksOf (Alignak.weekday year month 1).toNat (daysInMonth year month).toNat) weekday.toNat offset := rfl

theorem weekdayExists {weekday offset : Int} (hw : 0 ≤ weekday ∧ weekday ≤ 6) (h0 : offset ≠ 0) (h4 : offset.natAbs ≤ 4) :
    WeekdayExists weekday offset := by
  intro year month hm
  have hdays := daysInMonth_bounds year hm
  have hbefore : 0 ≤ Alignak.weekday year month 1 ∧ Alignak.weekday year month 1 < 7 := by
    unfold Alignak.weekday
    omega
  have hall := four_weeks
  simp only [List.all_eq_true, List.mem_range] at hall
  have hday := hall (Alignak.weekday year month 1).toNat (by omega) (daysInMonth year month).toNat (by simp; omega) weekday.toNat (by omega)
    offset (by simp; omega)
  rw [← findDayByWeekdayOffset_eq] at hday
  cases hfound : findDayByWeekdayOffset year month weekday offset with
  | error e =>
    rw [hfound] at hday
    cases hday
  | ok found =>
    rw [hfound] at hday
    cases found with
    | none => cases hday
    | some day =>
      have hle := of_decide_eq_true hday
      exact ⟨day, rfl, hm, by omega⟩

/-! ## Both classes -/

namespace Daterange

/-- As it is configured, a range of days of months, or of weekdays that each month has,
returns the occurrence that contains the time, or else the next one, where it
`FindsAt`, and only there. -/
theorem monthly_found_iff {clock : Clock} {d : Daterange} (hclock : clock.Lawful) (hs : d.syear = 0) (he : d.eyear = 0) (ref : Int) :
    ((∃ p, outcome (MonthDayDaterange.getStartAndEndTime clock ref d) = .ok p ∧ (MonthDayDaterange.occurrences clock d).Found ref p) ↔
      MonthDayDaterange.FindsAt clock d ref) ∧
    (WeekdayExists d.swday d.swdayOffset → WeekdayExists d.ewday d.ewdayOffset →
      ((∃ p, outcome (WeekDayDaterange.getStartAndEndTime clock ref d) = .ok p ∧ (WeekDayDaterange.occurrences clock d).Found ref p) ↔
        WeekDayDaterange.FindsAt clock d ref)) :=
  ⟨MonthDayDaterange.found_iff hclock hs he ref, fun hstart hend => WeekDayDaterange.found_iff hclock hstart hend hs he ref⟩

def mondays : Daterange := ⟨0, 0, 25, 0, 3, 0, 0, 5, 0, 1⟩

/-- On January 20, 2024. -/
theorem mondays_found :
    (∃ p, outcome (MonthDayDaterange.getStartAndEndTime (.fixed 0) 1705708800 mondays) = .ok p ∧
      (MonthDayDaterange.occurrences (.fixed 0) mondays).Found 1705708800 p) ∧
    ∃ p, outcome (WeekDayDaterange.getStartAndEndTime (.fixed 0) 1705708800 mondays) = .ok p ∧
      (WeekDayDaterange.occurrences (.fixed 0) mondays).Found 1705708800 p := by
  have hfound := monthly_found_iff (Clock.fixed_lawful 0) (d := mondays) rfl rfl 1705708800
  have hweekdays := hfound.2 (weekdayExists (by decide) (by decide) (by decide)) (weekdayExists (by decide) (by decide) (by decide))
  exact ⟨hfound.1.mpr (by decide +kernel), hweekdays.mpr (by decide +kernel)⟩

def lastDays : Daterange := ⟨0, 0, 31, 0, 0, 0, 0, 30, 0, 0⟩

/-- On January 1, 2024, the occurrence of the Mondays from December on is not
found; on April 10 the one of the last days, from March 31 on, is not. -/
theorem mondays_not_found : (¬ ∃ p, outcome (WeekDayDaterange.getStartAndEndTime (.fixed 0) 1704110400 mondays) = .ok p ∧
      (WeekDayDaterange.occurrences (.fixed 0) mondays).Found 1704110400 p) ∧
    ¬ ∃ p, outcome (MonthDayDaterange.getStartAndEndTime (.fixed 0) 1712707200 lastDays) = .ok p ∧
      (MonthDayDaterange.occurrences (.fixed 0) lastDays).Found 1712707200 p := by
  have hclock := Clock.fixed_lawful 0
  constructor
  · rw [WeekDayDaterange.found_iff hclock (weekdayExists (by decide) (by decide) (by decide))
      (weekdayExists (by decide) (by decide) (by decide)) rfl rfl]
    decide +kernel
  · rw [MonthDayDaterange.found_iff hclock rfl rfl]
    decide +kernel

end Daterange

end Alignak
