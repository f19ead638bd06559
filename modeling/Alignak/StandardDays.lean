import Alignak.Dateranges
import Alignak.Instants

/-!
# The next valid time of a weekday

On a clock without changes of hour the days are numbered, and the days of a
standard daterange come every seven of them.
-/

namespace Alignak

/-- It starts within the day and does not end before it starts. -/
structure Timerange.WellOrdered (r : Timerange) : Prop where
  start : r.getSecFromMorning < 86400
  ordered : r.getSecFromMorning ≤ r.lastSec

structure Clock.EvenDays (clock : Clock) : Prop where
  nonneg : ∀ t, 0 ≤ clock.getSecFromMorning t
  lt : ∀ t, clock.getSecFromMorning t < 86400
  nextDay : ∀ t, clock.getSecFromMorning (clock.getDay t + 86400) = 0
  startOfDay : ∀ year month day, clock.getSecFromMorning (clock.getStartOfDay year month day) = 0

namespace TimedDaterange

variable {clock : Clock} {d : TimedDaterange clock} {t s : Int}

theorem isTimeValid_iff : d.isTimeValid t = true ↔ d.isTimeDayValid t = true ∧
    ∃ r ∈ d.timeranges, r.getSecFromMorning ≤ clock.getSecFromMorning t ∧ clock.getSecFromMorning t ≤ r.lastSec := by
  simp [isTimeValid, Timerange.isTimeValid]

/-! ## The next time ranges -/

theorem mem_starts {x : Int} : (x ∈ (d.timeranges.map Timerange.getSecFromMorning).filter fun trStart =>
      decide (clock.getSecFromMorning t ≤ trStart)) ↔
    (∃ r ∈ d.timeranges, r.getSecFromMorning = x) ∧ clock.getSecFromMorning t ≤ x := by
  simp

theorem futureValid_some (h : d.getNextFutureTimerangeValid t = some s) : clock.getSecFromMorning t ≤ s ∧
    (∃ r ∈ d.timeranges, r.getSecFromMorning = s) ∧
    ∀ r ∈ d.timeranges, clock.getSecFromMorning t ≤ r.getSecFromMorning → s ≤ r.getSecFromMorning := by
  obtain ⟨hmem, hle⟩ := List.min?_eq_some_iff.mp h
  obtain ⟨hs, ht⟩ := mem_starts.mp hmem
  exact ⟨ht, hs, fun r hr hrt => hle _ (mem_starts.mpr ⟨⟨r, hr, rfl⟩, hrt⟩)⟩

variable {sec : Int}

theorem sec_nonneg (r : Timerange) : 0 ≤ r.getSecFromMorning := by
  unfold Timerange.getSecFromMorning
  omega

theorem getDay_start (d : TimedDaterange clock) (t : Int) : clock.getDay (d.getStartAndEndTime t).1 = (d.getStartAndEndTime t).1 := by
  rw [Clock.getDay, d.morning]
  omega

theorem getNextValidDay_eq (h : d.getNextFutureTimerangeValid s = some sec) : d.getNextValidDay s =
    if s ≤ (d.getStartAndEndTime s).1 then some (d.getStartAndEndTime s).1
    else if d.isTimeDayValid s then some (clock.getDay s) else none := by
  rw [getNextValidDay, h]
  simp only [getDay_start]

def standard (hc : clock.EvenDays) (dayId : Int) (timeranges : List Timerange) : TimedDaterange clock where
  getStartAndEndTime := StandardDaterange.getStartAndEndTime clock dayId
  timeranges := timeranges
  morning _ := hc.startOfDay _ _ _

end TimedDaterange

namespace Clock

variable (offset t : Int)

theorem fixed_getSecFromMorning : (Clock.fixed offset).getSecFromMorning t = (t + offset) % 86400 := by
  simp only [getSecFromMorning, fixed_localtime]
  omega

theorem fixed_getStartOfDay (year month day : Int) :
    (Clock.fixed offset).getStartOfDay year month day = daysFromCivil year month day * 86400 - offset := by
  rw [getStartOfDay, fixed_mktime]
  omega

theorem fixed_getEndOfDay (year month day : Int) :
    (Clock.fixed offset).getEndOfDay year month day = daysFromCivil year month day * 86400 - offset + 86399 := by
  rw [getEndOfDay, fixed_mktime]
  omega

theorem fixed_evenDays : (Clock.fixed offset).EvenDays where
  nonneg t := by
    rw [fixed_getSecFromMorning]
    omega
  lt t := by
    rw [fixed_getSecFromMorning]
    omega
  nextDay t := by
    rw [fixed_getSecFromMorning, getDay, fixed_getSecFromMorning]
    omega
  startOfDay year month day := by
    rw [fixed_getSecFromMorning, fixed_getStartOfDay]
    omega

end Clock

namespace TimedDaterange

def nextDayOf (dayId z : Int) : Int := z + (dayId - (z + 3) % 7) % 7

variable {z : Int} {r : Timerange}

theorem nextDayOf_le {dayId z' : Int} (h : z ≤ z') (hz : nextDayOf dayId z' = z') : nextDayOf dayId z ≤ z' := by
  unfold nextDayOf at *
  omega

theorem nextDayOf_self (dayId z : Int) : nextDayOf dayId (nextDayOf dayId z) = nextDayOf dayId z := by
  unfold nextDayOf
  omega

theorem le_nextDayOf (dayId z : Int) : z ≤ nextDayOf dayId z := by
  unfold nextDayOf
  omega

section
variable {offset dayId t u s : Int} {timeranges : List Timerange}

abbrev onWeekday (offset dayId : Int) (timeranges : List Timerange) : TimedDaterange (Clock.fixed offset) :=
  standard (Clock.fixed_evenDays offset) dayId timeranges

theorem onWeekday_getStartAndEndTime (ref : Int) : (onWeekday offset dayId timeranges).getStartAndEndTime ref =
    (nextDayOf dayId ((ref + offset) / 86400) * 86400 - offset, nextDayOf dayId ((ref + offset) / 86400) * 86400 - offset + 86399) := by
  simp only [onWeekday, standard, StandardDaterange.getStartAndEndTime, Clock.fixed_getStartOfDay, Clock.fixed_getEndOfDay,
    Clock.fixed_localtime, daysFromCivil_add, daysFromCivil_civilFromDays]
  rfl

theorem onWeekday_dayValid : (onWeekday offset dayId timeranges).isTimeDayValid t = true ↔
    nextDayOf dayId ((t + offset) / 86400) = (t + offset) / 86400 := by
  unfold isTimeDayValid
  rw [onWeekday_getStartAndEndTime]
  simp only [decide_eq_true_eq]
  have hle := le_nextDayOf dayId ((t + offset) / 86400)
  omega

theorem onWeekday_isTimeValid : (onWeekday offset dayId timeranges).isTimeValid t = true ↔
    nextDayOf dayId ((t + offset) / 86400) = (t + offset) / 86400 ∧
    ∃ r ∈ timeranges, r.getSecFromMorning ≤ (t + offset) % 86400 ∧ (t + offset) % 86400 ≤ r.lastSec := by
  rw [isTimeValid_iff, onWeekday_dayValid, Clock.fixed_getSecFromMorning]
  rfl

theorem futureValid_none {clock : Clock} {d : TimedDaterange clock} (h : d.getNextFutureTimerangeValid t = none) :
    ∀ r ∈ d.timeranges, r.getSecFromMorning < clock.getSecFromMorning t := by
  intro r hr
  by_contra hlt
  have hmem := mem_starts (d := d) (t := t).mpr ⟨⟨r, hr, rfl⟩, not_lt.mp hlt⟩
  rw [List.min?_eq_none_iff.mp h] at hmem
  cases hmem

theorem getNextValidDay_none {clock : Clock} {d : TimedDaterange clock} (h : d.getNextFutureTimerangeValid t = none) :
    d.getNextValidDay t = if t ≤ (d.getStartAndEndTime (clock.getDay t + 86400)).1
      then some (d.getStartAndEndTime (clock.getDay t + 86400)).1
      else if d.isTimeDayValid t then some (clock.getDay t) else none := by
  rw [getNextValidDay, h]
  simp only [getDay_start]

theorem fixed_getDay (offset t : Int) : (Clock.fixed offset).getDay t = (t + offset) / 86400 * 86400 - offset := by
  rw [Clock.getDay, Clock.fixed_getSecFromMorning]
  omega

theorem onWeekday_nextDay_none (h : (onWeekday offset dayId timeranges).getNextFutureTimerangeValid t = none) :
    (onWeekday offset dayId timeranges).getNextValidDay t = some (nextDayOf dayId ((t + offset) / 86400 + 1) * 86400 - offset) := by
  have hday : ((Clock.fixed offset).getDay t + 86400 + offset) / 86400 = (t + offset) / 86400 + 1 := by
    rw [fixed_getDay]
    omega
  have hle := le_nextDayOf dayId ((t + offset) / 86400 + 1)
  rw [getNextValidDay_none h, onWeekday_getStartAndEndTime, hday]
  exact if_pos (show t ≤ nextDayOf dayId ((t + offset) / 86400 + 1) * 86400 - offset by omega)

theorem onWeekday_nextDay_some (h : (onWeekday offset dayId timeranges).getNextFutureTimerangeValid t = some s) :
    (onWeekday offset dayId timeranges).getNextValidDay t = some (nextDayOf dayId ((t + offset) / 86400) * 86400 - offset) := by
  have hle := le_nextDayOf dayId ((t + offset) / 86400)
  rw [getNextValidDay_eq h, onWeekday_getStartAndEndTime]
  by_cases hstart : t ≤ nextDayOf dayId ((t + offset) / 86400) * 86400 - offset
  · rw [if_pos hstart]
  · have hvalid : nextDayOf dayId ((t + offset) / 86400) = (t + offset) / 86400 := by omega
    rw [if_neg hstart, if_pos (onWeekday_dayValid.mpr hvalid), fixed_getDay, hvalid]

theorem start_after (hv : ¬ (onWeekday offset dayId timeranges).isTimeValid t = true) (htu : t ≤ u)
    (hsame : (u + offset) / 86400 = (t + offset) / 86400) (hday : nextDayOf dayId ((u + offset) / 86400) = (u + offset) / 86400)
    (hr : r ∈ timeranges) (hle : (u + offset) % 86400 ≤ r.lastSec) : (t + offset) % 86400 < r.getSecFromMorning := by
  by_contra hlt
  apply hv
  rw [onWeekday_isTimeValid]
  exact ⟨hsame ▸ hday, r, hr, by omega, by omega⟩

theorem morning_le (offset z : Int) (r : Timerange) : (Clock.fixed offset).getSecFromMorning (z * 86400 - offset) ≤ r.getSecFromMorning := by
  have hnonneg := sec_nonneg r
  rw [Clock.fixed_getSecFromMorning]
  omega

theorem future_of_morning (offset dayId : Int) (hr : r ∈ timeranges) (z : Int) :
    ∃ m, (onWeekday offset dayId timeranges).getNextFutureTimerangeValid (z * 86400 - offset) = some m := by
  refine Option.ne_none_iff_exists'.mp fun h => ?_
  have hpast := futureValid_none h r hr
  have hle := morning_le offset z r
  exact absurd hpast (not_lt.mpr hle)

theorem nextFrom_without_ranges (t : Int) : NextFrom (fun u => (onWeekday offset dayId []).isTimeValid u = true) t
    ((onWeekday offset dayId []).getNextValidTimeFromT t) := by
  have hinvalid : ∀ u, ¬ (onWeekday offset dayId []).isTimeValid u = true := by
    intro u hu
    obtain ⟨-, r, hr, -⟩ := onWeekday_isTimeValid.mp hu
    exact absurd hr List.not_mem_nil
  have hnone : ∀ x, (onWeekday offset dayId []).getNextFutureTimerangeValid x = none := fun _ => rfl
  have hresult : (onWeekday offset dayId []).getNextValidTimeFromT t = none := by
    unfold getNextValidTimeFromT
    rw [if_neg (hinvalid t), onWeekday_nextDay_none (hnone t)]
    simp only [hnone, onWeekday_nextDay_none (hnone _), Option.map_none]
  rw [hresult]
  exact fun u _ => hinvalid u

/-! ## The least valid time -/

section
variable (hordered : ∀ r ∈ timeranges, r.WellOrdered)
include hordered

theorem onWeekday_valid_at (hz : nextDayOf dayId z = z) (hr : r ∈ timeranges) :
    (onWeekday offset dayId timeranges).isTimeValid (z * 86400 - offset + r.getSecFromMorning) = true := by
  have hnonneg := sec_nonneg r
  obtain ⟨hlt, hle⟩ := hordered r hr
  have hday : (z * 86400 - offset + r.getSecFromMorning + offset) / 86400 = z := by omega
  have hsec : (z * 86400 - offset + r.getSecFromMorning + offset) % 86400 = r.getSecFromMorning := by omega
  rw [onWeekday_isTimeValid, hday, hsec]
  exact ⟨hz, r, hr, le_refl _, hle⟩

theorem nextFrom_start (hz : nextDayOf dayId z = z) (hr : r ∈ timeranges)
    (ht : t ≤ z * 86400 - offset + r.getSecFromMorning)
    (hleast : ∀ u, t ≤ u → nextDayOf dayId ((u + offset) / 86400) = (u + offset) / 86400 →
      (∃ r' ∈ timeranges, r'.getSecFromMorning ≤ (u + offset) % 86400 ∧ (u + offset) % 86400 ≤ r'.lastSec) →
      z < (u + offset) / 86400 ∨ z = (u + offset) / 86400 ∧ r.getSecFromMorning ≤ (u + offset) % 86400) :
    NextFrom (fun u => (onWeekday offset dayId timeranges).isTimeValid u = true) t
      (some (z * 86400 - offset + r.getSecFromMorning)) := by
  refine ⟨⟨ht, onWeekday_valid_at hordered hz hr⟩, fun u hu => ?_⟩
  obtain ⟨hle, hvalid⟩ := hu
  obtain ⟨hday, hrange⟩ := onWeekday_isTimeValid.mp hvalid
  have hlt := (hordered r hr).start
  rcases hleast u hle hday hrange with h | ⟨h, h'⟩
  · omega
  · omega

/-- The search finds the least valid time from the time on, where there is one. -/
theorem standard_next_valid_least (t : Int) :
    NextFrom (fun u => (onWeekday offset dayId timeranges).isTimeValid u = true) t
      ((onWeekday offset dayId timeranges).getNextValidTimeFromT t) := by
  by_cases hempty : timeranges = []
  · subst hempty
    exact nextFrom_without_ranges t
  obtain ⟨r₀, hr0⟩ := List.exists_mem_of_ne_nil _ hempty
  unfold getNextValidTimeFromT
  by_cases hv : (onWeekday offset dayId timeranges).isTimeValid t = true
  · rw [if_pos hv]
    exact NextFrom.self hv
  rw [if_neg hv]
  have hle := le_nextDayOf dayId ((t + offset) / 86400)
  cases hf : (onWeekday offset dayId timeranges).getNextFutureTimerangeValid t with
  | none =>
    have hle' := le_nextDayOf dayId ((t + offset) / 86400 + 1)
    rw [onWeekday_nextDay_none hf]
    simp only [if_pos (show t < nextDayOf dayId ((t + offset) / 86400 + 1) * 86400 - offset by omega)]
    obtain ⟨m, hm⟩ := future_of_morning offset dayId hr0 (nextDayOf dayId ((t + offset) / 86400 + 1))
    obtain ⟨-, ⟨r, hr, rfl⟩, hmin⟩ := futureValid_some hm
    simp only [hm]
    refine nextFrom_start hordered (nextDayOf_self _ _) hr ?_ fun u hu hday hrange => ?_
    · have hnonneg := sec_nonneg r
      omega
    · obtain ⟨r', hr', hstart, hlast⟩ := hrange
      -- the time ranges of today are over
      have hlater : (t + offset) / 86400 < (u + offset) / 86400 := by
        by_contra hsame
        have hnow := start_after hv hu (by omega) hday hr' hlast
        have hpast := futureValid_none hf r' hr'
        rw [Clock.fixed_getSecFromMorning] at hpast
        omega
      have hz := nextDayOf_le (show (t + offset) / 86400 + 1 ≤ (u + offset) / 86400 by omega) hday
      have hfirst := hmin r' hr' (morning_le offset _ r')
      omega
  | some s =>
    rw [onWeekday_nextDay_some hf]
    by_cases hlt : t < nextDayOf dayId ((t + offset) / 86400) * 86400 - offset
    · simp only [if_pos hlt]
      obtain ⟨m, hm⟩ := future_of_morning offset dayId hr0 (nextDayOf dayId ((t + offset) / 86400))
      obtain ⟨-, ⟨r, hr, rfl⟩, hmin⟩ := futureValid_some hm
      simp only [hm]
      refine nextFrom_start hordered (nextDayOf_self _ _) hr ?_ fun u hu hday hrange => ?_
      · have hnonneg := sec_nonneg r
        omega
      · obtain ⟨r', hr', hstart, hlast⟩ := hrange
        have hz := nextDayOf_le (show (t + offset) / 86400 ≤ (u + offset) / 86400 by omega) hday
        have hfirst := hmin r' hr' (morning_le offset _ r')
        omega
    · simp only [if_neg hlt, hf]
      obtain ⟨hsec, ⟨r, hr, rfl⟩, hmin⟩ := futureValid_some hf
      rw [Clock.fixed_getSecFromMorning] at hsec
      refine nextFrom_start hordered (nextDayOf_self _ _) hr (by omega) fun u hu hday hrange => ?_
      obtain ⟨r', hr', hstart, hlast⟩ := hrange
      by_cases hsame : (u + offset) / 86400 = (t + offset) / 86400
      · have hafter := start_after hv hu hsame hday hr' hlast
        have hfirst := hmin r' hr' (by rw [Clock.fixed_getSecFromMorning]; omega)
        omega
      · omega

end

end

/-- Mondays from 08:00 to 12:00 and from 13:30 to 24:00, an hour east of the universal time. -/
theorem monday_next_valid_least : NextFrom (fun u => (onWeekday 3600 0 [⟨8, 0, 12, 0⟩, ⟨13, 30, 24, 0⟩]).isTimeValid u = true) 0
    ((onWeekday 3600 0 [⟨8, 0, 12, 0⟩, ⟨13, 30, 24, 0⟩]).getNextValidTimeFromT 0) := by
  refine standard_next_valid_least (fun r hr => ?_) 0
  rcases List.mem_cons.mp hr with rfl | hr
  · exact ⟨by decide, by decide⟩
  · rw [List.mem_singleton.mp hr]
    exact ⟨by decide, by decide⟩

example : (onWeekday 3600 0 [⟨8, 0, 12, 0⟩, ⟨13, 30, 24, 0⟩]).getNextValidTimeFromT 0 = some 370800 := by decide +kernel

end TimedDaterange

end Alignak
