import Mathlib.Data.Int.ConditionallyCompleteOrder
import Mathlib.Order.ConditionallyCompleteLattice.Basic
import Mathlib.Tactic.Common
import Mathlib.Tactic.IntervalCases

/-!
# The Gregorian calendar

Days are numbered from the epoch, and months from the year 0.
-/

namespace Alignak

structure LocalTime where
  year : Int
  mon : Int
  mday : Int
  hour : Int
  min : Int
  sec : Int
  wday : Int
  deriving DecidableEq, Repr

/-- `mktime` takes a year, a month, a day, an hour, a minute and a second. -/
structure Clock where
  localtime : Int → LocalTime
  mktime : Int → Int → Int → Int → Int → Int → Int

def daysFromCivil (year month day : Int) : Int :=
  let y := if month ≤ 2 then year - 1 else year
  let dayOfYear := (153 * ((month + 9) % 12) + 2) / 5 + day - 1
  y * 365 + y / 4 - y / 100 + y / 400 + dayOfYear - 719468

def civilFromDays (days : Int) : Int × Int × Int :=
  let z := days + 719468
  let era := z / 146097
  let dayOfEra := z % 146097
  let yearOfEra := (dayOfEra - dayOfEra / 1460 + dayOfEra / 36524 - dayOfEra / 146096) / 365
  let dayOfYear := dayOfEra - (365 * yearOfEra + yearOfEra / 4 - yearOfEra / 100)
  let m := (5 * dayOfYear + 2) / 153
  let month := if m < 10 then m + 3 else m - 9
  (yearOfEra + era * 400 + (if month ≤ 2 then 1 else 0), month, dayOfYear - (153 * m + 2) / 5 + 1)

def weekday (year month day : Int) : Int := (daysFromCivil year month day + 3) % 7

def daysInMonth (year month : Int) : Int :=
  (if month = 12 then daysFromCivil (year + 1) 1 1 else daysFromCivil year (month + 1) 1) - daysFromCivil year month 1

def Clock.utc : Clock where
  localtime t :=
    let days := t / 86400
    let rest := t % 86400
    let (year, mon, mday) := civilFromDays days
    ⟨year, mon, mday, rest / 3600, rest % 3600 / 60, rest % 60, (days + 3) % 7⟩
  mktime year mon mday hour min sec := daysFromCivil year mon mday * 86400 + hour * 3600 + min * 60 + sec

def Clock.fixed (offset : Int) : Clock where
  localtime t := Clock.utc.localtime (t + offset)
  mktime year mon mday hour min sec := Clock.utc.mktime year mon mday hour min sec - offset

/-! ## Days and dates -/

theorem daysFromCivil_add (year month day n : Int) : daysFromCivil year month (day + n) = daysFromCivil year month day + n := by
  simp only [daysFromCivil]
  omega

section
variable {doe y : Int}

theorem le_dayOfEra (h0 : 0 ≤ doe) (h1 : doe ≤ 146096) (hy : y = (doe - doe / 1460 + doe / 36524 - doe / 146096) / 365) :
    365 * y + y / 4 - y / 100 ≤ doe := by
  have hcentury : 25 * (doe / 36524) ≤ doe / 1460 := by omega
  have hfour : y / 4 ≤ doe / 1460 := by
    by_contra h
    omega
  by_contra h
  have hlt : y / 100 ≤ doe / 36524 - doe / 146096 - 1 := by omega
  have hle : y ≤ 100 * (doe / 36524 - doe / 146096) - 1 := by omega
  omega

theorem dayOfEra_lt (h0 : 0 ≤ doe) (h1 : doe ≤ 146096) (hy : y = (doe - doe / 1460 + doe / 36524 - doe / 146096) / 365) :
    doe < 365 * (y + 1) + (y + 1) / 4 - (y + 1) / 100 + (y + 1) / 400 := by
  have hy1 : y ≤ 399 := by omega
  have hcentury : 25 * (doe / 36524) ≤ doe / 1460 ∧ doe / 1460 ≤ 25 * (doe / 36524) + 25 := by omega
  by_contra h
  have hle : (y + 1) / 4 ≤ doe / 1460 := by omega
  have hlt : (y + 1) / 4 - (y + 1) / 100 + (y + 1) / 400 + 1 ≤ doe / 1460 - doe / 36524 + doe / 146096 := by omega
  have hge : doe / 1460 ≤ (y + 1) / 4 := by omega
  have hfour : 25 * ((y + 1) / 100) ≤ (y + 1) / 4 := by omega
  have hday : 36524 * ((y + 1) / 100) ≤ doe := by omega
  omega

end

theorem civilFromDays_spec (days : Int) : ∃ era y doy m : Int, 0 ≤ y ∧ y ≤ 399 ∧ 0 ≤ doy ∧ doy ≤ 365 ∧ m = (5 * doy + 2) / 153 ∧
    days + 719468 = era * 146097 + (365 * y + y / 4 - y / 100) + doy ∧
    365 * y + y / 4 - y / 100 + doy < 365 * (y + 1) + (y + 1) / 4 - (y + 1) / 100 + (y + 1) / 400 ∧
    (civilFromDays days).1 = y + era * 400 + (if m < 10 then 0 else 1) ∧
    (civilFromDays days).2.1 = (if m < 10 then m + 3 else m - 9) ∧
    (civilFromDays days).2.2 = doy - (153 * m + 2) / 5 + 1 := by
  generalize hdoe : (days + 719468) % 146097 = doe
  generalize hy : (doe - doe / 1460 + doe / 36524 - doe / 146096) / 365 = y
  generalize hdoy : doe - (365 * y + y / 4 - y / 100) = doy
  generalize hm : (5 * doy + 2) / 153 = m
  have h0 : 0 ≤ doe := by omega
  have h1 : doe ≤ 146096 := by omega
  have hle := le_dayOfEra h0 h1 hy.symm
  have hlt := dayOfEra_lt h0 h1 hy.symm
  have hy0 : 0 ≤ y := by omega
  have hy1 : y ≤ 399 := by omega
  have hdoy1 : doy ≤ 365 := by omega
  refine ⟨(days + 719468) / 146097, y, doy, m, hy0, hy1, by omega, hdoy1, hm.symm, by omega, by omega, ?_, ?_, ?_⟩
  · simp only [civilFromDays, hdoe, hy, hdoy, hm]
    split <;> split <;> omega
  · simp only [civilFromDays, hdoe, hy, hdoy, hm]
  · simp only [civilFromDays, hdoe, hy, hdoy, hm]

theorem daysFromCivil_civilFromDays (days : Int) :
    daysFromCivil (civilFromDays days).1 (civilFromDays days).2.1 (civilFromDays days).2.2 = days := by
  obtain ⟨era, y, doy, m, hy0, hy1, hdoy0, hdoy1, hm, hdays, -, hyear, hmonth, hday⟩ := civilFromDays_spec days
  by_cases h : m < 10
  · rw [if_pos h] at hyear hmonth
    have hmod : (m + 3 + 9) % 12 = m := by omega
    rw [hyear, hmonth, hday]
    simp only [daysFromCivil, if_neg (show ¬ m + 3 ≤ 2 by omega), hmod]
    omega
  · rw [if_neg h] at hyear hmonth
    have hmod : (m - 9 + 9) % 12 = m := by omega
    rw [hyear, hmonth, hday]
    simp only [daysFromCivil, if_pos (show m - 9 ≤ 2 by omega), hmod]
    omega

/-! ## Months -/

structure IsDate (year month day : Int) : Prop where
  inYear : 1 ≤ month ∧ month ≤ 12
  inMonth : 1 ≤ day ∧ day ≤ daysInMonth year month

theorem daysInMonth_bounds (year : Int) {month : Int} (h : 1 ≤ month ∧ month ≤ 12) :
    28 ≤ daysInMonth year month ∧ daysInMonth year month ≤ 31 := by
  obtain ⟨h1, h12⟩ := h
  simp only [daysInMonth, daysFromCivil]
  interval_cases month <;> simp
  -- February
  omega

theorem civilFromDays_isDate (days : Int) : IsDate (civilFromDays days).1 (civilFromDays days).2.1 (civilFromDays days).2.2 := by
  obtain ⟨era, y, doy, m, hy0, hy1, hdoy0, hdoy1, hm, hdays, hlt, hyear, hmonth, hday⟩ := civilFromDays_spec days
  have hm11 : 0 ≤ m ∧ m ≤ 11 := by omega
  rw [hyear, hmonth, hday]
  refine ⟨by split <;> omega, by omega, ?_⟩
  simp only [daysInMonth, daysFromCivil]
  obtain ⟨h0, h11⟩ := hm11
  interval_cases m <;> simp <;> omega

def firstDay (k : Int) : Int := daysFromCivil (k / 12) (k % 12 + 1) 1

def monthNumber (year month : Int) : Int := year * 12 + (month - 1)

theorem monthNumber_div {month : Int} (h : 1 ≤ month ∧ month ≤ 12) (year : Int) :
    monthNumber year month / 12 = year ∧ monthNumber year month % 12 + 1 = month := by
  unfold monthNumber
  omega

theorem firstDay_succ (k : Int) : firstDay (k + 1) = firstDay k + daysInMonth (k / 12) (k % 12 + 1) := by
  unfold firstDay daysInMonth
  by_cases h : k % 12 + 1 = 12
  · rw [if_pos h, show (k + 1) / 12 = k / 12 + 1 by omega, show (k + 1) % 12 + 1 = 1 by omega]
    omega
  · rw [if_neg h, show (k + 1) / 12 = k / 12 by omega, show (k + 1) % 12 + 1 = k % 12 + 1 + 1 by omega]
    omega

theorem firstDay_lt_succ (k : Int) : firstDay k < firstDay (k + 1) := by
  have hmonth : 1 ≤ k % 12 + 1 ∧ k % 12 + 1 ≤ 12 := by omega
  have h := (daysInMonth_bounds (k / 12) hmonth).1
  rw [firstDay_succ]
  omega

theorem firstDay_mono : StrictMono firstDay := strictMono_int_of_lt_succ firstDay_lt_succ

section
variable {year month day : Int}

theorem daysFromCivil_eq (h : 1 ≤ month ∧ month ≤ 12) : daysFromCivil year month day = firstDay (monthNumber year month) + (day - 1) := by
  obtain ⟨hyear, hmonth⟩ := monthNumber_div h year
  unfold firstDay
  rw [hyear, hmonth, ← daysFromCivil_add]
  congr 1
  omega

theorem IsDate.in_month (h : IsDate year month day) : firstDay (monthNumber year month) ≤ daysFromCivil year month day ∧
    daysFromCivil year month day < firstDay (monthNumber year month + 1) := by
  obtain ⟨hyear, hmonth⟩ := monthNumber_div h.inYear year
  have hday := h.inMonth
  rw [firstDay_succ, daysFromCivil_eq h.inYear, hyear, hmonth]
  omega

end

/-! ### One day in each period -/

structure OneEach (starts day : Int → Int) : Prop where
  low : ∀ k, starts k - 1 ≤ day k
  high : ∀ k, day k < starts (k + 1)
  mono : StrictMono day

structure MonthlyDay (day : Int → Int → Int) : Prop where
  nonneg : ∀ year {month}, 1 ≤ month ∧ month ≤ 12 → 0 ≤ day year month
  le : ∀ year {month}, 1 ≤ month ∧ month ≤ 12 → day year month ≤ daysInMonth year month
  alike : (∀ year {month}, 1 ≤ month ∧ month ≤ 12 → day year month ≠ 0) ∨ ∀ year {month}, 1 ≤ month ∧ month ≤ 12 → day year month = 0

def dayNumber (day : Int → Int → Int) (k : Int) : Int := daysFromCivil (k / 12) (k % 12 + 1) (day (k / 12) (k % 12 + 1))

theorem month_valid (k : Int) : 1 ≤ k % 12 + 1 ∧ k % 12 + 1 ≤ 12 := by omega

theorem dayNumber_eq (day : Int → Int → Int) (k : Int) : dayNumber day k = firstDay k + (day (k / 12) (k % 12 + 1) - 1) := by
  have hk : monthNumber (k / 12) (k % 12 + 1) = k := by
    unfold monthNumber
    omega
  rw [dayNumber, daysFromCivil_eq (month_valid k), hk]

theorem dayNumber_monthNumber (day : Int → Int → Int) (year : Int) {month : Int} (h : 1 ≤ month ∧ month ≤ 12) :
    dayNumber day (monthNumber year month) = daysFromCivil year month (day year month) := by
  obtain ⟨hyear, hmonth⟩ := monthNumber_div h year
  rw [dayNumber, hyear, hmonth]

theorem MonthlyDay.oneEach {day : Int → Int → Int} (h : MonthlyDay day) : OneEach firstDay (dayNumber day) where
  low k := by
    have hnonneg := h.nonneg (k / 12) (month_valid k)
    rw [dayNumber_eq]
    omega
  high k := by
    have hle := h.le (k / 12) (month_valid k)
    rw [dayNumber_eq, firstDay_succ]
    omega
  mono := by
    refine strictMono_int_of_lt_succ fun k => ?_
    have hle := h.le (k / 12) (month_valid k)
    have hsucc := firstDay_lt_succ k
    rw [dayNumber_eq, dayNumber_eq]
    rcases h.alike with hpos | hzero
    · have hnonneg := h.nonneg ((k + 1) / 12) (month_valid (k + 1))
      have hne := hpos ((k + 1) / 12) (month_valid (k + 1))
      rw [firstDay_succ] at hsucc ⊢
      omega
    · rw [hzero _ (month_valid k), hzero _ (month_valid (k + 1))]
      omega

theorem OneEach.yearly {day : Int → Int} (h : OneEach firstDay day) {month : Int} (hm : 1 ≤ month ∧ month ≤ 12) :
    OneEach (fun year => firstDay (year * 12)) fun year => day (monthNumber year month) where
  low year := by
    have hlow := h.low (monthNumber year month)
    have hmono : firstDay (year * 12) ≤ firstDay (monthNumber year month) := firstDay_mono.monotone (by unfold monthNumber; omega)
    omega
  high year := by
    have hhigh := h.high (monthNumber year month)
    have hmono : firstDay (monthNumber year month + 1) ≤ firstDay ((year + 1) * 12) :=
      firstDay_mono.monotone (by unfold monthNumber; omega)
    omega
  mono year year' hlt := h.mono (by unfold monthNumber; omega)

/-! ## Clocks -/

/-- A clock that follows the calendar: a time is one of the day of its date, all
the dates of a day are one, and the days come in their order. -/
structure Clock.Lawful (clock : Clock) : Prop where
  isDate : ∀ t, IsDate (clock.localtime t).year (clock.localtime t).mon (clock.localtime t).mday
  epoch : ∀ t, clock.mktime (clock.localtime t).year (clock.localtime t).mon (clock.localtime t).mday (clock.localtime t).hour
    (clock.localtime t).min (clock.localtime t).sec = t
  first : ∀ t, clock.mktime (clock.localtime t).year (clock.localtime t).mon (clock.localtime t).mday 0 0 0 ≤ t
  last : ∀ t, t ≤ clock.mktime (clock.localtime t).year (clock.localtime t).mon (clock.localtime t).mday 23 59 59
  normal : ∀ {y m d y' m' d'}, 1 ≤ m ∧ m ≤ 12 → 1 ≤ m' ∧ m' ≤ 12 → daysFromCivil y m d = daysFromCivil y' m' d' →
    ∀ hour min sec, clock.mktime y m d hour min sec = clock.mktime y' m' d' hour min sec
  day : ∀ {month}, 1 ≤ month ∧ month ≤ 12 → ∀ year day, clock.mktime year month day 0 0 0 ≤ clock.mktime year month day 23 59 59
  order : ∀ {y m d y' m' d'}, 1 ≤ m ∧ m ≤ 12 → 1 ≤ m' ∧ m' ≤ 12 → daysFromCivil y m d < daysFromCivil y' m' d' →
    clock.mktime y m d 23 59 59 < clock.mktime y' m' d' 0 0 0

def Clock.dayOf (clock : Clock) (t : Int) : Int :=
  daysFromCivil (clock.localtime t).year (clock.localtime t).mon (clock.localtime t).mday

namespace Clock.Lawful

variable {clock : Clock} (h : clock.Lawful) {year month day year' month' day' t : Int}
include h

theorem first_lt_first (hm : 1 ≤ month ∧ month ≤ 12) (hm' : 1 ≤ month' ∧ month' ≤ 12)
    (hlt : daysFromCivil year month day < daysFromCivil year' month' day') :
    clock.mktime year month day 0 0 0 < clock.mktime year' month' day' 0 0 0 :=
  (h.day hm year day).trans_lt (h.order hm hm' hlt)

theorem last_lt_last (hm : 1 ≤ month ∧ month ≤ 12) (hm' : 1 ≤ month' ∧ month' ≤ 12)
    (hlt : daysFromCivil year month day < daysFromCivil year' month' day') :
    clock.mktime year month day 23 59 59 < clock.mktime year' month' day' 23 59 59 :=
  (h.order hm hm' hlt).trans_le (h.day hm' year' day')

theorem first_le_iff (hm : 1 ≤ month ∧ month ≤ 12) : clock.mktime year month day 0 0 0 ≤ t ↔ daysFromCivil year month day ≤ clock.dayOf t := by
  have hmon := (h.isDate t).inYear
  constructor
  · intro hle
    by_contra hlt
    have horder := h.order hmon hm (not_le.mp hlt)
    have hlast := h.last t
    omega
  · intro hle
    have hfirst := h.first t
    rcases hle.lt_or_eq with hlt | heq
    · have horder := h.first_lt_first hm hmon hlt
      omega
    · rw [h.normal hm hmon heq]
      exact hfirst

theorem le_last_iff (hm : 1 ≤ month ∧ month ≤ 12) : t ≤ clock.mktime year month day 23 59 59 ↔ clock.dayOf t ≤ daysFromCivil year month day := by
  have hmon := (h.isDate t).inYear
  constructor
  · intro hle
    by_contra hlt
    have horder := h.order hm hmon (not_le.mp hlt)
    have hfirst := h.first t
    omega
  · intro hle
    have hlast := h.last t
    rcases hle.lt_or_eq with hlt | heq
    · have horder := h.last_lt_last hmon hm hlt
      omega
    · rw [← h.normal hmon hm heq]
      exact hlast

end Clock.Lawful

theorem Clock.fixed_localtime (offset t : Int) : (Clock.fixed offset).localtime t =
    ⟨(civilFromDays ((t + offset) / 86400)).1, (civilFromDays ((t + offset) / 86400)).2.1, (civilFromDays ((t + offset) / 86400)).2.2,
      (t + offset) % 86400 / 3600, (t + offset) % 86400 % 3600 / 60, (t + offset) % 86400 % 60, ((t + offset) / 86400 + 3) % 7⟩ := rfl

theorem Clock.fixed_mktime (offset year month day hour min sec : Int) : (Clock.fixed offset).mktime year month day hour min sec =
    daysFromCivil year month day * 86400 + hour * 3600 + min * 60 + sec - offset := rfl

theorem Clock.fixed_lawful (offset : Int) : (Clock.fixed offset).Lawful where
  isDate t := civilFromDays_isDate _
  epoch t := by
    rw [fixed_mktime, fixed_localtime]
    simp only [daysFromCivil_civilFromDays]
    omega
  first t := by
    rw [fixed_mktime, fixed_localtime]
    simp only [daysFromCivil_civilFromDays]
    omega
  last t := by
    rw [fixed_mktime, fixed_localtime]
    simp only [daysFromCivil_civilFromDays]
    omega
  normal _ _ h hour min sec := by rw [fixed_mktime, fixed_mktime, h]
  day _ _ _ := by
    rw [fixed_mktime, fixed_mktime]
    omega
  order _ _ h := by
    rw [fixed_mktime, fixed_mktime]
    omega

end Alignak
