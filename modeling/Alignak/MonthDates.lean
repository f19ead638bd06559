import Alignak.DaterangeHistory
import Alignak.Recurrences

/-!
# The occurrences of month dates

A month date daterange recurs each year, from its first day to its last one.
-/

namespace Alignak

/-! ## Times and days -/

theorem one_le_findDayByOffset {offset : Int} (h : offset ≠ 0) (year : Int) {month : Int} (hm : 1 ≤ month ∧ month ≤ 12) :
    1 ≤ findDayByOffset year month offset := by
  have hdays := (daysInMonth_bounds year hm).1
  unfold findDayByOffset
  simp only
  split <;> omega

theorem findDayByOffset_monthly (offset : Int) : MonthlyDay fun year month => findDayByOffset year month offset where
  nonneg year month hm := by
    have hdays := (daysInMonth_bounds year hm).1
    unfold findDayByOffset
    simp only
    split <;> omega
  le year month hm := by
    have hdays := (daysInMonth_bounds year hm).1
    unfold findDayByOffset
    simp only
    split <;> omega
  alike := by
    by_cases h : offset = 0
    · refine .inr fun year month hm => ?_
      have hdays := (daysInMonth_bounds year hm).1
      subst h
      simp only [findDayByOffset, ge_iff_le, le_refl, if_true]
      omega
    · refine .inl fun year month hm => ?_
      have hday := one_le_findDayByOffset h year hm
      omega

theorem Clock.Lawful.now_epoch {clock : Clock} (h : clock.Lawful) (ref : Int) : (clock.localtime ref).epoch clock = ref := h.epoch ref

section
variable (clock : Clock) {r : Recurrence Int} {starts S E : Int → Int} {t k : Int}

theorem around_of_days (hS : OneEach starts S) (hE : OneEach starts E) (hstarts : StrictMono starts)
    (hfirst : ∀ k t, r.first k ≤ t ↔ S k ≤ clock.dayOf t) (hlast : ∀ k t, t ≤ r.last k ↔ clock.dayOf t ≤ E k)
    (hk : starts k ≤ clock.dayOf t ∧ clock.dayOf t < starts (k + 1)) : r.Around t k where
  begun {j} hj := by
    have hhigh := hS.high j
    have hmono : starts (j + 1) ≤ starts k := hstarts.monotone (by omega)
    rw [hfirst]
    omega
  ended {j} hj := by
    have hhigh := hE.high j
    have hmono : starts (j + 1) ≤ starts k := hstarts.monotone (by omega)
    rw [← not_le, hlast]
    omega
  later {j} hj := by
    have hlow := hS.low j
    have hmono : starts (k + 1) < starts j := hstarts (by omega)
    rw [← not_le, hfirst]
    omega
  lasting {j} hj := by
    have hlow := hE.low j
    have hmono : starts (k + 1) ≤ starts j := hstarts.monotone (by omega)
    rw [hlast]
    omega

end

/-! ## Each year -/

def MonthDateDaterange.occurrences (clock : Clock) (d : Daterange) : Recurrence Int where
  first year := startByDay clock year d.smon d.smday
  last year := endByDay clock year d.emon d.emday

/-- Where the occurrence that is looked for is the one that is returned: it wraps, and
the day of the end gives the day of its start, or the ones around it do not wrap. -/
def MonthDateDaterange.FindsAt (clock : Clock) (d : Daterange) (ref : Int) : Prop :=
  if (occurrences clock d).Wraps (clock.localtime ref).year then
    ref ≤ (occurrences clock d).last (clock.localtime ref).year →
      findDayByOffset ((clock.localtime ref).year - 1) d.smon d.emday = findDayByOffset ((clock.localtime ref).year - 1) d.smon d.smday ∧
        (occurrences clock d).Wraps ((clock.localtime ref).year - 1)
  else (occurrences clock d).Settles ref (clock.localtime ref).year

instance MonthDateDaterange.FindsAt.decidable (clock : Clock) (d : Daterange) (ref : Int) : Decidable (FindsAt clock d ref) := by
  unfold FindsAt
  infer_instance

namespace MonthDateDaterange

variable {clock : Clock} {d : Daterange} {ref year : Int}

theorem getStartAndEndTime_apply (hclock : clock.Lawful) (hs : d.syear = 0) (he : d.eyear = 0)
    (hyear : (clock.localtime ref).year = year) :
    outcome (getStartAndEndTime clock ref d) = .ok (
      if (occurrences clock d).Wraps year then
        if (occurrences clock d).last year < ref then ((occurrences clock d).first year, (occurrences clock d).last (year + 1))
        else (startByDay clock (year - 1) d.smon d.emday, (occurrences clock d).last year)
      else if (occurrences clock d).last year < ref then
        ((occurrences clock d).first (year + 1), (occurrences clock d).last (year + 1))
      else ((occurrences clock d).first year, (occurrences clock d).last year)) := by
  have hsyear : (d.effective (clock.localtime ref)).syear = year := (if_pos hs).trans hyear
  have heyear : (d.effective (clock.localtime ref)).eyear = year := (if_pos he).trans hyear
  unfold getStartAndEndTime
  simp only
  rw [Daterange.fillYears_apply, get_bind, hclock.now_epoch, hsyear, heyear]
  by_cases hgt : startByDay clock year (d.effective (clock.localtime ref)).smon (d.effective (clock.localtime ref)).smday >
      endByDay clock year (d.effective (clock.localtime ref)).emon (d.effective (clock.localtime ref)).emday
  · rw [run_pos hgt, if_pos (show (occurrences clock d).Wraps year from hgt)]
    by_cases hlt : (occurrences clock d).last year < ref
    · rw [if_pos hlt]
      exact (congrArg outcome (run_pos hlt _)).trans rfl
    · rw [if_neg hlt]
      exact (congrArg outcome (run_neg hlt _)).trans rfl
  · rw [run_neg hgt, if_neg (show ¬ (occurrences clock d).Wraps year from hgt)]
    by_cases hlt : (occurrences clock d).last year < ref
    · rw [if_pos hlt]
      exact (congrArg outcome (run_pos hlt _)).trans rfl
    · rw [if_neg hlt]
      exact (congrArg outcome (run_neg hlt _)).trans rfl

/-! ### The years -/

section
variable (hclock : clock.Lawful) (hsmon : 1 ≤ d.smon ∧ d.smon ≤ 12) (hemon : 1 ≤ d.emon ∧ d.emon ≤ 12)
include hclock

include hsmon hemon in
theorem occurrences_ordered : (occurrences clock d).Ordered where
  first _ _ hlt := by
    have hmono := ((findDayByOffset_monthly d.smday).oneEach.yearly hsmon).mono hlt
    simp only [dayNumber_monthNumber _ _ hsmon] at hmono
    exact hclock.first_lt_first hsmon hsmon hmono
  last _ _ hlt := by
    have hmono := ((findDayByOffset_monthly d.emday).oneEach.yearly hemon).mono hlt
    simp only [dayNumber_monthNumber _ _ hemon] at hmono
    exact hclock.last_lt_last hemon hemon hmono

theorem year_of_day (t : Int) : firstDay ((clock.localtime t).year * 12) ≤ clock.dayOf t ∧
    clock.dayOf t < firstDay (((clock.localtime t).year + 1) * 12) := by
  have hdate := hclock.isDate t
  have hmon := hdate.inYear
  obtain ⟨hlow, hhigh⟩ := hdate.in_month
  have hfirst : firstDay ((clock.localtime t).year * 12) ≤ firstDay (monthNumber (clock.localtime t).year (clock.localtime t).mon) :=
    firstDay_mono.monotone (by unfold monthNumber; omega)
  have hlast : firstDay (monthNumber (clock.localtime t).year (clock.localtime t).mon + 1) ≤ firstDay (((clock.localtime t).year + 1) * 12) :=
    firstDay_mono.monotone (by unfold monthNumber; omega)
  exact ⟨hfirst.trans hlow, hhigh.trans_le hlast⟩

include hsmon hemon in
theorem occurrences_around (t : Int) : (occurrences clock d).Around t (clock.localtime t).year := by
  refine around_of_days clock ((findDayByOffset_monthly d.smday).oneEach.yearly hsmon)
    ((findDayByOffset_monthly d.emday).oneEach.yearly hemon) (fun _ _ hlt => firstDay_mono (by omega)) (fun year t => ?_) (fun year t => ?_)
    (year_of_day hclock t)
  · rw [dayNumber_monthNumber _ _ hsmon]
    exact hclock.first_le_iff hsmon
  · rw [dayNumber_monthNumber _ _ hemon]
    exact hclock.le_last_iff hemon

theorem startByDay_eq_iff {month a b : Int} (hm : 1 ≤ month ∧ month ≤ 12) :
    startByDay clock year month a = startByDay clock year month b ↔ findDayByOffset year month a = findDayByOffset year month b := by
  refine ⟨fun h => ?_, fun h => by rw [startByDay, startByDay, h]⟩
  have hnot : ∀ {x y : Int}, startByDay clock year month x = startByDay clock year month y →
      ¬ findDayByOffset year month x < findDayByOffset year month y := by
    intro x y heq hlt
    have hdays : daysFromCivil year month (findDayByOffset year month x) < daysFromCivil year month (findDayByOffset year month y) := by
      rw [daysFromCivil_eq hm, daysFromCivil_eq hm]
      omega
    exact absurd heq (hclock.first_lt_first hm hm hdays).ne
  exact le_antisymm (not_lt.mp (hnot h.symm)) (not_lt.mp (hnot h))

end

/-- A daterange as it is configured returns the occurrence that contains the
time, or else the next one, where it `FindsAt`, and only there. -/
theorem month_date_found_iff (hclock : clock.Lawful) (hs : d.syear = 0) (he : d.eyear = 0) (hsmon : 1 ≤ d.smon ∧ d.smon ≤ 12)
    (hemon : 1 ≤ d.emon ∧ d.emon ≤ 12) (ref : Int) :
    (∃ p, outcome (getStartAndEndTime clock ref d) = .ok p ∧ (occurrences clock d).Found ref p) ↔ FindsAt clock d ref := by
  have ho := occurrences_ordered hclock hsmon hemon
  have ha := occurrences_around hclock hsmon hemon ref
  unfold FindsAt
  by_cases hw : (occurrences clock d).Wraps (clock.localtime ref).year
  · rw [getStartAndEndTime_apply hclock hs he rfl, if_pos hw, if_pos hw]
    by_cases hlt : (occurrences clock d).last (clock.localtime ref).year < ref
    · have hle := ha.lasting (show (clock.localtime ref).year < (clock.localtime ref).year + 1 by omega)
      have hcurrent := Recurrence.found_current ho ha ((Recurrence.finish_wraps hw).symm ▸ hle)
      rw [Recurrence.finish_wraps hw] at hcurrent
      simp only [if_pos hlt, Except.ok.injEq, exists_eq_left', hcurrent, not_le.mpr hlt, and_false, not_false_eq_true, or_true,
        false_implies]
    · have hle := not_lt.mp hlt
      simp only [if_neg hlt, Except.ok.injEq, exists_eq_left', Recurrence.found_previous ho ha hw hle, hle, true_implies]
      exact and_congr_left' (startByDay_eq_iff hclock hsmon)
  · rw [getStartAndEndTime_apply hclock hs he rfl, if_neg hw, if_neg hw]
    simp only [Except.ok.injEq, exists_eq_left', Recurrence.found_within ho ha hw]

/-- From June 1 to August 31, on July 1, 2024. -/
theorem summer_found : ∃ p, outcome (getStartAndEndTime (.fixed 0) 1719810000 Daterange.summer) = .ok p ∧
    (occurrences (.fixed 0) Daterange.summer).Found 1719810000 p :=
  (month_date_found_iff (Clock.fixed_lawful 0) rfl rfl (by decide) (by decide) 1719810000).mpr (by decide)

def newYear : Daterange := ⟨0, 12, 20, 0, 0, 0, 1, 5, 0, 0⟩

/-- On January 3, 2024, the start that is returned is December 5. -/
theorem newYear_not_found : ¬ ∃ p, outcome (getStartAndEndTime (.fixed 0) 1704240000 newYear) = .ok p ∧
    (occurrences (.fixed 0) newYear).Found 1704240000 p := by
  rintro ⟨p, hp, hfound⟩
  have hclock := Clock.fixed_lawful 0
  have hsmon : 1 ≤ newYear.smon ∧ newYear.smon ≤ 12 := by decide
  have hemon : 1 ≤ newYear.emon ∧ newYear.emon ≤ 12 := by decide
  have hw : (occurrences (.fixed 0) newYear).Wraps ((Clock.fixed 0).localtime 1704240000).year := by decide
  rw [getStartAndEndTime_apply hclock rfl rfl rfl, if_pos hw, if_neg (by decide)] at hp
  cases hp
  have hprevious := (Recurrence.found_previous (occurrences_ordered hclock hsmon hemon) (occurrences_around hclock hsmon hemon _) hw
    (by decide)).mp hfound
  exact absurd hprevious.1 (by decide)

end MonthDateDaterange

end Alignak
