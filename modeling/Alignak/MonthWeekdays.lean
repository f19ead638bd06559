import Alignak.MonthDays

/-!
# The weekdays of a month

A column of the calendar has the days of one weekday in order, and at most one 0
before them and one behind.
-/

namespace Alignak

/-! ## The search in a column -/

def column (cal : List (List Int)) (weekday : Nat) : List Int := cal.map fun week => (week[weekday]?).getD 0

def searchColumn (offset : Int) : List Int → Nat → Int → Except Exn (Option Int)
  | _, 0, _ => .ok none
  | [], _ + 1, _ => .error .indexError
  | day :: days, turns + 1, nbFound =>
    if (if day ≠ 0 then nbFound + 1 else nbFound) = offset then .ok (some day)
    else searchColumn offset days turns (if day ≠ 0 then nbFound + 1 else nbFound)

theorem findWeek_column {cal : List (List Int)} {weekday : Nat} {offset : Int} (h : ∀ week ∈ cal, weekday < week.length) :
    ∀ (turns i : Nat) (nbFound : Int),
      findWeek cal weekday offset turns i nbFound = searchColumn offset ((column cal weekday).drop i) turns nbFound
  | 0, i, nbFound => by
    cases (column cal weekday).drop i <;> rfl
  | turns + 1, i, nbFound => by
    rw [findWeek]
    cases hw : cal[i]? with
    | none =>
      have hnil : (column cal weekday).drop i = [] := by
        rw [List.drop_eq_nil_iff, column, List.length_map]
        exact List.getElem?_eq_none_iff.mp hw
      rw [hnil]
      rfl
    | some week =>
      obtain ⟨hi, hweek⟩ := List.getElem?_eq_some_iff.mp hw
      have hday := List.getElem?_eq_getElem (h week (hweek ▸ List.getElem_mem hi))
      have hlength : i < (column cal weekday).length := by
        rw [column, List.length_map]
        exact hi
      have hcolumn : (column cal weekday)[i] = (week[weekday]?).getD 0 := by
        simp only [column, List.getElem_map, hweek]
      simp only [hday]
      rw [findWeek_column h turns (i + 1), List.drop_eq_getElem_cons hlength, hcolumn, hday]
      rfl

variable {m turns : Nat} {nbFound : Int}

section
variable {offset : Int} {zeros days : List Int}

theorem searchColumn_zero (h : nbFound ≠ offset) :
    searchColumn offset (0 :: days) (turns + 1) nbFound = searchColumn offset days turns nbFound := by
  have hzero : (if (0 : Int) ≠ 0 then nbFound + 1 else nbFound) = nbFound := if_neg fun h => h rfl
  rw [searchColumn, hzero, if_neg h]

theorem searchColumn_day {day : Int} (hd : day ≠ 0) (turns : Nat) (nbFound : Int) :
    searchColumn offset (day :: days) (turns + 1) nbFound =
      if nbFound + 1 = offset then .ok (some day) else searchColumn offset days turns (nbFound + 1) := by
  rw [searchColumn, if_pos hd]

theorem searchColumn_zeros (hz : ∀ x ∈ zeros, x = 0) (h : nbFound ≠ offset) :
    searchColumn offset zeros turns nbFound = if turns ≤ zeros.length then .ok none else .error .indexError := by
  induction zeros generalizing turns with
  | nil =>
    cases turns with
    | zero => rfl
    | succ turns => rfl
  | cons x zeros ih =>
    cases turns with
    | zero => rfl
    | succ turns =>
      rw [hz x List.mem_cons_self, searchColumn_zero h, ih fun y hy => hz y (List.mem_cons_of_mem _ hy)]
      simp

theorem searchColumn_days (hz : ∀ x ∈ zeros, x = 0) (hd : ∀ x ∈ days, x ≠ 0)
    (hm : nbFound + m = offset) (hpos : 1 ≤ m) (hturns : m ≤ turns) :
    searchColumn offset (days ++ zeros) turns nbFound =
      if m ≤ days.length then .ok days[m - 1]?
      else if turns ≤ (days ++ zeros).length then .ok none else .error .indexError := by
  induction days generalizing m turns nbFound with
  | nil =>
    rw [List.nil_append, searchColumn_zeros hz (by omega), if_neg (show ¬ m ≤ ([] : List Int).length by simp; omega)]
  | cons d days ih =>
    obtain ⟨turns, rfl⟩ : ∃ t, turns = t + 1 := ⟨turns - 1, by omega⟩
    rw [List.cons_append, searchColumn_day (hd d List.mem_cons_self)]
    by_cases h1 : m = 1
    · rw [if_pos (by omega), if_pos (by simp [h1])]
      subst h1
      rfl
    · obtain ⟨m, rfl⟩ : ∃ k, m = k + 2 := ⟨m - 2, by omega⟩
      have hrest : searchColumn offset (days ++ zeros) turns (nbFound + 1) =
          if m + 1 ≤ days.length then .ok days[m + 1 - 1]?
          else if turns ≤ (days ++ zeros).length then .ok none else .error .indexError :=
        ih (fun x hx => hd x (List.mem_cons_of_mem _ hx)) (by omega) (by omega) (by omega)
      rw [if_neg (by omega), hrest]
      simp

theorem searchColumn_column {front back : List Int} (hf : front.length ≤ 1) (hz : ∀ x ∈ front ++ back, x = 0)
    (hd : ∀ x ∈ days, x ≠ 0) (hpos : 1 ≤ m) : searchColumn m (front ++ (days ++ back)) (m + 1) 0 =
      if m ≤ days.length then .ok days[m - 1]?
      else if m < (front ++ (days ++ back)).length then .ok none else .error .indexError := by
  have hback : ∀ x ∈ back, x = 0 := fun x hx => hz x (List.mem_append_right _ hx)
  cases front with
  | nil => exact searchColumn_days hback hd (by omega) hpos (by omega)
  | cons x front =>
    have hnil : front = [] := List.length_eq_zero_iff.mp (by simpa using hf)
    rw [hnil, hz x List.mem_cons_self, List.singleton_append, searchColumn_zero (by omega),
      searchColumn_days hback hd (by omega) hpos (le_refl m)]
    simp only [List.length_cons, Nat.lt_succ_iff]

end

/-! ## The column of a weekday -/

section
variable {before days i : Nat}

def dayOf (before i w : Nat) : Int := ((w * 7 + i : Nat) : Int) - before + 1

def InMonth (before days i w : Nat) : Prop := before ≤ w * 7 + i ∧ w * 7 + i < before + days

instance decidableInMonth (w : Nat) : Decidable (InMonth before days i w) :=
  inferInstanceAs (Decidable (before ≤ w * 7 + i ∧ w * 7 + i < before + days))

theorem column_weeksOf (hi : i < 7) : column (weeksOf before days) i =
    (List.range ((before + days + 6) / 7)).map fun w => if InMonth before days i w then dayOf before i w else 0 := by
  unfold column weeksOf
  rw [List.map_map]
  refine List.map_congr_left fun w _ => ?_
  simp [hi, InMonth, dayOf]

theorem week_length : ∀ week ∈ weeksOf before days, week.length = 7 := by
  intro week hw
  obtain ⟨w, _, rfl⟩ := List.mem_map.mp hw
  simp

def daysOf (before days i : Nat) : List Int :=
  ((List.range days).filter fun d => (before + d) % 7 = i).map fun d : Nat => (d : Int) + 1

theorem dayOf_ne {w : Nat} (h : InMonth before days i w) : dayOf before i w ≠ 0 := by
  unfold dayOf
  have hle := h.1
  omega

theorem filter_column (hi : i < 7) : (column (weeksOf before days) i).filter (fun x => x ≠ 0) = daysOf before days i := by
  have hfilter : (column (weeksOf before days) i).filter (fun x => x ≠ 0) =
      ((List.range ((before + days + 6) / 7)).filter fun w => InMonth before days i w).map (dayOf before i) := by
    have hne : ∀ w, ((if InMonth before days i w then dayOf before i w else 0) ≠ 0) ↔ InMonth before days i w := by
      intro w
      by_cases h : InMonth before days i w
      · simp [h, dayOf_ne h]
      · simp [h]
    rw [column_weeksOf hi, List.filter_map]
    simp only [Function.comp_def, hne]
    refine List.map_congr_left fun w hw => ?_
    rw [if_pos (by simpa using (List.mem_filter.mp hw).2)]
  have hdays : ∀ a b : Nat, a < b → dayOf before i a < dayOf before i b := by
    intro a b hab
    unfold dayOf
    omega
  rw [hfilter]
  apply List.Pairwise.eq_of_mem_iff (r := (· < ·))
  · exact (List.pairwise_lt_range.filter _).map _ hdays
  · exact (List.pairwise_lt_range.filter _).map _ fun a b (hab : a < b) => by omega
  · intro x
    unfold daysOf
    simp only [List.mem_map, List.mem_filter, List.mem_range, decide_eq_true_eq]
    unfold InMonth dayOf
    constructor
    · rintro ⟨w, ⟨hw, hlow, hhigh⟩, rfl⟩
      exact ⟨w * 7 + i - before, ⟨by omega, by omega⟩, by omega⟩
    · rintro ⟨d, ⟨hd, hmod⟩, rfl⟩
      exact ⟨(before + d) / 7, ⟨by omega, by omega, by omega⟩, by omega⟩

theorem ends_filter {a b : Int} {middle : List Int} (h : ∀ x ∈ middle, x ≠ 0) :
    ∃ front back, front.length ≤ 1 ∧ back.length ≤ 1 ∧ (∀ x ∈ front ++ back, x = 0) ∧
      a :: (middle ++ [b]) = front ++ ((a :: (middle ++ [b])).filter (fun x => x ≠ 0) ++ back) := by
  have hmiddle : middle.filter (fun x => x ≠ 0) = middle := List.filter_eq_self.mpr fun x hx => by simpa using h x hx
  refine ⟨if a = 0 then [0] else [], if b = 0 then [0] else [], ?_, ?_, ?_, ?_⟩
  · split <;> simp
  · split <;> simp
  · intro x hx
    rcases List.mem_append.mp hx with hx | hx
    · split at hx <;> simp_all
    · split at hx <;> simp_all
  · rw [List.filter_cons, List.filter_append, hmiddle]
    by_cases ha : a = 0
    · by_cases hb : b = 0 <;> simp [ha, hb]
    · by_cases hb : b = 0 <;> simp [ha, hb]

theorem column_parts (hi : i < 7) (hb : before < 7) (hd : 28 ≤ days) :
    ∃ front back, front.length ≤ 1 ∧ back.length ≤ 1 ∧ (∀ x ∈ front ++ back, x = 0) ∧
      column (weeksOf before days) i = front ++ (daysOf before days i ++ back) := by
  obtain ⟨m, hm⟩ : ∃ m, (before + days + 6) / 7 = m + 2 := ⟨(before + days + 6) / 7 - 2, by omega⟩
  have hweeks : column (weeksOf before days) i = (if InMonth before days i 0 then dayOf before i 0 else 0) ::
      (((List.range m).map fun w => if InMonth before days i (w + 1) then dayOf before i (w + 1) else 0) ++
        [if InMonth before days i (m + 1) then dayOf before i (m + 1) else 0]) := by
    rw [column_weeksOf hi, hm, List.range_succ, List.map_append, List.range_succ_eq_map]
    simp [Function.comp_def]
  have hmiddle : ∀ x ∈ (List.range m).map fun w => if InMonth before days i (w + 1) then dayOf before i (w + 1) else 0,
      x ≠ 0 := by
    intro x hx
    obtain ⟨w, hw, rfl⟩ := List.mem_map.mp hx
    have hlt := List.mem_range.mp hw
    have hin : InMonth before days i (w + 1) := by
      unfold InMonth
      omega
    rw [if_pos hin]
    exact dayOf_ne hin
  obtain ⟨front, back, hf, hk, hz, heq⟩ := ends_filter hmiddle
  rw [← hweeks, filter_column hi] at heq
  exact ⟨front, back, hf, hk, hz, heq⟩

theorem daysOf_ne : ∀ x ∈ daysOf before days i, x ≠ 0 := by
  intro x hx
  obtain ⟨d, _, rfl⟩ := List.mem_map.mp hx
  omega

theorem findWeek_parts {cal : List (List Int)} (hlength : ∀ week ∈ cal, i < week.length) {front ds back : List Int}
    (hf : front.length ≤ 1) (hz : ∀ x ∈ front ++ back, x = 0) (hd : ∀ x ∈ ds, x ≠ 0)
    (hcolumn : column cal i = front ++ (ds ++ back)) (hpos : 1 ≤ m) :
    findWeek cal i m (m + 1) 0 0 =
      if m ≤ ds.length then .ok ds[m - 1]? else if m < cal.length then .ok none else .error .indexError := by
  have hcal : (front ++ (ds ++ back)).length = cal.length := by
    rw [← hcolumn, column, List.length_map]
  rw [findWeek_column hlength, List.drop_zero, hcolumn, searchColumn_column hf hz hd hpos, hcal]

theorem dayInWeeks_eq (hi : i < 7) (hb : before < 7) (hd : 28 ≤ days) {offset : Int} (h0 : offset ≠ 0) :
    dayInWeeks (weeksOf before days) i offset =
      if offset.natAbs ≤ (daysOf before days i).length then
        .ok (if offset < 0 then (daysOf before days i).reverse else daysOf before days i)[offset.natAbs - 1]?
      else if offset.natAbs < (weeksOf before days).length then .ok none else .error .indexError := by
  obtain ⟨front, back, hf, hk, hz, hcolumn⟩ := column_parts hi hb hd
  have hpos : 1 ≤ offset.natAbs := Int.natAbs_pos.mpr h0
  have hlength : ∀ week ∈ weeksOf before days, i < week.length := fun week hw => by
    rw [week_length week hw]
    exact hi
  unfold dayInWeeks
  by_cases hneg : offset < 0
  · have hreverse : column (weeksOf before days).reverse i =
        back.reverse ++ ((daysOf before days i).reverse ++ front.reverse) := by
      have hmap : column (weeksOf before days).reverse i = (column (weeksOf before days) i).reverse := List.map_reverse
      rw [hmap, hcolumn]
      simp
    have hzeros : ∀ x ∈ back.reverse ++ front.reverse, x = 0 := fun x hx => hz x (by simpa [or_comm] using hx)
    rw [if_pos hneg, if_pos hneg, findWeek_parts (fun week hw => hlength week (List.mem_reverse.mp hw)) (by simpa using hk)
      hzeros (fun x hx => daysOf_ne x (List.mem_reverse.mp hx)) hreverse hpos, List.length_reverse, List.length_reverse]
  · rw [if_neg hneg, if_neg hneg, findWeek_parts hlength hf hz daysOf_ne hcolumn hpos]

end

/-! ## The weekdays by the calendar -/

def weekdaysOf (year month weekday : Int) : List Int :=
  ((List.range (daysInMonth year month).toNat).map fun d : Nat => (d : Int) + 1).filter fun day =>
    Alignak.weekday year month day = weekday

def nthWeekday (year month weekday k : Int) : Option Int :=
  (if k < 0 then (weekdaysOf year month weekday).reverse else weekdaysOf year month weekday)[k.natAbs - 1]?

theorem daysOf_eq {year month weekday : Int} (hw : 0 ≤ weekday ∧ weekday ≤ 6) :
    daysOf (Alignak.weekday year month 1).toNat (daysInMonth year month).toNat weekday.toNat =
      weekdaysOf year month weekday := by
  have hstart : Alignak.weekday year month 1 = (daysFromCivil year month 1 + 3) % 7 := rfl
  unfold daysOf weekdaysOf
  rw [List.filter_map]
  refine congrArg _ (List.filter_congr fun d _ => ?_)
  have hday : Alignak.weekday year month ((d : Int) + 1) = (daysFromCivil year month 1 + d + 3) % 7 := by
    rw [Alignak.weekday, Int.add_comm (d : Int) 1, daysFromCivil_add]
  rw [Function.comp_apply, hday, decide_eq_decide]
  omega

section
variable {year month weekday offset : Int}

theorem nthWeekday_none (h : ¬ offset.natAbs ≤ (weekdaysOf year month weekday).length) :
    nthWeekday year month weekday offset = none := by
  unfold nthWeekday
  rw [List.getElem?_eq_none_iff]
  split
  · rw [List.length_reverse]
    omega
  · omega

variable (hm : 1 ≤ month ∧ month ≤ 12) (hw : 0 ≤ weekday ∧ weekday ≤ 6) (h0 : offset ≠ 0)
include hm hw h0

theorem findDayByWeekdayOffset_cases : findDayByWeekdayOffset year month weekday offset =
    if offset.natAbs ≤ (weekdaysOf year month weekday).length ∨ offset.natAbs < (monthcalendar year month).length then
      .ok (nthWeekday year month weekday offset)
    else .error .indexError := by
  have hdays := daysInMonth_bounds year hm
  have hbefore : 0 ≤ Alignak.weekday year month 1 ∧ Alignak.weekday year month 1 < 7 := by
    unfold Alignak.weekday
    omega
  have hcal : weeksOf (Alignak.weekday year month 1).toNat (daysInMonth year month).toNat = monthcalendar year month := rfl
  rw [findDayByWeekdayOffset_eq, dayInWeeks_eq (by omega) (by omega) (by omega) h0, daysOf_eq hw, hcal]
  by_cases hle : offset.natAbs ≤ (weekdaysOf year month weekday).length
  · have hor : offset.natAbs ≤ (weekdaysOf year month weekday).length ∨ offset.natAbs < (monthcalendar year month).length :=
      .inl hle
    rw [if_pos hle, if_pos hor]
    rfl
  · rw [if_neg hle, nthWeekday_none hle]
    simp only [hle, false_or]

/-- The search finds the day, or none, as long as there are enough such days, or
the month goes over more weeks than the offset. -/
theorem weekday_offset_iff :
    findDayByWeekdayOffset year month weekday offset = .ok (nthWeekday year month weekday offset) ↔
      offset.natAbs ≤ (weekdaysOf year month weekday).length ∨ offset.natAbs < (monthcalendar year month).length := by
  rw [findDayByWeekdayOffset_cases hm hw h0]
  constructor
  · intro h
    by_contra hnot
    rw [if_neg hnot] at h
    cases h
  · exact fun h => if_pos h

end

/-- The first Monday of July 2010. -/
theorem july_monday : findDayByWeekdayOffset 2010 7 0 1 = .ok (nthWeekday 2010 7 0 1) :=
  (weekday_offset_iff (by decide) (by decide) (by decide)).mpr (.inl (by decide))

/-- July 2010 has four Mondays in five weeks, and there is no fifth week behind. -/
theorem july_fifth_monday : findDayByWeekdayOffset 2010 7 0 5 = .error .indexError ∧ nthWeekday 2010 7 0 5 = none ∧
    ¬ findDayByWeekdayOffset 2010 7 0 5 = .ok (nthWeekday 2010 7 0 5) := by
  have hraises : findDayByWeekdayOffset 2010 7 0 5 = .error .indexError := by rfl
  refine ⟨hraises, by decide, ?_⟩
  rw [hraises]
  exact fun h => nomatch h

end Alignak
