import Alignak.EntryMatches

/-!
# Resolving the lines

Each line of the grammar is resolved to the daterange that it writes.
-/

namespace Alignak

open EntryPattern Pattern

/-! ## Forms -/

section
variable {form : EntryForm} {forms : List EntryForm} {entry : List Char} {xs : List (List Char)} {d : DaterangeObject}

theorem firstForm_skip (h : form.pattern.search entry = none) : firstForm (form :: forms) entry = firstForm forms entry := by
  rw [firstForm, h]

theorem firstForm_found (h : form.pattern.atStart entry = some xs) (hm : form.make (form.pattern.groups xs) = .ok (some d)) :
    firstForm (form :: forms) entry = .ok (some d) := by
  rw [firstForm, search_of_atStart h]
  simp only [hm]

end

/-! ## Names -/

theorem weekdays_lookup : (Daterange.weekdays.all fun p => Daterange.weekdays.lookup p.1 == some p.2) = true := by decide

theorem months_lookup :
    (Daterange.months.all fun p => Daterange.months.lookup p.1 == some p.2 && (Daterange.weekdays.lookup p.1).isNone) = true := by decide

theorem Weekday.weekdayId (w : Weekday) : Daterange.weekdayId w.name.toList = some w.id := by
  have hw := List.all_eq_true.mp weekdays_lookup _ w.mem
  rw [beq_iff_eq] at hw
  rw [Daterange.weekdayId, String.ofList_toList]
  exact hw

theorem Month.monthId (m : Month) : Daterange.monthId m.name.toList = some m.id ∧ Daterange.weekdayId m.name.toList = none := by
  have hm := List.all_eq_true.mp months_lookup _ m.mem
  simp only [Bool.and_eq_true, beq_iff_eq, Option.isNone_iff_eq_none] at hm
  rw [Daterange.monthId, Daterange.weekdayId, String.ofList_toList]
  exact hm

theorem Numeral.toInt (n : Numeral) : (FieldValue.text n.digits).toInt = .ok n.value := n.readInt

/-! ## What the forms make -/

section
variable {skip : FieldValue} {k : Int} (hk : skip.toInt = .ok k) (other : WrittenRanges)
include hk

theorem calendar_make (start stop : WrittenDate) :
    CalendarDaterange.make start.year.digits start.month.digits start.day.digits stop.year.digits stop.month.digits stop.day.digits
      skip other.text = .ok (some (.dated (some .calendar) (RangeForm.dates start stop).fields k (String.ofList other.text)
        other.timeranges)) := by
  simp only [CalendarDaterange.make, DaterangeData.build, FieldValue.toInt_num, FieldValue.toInt_text, Numeral.readInt, hk, other.ofEntries]
  rfl

theorem monthWeekDay_make (start stop : MonthWeekDay) :
    MonthWeekDayDaterange.make start.weekday.name.toList start.number.text start.month.name.toList
      stop.weekday.name.toList stop.number.text stop.month.name.toList skip other.text =
      .ok (some (.dated (some .monthWeekDay) (RangeForm.monthWeekDays start stop).fields k (String.ofList other.text)
        other.timeranges)) := by
  simp only [MonthWeekDayDaterange.make, Weekday.weekdayId, (Month.monthId _).1, known, DaterangeData.build, FieldValue.toInt_num, FieldValue.toInt_text,
    DayNumber.readInt, hk, other.ofEntries]
  rfl

theorem betweenDays_make (names : DayNames) (first last : DayNumber) :
    betweenDays names.start first.text names.stop last.text skip other.text =
      .ok (some (.dated (some names.cls) (names.fields first.value last.value) k (String.ofList other.text) other.timeranges)) := by
  cases names with
  | weekdays w w' =>
    simp only [betweenDays, DayNames.start, DayNames.stop, Weekday.weekdayId, DaterangeData.build, FieldValue.toInt_num, FieldValue.toInt_text,
      DayNumber.readInt, hk, other.ofEntries]
    rfl
  | months m m' =>
    simp only [betweenDays, DayNames.start, DayNames.stop, (Month.monthId _).1, (Month.monthId _).2, DaterangeData.build,
      FieldValue.toInt_num, FieldValue.toInt_text, DayNumber.readInt, hk, other.ofEntries]
    rfl
  | days =>
    have hday : Daterange.weekdayId "day".toList = none ∧ Daterange.monthId "day".toList = none := by decide
    simp only [betweenDays, DayNames.start, DayNames.stop, hday.1, hday.2, DaterangeData.build, FieldValue.toInt_num, FieldValue.toInt_text, and_self, if_true,
      DayNumber.readInt, hk, other.ofEntries]
    rfl

end

/-! ## Lines -/

namespace DaterangeLine

variable (blanks : Nat) (other : WrittenRanges)

theorem firstForm_undated {entry : List Char} (h : yearFree 0 entry = true) :
    firstForm entryForms entry = firstForm (entryForms.drop 4) entry := by
  have h1 : EntryForm.datesSkip.pattern.search entry = none := search_date_none _ h
  have h2 : EntryForm.dateSkip.pattern.search entry = none := search_date_none _ h
  have h3 : EntryForm.dates.pattern.search entry = none := search_date_none _ h
  have h4 : EntryForm.date.pattern.search entry = none := search_date_none _ h
  rw [entryForms, firstForm_skip h1, firstForm_skip h2, firstForm_skip h3, firstForm_skip h4]
  rfl

def hasShapes (line : DaterangeLine) (shapes : List TextShape) : Bool :=
  runsIn (shapes.map TextShape.takes) (line.kinds.tail ++ List.replicate shapes.length .quiet)

section
variable (line : DaterangeLine)

theorem firstForm_noDateInterval (h1 : line.hasShapes [.dash, .date, .slash] = false) (h2 : line.hasShapes [.slash] = false) :
    firstForm entryForms line.text = firstForm (entryForms.drop 2) line.text := by
  have h1' : EntryForm.datesSkip.pattern.search line.text = none := line.search_none _ EntryPattern.date _ (TextShape.noSpace .date) h1
  have h2' : EntryForm.dateSkip.pattern.search line.text = none := line.search_none _ EntryPattern.date _ (TextShape.noSpace .date) h2
  exact (firstForm_skip h1').trans (firstForm_skip h2')

theorem firstForm_noInterval (h5 : line.hasShapes [.offset, .word, .dash, .word, .offset, .word, .slash] = false)
    (h6 : line.hasShapes [.offset, .dash, .word, .offset, .slash] = false) (h7 : line.hasShapes [.offset, .dash, .offset, .slash] = false) :
    firstForm (entryForms.drop 4) line.text = firstForm (entryForms.drop 7) line.text := by
  have h5' : EntryForm.monthWeekDaysSkip.pattern.search line.text = none := line.search_none _ [word] _ (TextShape.noSpace .word) h5
  have h6' : EntryForm.betweenSkip.pattern.search line.text = none := line.search_none _ [word] _ (TextShape.noSpace .word) h6
  have h7' : EntryForm.withinSkip.pattern.search line.text = none := line.search_none _ [word] _ (TextShape.noSpace .word) h7
  exact (firstForm_skip h5').trans ((firstForm_skip h6').trans (firstForm_skip h7'))

theorem firstForm_noRange (h8 : line.hasShapes [.offset, .word, .dash, .word, .offset, .word] = false)
    (h9 : line.hasShapes [.offset, .dash] = false) (h10 : line.hasShapes [.offset, .dash, .word] = false) :
    firstForm (entryForms.drop 7) line.text = firstForm (entryForms.drop 10) line.text := by
  have h8' : EntryForm.monthWeekDays.pattern.search line.text = none := line.search_none _ [word] _ (TextShape.noSpace .word) h8
  have h9' : EntryForm.within.pattern.search line.text = none := line.search_none _ [word] _ (TextShape.noSpace .word) h9
  have h10' : EntryForm.between.pattern.search line.text = none := line.search_none _ [word] _ (TextShape.noSpace .word) h10
  exact (firstForm_skip h8').trans ((firstForm_skip h9').trans (firstForm_skip h10'))

end

/-! ### Dates -/

section
variable (start stop day : WrittenDate) (k : Numeral)

theorem dates_skip : firstForm entryForms (range (.dates start stop) (some k) blanks other).text =
    .ok (some (range (.dates start stop) (some k) blanks other).object) := by
  have hfound : EntryForm.datesSkip.pattern.atStart (range (.dates start stop) (some k) blanks other).text =
      some [start.year.digits, ['-'], start.month.digits, ['-'], start.day.digits, [' '], ['-'], [' '],
        stop.year.digits, ['-'], stop.month.digits, ['-'], stop.day.digits, [' '], ['/'], [' '], k.digits,
        List.replicate (blanks + 1) ' ', other.text] := by
    apply atStart_spacedDate
    apply atStart_spaced rfl takes_dash
    apply atStart_spacedDate
    apply atStart_spaced rfl takes_slash
    exact atStart_rest blanks other rfl (takes_interval k)
  exact firstForm_found hfound (calendar_make k.toInt other start stop)

theorem date_skip : firstForm entryForms (range (.date day) (some k) blanks other).text =
    .ok (some (range (.date day) (some k) blanks other).object) := by
  have h1 : EntryForm.datesSkip.pattern.search (range (.date day) (some k) blanks other).text = none :=
    search_none _ [.dash, .date, .slash] EntryPattern.date _ (TextShape.noSpace .date) rfl
  have hfound : EntryForm.dateSkip.pattern.atStart (range (.date day) (some k) blanks other).text =
      some [day.year.digits, ['-'], day.month.digits, ['-'], day.day.digits, [' '], ['/'], [' '], k.digits,
        List.replicate (blanks + 1) ' ', other.text] := by
    apply atStart_spacedDate
    apply atStart_spaced rfl takes_slash
    exact atStart_rest blanks other rfl (takes_interval k)
  exact (firstForm_skip h1).trans (firstForm_found hfound (calendar_make k.toInt other day day))

theorem dates_plain : firstForm entryForms (range (.dates start stop) none blanks other).text =
    .ok (some (range (.dates start stop) none blanks other).object) := by
  rw [firstForm_noDateInterval _ rfl rfl]
  have hfound : EntryForm.dates.pattern.atStart (range (.dates start stop) none blanks other).text =
      some [start.year.digits, ['-'], start.month.digits, ['-'], start.day.digits, [' '], ['-'], [' '],
        stop.year.digits, ['-'], stop.month.digits, ['-'], stop.day.digits, List.replicate (blanks + 1) ' ', other.text] := by
    apply atStart_spacedDate
    apply atStart_spaced rfl takes_dash
    apply atStart_date
    exact atStart_blanks (blanks + 1) other (Nat.zero_le _)
  exact firstForm_found hfound (calendar_make (FieldValue.toInt_num 0) other start stop)

theorem date_plain : firstForm entryForms (range (.date day) none blanks other).text =
    .ok (some (range (.date day) none blanks other).object) := by
  rw [firstForm_noDateInterval _ rfl rfl]
  have h3 : EntryForm.dates.pattern.search (range (.date day) none blanks other).text = none :=
    search_none _ [.dash] EntryPattern.date _ (TextShape.noSpace .date) rfl
  have hfound : EntryForm.date.pattern.atStart (range (.date day) none blanks other).text =
      some [day.year.digits, ['-'], day.month.digits, ['-'], day.day.digits, List.replicate (blanks + 1) ' ', other.text] := by
    apply atStart_date
    exact atStart_blanks (blanks + 1) other (Nat.zero_le _)
  exact (firstForm_skip h3).trans (firstForm_found hfound (calendar_make (FieldValue.toInt_num 0) other day day))

end

/-! ### Weekdays of months -/

section
variable (start stop : MonthWeekDay) (k : Numeral)

theorem monthWeekDays_skip : firstForm entryForms (range (.monthWeekDays start stop) (some k) blanks other).text =
    .ok (some (range (.monthWeekDays start stop) (some k) blanks other).object) := by
  rw [firstForm_undated (range_yearFree rfl)]
  have hfound : EntryForm.monthWeekDaysSkip.pattern.atStart (range (.monthWeekDays start stop) (some k) blanks other).text =
      some [start.weekday.name.toList, [' '], start.number.text, [' '], start.month.name.toList, [' '], ['-'], [' '],
        stop.weekday.name.toList, [' '], stop.number.text, [' '], stop.month.name.toList, [' '], ['/'], [' '], k.digits,
        List.replicate (blanks + 1) ' ', other.text] := by
    apply atStart_spaced rfl (takes_word (start.weekday.isWord weekdays_words))
    apply atStart_spaced rfl (takes_offset start.number.isNumber)
    apply atStart_spaced rfl (takes_word (start.month.isWord months_words))
    apply atStart_spaced rfl takes_dash
    apply atStart_spaced rfl (takes_word (stop.weekday.isWord weekdays_words))
    apply atStart_spaced rfl (takes_offset stop.number.isNumber)
    apply atStart_spaced rfl (takes_word (stop.month.isWord months_words))
    apply atStart_spaced rfl takes_slash
    exact atStart_rest blanks other rfl (takes_interval k)
  exact firstForm_found hfound (monthWeekDay_make k.toInt other start stop)

theorem monthWeekDays_plain : firstForm entryForms (range (.monthWeekDays start stop) none blanks other).text =
    .ok (some (range (.monthWeekDays start stop) none blanks other).object) := by
  rw [firstForm_undated (range_yearFree rfl), firstForm_noInterval _ rfl rfl rfl]
  have hfound : EntryForm.monthWeekDays.pattern.atStart (range (.monthWeekDays start stop) none blanks other).text =
      some [start.weekday.name.toList, [' '], start.number.text, [' '], start.month.name.toList, [' '], ['-'], [' '],
        stop.weekday.name.toList, [' '], stop.number.text, [' '], stop.month.name.toList, [' '],
        List.replicate blanks ' ', other.text] := by
    apply atStart_spaced rfl (takes_word (start.weekday.isWord weekdays_words))
    apply atStart_spaced rfl (takes_offset start.number.isNumber)
    apply atStart_spaced rfl (takes_word (start.month.isWord months_words))
    apply atStart_spaced rfl takes_dash
    apply atStart_spaced rfl (takes_word (stop.weekday.isWord weekdays_words))
    apply atStart_spaced rfl (takes_offset stop.number.isNumber)
    apply atStart_spaced rfl (takes_word (stop.month.isWord months_words))
    exact atStart_blanks blanks other (Nat.zero_le _)
  exact firstForm_found hfound (monthWeekDay_make (FieldValue.toInt_num 0) other start stop)

end

/-! ### Ranges of days -/

section
variable (names : DayNames) (name : DayName) (first last : DayNumber) (k : Numeral)

theorem between_skip : firstForm entryForms (range (.between names first last) (some k) blanks other).text =
    .ok (some (range (.between names first last) (some k) blanks other).object) := by
  rw [firstForm_undated (range_yearFree rfl)]
  have h5 : EntryForm.monthWeekDaysSkip.pattern.search (range (.between names first last) (some k) blanks other).text = none :=
    search_none _ [.offset, .word, .dash, .word, .offset, .word, .slash] [word] _ (TextShape.noSpace .word) rfl
  have hfound : EntryForm.betweenSkip.pattern.atStart (range (.between names first last) (some k) blanks other).text =
      some [names.start, [' '], first.text, [' '], ['-'], [' '], names.stop, [' '], last.text, [' '], ['/'], [' '], k.digits,
        List.replicate (blanks + 1) ' ', other.text] := by
    apply atStart_spaced rfl (takes_word names.start_isWord)
    apply atStart_spaced rfl (takes_offset first.isNumber)
    apply atStart_spaced rfl takes_dash
    apply atStart_spaced rfl (takes_word names.stop_isWord)
    apply atStart_spaced rfl (takes_offset last.isNumber)
    apply atStart_spaced rfl takes_slash
    exact atStart_rest blanks other rfl (takes_interval k)
  exact (firstForm_skip h5).trans (firstForm_found hfound (betweenDays_make k.toInt other names first last))

def beginsNumber (x : List Char) : Bool := x.head?.any isOffset

theorem beginsNumber_rest {zs : List (List Char)} (rest : List Char) (h : Fits [offset, EntryPattern.blanks, hours] zs) :
    startsWith [beginsNumber] ((zs.flatten ++ rest).splitOn ' ') = true := by
  obtain ⟨x, ys, hx, -, rfl⟩ := List.forall₂_cons_left_iff.mp h
  obtain ⟨c, x', rfl⟩ := List.exists_cons_of_length_pos (show 0 < x.length from hx.least)
  have hc : isOffset c = true := hx.mem c List.mem_cons_self
  have hspace : (c == ' ') = false := by
    rw [beq_eq_false_iff_ne]
    rintro rfl
    cases hc
  rw [List.flatten_cons, List.cons_append, List.cons_append, List.splitOn_cons_eq_if_modifyHead, hspace]
  cases hrest : (x' ++ ys.flatten ++ rest).splitOn ' ' with
  | nil => exact absurd hrest (List.splitOn_ne_nil _ _)
  | cons y ys => simp [startsWith, beginsNumber, hc]

theorem beginsNumber_kind {kind : TextKind} {x : List Char} (hk : IsOfKind kind x) (h : beginsNumber x = true) :
    (kind != .word) = true := by
  cases kind with
  | word =>
    obtain ⟨c, x', rfl⟩ := List.exists_cons_of_ne_nil hk.1
    have hc : isOffset c = true := h
    rw [not_offset_of_lower (hk.2 c List.mem_cons_self)] at hc
    cases hc
  | _ => rfl

theorem within_none : EntryForm.within.pattern.search (range (.between names first last) none blanks other).text = none := by
  by_contra hfound
  have hns := noSpace_shapes (t := [word]) (TextShape.noSpace .word) [.offset, .dash]
  have hruns := runsIn_of_search hns (fun _ rest hzs => beginsNumber_rest rest hzs) hfound
  have himplied : Implied IsOfKind (([TextShape.offset, TextShape.dash].map TextShape.pattern).map accepts ++ [beginsNumber])
      ([TextShape.offset.takes, TextShape.dash.takes] ++ [fun kind => kind != .word]) :=
    List.rel_append (implied_shapes [.offset, .dash]) (.cons beginsNumber_kind .nil)
  have hkinds := runsIn_implied himplied (tail_kinds (range (.between names first last) none blanks other)) hruns
  have hpad := runsIn_pad (n := 3) (le_refl _) hkinds
  cases hpad

theorem between_plain : firstForm entryForms (range (.between names first last) none blanks other).text =
    .ok (some (range (.between names first last) none blanks other).object) := by
  rw [firstForm_undated (range_yearFree rfl), firstForm_noInterval _ rfl rfl rfl]
  have h8 : EntryForm.monthWeekDays.pattern.search (range (.between names first last) none blanks other).text = none :=
    search_none _ [.offset, .word, .dash, .word, .offset, .word] [word] _ (TextShape.noSpace .word) rfl
  have h9 := within_none blanks other names first last
  have hfound : EntryForm.between.pattern.atStart (range (.between names first last) none blanks other).text =
      some [names.start, [' '], first.text, [' '], ['-'], [' '], names.stop, [' '], last.text,
        List.replicate (blanks + 1) ' ', other.text] := by
    apply atStart_spaced rfl (takes_word names.start_isWord)
    apply atStart_spaced rfl (takes_offset first.isNumber)
    apply atStart_spaced rfl takes_dash
    apply atStart_spaced rfl (takes_word names.stop_isWord)
    exact atStart_rest blanks other rfl (takes_offset last.isNumber)
  exact (firstForm_skip h8).trans ((firstForm_skip h9).trans
    (firstForm_found hfound (betweenDays_make (FieldValue.toInt_num 0) other names first last)))

theorem both_stop : name.both.stop = name.both.start := by cases name <;> rfl

theorem within_make {skip : FieldValue} {i : Int} (hi : skip.toInt = .ok i) :
    betweenDays name.both.start first.text name.both.start last.text skip other.text = .ok (some (.dated (some name.both.cls)
      (name.both.fields first.value last.value) i (String.ofList other.text) other.timeranges)) := by
  have hmake := betweenDays_make hi other name.both first last
  rw [both_stop] at hmake
  exact hmake

theorem within_skip : firstForm entryForms (range (.within name first last) (some k) blanks other).text =
    .ok (some (range (.within name first last) (some k) blanks other).object) := by
  rw [firstForm_undated (range_yearFree rfl)]
  have h5 : EntryForm.monthWeekDaysSkip.pattern.search (range (.within name first last) (some k) blanks other).text = none :=
    search_none _ [.offset, .word, .dash, .word, .offset, .word, .slash] [word] _ (TextShape.noSpace .word) rfl
  have h6 : EntryForm.betweenSkip.pattern.search (range (.within name first last) (some k) blanks other).text = none :=
    search_none _ [.offset, .dash, .word, .offset, .slash] [word] _ (TextShape.noSpace .word) rfl
  have hfound : EntryForm.withinSkip.pattern.atStart (range (.within name first last) (some k) blanks other).text =
      some [name.both.start, [' '], first.text, [' '], ['-'], [' '], last.text, [' '], ['/'], [' '], k.digits,
        List.replicate (blanks + 1) ' ', other.text] := by
    apply atStart_spaced rfl (takes_word name.both.start_isWord)
    apply atStart_spaced rfl (takes_offset first.isNumber)
    apply atStart_spaced rfl takes_dash
    apply atStart_spaced rfl (takes_offset last.isNumber)
    apply atStart_spaced rfl takes_slash
    exact atStart_rest blanks other rfl (takes_interval k)
  exact (firstForm_skip h5).trans ((firstForm_skip h6).trans
    (firstForm_found hfound (within_make other name first last k.toInt)))

theorem within_plain : firstForm entryForms (range (.within name first last) none blanks other).text =
    .ok (some (range (.within name first last) none blanks other).object) := by
  rw [firstForm_undated (range_yearFree rfl), firstForm_noInterval _ rfl rfl rfl]
  have h8 : EntryForm.monthWeekDays.pattern.search (range (.within name first last) none blanks other).text = none :=
    search_none _ [.offset, .word, .dash, .word, .offset, .word] [word] _ (TextShape.noSpace .word) rfl
  have hfound : EntryForm.within.pattern.atStart (range (.within name first last) none blanks other).text =
      some [name.both.start, [' '], first.text, [' '], ['-'], [' '], last.text, List.replicate (blanks + 1) ' ', other.text] := by
    apply atStart_spaced rfl (takes_word name.both.start_isWord)
    apply atStart_spaced rfl (takes_offset first.isNumber)
    apply atStart_spaced rfl takes_dash
    exact atStart_rest blanks other rfl (takes_offset last.isNumber)
  exact (firstForm_skip h8).trans (firstForm_found hfound (within_make other name first last (FieldValue.toInt_num 0)))

end

/-! ### Single days -/

section
variable (day : MonthWeekDay) (name : DayName) (number : DayNumber) (w : Weekday)

theorem single_monthWeekDay : firstForm entryForms (single (.monthWeekDay day) blanks other).text =
    .ok (some (single (.monthWeekDay day) blanks other).object) := by
  rw [firstForm_undated (single_yearFree _ _ _), firstForm_noInterval _ rfl rfl rfl, firstForm_noRange _ rfl rfl rfl]
  have hfound : EntryForm.single.pattern.atStart (single (.monthWeekDay day) blanks other).text =
      some [day.weekday.name.toList, [' '], day.number.text, [' '], day.month.name.toList, List.replicate (blanks + 1) ' ',
        other.text] := by
    apply atStart_spaced rfl (takes_word (day.weekday.isWord weekdays_words))
    apply atStart_spaced rfl (takes_offset day.number.isNumber)
    exact atStart_rest blanks other rfl (takes_word (day.month.isWord months_words))
  apply firstForm_found hfound
  have hknown : (Daterange.weekdayId day.weekday.name.toList).isSome ∧ (Daterange.monthId day.month.name.toList).isSome := by
    rw [Weekday.weekdayId, (Month.monthId _).1]
    exact ⟨rfl, rfl⟩
  exact (if_pos hknown).trans (monthWeekDay_make (FieldValue.toInt_num 0) other day day)

theorem single_day : firstForm entryForms (single (.day name number) blanks other).text =
    .ok (some (single (.day name number) blanks other).object) := by
  rw [firstForm_undated (single_yearFree _ _ _), firstForm_noInterval _ rfl rfl rfl, firstForm_noRange _ rfl rfl rfl]
  have hfound : EntryForm.single.pattern.atStart (single (.day name number) blanks other).text =
      some [name.both.start, [' '], number.text, [' '], [], List.replicate blanks ' ', other.text] := by
    apply atStart_spaced rfl (takes_word name.both.start_isWord)
    apply atStart_spaced rfl (takes_offset number.isNumber)
    exact atStart_noWord blanks other
  apply firstForm_found hfound
  have hmonth : ¬ ((Daterange.weekdayId name.both.start).isSome ∧ (Daterange.monthId []).isSome) := fun h => absurd h.2 (by decide)
  exact (if_neg hmonth).trans ((if_pos rfl).trans (within_make other name number number (FieldValue.toInt_num 0)))

theorem single_weekday : firstForm entryForms (single (.weekday w) blanks other).text =
    .ok (some (single (.weekday w) blanks other).object) := by
  rw [firstForm_undated (single_yearFree _ _ _), firstForm_noInterval _ rfl rfl rfl, firstForm_noRange _ rfl rfl rfl]
  have h11 : EntryForm.single.pattern.search (single (.weekday w) blanks other).text = none :=
    search_none _ [.offset] [word] _ (TextShape.noSpace .word) rfl
  have hfound : EntryForm.standard.pattern.atStart (single (.weekday w) blanks other).text =
      some [w.name.toList, List.replicate (blanks + 1) ' ', other.text] := by
    apply atStart_cons (takes_word (w.isWord weekdays_words))
    · right
      intro c hc
      cases hc
      rfl
    · exact atStart_blanks (blanks + 1) other (Nat.succ_pos _)
  refine (firstForm_skip h11).trans (firstForm_found hfound ?_)
  have hknown : (Daterange.weekdayId w.name.toList).isSome = true := by
    rw [Weekday.weekdayId]
    rfl
  refine (if_pos hknown).trans ?_
  rw [String.ofList_toList, other.ofEntries]
  rfl

end

theorem firstForm_text (line : DaterangeLine) : firstForm entryForms line.text = .ok (some line.object) := by
  cases line with
  | range form skip blanks other =>
    cases skip with
    | none =>
      cases form with
      | dates start stop => exact dates_plain blanks other start stop
      | date day => exact date_plain blanks other day
      | monthWeekDays start stop => exact monthWeekDays_plain blanks other start stop
      | between names first last => exact between_plain blanks other names first last
      | within name first last => exact within_plain blanks other name first last
    | some k =>
      cases form with
      | dates start stop => exact dates_skip blanks other start stop k
      | date day => exact date_skip blanks other day k
      | monthWeekDays start stop => exact monthWeekDays_skip blanks other start stop k
      | between names first last => exact between_skip blanks other names first last k
      | within name first last => exact within_skip blanks other name first last k
  | single form blanks other =>
    cases form with
    | monthWeekDay day => exact single_monthWeekDay blanks other day
    | day name number => exact single_day blanks other name number
    | weekday w => exact single_weekday blanks other w

end DaterangeLine

/-! ## Entries -/

section
variable {entry : List Char} (r : Resolution)

theorem resolve_found {d : DaterangeObject} (h : firstForm entryForms entry = .ok (some d)) :
    resolveDaterange entry r = .ok ⟨⟩ { r with dateranges := r.dateranges ++ [d] } := by
  unfold resolveDaterange
  rw [h]
  rfl

theorem resolve_none (h : firstForm entryForms entry = .ok none) :
    resolveDaterange entry r = .ok ⟨⟩ { r with invalidEntries := r.invalidEntries ++ [entry] } := by
  unfold resolveDaterange
  rw [h]
  rfl

theorem resolve_error {e : Exn} (h : firstForm entryForms entry = .error e) : resolveDaterange entry r = .error e r := by
  unfold resolveDaterange
  rw [h]
  rfl

end

end Alignak
