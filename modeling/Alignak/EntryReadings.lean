import Alignak.DaterangeLines

/-!
# What is read as an entry

The patterns are searched anywhere in an entry, and the numbers that they take
need not be numbers. An entry that is no line of the grammar is recorded as
invalid just when no form reads a part of it.
-/

namespace Alignak

open Pattern

/-! ## Readings -/

/-- Where a form is found, and for which groups it then makes a daterange or raises. -/
structure Reading where
  pattern : Pattern
  named : List (List Char) → Bool

namespace Reading

def dayNames (t00 t01 : List Char) : Bool :=
  ((Daterange.weekdayId t00).isSome && (Daterange.weekdayId t01).isSome) ||
    ((Daterange.monthId t00).isSome && (Daterange.monthId t01).isSome) || (t00 == "day".toList && t01 == "day".toList)

def always (form : EntryForm) : Reading := ⟨form.pattern, fun _ => true⟩

/-- The names of the days are the groups `i` and `j`. -/
def days (form : EntryForm) (i j : Nat) : Reading := ⟨form.pattern, fun groups => dayNames (groups.getD i []) (groups.getD j [])⟩

def single : Reading :=
  ⟨EntryForm.single.pattern, fun groups =>
    ((Daterange.weekdayId (groups.getD 0 [])).isSome && (Daterange.monthId (groups.getD 2 [])).isSome) ||
      (groups.getD 2 [] == [] && dayNames (groups.getD 0 []) (groups.getD 0 []))⟩

def standard : Reading := ⟨EntryForm.standard.pattern, fun groups => (Daterange.weekdayId (groups.getD 0 [])).isSome⟩

def Reads (reading : Reading) (entry : List Char) : Prop :=
  ∃ xs, reading.pattern.search entry = some xs ∧ reading.named (reading.pattern.groups xs) = true

end Reading

def readings : List Reading :=
  [.always .datesSkip, .always .dateSkip, .always .dates, .always .date, .always .monthWeekDaysSkip, .days .betweenSkip 0 2,
    .days .withinSkip 0 0, .always .monthWeekDays, .days .within 0 0, .days .between 0 2, .single, .standard]

def Unread (entry : List Char) : Prop := ∀ reading ∈ readings, ¬ reading.Reads entry

/-! ## What the forms do not make -/

theorem bind_ne_none {α β : Type} {x : Except Exn α} {f : α → Except Exn (Option β)} (h : ∀ a, f a ≠ .ok none) :
    (x >>= f) ≠ .ok none := by
  cases x with
  | error e => exact fun h => nomatch h
  | ok a => exact h a

theorem build_ne_none (cls : DaterangeClass) (data : DaterangeData) : data.build cls ≠ .ok none := by
  unfold DaterangeData.build
  repeat refine bind_ne_none fun _ => ?_
  exact fun h => nomatch Except.ok.inj h

theorem monthWeekDay_ne_none (swday swdayOffset smon ewday ewdayOffset emon : List Char) (skip : FieldValue) (other : List Char) :
    MonthWeekDayDaterange.make swday swdayOffset smon ewday ewdayOffset emon skip other ≠ .ok none := by
  unfold MonthWeekDayDaterange.make
  refine bind_ne_none fun _ => bind_ne_none fun _ => bind_ne_none fun _ => bind_ne_none fun _ => ?_
  exact build_ne_none _ _

theorem betweenDays_none_iff (t00 smday t01 emday : List Char) (skip : FieldValue) (other : List Char) :
    betweenDays t00 smday t01 emday skip other = .ok none ↔ Reading.dayNames t00 t01 = false := by
  have hday : (t00 == "day".toList && t01 == "day".toList) = decide (t00 = "day".toList ∧ t01 = "day".toList) := by
    rw [Bool.eq_iff_iff]
    simp
  unfold betweenDays Reading.dayNames
  rw [hday]
  by_cases hdays : t00 = "day".toList ∧ t01 = "day".toList
  · rw [if_pos hdays, decide_eq_true hdays, Bool.or_true]
    refine iff_of_false ?_ Bool.noConfusion
    split
    · exact build_ne_none _ _
    · split <;> exact build_ne_none _ _
  · rw [if_neg hdays, decide_eq_false hdays, Bool.or_false]
    cases Daterange.weekdayId t00 <;> cases Daterange.weekdayId t01 <;> cases Daterange.monthId t00 <;>
      cases Daterange.monthId t01 <;> simp [build_ne_none]

/-- On groups as many as its pattern has, the form makes nothing just when they have not the names of the reading. -/
def ReadAs (form : EntryForm) (reading : Reading) : Prop :=
  form.pattern = reading.pattern ∧ ∀ groups : List (List Char), groups.length = form.pattern.countP Piece.captured →
    (form.make groups = .ok none ↔ reading.named groups = false)

theorem groups_length {ps : Pattern} {xs : List (List Char)} (h : Fits ps xs) : (groups ps xs).length = ps.countP Piece.captured := by
  induction h with
  | nil => rfl
  | @cons p x ps xs _ _ ih =>
    rw [groups, List.countP_cons]
    split <;> simp [ih]

theorem firstForm_none_iff {forms : List EntryForm} {rs : List Reading} (h : List.Forall₂ ReadAs forms rs) (entry : List Char) :
    firstForm forms entry = .ok none ↔ ∀ reading ∈ rs, ¬ reading.Reads entry := by
  induction h with
  | nil => exact ⟨fun _ _ hr => absurd hr List.not_mem_nil, fun _ => rfl⟩
  | @cons form reading forms rs hd _ ih =>
    rw [List.forall_mem_cons, ← ih, firstForm]
    unfold Reading.Reads
    rw [← hd.1]
    cases hsearch : form.pattern.search entry with
    | none => simp
    | some xs =>
      have hmade := hd.2 _ (groups_length (fits_of_search hsearch).1)
      simp only [Option.some.injEq, exists_eq_left', Bool.not_eq_true, ← hmade]
      split
      next heq => simp [heq]
      next hne => exact ⟨fun h => absurd h hne, fun h => absurd h.1 hne⟩

theorem forall_length_zero {α : Type} {P : List α → Prop} : (∀ l : List α, l.length = 0 → P l) ↔ P [] :=
  ⟨fun h => h [] rfl, fun h l hl => by rw [List.length_eq_zero_iff.mp hl]; exact h⟩

theorem forall_length_succ {α : Type} {P : List α → Prop} {n : Nat} :
    (∀ l : List α, l.length = n + 1 → P l) ↔ ∀ a, ∀ l : List α, l.length = n → P (a :: l) := by
  refine ⟨fun h a l hl => h _ (congrArg (· + 1) hl), fun h l hl => ?_⟩
  obtain ⟨a, t, rfl⟩ := List.exists_cons_of_length_eq_add_one hl
  exact h a t (Nat.succ.inj hl)

theorem datesSkip_describes : ReadAs .datesSkip (.always .datesSkip) := by
  refine ⟨rfl, ?_⟩
  change ∀ gs : List (List Char), gs.length = 8 → _
  iterate 8 refine forall_length_succ.mpr fun _ => ?_
  exact forall_length_zero.mpr (iff_of_false (build_ne_none _ _) Bool.noConfusion)

theorem dateSkip_describes : ReadAs .dateSkip (.always .dateSkip) := by
  refine ⟨rfl, ?_⟩
  change ∀ gs : List (List Char), gs.length = 5 → _
  iterate 5 refine forall_length_succ.mpr fun _ => ?_
  exact forall_length_zero.mpr (iff_of_false (build_ne_none _ _) Bool.noConfusion)

theorem dates_describes : ReadAs .dates (.always .dates) := by
  refine ⟨rfl, ?_⟩
  change ∀ gs : List (List Char), gs.length = 7 → _
  iterate 7 refine forall_length_succ.mpr fun _ => ?_
  exact forall_length_zero.mpr (iff_of_false (build_ne_none _ _) Bool.noConfusion)

theorem date_describes : ReadAs .date (.always .date) := by
  refine ⟨rfl, ?_⟩
  change ∀ gs : List (List Char), gs.length = 4 → _
  iterate 4 refine forall_length_succ.mpr fun _ => ?_
  exact forall_length_zero.mpr (iff_of_false (build_ne_none _ _) Bool.noConfusion)

theorem monthWeekDaysSkip_describes : ReadAs .monthWeekDaysSkip (.always .monthWeekDaysSkip) := by
  refine ⟨rfl, ?_⟩
  change ∀ gs : List (List Char), gs.length = 8 → _
  iterate 8 refine forall_length_succ.mpr fun _ => ?_
  exact forall_length_zero.mpr (iff_of_false (monthWeekDay_ne_none _ _ _ _ _ _ _ _) Bool.noConfusion)

theorem monthWeekDays_describes : ReadAs .monthWeekDays (.always .monthWeekDays) := by
  refine ⟨rfl, ?_⟩
  change ∀ gs : List (List Char), gs.length = 7 → _
  iterate 7 refine forall_length_succ.mpr fun _ => ?_
  exact forall_length_zero.mpr (iff_of_false (monthWeekDay_ne_none _ _ _ _ _ _ _ _) Bool.noConfusion)

theorem betweenSkip_describes : ReadAs .betweenSkip (.days .betweenSkip 0 2) := by
  refine ⟨rfl, ?_⟩
  change ∀ gs : List (List Char), gs.length = 6 → _
  iterate 6 refine forall_length_succ.mpr fun _ => ?_
  exact forall_length_zero.mpr (betweenDays_none_iff _ _ _ _ _ _)

theorem withinSkip_describes : ReadAs .withinSkip (.days .withinSkip 0 0) := by
  refine ⟨rfl, ?_⟩
  change ∀ gs : List (List Char), gs.length = 5 → _
  iterate 5 refine forall_length_succ.mpr fun _ => ?_
  exact forall_length_zero.mpr (betweenDays_none_iff _ _ _ _ _ _)

theorem within_describes : ReadAs .within (.days .within 0 0) := by
  refine ⟨rfl, ?_⟩
  change ∀ gs : List (List Char), gs.length = 4 → _
  iterate 4 refine forall_length_succ.mpr fun _ => ?_
  exact forall_length_zero.mpr (betweenDays_none_iff _ _ _ _ _ _)

theorem between_describes : ReadAs .between (.days .between 0 2) := by
  refine ⟨rfl, ?_⟩
  change ∀ gs : List (List Char), gs.length = 5 → _
  iterate 5 refine forall_length_succ.mpr fun _ => ?_
  exact forall_length_zero.mpr (betweenDays_none_iff _ _ _ _ _ _)

theorem single_describes : ReadAs .single .single := by
  refine ⟨rfl, ?_⟩
  change ∀ gs : List (List Char), gs.length = 4 → _
  refine forall_length_succ.mpr fun t00 => forall_length_succ.mpr fun t02 => forall_length_succ.mpr fun t01 =>
    forall_length_succ.mpr fun other => forall_length_zero.mpr ?_
  have hbetween := betweenDays_none_iff t00 t02 t00 t02 (.num 0) other
  change (if (Daterange.weekdayId t00).isSome ∧ (Daterange.monthId t01).isSome then
      MonthWeekDayDaterange.make t00 t02 t01 t00 t02 t01 (.num 0) other
    else if t01 = [] then betweenDays t00 t02 t00 t02 (.num 0) other else .ok none) = .ok none ↔
    (((Daterange.weekdayId t00).isSome && (Daterange.monthId t01).isSome) ||
      (t01 == [] && Reading.dayNames t00 t00)) = false
  by_cases hnames : (Daterange.weekdayId t00).isSome ∧ (Daterange.monthId t01).isSome
  · rw [if_pos hnames]
    refine iff_of_false (monthWeekDay_ne_none _ _ _ _ _ _ _ _) ?_
    simp [hnames.1, hnames.2]
  · rw [if_neg hnames]
    by_cases ht : t01 = []
    · subst ht
      rw [if_pos rfl, hbetween]
      have hmonth : Daterange.monthId [] = none := by decide
      simp [hmonth]
    · rw [if_neg ht]
      simpa [ht] using not_and.mp hnames

theorem standard_describes : ReadAs .standard .standard := by
  refine ⟨rfl, ?_⟩
  change ∀ gs : List (List Char), gs.length = 2 → _
  refine forall_length_succ.mpr fun t00 => forall_length_succ.mpr fun other => forall_length_zero.mpr ?_
  change (if (Daterange.weekdayId t00).isSome then
    Except.ok (some (.standard (String.ofList t00) (String.ofList other) (Timerange.ofEntries (String.ofList other)))) else
      (Except.ok none : Except Exn (Option DaterangeObject))) = .ok none ↔ (Daterange.weekdayId t00).isSome = false
  cases Daterange.weekdayId t00 <;> simp

theorem forms_described : List.Forall₂ ReadAs entryForms readings :=
  .cons datesSkip_describes <| .cons dateSkip_describes <| .cons dates_describes <| .cons date_describes <|
    .cons monthWeekDaysSkip_describes <| .cons betweenSkip_describes <| .cons withinSkip_describes <|
    .cons monthWeekDays_describes <| .cons within_describes <| .cons between_describes <| .cons single_describes <|
    .cons standard_describes .nil

/-! ## Entries -/

/-- A line of the grammar gets its daterange, and any other entry is recorded as invalid. -/
def WellResolved (entry : List Char) : Prop :=
  (∀ line : DaterangeLine, line.Unsigned → line.text = entry → ∀ r : Resolution,
    resolveDaterange entry r = .ok ⟨⟩ { r with dateranges := r.dateranges ++ [line.object] }) ∧
  ((∀ line : DaterangeLine, line.Unsigned → line.text ≠ entry) → ∀ r : Resolution,
    resolveDaterange entry r = .ok ⟨⟩ { r with invalidEntries := r.invalidEntries ++ [entry] })

theorem resolve_recorded {entry : List Char} (h : ∀ r : Resolution,
    resolveDaterange entry r = .ok ⟨⟩ { r with invalidEntries := r.invalidEntries ++ [entry] }) :
    firstForm entryForms entry = .ok none := by
  have hr := h ⟨[], []⟩
  cases hform : firstForm entryForms entry with
  | error e =>
    rw [resolve_error _ hform] at hr
    cases hr
  | ok made =>
    cases made with
    | none => rfl
    | some d =>
      rw [resolve_found _ hform] at hr
      cases hr

/-- An entry is resolved as it is meant to be just when it is a line of the
grammar, or no form reads a part of it. -/
theorem wellResolved_iff (entry : List Char) :
    WellResolved entry ↔ (∃ line : DaterangeLine, line.Unsigned ∧ line.text = entry) ∨ Unread entry := by
  have hunread := firstForm_none_iff forms_described entry
  constructor
  · intro h
    by_cases hline : ∃ line : DaterangeLine, line.Unsigned ∧ line.text = entry
    · exact .inl hline
    · exact .inr (hunread.mp (resolve_recorded (h.2 fun line hu ht => hline ⟨line, hu, ht⟩)))
  · rintro (⟨line, hu, rfl⟩ | h)
    · refine ⟨fun line' _ ht r => ?_, fun hno => absurd rfl (hno line hu)⟩
      rw [← ht]
      exact resolve_found r line'.firstForm_text
    · have hnone := hunread.mpr h
      refine ⟨fun line _ ht => ?_, fun _ r => resolve_none r hnone⟩
      rw [← ht, line.firstForm_text] at hnone
      cases hnone

section
variable {entry : List Char}

theorem raises_not_wellResolved {e : Exn} (h : firstForm entryForms entry = .error e) : ¬ WellResolved entry := by
  intro hw
  have hnone := resolve_recorded (hw.2 fun line _ ht => by rw [← ht, line.firstForm_text] at h; cases h)
  rw [h] at hnone
  cases hnone

theorem joined_suffix (xs : List (List Char)) (s : List Char) : s <:+ joined xs s := by
  induction xs with
  | nil => exact List.suffix_refl s
  | cons x xs ih => exact ih.trans ((List.suffix_cons ' ' _).trans (List.suffix_append x _))

theorem DaterangeLine.ends_hours (line : DaterangeLine) : ∀ c, line.text.getLast? = some c → EntryPattern.isHours c = true := by
  have hends : ∃ other : WrittenRanges, other.text <:+ line.text := by
    cases line with
    | range form skip blanks other => exact ⟨other, (List.suffix_append _ _).trans (joined_suffix _ _)⟩
    | single form blanks other => exact ⟨other, (List.suffix_append _ _).trans (joined_suffix _ _)⟩
  obtain ⟨other, l, hl⟩ := hends
  obtain ⟨d, t, htext, -⟩ := other.head
  intro c hc
  have hne : other.text ≠ [] := by
    rw [htext]
    exact List.cons_ne_nil d t
  rw [← hl, List.getLast?_append_of_ne_nil l hne] at hc
  exact other.hours c (List.mem_of_getLast? hc)

theorem part_not_wellResolved {d : DaterangeObject} {c : Char} (h : firstForm entryForms entry = .ok (some d))
    (hc : entry.getLast? = some c) (hend : EntryPattern.isHours c = false) : ¬ WellResolved entry := by
  intro hw
  have hno : ∀ line : DaterangeLine, line.Unsigned → line.text ≠ entry := by
    rintro line - rfl
    rw [line.ends_hours c hc] at hend
    cases hend
  have hnone := resolve_recorded (hw.2 hno)
  rw [h] at hnone
  cases hnone

end

/-- A name that is no month, a number that is none, and a line with more after it. -/
theorem malformed_entries :
    ¬ WellResolved "friday 2 mai - friday 3 mai 00:00-24:00".toList ∧ ¬ WellResolved "friday 1-2 00:00-24:00".toList ∧
      ¬ WellResolved "monday 00:00-24:00 off".toList := by
  have hname : firstForm entryForms "friday 2 mai - friday 3 mai 00:00-24:00".toList = .error .keyError := rfl
  have hnumber : firstForm entryForms "friday 1-2 00:00-24:00".toList = .error .valueError := rfl
  have hpart : firstForm entryForms "monday 00:00-24:00 off".toList =
      .ok (some (.standard "monday" "00:00-24:00 " [some ⟨0, 0, 24, 0⟩])) := rfl
  exact ⟨raises_not_wellResolved hname, raises_not_wellResolved hnumber, part_not_wellResolved hpart rfl rfl⟩

end Alignak
