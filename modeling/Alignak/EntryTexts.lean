import Alignak.EntryLines

/-!
# The texts of lines

The parts of a line between its spaces are of a few kinds, which decide where a
pattern can be found: the parts of the time ranges are no numbers, and only a
date has four digits before a hyphen.
-/

namespace Alignak

open EntryPattern Pattern
open Numerals (isDecimal decimal_range decimal_of_digit decimal_not_space others_not_decimal)

/-! ## Characters -/

section
variable {c : Char}

theorem lower_range (h : c.isLower = true) : 97 ≤ c.toNat ∧ c.toNat ≤ 122 := by
  have h : (decide (c.val ≥ 'a'.val) && decide (c.val ≤ 'z'.val)) = true := h
  simp only [Bool.and_eq_true, decide_eq_true_eq, UInt32.le_iff_toNat_le] at h
  exact h

theorem not_lower_of_decimal (h : isDecimal c = true) : c.isLower = false := by
  by_contra hl
  have hd := decimal_range h
  have hw := lower_range (Bool.eq_true_of_not_eq_false hl)
  omega

theorem not_offset_of_lower (h : c.isLower = true) : isOffset c = false := by
  have hw := lower_range h
  simp only [isOffset, Bool.or_eq_false_iff, beq_eq_false_iff_ne]
  constructor
  · by_contra hd
    have hr := decimal_range (Bool.eq_true_of_not_eq_false hd)
    omega
  · rintro rfl
    revert h
    decide

theorem ne_of_digit {d : Char} (h : c.isDigit = true) (hd : d.isDigit = false) : c ≠ d := by
  rintro rfl
  rw [h] at hd
  cases hd

end

/-! ## Kinds of texts -/

inductive TextKind
  | word
  | number
  | dash
  | slash
  | quiet
  deriving DecidableEq

def IsOfKind : TextKind → List Char → Prop
  | .word, x => x ≠ [] ∧ ∀ c ∈ x, c.isLower = true
  | .number, x => (∀ c ∈ x, isOffset c = true) ∧ ∃ c ∈ x, isDecimal c = true
  | .dash, x => x = ['-']
  | .slash, x => x = ['/']
  | .quiet, x => x = [] ∨ ':' ∈ x ∨ ',' ∈ x

inductive TextShape
  | word
  | offset
  | dash
  | slash
  | date

namespace TextShape

def pattern : TextShape → Pattern
  | word => [EntryPattern.word]
  | offset => [EntryPattern.offset]
  | dash => [EntryPattern.dash]
  | slash => [EntryPattern.slash]
  | date => EntryPattern.date

def takes : TextShape → TextKind → Bool
  | word, k => k == .word || k == .quiet
  | offset, k => k == .number || k == .dash
  | dash, k => k == .dash
  | slash, k => k == .slash
  | date, _ => true

theorem noSpace (s : TextShape) : NoSpace s.pattern := by
  cases s <;> simp [NoSpace, others_not_decimal, pattern, EntryPattern.word, EntryPattern.offset, EntryPattern.dash, EntryPattern.slash,
    EntryPattern.date, number, Piece.char, isOffset]

theorem accepts_char {c : Char} {x : List Char} (h : accepts [.char c] x = true) : x = [c] := by
  simp only [accepts, Piece.char, List.all_eq_true, Bool.and_eq_true, Option.all_some, beq_iff_eq] at h
  obtain ⟨⟨hall, hleast⟩, hmost⟩ := h
  obtain ⟨d, rfl⟩ := List.length_eq_one_iff.mp (le_antisymm (of_decide_eq_true hmost) (of_decide_eq_true hleast))
  rw [hall d List.mem_cons_self]

theorem takes_of_accepts (s : TextShape) {k : TextKind} {x : List Char} (hk : IsOfKind k x) (h : accepts s.pattern x = true) :
    s.takes k = true := by
  cases s with
  | word =>
    have hall : ∀ c ∈ x, c.isLower = true := by
      simp only [pattern, accepts, EntryPattern.word, Bool.and_eq_true, List.all_eq_true] at h
      exact h.1.1
    cases k with
    | word => rfl
    | quiet => rfl
    | number =>
      obtain ⟨-, c, hc, hd⟩ := hk
      have hl := hall c hc
      rw [not_lower_of_decimal hd] at hl
      cases hl
    | dash =>
      subst hk
      exact absurd (hall '-' List.mem_cons_self) (by decide)
    | slash =>
      subst hk
      exact absurd (hall '/' List.mem_cons_self) (by decide)
  | offset =>
    simp only [pattern, accepts, EntryPattern.offset, Bool.and_eq_true, List.all_eq_true, decide_eq_true_eq] at h
    obtain ⟨⟨hall, hleast⟩, -⟩ := h
    cases k with
    | word =>
      obtain ⟨c, hc⟩ := List.exists_mem_of_ne_nil x hk.1
      have ho := hall c hc
      rw [not_offset_of_lower (hk.2 c hc)] at ho
      cases ho
    | number => rfl
    | dash => rfl
    | slash =>
      subst hk
      exact absurd (hall '/' List.mem_cons_self) (by decide)
    | quiet =>
      rcases hk with rfl | hc | hc
      · cases hleast
      · exact absurd (hall ':' hc) (by decide)
      · exact absurd (hall ',' hc) (by decide)
  | dash =>
    rw [accepts_char h] at hk
    cases k <;> simp_all [IsOfKind, takes, others_not_decimal]
  | slash =>
    rw [accepts_char h] at hk
    cases k <;> simp_all [IsOfKind, takes, others_not_decimal]
  | date => rfl

end TextShape

/-! ## The texts that are written -/

theorem Numeral.isNumber (n : Numeral) : IsOfKind .number n.digits := by
  refine ⟨fun c hc => ?_, ?_⟩
  · rw [isOffset, n.digit c hc]
    rfl
  · obtain ⟨c, hc⟩ := List.exists_mem_of_ne_nil _ n.ne
    exact ⟨c, hc, n.digit c hc⟩

theorem DayNumber.isNumber (n : DayNumber) : IsOfKind .number n.text := by
  obtain ⟨hall, c, hc, hd⟩ := n.number.isNumber
  unfold text
  split
  · refine ⟨?_, c, List.mem_cons_of_mem _ hc, hd⟩
    rw [List.forall_mem_cons]
    exact ⟨rfl, hall⟩
  · exact ⟨hall, c, hc, hd⟩

theorem WrittenDate.isNumber (d : WrittenDate) : IsOfKind .number d.text := by
  obtain ⟨hyear, c, hc, hd⟩ := d.year.isNumber
  refine ⟨?_, c, List.mem_append_left _ hc, hd⟩
  unfold text
  simp only [List.forall_mem_append, List.forall_mem_cons]
  exact ⟨hyear, rfl, d.month.isNumber.1, rfl, d.day.isNumber.1⟩

theorem weekdays_words : (Daterange.weekdays.all fun p => decide (p.1.toList ≠ []) && p.1.toList.all Char.isLower) = true := by decide

theorem months_words : (Daterange.months.all fun p => decide (p.1.toList ≠ []) && p.1.toList.all Char.isLower) = true := by decide

theorem KnownName.isWord {table : List (String × Int)}
    (h : (table.all fun p => decide (p.1.toList ≠ []) && p.1.toList.all Char.isLower) = true) (n : KnownName table) :
    IsOfKind .word n.name.toList := by
  have hn := List.all_eq_true.mp h _ n.mem
  simp only [Bool.and_eq_true, decide_eq_true_eq, List.all_eq_true] at hn
  exact hn

theorem day_isWord : IsOfKind .word "day".toList := ⟨by decide, List.all_eq_true.mp (by decide)⟩

theorem DayNames.start_isWord (names : DayNames) : IsOfKind .word names.start := by
  cases names with
  | weekdays w w' => exact w.isWord weekdays_words
  | months m m' => exact m.isWord months_words
  | days => exact day_isWord

theorem DayNames.stop_isWord (names : DayNames) : IsOfKind .word names.stop := by
  cases names with
  | weekdays w w' => exact w'.isWord weekdays_words
  | months m m' => exact m'.isWord months_words
  | days => exact day_isWord

def RangeForm.kinds : RangeForm → List TextKind
  | dates _ _ => [.number, .dash, .number]
  | date _ => [.number]
  | monthWeekDays _ _ => [.word, .number, .word, .dash, .word, .number, .word]
  | between _ _ _ => [.word, .number, .dash, .word, .number]
  | within _ _ _ => [.word, .number, .dash, .number]

def SingleForm.kinds : SingleForm → List TextKind
  | monthWeekDay _ => [.word, .number, .word]
  | day _ _ => [.word, .number]
  | weekday _ => [.word]

def DaterangeLine.kinds : DaterangeLine → List TextKind
  | range form none _ _ => form.kinds
  | range form (some _) _ _ => form.kinds ++ [.slash, .number]
  | single form _ _ => form.kinds

theorem RangeForm.texts_kinds (form : RangeForm) : List.Forall₂ IsOfKind form.kinds form.texts := by
  cases form with
  | dates start stop =>
    have hd : IsOfKind .dash ['-'] := rfl
    simp [kinds, texts, start.isNumber, stop.isNumber, hd]
  | date day => simp [kinds, texts, day.isNumber]
  | monthWeekDays start stop =>
    have hd : IsOfKind .dash ['-'] := rfl
    simp [kinds, texts, start.number.isNumber, stop.number.isNumber, start.weekday.isWord weekdays_words,
      stop.weekday.isWord weekdays_words, start.month.isWord months_words, stop.month.isWord months_words, hd]
  | between names first last =>
    have hd : IsOfKind .dash ['-'] := rfl
    simp [kinds, texts, first.isNumber, last.isNumber, names.start_isWord, names.stop_isWord, hd]
  | within name first last =>
    have hd : IsOfKind .dash ['-'] := rfl
    simp [kinds, texts, first.isNumber, last.isNumber, name.both.start_isWord, hd]

theorem SingleForm.texts_kinds (form : SingleForm) : List.Forall₂ IsOfKind form.kinds form.texts := by
  cases form with
  | monthWeekDay d => simp [kinds, texts, d.number.isNumber, d.weekday.isWord weekdays_words, d.month.isWord months_words]
  | day name number => simp [kinds, texts, number.isNumber, name.both.start_isWord]
  | weekday w => simp [kinds, texts, w.isWord weekdays_words]

theorem DaterangeLine.texts_kinds (line : DaterangeLine) : List.Forall₂ IsOfKind line.kinds line.texts := by
  cases line with
  | range form skip blanks other =>
    cases skip with
    | none => exact form.texts_kinds
    | some k =>
      have hs : IsOfKind .slash ['/'] := rfl
      exact List.rel_append form.texts_kinds (by simp [hs, k.isNumber])
  | single form blanks other => exact form.texts_kinds

/-! ## Time ranges -/

def Quiet (s : List Char) : Prop := ∀ x ∈ s.splitOn ' ', IsOfKind .quiet x

section
variable {x s : List Char}

theorem splitOn_append (h : ' ' ∉ x) (s : List Char) : (x ++ s).splitOn ' ' = (s.splitOn ' ').modifyHead (x ++ ·) := by
  induction x with
  | nil =>
    rw [List.nil_append]
    cases s.splitOn ' ' <;> rfl
  | cons c x ih =>
    rw [List.mem_cons, not_or] at h
    rw [List.cons_append, List.splitOn_cons_eq_if_modifyHead, if_neg (by simpa using Ne.symm h.1), ih h.2]
    cases s.splitOn ' ' <;> rfl

theorem Quiet.space (h : Quiet s) : Quiet (' ' :: s) := by
  intro y hy
  have hsplit : (' ' :: s).splitOn ' ' = [] :: s.splitOn ' ' := List.splitOn_append_cons_self [] s
  rw [hsplit, List.mem_cons] at hy
  rcases hy with rfl | hy
  · exact .inl rfl
  · exact h y hy

theorem Quiet.spaces (h : Quiet s) (n : Nat) : Quiet (List.replicate n ' ' ++ s) := by
  induction n with
  | zero => exact h
  | succ n ih => exact ih.space

theorem Quiet.append (hx : ' ' ∉ x) (hc : ':' ∈ x ∨ ',' ∈ x) (h : Quiet s) : Quiet (x ++ s) := by
  unfold Quiet at *
  rw [splitOn_append hx]
  obtain ⟨y, ys, hys⟩ := List.exists_cons_of_ne_nil (List.splitOn_ne_nil ' ' s)
  rw [hys] at h ⊢
  rw [List.modifyHead_cons, List.forall_mem_cons]
  refine ⟨.inr ?_, fun z hz => h z (List.mem_cons_of_mem _ hz)⟩
  exact hc.imp (List.mem_append_left _) (List.mem_append_left _)

theorem Quiet.nil : Quiet [] := by
  intro y hy
  rw [List.splitOn_nil, List.mem_singleton] at hy
  exact .inl hy

end

theorem WrittenRange.digits (r : WrittenRange) : ∃ a b c d e f g h : Char, r.hstart.digits = [a, b] ∧ r.mstart.digits = [c, d] ∧
    r.hend.digits = [e, f] ∧ r.mend.digits = [g, h] ∧ ∀ x ∈ [a, b, c, d, e, f, g, h], x.isDigit = true := by
  obtain ⟨hhstart, hmstart, hhend, hmend⟩ := r.lengths
  obtain ⟨a, b, hab⟩ := List.length_eq_two.mp hhstart
  obtain ⟨c, d, hcd⟩ := List.length_eq_two.mp hmstart
  obtain ⟨e, f, hef⟩ := List.length_eq_two.mp hhend
  obtain ⟨g, h, hgh⟩ := List.length_eq_two.mp hmend
  have hlatin := r.latin
  rw [hab, hcd, hef, hgh] at hlatin
  exact ⟨a, b, c, d, e, f, g, h, hab, hcd, hef, hgh, hlatin⟩

theorem WrittenRange.chars (r : WrittenRange) : ∃ a b c d e f g h : Char, r.text = [a, b, ':', c, d, '-', e, f, ':', g, h] ∧
    ∀ x ∈ [a, b, c, d, e, f, g, h], x.isDigit = true := by
  obtain ⟨a, b, c, d, e, f, g, h, hab, hcd, hef, hgh, hdigit⟩ := r.digits
  refine ⟨a, b, c, d, e, f, g, h, ?_, hdigit⟩
  unfold text
  rw [hab, hcd, hef, hgh]
  rfl

theorem WrittenRange.noSpace (r : WrittenRange) : ' ' ∉ r.text ∧ ':' ∈ r.text := by
  obtain ⟨a, b, c, d, e, f, g, h, htext, hdigit⟩ := r.chars
  rw [htext]
  refine ⟨fun hmem => ?_, by simp⟩
  have hspace : ' ' ∈ [a, b, c, d, e, f, g, h] := by simpa using hmem
  exact absurd (hdigit _ hspace) (by decide)

theorem WrittenRanges.quiet (rs : WrittenRanges) : Quiet rs.text := by
  have hmore : ∀ more, Quiet (moreText rs.after more) := by
    intro more
    induction more with
    | nil =>
      have h := Quiet.nil.spaces rs.after
      rw [List.append_nil] at h
      exact h
    | cons x more ih =>
      obtain ⟨i, j, r⟩ := x
      refine Quiet.spaces (Quiet.append (x := [',']) (by decide) (.inr List.mem_cons_self) (Quiet.spaces ?_ j)) i
      exact ih.append r.noSpace.1 (.inl r.noSpace.2)
  exact (hmore _).append rs.first.noSpace.1 (.inl rs.first.noSpace.2)

theorem DaterangeLine.rest_quiet (line : DaterangeLine) : Quiet line.rest := by
  cases line with
  | range form skip blanks other => exact other.quiet.spaces blanks
  | single form blanks other => exact other.quiet.spaces blanks

/-! ## Years -/

def yearFree : Nat → List Char → Bool
  | _, [] => true
  | k, c :: s => if isDecimal c then yearFree (k + 1) s else if c = '-' then decide (k < 4) && yearFree 0 s else yearFree 0 s

section
variable {x s : List Char}

theorem yearFree_digits (h : ∀ c ∈ x, isDecimal c = true) (k : Nat) : yearFree k (x ++ s) = yearFree (k + x.length) s := by
  induction x generalizing k with
  | nil => rfl
  | cons c x ih =>
    rw [List.forall_mem_cons] at h
    rw [List.cons_append, yearFree, if_pos h.1, ih h.2, List.length_cons]
    congr 1
    omega

theorem yearFree_space (x s : List Char) (k : Nat) : yearFree k (x ++ ' ' :: s) = (yearFree k x && yearFree 0 s) := by
  induction x generalizing k with
  | nil => simp [yearFree, others_not_decimal]
  | cons c x ih =>
    simp only [List.cons_append, yearFree, ih]
    split
    · rfl
    · split
      · rw [Bool.and_assoc]
      · rfl

theorem yearFree_of_notMem (h : '-' ∉ x) (k : Nat) : yearFree k x = true := by
  induction x generalizing k with
  | nil => rfl
  | cons c x ih =>
    rw [List.mem_cons, not_or] at h
    rw [yearFree, ih h.2, if_neg (Ne.symm h.1), ih h.2, ite_self]

theorem not_yearFree (hx : ∀ c ∈ x, isDecimal c = true) (hlength : 4 ≤ x.length) (pre : List Char) (k : Nat) :
    yearFree k (pre ++ (x ++ '-' :: s)) = false := by
  induction pre generalizing k with
  | nil =>
    rw [List.nil_append, yearFree_digits hx]
    simp [yearFree, others_not_decimal]
    omega
  | cons c pre ih => rw [List.cons_append, yearFree, ih, ih, Bool.and_false, ite_self, ite_self]

theorem search_date_none (ps : Pattern) (h : yearFree 0 s = true) :
    search (EntryPattern.number 4 :: EntryPattern.dash :: ps) s = none := by
  by_contra hfound
  obtain ⟨xs, hxs⟩ := Option.ne_none_iff_exists'.mp hfound
  obtain ⟨hfits, pre, rest, rfl⟩ := fits_of_search hxs
  obtain ⟨x, ys, hx, hys, rfl⟩ := List.forall₂_cons_left_iff.mp hfits
  obtain ⟨y, zs, hy, -, rfl⟩ := List.forall₂_cons_left_iff.mp hys
  have hyear := not_yearFree (s := zs.flatten ++ rest) hx.mem hx.least pre 0
  rw [List.flatten_cons, List.flatten_cons, takes_char.mp hy] at h
  simp only [List.append_assoc, List.cons_append, List.nil_append] at h
  rw [h] at hyear
  cases hyear

theorem yearFree_kind {k : TextKind} (hk : IsOfKind k x) (hword : k = .word ∨ k = .dash ∨ k = .slash) : yearFree 0 x = true := by
  rcases hword with rfl | rfl | rfl
  · refine yearFree_of_notMem (fun hmem => ?_) 0
    exact absurd (hk.2 _ hmem) (by decide)
  · subst hk
    rfl
  · subst hk
    rfl

end

theorem Numeral.notMem_dash (n : Numeral) : '-' ∉ n.digits := fun hmem => absurd (n.digit _ hmem) (by decide)

theorem Numeral.yearFree (n : Numeral) : Alignak.yearFree 0 n.digits = true := yearFree_of_notMem n.notMem_dash 0

theorem DayNumber.yearFree (n : DayNumber) : Alignak.yearFree 0 n.text = true := by
  unfold text
  split
  · exact n.number.yearFree
  · exact n.number.yearFree

theorem yearFree_spaces (n : Nat) (s : List Char) : yearFree 0 (List.replicate n ' ' ++ s) = yearFree 0 s := by
  induction n with
  | zero => rfl
  | succ n ih => exact ih

theorem WrittenRange.yearFree (r : WrittenRange) {s : List Char} (h : Alignak.yearFree 2 s = true) :
    Alignak.yearFree 0 (r.text ++ s) = true := by
  obtain ⟨a, b, c, d, e, f, g, h', htext, hdigit⟩ := r.chars
  have hdecimal : ∀ x ∈ [a, b, c, d, e, f, g, h'], isDecimal x = true := fun x hx => decimal_of_digit (hdigit x hx)
  simp only [List.forall_mem_cons] at hdecimal
  obtain ⟨ha, hb, hc, hd, he, hf, hg, hh, -⟩ := hdecimal
  rw [htext]
  simp [Alignak.yearFree, others_not_decimal, ha, hb, hc, hd, he, hf, hg, hh, h]

theorem WrittenRanges.yearFree (rs : WrittenRanges) : Alignak.yearFree 0 rs.text = true := by
  have hmore : ∀ more, Alignak.yearFree 2 (moreText rs.after more) = true := by
    intro more
    induction more with
    | nil =>
      cases rs.after with
      | zero => rfl
      | succ n =>
        have hspaces := yearFree_spaces n []
        rw [List.append_nil] at hspaces
        exact hspaces
    | cons x more ih =>
      obtain ⟨i, j, r⟩ := x
      have hr : Alignak.yearFree 0 (List.replicate j ' ' ++ (r.text ++ moreText rs.after more)) = true := by
        rw [yearFree_spaces]
        exact r.yearFree ih
      cases i with
      | zero => exact hr
      | succ i =>
        have hspaces := yearFree_spaces i (',' :: (List.replicate j ' ' ++ (r.text ++ moreText rs.after more)))
        exact hspaces.trans hr
  exact rs.first.yearFree (hmore _)

end Alignak
