import Alignak.EntryTexts

/-!
# The daterange of a line

A pattern is looked for in a line by the kinds of its texts, and the first form
that is found gives the daterange that is written.
-/

namespace Alignak

open EntryPattern Pattern

/-! ## Where a form is not found -/

theorem IsOfKind.noSpace {k : TextKind} {x : List Char} (h : IsOfKind k x) (hk : k ≠ .quiet) : ' ' ∉ x := by
  intro hmem
  cases k with
  | word => exact absurd (h.2 _ hmem) (by decide)
  | number => exact absurd (h.1 _ hmem) (by decide)
  | dash =>
    subst h
    exact absurd hmem (by decide)
  | slash =>
    subst h
    exact absurd hmem (by decide)
  | quiet => exact hk rfl

theorem forall₂_replicate {α β : Type} {R : α → β → Prop} {a : α} {l : List β} (h : ∀ b ∈ l, R a b) :
    List.Forall₂ R (List.replicate l.length a) l := by
  induction l with
  | nil => exact .nil
  | cons b l ih =>
    rw [List.forall_mem_cons] at h
    exact .cons h.1 (ih h.2)

namespace DaterangeLine

variable (line : DaterangeLine)

theorem kinds_loud : ∀ k ∈ line.kinds, k ≠ .quiet := by
  cases line with
  | range form skip blanks other => cases skip <;> cases form <;> simp [kinds, RangeForm.kinds]
  | single form blanks other => cases form <;> simp [kinds, SingleForm.kinds]

theorem kinds_ne_nil : line.kinds ≠ [] := by
  cases line with
  | range form skip blanks other => cases skip <;> cases form <;> simp [kinds, RangeForm.kinds]
  | single form blanks other => cases form <;> simp [kinds, SingleForm.kinds]

theorem texts_noSpace : ∀ x ∈ line.texts, ' ' ∉ x := by
  have hloud := line.kinds_loud
  have hkinds := line.texts_kinds
  generalize line.kinds = ks at hloud hkinds
  generalize line.texts = xs at hkinds
  induction hkinds with
  | nil => simp
  | cons hk _ ih =>
    rw [List.forall_mem_cons] at hloud ⊢
    exact ⟨hk.noSpace hloud.1, ih hloud.2⟩

theorem text_splitOn : line.text.splitOn ' ' = line.texts ++ line.rest.splitOn ' ' := splitOn_joined line.texts_noSpace

theorem tail_kinds : List.Forall₂ IsOfKind (line.kinds.tail ++ List.replicate (line.rest.splitOn ' ').length .quiet)
    (line.text.splitOn ' ').tail := by
  have hrest := forall₂_replicate line.rest_quiet
  have hkinds := line.texts_kinds
  have hne := line.kinds_ne_nil
  rw [text_splitOn]
  generalize line.kinds = ks at hkinds hne
  generalize line.texts = xs at hkinds
  cases hkinds with
  | nil => exact absurd rfl hne
  | cons _ hkinds => exact List.rel_append hkinds hrest

theorem implied_shapes (shapes : List TextShape) :
    Implied IsOfKind ((shapes.map TextShape.pattern).map accepts) (shapes.map TextShape.takes) := by
  induction shapes with
  | nil => exact .nil
  | cons s shapes ih => exact .cons (fun hk h => s.takes_of_accepts hk h) ih

theorem noSpace_shapes {t : Pattern} (ht : NoSpace t) (shapes : List TextShape) : ∀ u ∈ t :: shapes.map TextShape.pattern, NoSpace u := by
  rw [List.forall_mem_cons]
  refine ⟨ht, fun u hu => ?_⟩
  obtain ⟨s, -, rfl⟩ := List.mem_map.mp hu
  exact s.noSpace

theorem search_none (shapes : List TextShape) (t : Pattern) (ps : Pattern) (ht : NoSpace t)
    (h : runsIn (shapes.map TextShape.takes) (line.kinds.tail ++ List.replicate shapes.length .quiet) = false) :
    search (spaced (t :: shapes.map TextShape.pattern) ++ ps) line.text = none := by
  apply search_eq_none (noSpace_shapes ht shapes)
  by_contra hruns
  have hkinds := runsIn_implied (implied_shapes shapes) line.tail_kinds (Bool.eq_true_of_not_eq_false hruns)
  rw [runsIn_pad (by simp) hkinds] at h
  cases h

end DaterangeLine

/-! ## Years of lines -/

theorem yearFree_joined {xs : List (List Char)} {s : List Char} (hxs : ∀ x ∈ xs, yearFree 0 x = true) (hs : yearFree 0 s = true) :
    yearFree 0 (joined xs s) = true := by
  induction xs with
  | nil => exact hs
  | cons x xs ih =>
    rw [List.forall_mem_cons] at hxs
    rw [joined, yearFree_space, hxs.1, ih hxs.2]
    rfl

def RangeForm.isDated : RangeForm → Bool
  | dates _ _ => true
  | date _ => true
  | _ => false

theorem RangeForm.texts_yearFree (form : RangeForm) (h : form.isDated = false) : ∀ x ∈ form.texts, yearFree 0 x = true := by
  have hdash : yearFree 0 ['-'] = true := rfl
  cases form with
  | dates start stop => cases h
  | date day => cases h
  | monthWeekDays start stop =>
    simp [texts, hdash, start.number.yearFree, stop.number.yearFree, yearFree_kind (start.weekday.isWord weekdays_words),
      yearFree_kind (stop.weekday.isWord weekdays_words), yearFree_kind (start.month.isWord months_words),
      yearFree_kind (stop.month.isWord months_words)]
  | between names first last =>
    simp [texts, hdash, first.yearFree, last.yearFree, yearFree_kind names.start_isWord, yearFree_kind names.stop_isWord]
  | within name first last =>
    simp [texts, hdash, first.yearFree, last.yearFree, yearFree_kind name.both.start_isWord]

theorem SingleForm.texts_yearFree (form : SingleForm) : ∀ x ∈ form.texts, yearFree 0 x = true := by
  cases form with
  | monthWeekDay d =>
    simp [texts, d.number.yearFree, yearFree_kind (d.weekday.isWord weekdays_words), yearFree_kind (d.month.isWord months_words)]
  | day name number => simp [texts, number.yearFree, yearFree_kind name.both.start_isWord]
  | weekday w => simp [texts, yearFree_kind (w.isWord weekdays_words)]

namespace DaterangeLine

variable {form : RangeForm} {skip : Option Numeral} {blanks : Nat} {other : WrittenRanges}

theorem rest_yearFree (n : Nat) (other : WrittenRanges) : yearFree 0 (List.replicate n ' ' ++ other.text) = true := by
  rw [yearFree_spaces]
  exact other.yearFree

theorem range_yearFree (h : form.isDated = false) : yearFree 0 (range form skip blanks other).text = true := by
  apply yearFree_joined _ (rest_yearFree blanks other)
  cases skip with
  | none => exact form.texts_yearFree h
  | some k =>
    have hslash : yearFree 0 ['/'] = true := rfl
    have hend : ∀ x ∈ [['/'], k.digits], yearFree 0 x = true := by simp [hslash, k.yearFree]
    exact List.forall_mem_append.mpr ⟨form.texts_yearFree h, hend⟩

theorem single_yearFree (form : SingleForm) (blanks : Nat) (other : WrittenRanges) : yearFree 0 (single form blanks other).text = true :=
  yearFree_joined form.texts_yearFree (rest_yearFree blanks other)

end DaterangeLine

end Alignak
