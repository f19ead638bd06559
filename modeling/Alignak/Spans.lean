import Mathlib.Data.List.TakeWhile
import Mathlib.Data.List.Infix
import Mathlib.Tactic.Common

/-!
# Spans

A list cut where a class of elements ends: the elements of the class in front,
and the rest, which starts with none of them.
-/

namespace Alignak

section
variable {α : Type} {p : α → Bool} {a b l : List α}

def EndsSpan (p : α → Bool) (b : List α) : Prop := ∀ c, b.head? = some c → p c = false

theorem EndsSpan.nil : EndsSpan p [] := fun _ h => nomatch h

theorem EndsSpan.cons {c : α} (h : p c = false) (b : List α) : EndsSpan p (c :: b) := by
  intro d hd
  obtain rfl : c = d := by simpa using hd
  exact h

theorem takeWhile_of_endsSpan (h : EndsSpan p b) : b.takeWhile p = [] := by
  cases b with
  | nil => rfl
  | cons c b => exact List.takeWhile_cons_of_neg (by simp [h c rfl])

theorem dropWhile_of_endsSpan (h : EndsSpan p b) : b.dropWhile p = b := by
  cases b with
  | nil => rfl
  | cons c b => exact List.dropWhile_cons_of_neg (by simp [h c rfl])

theorem takeWhile_span (ha : ∀ x ∈ a, p x = true) (hb : EndsSpan p b) : (a ++ b).takeWhile p = a := by
  rw [List.takeWhile_append_of_pos ha, takeWhile_of_endsSpan hb, List.append_nil]

theorem dropWhile_span (ha : ∀ x ∈ a, p x = true) (hb : EndsSpan p b) : (a ++ b).dropWhile p = b := by
  rw [List.dropWhile_append_of_pos ha, dropWhile_of_endsSpan hb]

theorem endsSpan_dropWhile (p : α → Bool) (l : List α) : EndsSpan p (l.dropWhile p) := by
  intro c hc
  have h := List.head?_dropWhile_not p l
  rw [hc] at h
  simpa using h

theorem takeWhile_pos {c : α} (h : c ∈ l.takeWhile p) : p c = true := List.mem_takeWhile_imp h

end

end Alignak
