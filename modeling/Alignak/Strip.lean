import Mathlib.Data.List.DropRight
import Mathlib.Tactic.Common

/-!
# Stripping white space

Python's `str.strip` on lists of characters. A text between white spaces
strips to itself when its first and last characters are not spaces.
-/

namespace Alignak

/-- The characters of `str.isspace`. -/
def isSpace (c : Char) : Bool :=
  (9 ≤ c.toNat && c.toNat ≤ 13) || (28 ≤ c.toNat && c.toNat ≤ 32) || c.toNat == 0x85 || c.toNat == 0xa0 ||
    c.toNat == 0x1680 || (0x2000 ≤ c.toNat && c.toNat ≤ 0x200a) || c.toNat == 0x2028 || c.toNat == 0x2029 ||
    c.toNat == 0x202f || c.toNat == 0x205f || c.toNat == 0x3000

def strip (l : List Char) : List Char := (l.dropWhile isSpace).rdropWhile isSpace

def stripString (s : String) : String := String.ofList (strip s.toList)

def Blank (l : List Char) : Prop := ∀ c ∈ l, isSpace c = true

structure Stripped (l : List Char) : Prop where
  ne : l ≠ []
  head : ∀ h, isSpace (l.head h) = false
  last : ∀ h, isSpace (l.getLast h) = false

variable {l w : List Char}

theorem strip_blank (h : Blank l) : strip l = [] := by
  unfold strip
  rw [List.dropWhile_eq_nil_iff.mpr h]
  rfl

theorem dropWhile_blank_append (hw : Blank w) : (w ++ l).dropWhile isSpace = l.dropWhile isSpace := by
  induction w with
  | nil => rfl
  | cons c w ih =>
    rw [List.cons_append, List.dropWhile_cons_of_pos (hw c List.mem_cons_self)]
    exact ih fun d hd => hw d (List.mem_cons_of_mem _ hd)

theorem rdropWhile_append_blank (hw : Blank w) :
    (l ++ w).rdropWhile isSpace = l.rdropWhile isSpace := by
  unfold List.rdropWhile
  rw [List.reverse_append, dropWhile_blank_append fun c hc => hw c (List.mem_reverse.mp hc)]

theorem Stripped.strip_around {w' : List Char} (hl : Stripped l) (hw : Blank w) (hw' : Blank w') :
    strip (w ++ l ++ w') = l := by
  unfold strip
  have hd : (l ++ w').dropWhile isSpace = l ++ w' := by
    cases l with
    | nil => exact absurd rfl hl.ne
    | cons c l =>
      have hc : isSpace c = false := hl.head (by simp)
      rw [List.cons_append, List.dropWhile_cons_of_neg (by simp [hc])]
  rw [List.append_assoc, dropWhile_blank_append hw, hd, rdropWhile_append_blank hw']
  exact List.rdropWhile_eq_self_iff.mpr fun h => by simp [hl.last h]

theorem strip_head {c : Char} (h : (strip l).head? = some c) : isSpace c = false := by
  have hd : (l.dropWhile isSpace).head? = some c := by
    obtain ⟨r, hr⟩ := List.rdropWhile_prefix isSpace (l.dropWhile isSpace)
    rw [← hr]
    have hne : strip l ≠ [] := fun e => by rw [e] at h; cases h
    exact (List.head?_append_of_ne_nil _ hne).trans h
  have hne : l.dropWhile isSpace ≠ [] := fun e => by rw [e] at hd; cases hd
  have hnot := List.head_dropWhile_not isSpace hne
  rw [List.head?_eq_some_head hne, Option.some.injEq] at hd
  rw [← hd]
  exact hnot

theorem strip_last {c : Char} (h : (strip l).getLast? = some c) : isSpace c = false := by
  have hne : strip l ≠ [] := fun e => by rw [e] at h; cases h
  rw [List.getLast?_eq_some_getLast hne] at h
  cases h
  rw [← Bool.not_eq_true]
  exact List.rdropWhile_last_not isSpace (l.dropWhile isSpace) hne

theorem strip_of_ends (hh : ∀ c, l.head? = some c → isSpace c = false)
    (hl : ∀ c, l.getLast? = some c → isSpace c = false) : strip l = l := by
  cases l with
  | nil => rfl
  | cons c l =>
    unfold strip
    rw [List.dropWhile_cons_of_neg (by rw [hh c rfl]; exact Bool.false_ne_true), List.rdropWhile_eq_self_iff]
    intro hne
    rw [hl _ (List.getLast?_eq_some_getLast hne)]
    exact Bool.false_ne_true

theorem strip_strip (l : List Char) : strip (strip l) = strip l := strip_of_ends (fun _ => strip_head) fun _ => strip_last

end Alignak
