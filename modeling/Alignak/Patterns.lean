import Mathlib.Order.Basic
import Mathlib.Order.Lattice
import Mathlib.Tactic.Common
import Mathlib.Data.List.TakeWhile

/-!
# Patterns

The regular expressions that are a row of pieces: a piece takes characters of a
class, as many as it can, and gives some back when the rest of the row does not
match.
-/

namespace Alignak

structure Piece where
  cls : Char → Bool
  least : Nat
  most : Option Nat
  captured : Bool

namespace Piece

def char (c : Char) : Piece := ⟨fun d => d == c, 1, some 1, false⟩

def reach (p : Piece) (s : List Char) : Nat := min (p.most.getD (s.takeWhile p.cls).length) (s.takeWhile p.cls).length

structure Takes (p : Piece) (x : List Char) : Prop where
  mem : ∀ c ∈ x, p.cls c = true
  least : p.least ≤ x.length
  most : ∀ m, p.most = some m → x.length ≤ m

end Piece

abbrev Pattern := List Piece

namespace Pattern

/-- From `n` down to the least. -/
def descend {β : Type} (least : Nat) (f : Nat → Option β) : Nat → Option β
  | 0 => if least = 0 then f 0 else none
  | n + 1 => if least ≤ n + 1 then (f (n + 1)).orElse fun _ => descend least f n else none

def atStart : Pattern → List Char → Option (List (List Char))
  | [], _ => some []
  | p :: ps, s => descend p.least (fun n => (atStart ps (s.drop n)).map (s.take n :: ·)) (p.reach s)

def search (ps : Pattern) : List Char → Option (List (List Char))
  | [] => atStart ps []
  | c :: s => (atStart ps (c :: s)).orElse fun _ => search ps s

/-- `groups` of a match. -/
def groups : Pattern → List (List Char) → List (List Char)
  | p :: ps, x :: xs => if p.captured then x :: groups ps xs else groups ps xs
  | _, _ => []

abbrev Fits (ps : Pattern) (xs : List (List Char)) : Prop := List.Forall₂ Piece.Takes ps xs

section
variable {β : Type} {least n : Nat} {f : Nat → Option β} {b : β}

theorem descend_some (h : descend least f n = some b) : ∃ m, least ≤ m ∧ m ≤ n ∧ f m = some b := by
  induction n with
  | zero =>
    simp only [descend] at h
    split at h
    · rename_i h0
      exact ⟨0, by omega, le_refl 0, h⟩
    · cases h
  | succ n ih =>
    simp only [descend] at h
    split at h
    · rename_i hle
      cases hf : f (n + 1) with
      | some b' =>
        rw [hf] at h
        exact ⟨n + 1, hle, le_refl _, hf.trans h⟩
      | none =>
        rw [hf] at h
        obtain ⟨m, hm, hmn, hb⟩ := ih h
        exact ⟨m, hm, by omega, hb⟩
    · cases h

theorem descend_top (hn : least ≤ n) (h : f n = some b) : descend least f n = some b := by
  cases n with
  | zero =>
    simp only [descend]
    rw [if_pos (by omega), h]
  | succ n =>
    simp only [descend]
    rw [if_pos hn, h]
    rfl

end

section
variable {p : Piece} {ps : Pattern} {x s rest pre : List Char} {xs : List (List Char)}

theorem takes_of_le_reach {n : Nat} (hl : p.least ≤ n) (hn : n ≤ p.reach s) : p.Takes (s.take n) := by
  have hrun : n ≤ (s.takeWhile p.cls).length := hn.trans (Nat.min_le_right _ _)
  have hlen : (s.takeWhile p.cls).length ≤ s.length := (List.takeWhile_prefix p.cls).length_le
  have htake : s.take n = (s.takeWhile p.cls).take n := by
    obtain ⟨t, ht⟩ := List.takeWhile_prefix (l := s) p.cls
    conv_lhs => rw [← ht]
    rw [List.take_append_of_le_length hrun]
  refine ⟨fun c hc => ?_, ?_, fun m hm => ?_⟩
  · rw [htake] at hc
    exact List.mem_takeWhile_imp (List.mem_of_mem_take hc)
  · rw [List.length_take]
    omega
  · have hmost : n ≤ m := by
      unfold Piece.reach at hn
      rw [hm] at hn
      exact hn.trans (Nat.min_le_left _ _)
    rw [List.length_take]
    omega

theorem le_reach (h : p.Takes x) : x.length ≤ p.reach (x ++ rest) := by
  have hrun : x.length ≤ ((x ++ rest).takeWhile p.cls).length := by
    rw [List.takeWhile_append_of_pos h.mem, List.length_append]
    omega
  unfold Piece.reach
  apply le_min _ hrun
  cases hm : p.most with
  | none => exact hrun
  | some m => exact h.most m hm

theorem fits_of_atStart (h : atStart ps s = some xs) : Fits ps xs ∧ ∃ rest, s = xs.flatten ++ rest := by
  induction ps generalizing s xs with
  | nil =>
    cases h
    exact ⟨.nil, s, rfl⟩
  | cons p ps ih =>
    obtain ⟨n, hl, hn, hf⟩ := descend_some h
    cases hps : atStart ps (s.drop n) with
    | none =>
      rw [hps] at hf
      cases hf
    | some ys =>
      rw [hps] at hf
      cases hf
      obtain ⟨hfits, rest, hrest⟩ := ih hps
      refine ⟨.cons (takes_of_le_reach hl hn) hfits, rest, ?_⟩
      rw [List.flatten_cons, List.append_assoc, ← hrest, List.take_append_drop]

theorem atStart_cons (hx : p.Takes x) (hend : p.most = some x.length ∨ ∀ c, rest.head? = some c → p.cls c = false)
    (h : atStart ps rest = some xs) : atStart (p :: ps) (x ++ rest) = some (x :: xs) := by
  have hreach : p.reach (x ++ rest) = x.length := by
    apply le_antisymm _ (le_reach hx)
    unfold Piece.reach
    rcases hend with hmost | hstop
    · rw [hmost]
      exact Nat.min_le_left _ _
    · have hrun : (x ++ rest).takeWhile p.cls = x := by
        rw [List.takeWhile_append_of_pos hx.mem]
        cases rest with
        | nil => simp
        | cons c rest => simp [hstop c rfl]
      rw [hrun]
      exact Nat.min_le_right _ _
  unfold atStart
  rw [hreach]
  apply descend_top hx.least
  rw [List.drop_left, List.take_left, h]
  rfl

theorem search_of_atStart (h : atStart ps s = some xs) : search ps s = some xs := by
  cases s with
  | nil => exact h
  | cons c s =>
    rw [search, h]
    rfl

theorem fits_of_search (h : search ps s = some xs) : Fits ps xs ∧ xs.flatten <:+: s := by
  induction s with
  | nil =>
    obtain ⟨hfits, rest, hrest⟩ := fits_of_atStart h
    exact ⟨hfits, [], rest, hrest.symm⟩
  | cons c s ih =>
    rw [search] at h
    cases hc : atStart ps (c :: s) with
    | some ys =>
      rw [hc] at h
      cases h
      obtain ⟨hfits, rest, hrest⟩ := fits_of_atStart hc
      exact ⟨hfits, [], rest, hrest.symm⟩
    | none =>
      rw [hc] at h
      obtain ⟨hfits, hpart⟩ := ih h
      exact ⟨hfits, hpart.trans (List.suffix_cons c s).isInfix⟩

end

end Pattern

end Alignak
