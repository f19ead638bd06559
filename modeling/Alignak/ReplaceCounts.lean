import Alignak.ReplaceParts
import Alignak.Strip
import Mathlib.Tactic.Linarith

/-!
# Counting what a replacement takes

A replacement takes the occurrences from the left. No other choice of
occurrences that do not overlap has more of them.
-/

namespace Alignak

/-- The number of occurrences that `replaceAfter` takes. -/
def countAfter (old : List Char) : Nat → List Char → Nat
  | _, [] => 0
  | covered + 1, _ :: text => countAfter old covered text
  | 0, c :: text => if old.isPrefixOf (c :: text) then countAfter old (old.length - 1) text + 1 else countAfter old 0 text

section
variable {old new text : List Char}

theorem countAfter_nil (k : Nat) : countAfter old k [] = 0 := by
  cases k <;> rfl

theorem countAfter_drop (text : List Char) : ∀ k, countAfter old k text = countAfter old 0 (text.drop k) := by
  induction text with
  | nil =>
    intro k
    rw [List.drop_nil, countAfter_nil, countAfter_nil]
  | cons c text ih =>
    intro k
    cases k with
    | zero => rfl
    | succ k => exact ih k

theorem replaceAfter_countP (p : Char → Bool) (hne : old ≠ []) (text : List Char) : ∀ k,
    (replaceAfter old new k text).countP p + (text.take k).countP p + countAfter old k text * old.countP p =
      text.countP p + countAfter old k text * new.countP p := by
  induction text with
  | nil =>
    intro k
    rw [List.take_nil, countAfter_nil]
    simp [replaceAfter]
  | cons c text ih =>
    intro k
    cases k with
    | succ k =>
      have hk := ih k
      simp only [replaceAfter, countAfter, List.take_succ_cons, List.countP_cons]
      omega
    | zero =>
      by_cases ho : old.isPrefixOf (c :: text) = true
      · have hk := ih (old.length - 1)
        have htake : old = c :: text.take (old.length - 1) := by
          have hp := List.prefix_iff_eq_take.mp (List.isPrefixOf_iff_prefix.mp ho)
          have hpos := List.length_pos_of_ne_nil hne
          rw [show old.length = old.length - 1 + 1 by omega, List.take_succ_cons] at hp
          exact hp
        have hcount : old.countP p = (text.take (old.length - 1)).countP p + if p c then 1 else 0 := by
          conv_lhs => rw [htake]
          rw [List.countP_cons]
        simp only [replaceAfter, countAfter, ho, if_true, List.take_zero, List.countP_nil, List.countP_append, List.countP_cons,
          Nat.add_mul, Nat.one_mul]
        omega
      · have hk := ih 0
        simp only [List.take_zero, List.countP_nil] at hk
        simp only [replaceAfter, countAfter, ho, Bool.false_eq_true, if_false, List.take_zero, List.countP_nil, List.countP_cons]
        omega

theorem replaceAfter_self (hne : old ≠ []) (text : List Char) : ∀ k, replaceAfter old old k text = text.drop k := by
  induction text with
  | nil =>
    intro k
    rw [List.drop_nil]
    cases k <;> rfl
  | cons c text ih =>
    intro k
    cases k with
    | succ k => exact ih k
    | zero =>
      rw [replaceAfter, List.drop_zero]
      split
      · have hp := List.prefix_iff_eq_append.mp (List.isPrefixOf_iff_prefix.mp ‹_›)
        have hpos := List.length_pos_of_ne_nil hne
        rw [show old.length = old.length - 1 + 1 by omega, List.drop_succ_cons] at hp
        rw [ih, hp]
      · rw [ih, List.drop_zero]

theorem replace_self (hne : old ≠ []) : replace old old text = text := replaceAfter_self hne text 0

theorem replaceAfter_drop (text : List Char) : ∀ k, replaceAfter old new k text = replaceAfter old new 0 (text.drop k) := by
  induction text with
  | nil =>
    intro k
    rw [List.drop_nil]
    cases k <;> rfl
  | cons c text ih =>
    intro k
    cases k with
    | zero => rfl
    | succ k => exact ih k

theorem replace_append_self (hne : old ≠ []) (text : List Char) :
    replace old new (old ++ text) = new ++ replace old new text := by
  cases old with
  | nil => exact absurd rfl hne
  | cons c old =>
    have hp : (c :: old).isPrefixOf (c :: (old ++ text)) = true :=
      List.isPrefixOf_iff_prefix.mpr (List.prefix_append (c :: old) text)
    unfold replace
    rw [List.cons_append, replaceAfter, if_pos hp, replaceAfter_drop]
    simp

theorem countAfter_bounds (n : Nat) : ∀ text : List Char, text.length ≤ n →
    (∀ k, countAfter old 0 (text.drop k) ≤ countAfter old 0 text) ∧
      ∀ k ≤ old.length, countAfter old 0 text ≤ countAfter old 0 (text.drop k) + 1 := by
  induction n with
  | zero =>
    intro text h
    rw [Nat.le_zero, List.length_eq_zero_iff] at h
    subst h
    simp [countAfter]
  | succ n ih =>
    intro text h
    cases text with
    | nil => simp [countAfter]
    | cons c text =>
      rw [List.length_cons] at h
      obtain ⟨hdrop, hpart⟩ := ih text (by omega)
      by_cases ho : old.isPrefixOf (c :: text) = true
      · have hcount : countAfter old 0 (c :: text) = countAfter old 0 (text.drop (old.length - 1)) + 1 := by
          rw [countAfter, if_pos ho, countAfter_drop]
        refine ⟨fun k => ?_, fun k hk => ?_⟩
        · cases k with
          | zero => exact Nat.le_refl _
          | succ k =>
            have h1 := hdrop k
            have h2 := hpart (old.length - 1) (by omega)
            rw [List.drop_succ_cons]
            omega
        · cases k with
          | zero => exact Nat.le_succ _
          | succ k =>
            have hlen : (text.drop k).length ≤ n := by
              rw [List.length_drop]
              omega
            have hrest := (ih (text.drop k) hlen).1 (old.length - 1 - k)
            rw [List.drop_drop, show k + (old.length - 1 - k) = old.length - 1 by omega] at hrest
            rw [List.drop_succ_cons]
            omega
      · have hcount : countAfter old 0 (c :: text) = countAfter old 0 text := by
          rw [countAfter, if_neg ho]
        refine ⟨fun k => ?_, fun k hk => ?_⟩
        · cases k with
          | zero => exact Nat.le_refl _
          | succ k =>
            rw [List.drop_succ_cons, hcount]
            exact hdrop k
        · cases k with
          | zero => exact Nat.le_succ _
          | succ k =>
            rw [List.drop_succ_cons, hcount]
            exact hpart k (by omega)

theorem countAfter_cons_le (c : Char) (text : List Char) : countAfter old 0 text ≤ countAfter old 0 (c :: text) :=
  (countAfter_bounds _ (c :: text) (Nat.le_refl _)).1 1

theorem countAfter_append_self (hne : old ≠ []) (text : List Char) :
    countAfter old 0 (old ++ text) = countAfter old 0 text + 1 := by
  cases old with
  | nil => exact absurd rfl hne
  | cons c old =>
    have hp : (c :: old).isPrefixOf (c :: (old ++ text)) = true :=
      List.isPrefixOf_iff_prefix.mpr (List.prefix_append (c :: old) text)
    rw [List.cons_append, countAfter, if_pos hp, countAfter_drop]
    simp

theorem countAfter_pos (hne : old ≠ []) (h : old <:+: text) : 0 < countAfter old 0 text := by
  obtain ⟨before, after, rfl⟩ := h
  rw [List.append_assoc]
  induction before with
  | nil =>
    rw [List.nil_append, countAfter_append_self hne]
    exact Nat.succ_pos _
  | cons c before ih => exact ih.trans_le (countAfter_cons_le c _)

theorem absent_of_replace_countP {p : Char → Bool} (hlt : new.countP p < old.countP p)
    (h : (replace old new text).countP p = text.countP p) : ¬ old <:+: text := by
  intro hi
  have hne : old ≠ [] := by
    rintro rfl
    simp at hlt
  have hcount := @replaceAfter_countP old new p hne text 0
  have hpos := countAfter_pos hne hi
  have hmul := (Nat.mul_lt_mul_left hpos).mpr hlt
  unfold replace at h
  rw [List.take_zero, List.countP_nil] at hcount
  omega

/-! ## Characters that no occurrence has -/

theorem not_crosses_sep {b : List Char} {c : Char} (hc : c ∉ old) : ∀ {a : List Char} {k : Nat}, k ≤ a.length →
    crossesAfter old k a (c :: b) = false
  | [], 0, _ => rfl
  | _ :: a, k + 1, hk => by
    rw [crossesAfter]
    exact not_crosses_sep hc (by simpa using hk)
  | d :: a, 0, _ => by
    rw [crossesAfter]
    by_cases ho : old.isPrefixOf (d :: (a ++ c :: b)) = true
    · rw [if_pos ho]
      refine not_crosses_sep hc ?_
      have hp : old <+: (d :: a) ++ c :: b := List.isPrefixOf_iff_prefix.mp ho
      rcases List.prefix_or_prefix_of_prefix hp (List.prefix_append (d :: a) _) with h | ⟨z, rfl⟩
      · have hle := h.length_le
        rw [List.length_cons] at hle
        omega
      · cases z with
        | nil => simp
        | cons e z =>
          obtain ⟨rfl, -⟩ := List.cons_prefix_cons.mp ((List.prefix_append_right_inj (d :: a)).mp hp)
          exact absurd (List.mem_append_right _ List.mem_cons_self) hc
    · rw [if_neg ho]
      exact not_crosses_sep hc (Nat.zero_le _)

theorem replace_cons_sep {b : List Char} {c : Char} (hne : old ≠ []) (hc : c ∉ old) :
    replace old new (c :: b) = c :: replace old new b := by
  have ho : ¬ old.isPrefixOf (c :: b) = true := by
    intro ho
    obtain ⟨t, e⟩ := List.isPrefixOf_iff_prefix.mp ho
    cases old with
    | nil => exact hne rfl
    | cons d old =>
      rw [List.cons_append, List.cons.injEq] at e
      exact hc (e.1 ▸ List.mem_cons_self)
  unfold replace
  rw [replaceAfter, if_neg ho]

theorem replace_append_sep {a b : List Char} {c : Char} (hne : old ≠ []) (hc : c ∉ old) :
    replace old new (a ++ c :: b) = replace old new a ++ c :: replace old new b := by
  rw [replace_append hne (not_crosses_sep hc (Nat.zero_le _)), replace_cons_sep hne hc]

/-! ## White space -/

theorem replaceAfter_ne_nil (hn : new ≠ []) (h : text ≠ []) : replaceAfter old new 0 text ≠ [] := by
  cases text with
  | nil => exact absurd rfl h
  | cons c text =>
    rw [replaceAfter]
    split
    · exact List.append_ne_nil_of_left_ne_nil hn _
    · exact List.cons_ne_nil _ _

theorem replaceAfter_last (hn : new ≠ []) (hs : ∀ c ∈ new, isSpace c = false) : ∀ (text : List Char) (k : Nat),
    (∀ h : text ≠ [], isSpace (text.getLast h) = false) →
    ∀ h : replaceAfter old new k text ≠ [], isSpace ((replaceAfter old new k text).getLast h) = false
  | [], k, _, h => absurd (by simp [replaceAfter]) h
  | c :: text, k + 1, hl, h => by
    rw [replaceAfter] at h
    refine replaceAfter_last hn hs text k (fun ht => ?_) h
    rw [← List.getLast_cons ht]
    exact hl (List.cons_ne_nil c text)
  | c :: text, 0, hl, h => by
    have hrest : ∀ k, ∀ h : replaceAfter old new k text ≠ [], isSpace ((replaceAfter old new k text).getLast h) = false := by
      intro k
      refine replaceAfter_last hn hs text k fun ht => ?_
      rw [← List.getLast_cons ht]
      exact hl (List.cons_ne_nil c text)
    by_cases ho : old.isPrefixOf (c :: text) = true
    · simp only [replaceAfter, ho, if_true]
      by_cases he : replaceAfter old new (old.length - 1) text = []
      · simp only [he, List.append_nil]
        exact hs _ (List.getLast_mem hn)
      · rw [List.getLast_append_of_ne_nil _ he]
        exact hrest _ he
    · simp only [replaceAfter, ho, Bool.false_eq_true, if_false]
      by_cases ht : text = []
      · subst ht
        exact hl (List.cons_ne_nil c [])
      · have he := @replaceAfter_ne_nil old _ _ hn ht
        rw [List.getLast_cons he]
        exact hrest 0 he

theorem strip_replace (hne : old ≠ []) (hn : new ≠ []) (ho : ∀ c ∈ old, isSpace c = false) (hs : ∀ c ∈ new, isSpace c = false)
    (text : List Char) : strip (replace old new text) = replace old new (strip text) := by
  have hleft : ∀ t : List Char, (replace old new t).dropWhile isSpace = replace old new (t.dropWhile isSpace) := by
    intro t
    induction t with
    | nil => rfl
    | cons c t ih =>
      by_cases hc : isSpace c = true
      · have hco : c ∉ old := fun hm => by rw [ho c hm] at hc; cases hc
        rw [replace_cons_sep hne hco, List.dropWhile_cons_of_pos hc, List.dropWhile_cons_of_pos hc]
        exact ih
      · rw [List.dropWhile_cons_of_neg hc]
        unfold replace
        rw [replaceAfter]
        split
        · cases new with
          | nil => exact absurd rfl hn
          | cons d new =>
            rw [List.cons_append, List.dropWhile_cons_of_neg (by rw [hs d List.mem_cons_self]; decide)]
        · rw [List.dropWhile_cons_of_neg hc]
  have hright : ∀ t : List Char, (replace old new t).rdropWhile isSpace = replace old new (t.rdropWhile isSpace) := by
    intro t
    induction t using List.reverseRecOn with
    | nil => rfl
    | append_singleton t c ih =>
      by_cases hc : isSpace c = true
      · have hco : c ∉ old := fun hm => by rw [ho c hm] at hc; cases hc
        have hnil : replace old new [] = [] := rfl
        rw [replace_append_sep hne hco, hnil, List.rdropWhile_concat_pos _ _ _ hc, List.rdropWhile_concat_pos _ _ _ hc]
        exact ih
      · rw [List.rdropWhile_concat_neg _ _ _ hc]
        refine List.rdropWhile_eq_self_iff.mpr fun h => ?_
        have hlast := @replaceAfter_last old _ hn hs (t ++ [c]) 0 (fun ht => by simpa using hc) h
        unfold replace
        rw [hlast]
        decide
  unfold strip
  rw [hleft, hright]

end

end Alignak
