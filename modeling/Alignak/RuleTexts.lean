import Alignak.RuleShapes
import Mathlib.Data.List.TakeDrop

/-!
# The texts that a level puts aside

The text of an item is shorter than the one of its level, so that fuel for the
length of a rule is enough (`shapeWithin_rule`).
-/

namespace Alignak

theorem length_strip_le (l : List Char) : (strip l).length ≤ l.length :=
  le_trans (List.rdropWhile_prefix _ _).length_le (List.length_dropWhile_le _ _)

namespace RuleScan

/-! ## Shorter texts -/

variable {s' : RuleScan (Bool × List Char)}

section
variable {N : Nat} {s : RuleScan (Bool × List Char)}

def Short (N : Nat) (s : RuleScan (Bool × List Char)) : Prop := ∀ item ∈ s.sons, item.2.length < N

structure Turn (s s' : RuleScan (Bool × List Char)) : Prop where
  sons : ∀ item ∈ s'.sons, item ∈ s.sons ∨ item.2.length ≤ s.tmp.length
  tmp : s'.tmp.length ≤ s.tmp.length + 1

theorem turn_addSon (s : RuleScan (Bool × List Char)) {text : List Char} (h : text.length ≤ s.tmp.length)
    (hsons : s'.sons = s.sons) (htmp : s'.tmp = text) : Turn s (Id.run (s'.addSon texts)) := by
  refine ⟨fun item hitem => ?_, Nat.zero_le _⟩
  have hmem : item ∈ s'.sons ++ [(s'.sonIsNot, s'.tmp)] := hitem
  rcases List.mem_append.mp hmem with hm | hm
  · exact .inl (hsons ▸ hm)
  · rw [List.mem_singleton.mp hm]
    exact .inr (htmp ▸ h)

theorem turn_of_sons (hsons : s'.sons = s.sons) (htmp : s'.tmp.length ≤ s.tmp.length + 1) :
    Turn s s' := ⟨fun _ hitem => .inl (hsons ▸ hitem), htmp⟩

theorem turn_cut (s : RuleScan (Bool × List Char)) (operator : Operator) : Turn s (Id.run (s.cut texts operator)) := by
  have hstrip := length_strip_le s.tmp
  by_cases h : s.Mixes operator
  · rw [cut_mixes h]
    exact turn_of_sons rfl (by show (strip s.tmp).length ≤ _; omega)
  · by_cases ht : strip s.tmp = []
    · rw [cut_blank h ht]
      exact turn_of_sons rfl (by show (strip s.tmp).length ≤ _; omega)
    · rw [cut_son h ht]
      exact turn_addSon s hstrip rfl rfl

theorem turn_step (s : RuleScan (Bool × List Char)) (char : Char) : Turn s (Id.run (s.step texts char)) := by
  have hstrip := length_strip_le s.tmp
  by_cases h1 : char = '('
  · subst h1
    rcases le_or_gt s.stackedParenthesis 0 with h | h
    · rw [step_open, open_outer h]
      exact turn_of_sons rfl (by show (strip s.tmp).length ≤ _; omega)
    · rw [step_open, open_nested h]
      refine turn_of_sons rfl ?_
      show (strip s.tmp ++ ['(']).length ≤ _
      simp only [List.length_append, List.length_singleton]
      omega
  by_cases h2 : char = ')'
  · subst h2
    rw [step_close]
    rcases lt_trichotomy (s.stackedParenthesis - 1) 0 with h | h | h
    · rw [close_error h]
      exact turn_of_sons rfl (Nat.le_succ _)
    · rw [close_son h]
      exact turn_addSon s hstrip rfl rfl
    · rw [close_inner h]
      exact turn_of_sons rfl (by show (s.tmp ++ [')']).length ≤ _; simp)
  have happend : (s.tmp ++ [char]).length ≤ s.tmp.length + 1 := by simp
  by_cases h3 : s.inPar = true
  · rw [step_inner h3 h1 h2]
    exact turn_of_sons rfl happend
  · rw [step_outer h3 h1 h2]
    split
    · by_cases h : strip s.tmp ≠ [] ∧ (strip s.tmp).head? ≠ some '!'
      · rw [markNot_text h]
        exact turn_of_sons rfl (by show (strip s.tmp).length ≤ _; omega)
      · rw [markNot_mark h]
        exact turn_of_sons rfl (by show (strip s.tmp).length ≤ _; omega)
    split
    · exact turn_cut s .and
    split
    · exact turn_cut s .or
    · exact turn_of_sons rfl happend

theorem Turn.short (h : Turn s s') (hs : Short N s) (ht : s.tmp.length < N) : Short N s' := by
  intro item hitem
  rcases h.sons item hitem with hm | hle
  · exact hs item hm
  · omega

theorem run_cons (chars : List Char) (char : Char) (s : RuleScan (Bool × List Char)) : Id.run (s.run texts (char :: chars)) =
    if (Id.run (s.step texts char)).isNone then Id.run (s.step texts char)
    else Id.run ((Id.run (s.step texts char)).run texts chars) := rfl

theorem run_short : ∀ (chars : List Char) (s : RuleScan (Bool × List Char)), Short N s → s.tmp.length + chars.length < N →
    Short N (Id.run (s.run texts chars)) ∧ (Id.run (s.run texts chars)).tmp.length < N
  | [], s, hs, hlen => ⟨hs, hlen⟩
  | char :: chars, s, hs, hlen => by
    simp only [List.length_cons] at hlen
    have hturn := turn_step s char
    have hs' := hturn.short hs (N := N) (by omega)
    have htmp := hturn.tmp
    rw [run_cons]
    split
    · exact ⟨hs', by omega⟩
    · exact run_short chars _ hs' (by omega)

structure Outer (s : RuleScan (Bool × List Char)) : Prop where
  inPar : s.inPar = false
  stacked : s.stackedParenthesis = 0

theorem outer_cut (h : s.Outer) {char : Char} (hc : "()&|".toList.contains char = true) :
    (Id.run (s.step texts char)).tmp.length ≤ s.tmp.length := by
  have hstrip := length_strip_le s.tmp
  have hcut : ∀ operator, (Id.run (s.cut texts operator)).tmp.length ≤ s.tmp.length := by
    intro operator
    by_cases hm : s.Mixes operator
    · rw [cut_mixes hm]
      exact hstrip
    · by_cases ht : strip s.tmp = []
      · rw [cut_blank hm ht]
        exact hstrip
      · rw [cut_son hm ht]
        exact Nat.zero_le _
  have hin : ¬ s.inPar = true := by rw [h.inPar]; exact Bool.false_ne_true
  have hchar : char = '(' ∨ char = ')' ∨ char = '&' ∨ char = '|' := by simpa using hc
  rcases hchar with rfl | rfl | rfl | rfl
  · rw [step_open, open_outer (by rw [h.stacked])]
    exact hstrip
  · rw [step_close, close_error (by rw [h.stacked]; decide)]
    exact le_refl _
  · rw [step_outer hin (by decide) (by decide)]
    exact hcut .and
  · rw [step_outer hin (by decide) (by decide)]
    exact hcut .or

theorem outer_step (h : s.Outer) {char : Char} (hc : ¬ "()&|".toList.contains char = true) :
    (Id.run (s.step texts char)).Outer ∧ (Id.run (s.step texts char)).isNone = s.isNone := by
  have hin : ¬ s.inPar = true := by rw [h.inPar]; exact Bool.false_ne_true
  have hchar : char ≠ '(' ∧ char ≠ ')' ∧ char ≠ '&' ∧ char ≠ '|' := by simpa using hc
  rw [step_outer hin hchar.1 hchar.2.1, if_neg hchar.2.2.1, if_neg hchar.2.2.2]
  split
  · by_cases h' : strip s.tmp ≠ [] ∧ (strip s.tmp).head? ≠ some '!'
    · rw [markNot_text h']
      exact ⟨⟨h.inPar, h.stacked⟩, rfl⟩
    · rw [markNot_mark h']
      exact ⟨⟨h.inPar, h.stacked⟩, rfl⟩
  · exact ⟨⟨h.inPar, h.stacked⟩, rfl⟩

theorem run_short_outer : ∀ (chars : List Char) (s : RuleScan (Bool × List Char)), s.Outer → Short N s →
    s.tmp.length + chars.length ≤ N → (∃ char ∈ chars, "()&|".toList.contains char = true) →
    Short N (Id.run (s.run texts chars)) ∧ (Id.run (s.run texts chars)).tmp.length < N
  | [], _, _, _, _, ⟨_, hc, _⟩ => absurd hc List.not_mem_nil
  | char :: chars, s, ho, hs, hlen, hex => by
    simp only [List.length_cons] at hlen
    have hturn := turn_step s char
    have hs' := hturn.short hs (N := N) (by omega)
    rw [run_cons]
    by_cases hc : "()&|".toList.contains char = true
    · have htmp := outer_cut ho hc
      split
      · exact ⟨hs', by omega⟩
      · exact run_short chars _ hs' (by omega)
    · obtain ⟨ho', hnone⟩ := outer_step ho hc
      have htmp := hturn.tmp
      have hex' : ∃ char ∈ chars, "()&|".toList.contains char = true := by
        obtain ⟨c, hmem, hcc⟩ := hex
        rcases List.mem_cons.mp hmem with rfl | hmem
        · exact absurd hcc hc
        · exact ⟨c, hmem, hcc⟩
      have hrest := run_short_outer chars _ ho' hs' (by omega) hex'
      split
      · exact ⟨hs', by
          have : 0 < chars.length := List.length_pos_of_mem hex'.choose_spec.1
          omega⟩
      · exact hrest

theorem finish_short (hs : Short N s) (ht : s.tmp.length < N) : Short N (Id.run (s.finish texts)) := by
  have hstrip := length_strip_le s.tmp
  by_cases h : strip s.tmp = []
  · rw [finish_blank h]
    exact hs
  · rw [finish_son h]
    have hturn : Turn s (Id.run (RuleScan.addSon texts { s with tmp := strip s.tmp })) := turn_addSon s hstrip rfl rfl
    exact hturn.short hs ht

theorem level_short {operand : Option Operator} {pattern : List Char}
    (h : pattern.length < N ∨ pattern.length ≤ N ∧ ∃ char ∈ pattern, "()&|".toList.contains char = true) :
    Short N (level operand pattern) := by
  have hstart : Short N (start operand) := fun item hitem => absurd hitem List.not_mem_nil
  have hrun : Short N (Id.run ((start operand).run texts pattern)) ∧ (Id.run ((start operand).run texts pattern)).tmp.length < N := by
    rcases h with hlt | ⟨hle, hex⟩
    · exact run_short pattern _ hstart (by show 0 + _ < _; omega)
    · exact run_short_outer pattern _ ⟨rfl, rfl⟩ hstart (by show 0 + _ ≤ _; omega) hex
  unfold level
  simp only
  split
  · exact hrun.1
  · exact finish_short hrun.1 hrun.2

end

end RuleScan

namespace DependencyNodeFactory

/-! ## Enough fuel -/

theorem takeOne_suffix (char : Char) (pattern : List Char) : (takeOne char pattern).2 <:+ pattern := by
  unfold takeOne
  split
  · exact List.tail_suffix _
  · exact List.suffix_refl _

theorem thresholdPrefix_suffix (pattern : List Char) : (thresholdPrefix pattern).2 <:+ pattern := by
  unfold thresholdPrefix
  simp only [List.span_eq_takeWhile_dropWhile]
  exact (takeOne_suffix _ _).trans ((List.dropWhile_suffix _).trans (takeOne_suffix _ _))

def afterThresholds (pattern : List Char) : List Char :=
  (thresholdPrefix ((thresholdPrefix ((thresholdPrefix pattern).2.dropWhile (· = ','))).2.dropWhile (· = ','))).2

theorem afterThresholds_suffix (pattern : List Char) : afterThresholds pattern <:+ pattern :=
  (thresholdPrefix_suffix _).trans ((List.dropWhile_suffix _).trans ((thresholdPrefix_suffix _).trans
    ((List.dropWhile_suffix _).trans (thresholdPrefix_suffix _))))

variable {pattern : List Char}

theorem lineAfter_le {line : List Char} (h : lineAfter pattern = some line) : line.length ≤ pattern.length := by
  unfold lineAfter at h
  simp only at h
  split at h
  · cases h
    exact le_trans (List.takeWhile_prefix _).length_le (List.length_dropWhile_le _ _)
  · split at h
    · cases h
      cases pattern with
      | nil => contradiction
      | cons c rest => exact Nat.succ_le_succ (Nat.zero_le _)
    · cases h

theorem afterOf_lt {line : List Char} (h : afterOf pattern = some line) : line.length < pattern.length := by
  unfold afterOf at h
  split at h
  next rest hrest =>
    have hle := List.length_dropWhile_le (· = ' ') pattern
    have hline := lineAfter_le h
    rw [hrest] at hle
    simp only [List.length_cons] at hle
    omega
  · cases h

theorem evalXofPattern_lt {xof : XofPrefix} (h : evalXofPattern pattern = some xof) :
    xof.rest.length < pattern.length := by
  unfold evalXofPattern at h
  simp only at h
  split at h
  · obtain ⟨line, hline, e⟩ := Option.map_eq_some_iff.mp h
    have hlast : xof.rest = line := by
      rw [← e]
      split <;> rfl
    have hafter : line.length < (afterThresholds pattern).length := afterOf_lt hline
    rw [hlast]
    exact lt_of_lt_of_le hafter (afterThresholds_suffix pattern).length_le
  · cases h

theorem items_short (h : isComplex pattern = true) :
    RuleScan.Short pattern.length (RuleScan.level (startNode pattern).2 (startNode pattern).1.rest) := by
  apply RuleScan.level_short
  unfold startNode
  cases hx : evalXofPattern pattern with
  | some xof => exact .inl (evalXofPattern_lt hx)
  | none => exact .inr ⟨le_refl _, List.any_eq_true.mp h⟩

theorem shapeWithin_eq : ∀ {f g : Nat} {pattern : List Char}, pattern.length < f → pattern.length < g →
    shapeWithin f pattern = shapeWithin g pattern
  | 0, _, _, h, _ => absurd h (Nat.not_lt_zero _)
  | _, 0, _, _, h => absurd h (Nat.not_lt_zero _)
  | f + 1, g + 1, pattern, hf, hg => by
    rw [shapeWithin, shapeWithin]
    simp only
    split
    next hc =>
      have hshort := items_short hc
      have hstrip := length_strip_le pattern
      congr 1
      refine List.map_congr_left fun item hitem => ?_
      have hitem' := hshort item hitem
      rw [shapeWithin_eq (f := f) (g := g) (by omega) (by omega)]
    · rfl

def ruleShape (pattern : List Char) : RuleShape := shapeWithin (pattern.length + 1) pattern

theorem shapeWithin_rule {fuel : Nat} (h : pattern.length < fuel) :
    shapeWithin fuel pattern = ruleShape pattern := shapeWithin_eq h (Nat.lt_succ_self _)

theorem ruleShape_simple (h : isComplex (strip pattern) = false) :
    ruleShape pattern = .operand (strip pattern) := by
  rw [ruleShape, shapeWithin]
  simp only [h, Bool.false_eq_true, if_false]

theorem ruleShape_complex (h : isComplex (strip pattern) = true) :
    ruleShape pattern =
      let (node, operand) := startNode (strip pattern)
      let level := RuleScan.level operand node.rest
      .level node.values node.isOfMul level.operand (level.sons.map fun item => (item.1, ruleShape item.2)) level.isNone := by
  rw [ruleShape, shapeWithin]
  simp only [h, if_true]
  have hshort := items_short h
  have hstrip := length_strip_le pattern
  congr 1
  refine List.map_congr_left fun item hitem => ?_
  have hitem' := hshort item hitem
  rw [shapeWithin_rule (by omega)]

section
variable {ν : Type} (scope : RuleScope ν)

def ruleTree (pattern : List Char) : Except Exn (Option (DependencyNode ν)) := evalCorPattern scope (pattern.length + 1) pattern

/-- Any fuel over the length of the text gives its tree. -/
theorem evalCorPattern_tree {fuel : Nat} (h : pattern.length < fuel) :
    evalCorPattern scope fuel pattern = ruleTree scope pattern := by
  rw [ruleTree, evalCorPattern_eq, evalCorPattern_eq, shapeWithin_rule h]
  rfl

theorem ruleTree_eq (pattern : List Char) : ruleTree scope pattern = build scope (ruleShape pattern) :=
  evalCorPattern_eq scope _ pattern

end

end DependencyNodeFactory

end Alignak
