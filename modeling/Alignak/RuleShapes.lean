import Alignak.BusinessRules

/-!
# The shape of a business rule

What a rule text says, apart from its operands: the levels of parentheses, the
operator of each and its items with their marks.
-/

namespace Alignak

/-- `spent` stands for a text that there was no fuel for. -/
inductive RuleShape
  | operand (pattern : List Char)
  | level (values : OfValues) (isOfMul : Bool) (operator : Option Operator) (items : List (Bool × RuleShape)) (isNone : Bool)
  | spent

namespace RuleScan

/-! ## The cases of a turn -/

section
variable {m : Type → Type} [Monad m] {β : Type} {newSon : Bool → List Char → m β} {s : RuleScan β} {operator : Operator}

theorem open_nested (h : 0 < s.stackedParenthesis) : s.openParenthesis =
    { s with stackedParenthesis := s.stackedParenthesis + 1, inPar := true, tmp := strip s.tmp ++ ['('] } := by
  have h1 : ¬ (s.stackedParenthesis + 1 = 1 ∧ strip s.tmp ≠ []) := fun ⟨e, _⟩ => by omega
  exact (if_neg h1).trans (if_pos (by show 1 < s.stackedParenthesis + 1; omega))

theorem open_outer (h : s.stackedParenthesis ≤ 0) : s.openParenthesis =
    { s with stackedParenthesis := s.stackedParenthesis + 1, inPar := true, tmp := strip s.tmp } := by
  by_cases h1 : s.stackedParenthesis + 1 = 1 ∧ strip s.tmp ≠ []
  · exact if_pos h1
  · exact (if_neg h1).trans (if_neg (by show ¬ 1 < s.stackedParenthesis + 1; omega))

theorem close_error (h : s.stackedParenthesis - 1 < 0) :
    s.closeParenthesis newSon = pure { s with stackedParenthesis := s.stackedParenthesis - 1 } := if_pos h

theorem close_son (h : s.stackedParenthesis - 1 = 0) : s.closeParenthesis newSon =
    addSon newSon { s with stackedParenthesis := s.stackedParenthesis - 1, tmp := strip s.tmp, inPar := false } :=
  (if_neg (by show ¬ s.stackedParenthesis - 1 < 0; omega)).trans (if_pos h)

theorem close_inner (h : 0 < s.stackedParenthesis - 1) : s.closeParenthesis newSon =
    pure { s with stackedParenthesis := s.stackedParenthesis - 1, tmp := s.tmp ++ [')'] } :=
  (if_neg (by show ¬ s.stackedParenthesis - 1 < 0; omega)).trans (if_neg (by show ¬ s.stackedParenthesis - 1 = 0; omega))

theorem markNot_text (h : strip s.tmp ≠ [] ∧ (strip s.tmp).head? ≠ some '!') : s.markNot = { s with tmp := strip s.tmp } := if_pos h

theorem markNot_mark (h : ¬ (strip s.tmp ≠ [] ∧ (strip s.tmp).head? ≠ some '!')) :
    s.markNot = { s with tmp := strip s.tmp, sonIsNot := true } := if_neg h

def Mixes (s : RuleScan β) (operator : Operator) : Prop :=
  s.operand ≠ none ∧ s.operand ≠ some .of ∧ s.operand ≠ some operator

theorem cut_mixes (h : s.Mixes operator) : s.cut newSon operator = pure { s with tmp := strip s.tmp, isNone := true } := if_pos h

theorem cut_son (h : ¬ s.Mixes operator) (ht : strip s.tmp ≠ []) : s.cut newSon operator =
    addSon newSon { s with tmp := strip s.tmp, operand := if s.operand ≠ some .of then some operator else s.operand } :=
  (if_neg h).trans (if_pos ht)

theorem cut_blank (h : ¬ s.Mixes operator) (ht : strip s.tmp = []) : s.cut newSon operator =
    pure { s with tmp := strip s.tmp, operand := if s.operand ≠ some .of then some operator else s.operand } :=
  (if_neg h).trans (if_neg (not_not.mpr ht))

theorem finish_blank (h : strip s.tmp = []) : s.finish newSon = pure { s with tmp := strip s.tmp } := if_neg (not_not.mpr h)

theorem finish_son (h : strip s.tmp ≠ []) : s.finish newSon = addSon newSon { s with tmp := strip s.tmp } := if_pos h

theorem step_open : s.step newSon '(' = pure s.openParenthesis := if_pos rfl

theorem step_close : s.step newSon ')' = s.closeParenthesis newSon := rfl

variable {char : Char}

theorem step_inner (h : s.inPar = true) (h1 : char ≠ '(') (h2 : char ≠ ')') :
    s.step newSon char = pure { s with tmp := s.tmp ++ [char] } :=
  (if_neg h1).trans ((if_neg h2).trans (if_pos h))

theorem step_outer (h : ¬ s.inPar = true) (h1 : char ≠ '(') (h2 : char ≠ ')') : s.step newSon char =
    if char = '!' then pure s.markNot
    else if char = '&' then s.cut newSon .and
    else if char = '|' then s.cut newSon .or
    else pure { s with tmp := s.tmp ++ [char] } :=
  (if_neg h1).trans ((if_neg h2).trans (if_neg h))

end

/-! ## The texts of a level -/

def texts (sonIsNot : Bool) (tmp : List Char) : Id (Bool × List Char) := (sonIsNot, tmp)

def withSons {α β : Type} (s : RuleScan α) (sons : List β) : RuleScan β :=
  ⟨s.operand, sons, s.tmp, s.inPar, s.sonIsNot, s.stackedParenthesis, s.isNone⟩

section
variable {m : Type → Type} [Monad m] [LawfulMonad m] {α : Type} {newSon : Bool → List Char → m α}

def Makes (newSon : Bool → List Char → m α) (s s' : RuleScan (Bool × List Char)) (turn : List α → m (RuleScan α)) : Prop :=
  ∃ added, s'.sons = s.sons ++ added ∧
    ∀ sons, turn sons = added.mapM (fun item => newSon item.1 item.2) >>= fun new => pure (s'.withSons (sons ++ new))

theorem Makes.none {s s' : RuleScan (Bool × List Char)} {turn : List α → m (RuleScan α)} (h : s'.sons = s.sons)
    (ht : ∀ sons, turn sons = pure (s'.withSons sons)) : Makes newSon s s' turn :=
  ⟨[], by rw [h, List.append_nil], fun sons => by rw [ht]; simp⟩

omit [LawfulMonad m] in
theorem Makes.congr {s s' : RuleScan (Bool × List Char)} {turn turn' : List α → m (RuleScan α)} (h : Makes newSon s s' turn)
    (e : ∀ sons, turn' sons = turn sons) : Makes newSon s s' turn' := by
  rw [funext e]
  exact h

theorem makes_addSon (s : RuleScan (Bool × List Char)) :
    Makes newSon s (Id.run (s.addSon texts)) fun sons => (s.withSons sons).addSon newSon := by
  refine ⟨[(s.sonIsNot, s.tmp)], rfl, fun sons => ?_⟩
  simp only [List.mapM_cons, List.mapM_nil, bind_assoc, pure_bind]
  rfl

theorem makes_close (s : RuleScan (Bool × List Char)) :
    Makes newSon s (Id.run (s.closeParenthesis texts)) fun sons => (s.withSons sons).closeParenthesis newSon := by
  rcases lt_trichotomy (s.stackedParenthesis - 1) 0 with h | h | h
  · rw [close_error h]
    exact Makes.none rfl fun sons => close_error (s := s.withSons sons) h
  · rw [close_son h]
    have hclose : ∀ sons : List α, (s.withSons sons).closeParenthesis newSon = _ := fun sons => close_son (s := s.withSons sons) h
    simp only [hclose]
    exact makes_addSon { s with stackedParenthesis := s.stackedParenthesis - 1, tmp := strip s.tmp, inPar := false }
  · rw [close_inner h]
    exact Makes.none rfl fun sons => close_inner (s := s.withSons sons) h

theorem makes_cut (s : RuleScan (Bool × List Char)) (operator : Operator) :
    Makes newSon s (Id.run (s.cut texts operator)) fun sons => (s.withSons sons).cut newSon operator := by
  by_cases h : s.Mixes operator
  · rw [cut_mixes h]
    exact Makes.none rfl fun sons => cut_mixes (s := s.withSons sons) h
  · by_cases ht : strip s.tmp = []
    · rw [cut_blank h ht]
      exact Makes.none rfl fun sons => cut_blank (s := s.withSons sons) h ht
    · rw [cut_son h ht]
      have hcut : ∀ sons : List α, (s.withSons sons).cut newSon operator = _ := fun sons => cut_son (s := s.withSons sons) h ht
      simp only [hcut]
      exact makes_addSon { s with
        tmp := strip s.tmp
        operand := if s.operand ≠ some .of then some operator else s.operand }

theorem makes_open (s : RuleScan (Bool × List Char)) :
    Makes newSon s s.openParenthesis fun sons => pure (s.withSons sons).openParenthesis := by
  rcases le_or_gt s.stackedParenthesis 0 with h | h
  · rw [open_outer h]
    exact Makes.none rfl fun sons => congrArg pure (open_outer (s := s.withSons sons) h)
  · rw [open_nested h]
    exact Makes.none rfl fun sons => congrArg pure (open_nested (s := s.withSons sons) h)

theorem makes_markNot (s : RuleScan (Bool × List Char)) :
    Makes newSon s s.markNot fun sons => pure (s.withSons sons).markNot := by
  by_cases h : strip s.tmp ≠ [] ∧ (strip s.tmp).head? ≠ some '!'
  · rw [markNot_text h]
    exact Makes.none rfl fun sons => congrArg pure (markNot_text (s := s.withSons sons) h)
  · rw [markNot_mark h]
    exact Makes.none rfl fun sons => congrArg pure (markNot_mark (s := s.withSons sons) h)

variable (newSon) in
theorem makes_step (s : RuleScan (Bool × List Char)) (char : Char) :
    Makes newSon s (Id.run (s.step texts char)) fun sons => (s.withSons sons).step newSon char := by
  by_cases h1 : char = '('
  · subst h1
    exact (makes_open s).congr fun sons => step_open
  by_cases h2 : char = ')'
  · subst h2
    exact makes_close s
  by_cases h3 : s.inPar = true
  · rw [step_inner h3 h1 h2]
    exact Makes.none rfl fun sons => step_inner (s := s.withSons sons) h3 h1 h2
  · rw [step_outer h3 h1 h2]
    refine Makes.congr ?_ fun sons => step_outer (s := s.withSons sons) h3 h1 h2
    split
    · exact makes_markNot s
    split
    · exact makes_cut s .and
    split
    · exact makes_cut s .or
    · exact Makes.none rfl fun sons => rfl

variable (newSon) in
theorem makes_run : ∀ (chars : List Char) (s : RuleScan (Bool × List Char)),
    Makes newSon s (Id.run (s.run texts chars)) fun sons => (s.withSons sons).run newSon chars
  | [], s => Makes.none rfl fun sons => rfl
  | char :: chars, s => by
    obtain ⟨added, hadded, hstep⟩ := makes_step newSon s char
    obtain ⟨added', hadded', hrun⟩ := makes_run chars (Id.run (s.step texts char))
    have hturn : ∀ sons : List α, (s.withSons sons).run newSon (char :: chars) =
        added.mapM (fun item => newSon item.1 item.2) >>= fun new =>
          if (Id.run (s.step texts char)).isNone then pure ((Id.run (s.step texts char)).withSons (sons ++ new))
          else ((Id.run (s.step texts char)).withSons (sons ++ new)).run newSon chars := by
      intro sons
      rw [run, show (s.withSons sons).step newSon char = _ from hstep sons, bind_assoc]
      simp only [pure_bind]
      rfl
    have htexts : Id.run (s.run texts (char :: chars)) = if (Id.run (s.step texts char)).isNone then Id.run (s.step texts char)
        else Id.run ((Id.run (s.step texts char)).run texts chars) := rfl
    by_cases hn : (Id.run (s.step texts char)).isNone = true
    · refine ⟨added, by rw [htexts, if_pos hn, hadded], fun sons => ?_⟩
      refine (hturn sons).trans ?_
      rw [htexts, if_pos hn]
      simp only [hn, if_true]
    · refine ⟨added ++ added', by rw [htexts, if_neg hn, hadded', hadded, List.append_assoc], fun sons => ?_⟩
      refine (hturn sons).trans ?_
      rw [htexts, if_neg hn, List.mapM_append]
      simp only [hn, Bool.false_eq_true, if_false, hrun, bind_assoc, pure_bind, List.append_assoc]

variable (newSon) in
theorem makes_finish (s : RuleScan (Bool × List Char)) :
    Makes newSon s (Id.run (s.finish texts)) fun sons => (s.withSons sons).finish newSon := by
  by_cases h : strip s.tmp = []
  · rw [finish_blank h]
    exact Makes.none rfl fun sons => finish_blank (s := s.withSons sons) h
  · rw [finish_son h]
    exact (makes_addSon { s with tmp := strip s.tmp }).congr fun sons => finish_son (s := s.withSons sons) h

def level (operand : Option Operator) (pattern : List Char) : RuleScan (Bool × List Char) :=
  let s := Id.run ((start operand).run texts pattern)
  if s.isNone then s else Id.run (s.finish texts)

variable (newSon) in
theorem makes_level (operand : Option Operator) (pattern : List Char) : ((start operand).run newSon pattern >>= fun s =>
      if s.isNone then pure s else s.finish newSon) =
    (level operand pattern).sons.mapM (fun item => newSon item.1 item.2) >>= fun sons =>
      pure ((level operand pattern).withSons sons) := by
  obtain ⟨added, hadded, hrun⟩ := makes_run newSon pattern (start operand)
  obtain ⟨added', hadded', hfinish⟩ := makes_finish newSon (Id.run ((start operand).run texts pattern))
  rw [show (start operand).run newSon pattern = _ from hrun [], bind_assoc]
  simp only [pure_bind, List.nil_append]
  by_cases hn : (Id.run ((start operand).run texts pattern)).isNone = true
  · rw [show level operand pattern = Id.run ((start operand).run texts pattern) from if_pos hn, hadded]
    refine bind_congr fun sons => ?_
    exact if_pos hn
  · rw [show level operand pattern = Id.run ((Id.run ((start operand).run texts pattern)).finish texts) from if_neg hn, hadded',
      hadded, List.mapM_append, bind_assoc]
    refine bind_congr fun sons => ?_
    rw [bind_assoc]
    exact (if_neg hn).trans ((hfinish sons).trans (bind_congr fun _ => by rw [pure_bind]))

end

end RuleScan

namespace DependencyNodeFactory

/-! ## Shapes -/

/-- The shape of a text, with fuel for the depth of its parentheses. -/
def shapeWithin : Nat → List Char → RuleShape
  | 0, _ => .spent
  | fuel + 1, pattern =>
    let pattern := strip pattern
    if isComplex pattern then
      let (node, operand) := startNode pattern
      let level := RuleScan.level operand node.rest
      .level node.values node.isOfMul level.operand (level.sons.map fun item => (item.1, shapeWithin fuel item.2)) level.isNone
    else .operand pattern

section
variable {ν : Type} (scope : RuleScope ν)

mutual
def build : RuleShape → Except Exn (Option (DependencyNode ν))
  | .operand pattern => (evalSimpleCorPattern scope pattern).map some
  | .spent => .error .diverges
  | .level values isOfMul operator items isNone => do
    let sons ← buildItems items
    if isNone then return none
    else return some (.level operator sons (DependencyNode.switchZeros sons.length values) isOfMul false [])

def buildItems : List (Bool × RuleShape) → Except Exn (List (Option (DependencyNode ν)))
  | [] => .ok []
  | (sonIsNot, shape) :: items => do
    let son ← build shape
    let son ← markSon sonIsNot son
    let sons ← buildItems items
    return son :: sons
end

theorem buildItems_eq (eval : List Char → Except Exn (Option (DependencyNode ν))) (shape : List Char → RuleShape)
    (h : ∀ text, eval text = build scope (shape text)) : ∀ items : List (Bool × List Char),
    items.mapM (fun item => newSon eval item.1 item.2) = buildItems scope (items.map fun item => (item.1, shape item.2))
  | [] => rfl
  | (sonIsNot, text) :: items => by
    rw [List.mapM_cons, buildItems_eq eval shape h items, List.map_cons, buildItems, newSon, h, bind_assoc]

theorem evalComplexCorPattern_eq (eval : List Char → Except Exn (Option (DependencyNode ν))) (pattern : List Char) :
    evalComplexCorPattern eval pattern = (do
      let level := RuleScan.level (startNode pattern).2 (startNode pattern).1.rest
      let sons ← level.sons.mapM fun item => newSon eval item.1 item.2
      if level.isNone then return none else return some (levelNode (startNode pattern).1 (level.withSons sons))) := by
  have hlevel := RuleScan.makes_level (newSon eval) (startNode pattern).2 (startNode pattern).1.rest
  -- the last son does not change what is returned
  have hlast : ∀ s : RuleScan (Option (DependencyNode ν)), ∀ k : RuleScan (Option (DependencyNode ν)) → DependencyNode ν,
      (if s.isNone then pure none else s.finish (newSon eval) >>= fun s => pure (some (k s))) =
      (if s.isNone then pure s else s.finish (newSon eval)) >>= fun s => if s.isNone then pure none else pure (some (k s)) := by
    intro s k
    cases hn : s.isNone with
    | true => simp only [if_true, pure_bind, hn]
    | false =>
      simp only [Bool.false_eq_true, if_false]
      by_cases ht : strip s.tmp = []
      · rw [RuleScan.finish_blank ht, pure_bind, pure_bind]
        simp only [hn, Bool.false_eq_true, if_false]
      · rw [RuleScan.finish_son ht]
        simp only [RuleScan.addSon, bind_assoc, pure_bind, hn, Bool.false_eq_true, if_false]
  unfold evalComplexCorPattern
  simp only [hlast]
  rw [← bind_assoc, hlevel, bind_assoc]
  simp only [pure_bind]
  rfl

theorem evalCorPattern_eq : ∀ (fuel : Nat) (pattern : List Char),
    evalCorPattern scope fuel pattern = build scope (shapeWithin fuel pattern)
  | 0, _ => rfl
  | fuel + 1, pattern => by
    rw [evalCorPattern, shapeWithin]
    simp only
    split
    · rw [evalComplexCorPattern_eq, build]
      simp only
      rw [buildItems_eq scope _ _ (evalCorPattern_eq fuel)]
      rfl
    · rfl

end

end DependencyNodeFactory

end Alignak
