import Alignak.RuleBlanks

/-!
# Negated expressions

A level makes one son of a text in balanced parentheses, and marks it that it is
not when a `!` stands before them (`addsSon_negated`).
-/

namespace Alignak

/-! ## Balanced parentheses -/

def depthAfter : Nat → List Char → Option Nat
  | depth, [] => some depth
  | depth, '(' :: l => depthAfter (depth + 1) l
  | 0, ')' :: _ => none
  | depth + 1, ')' :: l => depthAfter depth l
  | depth, _ :: l => depthAfter depth l

def Balanced (E : List Char) : Prop := depthAfter 0 E = some 0

instance (E : List Char) : Decidable (Balanced E) := inferInstanceAs (Decidable (_ = _))

theorem depthAfter_other {c : Char} (h1 : c ≠ '(') (h2 : c ≠ ')') (depth : Nat) (l : List Char) :
    depthAfter depth (c :: l) = depthAfter depth l := by
  cases depth <;> simp [depthAfter, h2]

namespace RuleScan

variable {m : Type → Type} [Monad m] [LawfulMonad m] {α : Type} {newSon : Bool → List Char → m α}

theorem run_inner : ∀ {E post : List Char} {depth depth' : Nat} {s : RuleScan α}, s.inPar = true → s.isNone = false →
    s.stackedParenthesis = depth + 1 → depthAfter depth E = some depth' → s.run newSon (E ++ post) =
      ({ s with tmp := stored s.tmp E, stackedParenthesis := depth' + 1 } : RuleScan α).run newSon post
  | [], post, depth, depth', s, _, _, hs, hE => by
    cases hE
    rw [← hs]
    rfl
  | c :: E, post, depth, depth', s, hin, hn, hs, hE => by
    have hif : ¬ s.isNone = true := by rw [hn]; exact Bool.false_ne_true
    rw [List.cons_append, run]
    by_cases h1 : c = '('
    · subst h1
      have hE' : depthAfter (depth + 1) E = some depth' := hE
      rw [step_open, open_nested (by omega), pure_bind]
      refine (if_neg hif).trans ?_
      rw [run_inner (s := { s with
        stackedParenthesis := s.stackedParenthesis + 1, inPar := true, tmp := strip s.tmp ++ ['('] }) rfl hn
        (by show s.stackedParenthesis + 1 = _; rw [hs]; rfl) hE']
      congr 1
      rw [mk.injEq]
      exact ⟨rfl, rfl, rfl, hin.symm, rfl, rfl, rfl⟩
    by_cases h2 : c = ')'
    · subst h2
      cases depth with
      | zero => cases hE
      | succ depth =>
        have hE' : depthAfter depth E = some depth' := hE
        rw [step_close, close_inner (by omega), pure_bind]
        refine (if_neg hif).trans ?_
        exact run_inner (s := { s with stackedParenthesis := s.stackedParenthesis - 1, tmp := s.tmp ++ [')'] }) hin hn
          (by show s.stackedParenthesis - 1 = _; rw [hs]; omega) hE'
    · rw [step_inner hin h1 h2, pure_bind]
      refine (if_neg hif).trans ?_
      rw [depthAfter_other h1 h2] at hE
      rw [run_inner (s := { s with tmp := s.tmp ++ [c] }) hin hn hs hE]
      simp only [stored, List.foldl_cons, if_neg h1]

structure Fresh (s : RuleScan α) : Prop where
  tmp : strip s.tmp = []
  inPar : s.inPar = false
  stacked : s.stackedParenthesis = 0
  isNone : s.isNone = false

theorem run_parenthesised {s : RuleScan α} (h : s.Fresh) {E : List Char} (hE : Balanced E) (post : List Char) :
    s.run newSon ('(' :: E ++ ')' :: post) = newSon s.sonIsNot (DependencyNodeFactory.inside E) >>= fun son =>
      ({ s with sons := s.sons ++ [son], sonIsNot := false, tmp := [] } : RuleScan α).run newSon post := by
  have hif : ¬ s.isNone = true := by rw [h.isNone]; exact Bool.false_ne_true
  have hstacked := h.stacked
  rw [List.cons_append, run, step_open, open_outer (by omega), pure_bind]
  refine (if_neg hif).trans ?_
  rw [run_inner (s := { s with stackedParenthesis := s.stackedParenthesis + 1, inPar := true, tmp := strip s.tmp }) rfl h.isNone
    (by show s.stackedParenthesis + 1 = _; rw [hstacked]; rfl) hE]
  rw [run, step_close, close_son rfl, h.tmp, addSon, bind_assoc]
  refine bind_congr fun son => ?_
  rw [pure_bind]
  refine (if_neg hif).trans ?_
  congr 1
  cases s
  simp only [mk.injEq]
  exact ⟨trivial, trivial, trivial, h.inPar.symm, trivial, hstacked.symm, trivial⟩

theorem run_negated {s : RuleScan α} (h : s.Fresh) {E : List Char} (hE : Balanced E) (post : List Char) :
    s.run newSon ('!' :: '(' :: E ++ ')' :: post) = newSon true (DependencyNodeFactory.inside E) >>= fun son =>
      ({ s with sons := s.sons ++ [son], sonIsNot := false, tmp := [] } : RuleScan α).run newSon post := by
  have hif : ¬ s.isNone = true := by rw [h.isNone]; exact Bool.false_ne_true
  have hin : ¬ s.inPar = true := by rw [h.inPar]; exact Bool.false_ne_true
  rw [List.cons_append, List.cons_append, run, step_outer hin (by decide) (by decide), if_pos rfl, pure_bind,
    markNot_mark (fun hn => hn.1 h.tmp)]
  refine (if_neg hif).trans ?_
  have hfresh : ({ s with tmp := strip s.tmp, sonIsNot := true } : RuleScan α).Fresh :=
    ⟨by show strip (strip s.tmp) = []; rw [h.tmp]; rfl, h.inPar, h.stacked, h.isNone⟩
  exact run_parenthesised hfresh hE post

end RuleScan

namespace DependencyNode

variable {ν : Type} {n : DependencyNode ν} {items : RuleItems ν}

/-! ## The mark on a node -/

/-- The mark reverses the state of the node. A node without an operand and an
unknown operand have the state 4 with and without it. -/
def Reversible : DependencyNode ν → Prop
  | leaf .host _ _ => False
  | leaf .service _ notValue => notValue = false
  | object _ _ => True
  | level none _ _ _ _ _ => True
  | level (some operand) sons ofValues isOfMul notValue errors => notValue = true → ∀ items : RuleItems ν,
      getState items (level (some operand) sons ofValues isOfMul notValue errors) ≠ .ok 0 ∧
      getState items (level (some operand) sons ofValues isOfMul notValue errors) ≠ .ok 2

theorem reverse_eq_four {k : Nat} : getReverseState k = 4 ↔ k = 4 := by
  unfold getReverseState
  repeat' split
  all_goals omega

theorem reverse_fixed {k : Nat} : k = getReverseState k ↔ k ≠ 0 ∧ k ≠ 2 := by
  unfold getReverseState
  repeat' split
  all_goals omega

def inState (k : Nat) : RuleItems ν := ⟨fun _ _ => ⟨k, false, false⟩, fun _ _ _ => false⟩

theorem service_reverse (item : Watched) : getServiceNodeState item true = getReverseState (getServiceNodeState item false) := by
  unfold getServiceNodeState getReverseState
  generalize maskedState item item.lastHardStateId = k
  simp only [if_true, Bool.false_eq_true, if_false]
  repeat' split
  all_goals omega

theorem withNot_reverses_iff :
    (∀ items : RuleItems ν, n.withNot.getState items = (n.getState items).map getReverseState) ↔ n.Reversible := by
  cases n with
  | object notValue error => exact ⟨fun _ => trivial, fun _ _ => rfl⟩
  | leaf kind uuid notValue =>
    cases kind with
    | host =>
      -- an unreachable host
      refine ⟨fun h => ?_, fun h => h.elim⟩
      have h4 := h (inState 4)
      have h0 := h (inState 0)
      cases notValue
      · cases h4
      · cases h0
    | service =>
      constructor
      · intro h
        have h0 := h (inState 0)
        cases notValue
        · rfl
        · cases h0
      · intro h items
        have h : notValue = false := h
        subst h
        exact congrArg Except.ok (service_reverse _)
  | level operand sons ofValues isOfMul notValue errors =>
    cases operand with
    | none => exact ⟨fun _ => trivial, fun _ _ => rfl⟩
    | some operand =>
      cases notValue with
      | false =>
        have hmap : ∀ x : Except Exn (List Nat), ∀ f : List Nat → Except Exn Nat,
            (x >>= fun states => f states >>= fun state => .ok (getReverseState state)) =
              (x >>= fun states => f states >>= fun state => .ok state).map getReverseState := by
          intro x f
          cases x with
          | error e => rfl
          | ok states => cases h : f states <;> simp [bind, Except.bind, Except.map, h]
        have h : (level (some operand) sons ofValues isOfMul false errors).Reversible := fun e => nomatch e
        refine ⟨fun _ => h, fun _ items => ?_⟩
        rw [withNot, getState, getState]
        exact hmap _ _
      | true =>
        have hsame : (level (some operand) sons ofValues isOfMul true errors).withNot =
            level (some operand) sons ofValues isOfMul true errors := rfl
        rw [hsame, Reversible, forall_prop_of_true rfl]
        refine forall_congr' fun items => ?_
        cases getState items (level (some operand) sons ofValues isOfMul true errors) with
        | error e => simp [Except.map]
        | ok k => simp [Except.map, reverse_fixed]

end DependencyNode

namespace DependencyNodeFactory

def parenthesised (E : List Char) : List Char := '(' :: E ++ [')']

def negated (E : List Char) : List Char := '!' :: parenthesised E

/-! ## An expression that stands alone -/

theorem evalXofPattern_mark (l : List Char) : evalXofPattern ('!' :: l) = none := by
  have hdigit : Numerals.isDecimal '!' = false := by decide
  unfold evalXofPattern thresholdPrefix takeOne
  simp [List.span_eq_takeWhile_dropWhile, hdigit]

theorem strip_negated (E : List Char) : strip (negated E) = negated E := by
  apply strip_of_ends
  · intro c hc
    cases hc
    decide
  · intro c hc
    have hlast : (negated E).getLast? = some ')' := by
      rw [show negated E = ('!' :: '(' :: E) ++ [')'] from rfl, List.getLast?_append_of_ne_nil _ (by simp)]
      rfl
    rw [hlast] at hc
    cases hc
    decide

theorem level_negated {E : List Char} (hE : Balanced E) : RuleScan.level none (negated E) =
    { (RuleScan.start none : RuleScan (Bool × List Char)) with sons := [(true, inside E)] } := by
  have hfresh : (RuleScan.start none : RuleScan (Bool × List Char)).Fresh := ⟨rfl, rfl, rfl, rfl⟩
  have hrun : (RuleScan.start none).run RuleScan.texts ('!' :: '(' :: E ++ ')' :: []) = _ := RuleScan.run_negated hfresh hE []
  unfold RuleScan.level
  rw [show negated E = '!' :: '(' :: E ++ ')' :: [] from rfl, hrun]
  rfl

theorem ruleShape_negated {E : List Char} (hline : '\n' ∉ E) (hE : Balanced E) :
    ruleShape (negated E) = .level ⟨['0'], ['0'], ['0']⟩ false none [(true, ruleShape E)] false := by
  have hc : isComplex (strip (negated E)) = true := by
    rw [strip_negated]
    rfl
  have hstart : startNode (negated E) = (⟨⟨['0'], ['0'], ['0']⟩, false, negated E⟩, none) := by
    unfold startNode
    rw [show evalXofPattern (negated E) = none from evalXofPattern_mark _]
  rw [ruleShape_complex hc, strip_negated, hstart]
  simp only [level_negated hE, List.map_cons, List.map_nil, ruleShape_inside hline]
  rfl

section
variable {ν : Type} (scope : RuleScope ν)

def ruleState (items : RuleItems ν) (pattern : List Char) : Except Exn Nat :=
  ruleTree scope pattern >>= fun tree =>
    match tree with
    | none => .error .attributeError
    | some node => node.getState items

variable {scope} {E : List Char} {n : DependencyNode ν}

theorem ruleState_negated (hline : '\n' ∉ E) (hE : Balanced E) (hn : ruleTree scope E = .ok (some n)) (items : RuleItems ν) :
    ruleState scope items (negated E) = .ok 4 := by
  rw [ruleState, ruleTree_eq, ruleShape_negated hline hE]
  rw [ruleTree_eq] at hn
  simp only [build, buildItems, hn]
  rfl

/-! ## An expression in a level -/

def AddsSon (scope : RuleScope ν) (text : List Char) (son : DependencyNode ν) : Prop :=
  ∀ (fuel : Nat) (s : RuleScan (Option (DependencyNode ν))) (post : List Char), text.length ≤ fuel → s.Fresh → s.sonIsNot = false →
    s.run (newSon (evalCorPattern scope fuel)) (text ++ post) =
      ({ s with sons := s.sons ++ [some son], tmp := [] } : RuleScan (Option (DependencyNode ν))).run
        (newSon (evalCorPattern scope fuel)) post

theorem squeeze_length : ∀ l : List Char, (squeeze l).length ≤ l.length
  | [] => le_refl _
  | c :: l => by
    have ih := squeeze_length l
    rw [squeeze]
    split <;> simp only [List.length_cons] <;> omega

theorem inside_length (E : List Char) : (inside E).length ≤ E.length := by
  rw [inside, strip_stored E [] rfl, List.nil_append]
  exact le_trans (length_strip_le _) (squeeze_length E)

theorem evalCorPattern_inside (hline : '\n' ∉ E) {fuel : Nat} (h : E.length < fuel) :
    evalCorPattern scope fuel (inside E) = ruleTree scope E := by
  have hle := inside_length E
  rw [evalCorPattern_tree scope (by omega), ruleTree_eq, ruleTree_eq, ruleShape_inside hline]

theorem addsSon_parenthesised (hline : '\n' ∉ E) (hE : Balanced E) (hn : ruleTree scope E = .ok (some n)) :
    AddsSon scope (parenthesised E) n := by
  intro fuel s post hfuel hs hnot
  have hlen : E.length < fuel := by
    simp only [parenthesised, List.length_append, List.length_cons] at hfuel
    omega
  rw [show parenthesised E ++ post = '(' :: E ++ ')' :: post by simp [parenthesised], RuleScan.run_parenthesised hs hE,
    newSon, evalCorPattern_inside hline hlen, hn, hnot]
  rfl

theorem addsSon_negated (hline : '\n' ∉ E) (hE : Balanced E) (hn : ruleTree scope E = .ok (some n)) :
    AddsSon scope (negated E) n.withNot := by
  intro fuel s post hfuel hs hnot
  have hlen : E.length < fuel := by
    simp only [negated, parenthesised, List.length_append, List.length_cons] at hfuel
    omega
  rw [show negated E ++ post = '!' :: '(' :: E ++ ')' :: post by simp [negated, parenthesised], RuleScan.run_negated hs hE,
    newSon, evalCorPattern_inside hline hlen, hn]
  show RuleScan.run _ _ _ = _
  congr 1
  cases s
  simp only [RuleScan.mk.injEq]
  exact ⟨trivial, trivial, trivial, trivial, hnot.symm, trivial, trivial⟩

/-- When a `!` reverses the state of the expression after it: alone in a rule,
and as a son of any level. -/
theorem negation_reverses_iff (hline : '\n' ∉ E) (hE : Balanced E) (hn : ruleTree scope E = .ok (some n)) :
    ((∀ items, ruleState scope items (negated E) = (ruleState scope items E).map DependencyNode.getReverseState) ↔
      ∀ items, ruleState scope items E = .ok 4) ∧
    AddsSon scope (parenthesised E) n ∧ AddsSon scope (negated E) n.withNot ∧
    ((∀ items, n.withNot.getState items = (n.getState items).map DependencyNode.getReverseState) ↔ n.Reversible) := by
  refine ⟨forall_congr' fun items => ?_, addsSon_parenthesised hline hE hn, addsSon_negated hline hE hn,
    DependencyNode.withNot_reverses_iff⟩
  rw [ruleState_negated hline hE hn]
  cases ruleState scope items E with
  | error e => simp [Except.map]
  | ok k =>
    simp only [Except.map, Except.ok.injEq]
    exact eq_comm.trans DependencyNode.reverse_eq_four

def allHosts : RuleScope (List Char) where
  boundHostName := []
  findHost := some
  findService := fun _ _ => none
  selectHosts := fun _ => .ok (.ok [])
  selectServices := fun _ _ => .ok (.ok [])

theorem negation_reverses_and : (DependencyNode.level (some .and)
      [some (.leaf .host ['a'] false), some (.leaf .host ['b'] false)] ⟨['2'], ['2'], ['2']⟩ false true []).getState
      (DependencyNode.inState 2) =
    ((DependencyNode.level (some .and)
      [some (.leaf .host ['a'] false), some (.leaf .host ['b'] false)] ⟨['2'], ['2'], ['2']⟩ false false []).getState
      (DependencyNode.inState 2)).map DependencyNode.getReverseState := by
  have hn : ruleTree allHosts "a&b".toList = .ok (some (.level (some .and)
      [some (.leaf .host ['a'] false), some (.leaf .host ['b'] false)] ⟨['2'], ['2'], ['2']⟩ false false [])) := by
    with_unfolding_all rfl
  exact (negation_reverses_iff (by decide) (by decide) hn).2.2.2.mpr (fun e => nomatch e) (DependencyNode.inState 2)

/-- The negation of an up host alone is 4, and the second `!` of two changes nothing. -/
theorem negation_lost :
    ruleState allHosts (DependencyNode.inState 0) (negated "a".toList) ≠
      (ruleState allHosts (DependencyNode.inState 0) "a".toList).map DependencyNode.getReverseState ∧
    ruleState allHosts (DependencyNode.inState 0) (negated "!a".toList ++ "&b".toList) =
      ruleState allHosts (DependencyNode.inState 0) (parenthesised "!a".toList ++ "&b".toList) ∧
    ruleState allHosts (DependencyNode.inState 0) (parenthesised "!a".toList ++ "&b".toList) = .ok 2 := by
  decide +kernel

end

end DependencyNodeFactory

end Alignak
