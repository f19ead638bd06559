import Alignak.RuleNegation

/-!
# Accepted rules

The checks of a business rule (`create_business_rules`, `is_correct`) and the
rules that pass them.
-/

namespace Alignak

/-! ## The thresholds -/

namespace OfValues

/-- The text of a threshold that `int` reads. -/
def number (value : List Char) : List Char := if value.getLast? = some '%' then value.dropLast else value

def Readable (values : OfValues) : Prop :=
  ∀ value ∈ [values.ok, values.warn, values.crit], ∃ n, DependencyNode.intOf (number value) = .ok n

end OfValues

namespace DependencyNode

open OfValues

theorem getStateFor_number (reaches : Nat → Nat → Int → Bool) {nbTot : Nat} (nbReal : Nat) {value : List Char} (hTot : nbTot ≠ 0) :
    (∃ n, intOf (number value) = .ok n) → ∃ b, getStateFor reaches nbTot nbReal value = .ok b := by
  rintro ⟨n, hn⟩
  unfold number at hn
  unfold getStateFor
  split at hn
  next hpercent =>
    rw [if_pos hpercent, hn]
    exact ⟨_, if_neg hTot⟩
  next hpercent =>
    rw [if_neg hpercent, hn]
    exact ⟨_, rfl⟩

variable {reaches : Nat → Nat → Int → Bool} {values : OfValues} {k : Nat} {item : Watched}

theorem getStateFor_ok {nbTot nbReal : Nat} {value : List Char} {b : Bool}
    (h : getStateFor reaches nbTot nbReal value = .ok b) : ∃ n, intOf (number value) = .ok n := by
  unfold getStateFor at h
  unfold number
  split at h
  next hpercent =>
    rw [if_pos hpercent]
    cases hn : intOf value.dropLast with
    | error e =>
      rw [hn] at h
      cases h
    | ok n => exact ⟨n, rfl⟩
  next hpercent =>
    rw [if_neg hpercent]
    cases hn : intOf value with
    | error e =>
      rw [hn] at h
      cases h
    | ok n => exact ⟨n, rfl⟩

/-! ## The state of a list of sons -/

section
variable {states : List Nat} (hne : states ≠ []) (hle : ∀ state ∈ states, state ≤ 4)
include hne hle

theorem bestState_le : ∃ k ≤ 4, bestState states = .ok k := by
  cases h : states.min? with
  | none => exact absurd (List.min?_eq_none_iff.mp h) hne
  | some k =>
    refine ⟨k, hle k (List.min?_mem h), ?_⟩
    unfold bestState
    rw [h]

theorem worstState_le : ∃ k ≤ 4, worstState states = .ok k := by
  unfold worstState
  split
  · exact ⟨2, by omega, rfl⟩
  · cases h : states.max? with
    | none => exact absurd (List.max?_eq_none_iff.mp h) hne
    | some k => exact ⟨k, hle k (List.max?_mem h), rfl⟩

theorem xofState_le {isOfMul : Bool} (hvalues : values.Readable) :
    ∃ k ≤ 4, xofState reaches values isOfMul states = .ok k := by
  have hlen : states.length ≠ 0 := fun e => hne (List.length_eq_zero_iff.mp e)
  obtain ⟨ok, hok⟩ := getStateFor_number reaches (states.count 0) hlen (hvalues values.ok (by simp))
  obtain ⟨warn, hwarn⟩ := getStateFor_number reaches (states.count 1 + states.count 2) hlen
    (hvalues values.warn (by simp))
  obtain ⟨crit, hcrit⟩ := getStateFor_number reaches (states.count 2) hlen (hvalues values.crit (by simp))
  unfold xofState
  simp only
  rw [hok, hwarn, hcrit]
  cases crit with
  | true => exact ⟨2, by omega, rfl⟩
  | false =>
    cases warn with
    | true => exact ⟨1, by omega, rfl⟩
    | false =>
      cases ok with
      | true => exact ⟨0, by omega, rfl⟩
      | false =>
        cases isOfMul with
        | true => exact ⟨0, by omega, rfl⟩
        | false => exact worstState_le hne hle

theorem combinedState_le (reaches : Nat → Nat → Int → Bool) {operand : Operator} (isOfMul : Bool)
    (hvalues : operand = .of → values.Readable) : ∃ k ≤ 4, combinedState reaches operand values isOfMul states = .ok k := by
  cases operand with
  | or => exact bestState_le hne hle
  | and => exact worstState_le hne hle
  | of => exact xofState_le hne hle (hvalues rfl)

end

theorem xofState_ok {isOfMul : Bool} {states : List Nat}
    (h : xofState reaches values isOfMul states = .ok k) : values.Readable := by
  unfold xofState at h
  simp only at h
  cases hok : getStateFor reaches states.length (states.count 0) values.ok with
  | error e =>
    rw [hok] at h
    cases h
  | ok ok =>
  cases hwarn : getStateFor reaches states.length (states.count 1 + states.count 2) values.warn with
  | error e =>
    rw [hok, hwarn] at h
    cases h
  | ok warn =>
  cases hcrit : getStateFor reaches states.length (states.count 2) values.crit with
  | error e =>
    rw [hok, hwarn, hcrit] at h
    cases h
  | ok crit =>
    intro value hvalue
    simp only [List.mem_cons, List.not_mem_nil, or_false] at hvalue
    rcases hvalue with rfl | rfl | rfl
    · exact getStateFor_ok hok
    · exact getStateFor_ok hwarn
    · exact getStateFor_ok hcrit

/-! ## Nodes that have a state -/

section
variable {ν : Type}

mutual
def Evaluable : DependencyNode ν → Prop
  | leaf _ _ _ => True
  | object _ _ => True
  | level none _ _ _ _ _ => True
  | level (some operand) sons values _ _ _ => (operand = .of → values.Readable) ∧ AllEvaluable sons

def AllEvaluable : List (Option (DependencyNode ν)) → Prop
  | [] => True
  | none :: _ => False
  | some son :: sons => son.Evaluable ∧ AllEvaluable sons
end

def HardStates (items : RuleItems ν) : Prop := ∀ kind uuid, (items.watched kind uuid).lastHardStateId ≤ 4

theorem getReverseState_le (h : k ≤ 4) : getReverseState k ≤ 4 := by
  unfold getReverseState
  repeat' split
  all_goals omega

theorem maskedState_le (h : k ≤ 4) : maskedState item k ≤ 4 := by
  unfold maskedState
  split
  · omega
  · exact h

theorem getHostNodeState_le (h : item.lastHardStateId ≤ 4) (notValue : Bool) : getHostNodeState item notValue ≤ 4 := by
  have hmasked : maskedState item (if item.lastHardStateId = 1 then 2 else item.lastHardStateId) ≤ 4 := by
    apply maskedState_le
    split <;> omega
  unfold getHostNodeState
  simp only
  generalize maskedState item (if item.lastHardStateId = 1 then 2 else item.lastHardStateId) = k at hmasked ⊢
  repeat' split
  all_goals omega

theorem getServiceNodeState_le (h : item.lastHardStateId ≤ 4) (notValue : Bool) :
    getServiceNodeState item notValue ≤ 4 := by
  have hmasked : maskedState item item.lastHardStateId ≤ 4 := maskedState_le h
  unfold getServiceNodeState
  simp only
  repeat' split
  all_goals omega

variable {items : RuleItems ν}

mutual
theorem getState_le (hitems : HardStates items) : ∀ node : DependencyNode ν, node.isValid = true → node.Evaluable → ∃ k ≤ 4, node.getState items = .ok k
  | leaf .host uuid notValue, _, _ => ⟨_, getHostNodeState_le (hitems _ _) _, rfl⟩
  | leaf .service uuid notValue, _, _ => ⟨_, getServiceNodeState_le (hitems _ _) _, rfl⟩
  | object _ _, hvalid, _ => absurd hvalid Bool.false_ne_true
  | level none _ _ _ _ _, _, _ => ⟨4, le_refl _, rfl⟩
  | level (some operand) sons values isOfMul notValue errors, hvalid, hevaluable => by
    rw [isValid, Bool.and_eq_true] at hvalid
    rw [Evaluable] at hevaluable
    obtain ⟨states, hstates, hle, hlen⟩ := statesOf_le hitems sons hvalid.2 hevaluable.2
    have hne : states ≠ [] := by
      intro e
      rw [e] at hlen
      rw [List.length_eq_zero_iff.mp hlen.symm] at hvalid
      exact absurd hvalid.1 Bool.false_ne_true
    obtain ⟨k, hk, hcombined⟩ := combinedState_le hne hle items.reaches isOfMul hevaluable.1
    rw [getState, hstates]
    refine ⟨if notValue then getReverseState k else k, ?_, ?_⟩
    · split
      · exact getReverseState_le hk
      · exact hk
    · show combinedState _ _ _ _ _ >>= _ = _
      rw [hcombined]
      rfl

theorem statesOf_le (hitems : HardStates items) : ∀ sons : List (Option (DependencyNode ν)), allValid sons = true → AllEvaluable sons →
    ∃ states, statesOf items sons = .ok states ∧ (∀ state ∈ states, state ≤ 4) ∧ states.length = sons.length
  | [], _, _ => ⟨[], rfl, by simp, rfl⟩
  | none :: _, _, h => h.elim
  | some son :: sons, hvalid, hevaluable => by
    rw [allValid, Bool.and_eq_true] at hvalid
    rw [AllEvaluable] at hevaluable
    obtain ⟨k, hk, hson⟩ := getState_le hitems son hvalid.1 hevaluable.1
    obtain ⟨states, hstates, hle, hlen⟩ := statesOf_le hitems sons hvalid.2 hevaluable.2
    refine ⟨k :: states, ?_, List.forall_mem_cons.mpr ⟨hk, hle⟩, congrArg (· + 1) hlen⟩
    rw [statesOf, hson, hstates]
    rfl
end

mutual
theorem evaluable_of_getState : ∀ (node : DependencyNode ν) {k : Nat}, node.getState items = .ok k → node.Evaluable
  | leaf _ _ _, _, _ => trivial
  | object _ _, _, _ => trivial
  | level none _ _ _ _ _, _, _ => trivial
  | level (some operand) sons values isOfMul notValue errors, k, h => by
    rw [getState] at h
    cases hstates : statesOf items sons with
    | error e =>
      rw [hstates] at h
      cases h
    | ok states =>
      rw [hstates] at h
      refine ⟨fun hof => ?_, allEvaluable_of_statesOf sons hstates⟩
      subst hof
      cases hxof : xofState items.reaches values isOfMul states with
      | error e =>
        have h : xofState items.reaches values isOfMul states >>= _ = _ := h
        rw [hxof] at h
        cases h
      | ok k => exact xofState_ok hxof

theorem allEvaluable_of_statesOf : ∀ (sons : List (Option (DependencyNode ν))) {states : List Nat},
    statesOf items sons = .ok states → AllEvaluable sons
  | [], _, _ => trivial
  | none :: _, _, h => nomatch h
  | some son :: sons, states, h => by
    rw [statesOf] at h
    cases hson : getState items son with
    | error e =>
      rw [hson] at h
      cases h
    | ok k =>
    cases hsons : statesOf items sons with
    | error e =>
      rw [hson, hsons] at h
      cases h
    | ok states => exact ⟨evaluable_of_getState son hson, allEvaluable_of_statesOf sons hsons⟩
end

theorem evaluable_iff {node : DependencyNode ν} (hvalid : node.isValid = true) :
    (∀ items : RuleItems ν, HardStates items → ∃ k ≤ 4, node.getState items = .ok k) ↔ node.Evaluable := by
  constructor
  · intro h
    obtain ⟨k, -, hk⟩ := h (inState 0) fun _ _ => Nat.zero_le _
    exact evaluable_of_getState node hk
  · intro h items hitems
    exact getState_le hitems node hvalid h

end

end DependencyNode

namespace OfValues

open DependencyNode in
theorem number_digits (n : Nat) : ∃ k, intOf (number (Nat.toDigits 10 n)) = .ok k := by
  have hdigit : ∀ c ∈ Nat.toDigits 10 n, c.isDigit = true := fun c hc =>
    Nat.isDigit_of_mem_toDigits (by decide) (le_refl _) hc
  have hpercent : (Nat.toDigits 10 n).getLast? ≠ some '%' := fun h =>
    absurd (hdigit '%' (List.mem_of_getLast? h)) (by decide)
  unfold number intOf
  rw [if_neg hpercent, Numerals.toInt_digits Nat.toDigits_ne_nil hdigit]
  exact ⟨_, rfl⟩

theorem readable_switchZeros (nbSons : Nat) (values : OfValues) :
    (DependencyNode.switchZeros nbSons values).Readable ↔ values.Readable := by
  have hvalue : ∀ value : List Char, (∃ k, DependencyNode.intOf (number (if value = ['0'] then Nat.toDigits 10 nbSons else value)) = .ok k) ↔
      ∃ k, DependencyNode.intOf (number value) = .ok k := by
    intro value
    by_cases h : value = ['0']
    · rw [if_pos h, h]
      exact ⟨fun _ => ⟨0, rfl⟩, fun _ => number_digits nbSons⟩
    · rw [if_neg h]
  unfold Readable
  simp only [List.forall_mem_cons]
  exact and_congr (hvalue _) (and_congr (hvalue _) (and_congr (hvalue _) Iff.rfl))

end OfValues

namespace DependencyNodeFactory

/-! ## Operands -/

def isExpression (text : List Char) : Bool := isHostExpression text || isServiceExpression text

def operandParts (pattern : List Char) : Option XofPrefix × Bool × List Char :=
  let (xof, pattern) := match evalXofPattern pattern with
    | some xof => (some xof, xof.rest)
    | none => (none, pattern)
  let (notValue, pattern) := match pattern with
    | '!' :: rest => (true, rest)
    | rest => (false, rest)
  (xof, notValue, pattern)

def Countable (pattern : List Char) : Prop :=
  isExpression (operandParts pattern).2.2 = true → ∀ xof, (operandParts pattern).1 = some xof → xof.values.Readable

section
variable {ν : Type} (scope : RuleScope ν)

/-- The selection raises what is not caught. -/
def Refused (elts : List (List Char)) : Prop :=
  (∃ hostExpr e, elts = [hostExpr] ∧ scope.selectHosts (orBound scope hostExpr) = .error e) ∨
  ∃ hostExpr serviceExpr e, elts = [hostExpr, serviceExpr] ∧ scope.selectServices (orBound scope hostExpr) serviceExpr = .error e

/-- A selection of too many elements, or one that raises. -/
def Unselectable (pattern : List Char) : Prop :=
  isExpression (operandParts pattern).2.2 = true ∧
    (2 < ((operandParts pattern).2.2.splitOn ',').length ∨ Refused scope (((operandParts pattern).2.2.splitOn ',').map strip))

def Known (pattern : List Char) : Prop :=
  if isExpression (operandParts pattern).2.2 then
    ∃ found, expandExpression scope (operandParts pattern).2.2 = .ok (.ok found)
  else ∃ found, findObject scope (operandParts pattern).2.2 = .ok found

def selectionNode (xof : Option XofPrefix) (notValue : Bool) (expanded : Except String (ItemKind × List ν)) : DependencyNode ν :=
  let (sons, errors) := match expanded with
    | .error error => ([], [error])
    | .ok (kind, items) => (items.map fun uuid => some (.leaf kind uuid false), [])
  match xof with
  | some xof => .level (some .of) sons (DependencyNode.switchZeros sons.length xof.values) xof.isOfMul notValue errors
  | none => .level (some .and) sons (DependencyNode.switchZeros sons.length ⟨['0'], ['0'], ['0']⟩) false notValue errors

def objectNode (notValue : Bool) (found : Except String (ItemKind × ν)) : DependencyNode ν :=
  match found with
  | .ok (kind, uuid) => .leaf kind uuid notValue
  | .error error => .object notValue error

variable {scope} {pattern : List Char}

theorem evalSimpleCorPattern_eq : evalSimpleCorPattern scope pattern =
    if isExpression (operandParts pattern).2.2 then
      (expandExpression scope (operandParts pattern).2.2).map (selectionNode (operandParts pattern).1 (operandParts pattern).2.1)
    else .ok (objectNode (operandParts pattern).2.1 (findObject scope (operandParts pattern).2.2)) := by
  have hbranch : ∀ (xof : Option XofPrefix) (notValue : Bool) (text : List Char),
      (if isHostExpression text || isServiceExpression text then expandExpression scope text >>= fun expanded =>
        match (match expanded with
          | .error error => (([] : List (Option (DependencyNode ν))), [error])
          | .ok (kind, items) => (items.map fun uuid => some (.leaf kind uuid false), [])) with
        | (sons, errors) =>
          match xof with
          | some xof => .ok (.level (some .of) sons (DependencyNode.switchZeros sons.length xof.values) xof.isOfMul notValue errors)
          | none =>
            .ok (.level (some .and) sons (DependencyNode.switchZeros sons.length ⟨['0'], ['0'], ['0']⟩) false notValue errors)
      else match findObject scope text with
        | .ok (kind, uuid) => .ok (.leaf kind uuid notValue)
        | .error error => .ok (.object notValue error)) =
      if isExpression text then (expandExpression scope text).map (selectionNode xof notValue)
      else .ok (objectNode notValue (findObject scope text)) := by
    intro xof notValue text
    unfold isExpression
    split
    · cases expandExpression scope text with
      | error e => rfl
      | ok expanded => cases xof <;> rfl
    · cases findObject scope text <;> rfl
  exact hbranch (operandParts pattern).1 (operandParts pattern).2.1 (operandParts pattern).2.2

theorem expandExpression_error (h : 2 < (pattern.splitOn ',').length ∨ Refused scope ((pattern.splitOn ',').map strip)) :
    ∃ e, expandExpression scope pattern = .error e := by
  unfold expandExpression
  simp only
  rcases h with h | ⟨hostExpr, e, helts, he⟩ | ⟨hostExpr, serviceExpr, e, helts, he⟩
  · split
    next a e =>
      have hlen := congrArg List.length e
      simp only [List.length_map, List.length_singleton] at hlen
      omega
    next a b e =>
      have hlen := congrArg List.length e
      simp only [List.length_map, List.length_cons, List.length_nil] at hlen
      omega
    · exact ⟨_, rfl⟩
  · rw [helts]
    simp only
    rw [he]
    exact ⟨e, rfl⟩
  · rw [helts]
    simp only
    rw [he]
    exact ⟨e, rfl⟩

variable (scope) in
theorem expandExpression_ok (h : ¬ (2 < (pattern.splitOn ',').length ∨ Refused scope ((pattern.splitOn ',').map strip))) :
    ∃ expanded, expandExpression scope pattern = .ok expanded ∧ ∀ kind items, expanded = .ok (kind, items) → items ≠ [] := by
  obtain ⟨h, hselected⟩ := not_or.mp h
  unfold expandExpression
  simp only
  split
  next hostExpr helts =>
    cases hs : scope.selectHosts (orBound scope hostExpr) with
    | error e => exact absurd (.inl ⟨hostExpr, e, helts, hs⟩) hselected
    | ok items =>
      refine ⟨_, rfl, fun kind items e => ?_⟩
      dsimp only at e
      split at e
      · cases e
      · cases e
      next hne =>
        cases e
        exact hne
  next hostExpr serviceExpr helts =>
    cases hs : scope.selectServices (orBound scope hostExpr) serviceExpr with
    | error e => exact absurd (.inr ⟨hostExpr, serviceExpr, e, helts, hs⟩) hselected
    | ok items =>
      refine ⟨_, rfl, fun kind items e => ?_⟩
      dsimp only at e
      split at e
      · cases e
      · cases e
      next hne =>
        cases e
        exact hne
  next h1 h2 =>
    exfalso
    cases e : (pattern.splitOn ',').map strip with
    | nil => exact absurd (List.map_eq_nil_iff.mp e) (List.splitOn_ne_nil _ _)
    | cons a l =>
      cases l with
      | nil => exact h1 a e
      | cons b l =>
        cases l with
        | nil => exact h2 a b e
        | cons c l =>
          have hlen := congrArg List.length e
          simp only [List.length_map, List.length_cons] at hlen
          omega

theorem allValid_leaves (kind : ItemKind) : ∀ items : List ν,
    DependencyNode.allValid (items.map fun uuid => some (.leaf kind uuid false)) = true
  | [] => rfl
  | _ :: items => allValid_leaves kind items

theorem allEvaluable_leaves (kind : ItemKind) : ∀ items : List ν,
    DependencyNode.AllEvaluable (items.map fun uuid => some (.leaf kind uuid false))
  | [] => trivial
  | _ :: items => ⟨trivial, allEvaluable_leaves kind items⟩

theorem selectionNode_valid {xof : Option XofPrefix} {notValue : Bool} {expanded : Except String (ItemKind × List ν)}
    (h : ∀ kind items, expanded = .ok (kind, items) → items ≠ []) :
    (selectionNode xof notValue expanded).isValid = true ↔ ∃ found, expanded = .ok found := by
  cases expanded with
  | error error =>
    refine ⟨fun hvalid => ?_, fun ⟨_, e⟩ => nomatch e⟩
    cases xof <;> exact absurd hvalid Bool.false_ne_true
  | ok found =>
    obtain ⟨kind, items⟩ := found
    refine ⟨fun _ => ⟨_, rfl⟩, fun _ => ?_⟩
    have hne : (items.map fun uuid => some (DependencyNode.leaf kind uuid false)).isEmpty = false :=
      List.isEmpty_eq_false_iff.mpr fun e => h kind items rfl (List.map_eq_nil_iff.mp e)
    cases xof <;> simp only [selectionNode, DependencyNode.isValid, allValid_leaves, hne] <;> rfl

theorem selectionNode_evaluable {xof : Option XofPrefix} {notValue : Bool} {expanded : Except String (ItemKind × List ν)} :
    (selectionNode xof notValue expanded).Evaluable ↔ ∀ prefixed, xof = some prefixed → prefixed.values.Readable := by
  have hsons : DependencyNode.AllEvaluable (match expanded with
      | .error error => (([] : List (Option (DependencyNode ν))), [error])
      | .ok (kind, items) => (items.map fun uuid => some (.leaf kind uuid false), [])).1 := by
    cases expanded with
    | error error => trivial
    | ok found => exact allEvaluable_leaves _ _
  cases xof with
  | none => exact ⟨fun _ _ e => (nomatch e), fun _ => ⟨fun e => (nomatch e), hsons⟩⟩
  | some xof =>
    constructor
    · rintro ⟨h, -⟩ prefixed e
      cases e
      exact (OfValues.readable_switchZeros _ _).mp (h rfl)
    · intro h
      exact ⟨fun _ => (OfValues.readable_switchZeros _ _).mpr (h xof rfl), hsons⟩

theorem evalSimpleCorPattern_unselectable (h : Unselectable scope pattern) : ∃ e, evalSimpleCorPattern scope pattern = .error e := by
  obtain ⟨e, he⟩ := expandExpression_error h.2
  rw [evalSimpleCorPattern_eq, if_pos h.1, he]
  exact ⟨e, rfl⟩

variable (scope) in
theorem evalSimpleCorPattern_node (h : ¬ Unselectable scope pattern) : ∃ node, evalSimpleCorPattern scope pattern = .ok node ∧
    (node.isValid = true ↔ Known scope pattern) ∧ (node.Evaluable ↔ Countable pattern) := by
  rw [evalSimpleCorPattern_eq]
  unfold Known Countable
  by_cases he : isExpression (operandParts pattern).2.2 = true
  · rw [if_pos he, if_pos he]
    obtain ⟨expanded, hexpanded, hne⟩ := expandExpression_ok scope fun hfails => h ⟨he, hfails⟩
    rw [hexpanded]
    refine ⟨_, rfl, (selectionNode_valid hne).trans ?_, selectionNode_evaluable.trans ?_⟩
    · simp only [Except.ok.injEq]
    · exact ⟨fun h _ => h, fun h => h he⟩
  · rw [if_neg he, if_neg he]
    refine ⟨_, rfl, ?_, ?_⟩
    · cases findObject scope (operandParts pattern).2.2 with
      | error error => exact ⟨fun hvalid => absurd hvalid Bool.false_ne_true, fun ⟨_, e⟩ => nomatch e⟩
      | ok found => exact ⟨fun _ => ⟨found, rfl⟩, fun _ => rfl⟩
    · refine ⟨fun _ hexpr => absurd hexpr he, fun _ => ?_⟩
      cases findObject scope (operandParts pattern).2.2 <;> trivial

end

end DependencyNodeFactory

/-! ## Levels -/

namespace RuleShape

def mixes : RuleShape → Bool
  | level _ _ _ _ isNone => isNone
  | _ => false

mutual
def Read : RuleShape → Prop
  | operand _ => True
  | level _ _ _ items _ => ItemsRead items
  | spent => False

def ItemsRead : List (Bool × RuleShape) → Prop
  | [] => True
  | (_, shape) :: items => shape.Read ∧ ItemsRead items
end

mutual
def Evaluable : RuleShape → Prop
  | operand pattern => DependencyNodeFactory.Countable pattern
  | level _ _ none _ _ => True
  | level values _ (some operator) items _ => (operator = .of → values.Readable) ∧ ItemsEvaluable items
  | spent => True

def ItemsEvaluable : List (Bool × RuleShape) → Prop
  | [] => True
  | (_, shape) :: items => shape.mixes = false ∧ shape.Evaluable ∧ ItemsEvaluable items
end

section
variable {ν : Type} (scope : RuleScope ν)

mutual
/-- The parser raises at a selection that cannot be made, and at the mark of a missing node. -/
def Raises : RuleShape → Prop
  | operand pattern => DependencyNodeFactory.Unselectable scope pattern
  | level _ _ _ items _ => ItemsRaise items
  | spent => False

def ItemsRaise : List (Bool × RuleShape) → Prop
  | [] => False
  | (sonIsNot, shape) :: items => shape.Raises ∨ (sonIsNot = true ∧ shape.mixes = true) ∨ ItemsRaise items
end

mutual
/-- What `is_valid` looks at. -/
def Valid : RuleShape → Prop
  | operand pattern => DependencyNodeFactory.Known scope pattern
  | level _ _ _ items _ => items ≠ [] ∧ ItemsValid items
  | spent => False

def ItemsValid : List (Bool × RuleShape) → Prop
  | [] => True
  | (_, shape) :: items => (shape.mixes = true ∨ shape.Valid) ∧ ItemsValid items
end

end

end RuleShape

namespace DependencyNode

variable {ν : Type}

theorem isValid_withNot : ∀ node : DependencyNode ν, node.withNot.isValid = node.isValid
  | leaf _ _ _ => rfl
  | object _ _ => rfl
  | level _ _ _ _ _ _ => rfl

theorem evaluable_withNot : ∀ node : DependencyNode ν, node.withNot.Evaluable ↔ node.Evaluable
  | leaf _ _ _ => Iff.rfl
  | object _ _ => Iff.rfl
  | level none _ _ _ _ _ => Iff.rfl
  | level (some _) _ _ _ _ _ => Iff.rfl

end DependencyNode

namespace DependencyNodeFactory

section
variable {ν : Type} {scope : RuleScope ν}

structure Builds (scope : RuleScope ν) (shape : RuleShape) (tree : Option (DependencyNode ν)) : Prop where
  missing : shape.mixes = true → tree = none
  node : shape.mixes = false →
    ∃ node, tree = some node ∧ (node.isValid = true ↔ shape.Valid scope) ∧ (node.Evaluable ↔ shape.Evaluable)

theorem Builds.markSon {shape : RuleShape} {tree : Option (DependencyNode ν)} (h : Builds scope shape tree) {sonIsNot : Bool}
    (hmark : ¬ (sonIsNot = true ∧ shape.mixes = true)) : ∃ son, markSon sonIsNot tree = .ok son ∧ Builds scope shape son := by
  cases sonIsNot with
  | false => exact ⟨tree, rfl, h⟩
  | true =>
    have hmixes : shape.mixes = false := by simpa using hmark
    obtain ⟨node, rfl, hvalid, hevaluable⟩ := h.node hmixes
    refine ⟨some node.withNot, rfl, fun e => (by rw [hmixes] at e; cases e), fun _ => ⟨node.withNot, rfl, ?_, ?_⟩⟩
    · rw [DependencyNode.isValid_withNot]
      exact hvalid
    · exact (DependencyNode.evaluable_withNot node).trans hevaluable

mutual
theorem build_spec : ∀ shape : RuleShape, shape.Read →
    (shape.Raises scope → ∃ e, build scope shape = .error e) ∧
    (¬ shape.Raises scope → ∃ tree, build scope shape = .ok tree ∧ Builds scope shape tree)
  | .operand pattern, _ => by
    rw [build]
    constructor
    · intro h
      obtain ⟨e, he⟩ := evalSimpleCorPattern_unselectable h
      rw [he]
      exact ⟨e, rfl⟩
    · intro h
      obtain ⟨node, hnode, hvalid, hevaluable⟩ := evalSimpleCorPattern_node scope h
      rw [hnode]
      exact ⟨_, rfl, fun e => (nomatch e), fun _ => ⟨node, rfl, hvalid, hevaluable⟩⟩
  | .level values isOfMul operator items isNone, hread => by
    obtain ⟨hraises, hbuilds⟩ := buildItems_spec items hread
    rw [build]
    constructor
    · intro h
      obtain ⟨e, he⟩ := hraises h
      rw [he]
      exact ⟨e, rfl⟩
    · intro h
      obtain ⟨sons, hsons, hlen, hvalid, hevaluable⟩ := hbuilds h
      rw [hsons]
      cases isNone with
      | true => exact ⟨none, rfl, fun _ => rfl, fun e => (nomatch e)⟩
      | false =>
        refine ⟨_, rfl, fun e => (nomatch e), fun _ => ⟨_, rfl, ?_, ?_⟩⟩
        · rw [DependencyNode.isValid, Bool.and_eq_true, RuleShape.Valid, hvalid]
          refine and_congr_left fun _ => ?_
          rw [Bool.not_eq_true', List.isEmpty_eq_false_iff, ← List.length_pos_iff, ← List.length_pos_iff, hlen]
        · cases operator with
          | none => exact Iff.rfl
          | some operator =>
            exact and_congr (forall_congr' fun _ => OfValues.readable_switchZeros _ _) hevaluable

theorem buildItems_spec : ∀ items : List (Bool × RuleShape), RuleShape.ItemsRead items →
    (RuleShape.ItemsRaise scope items → ∃ e, buildItems scope items = .error e) ∧
    (¬ RuleShape.ItemsRaise scope items → ∃ sons, buildItems scope items = .ok sons ∧ sons.length = items.length ∧
      (DependencyNode.allValid sons = true ↔ RuleShape.ItemsValid scope items) ∧
      (DependencyNode.AllEvaluable sons ↔ RuleShape.ItemsEvaluable items))
  | [], _ => ⟨fun h => h.elim, fun _ => ⟨[], rfl, rfl, ⟨fun _ => trivial, fun _ => rfl⟩, Iff.rfl⟩⟩
  | (sonIsNot, shape) :: items, hread => by
    obtain ⟨hraises, hbuilds⟩ := build_spec shape hread.1
    obtain ⟨hraise, hsons⟩ := buildItems_spec items hread.2
    rw [buildItems, RuleShape.ItemsRaise]
    by_cases h1 : shape.Raises scope
    · obtain ⟨e, he⟩ := hraises h1
      rw [he]
      exact ⟨fun _ => ⟨e, rfl⟩, fun h => absurd (.inl h1) h⟩
    obtain ⟨tree, htree, hb⟩ := hbuilds h1
    rw [htree]
    by_cases h2 : sonIsNot = true ∧ shape.mixes = true
    · refine ⟨fun _ => ⟨.attributeError, ?_⟩, fun h => absurd (.inr (.inl h2)) h⟩
      rw [h2.1, hb.missing h2.2]
      rfl
    obtain ⟨son, hson, hb⟩ := hb.markSon h2
    show (_ → ∃ e, (markSon sonIsNot tree >>= fun son => _) = _) ∧ (_ → ∃ sons, (markSon sonIsNot tree >>= fun son => _) = _ ∧ _)
    rw [hson]
    by_cases h3 : RuleShape.ItemsRaise scope items
    · obtain ⟨e, he⟩ := hraise h3
      rw [he]
      exact ⟨fun _ => ⟨e, rfl⟩, fun h => absurd (.inr (.inr h3)) h⟩
    obtain ⟨sons, hsons, hlen, hvalid, hevaluable⟩ := hsons h3
    rw [hsons]
    refine ⟨fun h => ?_, fun _ => ⟨son :: sons, rfl, congrArg (· + 1) hlen, ?_⟩⟩
    · rcases h with h | h | h
      · exact absurd h h1
      · exact absurd h h2
      · exact absurd h h3
    rw [RuleShape.ItemsValid, RuleShape.ItemsEvaluable]
    cases hm : shape.mixes with
    | true =>
      rw [hb.missing hm]
      exact ⟨hvalid.trans ⟨fun h => ⟨.inl rfl, h⟩, fun h => h.2⟩, ⟨fun h => h.elim, fun h => nomatch h.1⟩⟩
    | false =>
      obtain ⟨node, rfl, hnode, hnode'⟩ := hb.node hm
      rw [DependencyNode.allValid, Bool.and_eq_true, hnode, hvalid]
      refine ⟨and_congr_left fun _ => ⟨.inr, fun h => h.resolve_left Bool.false_ne_true⟩, ?_⟩
      exact (and_congr hnode' hevaluable).trans ⟨fun h => ⟨rfl, h⟩, fun h => h.2⟩
end

theorem itemsRead_of_forall : ∀ {items : List (Bool × RuleShape)}, (∀ item ∈ items, item.2.Read) → RuleShape.ItemsRead items
  | [], _ => trivial
  | _ :: _, h => ⟨h _ List.mem_cons_self, itemsRead_of_forall fun item hitem => h item (List.mem_cons_of_mem _ hitem)⟩

theorem ruleShape_read (pattern : List Char) : (ruleShape pattern).Read := by
  induction hn : pattern.length using Nat.strong_induction_on generalizing pattern with
  | _ n ih =>
    cases hc : isComplex (strip pattern) with
    | false =>
      rw [ruleShape_simple hc]
      trivial
    | true =>
      rw [ruleShape_complex hc]
      refine itemsRead_of_forall fun item hitem => ?_
      obtain ⟨text, htext, rfl⟩ := List.mem_map.mp hitem
      have hshort := items_short hc text htext
      have hstrip := length_strip_le pattern
      exact ih _ (by omega) text.2 rfl

theorem ruleTree_spec (scope : RuleScope ν) (pattern : List Char) :
    ((ruleShape pattern).Raises scope → ∃ e, ruleTree scope pattern = .error e) ∧
    (¬ (ruleShape pattern).Raises scope → ∃ tree, ruleTree scope pattern = .ok tree ∧ Builds scope (ruleShape pattern) tree) := by
  rw [ruleTree_eq]
  exact build_spec _ (ruleShape_read pattern)

end

end DependencyNodeFactory

/-! ## The rule of an item -/

structure RuledItem (ν : Type) where
  myType : String
  name : String
  gotBusinessRule : Bool
  processedBusinessRule : List Char
  businessRule : Option (DependencyNode ν)
  configurationErrors : List String
  confIsCorrect : Bool

namespace RuledItem

variable {ν : Type}

def unruled (myType name : String) : RuledItem ν := ⟨myType, name, false, [], none, [], true⟩

def addError (item : RuledItem ν) (message : String) : RuledItem ν :=
  { item with
    configurationErrors := item.configurationErrors ++ ["[" ++ item.myType ++ "::" ++ item.name ++ "] " ++ message]
    confIsCorrect := false }

/-- A macro at the beginning of the text: `\$[\w\d_-]+\$`. -/
def startsWithMacro (isAlnum : Char → Bool) (rule : List Char) : Bool :=
  match rule with
  | '$' :: rest =>
    let (macroName, rest) := rest.span fun c => isAlnum c || c = '_' || c = '-'
    !macroName.isEmpty && rest.head? = some '$'
  | _ => false

/-- What the creation of a rule takes from elsewhere: `resolve` is the resolution of
the macros of a text, which raises for a macro of an object that does not exist. -/
structure RuleContext (ν : Type) extends RuleScope ν where
  isAlnum : Char → Bool
  resolve : List Char → Except Exn (List Char)

/-- The arguments are the ones of the `bp_rule` command. -/
def createBusinessRules (context : RuleContext ν) (args : List (List Char)) (item : RuledItem ν) : Except Exn (RuledItem ν) :=
  let item := { item with gotBusinessRule := true }
  let rule := ['!'].intercalate args
  if item.businessRule.isNone || startsWithMacro context.isAlnum rule then do
    let rule ← context.resolve rule
    if rule = item.processedBusinessRule then return item
    else do
      let tree ← DependencyNodeFactory.ruleTree context.toRuleScope rule
      return { item with processedBusinessRule := rule, businessRule := tree }
  else .ok item

/-- What `is_correct` checks of the rule. -/
def isCorrect (item : RuledItem ν) : Except Exn (RuledItem ν) :=
  if item.gotBusinessRule then
    match item.businessRule with
    | none => .error .attributeError
    | some node =>
      if node.isValid then .ok item
      else .ok (node.gatheredErrors.foldl addError (item.addError "business_rule invalid"))
  else .ok item

theorem isCorrect_ok {item : RuledItem ν} {node : DependencyNode ν} (h : item.businessRule = some node) :
    ∃ checked, item.isCorrect = .ok checked := by
  unfold isCorrect
  rw [h]
  simp only
  repeat' split
  all_goals exact ⟨_, rfl⟩

theorem addErrors_incorrect : ∀ (messages : List String) {item : RuledItem ν}, item.confIsCorrect = false →
    (messages.foldl addError item).confIsCorrect = false
  | [], _, h => h
  | _ :: messages, _, _ => addErrors_incorrect messages rfl

theorem isCorrect_iff {item checked : RuledItem ν} (hcorrect : item.confIsCorrect = true) (hrule : item.gotBusinessRule = true)
    (h : item.isCorrect = .ok checked) : checked.confIsCorrect = true ↔ ∃ node, item.businessRule = some node ∧ node.isValid = true := by
  unfold isCorrect at h
  rw [if_pos hrule] at h
  split at h
  · cases h
  next node hnode =>
    split at h
    next hvalid =>
      cases h
      exact ⟨fun _ => ⟨node, hnode, hvalid⟩, fun _ => hcorrect⟩
    next hvalid =>
      cases h
      rw [addErrors_incorrect _ rfl]
      refine ⟨fun e => (nomatch e), fun ⟨node', hnode', hvalid'⟩ => ?_⟩
      cases hnode.symm.trans hnode'
      exact absurd hvalid' hvalid

structure Settles (context : RuleContext ν) (args : List (List Char)) (item : RuledItem ν) : Prop where
  runs : ∃ created checked, createBusinessRules context args item = .ok created ∧ created.isCorrect = .ok checked
  evaluates : ∀ created checked, createBusinessRules context args item = .ok created → created.isCorrect = .ok checked →
    checked.confIsCorrect = true → ∃ node, created.businessRule = some node ∧ node.isValid = true ∧
      ∀ items : RuleItems ν, DependencyNode.HardStates items → ∃ k ≤ 4, node.getState items = .ok k

structure Sound (scope : RuleScope ν) (rule : List Char) : Prop where
  nonempty : rule ≠ []
  reads : ¬ (DependencyNodeFactory.ruleShape rule).Raises scope
  unmixed : (DependencyNodeFactory.ruleShape rule).mixes = false
  evaluable : (DependencyNodeFactory.ruleShape rule).Valid scope → (DependencyNodeFactory.ruleShape rule).Evaluable

variable {context : RuleContext ν} {args : List (List Char)} {rule : List Char} {myType name : String}

section
variable (hresolve : context.resolve (['!'].intercalate args) = .ok rule)
include hresolve

theorem create_empty (h : rule = []) :
    createBusinessRules context args (unruled myType name) = .ok { unruled myType name with gotBusinessRule := true } := by
  have hcreate : createBusinessRules context args (unruled myType name) = context.resolve (['!'].intercalate args) >>= fun rule =>
      if rule = [] then .ok { unruled myType name with gotBusinessRule := true }
      else (DependencyNodeFactory.ruleTree context.toRuleScope rule).map fun tree => ⟨myType, name, true, rule, tree, [], true⟩ := rfl
  rw [hcreate, hresolve]
  exact if_pos h

theorem create_tree (myType name : String) (h : rule ≠ []) : createBusinessRules context args (unruled myType name) =
    (DependencyNodeFactory.ruleTree context.toRuleScope rule).map fun tree => ⟨myType, name, true, rule, tree, [], true⟩ := by
  have hcreate : createBusinessRules context args (unruled myType name) = context.resolve (['!'].intercalate args) >>= fun rule =>
      if rule = [] then .ok { unruled myType name with gotBusinessRule := true }
      else (DependencyNodeFactory.ruleTree context.toRuleScope rule).map fun tree => ⟨myType, name, true, rule, tree, [], true⟩ := rfl
  rw [hcreate, hresolve]
  exact if_neg h

/-- A rule whose macros are resolved is created, checked and evaluated without an exception just when its text is sound. -/
theorem settles_iff_sound : (unruled myType name).Settles context args ↔ Sound context.toRuleScope rule := by
  by_cases hempty : rule = []
  · -- the rule is the one that has been processed before, and there is no node
    refine ⟨fun h => ?_, fun h => absurd hempty h.nonempty⟩
    obtain ⟨created, checked, hcreated, hchecked⟩ := h.runs
    rw [create_empty hresolve hempty] at hcreated
    cases hcreated
    cases hchecked
  obtain ⟨hraises, hbuilds⟩ := DependencyNodeFactory.ruleTree_spec context.toRuleScope rule
  by_cases hr : (DependencyNodeFactory.ruleShape rule).Raises context.toRuleScope
  · refine ⟨fun h => ?_, fun h => absurd hr h.reads⟩
    obtain ⟨created, checked, hcreated, -⟩ := h.runs
    obtain ⟨e, he⟩ := hraises hr
    rw [create_tree hresolve myType name hempty, he] at hcreated
    cases hcreated
  obtain ⟨tree, htree, hb⟩ := hbuilds hr
  have hcreate := create_tree hresolve myType name hempty
  rw [htree] at hcreate
  cases hm : (DependencyNodeFactory.ruleShape rule).mixes with
  | true =>
    refine ⟨fun h => ?_, fun h => ?_⟩
    · obtain ⟨created, checked, hcreated, hchecked⟩ := h.runs
      rw [hcreate] at hcreated
      cases hcreated
      rw [hb.missing hm] at hchecked
      cases hchecked
    · have hunmixed := h.unmixed
      rw [hm] at hunmixed
      cases hunmixed
  | false =>
    obtain ⟨node, rfl, hvalid, hevaluable⟩ := hb.node hm
    constructor
    · intro h
      refine ⟨hempty, hr, hm, fun hv => ?_⟩
      have hchecked : isCorrect (⟨myType, name, true, rule, some node, [], true⟩ : RuledItem ν) = .ok _ := if_pos (hvalid.mpr hv)
      obtain ⟨node', hnode, hv', hstates⟩ := h.evaluates _ _ hcreate hchecked rfl
      cases hnode
      exact hevaluable.mp ((DependencyNode.evaluable_iff hv').mp hstates)
    · intro h
      obtain ⟨checked, hchecked⟩ : ∃ checked, isCorrect (⟨myType, name, true, rule, some node, [], true⟩ : RuledItem ν) =
          .ok checked := isCorrect_ok rfl
      refine ⟨⟨_, checked, hcreate, hchecked⟩, fun created checked' hcreated hchecked' hcorrect => ?_⟩
      cases hcreate.symm.trans hcreated
      obtain ⟨node', hnode, hv⟩ := (isCorrect_iff rfl rfl hchecked').mp hcorrect
      cases hnode
      exact ⟨node, rfl, hv, (DependencyNode.evaluable_iff hv).mpr (hevaluable.mpr (h.evaluable (hvalid.mp hv)))⟩

end

/-- A rule is created, checked and evaluated without an exception just when its macros
are resolved, to a sound text. -/
theorem rule_settles_iff : (unruled myType name).Settles context args ↔
    ∃ rule, context.resolve (['!'].intercalate args) = .ok rule ∧ Sound context.toRuleScope rule := by
  cases hresolve : context.resolve (['!'].intercalate args) with
  | error e =>
    refine ⟨fun h => ?_, fun ⟨_, h, _⟩ => nomatch h⟩
    obtain ⟨created, checked, hcreated, -⟩ := h.runs
    have hraised : createBusinessRules context args (unruled myType name) = .error e := by
      have hcreate : createBusinessRules context args (unruled myType name) =
        context.resolve (['!'].intercalate args) >>= _ := rfl
      rw [hcreate, hresolve]
      rfl
    rw [hraised] at hcreated
    cases hcreated
  | ok rule =>
    refine (settles_iff_sound hresolve).trans ⟨fun h => ⟨rule, rfl, h⟩, fun ⟨_, h, hsound⟩ => ?_⟩
    cases h
    exact hsound

/-- Every name is a host, and a text of macros stands for itself. -/
def plainContext : RuleContext (List Char) := ⟨DependencyNodeFactory.allHosts, Char.isAlphanum, .ok⟩

/-- A level that mixes operators within an accepted rule, and at the top of one. -/
theorem mixed_rules :
    (createBusinessRules plainContext ["(a&b|c)&d".toList] (unruled "host" "h") >>= fun created =>
      created.isCorrect.map fun checked =>
        (checked.confIsCorrect, created.businessRule.map (DependencyNode.getState (DependencyNode.inState 0)))) =
      .ok (true, some (.error .attributeError)) ∧
    (createBusinessRules plainContext ["a&b|c".toList] (unruled "host" "h") >>= fun created =>
      created.isCorrect.map fun checked => checked.confIsCorrect) = .error .attributeError := by
  decide +kernel

end RuledItem

end Alignak
