import Alignak.ExpressionTexts

/-!
# What an expression selects

The set semantics of an expression, and the set that the tree of the text
resolves to.
-/

namespace Alignak.ComplexExpression

/-! ## The set semantics -/

def levelSet (operator : Operator) (members : List (Bool × Set (List Char))) : Set (List Char) :=
  {x | (match operator with
      | .or => ∃ m ∈ members, m.1 = false ∧ x ∈ m.2
      | .and => (∃ m ∈ members, m.1 = false) ∧ ∀ m ∈ members, m.1 = false → x ∈ m.2) ∧
    ∀ m ∈ members, m.1 = true → x ∉ m.2}

def namedMembers (scope : ExpressionScope) (n : List Char) : List (List Char) := (findObject scope n).1.getD []

mutual

def CorExpr.denote (scope : ExpressionScope) : CorExpr → Set (List Char)
  | .name n => {x | x ∈ namedMembers scope n}
  | .group operator items => levelSet operator (denoteItems scope items)

def denoteItems (scope : ExpressionScope) : List (Bool × CorExpr) → List (Bool × Set (List Char))
  | [] => []
  | (negated, e) :: items => (negated, e.denote scope) :: denoteItems scope items

end

def levelDenote (scope : ExpressionScope) (operator : Operator) (items : List (Bool × CorExpr)) : Set (List Char) :=
  levelSet operator (denoteItems scope items)

/-! ## Where the mark is honoured -/

def loneNegation : List (Bool × CorExpr) → Bool
  | [(true, .name _)] => true
  | _ => false

def CorExpr.nameLike : CorExpr → Bool
  | .name _ => true
  | .group _ [(false, .name _)] => true
  | .group _ _ => false

mutual

def CorExpr.honoured : CorExpr → Bool
  | .name _ => true
  | .group _ items => !loneNegation items && honouredItems items

def honouredItems : List (Bool × CorExpr) → Bool
  | [] => true
  | (negated, e) :: items => (if negated then e.nameLike else e.honoured) && honouredItems items

end

def honouredLevel (items : List (Bool × CorExpr)) : Bool := !loneNegation items && honouredItems items

variable {n t w : List Char}

section
variable {operator : Operator} {operand : Option Operator} {items : List (Bool × CorExpr)} {item : Bool × CorExpr}
  {members : List (Finset (List Char))} {sets : List (Bool × Set (List Char))} {sons : List ComplexExpressionNode} {x : List Char}

/-! ## Resolving a level -/

namespace ComplexExpressionNode

theorem mem_exclude {res : Finset (List Char)} : x ∈ exclude res members ↔ x ∈ res ∧ ∀ m ∈ members, x ∉ m := by
  unfold exclude
  induction members generalizing res with
  | nil => simp
  | cons m members ih =>
    rw [List.foldl_cons, ih, Finset.mem_sdiff, List.forall_mem_cons, and_assoc]

theorem mem_combine_from {res : Finset (List Char)} {i : Nat} (hi : 0 < i) :
    x ∈ (members.foldl (fun (res : Nat × Finset (List Char)) nodeMembers => (res.1 + 1, match operator with
      | .or => res.2 ∪ nodeMembers
      | .and => if res.1 = 0 then nodeMembers else res.2 ∩ nodeMembers)) (i, res)).2 ↔
    match operator with
    | .or => x ∈ res ∨ ∃ m ∈ members, x ∈ m
    | .and => x ∈ res ∧ ∀ m ∈ members, x ∈ m := by
  induction members generalizing res i with
  | nil => cases operator <;> simp
  | cons m members ih =>
    rw [List.foldl_cons]
    refine (ih (Nat.succ_pos i)).trans ?_
    cases operator with
    | or =>
      simp only [Finset.mem_union, List.exists_mem_cons_iff]
      rw [or_assoc]
    | and =>
      simp only [if_neg hi.ne', Finset.mem_inter, List.forall_mem_cons]
      rw [and_assoc]

theorem mem_combine : x ∈ combine operator members ↔
    match operator with
    | .or => ∃ m ∈ members, x ∈ m
    | .and => members ≠ [] ∧ ∀ m ∈ members, x ∈ m := by
  unfold combine
  cases members with
  | nil => cases operator <;> simp
  | cons m members =>
    rw [List.foldl_cons]
    refine (mem_combine_from (Nat.succ_pos 0)).trans ?_
    cases operator with
    | or => simp
    | and => simp

end ComplexExpressionNode

open ComplexExpressionNode

/-- A node stands for an item when it selects the same hosts under the same mark. -/
structure Represents (scope : ExpressionScope) (item : Bool × CorExpr) (node : ComplexExpressionNode) : Prop where
  notValue : node.notValue = item.1
  mem : ∀ x, x ∈ node.resolveElements ↔ x ∈ item.2.denote scope

variable {scope : ExpressionScope}

theorem denoteItems_eq (items : List (Bool × CorExpr)) :
    denoteItems scope items = items.map fun item => (item.1, item.2.denote scope) := by
  induction items with
  | nil => rfl
  | cons item items ih =>
    rw [List.map_cons, ← ih]
    rfl

theorem resolveSons_eq (sons : List ComplexExpressionNode) :
    resolveSons sons = sons.map fun son => (son.notValue, son.resolveElements) := by
  induction sons with
  | nil => rfl
  | cons son sons ih =>
    rw [List.map_cons, ← ih]
    rfl

theorem exists_son (h : List.Forall₂ (Represents scope) items sons) (Q : Bool → Prop → Prop) :
    (∃ son ∈ resolveSons sons, Q son.1 (x ∈ son.2)) ↔ ∃ m ∈ denoteItems scope items, Q m.1 (x ∈ m.2) := by
  rw [resolveSons_eq, denoteItems_eq]
  induction h with
  | nil => simp
  | cons h hs ih =>
    rw [List.map_cons, List.map_cons, List.exists_mem_cons_iff, List.exists_mem_cons_iff, ih, h.notValue, propext (h.mem x)]

theorem forall_son (h : List.Forall₂ (Represents scope) items sons) (Q : Bool → Prop → Prop) :
    (∀ son ∈ resolveSons sons, Q son.1 (x ∈ son.2)) ↔ ∀ m ∈ denoteItems scope items, Q m.1 (x ∈ m.2) := by
  have hnot := not_congr (exists_son (x := x) h fun b p => ¬ Q b p)
  push Not at hnot
  exact hnot

theorem mem_level (h : List.Forall₂ (Represents scope) items sons) :
    x ∈ (level operand sons).resolveElements ↔ x ∈ levelDenote scope (operand.getD .or) items := by
  have hneg := forall_son (x := x) h fun b p => b = true → ¬ p
  have hall := forall_son (x := x) h fun b p => b = false → p
  have hsome := exists_son (x := x) h fun b p => b = false ∧ p
  have hpos := exists_son (x := x) h fun b _ => b = false
  unfold levelDenote levelSet
  rw [Set.mem_ofPred_eq, ← hneg]
  show x ∈ exclude _ _ ↔ _
  rw [mem_exclude, mem_combine]
  refine and_congr ?_ (by simp)
  cases operand.getD .or with
  | or =>
    rw [← hsome]
    simp [and_assoc]
  | and =>
    rw [← hall, ← hpos]
    refine and_congr ?_ (by simp)
    rw [ne_eq, List.map_eq_nil_iff, List.filter_eq_nil_iff]
    simp

theorem levelDenote_one (operator : Operator) (item : Bool × CorExpr) :
    levelDenote scope operator [item] = if item.1 then ∅ else item.2.denote scope := by
  unfold levelDenote levelSet
  rw [denoteItems_eq]
  ext x
  cases hb : item.1 <;> cases operator <;> simp [hb]

/-! ## A leaf -/

theorem findObject_strip (n : List Char) : findObject scope (strip n) = findObject scope n := by
  unfold findObject
  rw [strip_strip]

theorem findObject_blank {w' : List Char} (h : IsName n) (hw : Blank w) (hw' : Blank w') :
    findObject scope (w ++ n ++ w') = findObject scope n := by
  rw [← findObject_strip, h.stripped.strip_around hw hw']

theorem represents_found (notValue : Bool) (n : List Char) : Represents scope (notValue, .name n)
    (match findObject scope n with
      | (some obj, _) => .leaf notValue (some obj) []
      | (none, error) => .leaf notValue none error.toList) := by
  refine ⟨?_, fun x => ?_⟩
  · split <;> rfl
  · show _ ↔ x ∈ (findObject scope n).1.getD []
    rw [← List.mem_toFinset]
    rcases findObject scope n with ⟨_ | obj, error⟩ <;> exact Iff.rfl

theorem represents_plain (h : n.head? ≠ some '!') :
    Represents scope (false, .name n) (evalSimplePattern scope n) := by
  unfold evalSimplePattern
  split
  rename_i hmatch
  split at hmatch
  · exact absurd rfl h
  · cases hmatch
    exact represents_found false n

/-! ## The tree of a text -/

theorem evalCorPattern_simple {p : List Char} (h : isComplex (strip p) = false) (fuel : Nat) :
    evalCorPattern scope (fuel + 1) p = .ok (evalSimplePattern scope (strip p)) := by
  rw [evalCorPattern, if_neg (by rw [h]; decide)]

theorem noBlank : Blank [] := List.forall_mem_nil _

theorem Stripped.strip_eq {l : List Char} (h : Stripped l) : strip l = l := by
  have haround := h.strip_around noBlank noBlank
  rw [List.nil_append, List.append_nil] at haround
  exact haround

theorem eval_name (h : IsName n) (fuel : Nat) :
    ∃ node, evalCorPattern scope (fuel + 1) n = .ok node ∧ Represents scope (false, .name n) node := by
  have hstrip := Stripped.strip_eq h.stripped
  refine ⟨_, evalCorPattern_simple (by rw [hstrip]; exact h.simple) fuel, ?_⟩
  rw [hstrip]
  exact represents_plain h.notMark

theorem strip_marked {w' : List Char} (h : IsName n) (hw : Blank w) (hw' : Blank w') :
    strip ('!' :: (w ++ n) ++ w') = '!' :: (w ++ n) := by
  exact strip_item (.notName h hw) noBlank hw'

theorem eval_notName (h : IsName n) (hw : Blank w) (fuel : Nat) :
    ∃ node, evalCorPattern scope (fuel + 1) ('!' :: (w ++ n)) = .ok node ∧ Represents scope (true, .name n) node := by
  have hstrip := strip_marked h hw noBlank
  rw [List.append_nil] at hstrip
  refine ⟨_, evalCorPattern_simple (by rw [hstrip]; exact h.of_blank hw) fuel, ?_⟩
  rw [hstrip]
  have hmarked : Represents scope (true, .name (w ++ n)) _ := represents_found true (w ++ n)
  have hfound : findObject scope (w ++ n ++ []) = findObject scope n := findObject_blank h hw noBlank
  rw [List.append_nil] at hfound
  refine ⟨hmarked.notValue, fun x => (hmarked.mem x).trans ?_⟩
  show x ∈ namedMembers scope (w ++ n) ↔ x ∈ namedMembers scope n
  unfold namedMembers
  rw [hfound]

theorem stored_simple {tmp : List Char} (h : '(' ∉ t) : stored tmp t = tmp ++ t := by
  induction t generalizing tmp with
  | nil => exact (List.append_nil _).symm
  | cons c t ih =>
    have hc : c ≠ '(' := fun e => h (e ▸ List.mem_cons_self)
    show stored (if c = '(' then strip tmp ++ [c] else tmp ++ [c]) t = _
    rw [if_neg hc, ih fun ht => h (List.mem_cons_of_mem _ ht), List.append_assoc, List.singleton_append]

theorem eval_notGroup (h : WritesLevel operator [(false, .name n)] t) (fuel : Nat) :
    ∃ node, evalCorPattern scope (fuel + 1) (strip (stored ['!'] t)) = .ok node ∧
      Represents scope (true, .group operator [(false, .name n)]) node := by
  cases h with
  | @single _ _ core w w' h hw hw' =>
    cases h with
    | name h =>
      have hparen : '(' ∉ w ++ (n ++ w') := by
        simp only [List.mem_append, not_or]
        exact ⟨blank_notMem hw isSpace_paren, h.notMem (by decide), blank_notMem hw' isSpace_paren⟩
      have hassoc : ['!'] ++ (w ++ (n ++ w')) = '!' :: (w ++ n) ++ w' := by simp
      obtain ⟨node, hnode, hrep⟩ := eval_notName h hw fuel
      refine ⟨node, by rw [stored_simple hparen, hassoc, strip_marked h hw hw', hnode], hrep.notValue, fun x => (hrep.mem x).trans ?_⟩
      show _ ↔ x ∈ levelDenote scope operator [(false, .name n)]
      rw [levelDenote_one]
      exact Iff.rfl
  | cons h hw hw' hsep ht => cases ht

def Reads (scope : ExpressionScope) (fuel : Nat) : Prop := ∀ operator items t, WritesLevel operator items t →
  honouredLevel items = true → t.length < fuel → ∃ node, evalCorPattern scope fuel t = .ok node ∧ node.notValue = false ∧
    ∀ x, x ∈ node.resolveElements ↔ x ∈ levelDenote scope operator items

theorem Piece.eval {fuel : Nat} (hreads : Reads scope fuel) {p : List Char} (h : Piece item p)
    (hh : (if item.1 then item.2.nameLike else item.2.honoured) = true) (hlen : p.length < fuel) :
    ∃ node, evalCorPattern scope fuel p = .ok node ∧ Represents scope item node := by
  obtain ⟨fuel, rfl⟩ : ∃ k, fuel = k + 1 := ⟨fuel - 1, by omega⟩
  cases h with
  | name h => exact eval_name h fuel
  | @notName n w h hw =>
    obtain ⟨node, hnode, hrep⟩ := eval_notName h hw fuel
    exact ⟨node, hnode, hrep⟩
  | @group operator items t h =>
    obtain ⟨node, hnode, hnot, hmem⟩ := hreads _ _ _ h.stored hh hlen
    exact ⟨node, hnode, hnot, hmem⟩
  | @notGroup operator items t h =>
    have hname : (CorExpr.group operator items).nameLike = true := hh
    unfold CorExpr.nameLike at hname
    split at hname
    · rename_i heq
      cases heq
    · rename_i heq
      cases heq
      exact eval_notGroup h fuel
    · cases hname

theorem pieces_mapM {fuel : Nat} (hreads : Reads scope fuel) {ps : List (List Char)} (h : List.Forall₂ Piece items ps)
    (hh : honouredItems items = true) (hlen : ∀ p ∈ ps, p.length < fuel) :
    ∃ sons, ps.mapM (evalCorPattern scope fuel) = .ok sons ∧ List.Forall₂ (Represents scope) items sons := by
  induction h with
  | nil => exact ⟨[], rfl, .nil⟩
  | @cons item p items ps h hs ih =>
    obtain ⟨negated, e⟩ := item
    rw [honouredItems, Bool.and_eq_true] at hh
    obtain ⟨node, hnode, hrep⟩ := h.eval hreads hh.1 (hlen p List.mem_cons_self)
    obtain ⟨sons, hsons, hreps⟩ := ih hh.2 fun q hq => hlen q (List.mem_cons_of_mem _ hq)
    refine ⟨node :: sons, ?_, .cons hrep hreps⟩
    rw [List.mapM_cons, hnode, hsons]
    rfl

theorem simple_level (h : WritesLevel operator items t) (hs : isComplex t = false) (hh : honouredLevel items = true) :
    ∃ n, IsName n ∧ items = [(false, .name n)] ∧ strip t = n := by
  cases h with
  | @single _ item core w w' h hw hw' =>
    have hstrip := strip_item h hw hw'
    rw [Scan.isComplex_append, Scan.isComplex_append, Bool.or_eq_false_iff, Bool.or_eq_false_iff] at hs
    cases h with
    | name h => exact ⟨core, h, rfl, hstrip⟩
    | notName h hv => cases hh
    | group h => cases hs.2.1
    | @notGroup operator items t v hv h =>
      have hparen := List.any_eq_false.mp hs.2.1 '(' (by simp)
      exact absurd (by decide) hparen
  | @cons _ item items core w w' t sep h hw hw' hsep ht =>
    have hspecial := List.any_eq_false.mp hs sep (by simp)
    refine absurd ?_ hspecial
    cases operator <;> simp only [Operator.chars, List.mem_cons, List.not_mem_nil, or_false] at hsep <;>
      rcases hsep with rfl | rfl <;> decide

theorem reads (scope : ExpressionScope) (fuel : Nat) : Reads scope fuel := by
  induction fuel with
  | zero => exact fun operator items t h hh hlen => absurd hlen (Nat.not_lt_zero _)
  | succ fuel ih =>
    intro operator items t h hh hlen
    by_cases hc : isComplex (strip t) = true
    · obtain ⟨ps, hps⟩ := h.strip.cuts
      have hfuel : ∀ p ∈ ps, p.length < fuel := fun p hp => by
        have h1 := (hps.short p hp).2 hc
        have h2 := length_strip_le t
        omega
      have hh' := hh
      rw [honouredLevel, Bool.and_eq_true] at hh'
      obtain ⟨sons, hsons, hreps⟩ := pieces_mapM ih hps.pieces hh'.2 hfuel
      have hrun := hps.run Scan.start ⟨rfl, rfl, rfl⟩
      refine ⟨.level (if items.length = 1 then none else some operator) sons, ?_, rfl, fun x => (mem_level hreps).trans ?_⟩
      · rw [evalCorPattern, if_pos hc]
        show (((Scan.start.run (strip t)).texts.mapM (evalCorPattern scope fuel)) >>= fun sons => _) = _
        unfold Scan.run
        rw [hrun]
        show (ps.mapM (evalCorPattern scope fuel) >>= fun sons => _) = _
        rw [hsons]
        rfl
      · by_cases hone : items.length = 1
        · obtain ⟨item, rfl⟩ := List.length_eq_one_iff.mp hone
          rw [levelDenote_one, levelDenote_one]
        · rw [if_neg hone]
          exact Iff.rfl
    · rw [Bool.not_eq_true] at hc
      obtain ⟨n, hn, rfl, hstrip⟩ := simple_level h.strip hc hh
      rw [strip_strip] at hstrip
      have hplain : Represents scope (false, .name n) _ := represents_plain hn.notMark
      refine ⟨_, evalCorPattern_simple hc fuel, ?_⟩
      rw [hstrip]
      refine ⟨hplain.notValue, fun x => (hplain.mem x).trans ?_⟩
      rw [levelDenote_one]
      exact Iff.rfl

/-- The hosts that an expression selects are those of its set semantics, where
each mark stands before a name. -/
theorem evaluateHostgroupExpression_denotes (scope : ExpressionScope) {operator : Operator} {items : List (Bool × CorExpr)}
    {expr : List Char} (h : WritesLevel operator items expr) (hh : honouredLevel items = true) :
    ∃ hosts, evaluateHostgroupExpression scope expr = .ok hosts ∧ ∀ x, x ∈ hosts ↔ x ∈ levelDenote scope operator items := by
  obtain ⟨node, hnode, -, hmem⟩ := reads scope _ _ _ _ h hh (Nat.lt_succ_self _)
  refine ⟨node.resolveElements, ?_, hmem⟩
  unfold evaluateHostgroupExpression
  rw [hnode]
  rfl

end

/-! ## Two expressions -/

/-- The hosts are `a`, `b` and `c`, each a group of its own but for the first group. -/
def threeHosts : ExpressionScope where
  inHostgroups := true
  ctx := "hostgroups"
  allElements := [(['a'], false), (['b'], false), (['c'], false)]
  findByName n := if n = "linux".toList then some [['a'], ['b'], ['c']] else
    if n = "web".toList then some [['a']] else if n = "db".toList then some [['b']] else none
  findHostsThatUseTemplate _ := []

theorem isName_of (h : n ≠ []) (hends : isSpace (n.head h) = false ∧ isSpace (n.getLast h) = false)
    (hs : isComplex n = false ∧ n.head? ≠ some '!') : IsName n :=
  ⟨⟨h, fun _ => hends.1, fun _ => hends.2⟩, hs.1, hs.2⟩

theorem linux_isName : IsName "linux".toList := isName_of (by decide) (by decide) (by decide)
theorem web_isName : IsName "web".toList := isName_of (by decide) (by decide) (by decide)
theorem db_isName : IsName "db".toList := isName_of (by decide) (by decide) (by decide)

theorem oneBlank : Blank [' '] := fun c hc => by rw [List.mem_singleton.mp hc]; decide

/-- `(linux|web) & !db` -/
theorem evaluateHostgroupExpression_denotes_marked :
    ∃ hosts, evaluateHostgroupExpression threeHosts "(linux|web) & !db".toList = .ok hosts ∧ ∀ x, x ∈ hosts ↔
      x ∈ levelDenote threeHosts .and
        [(false, .group .or [(false, .name "linux".toList), (false, .name "web".toList)]), (true, .name "db".toList)] := by
  have hinner : WritesLevel .or [(false, .name "linux".toList), (false, .name "web".toList)] "linux|web".toList :=
    @WritesLevel.cons .or _ _ _ [] [] _ '|' (.name linux_isName) noBlank noBlank (by decide)
      (@WritesLevel.single _ _ _ [] [] (.name web_isName) noBlank noBlank)
  have hlevel : WritesLevel .and
      [(false, .group .or [(false, .name "linux".toList), (false, .name "web".toList)]), (true, .name "db".toList)]
      "(linux|web) & !db".toList :=
    @WritesLevel.cons .and _ _ _ [] [' '] _ '&' (.group hinner) noBlank oneBlank (by decide)
      (@WritesLevel.single _ _ _ [' '] [] (@WritesItem.notName _ [] db_isName noBlank) oneBlank noBlank)
  exact evaluateHostgroupExpression_denotes threeHosts hlevel (by decide)

/-- In `linux & !(web|db)` the mark goes to `web`, so that the hosts of `db` are selected. -/
theorem markBeforeGroup_fails :
    WritesLevel .and [(false, .name "linux".toList),
      (true, .group .or [(false, .name "web".toList), (false, .name "db".toList)])] "linux & !(web|db)".toList ∧
    ¬ ∃ hosts, evaluateHostgroupExpression threeHosts "linux & !(web|db)".toList = .ok hosts ∧ ∀ x, x ∈ hosts ↔
      x ∈ levelDenote threeHosts .and [(false, .name "linux".toList),
        (true, .group .or [(false, .name "web".toList), (false, .name "db".toList)])] := by
  have hinner : WritesLevel .or [(false, .name "web".toList), (false, .name "db".toList)] "web|db".toList :=
    @WritesLevel.cons .or _ _ _ [] [] _ '|' (.name web_isName) noBlank noBlank (by decide)
      (@WritesLevel.single _ _ _ [] [] (.name db_isName) noBlank noBlank)
  refine ⟨@WritesLevel.cons .and _ _ _ [] [' '] _ '&' (.name linux_isName) noBlank oneBlank (by decide)
    (@WritesLevel.single _ _ _ [' '] [] (@WritesItem.notGroup _ _ _ [] noBlank hinner) oneBlank noBlank), ?_⟩
  rintro ⟨hosts, heval, hmem⟩
  have hrun : ((evaluateHostgroupExpression threeHosts "linux & !(web|db)".toList).toOption.any fun hosts =>
    decide (['b'] ∈ hosts)) = true := by decide +kernel
  rw [heval] at hrun
  obtain ⟨-, hnot⟩ := (hmem ['b']).mp (of_decide_eq_true hrun)
  refine hnot (true, levelDenote threeHosts .or [(false, .name "web".toList), (false, .name "db".toList)]) 
    (by simp [denoteItems, CorExpr.denote, levelDenote]) rfl ?_
  have hdb : ['b'] ∈ (CorExpr.name "db".toList).denote threeHosts := List.mem_singleton_self _
  refine ⟨⟨_, List.mem_cons_of_mem _ List.mem_cons_self, rfl, hdb⟩, fun m hm hmark => ?_⟩
  rcases List.mem_pair.mp hm with rfl | rfl <;> cases hmark

end Alignak.ComplexExpression
