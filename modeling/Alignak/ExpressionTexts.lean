import Alignak.ComplexExpression
import Alignak.RuleNegation

/-!
# The texts of expressions

A level is written as its items with one kind of operator between them, and
white space around.
-/

namespace Alignak.ComplexExpression

inductive CorExpr
  | name (name : List Char)
  | group (operator : Operator) (items : List (Bool × CorExpr))

def Operator.chars : Operator → List Char
  | .and => ['&', '+']
  | .or => [',', '|']

structure IsName (n : List Char) : Prop where
  stripped : Stripped n
  simple : isComplex n = false
  notMark : n.head? ≠ some '!'

mutual

inductive WritesItem : Bool × CorExpr → List Char → Prop
  | name {n : List Char} (h : IsName n) : WritesItem (false, .name n) n
  | notName {n w : List Char} (h : IsName n) (hw : Blank w) : WritesItem (true, .name n) ('!' :: (w ++ n))
  | group {operator : Operator} {items : List (Bool × CorExpr)} {t : List Char} (h : WritesLevel operator items t) :
      WritesItem (false, .group operator items) ('(' :: (t ++ [')']))
  | notGroup {operator : Operator} {items : List (Bool × CorExpr)} {t w : List Char} (hw : Blank w)
      (h : WritesLevel operator items t) : WritesItem (true, .group operator items) ('!' :: (w ++ '(' :: (t ++ [')'])))

inductive WritesLevel : Operator → List (Bool × CorExpr) → List Char → Prop
  | single {operator : Operator} {item : Bool × CorExpr} {core w w' : List Char} (h : WritesItem item core) (hw : Blank w)
      (hw' : Blank w') : WritesLevel operator [item] (w ++ (core ++ w'))
  | cons {operator : Operator} {item : Bool × CorExpr} {items : List (Bool × CorExpr)} {core w w' t : List Char} {sep : Char}
      (h : WritesItem item core) (hw : Blank w) (hw' : Blank w') (hsep : sep ∈ operator.chars)
      (ht : WritesLevel operator items t) : WritesLevel operator (item :: items) (w ++ (core ++ (w' ++ sep :: t)))

end

variable {l n r : List Char} {c : Char}

section
variable {operator : Operator} {item : Bool × CorExpr} {items : List (Bool × CorExpr)} {core t w w' : List Char}

/-! ## Ends of the texts -/

theorem IsName.eq_cons (h : IsName n) : ∃ c l, n = c :: l ∧ isSpace c = false ∧ c ≠ '!' := by
  cases n with
  | nil => exact absurd rfl h.stripped.ne
  | cons c l => exact ⟨c, l, rfl, h.stripped.head (by simp), fun e => h.notMark (by rw [e]; rfl)⟩

theorem WritesItem.head (h : WritesItem item core) : ∃ c l, core = c :: l ∧ isSpace c = false := by
  cases h with
  | name h =>
    obtain ⟨c, l, e, hc, -⟩ := h.eq_cons
    exact ⟨c, l, e, hc⟩
  | notName h hw => exact ⟨'!', _, rfl, by decide⟩
  | group h => exact ⟨'(', _, rfl, by decide⟩
  | notGroup hw h => exact ⟨'!', _, rfl, by decide⟩

theorem WritesItem.last (h : WritesItem item core) : ∃ l c, core = l ++ [c] ∧ isSpace c = false := by
  have hname : ∀ {n : List Char}, IsName n → ∃ l c, n = l ++ [c] ∧ isSpace c = false := fun {n} h =>
    ⟨n.dropLast, n.getLast h.stripped.ne, (List.dropLast_append_getLast h.stripped.ne).symm, h.stripped.last _⟩
  cases h with
  | name h => exact hname h
  | @notName n w h hw =>
    obtain ⟨l, c, rfl, hc⟩ := hname h
    exact ⟨'!' :: (w ++ l), c, by simp, hc⟩
  | @group operator items t h => exact ⟨'(' :: t, ')', rfl, by decide⟩
  | @notGroup operator items t w hw h => exact ⟨'!' :: (w ++ '(' :: t), ')', by simp, by decide⟩

theorem isSpace_sep {sep : Char} (h : sep ∈ operator.chars) : isSpace sep = false := by
  cases operator <;> simp only [Operator.chars, List.mem_cons, List.not_mem_nil, or_false] at h <;> rcases h with rfl | rfl <;> decide

theorem dropWhile_item (h : WritesItem item core) : (core ++ r).dropWhile isSpace = core ++ r := by
  obtain ⟨c, l, rfl, hc⟩ := h.head
  rw [List.cons_append, List.dropWhile_cons_of_neg (by simp [hc])]

theorem rdropWhile_concat_append (hc : isSpace c = false) :
    (l ++ c :: r).rdropWhile isSpace = l ++ c :: r.rdropWhile isSpace := by
  induction r using List.reverseRecOn with
  | nil =>
    rw [List.rdropWhile_concat_neg _ _ _ (by simp [hc])]
    rfl
  | append_singleton r d ih =>
    have hassoc : l ++ c :: (r ++ [d]) = (l ++ c :: r) ++ [d] := by simp
    rw [hassoc]
    by_cases hd : isSpace d = true
    · rw [List.rdropWhile_concat_pos _ _ _ hd, List.rdropWhile_concat_pos _ _ _ hd, ih]
    · rw [List.rdropWhile_concat_neg _ _ _ hd, List.rdropWhile_concat_neg _ _ _ hd]
      simp

theorem WritesLevel.dropWhile (h : WritesLevel operator items t) : WritesLevel operator items (t.dropWhile isSpace) := by
  cases h with
  | @single _ item core w w' h hw hw' =>
    rw [dropWhile_blank_append hw, dropWhile_item h]
    exact .single (w := []) h (fun _ e => nomatch e) hw'
  | @cons _ item items core w w' t sep h hw hw' hsep ht =>
    rw [dropWhile_blank_append hw, dropWhile_item h]
    exact .cons (w := []) h (fun _ e => nomatch e) hw' hsep ht

theorem WritesLevel.rdropWhile (h : WritesLevel operator items t) : WritesLevel operator items (t.rdropWhile isSpace) := by
  induction items generalizing t with
  | nil => cases h
  | cons item items ih =>
    cases h with
    | @single _ _ core w w' h hw hw' =>
      obtain ⟨l, c, rfl, hc⟩ := h.last
      have hend : (w ++ (l ++ [c] ++ w')).rdropWhile isSpace = w ++ (l ++ [c] ++ []) := by
        rw [← List.append_assoc, rdropWhile_append_blank hw', ← List.append_assoc, rdropWhile_concat_append hc]
        simp [List.rdropWhile]
      rw [hend]
      exact .single h hw fun _ e => nomatch e
    | @cons _ _ _ core w w' t sep h hw hw' hsep ht =>
      have hend : (w ++ (core ++ (w' ++ sep :: t))).rdropWhile isSpace = w ++ (core ++ (w' ++ sep :: t.rdropWhile isSpace)) := by
        have hassoc : ∀ r : List Char, w ++ (core ++ (w' ++ sep :: r)) = (w ++ core ++ w') ++ sep :: r := by simp
        rw [hassoc, hassoc, rdropWhile_concat_append (isSpace_sep hsep)]
      rw [hend]
      exact .cons h hw hw' hsep (ih ht)

theorem WritesLevel.strip (h : WritesLevel operator items t) : WritesLevel operator items (strip t) := h.dropWhile.rdropWhile

/-! ## Inner parentheses -/

theorem squeeze_of_simple (h : '(' ∉ l) : squeeze l = l := by
  induction l with
  | nil => rfl
  | cons c l ih =>
    have hopens : opens l = false := by
      unfold opens
      refine decide_eq_false fun e => ?_
      exact h (List.mem_cons_of_mem _ ((List.dropWhile_sublist isSpace).mem (List.mem_of_mem_head? e)))
    rw [squeeze_keep hopens, ih fun hl => h (List.mem_cons_of_mem _ hl)]

theorem squeeze_blank_append {w : List Char} (hw : Blank w) (h : opens l = false) : squeeze (w ++ l) = w ++ squeeze l := by
  induction w with
  | nil => rfl
  | cons c w ih =>
    have hw' : Blank w := fun d hd => hw d (List.mem_cons_of_mem _ hd)
    have hopens : opens (w ++ l) = false := by
      unfold opens
      rw [dropWhile_blank_append hw']
      exact h
    rw [List.cons_append, squeeze_keep hopens, ih hw', List.cons_append]

theorem IsName.notMem (h : IsName n) (hc : "()+&|,".toList.contains c = true) : c ∉ n := by
  intro hn
  have hany := List.any_eq_false.mp h.simple c hn
  exact hany hc

theorem blank_notMem {w : List Char} (hw : Blank w) (hc : isSpace c = false) : c ∉ w := fun h => by
  rw [hw c h] at hc
  cases hc

theorem squeeze_around (hw : Blank w) (hc : isSpace c = false) (h : c ≠ '(') :
    squeeze (w ++ (c :: l ++ r)) = w ++ squeeze (c :: l ++ r) := by
  refine squeeze_blank_append hw ?_
  rw [List.cons_append, opens_cons hc]
  exact decide_eq_false h

theorem squeeze_item (hc : isSpace c = false) :
    squeeze (l ++ [c] ++ r) = squeeze (l ++ [c]) ++ squeeze r := by
  refine squeeze_append (fun d hd => ?_) r
  rw [List.getLast?_concat] at hd
  cases hd
  exact hc

theorem sep_ne_paren {sep : Char} (h : sep ∈ operator.chars) : sep ≠ '(' ∧ sep ≠ ')' := by
  cases operator <;> simp only [Operator.chars, List.mem_cons, List.not_mem_nil, or_false] at h <;> rcases h with rfl | rfl <;> decide

mutual

theorem WritesItem.squeeze {item : Bool × CorExpr} {core w : List Char} (h : WritesItem item core) (hw : Blank w) :
    ∃ core' v, WritesItem item core' ∧ Blank v ∧ ∀ r, squeeze (w ++ (core ++ r)) = v ++ (core' ++ squeeze r) := by
  cases h with
  | name h =>
    refine ⟨core, w, .name h, hw, fun r => ?_⟩
    obtain ⟨l, c, e, hc⟩ := WritesItem.last (.name h)
    obtain ⟨c', l', e', hc', -⟩ := h.eq_cons
    have hparen : '(' ∉ core := h.notMem (by decide)
    have hne : c' ≠ '(' := fun hp => hparen (by rw [e', hp]; exact List.mem_cons_self)
    rw [e', squeeze_around hw hc' hne, ← e', e, squeeze_item hc, ← e, squeeze_of_simple hparen]
  | @notName n v h hv =>
    refine ⟨'!' :: (v ++ n), w, .notName h hv, hw, fun r => ?_⟩
    obtain ⟨l, c, e, hc⟩ := WritesItem.last (.notName h hv)
    have hparen : '(' ∉ '!' :: (v ++ n) := by
      simp only [List.mem_cons, List.mem_append, not_or]
      exact ⟨by decide, blank_notMem hv isSpace_paren, h.notMem (by decide)⟩
    rw [squeeze_around hw (by decide) (by decide), e, squeeze_item hc, ← e, squeeze_of_simple hparen]
  | @group operator items t h =>
    refine ⟨'(' :: (Alignak.squeeze t ++ [')']), [], .group h.squeeze, fun _ e => (nomatch e), fun r => ?_⟩
    rw [List.cons_append, squeeze_blank_paren hw, squeeze_item (by decide), squeeze_snoc (by decide)]
    rfl
  | @notGroup operator items t v hv h =>
    refine ⟨'!' :: ([] ++ '(' :: (Alignak.squeeze t ++ [')'])), w, .notGroup (fun _ e => nomatch e) h.squeeze, hw, fun r => ?_⟩
    rw [squeeze_around hw (by decide) (by decide), List.cons_append, squeeze_cons (by decide), List.append_assoc, List.cons_append,
      squeeze_blank_paren hv, squeeze_item (by decide), squeeze_snoc (by decide)]
    rfl

theorem WritesLevel.squeeze {operator : Operator} {items : List (Bool × CorExpr)} {t : List Char}
    (h : WritesLevel operator items t) : WritesLevel operator items (Alignak.squeeze t) := by
  cases h with
  | @single _ item core w w' h hw hw' =>
    obtain ⟨core', v, hcore, hv, e⟩ := h.squeeze hw
    rw [e, squeeze_of_blank hw']
    exact .single hcore hv hw'
  | @cons _ item items core w w' t sep h hw hw' hsep ht =>
    obtain ⟨core', v, hcore, hv, e⟩ := h.squeeze hw
    have hrest : Alignak.squeeze (w' ++ sep :: t) = w' ++ sep :: Alignak.squeeze t := by
      have hsp := isSpace_sep hsep
      rw [squeeze_blank_append hw' (by rw [opens_cons hsp]; exact decide_eq_false (sep_ne_paren hsep).1), squeeze_cons hsp]
    rw [e, hrest]
    exact .cons hcore hv hw' hsep ht.squeeze

end

theorem WritesLevel.stored (h : WritesLevel operator items t) : WritesLevel operator items (Alignak.strip (stored [] t)) := by
  rw [strip_stored t [] rfl]
  exact h.squeeze.strip

theorem depthAfter_simple (h : '(' ∉ l) (h' : ')' ∉ l) (depth : Nat) :
    depthAfter depth (l ++ r) = depthAfter depth r := by
  induction l with
  | nil => rfl
  | cons c l ih =>
    rw [List.cons_append, depthAfter_other (fun e => h (e ▸ List.mem_cons_self)) (fun e => h' (e ▸ List.mem_cons_self))]
    exact ih (fun e => h (List.mem_cons_of_mem _ e)) fun e => h' (List.mem_cons_of_mem _ e)

theorem depthAfter_open (depth : Nat) (l : List Char) : depthAfter depth ('(' :: l) = depthAfter (depth + 1) l := by
  cases depth <;> rfl

theorem depthAfter_blank {w : List Char} (hw : Blank w) (depth : Nat) : depthAfter depth (w ++ r) = depthAfter depth r :=
  depthAfter_simple (blank_notMem hw (by decide)) (blank_notMem hw (by decide)) depth

mutual

theorem WritesItem.depthAfter {item : Bool × CorExpr} {core : List Char} (h : WritesItem item core) (depth : Nat) (r : List Char) :
    depthAfter depth (core ++ r) = depthAfter depth r := by
  cases h with
  | name h => exact depthAfter_simple (h.notMem (by decide)) (h.notMem (by decide)) depth
  | notName h hw =>
    rw [List.cons_append, depthAfter_other (by decide) (by decide), List.append_assoc, depthAfter_blank hw]
    exact depthAfter_simple (h.notMem (by decide)) (h.notMem (by decide)) depth
  | group h =>
    rw [List.cons_append, depthAfter_open, List.append_assoc, h.depthAfter]
    rfl
  | notGroup hw h =>
    rw [List.cons_append, depthAfter_other (by decide) (by decide), List.append_assoc, depthAfter_blank hw, List.cons_append,
      depthAfter_open, List.append_assoc, h.depthAfter]
    rfl

theorem WritesLevel.depthAfter {operator : Operator} {items : List (Bool × CorExpr)} {t : List Char}
    (h : WritesLevel operator items t) (depth : Nat) (r : List Char) : depthAfter depth (t ++ r) = depthAfter depth r := by
  cases h with
  | single h hw hw' => rw [List.append_assoc, depthAfter_blank hw, List.append_assoc, h.depthAfter, depthAfter_blank hw']
  | @cons _ item items core w w' t sep h hw hw' hsep ht =>
    obtain ⟨h1, h2⟩ := sep_ne_paren hsep
    rw [List.append_assoc, depthAfter_blank hw, List.append_assoc, h.depthAfter, List.append_assoc, depthAfter_blank hw',
      List.cons_append, depthAfter_other h1 h2, ht.depthAfter]

end

/-! ## Cutting a level -/

namespace Scan

theorem open_inner {s : Scan} (h : 0 < s.stackedPar) :
    s.step '(' = { s with stackedPar := s.stackedPar + 1, inPar := true, tmp := strip s.tmp ++ ['('] } := by
  show s.openPar = _
  unfold openPar
  simp only
  rw [if_neg (by omega), if_pos (by omega)]

theorem close_inner {s : Scan} (h : 1 < s.stackedPar) :
    s.step ')' = { s with stackedPar := s.stackedPar - 1, tmp := s.tmp ++ [')'] } := by
  show s.closePar = _
  unfold closePar
  simp only
  rw [if_neg (by omega), if_neg (by omega)]

theorem step_inner {s : Scan} (h : s.inPar = true) {c : Char} (h1 : c ≠ '(') (h2 : c ≠ ')') :
    s.step c = { s with tmp := s.tmp ++ [c] } := by
  unfold step cut
  simp only [h, if_true, if_neg h1, if_neg h2, ite_self]

theorem foldl_inner {E : List Char} {s : Scan} {depth depth' : Nat} (hin : s.inPar = true) (hs : s.stackedPar = depth + 1)
    (hE : depthAfter depth E = some depth') :
    E.foldl step s = { s with tmp := stored s.tmp E, stackedPar := depth' + 1 } := by
  induction E generalizing s depth with
  | nil =>
    cases hE
    rw [← hs]
    rfl
  | cons c E ih =>
    rw [List.foldl_cons]
    by_cases h1 : c = '('
    · subst h1
      rw [open_inner (by omega)]
      have hs' : s.stackedPar + 1 = ((depth + 1 : Nat) : Int) + 1 := by rw [hs]; rfl
      rw [depthAfter_open] at hE
      refine (ih rfl hs' hE).trans ?_
      rw [mk.injEq]
      exact ⟨rfl, rfl, rfl, hin.symm, rfl⟩
    by_cases h2 : c = ')'
    · subst h2
      cases depth with
      | zero => cases hE
      | succ depth =>
        rw [close_inner (by omega)]
        exact ih (s := { s with stackedPar := s.stackedPar - 1, tmp := s.tmp ++ [')'] }) hin
          (by show s.stackedPar - 1 = _; rw [hs]; omega) hE
    · rw [step_inner hin h1 h2]
      rw [depthAfter_other h1 h2] at hE
      refine (ih (s := { s with tmp := s.tmp ++ [c] }) hin hs hE).trans ?_
      simp only [stored, List.foldl_cons, if_neg h1]

structure Fresh (s : Scan) : Prop where
  tmp : s.tmp = []
  inPar : s.inPar = false
  stackedPar : s.stackedPar = 0

theorem step_simple {s : Scan} {c : Char} (h : ¬ "()+&|,".toList.contains c = true) : s.step c = { s with tmp := s.tmp ++ [c] } := by
  have hne : ∀ {d : Char}, "()+&|,".toList.contains d = true → c ≠ d := fun hd e => h (e ▸ hd)
  unfold step
  rw [if_neg (not_or.mpr ⟨hne (by decide), hne (by decide)⟩), if_neg (not_or.mpr ⟨hne (by decide), hne (by decide)⟩),
    if_neg (hne (by decide)), if_neg (hne (by decide))]

theorem foldl_simple {l : List Char} (h : isComplex l = false) (s : Scan) : l.foldl step s = { s with tmp := s.tmp ++ l } := by
  induction l generalizing s with
  | nil => rw [List.append_nil]; rfl
  | cons c l ih =>
    unfold isComplex at h
    rw [List.any_cons, Bool.or_eq_false_iff] at h
    rw [List.foldl_cons, step_simple (by rw [h.1]; decide), ih h.2]
    simp

theorem isComplex_blank {w : List Char} (hw : Blank w) : isComplex w = false := by
  refine List.any_eq_false.mpr fun c hc hspecial => ?_
  have hspace := hw c hc
  simp only [List.contains_eq_mem, decide_eq_true_eq] at hspecial
  have hall : ("()+&|,".toList.all fun d => !isSpace d) = true := by decide
  have hnot := List.all_eq_true.mp hall c hspecial
  rw [hspace] at hnot
  cases hnot

theorem isComplex_append {l r : List Char} : isComplex (l ++ r) = (isComplex l || isComplex r) := List.any_append

def pushed (rest : List Char) : List (List Char) := if strip rest = [] then [] else [strip rest]

end Scan

inductive Piece : Bool × CorExpr → List Char → Prop
  | name {n : List Char} (h : IsName n) : Piece (false, .name n) n
  | notName {n w : List Char} (h : IsName n) (hw : Blank w) : Piece (true, .name n) ('!' :: (w ++ n))
  | group {operator : Operator} {items : List (Bool × CorExpr)} {t : List Char} (h : WritesLevel operator items t) :
      Piece (false, .group operator items) (strip (stored [] t))
  | notGroup {operator : Operator} {items : List (Bool × CorExpr)} {t : List Char} (h : WritesLevel operator items t) :
      Piece (true, .group operator items) (strip (stored ['!'] t))

theorem strip_item {core w w' : List Char} (h : WritesItem item core) (hw : Blank w) (hw' : Blank w') :
    strip (w ++ (core ++ w')) = core := by
  obtain ⟨c, l, e, hc⟩ := h.head
  obtain ⟨l', c', e', hc'⟩ := h.last
  have hs : Stripped core := by
    refine ⟨by rw [e]; exact List.cons_ne_nil _ _, fun hne => ?_, fun hne => ?_⟩
    · simp [e, hc]
    · simp [e', hc']
  rw [← List.append_assoc]
  exact hs.strip_around hw hw'

theorem WritesItem.ne_nil (h : WritesItem item core) : core ≠ [] := by
  obtain ⟨c, l, e, -⟩ := h.head
  rw [e]
  exact List.cons_ne_nil _ _

theorem pushed_item (h : WritesItem item core) (hw : Blank w) (hw' : Blank w') : Scan.pushed (w ++ (core ++ w')) = [core] := by
  unfold Scan.pushed
  rw [strip_item h hw hw', if_neg h.ne_nil]

theorem pushed_blank {w : List Char} (hw : Blank w) : Scan.pushed w = [] := if_pos (strip_blank hw)

theorem stored_length (tmp E : List Char) : (stored tmp E).length ≤ tmp.length + E.length := by
  induction E generalizing tmp with
  | nil => exact le_refl _
  | cons c E ih =>
    have hlen := length_strip_le tmp
    refine (ih _).trans ?_
    beta_reduce
    split <;> simp only [List.length_append, List.length_cons, List.length_nil] <;> omega

structure Cuts (item : Bool × CorExpr) (t : List Char) (p : List Char) : Prop where
  piece : Piece item p
  short : p.length ≤ t.length ∧ (isComplex t = true → p.length < t.length)
  run : ∃ added rest, added ++ Scan.pushed rest = [p] ∧
    ∀ s : Scan, s.Fresh → t.foldl Scan.step s = { s with texts := s.texts ++ added, tmp := rest }

theorem cuts_simple (h : WritesItem item core) (hp : Piece item core) (hw : Blank w) (hw' : Blank w') (hc : isComplex core = false) :
    Cuts item (w ++ (core ++ w')) core := by
  have hsimple : isComplex (w ++ (core ++ w')) = false := by
    rw [Scan.isComplex_append, Scan.isComplex_append, hc, Scan.isComplex_blank hw, Scan.isComplex_blank hw']
    rfl
  refine ⟨hp, ⟨by simp only [List.length_append]; omega, fun e => ?_⟩, [], w ++ (core ++ w'), pushed_item h hw hw', fun s hs => ?_⟩
  · rw [hsimple] at e
    cases e
  · rw [Scan.foldl_simple hsimple, hs.tmp, List.append_nil, List.nil_append]

theorem IsName.of_blank (h : IsName n) (hw : Blank w) : isComplex ('!' :: (w ++ n)) = false := by
  have hmark : '!' :: (w ++ n) = ['!'] ++ (w ++ n) := rfl
  rw [hmark, Scan.isComplex_append, Scan.isComplex_append, Scan.isComplex_blank hw, h.simple]
  decide

namespace Scan

theorem open_outer {s : Scan} (h : s.stackedPar = 0) :
    s.step '(' = { s with stackedPar := 1, inPar := true, tmp := strip s.tmp } := by
  show s.openPar = _
  unfold openPar
  simp only [h]
  split
  · rfl
  · rw [if_neg (by decide)]
    rfl

theorem close_outer {s : Scan} (h : s.stackedPar = 1) :
    s.step ')' = { s with texts := s.texts ++ [strip s.tmp], tmp := [], inPar := false, stackedPar := 0 } := by
  show s.closePar = _
  unfold closePar
  simp only [h]
  rw [if_neg (by decide), if_pos (by decide)]
  rfl

theorem foldl_group {pre : List Char} {s : Scan} (hs : s.Fresh) (hpre : isComplex pre = false) (ht : Balanced t)
    (hw' : Blank w') : (pre ++ '(' :: (t ++ ')' :: w')).foldl step s =
      { s with texts := s.texts ++ [strip (stored (strip pre) t)], tmp := w' } := by
  rw [List.foldl_append, foldl_simple hpre, hs.tmp, List.nil_append, List.foldl_cons,
    open_outer (s := { s with tmp := pre }) hs.stackedPar, List.foldl_append]
  have hone : (1 : Int) = ((0 : Nat) : Int) + 1 := rfl
  rw [foldl_inner rfl hone ht, List.foldl_cons, close_outer rfl, foldl_simple (isComplex_blank hw')]
  rw [mk.injEq]
  exact ⟨rfl, rfl, rfl, hs.inPar.symm, hs.stackedPar.symm⟩

end Scan

theorem WritesLevel.balanced (h : WritesLevel operator items t) : Balanced t := by
  have hdepth := h.depthAfter 0 []
  rw [List.append_nil] at hdepth
  exact hdepth

theorem cuts_group {pre : List Char} (h : Balanced t) (hpre : isComplex pre = false) (hshort : (strip pre).length ≤ pre.length)
    (hp : Piece item (strip (stored (strip pre) t))) (hw' : Blank w') :
    Cuts item (pre ++ '(' :: (t ++ ')' :: w')) (strip (stored (strip pre) t)) := by
  have hlen : (strip (stored (strip pre) t)).length < (pre ++ '(' :: (t ++ ')' :: w')).length := by
    have h1 := length_strip_le (stored (strip pre) t)
    have h2 := stored_length (strip pre) t
    simp only [List.length_append, List.length_cons]
    omega
  refine ⟨hp, ⟨hlen.le, fun _ => hlen⟩, [strip (stored (strip pre) t)], w', ?_, fun s hs => Scan.foldl_group hs hpre h hw'⟩
  rw [pushed_blank hw', List.append_nil]

theorem WritesItem.cuts (h : WritesItem item core) (hw : Blank w) (hw' : Blank w') : ∃ p, Cuts item (w ++ (core ++ w')) p := by
  cases h with
  | name h => exact ⟨core, cuts_simple (.name h) (.name h) hw hw' h.simple⟩
  | notName h hv => exact ⟨_, cuts_simple (.notName h hv) (.notName h hv) hw hw' (h.of_blank hv)⟩
  | @group operator items t h =>
    have hpiece : Piece (false, .group operator items) (strip (stored (strip w) t)) := by
      rw [strip_blank hw]
      exact .group h
    have hcuts := cuts_group h.balanced (Scan.isComplex_blank hw) (length_strip_le w) hpiece hw'
    have hassoc : w ++ ('(' :: (t ++ [')']) ++ w') = w ++ '(' :: (t ++ ')' :: w') := by simp
    rw [hassoc]
    exact ⟨_, hcuts⟩
  | @notGroup operator items t v hv h =>
    have hmark : strip (w ++ '!' :: v) = ['!'] := by
      have hs : Stripped ['!'] := ⟨List.cons_ne_nil _ _, fun _ => (by decide : isSpace '!' = false), fun _ => (by decide : isSpace '!' = false)⟩
      have hassoc : w ++ '!' :: v = w ++ ['!'] ++ v := by simp
      rw [hassoc]
      exact hs.strip_around hw hv
    have hsimple : isComplex (w ++ '!' :: v) = false := by
      have hassoc : w ++ '!' :: v = w ++ (['!'] ++ v) := rfl
      rw [hassoc, Scan.isComplex_append, Scan.isComplex_append, Scan.isComplex_blank hw, Scan.isComplex_blank hv]
      decide
    have hpiece : Piece (true, .group operator items) (strip (stored (strip (w ++ '!' :: v)) t)) := by
      rw [hmark]
      exact .notGroup h
    have hcuts := cuts_group h.balanced hsimple (length_strip_le _) hpiece hw'
    have hassoc : w ++ ('!' :: (v ++ '(' :: (t ++ [')'])) ++ w') = (w ++ '!' :: v) ++ '(' :: (t ++ ')' :: w') := by simp
    rw [hassoc]
    exact ⟨_, hcuts⟩

namespace Scan

theorem step_sep {s : Scan} {sep : Char} (h : sep ∈ operator.chars) : s.step sep = s.cut operator sep := by
  cases operator <;> simp only [Operator.chars, List.mem_cons, List.not_mem_nil, or_false] at h <;> rcases h with rfl | rfl <;> rfl

theorem cut_outer {s : Scan} (h : s.inPar = false) (sep : Char) :
    s.cut operator sep = { s with operand := some operator, texts := s.texts ++ pushed s.tmp, tmp := [] } := by
  unfold cut pushed
  rw [if_neg (by rw [h]; decide)]
  simp only [addText]
  by_cases hempty : strip s.tmp = []
  · rw [if_neg (not_not.mpr hempty), if_pos hempty, List.append_nil, hempty]
  · rw [if_pos hempty, if_neg hempty]

theorem finish_eq (s : Scan) : s.finish = { s with texts := s.texts ++ pushed s.tmp, tmp := [] } := by
  unfold finish pushed
  simp only [addText]
  by_cases hempty : strip s.tmp = []
  · rw [if_neg (not_not.mpr hempty), if_pos hempty, List.append_nil, hempty]
  · rw [if_pos hempty, if_neg hempty]

end Scan

structure CutsLevel (operator : Operator) (items : List (Bool × CorExpr)) (t : List Char) (ps : List (List Char)) : Prop where
  pieces : List.Forall₂ Piece items ps
  short : ∀ p ∈ ps, p.length ≤ t.length ∧ (isComplex t = true → p.length < t.length)
  run : ∀ s : Scan, s.Fresh → (t.foldl Scan.step s).finish =
    { s with operand := if items.length = 1 then s.operand else some operator, texts := s.texts ++ ps, tmp := [] }

theorem WritesLevel.ne_nil (h : WritesLevel operator items t) : items ≠ [] := by
  cases h <;> exact List.cons_ne_nil _ _

theorem WritesLevel.cuts (h : WritesLevel operator items t) : ∃ ps, CutsLevel operator items t ps := by
  induction items generalizing t with
  | nil => cases h
  | cons item items ih =>
    cases h with
    | @single _ _ core w w' h hw hw' =>
      obtain ⟨p, hp⟩ := h.cuts hw hw'
      obtain ⟨added, rest, hadded, hrun⟩ := hp.run
      refine ⟨[p], .cons hp.piece .nil, fun q hq => ?_, fun s hs => ?_⟩
      · rw [List.mem_singleton.mp hq]
        exact hp.short
      · rw [hrun s hs, Scan.finish_eq, List.length_singleton, if_pos rfl, ← hadded, List.append_assoc]
    | @cons _ _ _ core w w' t sep h hw hw' hsep ht =>
      obtain ⟨p, hp⟩ := h.cuts hw hw'
      obtain ⟨added, rest, hadded, hrun⟩ := hp.run
      obtain ⟨ps, hps⟩ := ih ht
      refine ⟨p :: ps, .cons hp.piece hps.pieces, fun q hq => ?_, fun s hs => ?_⟩
      · have hlen : q.length < (w ++ (core ++ (w' ++ sep :: t))).length := by
          have h1 := hp.short.1
          simp only [List.length_append, List.length_cons] at h1 ⊢
          rcases List.mem_cons.mp hq with rfl | hq
          · omega
          · have h2 := (hps.short q hq).1
            omega
        exact ⟨hlen.le, fun _ => hlen⟩
      · have hassoc : w ++ (core ++ (w' ++ sep :: t)) = (w ++ (core ++ w')) ++ sep :: t := by simp
        have htwo : (item :: items).length ≠ 1 := by
          have hpos := List.length_pos_of_ne_nil ht.ne_nil
          rw [List.length_cons]
          omega
        rw [hassoc, List.foldl_append, hrun s hs, List.foldl_cons, Scan.step_sep hsep,
          Scan.cut_outer (s := { s with texts := s.texts ++ added, tmp := rest }) hs.inPar]
        refine Eq.trans (hps.run _ ?_) ?_
        · exact ⟨rfl, hs.inPar, hs.stackedPar⟩
        simp only [if_neg htwo, ite_self, List.append_assoc]
        rw [← List.append_assoc added, hadded, List.singleton_append]

end

end Alignak.ComplexExpression
