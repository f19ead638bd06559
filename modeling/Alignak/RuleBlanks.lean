import Alignak.RuleTexts

/-!
# White space in a rule

The parser strips what it has put aside at every opening parenthesis, so that a
text in parentheses has lost the white space before the parenthesis that it
holds itself (`inside`).
-/

namespace Alignak

/-! ## Squeezing -/

def opens (l : List Char) : Bool := (l.dropWhile isSpace).head? = some '('

def squeeze : List Char → List Char
  | [] => []
  | c :: l => if isSpace c && opens l then squeeze l else c :: squeeze l

theorem isSpace_paren : isSpace '(' = false := by decide

variable {c : Char} {l w : List Char}

theorem opens_cons_space (h : isSpace c = true) : opens (c :: l) = opens l := by
  simp [opens, h]

theorem opens_cons (h : isSpace c = false) : opens (c :: l) = decide (c = '(') := by
  simp [opens, h]

theorem squeeze_opens : ∀ {l : List Char}, opens l = true → (squeeze l).head? = some '('
  | [], h => by simp [opens] at h
  | c :: l, h => by
    rw [squeeze]
    cases hc : isSpace c with
    | true =>
      rw [opens_cons_space hc] at h
      simp only [h, Bool.and_self, if_true]
      exact squeeze_opens h
    | false =>
      rw [opens_cons hc] at h
      simp [of_decide_eq_true h]

theorem squeeze_cons (h : isSpace c = false) : squeeze (c :: l) = c :: squeeze l := by
  simp [squeeze, h]

theorem squeeze_keep (h : opens l = false) : squeeze (c :: l) = c :: squeeze l := by
  simp [squeeze, h]

theorem squeeze_drop (hc : isSpace c = true) (h : opens l = true) : squeeze (c :: l) = squeeze l := by
  simp [squeeze, hc, h]

theorem head_squeeze (h : opens l = false) : (squeeze l).head? = l.head? := by
  cases l with
  | nil => rfl
  | cons c l =>
    cases hc : isSpace c with
    | true =>
      rw [opens_cons_space hc] at h
      rw [squeeze_keep h]
      rfl
    | false =>
      rw [squeeze_cons hc]
      rfl

theorem takeWhile_squeeze {p : Char → Bool} (hp : ∀ c, p c = true → isSpace c = false ∧ c ≠ '(') (l : List Char) :
    (squeeze l).takeWhile p = l.takeWhile p ∧ (squeeze l).dropWhile p = squeeze (l.dropWhile p) := by
  induction l with
  | nil => exact ⟨rfl, rfl⟩
  | cons c l ih =>
    cases hc : p c with
    | true =>
      rw [squeeze_cons (hp c hc).1]
      simp [hc, ih.1, ih.2]
    | false =>
      have hhead : ∀ x, (squeeze (c :: l)).head? = some x → p x = false := by
        intro x hx
        cases ho : opens (c :: l) with
        | true =>
          rw [squeeze_opens ho, Option.some.injEq] at hx
          subst hx
          exact Bool.eq_false_iff.mpr fun h => (hp _ h).2 rfl
        | false =>
          rw [head_squeeze ho] at hx
          cases hx
          exact hc
      constructor
      · rw [List.takeWhile_cons_of_neg (by simp [hc])]
        cases hs : squeeze (c :: l) with
        | nil => rfl
        | cons x l' => exact List.takeWhile_cons_of_neg (by simp [hhead x (by rw [hs]; rfl)])
      · rw [List.dropWhile_cons_of_neg (by simp [hc] : ¬ p c = true)]
        cases hs : squeeze (c :: l) with
        | nil => rfl
        | cons x l' => exact List.dropWhile_cons_of_neg (by simp [hhead x (by rw [hs]; rfl)])

theorem squeeze_eq_cons {r : List Char} (hc : c ≠ '(') (h : squeeze l = c :: r) : ∃ l', l = c :: l' ∧ squeeze l' = r := by
  have ho : opens l = false := by
    rw [Bool.eq_false_iff]
    intro ho
    have hhead := squeeze_opens ho
    rw [h] at hhead
    exact hc (Option.some.inj hhead)
  cases l with
  | nil => cases h
  | cons x l =>
    have hx : squeeze (x :: l) = x :: squeeze l := by
      cases hs : isSpace x with
      | true => exact squeeze_keep (by rw [← opens_cons_space hs]; exact ho)
      | false => exact squeeze_cons hs
    rw [hx] at h
    cases h
    exact ⟨l, rfl, rfl⟩

theorem squeeze_eq_nil : squeeze l = [] ↔ l = [] := by
  constructor
  · intro h
    cases ho : opens l with
    | true =>
      have hhead := squeeze_opens ho
      rw [h] at hhead
      cases hhead
    | false =>
      have hhead := head_squeeze ho
      rw [h] at hhead
      exact List.head?_eq_none_iff.mp hhead.symm
  · rintro rfl
    rfl

theorem dropSpaces_squeeze : ∀ l : List Char, (squeeze l).dropWhile (· = ' ') = squeeze (l.dropWhile (· = ' '))
  | [] => rfl
  | c :: l => by
    by_cases hc : c = ' '
    · subst hc
      rw [List.dropWhile_cons_of_pos (by decide)]
      cases ho : opens l with
      | true =>
        rw [squeeze_drop (by decide) ho]
        exact dropSpaces_squeeze l
      | false =>
        rw [squeeze_keep ho, List.dropWhile_cons_of_pos (by decide)]
        exact dropSpaces_squeeze l
    · rw [List.dropWhile_cons_of_neg (by simpa using hc)]
      cases hs : squeeze (c :: l) with
      | nil => rfl
      | cons x r =>
        refine List.dropWhile_cons_of_neg ?_
        have hx : x ≠ ' ' := by
          rintro rfl
          obtain ⟨l', e, -⟩ := squeeze_eq_cons (by decide) hs
          cases e
          exact hc rfl
        simpa using hx

/-! ## Squeezing and stripping -/

theorem squeeze_append {a : List Char} (h : ∀ c, a.getLast? = some c → isSpace c = false) (b : List Char) :
    squeeze (a ++ b) = squeeze a ++ squeeze b := by
  induction a with
  | nil => rfl
  | cons c a ih =>
    cases a with
    | nil =>
      have hc : isSpace c = false := h c rfl
      rw [List.singleton_append, squeeze_cons hc, squeeze_cons hc]
      rfl
    | cons x a =>
      have ha : ∀ y, (x :: a).getLast? = some y → isSpace y = false := fun y hy => h y (by rw [List.getLast?_cons_cons]; exact hy)
      -- white space does not go over the end of the first text
      have hopens : opens (x :: a ++ b) = opens (x :: a) := by
        unfold opens
        rw [List.dropWhile_append]
        split
        next hnil =>
          have hblank := List.dropWhile_eq_nil_iff.mp (List.isEmpty_iff.mp hnil)
          have hlast := ha _ (List.getLast?_eq_some_getLast (by simp : x :: a ≠ []))
          rw [hblank _ (List.getLast_mem _)] at hlast
          cases hlast
        next hne => rw [List.head?_append_of_ne_nil _ (fun e => hne (by rw [e]; rfl))]
      rw [List.cons_append, squeeze, squeeze, ih ha, hopens]
      split <;> rfl

theorem squeeze_blank_paren (hw : Blank w) (l : List Char) : squeeze (w ++ '(' :: l) = '(' :: squeeze l := by
  induction w with
  | nil => exact squeeze_cons isSpace_paren
  | cons c w ih =>
    have hw' : Blank w := fun d hd => hw d (List.mem_cons_of_mem _ hd)
    have hopens : opens (w ++ '(' :: l) = true := by
      unfold opens
      rw [dropWhile_blank_append hw', List.dropWhile_cons_of_neg (by decide)]
      rfl
    rw [List.cons_append, squeeze_drop (hw c List.mem_cons_self) hopens, ih hw']

theorem squeeze_of_blank (hw : Blank w) : squeeze w = w := by
  induction w with
  | nil => rfl
  | cons c w ih =>
    have hw' : Blank w := fun d hd => hw d (List.mem_cons_of_mem _ hd)
    have hopens : opens w = false := by
      unfold opens
      rw [List.dropWhile_eq_nil_iff.mpr hw']
      rfl
    rw [squeeze_keep hopens, ih hw']

theorem strip_cons_space (h : isSpace c = true) (l : List Char) : strip (c :: l) = strip l := by
  unfold strip
  rw [List.dropWhile_cons_of_pos h]

theorem strip_squeeze_blank (hw : Blank w) (l : List Char) : strip (squeeze (w ++ l)) = strip (squeeze l) := by
  induction w with
  | nil => rfl
  | cons c w ih =>
    have hw' : Blank w := fun d hd => hw d (List.mem_cons_of_mem _ hd)
    rw [List.cons_append, squeeze]
    split
    · exact ih hw'
    · rw [strip_cons_space (hw c List.mem_cons_self), ih hw']

theorem strip_decomposition (l : List Char) : ∃ w w', Blank w ∧ Blank w' ∧ l = w ++ strip l ++ w' := by
  refine ⟨l.takeWhile isSpace, ((l.dropWhile isSpace).reverse.takeWhile isSpace).reverse, ?_, ?_, ?_⟩
  · exact fun c hc => List.mem_takeWhile_imp hc
  · exact fun c hc => List.mem_takeWhile_imp (List.mem_reverse.mp hc)
  · unfold strip List.rdropWhile
    rw [List.append_assoc, ← List.reverse_append, List.takeWhile_append_dropWhile, List.reverse_reverse,
      List.takeWhile_append_dropWhile]

def stored (tmp E : List Char) : List Char := E.foldl (fun tmp c => if c = '(' then strip tmp ++ [c] else tmp ++ [c]) tmp

theorem squeeze_snoc {t : List Char} (hc : c ≠ '(') : squeeze (t ++ [c]) = squeeze t ++ [c] := by
  induction t with
  | nil => exact squeeze_keep rfl
  | cons x t ih =>
    have hopens : opens (t ++ [c]) = opens t := by
      unfold opens
      rw [List.dropWhile_append]
      split
      next hnil =>
        rw [List.isEmpty_iff.mp hnil, List.dropWhile_cons]
        split <;> simp [hc]
      next hne => rw [List.head?_append_of_ne_nil _ (fun e => hne (by rw [e]; rfl))]
    rw [List.cons_append, squeeze, squeeze, hopens, ih]
    split <;> rfl

theorem squeeze_getLast : ∀ l : List Char, (squeeze l).getLast? = l.getLast?
  | [] => rfl
  | [c] => by rw [squeeze_keep rfl]; rfl
  | c :: x :: l => by
    have ih := squeeze_getLast (x :: l)
    rw [List.getLast?_cons_cons, ← ih, squeeze]
    split
    · rfl
    · have hne : squeeze (x :: l) ≠ [] := fun e => by rw [squeeze_eq_nil] at e; cases e
      obtain ⟨y, r, e⟩ := List.exists_cons_of_ne_nil hne
      rw [e, List.getLast?_cons_cons]

theorem strip_append_blank (hw : Blank w) (l : List Char) : strip (l ++ w) = strip l := by
  unfold strip
  rw [List.dropWhile_append]
  split
  next hnil =>
    rw [List.isEmpty_iff.mp hnil, List.dropWhile_eq_nil_iff.mpr hw]
  next => exact rdropWhile_append_blank hw

theorem strip_squeeze_of_strip : strip (squeeze (strip l)) = squeeze (strip l) := by
  apply strip_of_ends
  · intro c hc
    cases hs : strip l with
    | nil => rw [hs] at hc; cases hc
    | cons x r =>
      have hx : isSpace x = false := strip_head (by rw [hs]; rfl)
      rw [hs, squeeze_cons hx] at hc
      cases hc
      exact hx
  · intro c hc
    rw [squeeze_getLast] at hc
    exact strip_last hc

theorem strip_squeeze (l : List Char) : strip (squeeze l) = squeeze (strip l) := by
  obtain ⟨w, w', hw, hw', e⟩ := strip_decomposition l
  rw [← strip_squeeze_of_strip]
  conv_lhs => rw [e, List.append_assoc, strip_squeeze_blank hw, squeeze_append (fun _ => strip_last), squeeze_of_blank hw',
    strip_append_blank hw']

theorem strip_squeeze_paren (t E : List Char) (ht : squeeze t = t) :
    squeeze (strip t ++ ['(']) = strip t ++ ['('] ∧ strip (squeeze (strip t ++ ['('] ++ E)) = strip (squeeze (t ++ '(' :: E)) := by
  have hcore : squeeze (strip t) = strip t := by rw [← strip_squeeze, ht]
  obtain ⟨w, w', hw, hw', e⟩ := strip_decomposition t
  have hparen : squeeze ['('] = ['('] := squeeze_cons isSpace_paren
  constructor
  · rw [squeeze_append (fun _ => strip_last), hcore, hparen]
  · conv_rhs => rw [e, List.append_assoc, List.append_assoc, strip_squeeze_blank hw, squeeze_append (fun _ => strip_last),
      squeeze_blank_paren hw']
    rw [List.append_assoc, squeeze_append (fun _ => strip_last)]
    show strip (_ ++ squeeze ('(' :: E)) = _
    rw [squeeze_cons isSpace_paren]

theorem strip_stored : ∀ (E t : List Char), squeeze t = t → strip (stored t E) = strip (squeeze (t ++ E))
  | [], t, ht => by rw [List.append_nil, ht]; rfl
  | c :: E, t, ht => by
    show strip (stored (if c = '(' then strip t ++ [c] else t ++ [c]) E) = _
    split
    next hc =>
      subst hc
      obtain ⟨h1, h2⟩ := strip_squeeze_paren t E ht
      rw [strip_stored E _ h1, h2]
    next hc =>
      rw [strip_stored E _ (by rw [squeeze_snoc hc, ht]), List.append_assoc]
      rfl

theorem squeeze_mem : ∀ (l : List Char) (c : Char), c ∈ squeeze l → c ∈ l
  | [], _, h => h
  | x :: l, c, h => by
    rw [squeeze] at h
    split at h
    · exact List.mem_cons_of_mem _ (squeeze_mem l c h)
    · rcases List.mem_cons.mp h with rfl | h
      · exact List.mem_cons_self
      · exact List.mem_cons_of_mem _ (squeeze_mem l c h)

/-! ## The prefix of a squeezed text -/

theorem takeOne_squeeze {char : Char} (hs : isSpace char = false) (hc : char ≠ '(') (l : List Char) :
    takeOne char (squeeze l) = ((takeOne char l).1, squeeze (takeOne char l).2) := by
  unfold takeOne
  by_cases h : l.head? = some char
  · obtain ⟨r, rfl⟩ : ∃ r, l = char :: r := by
      cases l with
      | nil => cases h
      | cons c r => cases h; exact ⟨r, rfl⟩
    rw [squeeze_cons hs]
    simp
  · have h' : (squeeze l).head? ≠ some char := by
      intro e
      obtain ⟨r, hr⟩ : ∃ r, squeeze l = char :: r := by
        cases hl : squeeze l with
        | nil => rw [hl] at e; cases e
        | cons c r => rw [hl] at e; cases e; exact ⟨r, rfl⟩
      obtain ⟨l', rfl, -⟩ := squeeze_eq_cons hc hr
      exact h rfl
    rw [if_neg h, if_neg h']

theorem digit_class (c : Char) (h : Numerals.isDecimal c = true) : isSpace c = false ∧ c ≠ '(' := by
  refine ⟨Numerals.decimal_not_space h, ?_⟩
  rintro rfl
  revert h
  decide

theorem thresholdPrefix_squeeze (l : List Char) :
    thresholdPrefix (squeeze l) = ((thresholdPrefix l).1, squeeze (thresholdPrefix l).2) := by
  unfold thresholdPrefix
  simp only [List.span_eq_takeWhile_dropWhile]
  rw [takeOne_squeeze (by decide) (by decide)]
  simp only
  rw [(takeWhile_squeeze digit_class _).1, (takeWhile_squeeze digit_class _).2, takeOne_squeeze (by decide) (by decide)]

theorem lineAfter_squeeze (h : '\n' ∉ l) : lineAfter (squeeze l) = (lineAfter l).map squeeze := by
  have hline : ∀ r : List Char, '\n' ∉ r → r.takeWhile (· ≠ '\n') = r := fun r hr =>
    List.takeWhile_eq_self_iff.mpr fun c hc => by simpa using fun e : c = '\n' => hr (e ▸ hc)
  have hmem : ∀ c, c ∈ squeeze l → c ∈ l := squeeze_mem l
  have hdrop : ∀ r : List Char, ∀ c, c ∈ r.dropWhile (· = ' ') → c ∈ r := fun r c hc => (List.dropWhile_suffix _).mem hc
  unfold lineAfter
  simp only
  rw [hline _ (fun hn => h (hdrop _ _ hn)), hline _ (fun hn => h (hmem _ (hdrop _ _ hn))), dropSpaces_squeeze]
  by_cases hd : l.dropWhile (· = ' ') = []
  · -- spaces only
    have hblank : Blank l := fun c hc => by
      have hcs : c = ' ' := by simpa using List.dropWhile_eq_nil_iff.mp hd c hc
      rw [hcs]
      decide
    rw [hd, squeeze_of_blank hblank]
    simp only [squeeze, ne_eq, not_true_eq_false, if_false]
    split <;> rfl
  · have hs : squeeze (l.dropWhile (· = ' ')) ≠ [] := fun e => hd (squeeze_eq_nil.mp e)
    rw [if_pos hd, if_pos hs]
    rfl

theorem afterOf_squeeze (h : '\n' ∉ l) : afterOf (squeeze l) = (afterOf l).map squeeze := by
  unfold afterOf
  rw [dropSpaces_squeeze]
  have hmem : '\n' ∉ l.dropWhile (· = ' ') := fun hn => h ((List.dropWhile_suffix _).mem hn)
  split
  next r hr =>
    obtain ⟨l1, e1, h1⟩ := squeeze_eq_cons (by decide) hr
    obtain ⟨l2, e2, h2⟩ := squeeze_eq_cons (by decide) h1
    obtain ⟨l3, e3, h3⟩ := squeeze_eq_cons (by decide) h2
    subst e2 e3
    rw [e1, ← h3]
    exact lineAfter_squeeze fun hn => hmem (by rw [e1]; simp [hn])
  next hne =>
    split
    next r hr =>
      rw [hr] at hne
      exact absurd rfl (hne (squeeze r))
    · rfl

theorem evalXofPattern_squeeze (h : '\n' ∉ l) :
    evalXofPattern (squeeze l) = (evalXofPattern l).map fun xof => { xof with rest := squeeze xof.rest } := by
  have hcomma : ∀ c : Char, (decide (c = ',')) = true → isSpace c = false ∧ c ≠ '(' := by
    intro c hc
    rw [of_decide_eq_true hc]
    decide
  have hrest : '\n' ∉ DependencyNodeFactory.afterThresholds l := fun hn => h ((DependencyNodeFactory.afterThresholds_suffix l).mem hn)
  unfold DependencyNodeFactory.afterThresholds at hrest
  unfold evalXofPattern
  simp only [thresholdPrefix_squeeze, (takeWhile_squeeze hcomma _).2]
  split
  · rw [afterOf_squeeze hrest, Option.map_map, Option.map_map]
    refine congrFun (congrArg _ (funext fun line => ?_)) _
    simp only [Function.comp]
    split <;> rfl
  · rfl

/-! ## The levels of a squeezed text -/

namespace RuleScan

section
variable {m : Type → Type} [Monad m] {α : Type} {newSon : Bool → List Char → m α}

theorem step_space {c : Char} (hc : isSpace c = true) (s : RuleScan α) :
    s.step newSon c = pure { s with tmp := s.tmp ++ [c] } := by
  have hne : ∀ x, isSpace x = false → c ≠ x := fun x hx e => by rw [e, hx] at hc; cases hc
  by_cases hin : s.inPar = true
  · exact step_inner hin (hne _ (by decide)) (hne _ (by decide))
  · rw [step_outer hin (hne _ (by decide)) (hne _ (by decide)), if_neg (hne _ (by decide)), if_neg (hne _ (by decide)),
      if_neg (hne _ (by decide))]

theorem open_tmp {s : RuleScan α} {w : List Char} (hw : strip (s.tmp ++ w) = strip s.tmp) :
    ({ s with tmp := s.tmp ++ w } : RuleScan α).openParenthesis = s.openParenthesis := by
  unfold openParenthesis
  simp only [hw]

end

variable {m : Type → Type} [Monad m] [LawfulMonad m] {α : Type} {newSon : Bool → List Char → m α}

theorem run_tmp : ∀ {l w : List Char} {s : RuleScan α}, opens l = true → Blank w → s.isNone = false →
    ({ s with tmp := s.tmp ++ w } : RuleScan α).run newSon l = s.run newSon l
  | [], _, _, ho, _, _ => by simp [opens] at ho
  | c :: l, w, s, ho, hw, hn => by
    cases hc : isSpace c with
    | true =>
      have hw' : Blank (w ++ [c]) := fun x hx => by
        rcases List.mem_append.mp hx with hx | hx
        · exact hw x hx
        · rw [List.mem_singleton.mp hx]
          exact hc
      have ho' : opens l = true := by rw [← opens_cons_space hc]; exact ho
      rw [run, run, step_space hc, step_space hc, pure_bind, pure_bind]
      show (if s.isNone then _ else run newSon l { s with tmp := s.tmp ++ w ++ [c] }) =
        if s.isNone then _ else run newSon l { s with tmp := s.tmp ++ [c] }
      rw [if_neg (by simp [hn]), if_neg (by simp [hn]), List.append_assoc, run_tmp ho' hw' hn]
      exact (run_tmp (w := [c]) ho' (fun x hx => by rw [List.mem_singleton.mp hx]; exact hc) hn).symm
    | false =>
      rw [opens_cons hc] at ho
      have hp : c = '(' := of_decide_eq_true ho
      subst hp
      rw [run, run, step_open, step_open, open_tmp (strip_append_blank hw _)]

theorem run_space {c : Char} {l : List Char} (hc : isSpace c = true) (ho : opens l = true) {s : RuleScan α} (hn : s.isNone = false) :
    s.run newSon (c :: l) = s.run newSon l := by
  have hblank : Blank [c] := fun x hx => by rw [List.mem_singleton.mp hx]; exact hc
  rw [run, step_space hc, pure_bind]
  show (if s.isNone then _ else run newSon l { s with tmp := s.tmp ++ [c] }) = _
  rw [if_neg (by simp [hn])]
  exact run_tmp ho hblank hn

theorem run_squeeze : ∀ (l : List Char) {s : RuleScan α}, s.isNone = false → s.run newSon (squeeze l) = s.run newSon l
  | [], _, _ => rfl
  | c :: l, s, hn => by
    rw [squeeze]
    split
    next h =>
      obtain ⟨hc, ho⟩ := (Bool.and_eq_true _ _).mp h
      rw [run_squeeze l hn, run_space hc ho hn]
    next h =>
      rw [run, run]
      refine bind_congr fun s' => ?_
      cases hn' : s'.isNone with
      | true => rfl
      | false => exact run_squeeze l hn'

theorem level_squeeze (operand : Option Operator) (l : List Char) : level operand (squeeze l) = level operand l := by
  unfold level
  rw [run_squeeze l rfl]

end RuleScan

namespace DependencyNodeFactory

theorem isComplex_cons (c : Char) (l : List Char) : isComplex (c :: l) = ("()&|".toList.contains c || isComplex l) := rfl

theorem isComplex_squeeze (l : List Char) : isComplex (squeeze l) = isComplex l := by
  have hspace : ∀ c, isSpace c = true → "()&|".toList.contains c = false := by
    intro c hc
    rw [← Bool.not_eq_true]
    intro hmem
    have hchar : c = '(' ∨ c = ')' ∨ c = '&' ∨ c = '|' := by simpa using hmem
    rcases hchar with rfl | rfl | rfl | rfl <;> revert hc <;> decide
  induction l with
  | nil => rfl
  | cons c l ih =>
    rw [squeeze]
    split
    next h => rw [ih, isComplex_cons, hspace c ((Bool.and_eq_true _ _).mp h).1, Bool.false_or]
    next h => rw [isComplex_cons, isComplex_cons, ih]

theorem startNode_squeeze {l : List Char} (h : '\n' ∉ l) :
    startNode (squeeze l) = ({ (startNode l).1 with rest := squeeze (startNode l).1.rest }, (startNode l).2) := by
  unfold startNode
  rw [evalXofPattern_squeeze h]
  cases evalXofPattern l <;> rfl

theorem squeeze_simple {l : List Char} (h : isComplex l = false) : squeeze l = l := by
  induction l with
  | nil => rfl
  | cons c l ih =>
    have hl : isComplex l = false := ((Bool.or_eq_false_iff).mp h).2
    have hopens : opens l = false := by
      rw [← Bool.not_eq_true]
      intro ho
      have hmem : '(' ∈ l := (List.dropWhile_suffix _).mem (List.mem_of_mem_head? (of_decide_eq_true ho))
      rw [← Bool.not_eq_true] at hl
      exact hl (List.any_eq_true.mpr ⟨'(', hmem, by decide⟩)
    rw [squeeze_keep hopens, ih hl]

theorem ruleShape_squeeze {l : List Char} (h : '\n' ∉ l) : ruleShape (squeeze l) = ruleShape l := by
  have hstrip := strip_squeeze l
  have hline : '\n' ∉ strip l := fun hn => h ((List.dropWhile_suffix _).mem ((List.rdropWhile_prefix _ _).mem hn))
  cases hc : isComplex (strip l) with
  | true =>
    have hc' : isComplex (strip (squeeze l)) = true := by rw [hstrip, isComplex_squeeze, hc]
    rw [ruleShape_complex hc, ruleShape_complex hc', hstrip, startNode_squeeze hline]
    simp only [RuleScan.level_squeeze]
  | false =>
    have hc' : isComplex (strip (squeeze l)) = false := by rw [hstrip, isComplex_squeeze, hc]
    rw [ruleShape_simple hc, ruleShape_simple hc', hstrip, squeeze_simple hc]

theorem ruleShape_strip (l : List Char) : ruleShape (strip l) = ruleShape l := by
  have hstrip := strip_strip l
  cases hc : isComplex (strip l) with
  | true =>
    have hc' : isComplex (strip (strip l)) = true := by rw [hstrip, hc]
    rw [ruleShape_complex hc, ruleShape_complex hc', hstrip]
  | false =>
    have hc' : isComplex (strip (strip l)) = false := by rw [hstrip, hc]
    rw [ruleShape_simple hc, ruleShape_simple hc', hstrip]

def inside (E : List Char) : List Char := strip (stored [] E)

theorem ruleShape_inside {E : List Char} (h : '\n' ∉ E) : ruleShape (inside E) = ruleShape E := by
  rw [inside, strip_stored E [] rfl, ruleShape_strip, List.nil_append, ruleShape_squeeze h]

end DependencyNodeFactory

end Alignak
