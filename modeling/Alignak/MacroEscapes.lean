import Alignak.MacroRuns

/-!
# What a run leaves of a command line

A line is read as texts and as names between dollars; the empty name is the
escape `$$`.
-/

namespace Alignak.Macros

/-! ## The pieces of a line -/

inductive Piece
  | text (t : Text)
  | named (m : Text)
  deriving DecidableEq, Repr

def pieces : List Text → List Piece
  | [] => []
  | [t] => [.text t]
  | [t, m] => [.text t, .text ('$' :: m)]
  | t :: m :: r :: rest => .text t :: .named m :: pieces (r :: rest)

def readPieces (cLine : Text) : List Piece := pieces (cLine.splitOn '$')

def Piece.written : Piece → Text
  | text t => t
  | named m => dollared m

theorem pieces_written : ∀ segments : List Text, ((pieces segments).map Piece.written).flatten = ['$'].intercalate segments
  | [] => rfl
  | [t] => by simp [pieces, Piece.written]
  | [t, m] => by simp [pieces, Piece.written, List.intercalate_cons_cons]
  | t :: m :: r :: rest => by
    have ih := pieces_written (r :: rest)
    rw [List.intercalate_cons_cons, List.intercalate_cons_cons, ← ih]
    simp [pieces, Piece.written, dollared]

theorem readPieces_written (cLine : Text) : ((readPieces cLine).map Piece.written).flatten = cLine := by
  unfold readPieces
  rw [pieces_written, List.intercalate_splitOn]

theorem pieces_text : ∀ {segments : List Text} {t : Text}, (∀ s ∈ segments, '$' ∉ s) → .text t ∈ pieces segments → t.count '$' ≤ 1
  | [], t, _, h => by simp [pieces] at h
  | [s], t, hs, h => by
    simp only [pieces, List.mem_singleton, Piece.text.injEq] at h
    subst h
    rw [List.count_eq_zero_of_not_mem (hs _ List.mem_cons_self)]
    exact Nat.zero_le 1
  | [s, m], t, hs, h => by
    simp only [pieces, List.mem_cons, List.not_mem_nil, or_false, Piece.text.injEq] at h
    rcases h with rfl | rfl
    · rw [List.count_eq_zero_of_not_mem (hs _ List.mem_cons_self)]
      exact Nat.zero_le 1
    · rw [List.count_cons_self, List.count_eq_zero_of_not_mem (hs m (by simp))]
  | s :: m :: r :: rest, t, hs, h => by
    simp only [pieces, List.mem_cons, Piece.text.injEq, reduceCtorEq, false_or] at h
    rcases h with rfl | h
    · rw [List.count_eq_zero_of_not_mem (hs _ List.mem_cons_self)]
      exact Nat.zero_le 1
    · exact pieces_text (fun s' h' => hs s' (by simp_all)) h

theorem pieces_named : ∀ {segments : List Text} {s : Cut} {m : Text}, (∀ t ∈ segments, '$' ∉ t) → s.inMacro = false →
    .named m ∈ pieces segments ∨ m ∈ s.macros → m ∈ ((segments.intersperse ['$']).foldl cut s).macros
  | [], s, m, _, _, h => by simpa [pieces] using h
  | [t], s, m, ht, hs, h => by
    have hm : m ∈ s.macros := by simpa [pieces] using h
    have hne : t ≠ ['$'] := fun e => ht t List.mem_cons_self (e ▸ List.mem_cons_self)
    simp [cut, hne, hs, hm]
  | [t, k], s, m, ht, hs, h => by
    have hm : m ∈ s.macros := by simpa [pieces] using h
    have hne : t ≠ ['$'] := fun e => ht t List.mem_cons_self (e ▸ List.mem_cons_self)
    have hne' : k ≠ ['$'] := fun e => ht k (by simp) (e ▸ List.mem_cons_self)
    by_cases hk : k ∈ s.macros
    · simp [cut, hne, hne', hs, hm, hk]
    · simp [cut, hne, hne', hs, hm, hk]
  | t :: k :: r :: rest, s, m, ht, hs, h => by
    have hne : t ≠ ['$'] := fun e => ht t List.mem_cons_self (e ▸ List.mem_cons_self)
    have hne' : k ≠ ['$'] := fun e => ht k (by simp) (e ▸ List.mem_cons_self)
    have hfold : ((t :: k :: r :: rest).intersperse ['$']).foldl cut s = ((r :: rest).intersperse ['$']).foldl cut
        ⟨false, if k ∈ s.macros then s.macros else s.macros ++ [k]⟩ := by
      rw [List.intersperse_cons_cons, List.intersperse_cons_cons]
      simp [cut, hne, hne', hs]
    rw [hfold]
    refine pieces_named (fun u hu => ht u (by simp_all)) rfl ?_
    simp only [pieces, List.mem_cons, reduceCtorEq, Piece.named.injEq, false_or] at h
    rcases h with (rfl | h) | h
    · right
      by_cases hk : m ∈ s.macros
      · simp [hk]
      · simp [hk]
    · exact .inl h
    · right
      by_cases hk : k ∈ s.macros
      · simp [hk, h]
      · simp [hk, h]

theorem dollar_notMem_splitOn : ∀ cLine : Text, ∀ t ∈ cLine.splitOn '$', '$' ∉ t
  | [], t, ht => by
    rw [List.splitOn_nil, List.mem_singleton] at ht
    subst ht
    exact List.not_mem_nil
  | c :: cLine, t, ht => by
    have ih := dollar_notMem_splitOn cLine
    rw [List.splitOn_cons_eq_if_modifyHead] at ht
    by_cases hc : (c == '$') = true
    · rw [if_pos hc, List.mem_cons] at ht
      rcases ht with rfl | ht
      · exact List.not_mem_nil
      · exact ih t ht
    · rw [if_neg hc] at ht
      cases hs : cLine.splitOn '$' with
      | nil => exact absurd hs (List.splitOn_ne_nil _ _)
      | cons u us =>
        rw [hs] at ht ih
        rw [List.modifyHead_cons, List.mem_cons] at ht
        rcases ht with rfl | ht
        · intro hm
          rcases List.mem_cons.mp hm with e | hm
          · exact hc (by rw [← e]; rfl)
          · exact ih u List.mem_cons_self hm
        · exact ih t (List.mem_cons_of_mem _ ht)

theorem getMacros_of_named {cLine m : Text} (h : .named m ∈ readPieces cLine) : m ∈ getMacros cLine :=
  pieces_named (dollar_notMem_splitOn cLine) rfl (.inl h)

/-! ## What is left of each piece -/

theorem count_dollared (m : Text) : 2 ≤ (dollared m).count '$' := by
  unfold dollared
  rw [List.cons_append, List.count_cons_self, List.count_append, List.count_cons_self]
  omega

variable {t : Text} {turns : List (List (Text × Text))} {fuel nbLoop : Nat}

theorem not_infix_of_count {p : Text} (hp : 2 ≤ p.count '$') (ht : t.count '$' ≤ 1) : ¬ p <:+: t := by
  intro h
  have := h.sublist.count_le '$'
  omega

theorem turnSteps_count {macros : List (Text × Text)} : ∀ step ∈ turnSteps macros, 2 ≤ step.1.count '$' := by
  intro step hs
  rcases List.mem_append.mp hs with hs | hs
  · obtain ⟨v, _, rfl⟩ := List.mem_map.mp hs
    exact count_dollared v.1
  · rw [List.mem_singleton] at hs
    subst hs
    decide

theorem runSteps_ne_nil : ∀ step ∈ runSteps turns, step.1 ≠ [] := by
  intro step hs
  rcases List.mem_append.mp hs with hs | hs
  · obtain ⟨turn, _, hs⟩ := List.mem_flatMap.mp hs
    intro e
    have := turnSteps_count step hs
    rw [e] at this
    exact absurd this (by decide)
  · rw [List.mem_singleton] at hs
    subst hs
    decide

theorem replaceAll_text {steps : List (Text × Text)} (hs : ∀ step ∈ steps, 2 ≤ step.1.count '$') (ht : t.count '$' ≤ 1) :
    replaceAll (steps ++ [(doubleDollar, ['$'])]) t = replace doubleDollar ['$'] t := by
  have hloop : replaceAll steps t = t := replaceAll_absent fun step h => not_infix_of_count (hs step h) ht
  rw [replaceAll_append, hloop]
  rfl

theorem flatMap_count : ∀ step ∈ turns.flatMap turnSteps, 2 ≤ step.1.count '$' := by
  intro step hs
  obtain ⟨turn, _, hs⟩ := List.mem_flatMap.mp hs
  exact turnSteps_count step hs

theorem runSteps_text (ht : t.count '$' ≤ 1) :
    replaceAll (runSteps turns) t = replace doubleDollar ['$'] t :=
  replaceAll_text flatMap_count ht

theorem turn_escape : ∀ {macros : List (Text × Text)} {l : List (Text × Text)}, (∀ p ∈ macros, p.1 = [] → p.2 = []) → ([], []) ∈ macros →
    replaceAll (macros.map (fun v => (dollared v.1, v.2)) ++ l) ['$', '$'] = []
  | [], _, _, h => absurd h List.not_mem_nil
  | p :: macros, l, hv, h => by
    rw [List.map_cons, List.cons_append, replaceAll_cons]
    by_cases hp : p.1 = []
    · have hstep : replace (dollared p.1) p.2 ['$', '$'] = [] := by
        rw [hp, hv p List.mem_cons_self hp]
        rfl
      rw [hstep]
      exact replaceAll_nil _
    · have hstep : replace (dollared p.1) p.2 ['$', '$'] = ['$', '$'] := by
        refine replace_absent fun hi => ?_
        have hlen := hi.length_le
        have hpos := List.length_pos_of_ne_nil hp
        simp only [dollared, List.length_cons, List.length_append, List.length_nil] at hlen
        omega
      rw [hstep]
      refine turn_escape (fun q hq => hv q (List.mem_cons_of_mem _ hq)) ?_
      rcases List.mem_cons.mp h with e | h
      · exact absurd (congrArg Prod.fst e.symm) hp
      · exact h

section
variable {mr : MacroResolver} {data : List Element} {args : Option (List Text)}

theorem runSteps_escape {cLine : Text}
    (h : runTurns mr data args fuel nbLoop cLine = .ok turns) (hm : [] ∈ getMacros cLine) :
    replaceAll (runSteps turns) ['$', '$'] = [] := by
  obtain ⟨macros, rest, rfl, hmacros⟩ := runTurns_first h hm
  obtain ⟨hkeys, hvalues⟩ := getValues_mem hmacros
  obtain ⟨v, hv⟩ := hkeys [] hm
  have hempty : ∀ p ∈ macros, p.1 = [] → p.2 = [] := by
    intro p hp he
    have hvalue := hvalues p hp
    rw [he, getValue_nil] at hvalue
    exact (Except.ok.inj hvalue).symm
  have hve : v = [] := hempty _ hv rfl
  subst hve
  unfold runSteps turnSteps
  rw [List.flatMap_cons, List.append_assoc, List.append_assoc]
  exact turn_escape hempty hv

/-! ## The line -/

def expectedPiece (steps : List (Text × Text)) : Piece → Text
  | .text t => t
  | .named m => if m = [] then ['$'] else replaceAll steps (dollared m)

def expected (steps : List (Text × Text)) (cLine : Text) : Text := ((readPieces cLine).map (expectedPiece steps)).flatten

/-- No escape, no text with the word that stands for `$$`, no blank at the ends. -/
structure LiteralsSafe (steps : List (Text × Text)) (cLine : Text) : Prop where
  noEscape : .named [] ∉ readPieces cLine
  noDoubleDollar : ∀ t, .text t ∈ readPieces cLine → ¬ doubleDollar <:+: t
  stripped : strip (expected steps cLine) = expected steps cLine

theorem flatten_lengths {α : Type} {f g : α → Text} : ∀ {l : List α}, (∀ a ∈ l, (f a).length ≤ (g a).length) →
    (l.map f).flatten.length ≤ (l.map g).flatten.length ∧
    ((l.map g).flatten.length ≤ (l.map f).flatten.length → ∀ a ∈ l, (f a).length = (g a).length)
  | [], _ => ⟨le_refl _, fun _ _ h => absurd h List.not_mem_nil⟩
  | a :: l, h => by
    obtain ⟨hle, heq⟩ := flatten_lengths fun b hb => h b (List.mem_cons_of_mem _ hb)
    have ha := h a List.mem_cons_self
    simp only [List.map_cons, List.flatten_cons, List.length_append]
    refine ⟨by omega, fun hge b hb => ?_⟩
    rcases List.mem_cons.mp hb with rfl | hb
    · omega
    · exact heq (by omega) b hb

theorem strip_length_le (t : Text) : (strip t).length ≤ t.length := by
  unfold strip
  exact le_trans (List.rdropWhile_prefix _ _).length_le (List.dropWhile_suffix _).length_le

theorem piece_length {cLine : Text}
    (hrun : runTurns mr data args fuel nbLoop cLine = .ok turns) {p : Piece} (hp : p ∈ readPieces cLine) :
    (replaceAll (runSteps turns) p.written).length ≤ (expectedPiece (runSteps turns) p).length ∧
    ((replaceAll (runSteps turns) p.written).length = (expectedPiece (runSteps turns) p).length →
      p ≠ .named [] ∧ (∀ t, p = .text t → ¬ doubleDollar <:+: t) ∧ replaceAll (runSteps turns) p.written = expectedPiece (runSteps turns) p) := by
  have hlt : ['$'].length < doubleDollar.length := by decide
  cases p with
  | text t =>
    have ht : replaceAll (runSteps turns) t = replace doubleDollar ['$'] t :=
      runSteps_text (pieces_text (dollar_notMem_splitOn cLine) hp)
    unfold Piece.written expectedPiece
    simp only
    rw [ht]
    refine ⟨replace_length_le hlt.le, fun he => ?_⟩
    have hno : ¬ doubleDollar <:+: t := fun hi => absurd he (replace_length_lt hlt hi).ne
    refine ⟨by simp, fun u hu => ?_, replace_absent hno⟩
    cases hu
    exact hno
  | named m =>
    by_cases hm : m = []
    · subst hm
      have hesc : replaceAll (runSteps turns) (dollared []) = [] := runSteps_escape hrun (getMacros_of_named hp)
      unfold Piece.written expectedPiece
      simp only [if_true]
      rw [hesc]
      exact ⟨Nat.zero_le _, fun he => absurd he (by decide)⟩
    · unfold Piece.written expectedPiece
      simp only [if_neg hm]
      exact ⟨le_refl _, fun _ => ⟨by simpa using hm, by simp, trivial⟩⟩

theorem line_iff {cLine : Text}
    (hrun : runTurns mr data args fuel nbLoop cLine = .ok turns)
    (hl : LocalRun (runSteps turns) ((readPieces cLine).map Piece.written)) :
    strip (replaceAll (runSteps turns) cLine) = expected (runSteps turns) cLine ↔ LiteralsSafe (runSteps turns) cLine := by
  have hline : replaceAll (runSteps turns) cLine =
      ((readPieces cLine).map fun p => replaceAll (runSteps turns) p.written).flatten := by
    have := replaceAll_flatten runSteps_ne_nil hl
    rw [readPieces_written, List.map_map] at this
    exact this
  have hpiece := fun p (hp : p ∈ readPieces cLine) => piece_length hrun hp
  constructor
  · intro he
    have hlen : (expected (runSteps turns) cLine).length ≤ (replaceAll (runSteps turns) cLine).length := by
      rw [← he]
      exact strip_length_le _
    rw [hline] at hlen
    have heq := (flatten_lengths fun p hp => (hpiece p hp).1).2 hlen
    have hsame := fun p (hp : p ∈ readPieces cLine) => (hpiece p hp).2 (heq p hp)
    have hexp : replaceAll (runSteps turns) cLine = expected (runSteps turns) cLine := by
      rw [hline]
      unfold expected
      exact congrArg List.flatten (List.map_congr_left fun p hp => (hsame p hp).2.2)
    exact ⟨fun hm => (hsame _ hm).1 rfl, fun t ht => (hsame _ ht).2.1 t rfl, by rwa [hexp] at he⟩
  · intro hs
    have hexp : replaceAll (runSteps turns) cLine = expected (runSteps turns) cLine := by
      rw [hline]
      unfold expected
      refine congrArg List.flatten (List.map_congr_left fun p hp => ?_)
      cases p with
      | text t =>
        have ht : replaceAll (runSteps turns) t = replace doubleDollar ['$'] t :=
          runSteps_text (pieces_text (dollar_notMem_splitOn cLine) hp)
        exact ht.trans (replace_absent (hs.noDoubleDollar t hp))
      | named m =>
        have hm : m ≠ [] := fun e => hs.noEscape (e ▸ hp)
        unfold expectedPiece
        simp only [if_neg hm]
        rfl
    rw [hexp]
    exact hs.stripped

/-! ## Lines without names -/

theorem replace_dollars {rest : Text} (ht : '$' ∉ t) : replace ['$', '$'] [] (t ++ '$' :: '$' :: rest) = t ++ replace ['$', '$'] [] rest := by
  induction t with
  | nil => rfl
  | cons c t ih =>
    have hc : ¬ '$' = c := fun e => ht (e ▸ List.mem_cons_self)
    have hp : ['$', '$'].isPrefixOf (c :: (t ++ '$' :: '$' :: rest)) = false := by simp [List.isPrefixOf, hc]
    have ih := ih fun h => ht (List.mem_cons_of_mem _ h)
    unfold replace at ih ⊢
    rw [List.cons_append, replaceAfter, hp, if_neg Bool.false_ne_true, ih]
    rfl

def Piece.literal : Piece → Text
  | text t => t
  | named _ => []

theorem replace_escapes : ∀ {segments : List Text}, (∀ s ∈ segments, '$' ∉ s) → (∀ m, .named m ∈ pieces segments → m = []) →
    replace ['$', '$'] [] (['$'].intercalate segments) = ((pieces segments).map Piece.literal).flatten ∧
      (((pieces segments).map Piece.literal).flatten).count '$' ≤ 1
  | [], _, _ => ⟨rfl, Nat.zero_le 1⟩
  | [t], hs, _ => by
    have h0 : t.count '$' = 0 := List.count_eq_zero_of_not_mem (hs t (by simp))
    have hlit : ((pieces [t]).map Piece.literal).flatten = t := by simp [pieces, Piece.literal]
    rw [List.intercalate_singleton, hlit, h0]
    exact ⟨replace_absent (not_infix_of_count (by decide) (by omega)), Nat.zero_le 1⟩
  | [t, m], hs, _ => by
    have hlit : ((pieces [t, m]).map Piece.literal).flatten = t ++ '$' :: m := by simp [pieces, Piece.literal]
    have hline : ['$'].intercalate [t, m] = t ++ '$' :: m := by simp [List.intercalate_cons_cons]
    have hcount : (t ++ '$' :: m).count '$' ≤ 1 := by
      rw [List.count_append, List.count_cons_self, List.count_eq_zero_of_not_mem (hs t (by simp)),
        List.count_eq_zero_of_not_mem (hs m (by simp))]
    rw [hlit, hline]
    exact ⟨replace_absent (not_infix_of_count (by decide) hcount), hcount⟩
  | t :: m :: r :: rest, hs, hn => by
    have hm : m = [] := hn m (by simp [pieces])
    subst hm
    have hrest : ∀ s ∈ r :: rest, '$' ∉ s := fun s h => hs s (by simp_all)
    obtain ⟨hrep, hcount⟩ := replace_escapes hrest fun m h => hn m (by simp [pieces, h])
    have ht : '$' ∉ t := hs t List.mem_cons_self
    have hline : ['$'].intercalate (t :: [] :: r :: rest) = t ++ '$' :: '$' :: ['$'].intercalate (r :: rest) := by
      rw [List.intercalate_cons_cons, List.intercalate_cons_cons]
      simp
    have hlit : ((pieces (t :: [] :: r :: rest)).map Piece.literal).flatten = t ++ ((pieces (r :: rest)).map Piece.literal).flatten := by
      simp [pieces, Piece.literal]
    rw [hline, replace_dollars ht, hrep, hlit, List.count_append, List.count_eq_zero_of_not_mem ht]
    exact ⟨rfl, by omega⟩

theorem cut_keeps (l : List Text) (s : Cut) : s.macros <+: (l.foldl cut s).macros := by
  induction l generalizing s with
  | nil => exact List.prefix_rfl
  | cons t l ih =>
    refine List.IsPrefix.trans ?_ (ih (cut s t))
    unfold cut
    by_cases ht : t = ['$']
    · rw [if_pos ht]
    · rw [if_neg ht]
      by_cases hi : s.inMacro = true
      · rw [if_pos hi]
        by_cases hm : t ∈ s.macros
        · simp [hm]
        · simp [hm]
      · rw [if_neg hi]

theorem getMacros_escape {cLine : Text} (hn : ∀ m, .named m ∈ readPieces cLine → m = []) (he : .named [] ∈ readPieces cLine) :
    ∃ rest, getMacros cLine = [] :: rest := by
  unfold readPieces at hn he
  unfold getMacros
  have hno := dollar_notMem_splitOn cLine
  cases hs : cLine.splitOn '$' with
  | nil => exact absurd hs (List.splitOn_ne_nil _ _)
  | cons t l =>
    rw [hs] at hn he hno
    cases l with
    | nil => simp [pieces] at he
    | cons m l =>
      cases l with
      | nil => simp [pieces] at he
      | cons r rest =>
        have hm : m = [] := hn m (by simp [pieces])
        subst hm
        have hne : t ≠ ['$'] := fun e => hno t List.mem_cons_self (e ▸ List.mem_cons_self)
        have hfold : ((t :: [] :: r :: rest).intersperse ['$']).foldl cut ⟨false, []⟩ =
            ((r :: rest).intersperse ['$']).foldl cut ⟨false, [[]]⟩ := by
          rw [List.intersperse_cons_cons, List.intersperse_cons_cons]
          simp [cut, hne]
        rw [hfold]
        obtain ⟨l, hl⟩ := cut_keeps ((r :: rest).intersperse ['$']) ⟨false, [[]]⟩
        exact ⟨l, hl.symm⟩

theorem literal_length (steps : List (Text × Text)) : ∀ {l : List Piece}, (∀ m, .named m ∈ l → m = []) → .named [] ∈ l →
    ((l.map Piece.literal).flatten).length < ((l.map (expectedPiece steps)).flatten).length := by
  intro l hn he
  have hle : ∀ p ∈ l, p.literal.length ≤ (expectedPiece steps p).length := by
    intro p _
    cases p with
    | text t => exact le_refl _
    | named m => exact Nat.zero_le _
  obtain ⟨hl, heq⟩ := flatten_lengths hle
  refine lt_of_le_of_ne hl fun e => ?_
  have := heq e.ge _ he
  simp [Piece.literal, expectedPiece] at this

theorem escapes_lost {cLine : Text}
    (hrun : runTurns mr data args fuel nbLoop cLine = .ok turns) (hn : ∀ m, .named m ∈ readPieces cLine → m = [])
    (he : .named [] ∈ readPieces cLine) : strip (replaceAll (runSteps turns) cLine) ≠ expected (runSteps turns) cLine := by
  obtain ⟨r, hr⟩ := getMacros_escape hn he
  obtain ⟨macros, rest, rfl, hmacros⟩ := runTurns_first hrun (getMacros_of_named he)
  obtain ⟨ms, hms⟩ : ∃ ms, macros = ([], []) :: ms := by
    rw [hr] at hmacros
    unfold getValues at hmacros
    rw [getValue_nil] at hmacros
    cases hv : getValues mr data args r with
    | error e => rw [hv] at hmacros; cases hmacros
    | ok ms =>
      rw [hv] at hmacros
      cases hmacros
      exact ⟨ms, rfl⟩
  subst hms
  -- the first replacement takes the escapes away, and the texts that it leaves do not grow
  obtain ⟨hrep, hcount⟩ := replace_escapes (dollar_notMem_splitOn cLine) hn
  rw [List.intercalate_splitOn] at hrep
  have hsteps : replaceAll (runSteps ((([], []) :: ms) :: rest)) cLine =
      replace doubleDollar ['$'] ((readPieces cLine).map Piece.literal).flatten := by
    obtain ⟨others, hothers⟩ : ∃ others, (((([], []) :: ms) :: rest).flatMap turnSteps) = (['$', '$'], []) :: others := ⟨_, rfl⟩
    unfold runSteps
    rw [hothers, List.cons_append, replaceAll_cons, hrep]
    refine replaceAll_text (fun step h => ?_) hcount
    have hstep : step ∈ ((([], []) :: ms) :: rest).flatMap turnSteps := by
      rw [hothers]
      exact List.mem_cons_of_mem _ h
    exact flatMap_count step hstep
  intro heq
  have hlen := congrArg List.length heq
  have hle := strip_length_le (replaceAll (runSteps ((([], []) :: ms) :: rest)) cLine)
  have hshort : (replace doubleDollar ['$'] ((readPieces cLine).map Piece.literal).flatten).length ≤ _ :=
    replace_length_le (by decide)
  have hlit := literal_length (runSteps ((([], []) :: ms) :: rest)) hn he
  rw [hsteps] at hle hlen
  unfold expected at hlen
  omega

end

/-! ## Commands -/

section
variable (mr : MacroResolver) (data : List Element) (args : Option (List Text)) (cLine : Text)

def run : Except Exn (List (List (Text × Text))) := runTurns mr (data ++ mr.itself :: mr.myConf.toList) args 33 0 cLine

/-- The run comes to its end; a missing key is the only exception. -/
def Terminates : Prop :=
  ∀ fuel, 33 ≤ fuel → resolveSimpleMacrosInString mr data args fuel cLine = (run mr data args cLine).map (fun turns =>
    strip (replaceAll (runSteps turns) cLine)) ∧ ∀ e, run mr data args cLine = .error e → e = .keyError

/-- The resolved command has the texts of the line, a dollar for each escape
and for each name what the replacements of the run make of it alone. -/
def KeepsLiterals : Prop :=
  ∀ turns, run mr data args cLine = .ok turns →
    resolveSimpleMacrosInString mr data args 33 cLine = .ok (expected (runSteps turns) cLine)

def KeepsApart : Prop :=
  ∀ turns, run mr data args cLine = .ok turns → LocalRun (runSteps turns) ((readPieces cLine).map Piece.written)

def Safe : Prop := ∀ turns, run mr data args cLine = .ok turns → LiteralsSafe (runSteps turns) cLine

theorem terminates : Terminates mr data args cLine := by
  intro fuel hf
  refine ⟨?_, fun e he => runTurns_error (by omega) (by omega) he⟩
  rw [resolveSimpleMacrosInString_eq, runTurns_fuel (k := 33) (by omega) (by omega) (by omega)]
  rfl

variable {mr data args cLine} in
theorem resolve_of_run (hrun : run mr data args cLine = .ok turns) :
    resolveSimpleMacrosInString mr data args 33 cLine = .ok (strip (replaceAll (runSteps turns) cLine)) := by
  rw [resolveSimpleMacrosInString_eq]
  unfold run at hrun
  rw [hrun]
  rfl

theorem keepsLiterals_iff : Terminates mr data args cLine ∧
    (KeepsApart mr data args cLine → (KeepsLiterals mr data args cLine ↔ Safe mr data args cLine)) ∧
    ((∀ m, .named m ∈ readPieces cLine → m = []) → .named [] ∈ readPieces cLine →
      ∀ turns, run mr data args cLine = .ok turns → ¬ KeepsLiterals mr data args cLine) := by
  refine ⟨terminates mr data args cLine, fun hl => forall₂_congr fun turns hrun => ?_, fun hn he turns hrun hk => ?_⟩
  · rw [resolve_of_run hrun, Except.ok.injEq]
    exact line_iff hrun (hl turns hrun)
  · have := hk turns hrun
    rw [resolve_of_run hrun, Except.ok.injEq] at this
    exact escapes_lost hrun hn he this

end

def bareResolver : MacroResolver where
  itself := ⟨⟨"macroresolver".toList, fun _ => none, rfl⟩, [], fun _ => .missing, [], []⟩
  myConf := none
  listsOnDemand := []
  findSrvByNameAndHostname _ _ := none
  macromodulations _ := none
  illegalMacroOutputChars := []
  isAlnum := Char.isAlphanum
  upper := List.map Char.toUpper

/-- A command without an escape; the text between its macros is the name of one. -/
theorem keepsLiterals_arguments :
    KeepsLiterals bareResolver [] (some ["x".toList, "y".toList]) "check $ARG1$ARG1$ARG2$".toList ↔
      Safe bareResolver [] (some ["x".toList, "y".toList]) "check $ARG1$ARG1$ARG2$".toList := by
  refine (keepsLiterals_iff bareResolver [] (some ["x".toList, "y".toList]) "check $ARG1$ARG1$ARG2$".toList).2.1 fun turns hrun => ?_
  have hr : run bareResolver [] (some ["x".toList, "y".toList]) "check $ARG1$ARG1$ARG2$".toList =
      .ok [[("ARG1".toList, "x".toList), ("ARG2".toList, "y".toList)]] := by
    decide
  rw [hr] at hrun
  cases hrun
  decide

/-- The escape of `echo a$$b` is lost. -/
theorem escape_missing : ¬ KeepsLiterals bareResolver [] none "echo a$$b".toList := by
  intro h
  have hk := h [[([], [])]] (by decide)
  have hr : resolveSimpleMacrosInString bareResolver [] none 33 "echo a$$b".toList = .ok "echo ab".toList := by decide
  rw [hr] at hk
  revert hk
  decide

end Alignak.Macros
