import Alignak.PluginOutputs

/-!
# What the outputs keep of a plugin's text

The text with its placeholders is read as marks, which the cuts respect. What a
part shows in the end is right when the placeholder is found where it was put,
and nowhere else.
-/

namespace Alignak.Action

/-- What stands for a mark while the text is cut. -/
def Mark.guarded : Mark → List Char
  | plain c => [c]
  | escaped => placeholder

def guardedText (l : List Mark) : List Char := l.flatMap Mark.guarded

def Clean : List Mark → Prop
  | [] => True
  | .plain c :: l => ¬ placeholder <+: c :: guardedText l ∧ Clean l
  | .escaped :: l => Clean l

instance decidableClean : ∀ l, Decidable (Clean l)
  | [] => isTrue trivial
  | .plain c :: l => by
    haveI := decidableClean l
    exact inferInstanceAs (Decidable (¬ placeholder <+: c :: guardedText l ∧ Clean l))
  | .escaped :: l => decidableClean l

theorem placeholder_ne_nil : placeholder ≠ [] := by decide

theorem placeholder_space : ∀ c ∈ placeholder, isSpace c = false := by
  have hall : placeholder.all (fun c => !isSpace c) = true := by decide
  intro c hc
  simpa using List.all_eq_true.mp hall c hc

theorem bar_notMem : '|' ∉ placeholder := by decide

theorem newline_notMem : '\n' ∉ placeholder := by decide

theorem blank_notMem {c : Char} (h : isSpace c = true) : c ∉ placeholder := fun hm => by
  rw [placeholder_space c hm] at h
  cases h

section
variable {l l' : List Mark} {c x : Char} {out : List Char}

@[simp] theorem guardedText_nil : guardedText [] = [] := rfl

@[simp] theorem guardedText_plain : guardedText (.plain c :: l) = c :: guardedText l := rfl

@[simp] theorem guardedText_escaped : guardedText (.escaped :: l) = placeholder ++ guardedText l := rfl

theorem guardedText_append : guardedText (l ++ l') = guardedText l ++ guardedText l' := List.flatMap_append

/-! ## Reading the text as marks -/

theorem replace_escaped (text : List Char) : replace escapedPipe placeholder text = guardedText (marks text) := by
  induction text using marks.induct with
  | case1 => rfl
  | case2 c =>
    have ho : escapedPipe.isPrefixOf [c] = false := by simp [escapedPipe, List.isPrefixOf]
    simp [replace, replaceAfter, marks, ho]
  | case3 c d text h ih =>
    obtain ⟨rfl, rfl⟩ := h
    have ho : escapedPipe.isPrefixOf ('\\' :: '|' :: text) = true := by simp [escapedPipe, List.isPrefixOf]
    have hlen : escapedPipe.length - 1 = 1 := rfl
    unfold replace at ih ⊢
    rw [replaceAfter, if_pos ho, hlen, replaceAfter, ih]
    simp [marks]
  | case4 c d text h ih =>
    have ho : ¬ escapedPipe.isPrefixOf (c :: d :: text) = true := by
      intro ho
      simp only [escapedPipe, List.isPrefixOf, Bool.and_eq_true, beq_iff_eq, and_true] at ho
      exact h ⟨ho.1.symm, ho.2.symm⟩
    unfold replace at ih ⊢
    rw [replaceAfter, if_neg ho, ih, marks, if_neg h]
    rfl

/-! ## Cuts -/

theorem mem_guardedText (hx : x ∉ placeholder) : x ∈ guardedText l ↔ Mark.plain x ∈ l := by
  induction l with
  | nil => simp
  | cons m l ih =>
    cases m with
    | plain c => simp [ih]
    | escaped => simp [ih, hx]

theorem ne_of_mem_placeholder (hx : x ∉ placeholder) : ∀ d ∈ placeholder, (d != x) = true := by
  intro d hd
  rw [bne_iff_ne]
  rintro rfl
  exact hx hd

theorem before_guardedText (hx : x ∉ placeholder) : before x (guardedText l) = guardedText (before (.plain x) l) := by
  unfold before
  induction l with
  | nil => rfl
  | cons m l ih =>
    cases m with
    | plain c =>
      by_cases hc : c = x
      · simp [hc]
      · simp [hc, ih]
    | escaped =>
      rw [guardedText_escaped, List.takeWhile_append_of_pos (ne_of_mem_placeholder hx), ih]
      simp

theorem after_guardedText (hx : x ∉ placeholder) : after x (guardedText l) = guardedText (after (.plain x) l) := by
  unfold after
  induction l with
  | nil => rfl
  | cons m l ih =>
    cases m with
    | plain c =>
      by_cases hc : c = x
      · simp [hc]
      · simp [hc, ih]
    | escaped =>
      rw [guardedText_escaped, List.dropWhile_append_of_pos (ne_of_mem_placeholder hx), ih]
      simp

end

section
variable {α : Type} [DecidableEq α]

theorem splitOn_eq (x : α) (l : List α) :
    l.splitOn x = before x l :: if x ∈ l then (after x l).splitOn x else [] := by
  unfold before after
  induction l with
  | nil => simp
  | cons a l ih =>
    rw [List.splitOn_cons_eq_if_modifyHead]
    by_cases ha : a = x
    · subst ha
      simp
    · have hx : x ∈ a :: l ↔ x ∈ l := by simp [Ne.symm ha]
      rw [if_neg (by simpa using ha), ih]
      simp [ha, Ne.symm ha]

theorem splitOn_append_left {x : α} {p t : List α} (hp : x ∉ p) : (p ++ t).splitOn x = (t.splitOn x).modifyHead (p ++ ·) := by
  induction p with
  | nil =>
    rw [List.nil_append]
    cases t.splitOn x <;> rfl
  | cons d p ih =>
    rw [List.mem_cons, not_or] at hp
    rw [List.cons_append, List.splitOn_cons_eq_if_modifyHead, if_neg (by simpa using Ne.symm hp.1), ih hp.2]
    cases t.splitOn x <;> rfl

end

theorem splitOn_guardedText {x : Char} (hx : x ∉ placeholder) (l : List Mark) :
    (guardedText l).splitOn x = (l.splitOn (.plain x)).map guardedText := by
  induction l with
  | nil => simp
  | cons m l ih =>
    have hcons : ∀ m : Mark, m ≠ .plain x → (m :: l).splitOn (.plain x) = (l.splitOn (.plain x)).modifyHead (m :: ·) := by
      intro m hm
      rw [List.splitOn_cons_eq_if_modifyHead, if_neg (by simpa using hm)]
    cases m with
    | plain c =>
      rw [guardedText_plain, List.splitOn_cons_eq_if_modifyHead, ih]
      by_cases hc : c = x
      · subst hc
        rw [List.splitOn_cons_eq_if_modifyHead]
        simp
      · rw [hcons _ (by simpa using hc), if_neg (by simpa using hc)]
        cases l.splitOn (Mark.plain x) with
        | nil => rfl
        | cons a as => simp
    | escaped =>
      rw [guardedText_escaped, hcons _ (by simp)]
      rw [splitOn_append_left hx, ih]
      cases l.splitOn (Mark.plain x) with
      | nil => rfl
      | cons a as => simp

section
variable {l l' : List Mark} {c x : Char} {out : List Char}

/-! ## Revealing the pipes -/

theorem reveal_placeholder (text : List Char) : reveal (placeholder ++ text) = '|' :: reveal text := by
  have hlen : placeholder.length - 1 = 17 := rfl
  have hcons : placeholder ++ text = '_' :: (placeholder.tail ++ text) := rfl
  have hp : placeholder.isPrefixOf (placeholder ++ text) = true := List.isPrefixOf_iff_prefix.mpr (List.prefix_append _ _)
  have hskip : ∀ (p t : List Char), replaceAfter placeholder ['|'] p.length (p ++ t) = replaceAfter placeholder ['|'] 0 t := by
    intro p t
    induction p with
    | nil => rfl
    | cons d p ih => exact ih
  unfold reveal replace
  rw [hcons] at hp ⊢
  rw [replaceAfter, if_pos hp, hlen]
  exact congrArg (List.cons '|') (hskip placeholder.tail text)

theorem reveal_guardedText : reveal (guardedText l) = l.map Mark.shown ↔ Clean l := by
  induction l with
  | nil => exact iff_of_true rfl trivial
  | cons m l ih =>
    cases m with
    | escaped =>
      rw [guardedText_escaped, reveal_placeholder, List.map_cons]
      exact ⟨fun h => ih.mp (List.tail_eq_of_cons_eq h), fun h => congrArg (List.cons '|') (ih.mpr h)⟩
    | plain c =>
      rw [guardedText_plain, List.map_cons]
      by_cases hp : placeholder <+: c :: guardedText l
      · refine iff_of_false (fun h => ?_) fun h => h.1 hp
        have hc : c = '_' := by
          obtain ⟨t, e⟩ := hp
          exact (List.head_eq_of_cons_eq e).symm
        unfold reveal replace at h
        rw [replaceAfter, if_pos (List.isPrefixOf_iff_prefix.mpr hp), hc] at h
        exact absurd (List.head_eq_of_cons_eq h) (by decide)
      · have hr : reveal (c :: guardedText l) = c :: reveal (guardedText l) := by
          unfold reveal replace
          rw [replaceAfter, if_neg fun h => hp (List.isPrefixOf_iff_prefix.mp h)]
        rw [hr]
        exact ⟨fun h => ⟨hp, ih.mp (List.tail_eq_of_cons_eq h)⟩, fun h => congrArg (List.cons c) (ih.mpr h.2)⟩

theorem clean_append_plain (hx : x ∉ placeholder) : Clean (l ++ .plain x :: l') ↔ Clean l ∧ Clean l' := by
  have hcut : ∀ t u : List Char, placeholder <+: t ++ x :: u ↔ placeholder <+: t := by
    intro t u
    refine ⟨fun h => ?_, fun h => h.trans (List.prefix_append _ _)⟩
    rcases List.prefix_or_prefix_of_prefix h (List.prefix_append t (x :: u)) with hp | ⟨z, e⟩
    · exact hp
    · cases z with
      | nil =>
        rw [List.append_nil] at e
        exact e ▸ List.prefix_rfl
      | cons d z =>
        rw [← e, List.prefix_append_right_inj] at h
        obtain ⟨rfl, -⟩ := List.cons_prefix_cons.mp h
        exact absurd (e ▸ List.mem_append_right _ List.mem_cons_self) hx
  induction l with
  | nil =>
    have hp : ¬ placeholder <+: x :: guardedText l' := fun h => by
      have := (hcut [] (guardedText l')).mp h
      exact placeholder_ne_nil (List.prefix_nil.mp this)
    exact ⟨fun h => ⟨trivial, h.2⟩, fun h => ⟨hp, h.2⟩⟩
  | cons m l ih =>
    cases m with
    | escaped => exact ih
    | plain c =>
      have hp : placeholder <+: c :: guardedText (l ++ .plain x :: l') ↔ placeholder <+: c :: guardedText l := by
        rw [guardedText_append, guardedText_plain, ← List.cons_append]
        exact hcut (c :: guardedText l) (guardedText l')
      exact (and_congr (not_congr hp) ih).trans and_assoc.symm

theorem clean_concat_plain (hx : x ∉ placeholder) : Clean (l ++ [.plain x]) ↔ Clean l :=
  (clean_append_plain hx).trans ⟨fun h => h.1, fun h => ⟨h, trivial⟩⟩

theorem Mark.isBlank_plain {m : Mark} (h : m.isBlank = true) : ∃ c, m = .plain c ∧ isSpace c = true := by
  cases m with
  | plain c => exact ⟨c, rfl, h⟩
  | escaped => cases h

theorem clean_trim : Clean (trim l) ↔ Clean l := by
  have hleft : ∀ l : List Mark, Clean (l.dropWhile Mark.isBlank) ↔ Clean l := by
    intro l
    induction l with
    | nil => exact Iff.rfl
    | cons m l ih =>
      by_cases hm : m.isBlank = true
      · obtain ⟨c, rfl, hc⟩ := Mark.isBlank_plain hm
        rw [List.dropWhile_cons_of_pos hm, ih]
        exact ((clean_append_plain (l := []) (blank_notMem hc)).trans ⟨fun h => h.2, fun h => ⟨trivial, h⟩⟩).symm
      · rw [List.dropWhile_cons_of_neg hm]
  have hright : ∀ l : List Mark, Clean (l.rdropWhile Mark.isBlank) ↔ Clean l := by
    intro l
    induction l using List.reverseRecOn with
    | nil => exact Iff.rfl
    | append_singleton l m ih =>
      by_cases hm : m.isBlank = true
      · obtain ⟨c, rfl, hc⟩ := Mark.isBlank_plain hm
        rw [List.rdropWhile_concat_pos _ _ _ hm, ih]
        exact (clean_concat_plain (blank_notMem hc)).symm
      · rw [List.rdropWhile_concat_neg _ _ _ hm]
  unfold trim
  rw [hright, hleft]

/-! ## Parts and lines -/

theorem strip_guardedText : strip (guardedText l) = guardedText (trim l) := by
  have hleft : ∀ l : List Mark, (guardedText l).dropWhile isSpace = guardedText (l.dropWhile Mark.isBlank) := by
    intro l
    induction l with
    | nil => rfl
    | cons m l ih =>
      cases m with
      | plain c =>
        by_cases hc : isSpace c = true
        · rw [guardedText_plain, List.dropWhile_cons_of_pos hc, List.dropWhile_cons_of_pos (show (Mark.plain c).isBlank = true from hc)]
          exact ih
        · rw [guardedText_plain, List.dropWhile_cons_of_neg hc, List.dropWhile_cons_of_neg (show ¬ (Mark.plain c).isBlank = true from hc)]
          rfl
      | escaped =>
        rw [List.dropWhile_cons_of_neg (by decide)]
        rfl
  have hright : ∀ l : List Mark, (guardedText l).rdropWhile isSpace = guardedText (l.rdropWhile Mark.isBlank) := by
    intro l
    induction l using List.reverseRecOn with
    | nil => rfl
    | append_singleton l m ih =>
      cases m with
      | plain c =>
        have hc' : guardedText (l ++ [.plain c]) = guardedText l ++ [c] := guardedText_append
        by_cases hc : isSpace c = true
        · rw [hc', List.rdropWhile_concat_pos _ _ _ hc, List.rdropWhile_concat_pos _ _ _ (show (Mark.plain c).isBlank = true from hc), ih]
        · rw [hc', List.rdropWhile_concat_neg _ _ _ hc, List.rdropWhile_concat_neg _ _ _ (show ¬ (Mark.plain c).isBlank = true from hc), hc']
      | escaped =>
        have hm : guardedText (l ++ [.escaped]) = guardedText l ++ placeholder.dropLast ++ ['_'] := by
          rw [guardedText_append, List.append_assoc]
          rfl
        rw [List.rdropWhile_concat_neg _ _ _ (by decide), hm, List.rdropWhile_concat_neg _ _ _ (by decide)]
  unfold strip trim
  rw [hleft, hright]

/-- What `get_outputs` shows of a part. -/
def revealed (l : List Mark) : List Char := reveal (guardedText l)

theorem reveal_strip : reveal (strip (guardedText l)) = revealed (trim l) := by
  rw [strip_guardedText]
  rfl

theorem strip_revealed : strip (revealed l) = revealed (trim l) := by
  unfold revealed reveal
  have hbar : ∀ c ∈ ['|'], isSpace c = false := by
    intro c hc
    rw [List.mem_singleton.mp hc]
    rfl
  rw [strip_replace placeholder_ne_nil (by decide) placeholder_space hbar, strip_guardedText]

theorem revealed_join (hx : x ∉ placeholder) : ∀ parts : List (List Mark),
    revealed (join x parts) = [x].intercalate (parts.map revealed)
  | [] => rfl
  | [part] => by simp [join]
  | part :: part' :: parts => by
    have ih := revealed_join hx (part' :: parts)
    unfold join at ih ⊢
    rw [List.intercalate_cons_cons, List.map_cons, List.map_cons, List.intercalate_cons_cons, ← List.map_cons, ← ih]
    unfold revealed reveal
    rw [guardedText_append, guardedText_append]
    simp only [List.append_assoc, List.singleton_append, guardedText_plain, guardedText_nil]
    exact replace_append_sep placeholder_ne_nil hx

theorem clean_join (hx : x ∉ placeholder) : ∀ parts : List (List Mark), Clean (join x parts) ↔ ∀ part ∈ parts, Clean part
  | [] => by simp [join, Clean]
  | [part] => by simp [join]
  | part :: part' :: parts => by
    have ih := clean_join hx (part' :: parts)
    unfold join at ih ⊢
    rw [List.intercalate_cons_cons, List.append_assoc, List.singleton_append, clean_append_plain hx, ih]
    exact List.forall_mem_cons.symm

theorem intercalate_eq (x : Char) (a : List Char) (l : List (List Char)) :
    [x].intercalate (a :: l) = a ++ (l.map (x :: ·)).flatten := by
  induction l generalizing a with
  | nil => simp
  | cons b l ih =>
    rw [List.intercalate_cons_cons, ih]
    simp

theorem before_after (h : Mark.plain x ∈ l) : l = before (.plain x) l ++ .plain x :: after (.plain x) l := by
  unfold before after
  induction l with
  | nil => cases h
  | cons m l ih =>
    by_cases hm : m = .plain x
    · simp [hm]
    · have hl := ih ((List.mem_cons.mp h).resolve_left (Ne.symm hm))
      have hne : (m != Mark.plain x) = true := by simpa using hm
      have htake : (m :: l).takeWhile (· != Mark.plain x) = m :: l.takeWhile (· != Mark.plain x) := List.takeWhile_cons_of_pos hne
      have hdrop : (m :: l).dropWhile (· != Mark.plain x) = l.dropWhile (· != Mark.plain x) := List.dropWhile_cons_of_pos hne
      rw [htake, hdrop, List.cons_append, ← hl]

theorem before_of_notMem (h : Mark.plain x ∉ l) : before (.plain x) l = l := by
  unfold before
  refine List.takeWhile_eq_self_iff.mpr fun m hm => ?_
  rw [bne_iff_ne]
  rintro rfl
  exact h hm

theorem after_of_notMem (h : Mark.plain x ∉ l) : after (.plain x) l = [] := by
  unfold after
  have hd : l.dropWhile (· != .plain x) = [] := by
    refine List.dropWhile_eq_nil_iff.mpr fun m hm => ?_
    rw [bne_iff_ne]
    rintro rfl
    exact h hm
  rw [hd]
  rfl

theorem clean_before_after (hx : x ∉ placeholder) : Clean (before (.plain x) l) ∧ Clean (after (.plain x) l) ↔ Clean l := by
  by_cases h : Mark.plain x ∈ l
  · conv_rhs => rw [before_after h]
    exact (clean_append_plain hx).symm
  · rw [before_of_notMem h, after_of_notMem h]
    exact ⟨fun hc => hc.1, fun hc => ⟨hc, trivial⟩⟩

theorem clean_upToBar : ∀ lines : List (List Mark),
    ((∀ line ∈ upToBar lines, Clean line) ∧ ∀ line ∈ pastBar lines, Clean line) ↔ ∀ line ∈ lines, Clean line
  | [] => by simp [upToBar, pastBar]
  | line :: lines => by
    have ih := clean_upToBar lines
    by_cases h : bar ∈ line
    · have hline := clean_before_after (l := line) bar_notMem
      simp only [upToBar, pastBar, h, if_true]
      rw [List.forall_mem_singleton, List.forall_mem_cons, List.forall_mem_cons, ← and_assoc]
      exact and_congr_left' hline
    · simp only [upToBar, pastBar, h, if_false, List.forall_mem_cons, and_assoc]
      exact and_congr_right' ih

/-! ## The loop -/

def perfDataCut (out : List Char) : List Mark :=
  trim (join ' ' ((before bar (after bar (firstLine out)) :: pastBar (lines out).tail).map trim))

theorem foldl_cutLine_inPerfdata (ls : List (List Mark)) (s : Cutting) (hs : s.inPerfdata = true) :
    (ls.map guardedText).foldl cutLine s =
      { s with perfData := s.perfData ++ (ls.map fun l => ' ' :: revealed (trim l)).flatten } := by
  induction ls generalizing s with
  | nil => simp
  | cons l ls ih =>
    have hl : cutLine s (guardedText l) = { s with perfData := s.perfData ++ ' ' :: revealed (trim l) } := by
      unfold cutLine
      rw [if_pos hs, reveal_strip]
    rw [List.map_cons, List.foldl_cons, hl, ih { s with perfData := s.perfData ++ ' ' :: revealed (trim l) } hs]
    simp

theorem foldl_cutLine (ls : List (List Mark)) (s : Cutting) (hs : s.inPerfdata = false) :
    ((ls.map guardedText).foldl cutLine s).longOutput = s.longOutput ++ (upToBar ls).map (fun l => revealed (trim l)) ∧
      ((ls.map guardedText).foldl cutLine s).perfData =
        s.perfData ++ ((pastBar ls).map fun l => ' ' :: revealed (trim l)).flatten := by
  induction ls generalizing s with
  | nil => simp [upToBar, pastBar]
  | cons l ls ih =>
    rw [List.map_cons, List.foldl_cons]
    have hbefore : before '|' (guardedText l) = guardedText (before bar l) := before_guardedText bar_notMem
    by_cases h : bar ∈ l
    · have hafter : after '|' (guardedText l) = guardedText (after bar l) := after_guardedText bar_notMem
      have hl : cutLine s (guardedText l) = ⟨s.longOutput ++ [revealed (trim (before bar l))],
          s.perfData ++ ' ' :: revealed (trim (after bar l)), true⟩ := by
        unfold cutLine
        rw [if_neg (by rw [hs]; decide), if_pos ((mem_guardedText bar_notMem).mpr h), hbefore, hafter, reveal_strip, reveal_strip]
      rw [hl, foldl_cutLine_inPerfdata _ _ rfl]
      simp [upToBar, pastBar, h]
    · have hl : cutLine s (guardedText l) = { s with longOutput := s.longOutput ++ [revealed (trim l)] } := by
        have hb : before bar l = l := before_of_notMem h
        unfold cutLine
        rw [if_neg (by rw [hs]; decide), if_neg fun hm => h ((mem_guardedText bar_notMem).mp hm), hbefore, hb, reveal_strip]
      obtain ⟨h1, h2⟩ := ih { s with longOutput := s.longOutput ++ [revealed (trim l)] } hs
      rw [hl, h1, h2]
      simp [upToBar, pastBar, h]

theorem perfDataOf_firstLine (l : List Mark) :
    perfDataOf ((guardedText l).splitOn '|') = revealed (trim (before bar (after bar l))) := by
  have hafter : after '|' (guardedText l) = guardedText (after bar l) := after_guardedText bar_notMem
  have hbefore : before '|' (guardedText (after bar l)) = guardedText (before bar (after bar l)) := before_guardedText bar_notMem
  unfold perfDataOf
  rw [splitOn_eq]
  by_cases h : bar ∈ l
  · rw [if_pos ((mem_guardedText bar_notMem).mpr h), splitOn_eq, hafter, hbefore]
    exact reveal_strip
  · have ha : after bar l = [] := after_of_notMem h
    rw [if_neg fun hm => h ((mem_guardedText bar_notMem).mp hm), ha]
    rfl

theorem getOutputs_eq {maxPluginsOutputLength : Nat} (h : out.length ≤ maxPluginsOutputLength) :
    getOutputs maxPluginsOutputLength out =
      ⟨revealed (outputMarks out), revealed (longOutputMarks out), revealed (perfDataCut out)⟩ := by
  have hlines : (guardedText (marks out)).splitOn '\n' = (lines out).map guardedText := splitOn_guardedText newline_notMem _
  have hhead : ((lines out).map guardedText).headD [] = guardedText (firstLine out) := by
    unfold firstLine
    cases lines out <;> rfl
  have houtput : ((guardedText (firstLine out)).splitOn '|').headD [] = guardedText (before bar (firstLine out)) := by
    rw [splitOn_eq, List.headD_cons]
    exact before_guardedText bar_notMem
  obtain ⟨hlong, hperf⟩ := foldl_cutLine (lines out).tail ⟨[], revealed (trim (before bar (after bar (firstLine out)))), false⟩ rfl
  have hjoined : ['\n'].intercalate ((upToBar (lines out).tail).map fun l => revealed (trim l)) = revealed (longOutputMarks out) := by
    unfold longOutputMarks
    rw [revealed_join newline_notMem, List.map_map]
    rfl
  have hcut : strip (revealed (trim (before bar (after bar (firstLine out)))) ++
      ((pastBar (lines out).tail).map fun l => ' ' :: revealed (trim l)).flatten) = revealed (perfDataCut out) := by
    have hsep : ' ' ∉ placeholder := by decide
    have hparts := revealed_join hsep ((before bar (after bar (firstLine out)) :: pastBar (lines out).tail).map trim)
    unfold perfDataCut
    rw [← strip_revealed (l := join ' ' _), hparts, List.map_map, List.map_cons, intercalate_eq, List.map_map]
    rfl
  have htake : out.take maxPluginsOutputLength = out := List.take_of_length_le h
  unfold getOutputs
  simp only
  rw [htake, replace_escaped, hlines, hhead, houtput, perfDataOf_firstLine, ← List.map_tail, hlong, hperf, reveal_strip,
    List.nil_append, hjoined, hcut]
  rfl

/-! ## The parts and the text -/

theorem lines_eq (out : List Char) : lines out = firstLine out :: (lines out).tail := by
  have hne : lines out ≠ [] := List.splitOn_ne_nil _ _
  unfold firstLine
  cases hl : lines out with
  | nil => exact absurd hl hne
  | cons l ls => rfl

theorem join_lines (out : List Char) : join '\n' (lines out) = marks out := List.intercalate_splitOn _

theorem clean_parts : Clean (outputMarks out) ∧ Clean (longOutputMarks out) ∧ Clean (perfDataMarks out) ↔ Clean (marks out) := by
  have hsep : ' ' ∉ placeholder := by decide
  have hfirst := clean_before_after (l := firstLine out) bar_notMem
  have hrest := clean_upToBar (lines out).tail
  have hmarks : Clean (marks out) ↔ Clean (firstLine out) ∧ ∀ line ∈ (lines out).tail, Clean line := by
    rw [← join_lines, clean_join newline_notMem, lines_eq, List.forall_mem_cons]
    rfl
  unfold outputMarks longOutputMarks perfDataMarks
  rw [clean_trim, clean_trim, clean_join newline_notMem, clean_join hsep, hmarks, ← hfirst, ← hrest]
  simp only [List.forall_mem_map, clean_trim, List.forall_mem_cons]
  exact ⟨fun ⟨h1, h2, h3, h4⟩ => ⟨⟨h1, h3⟩, h2, h4⟩, fun ⟨⟨h1, h3⟩, h2, h4⟩ => ⟨h1, h2, h3, h4⟩⟩

/-! ## The size of a part -/

def inked (l : List Mark) : Nat := l.countP fun m => !m.isBlank

theorem inked_append : inked (l ++ l') = inked l + inked l' := List.countP_append

theorem countP_shown : (l.map Mark.shown).countP (fun c => !isSpace c) = inked l := by
  unfold inked
  rw [List.countP_map]
  refine List.countP_congr fun m _ => ?_
  cases m with
  | plain c => exact Iff.rfl
  | escaped => decide

theorem inked_cons (m : Mark) : inked (m :: l) = inked l + if m.isBlank then 0 else 1 := by
  unfold inked
  rw [List.countP_cons]
  cases m.isBlank <;> rfl

theorem countP_guardedText : (guardedText l).countP (fun c => !isSpace c) = inked l + 17 * l.count .escaped := by
  induction l with
  | nil => rfl
  | cons m l ih =>
    cases m with
    | plain c =>
      have hblank : (Mark.plain c).isBlank = isSpace c := rfl
      rw [guardedText_plain, List.countP_cons, ih, inked_cons, hblank, List.count_cons_of_ne (by simp)]
      cases isSpace c with
      | false =>
        simp
        omega
      | true => simp
    | escaped =>
      have hM : placeholder.countP (fun c => !isSpace c) = 18 := by decide
      have hblank : Mark.escaped.isBlank = false := rfl
      rw [guardedText_escaped, List.countP_append, hM, ih, inked_cons, hblank, List.count_cons_self]
      simp only [Bool.false_eq_true, if_false]
      omega

theorem count_escaped_le : l.count .escaped ≤ countAfter placeholder 0 (guardedText l) := by
  induction l with
  | nil => exact Nat.zero_le _
  | cons m l ih =>
    cases m with
    | plain c =>
      rw [List.count_cons_of_ne (by simp)]
      exact ih.trans (countAfter_cons_le c _)
    | escaped =>
      rw [List.count_cons_self, guardedText_escaped, countAfter_append_self placeholder_ne_nil]
      exact Nat.succ_le_succ ih

theorem countP_revealed_le : (revealed l).countP (fun c => !isSpace c) ≤ inked l := by
  have h := @replaceAfter_countP _ ['|'] (fun c => !isSpace c) placeholder_ne_nil (guardedText l) 0
  have hM : placeholder.countP (fun c => !isSpace c) = 18 := by decide
  have hbar : (['|'] : List Char).countP (fun c => !isSpace c) = 1 := by decide
  have hcount := count_escaped_le (l := l)
  rw [List.take_zero, List.countP_nil, hM, hbar, countP_guardedText] at h
  unfold revealed reveal replace
  omega

theorem inked_trim : inked (trim l) = inked l := by
  have hleft : ∀ l : List Mark, inked (l.dropWhile Mark.isBlank) = inked l := by
    intro l
    induction l with
    | nil => rfl
    | cons m l ih =>
      by_cases hm : m.isBlank = true
      · rw [List.dropWhile_cons_of_pos hm, ih]
        unfold inked
        rw [List.countP_cons_of_neg (by simpa using hm)]
      · rw [List.dropWhile_cons_of_neg hm]
  have hright : ∀ l : List Mark, inked (l.rdropWhile Mark.isBlank) = inked l := by
    intro l
    induction l using List.reverseRecOn with
    | nil => rfl
    | append_singleton l m ih =>
      by_cases hm : m.isBlank = true
      · have hone : inked [m] = 0 := by
          unfold inked
          rw [List.countP_cons_of_neg (by simpa using hm), List.countP_nil]
        rw [List.rdropWhile_concat_pos _ _ _ hm, ih, inked_append, hone, Nat.add_zero]
      · rw [List.rdropWhile_concat_neg _ _ _ hm]
  unfold trim
  rw [hright, hleft]

theorem inked_join : ∀ (part : List Mark) (parts : List (List Mark)),
    inked (join ' ' (part :: parts)) = inked part + (parts.map inked).sum
  | part, [] => by simp [join]
  | part, part' :: parts => by
    have ih := inked_join part' parts
    have hsep : inked [.plain ' '] = 0 := by decide
    unfold join at ih ⊢
    rw [List.intercalate_cons_cons, inked_append, inked_append, ih, hsep, List.map_cons, List.sum_cons]
    omega

theorem inked_perfDataCut (h : bar ∈ after bar (firstLine out)) : inked (perfDataCut out) < inked (perfDataMarks out) := by
  have hbar : inked [bar] = 1 := by decide
  have hsplit := congrArg inked (before_after h)
  rw [← List.singleton_append, inked_append, inked_append] at hsplit
  unfold perfDataCut perfDataMarks
  rw [inked_trim, inked_trim, List.map_cons, List.map_cons, inked_join, inked_join, inked_trim, inked_trim]
  unfold bar at hbar hsplit ⊢
  omega

def SingleBar (out : List Char) : Prop := bar ∉ after bar (firstLine out)

/-- The texts of which nothing is lost. -/
theorem losesNothing_iff {maxPluginsOutputLength : Nat} (h : out.length ≤ maxPluginsOutputLength) :
    LosesNothing out (getOutputs maxPluginsOutputLength out) ↔ SingleBar out ∧ Clean (marks out) := by
  unfold LosesNothing
  rw [getOutputs_eq h, Outputs.mk.injEq]
  by_cases hbar : bar ∈ after bar (firstLine out)
  · refine iff_of_false (fun he => ?_) fun hs => hs.1 hbar
    have hcount := countP_revealed_le (l := perfDataCut out)
    rw [he.2.2, countP_shown] at hcount
    exact absurd hcount (Nat.not_le.mpr (inked_perfDataCut hbar))
  · have hcut : perfDataCut out = perfDataMarks out := by
      have hb : before bar (after bar (firstLine out)) = after bar (firstLine out) := before_of_notMem hbar
      unfold perfDataCut perfDataMarks
      rw [hb]
    have hs : SingleBar out := hbar
    rw [hcut, ← clean_parts]
    unfold revealed
    rw [reveal_guardedText, reveal_guardedText, reveal_guardedText]
    exact ⟨fun hc => ⟨hs, hc⟩, fun hc => hc.2⟩

end

def pluginText : List Char := "OK a\\|b | x=1\nmore | y=2\nz=3".toList

theorem pluginText_kept : LosesNothing pluginText (getOutputs 8192 pluginText) ∧
    getOutputs 8192 pluginText = ⟨"OK a|b".toList, "more".toList, "x=1 y=2 z=3".toList⟩ :=
  ⟨(losesNothing_iff (by decide)).mpr ⟨show bar ∉ after bar (firstLine pluginText) by decide, by decide⟩, by decide⟩

/-- What follows a second pipe of the first line is gone, and a placeholder of the plugin's own becomes a pipe. -/
theorem outputs_lost :
    getOutputs 8192 "OK | a=1 | b=2".toList = ⟨"OK".toList, [], "a=1".toList⟩ ∧
    ¬ LosesNothing "OK | a=1 | b=2".toList (getOutputs 8192 "OK | a=1 | b=2".toList) ∧
    ¬ LosesNothing "___PROTECT_PIPE___".toList (getOutputs 8192 "___PROTECT_PIPE___".toList) := by
  unfold LosesNothing
  refine ⟨?_, ?_, ?_⟩ <;> decide

end Alignak.Action
