import Alignak.ConfigBuffer

/-!
# Where a line is cut

A line is cut at its first break, a tab or three blanks in a row, wherever that
is; only a line without one is cut at its first white space. The property that
comes out is a start of the line.
-/

namespace Alignak.ConfigBuffer

theorem blank_nil : Blank [] := fun _ h => absurd h List.not_mem_nil

/-! ## Classes of characters -/

theorem isWhitespace_isSpace {c : Char} (h : isWhitespace c = true) : isSpace c = true := by
  simp only [isWhitespace, isBreak, isFill, Bool.or_eq_true, beq_iff_eq] at h
  rcases h with ((rfl | rfl) | rfl) | (rfl | rfl) | rfl <;> decide

section
variable {c : Char} (hc : isSpace c = false)
include hc

theorem not_isWhitespace : isWhitespace c = false := by
  rw [← Bool.not_eq_true]
  intro h
  rw [isWhitespace_isSpace h] at hc
  exact Bool.noConfusion hc

theorem not_isBreak : isBreak c = false := (Bool.or_eq_false_iff.mp (not_isWhitespace hc)).1

theorem not_isFill : isFill c = false := (Bool.or_eq_false_iff.mp (not_isWhitespace hc)).2

end

/-! ## Breaks -/

def HasBreak (l : Text) : Prop :=
  (∃ c ∈ l, isBreak c = true) ∨
    ∃ a b c, [a, b, c] <:+: l ∧ isFill a = true ∧ isFill b = true ∧ isFill c = true

def StartsBreak (l : Text) : Prop :=
  (∃ c ∈ l.head?, isBreak c = true) ∨
    ∃ a b c, [a, b, c] <+: l ∧ isFill a = true ∧ isFill b = true ∧ isFill c = true

theorem not_hasBreak_nil : ¬ HasBreak [] := by
  rintro (⟨c, hc, _⟩ | ⟨a, b, c, hi, _⟩)
  · exact List.not_mem_nil hc
  · simp at hi

variable {l w : Text}

theorem hasBreak_cons {c : Char} : HasBreak (c :: l) ↔ StartsBreak (c :: l) ∨ HasBreak l := by
  constructor
  · rintro (⟨d, hd, hb⟩ | ⟨x, y, z, hi, hf⟩)
    · rcases List.mem_cons.mp hd with rfl | hd
      · exact .inl (.inl ⟨d, rfl, hb⟩)
      · exact .inr (.inl ⟨d, hd, hb⟩)
    · rcases List.infix_cons_iff.mp hi with hp | hi
      · exact .inl (.inr ⟨x, y, z, hp, hf⟩)
      · exact .inr (.inr ⟨x, y, z, hi, hf⟩)
  · rintro ((⟨d, hd, hb⟩ | ⟨x, y, z, hp, hf⟩) | (⟨d, hd, hb⟩ | ⟨x, y, z, hi, hf⟩))
    · obtain rfl : c = d := by simpa using hd
      exact .inl ⟨c, List.mem_cons_self, hb⟩
    · exact .inr ⟨x, y, z, hp.isInfix, hf⟩
    · exact .inl ⟨d, List.mem_cons_of_mem _ hd, hb⟩
    · exact .inr ⟨x, y, z, List.infix_cons hi, hf⟩

theorem three_fills : 3 ≤ (l.takeWhile isFill).length ↔
    ∃ a b c, [a, b, c] <+: l ∧ isFill a = true ∧ isFill b = true ∧ isFill c = true := by
  constructor
  · intro h
    obtain ⟨a, b, c, rest, hr⟩ : ∃ a b c rest, l.takeWhile isFill = a :: b :: c :: rest := by
      cases h1 : l.takeWhile isFill with
      | nil => simp [h1] at h
      | cons a l₁ =>
        cases l₁ with
        | nil => simp [h1] at h
        | cons b l₂ =>
          cases l₂ with
          | nil => simp [h1] at h
          | cons c rest => exact ⟨a, b, c, rest, rfl⟩
    have hmem : ∀ x ∈ [a, b, c], isFill x = true := by
      intro x hx
      apply takeWhile_pos (l := l)
      rw [hr]
      exact List.mem_append_left rest hx
    refine ⟨a, b, c, ?_, hmem a (by simp), hmem b (by simp), hmem c (by simp)⟩
    apply List.IsPrefix.trans _ (List.takeWhile_prefix isFill)
    rw [hr]
    exact ⟨rest, rfl⟩
  · rintro ⟨a, b, c, ⟨rest, rfl⟩, ha, hb, hc⟩
    simp [ha, hb, hc]

theorem breakLength_pos : breakLength l ≠ 0 ↔ StartsBreak l := by
  unfold breakLength StartsBreak
  rw [← three_fills]
  cases l with
  | nil => simp
  | cons c l =>
    by_cases hb : isBreak c = true
    · simp [hb]
    · by_cases hf : 3 ≤ ((c :: l).takeWhile isFill).length
      · rw [if_neg (by simp [hb]), if_pos hf]
        exact ⟨fun _ => .inr hf, fun _ => by omega⟩
      · rw [if_neg (by simp [hb]), if_neg hf]
        simp only [ne_eq, not_true_eq_false, false_iff, not_or]
        exact ⟨by simp [hb], hf⟩

theorem splitBreak_cons {c : Char} (h : breakLength (c :: l) = 0) :
    splitBreak (c :: l) = (splitBreak l).map fun r => (c :: r.1, r.2) := if_pos h

theorem splitBreak_start {c : Char} (h : breakLength (c :: l) ≠ 0) :
    splitBreak (c :: l) = some ([], skipBreaks l.length ((c :: l).drop (breakLength (c :: l)))) := if_neg h

theorem splitBreak_none : splitBreak l = none ↔ ¬ HasBreak l := by
  induction l with
  | nil => exact ⟨fun _ => not_hasBreak_nil, fun _ => rfl⟩
  | cons c l ih =>
    rw [hasBreak_cons, ← breakLength_pos, not_or, not_not]
    by_cases h : breakLength (c :: l) = 0
    · rw [splitBreak_cons h, Option.map_eq_none_iff, ih]
      exact ⟨fun hl => ⟨h, hl⟩, fun hl => hl.2⟩
    · rw [splitBreak_start h]
      exact ⟨fun hn => (Option.some_ne_none _ hn).elim, fun hl => absurd hl.1 h⟩

theorem splitBreak_prefix {r : Text × Text} (h : splitBreak l = some r) : r.1 <+: l := by
  induction l generalizing r with
  | nil => exact nomatch h
  | cons c l ih =>
    by_cases hb : breakLength (c :: l) = 0
    · rw [splitBreak_cons hb] at h
      obtain ⟨r', hr', rfl⟩ := Option.map_eq_some_iff.mp h
      exact List.cons_prefix_cons.mpr ⟨rfl, ih hr'⟩
    · rw [splitBreak_start hb] at h
      cases h
      exact List.nil_prefix

theorem breakLength_of_not_isSpace {c : Char} (hc : isSpace c = false) (l : Text) : breakLength (c :: l) = 0 := by
  unfold breakLength
  rw [if_neg (by simp [not_isBreak hc]), List.takeWhile_cons_of_neg (by simp [not_isFill hc])]
  rfl

/-! ## White space before a text -/

theorem breakLength_le (w : Text) : breakLength w ≤ w.length := by
  unfold breakLength
  split
  · exact (List.takeWhile_prefix _).length_le
  · split
    · exact (List.takeWhile_prefix _).length_le
    · exact Nat.zero_le _

section
variable {tail : Text} (ht : EndsSpan isSpace tail)
include ht

theorem endsSpan_of_isSpace {p : Char → Bool} (hp : ∀ c, isSpace c = false → p c = false) : EndsSpan p tail :=
  fun c hc => hp c (ht c hc)

theorem takeWhile_append_tail {p : Char → Bool} (hp : ∀ c, isSpace c = false → p c = false) (w : Text) :
    (w ++ tail).takeWhile p = w.takeWhile p := by
  induction w with
  | nil => exact takeWhile_of_endsSpan (endsSpan_of_isSpace ht hp)
  | cons c w ih =>
    by_cases hc : p c = true
    · rw [List.cons_append, List.takeWhile_cons_of_pos hc, List.takeWhile_cons_of_pos hc, ih]
    · rw [List.cons_append, List.takeWhile_cons_of_neg hc, List.takeWhile_cons_of_neg hc]

theorem breakLength_append (w : Text) : breakLength (w ++ tail) = breakLength w := by
  unfold breakLength
  rw [takeWhile_append_tail ht fun _ => not_isBreak, takeWhile_append_tail ht fun _ => not_isFill]
  cases w with
  | cons c w => rfl
  | nil =>
    rw [List.nil_append, if_neg ?_]
    · rfl
    · cases tail with
      | nil => simp
      | cons c l => simp [not_isBreak (ht c rfl)]

theorem skipBreaks_append (n : Nat) (hw : Blank w) : ∃ w', Blank w' ∧ skipBreaks n (w ++ tail) = w' ++ tail := by
  induction n generalizing w with
  | zero => exact ⟨w, hw, rfl⟩
  | succ n ih =>
    rw [skipBreaks, breakLength_append ht]
    split
    · exact ⟨w, hw, rfl⟩
    · rw [List.drop_append_of_le_length (breakLength_le w)]
      exact ih fun c hc => hw c (List.mem_of_mem_drop hc)

theorem splitBreak_blank (hw : Blank w) (hb : HasBreak w) :
    ∃ a b, Blank a ∧ Blank b ∧ splitBreak (w ++ tail) = some (a, b ++ tail) := by
  induction w with
  | nil => exact absurd hb not_hasBreak_nil
  | cons c w ih =>
    have hw' : Blank w := fun d hd => hw d (List.mem_cons_of_mem _ hd)
    have hl := breakLength_append ht (c :: w)
    rw [List.cons_append] at hl ⊢
    by_cases h : breakLength (c :: w) = 0
    · have hb' : HasBreak w := (hasBreak_cons.mp hb).resolve_left fun hs => breakLength_pos.mpr hs h
      obtain ⟨a, b, ha, hb, hs⟩ := ih hw' hb'
      refine ⟨c :: a, b, ?_, hb, ?_⟩
      · rintro d (_ | ⟨_, hd⟩)
        · exact hw c List.mem_cons_self
        · exact ha d hd
      · rw [splitBreak_cons (hl.trans h), hs]
        rfl
    · rw [splitBreak_start (by rw [hl]; exact h), hl, ← List.cons_append,
        List.drop_append_of_le_length (breakLength_le (c :: w))]
      obtain ⟨b, hb, hs⟩ := skipBreaks_append ht (w ++ tail).length (w := (c :: w).drop (breakLength (c :: w)))
        fun d hd => hw d (List.mem_of_mem_drop hd)
      exact ⟨[], b, blank_nil, hb, by rw [hs]⟩

theorem splitBreak_append (hb : ¬ HasBreak w) :
    splitBreak (w ++ tail) = (splitBreak tail).map fun r => (w ++ r.1, r.2) := by
  induction w with
  | nil => simp
  | cons c w ih =>
    rw [hasBreak_cons, not_or, ← breakLength_pos, not_not] at hb
    have hl := breakLength_append ht (c :: w)
    rw [List.cons_append] at hl ⊢
    rw [splitBreak_cons (hl.trans hb.1), ih hb.2, Option.map_map]
    rfl

end

/-! ## The start of a line -/

theorem strip_cons {c : Char} (hc : isSpace c = false) (l : Text) : ∃ l', strip (c :: l) = c :: l' ∧ c :: l' <+: c :: l := by
  have hs : strip (c :: l) = (c :: l).rdropWhile isSpace := by
    unfold strip
    rw [List.dropWhile_cons_of_neg (by simp [hc])]
  have hp := List.rdropWhile_prefix isSpace (c :: l)
  rw [← hs] at hp
  cases hl : strip (c :: l) with
  | nil =>
    rw [hs, List.rdropWhile_eq_nil_iff] at hl
    exact absurd (hl c List.mem_cons_self) (by simp [hc])
  | cons d l' =>
    rw [hl] at hp
    obtain rfl : d = c := (List.cons_prefix_cons.mp hp).1
    exact ⟨l', rfl, hp⟩

theorem prefix_rdropWhile {v : Char} (hv : isSpace v = false) (p q : Text) :
    p ++ [v] <+: (p ++ [v] ++ q).rdropWhile isSpace := by
  induction q using List.reverseRecOn with
  | nil =>
    rw [List.append_nil, List.rdropWhile_concat_neg _ _ _ (by simp [hv])]
  | append_singleton q d ih =>
    rw [← List.append_assoc]
    by_cases hd : isSpace d = true
    · rw [List.rdropWhile_concat_pos _ _ _ hd]
      exact ih
    · rw [List.rdropWhile_concat_neg _ _ _ hd, List.append_assoc]
      exact List.prefix_append _ _

def rawParts (line : Text) : List Text := ((splitBreak line).map fun r => [r.1, r.2]).getD (splitSpace line)

theorem cutLine_eq (line : Text) : cutLine line = (rawParts line).filterMap fun elt =>
    if (strip elt).isEmpty then none else some (strip elt) := rfl

theorem cutLine_first {line elt : Text} {rest : List Text} {c : Char} {key : Text} (hr : rawParts line = elt :: rest)
    (hs : strip elt = c :: key) : ∃ rest', cutLine line = (c :: key) :: rest' := by
  rw [cutLine_eq, hr, List.filterMap_cons, hs]
  exact ⟨_, rfl⟩

theorem rawParts_head {c : Char} (hc : isSpace c = false) (l : Text) :
    ∃ a rest, rawParts (c :: l) = (c :: a) :: rest ∧ c :: a <+: c :: l := by
  unfold rawParts
  cases hs : splitBreak (c :: l) with
  | some r =>
    have hp := splitBreak_prefix hs
    rw [splitBreak_cons (breakLength_of_not_isSpace hc l)] at hs
    obtain ⟨r', _, rfl⟩ := Option.map_eq_some_iff.mp hs
    exact ⟨r'.1, _, rfl, hp⟩
  | none =>
    simp only [Option.map_none, Option.getD_none, splitSpace]
    split
    · rw [List.takeWhile_cons_of_pos (by simp [not_isWhitespace hc])]
      exact ⟨_, _, rfl, List.cons_prefix_cons.mpr ⟨rfl, List.takeWhile_prefix _⟩⟩
    · exact ⟨l, [], rfl, List.prefix_refl _⟩

theorem cutLine_head {c : Char} (hc : isSpace c = false) (l : Text) :
    ∃ a rest, cutLine (c :: l) = (c :: a) :: rest ∧ c :: a <+: c :: l := by
  obtain ⟨a, rest, hr, hp⟩ := rawParts_head hc l
  obtain ⟨a', hs, hp'⟩ := strip_cons hc a
  obtain ⟨rest', hcut⟩ := cutLine_first hr hs
  exact ⟨a', rest', hcut, hp'.trans hp⟩

/-! ## A property and its value -/

section
variable {name sep value after : Text}

theorem splitBreak_word (hw : ∀ c ∈ name, isSpace c = false) (l : Text) :
    splitBreak (name ++ l) = (splitBreak l).map fun r => (name ++ r.1, r.2) := by
  induction name with
  | nil => simp
  | cons c name ih =>
    have hc := hw c List.mem_cons_self
    rw [List.cons_append, splitBreak_cons (breakLength_of_not_isSpace hc _),
      ih fun d hd => hw d (List.mem_cons_of_mem _ hd), Option.map_map]
    rfl

theorem stripped_endsSpan (hv : Stripped value) (after : Text) : EndsSpan isSpace (value ++ after) := by
  cases value with
  | nil => exact absurd rfl hv.ne
  | cons c value => exact EndsSpan.cons (hv.head (List.cons_ne_nil c value)) _

theorem strip_nonempty (h : Stripped value) {w' : Text} (hw : Blank w) (hw' : Blank w') :
    (if (strip (w ++ value ++ w')).isEmpty then none else some (strip (w ++ value ++ w'))) = some value := by
  rw [h.strip_around hw hw', if_neg (by simpa using h.ne)]

theorem word_stripped (hn : name ≠ []) (hw : ∀ c ∈ name, isSpace c = false) : Stripped name :=
  ⟨hn, fun h => hw _ (List.head_mem h), fun h => hw _ (List.getLast_mem h)⟩

theorem splitSpace_entry (hw : ∀ c ∈ name, isSpace c = false) (hsep : sep ≠ [])
    (hgap : ∀ c ∈ sep, isWhitespace c = true) {tail : Text} (ht : EndsSpan isSpace tail) :
    splitSpace (name ++ (sep ++ tail)) = [name, tail] := by
  obtain ⟨c, sep', rfl⟩ := List.exists_cons_of_ne_nil hsep
  have hname : ∀ d ∈ name, (!isWhitespace d) = true := fun d hd => by simp [not_isWhitespace (hw d hd)]
  have hend : EndsSpan (fun d => !isWhitespace d) (c :: sep' ++ tail) :=
    EndsSpan.cons (by simp [hgap c List.mem_cons_self]) _
  have hany : (name ++ (c :: sep' ++ tail)).any isWhitespace = true := by
    rw [List.any_eq_true]
    exact ⟨c, by simp, hgap c List.mem_cons_self⟩
  unfold splitSpace
  rw [if_pos hany, takeWhile_span hname hend, dropWhile_span hname hend,
    dropWhile_span hgap (endsSpan_of_isSpace ht fun _ => not_isWhitespace)]

variable (hn : name ≠ []) (hw : ∀ c ∈ name, isSpace c = false) (hsep : sep ≠ []) (hgap : ∀ c ∈ sep, isWhitespace c = true)
  (hv : Stripped value) (ha : Blank after)
include hn hw hsep hgap hv ha

theorem cutLine_entry (h : HasBreak sep ∨ ¬ HasBreak (value ++ after)) :
    cutLine (name ++ (sep ++ (value ++ after))) = [name, value] := by
  have hname := word_stripped hn hw
  have ht := stripped_endsSpan hv after
  have hblank : Blank sep := fun c hc => isWhitespace_isSpace (hgap c hc)
  rw [cutLine_eq]
  unfold rawParts
  rw [splitBreak_word hw]
  by_cases hs : HasBreak sep
  · obtain ⟨a, b, ha', hb, hsplit⟩ := splitBreak_blank ht hblank hs
    have hl := strip_nonempty hname blank_nil ha'
    have hr := strip_nonempty hv hb ha
    rw [List.nil_append] at hl
    rw [List.append_assoc] at hr
    rw [hsplit]
    simp only [Option.map_some, Option.getD_some, List.filterMap_cons, List.filterMap_nil, hl, hr]
  · rw [splitBreak_append ht hs, splitBreak_none.mpr (h.resolve_left hs)]
    have hl := strip_nonempty hname blank_nil blank_nil
    have hr := strip_nonempty hv blank_nil ha
    rw [List.nil_append, List.append_nil] at hl
    rw [List.nil_append] at hr
    simp only [Option.map_none, Option.getD_none, splitSpace_entry hw hsep hgap ht, List.filterMap_cons,
      List.filterMap_nil, hl, hr]

omit ha in
theorem cutLine_mistaken (hs : ¬ HasBreak sep) (hb : HasBreak (value ++ after)) :
    ∃ key rest, cutLine (name ++ (sep ++ (value ++ after))) = key :: rest ∧ ∃ c ∈ key, isSpace c = true := by
  have ht := stripped_endsSpan hv after
  obtain ⟨n, name', rfl⟩ := List.exists_cons_of_ne_nil hn
  obtain ⟨c, sep', rfl⟩ := List.exists_cons_of_ne_nil hsep
  obtain ⟨v, value', rfl⟩ := List.exists_cons_of_ne_nil hv.ne
  obtain ⟨r, hr⟩ : ∃ r, splitBreak (v :: (value' ++ after)) = some r :=
    Option.ne_none_iff_exists'.mp fun hnone => splitBreak_none.mp hnone hb
  have hvs : isSpace v = false := hv.head (List.cons_ne_nil v value')
  have hr' := hr
  rw [splitBreak_cons (breakLength_of_not_isSpace hvs _)] at hr'
  obtain ⟨r', _, rfl⟩ := Option.map_eq_some_iff.mp hr'
  have hns : isSpace n = false := hw n List.mem_cons_self
  have hsplit : splitBreak (n :: name' ++ (c :: sep' ++ (v :: value' ++ after))) =
      some (n :: (name' ++ (c :: sep' ++ v :: r'.1)), r'.2) := by
    rw [splitBreak_word hw, splitBreak_append ht hs]
    simp only [List.cons_append] at hr ⊢
    rw [hr]
    rfl
  have hkey : n :: (name' ++ c :: sep') ++ [v] <+: strip (n :: (name' ++ (c :: sep' ++ v :: r'.1))) := by
    unfold strip
    rw [List.dropWhile_cons_of_neg (by simp [hns])]
    have hp := prefix_rdropWhile hvs (n :: (name' ++ c :: sep')) r'.1
    simpa using hp
  obtain ⟨key, hstrip, _⟩ := strip_cons hns (name' ++ (c :: sep' ++ v :: r'.1))
  have hparts : rawParts (n :: name' ++ (c :: sep' ++ (v :: value' ++ after))) =
      [n :: (name' ++ (c :: sep' ++ v :: r'.1)), r'.2] := by
    unfold rawParts
    rw [hsplit]
    rfl
  obtain ⟨rest, hcut⟩ := cutLine_first hparts hstrip
  refine ⟨n :: key, rest, hcut, c, ?_, isWhitespace_isSpace (hgap c List.mem_cons_self)⟩
  rw [hstrip] at hkey
  exact hkey.subset (by simp)

end

end Alignak.ConfigBuffer
