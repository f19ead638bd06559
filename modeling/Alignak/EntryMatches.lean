import Alignak.EntrySound

/-!
# What a form reads

The values of the texts of a line, and the pieces that the pattern of its form
takes of it.
-/

namespace Alignak

open EntryPattern Pattern
open Numerals (isDecimal asciiDigit decimal_of_digit decimal_not_space)

/-! ## Numbers -/

theorem asciiDigit_isDigit {c : Char} (h : isDecimal c = true) : (asciiDigit c).isDigit = true := by
  unfold isDecimal at h
  obtain ⟨k, hk⟩ := Option.isSome_iff_exists.mp h
  have hlt : k < 10 := by
    unfold Numerals.decimalValue at hk
    obtain ⟨z, hz, rfl⟩ := Option.map_eq_some_iff.mp hk
    have hin := List.find?_some hz
    simp only [Bool.and_eq_true, decide_eq_true_eq] at hin
    omega
  have hall : ∀ i < 10, (Nat.digitChar i).isDigit = true := by decide
  unfold asciiDigit
  rw [hk]
  exact hall k hlt

theorem prepared_mapped {l : List Char} (h : ∀ c ∈ l.map asciiDigit, c ∈ Numerals.decimalChars) :
    Numerals.prepared l = some (l.map asciiDigit) := by
  have hsame : (l.map asciiDigit).map asciiDigit = l.map asciiDigit := by
    rw [List.map_congr_left fun c hc => (Numerals.decimalChars_kept c (h c hc)).1, List.map_id']
  have hprepared := Numerals.prepared_decimal h
  unfold Numerals.prepared at hprepared ⊢
  rw [hsame] at hprepared
  exact hprepared

theorem Numeral.ascii (n : Numeral) : ∀ c ∈ n.digits.map asciiDigit, c.isDigit = true := by
  intro c hc
  obtain ⟨d, hd, rfl⟩ := List.mem_map.mp hc
  exact asciiDigit_isDigit (n.digit d hd)

theorem Numeral.decimalChars (n : Numeral) : ∀ c ∈ n.digits.map asciiDigit, c ∈ Numerals.decimalChars :=
  fun c hc => List.mem_append_left _ (Numerals.mem_digitChars (n.ascii c hc))

theorem Numeral.ascii_ne (n : Numeral) : n.digits.map asciiDigit ≠ [] := by simpa using n.ne

theorem readInt_of {l m : List Char} {n : Int} (hp : Numerals.prepared l = some m) (hn : Numerals.readSigned m = some n) :
    ExternalCommandManager.readInt l = .ok n := by
  unfold ExternalCommandManager.readInt Numerals.toInt
  rw [hp, Option.bind_some, hn]
  rfl

theorem Numeral.readInt (n : Numeral) : ExternalCommandManager.readInt n.digits = .ok n.value :=
  readInt_of (prepared_mapped n.decimalChars) (Numerals.readSigned_digits n.ascii_ne n.ascii)

theorem DayNumber.readInt (n : DayNumber) : ExternalCommandManager.readInt n.text = .ok n.value := by
  unfold text value
  split
  · have hdash : asciiDigit '-' = '-' := by decide
    have hchars : ∀ c ∈ ('-' :: n.number.digits).map asciiDigit, c ∈ Numerals.decimalChars := by
      rw [List.map_cons, hdash, List.forall_mem_cons]
      exact ⟨by decide, n.number.decimalChars⟩
    apply readInt_of (prepared_mapped hchars)
    rw [List.map_cons, hdash]
    unfold Numerals.readSigned
    rw [Numerals.splitSign, Numerals.readNat_digits n.number.ascii_ne n.number.ascii]
    rfl
  · exact n.number.readInt

/-! ## Time ranges -/

theorem WrittenRange.ofEntry (r : WrittenRange) : Timerange.ofEntry r.text = some r.timerange := by
  obtain ⟨a, b, c, d, e, f, g, h, hab, hcd, hef, hgh, hdigit⟩ := r.digits
  unfold text timerange
  rw [hab, hcd, hef, hgh]
  exact if_pos (List.all_eq_true.mpr hdigit)

theorem WrittenRange.hours (r : WrittenRange) : ∀ c ∈ r.text, isHours c = true ∧ isSpace c = false ∧ c ≠ ',' := by
  obtain ⟨a, b, c, d, e, f, g, h, htext, hdigit⟩ := r.chars
  have hall : ∀ x ∈ [a, b, c, d, e, f, g, h], isHours x = true ∧ isSpace x = false ∧ x ≠ ',' := by
    intro x hx
    have hx' := hdigit x hx
    exact ⟨by rw [isHours, hx']; rfl, decimal_not_space (decimal_of_digit hx'), ne_of_digit hx' (by decide)⟩
  have hcolon : isHours ':' = true ∧ isSpace ':' = false ∧ ':' ≠ ',' := by decide
  have hdash : isHours '-' = true ∧ isSpace '-' = false ∧ '-' ≠ ',' := by decide
  rw [htext]
  simp only [List.forall_mem_cons] at hall ⊢
  obtain ⟨ha, hb, hc, hd, he, hf, hg, hh, hnil⟩ := hall
  exact ⟨ha, hb, hcolon, hc, hd, hdash, he, hf, hcolon, hg, hh, hnil⟩

theorem WrittenRange.ne_nil (r : WrittenRange) : r.text ≠ [] := by
  obtain ⟨a, b, c, d, e, f, g, h, htext, -⟩ := r.chars
  rw [htext]
  exact List.cons_ne_nil _ _

theorem WrittenRange.entry_around (r : WrittenRange) (i j : Nat) :
    Timerange.ofEntry (strip (List.replicate j ' ' ++ r.text ++ List.replicate i ' ')) = some r.timerange := by
  have hspaces : ∀ n, Blank (List.replicate n ' ') := by
    intro n c hc
    rw [List.eq_of_mem_replicate hc]
    decide
  have hr : Stripped r.text :=
    ⟨r.ne_nil, fun h => (r.hours _ (List.head_mem h)).2.1, fun h => (r.hours _ (List.getLast_mem h)).2.1⟩
  rw [hr.strip_around (hspaces j) (hspaces i), r.ofEntry]

theorem WrittenRange.noComma (r : WrittenRange) (i j : Nat) : ',' ∉ List.replicate j ' ' ++ r.text ++ List.replicate i ' ' := by
  simp only [List.mem_append, List.mem_replicate, not_or]
  refine ⟨⟨fun h => absurd h.2 (by decide), fun h => (r.hours _ h).2.2 rfl⟩, fun h => absurd h.2 (by decide)⟩

theorem WrittenRanges.ofEntries_text (after : Nat) (more : List (Nat × Nat × WrittenRange)) (j : Nat) (r : WrittenRange) :
    ((List.replicate j ' ' ++ (r.text ++ moreText after more)).splitOn ',').map (fun t => Timerange.ofEntry (strip t)) =
      some r.timerange :: more.map fun x => some x.2.2.timerange := by
  induction more generalizing j r with
  | nil =>
    rw [moreText, ← List.append_assoc, List.splitOn_eq_singleton (r.noComma after j), List.map_singleton, r.entry_around]
    rfl
  | cons x more ih =>
    obtain ⟨i, j', r'⟩ := x
    rw [moreText, ← List.append_assoc, ← List.append_assoc, List.splitOn_append_cons_self,
      List.splitOn_eq_singleton (r.noComma i j), List.map_append, ih, List.map_singleton, r.entry_around]
    rfl

theorem WrittenRanges.ofEntries (rs : WrittenRanges) : Timerange.ofEntries (String.ofList rs.text) = rs.timeranges := by
  unfold Timerange.ofEntries
  rw [String.toList_ofList]
  exact ofEntries_text rs.after rs.more 0 rs.first

theorem WrittenRanges.hours (rs : WrittenRanges) : ∀ c ∈ rs.text, isHours c = true := by
  have hspaces : ∀ n, ∀ c ∈ List.replicate n ' ', isHours c = true := by
    intro n c hc
    rw [List.eq_of_mem_replicate hc]
    decide
  have hmore : ∀ more, ∀ c ∈ moreText rs.after more, isHours c = true := by
    intro more
    induction more with
    | nil => exact hspaces rs.after
    | cons x more ih =>
      simp only [moreText, List.forall_mem_append, List.forall_mem_cons]
      exact ⟨hspaces _, by decide, hspaces _, fun c hc => (x.2.2.hours c hc).1, ih⟩
  exact List.forall_mem_append.mpr ⟨fun c hc => (rs.first.hours c hc).1, hmore _⟩

theorem WrittenRanges.head (rs : WrittenRanges) : ∃ c s, rs.text = c :: s ∧ c.isDigit = true := by
  obtain ⟨a, b, c, d, e, f, g, h, htext, hdigit⟩ := rs.first.chars
  refine ⟨a, b :: ':' :: c :: d :: '-' :: e :: f :: ':' :: g :: h :: moreText rs.after rs.more, ?_, hdigit a List.mem_cons_self⟩
  unfold text
  rw [htext]
  rfl

/-! ## Pieces -/

section
variable {x s : List Char} {xs : List (List Char)} {ps : Pattern} {ts : List Pattern}

theorem takes_word (h : IsOfKind .word x) : word.Takes x := ⟨h.2, Nat.zero_le _, fun _ hm => by cases hm⟩

theorem takes_offset (h : IsOfKind .number x) : offset.Takes x := by
  refine ⟨h.1, ?_, fun _ hm => by cases hm⟩
  obtain ⟨-, c, hc, -⟩ := h
  exact List.length_pos_of_mem hc

theorem takes_interval (n : Numeral) : interval.Takes n.digits :=
  ⟨n.digit, List.length_pos_iff.mpr n.ne, fun _ hm => by cases hm⟩

theorem takes_dash : dash.Takes ['-'] := takes_char.mpr rfl

theorem takes_slash : slash.Takes ['/'] := takes_char.mpr rfl

theorem takes_number (n : Numeral) : (number n.digits.length).Takes n.digits :=
  ⟨n.digit, le_refl _, fun _ hm => by cases hm; exact le_refl _⟩

theorem takes_hours (rs : WrittenRanges) : hours.Takes rs.text := by
  obtain ⟨c, s, htext, -⟩ := rs.head
  refine ⟨rs.hours, ?_, fun _ hm => by cases hm⟩
  rw [htext]
  exact Nat.succ_pos _

theorem atStart_date (d : WrittenDate) (h : atStart ps s = some xs) :
    atStart (EntryPattern.date ++ ps) (d.text ++ s) = some (d.year.digits :: ['-'] :: d.month.digits :: ['-'] :: d.day.digits :: xs) := by
  have hyear := takes_number d.year
  have hmonth := takes_number d.month
  have hday := takes_number d.day
  rw [d.yearLength] at hyear
  rw [d.monthLength] at hmonth
  rw [d.dayLength] at hday
  have htext : d.text ++ s = d.year.digits ++ '-' :: (d.month.digits ++ '-' :: (d.day.digits ++ s)) := by
    unfold WrittenDate.text
    simp
  rw [htext]
  apply atStart_cons hyear (.inl (by rw [d.yearLength]; rfl))
  apply atStart_char
  apply atStart_cons hmonth (.inl (by rw [d.monthLength]; rfl))
  apply atStart_char
  exact atStart_cons hday (.inl (by rw [d.dayLength]; rfl)) h

theorem atStart_spacedDate (d : WrittenDate) (h : atStart (spaced ts ++ ps) s = some xs) :
    atStart (spaced (EntryPattern.date :: ts) ++ ps) (d.text ++ ' ' :: s) =
      some (d.year.digits :: ['-'] :: d.month.digits :: ['-'] :: d.day.digits :: [' '] :: xs) := by
  rw [spaced_cons]
  exact atStart_date d (atStart_char h)

end

section
variable (n : Nat) (rs : WrittenRanges) {p : Piece} {x : List Char}

theorem atStart_hours : atStart [hours] rs.text = some [rs.text] := by
  have h : atStart [hours] (rs.text ++ []) = some [rs.text] := atStart_cons (takes_hours rs) (.inr fun c hc => by cases hc) rfl
  rw [List.append_nil] at h
  exact h

theorem atStart_blanks {m : Nat} (hm : m ≤ n) : atStart [{ blanks with least := m }, hours] (List.replicate n ' ' ++ rs.text) =
    some [List.replicate n ' ', rs.text] := by
  refine atStart_cons ⟨fun c hc => ?_, by simpa using hm, fun _ h => by cases h⟩ (.inr ?_) (atStart_hours rs)
  · rw [List.eq_of_mem_replicate hc]
    rfl
  · intro c hc
    obtain ⟨d, s, htext, hd⟩ := rs.head
    rw [htext] at hc
    cases hc
    exact decimal_not_space (decimal_of_digit hd)

theorem atStart_rest (hp : p.cls ' ' = false) (hx : p.Takes x) :
    atStart [p, blanks, hours] (x ++ ' ' :: (List.replicate n ' ' ++ rs.text)) = some [x, List.replicate (n + 1) ' ', rs.text] := by
  apply atStart_cons hx (.inr _) (atStart_blanks (n + 1) rs (Nat.zero_le _))
  intro c hc
  cases hc
  exact hp

theorem atStart_noWord : atStart [word, blanks, hours] (List.replicate n ' ' ++ rs.text) =
    some [[], List.replicate n ' ', rs.text] := by
  have hnil : word.Takes [] := ⟨fun c hc => absurd hc List.not_mem_nil, le_refl _, fun _ hm => by cases hm⟩
  refine atStart_cons hnil (.inr fun c hc => ?_) (atStart_blanks n rs (Nat.zero_le _))
  obtain ⟨d, s, htext, hd⟩ := rs.head
  cases n with
  | zero =>
    rw [htext] at hc
    cases hc
    exact not_lower_of_decimal (decimal_of_digit hd)
  | succ n =>
    cases hc
    rfl

end

end Alignak
