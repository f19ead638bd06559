import Alignak.Perfdata
import Mathlib.Data.Finset.Card
import Mathlib.Data.Finset.Dedup

/-!
# What is read of performance data

Each field of an entry takes its own text, also where fields before it are
empty, and each entry is one element of its line.
-/

namespace Alignak

namespace Perfdata

open Numerals

/-! ## Decimals through floats -/

section
variable {d : Decimal} {n : Number}

def readNumber (d : Decimal) : Option Number := (toBestIntFloat d.text).toOption

theorem toBestIntFloat_text : toBestIntFloat d.text =
    (truncate d.double).map fun i : Int => if floatValue d.double = some (i : Rat) then .int i else .float d.double := by
  unfold toBestIntFloat
  rw [d.toFloat_text]
  change (truncate d.double >>= fun i : Int => .ok (if floatValue d.double = some (i : Rat) then Number.int i
    else Number.float d.double)) = _
  cases truncate d.double <;> rfl

theorem truncate_ok {x : Float.Model} : (∃ i, truncate x = .ok i) ↔ floatValue x ≠ none := by
  unfold truncate floatValue
  cases x.unpack <;> simp

theorem readNumber_value (h : readNumber d = some n) : n.value = floatValue d.double ∧ floatValue d.double ≠ none := by
  unfold readNumber at h
  rw [toBestIntFloat_text] at h
  cases ht : truncate d.double with
  | error e => rw [ht] at h; cases h
  | ok i =>
    rw [ht] at h
    refine ⟨?_, truncate_ok.mp ⟨i, ht⟩⟩
    cases h
    dsimp only
    by_cases hi : floatValue d.double = some (i : Rat)
    · rw [if_pos hi, hi]; rfl
    · rw [if_neg hi]; rfl

theorem readNumber_none (h : readNumber d = none) : floatValue d.double = none := by
  by_contra hne
  obtain ⟨i, hi⟩ := truncate_ok.mpr hne
  unfold readNumber at h
  rw [toBestIntFloat_text, hi] at h
  cases h

theorem guess_text (h : ¬ Overflows d) : guessIntOrFloat (some d.text) = .ok (readNumber d) := by
  unfold Overflows at h
  simp only [guessIntOrFloat, readNumber, toBestIntFloat_text]
  cases ht : truncate d.double with
  | ok i => rfl
  | error e =>
    cases e with
    | value => rfl
    | overflow => exact absurd ht h

theorem guess_overflows (h : Overflows d) : guessIntOrFloat (some d.text) = .error .overflow := by
  unfold Overflows at h
  simp only [guessIntOrFloat, toBestIntFloat_text, h]
  rfl

theorem says_iff : SaysField (some d) (readNumber d) ↔ Exact d := by
  constructor
  · intro ⟨n, hr, hwhole, _⟩
    obtain ⟨hv, hne⟩ := readNumber_value hr
    obtain ⟨v, hfloat⟩ := Option.ne_none_iff_exists'.mp hne
    refine ⟨v, hfloat, fun hd => ?_⟩
    have he := hwhole hd
    rw [hv, hfloat] at he
    exact Option.some.inj he
  · intro ⟨v, hfloat, hexact⟩
    cases hr : readNumber d with
    | none =>
      rw [readNumber_none hr] at hfloat
      cases hfloat
    | some n =>
      have hv := (readNumber_value hr).1
      refine ⟨n, rfl, fun hd => ?_, fun _ => hv⟩
      rw [hv, hfloat, hexact hd]

end

/-! ## The groups of an entry -/

theorem decimalChars_number : ∀ c ∈ decimalChars, isNumber c = true := forall_of_all (by decide)

theorem decimalChars_range : ∀ c ∈ decimalChars, isRange c = true := by
  intro c hc
  unfold isRange
  rw [decimalChars_number c hc]
  rfl

variable {c : Char} {lead : Text} {f : Option Decimal}

section
variable {alnum : Char → Bool}

theorem endsSpan_fields {cls : Char → Bool} (hsemi : cls ';' = false) (fields : List (Option Decimal)) :
    EndsSpan cls (fields.flatMap fieldText) := by
  cases fields with
  | nil => exact EndsSpan.nil
  | cons f fields => exact EndsSpan.cons hsemi _

theorem matchField_fields {cls : Char → Bool} (hcls : ∀ c ∈ decimalChars, cls c = true) (hsemi : cls ';' = false)
    (fields : List (Option Decimal)) :
    matchField cls (fields.flatMap fieldText) = (fields.head?.join.map Decimal.text, fields.tail.flatMap fieldText) := by
  cases fields with
  | nil => rfl
  | cons f fields =>
    have hend := endsSpan_fields hsemi fields
    have hall : ∀ c ∈ f.elim [] Decimal.text, cls c = true := by
      cases f with
      | none => exact fun c hc => nomatch hc
      | some d => exact fun c hc => hcls c (d.text_chars c hc)
    have hsplit : (f :: fields).flatMap fieldText = ';' :: (f.elim [] Decimal.text ++ fields.flatMap fieldText) := rfl
    unfold matchField
    simp only [hsplit, List.head?_cons, if_true, List.tail_cons, takeWhile_span hall hend, dropWhile_span hall hend]
    cases f with
    | none => rfl
    | some d =>
      have hne : d.text.isEmpty = false := by simp [Decimal.text, d.body_ne]
      simp [hne]

theorem alpha_bounds (h : c.isAlpha = true) : 65 ≤ c.toNat ∧ c.toNat ≤ 122 := by
  have h : (decide (c.val ≥ 'A'.val ∧ c.val ≤ 'Z'.val) || decide (c.val ≥ 'a'.val) && decide (c.val ≤ 'z'.val)) = true := h
  simp only [Bool.or_eq_true, Bool.and_eq_true, decide_eq_true_eq] at h
  rcases h with ⟨h1, h2⟩ | ⟨h1, h2⟩
  · have h1' : 65 ≤ c.toNat := h1
    have h2' : c.toNat ≤ 90 := h2
    omega
  · have h1' : 97 ≤ c.toNat := h1
    have h2' : c.toNat ≤ 122 := h2
    omega

theorem alpha_not_decimal (h : c.isAlpha = true) : isDecimal c = false := by
  obtain ⟨h1, h2⟩ := alpha_bounds h
  by_contra hd
  have hr := decimal_range (Bool.eq_true_of_not_eq_false hd)
  omega

theorem alpha_not_space (h : c.isAlpha = true) : isSpace c = false := by
  obtain ⟨h1, h2⟩ := alpha_bounds h
  unfold isSpace
  simp only [Bool.or_eq_false_iff, Bool.and_eq_false_iff, decide_eq_false_iff_not, beq_eq_false_iff_ne]
  omega

theorem letter_unit (h : isLetter alnum c = true ∨ c = '/' ∨ c = '%') :
    isUnit alnum c = true ∧ isNoSpace c = true ∧ (c ≠ 'e' → c ≠ 'E' → isNumber c = false) := by
  rcases h with h | rfl | rfl
  · unfold isLetter at h
    have hdot : ∀ d ∈ ['.', '-', '+'], isLetter alnum d = false := by
      intro d hd
      simp only [List.mem_cons, List.not_mem_nil, or_false] at hd
      rcases hd with rfl | rfl | rfl <;> rfl
    have hnot : ∀ d ∈ ['.', '-', '+'], c ≠ d := by
      intro d hd he
      have hf := hdot d hd
      rw [← he] at hf
      unfold isLetter at hf
      rw [h] at hf
      cases hf
    have hnumber : isDecimal c = false → c ≠ 'e' → c ≠ 'E' → isNumber c = false := by
      intro hd he hE
      have h1 := hnot '.' (by simp)
      have h2 := hnot '-' (by simp)
      have h3 := hnot '+' (by simp)
      simp [isNumber, hd, h1, h2, h3, he, hE]
    rcases (Bool.or_eq_true _ _).mp h with ha | hu
    · refine ⟨?_, ?_, hnumber (alpha_not_decimal ha)⟩
      · simp [isUnit, isWord, Char.isAlphanum, ha]
      · simp [isNoSpace, alpha_not_space ha]
    · simp only [Bool.and_eq_true, decide_eq_true_eq, Bool.not_eq_true'] at hu
      obtain ⟨⟨⟨h128, halnum⟩, hdec⟩, hspace⟩ := hu
      refine ⟨?_, ?_, hnumber hdec⟩
      · simp [isUnit, isWord, h128, halnum]
      · simp [isNoSpace, hspace]
  · exact ⟨by simp [isUnit], by decide, fun _ _ => by decide⟩
  · exact ⟨by simp [isUnit], by decide, fun _ _ => by decide⟩

section
variable (e : Entry alnum)

theorem endsSpan_unit : EndsSpan isNumber (e.unit ++ e.fields.flatMap fieldText) := by
  cases hu : e.unit with
  | nil => exact endsSpan_fields (by decide) e.fields
  | cons c unit =>
    have hstart := e.start c (by rw [hu]; rfl)
    have hletter := letter_unit (e.letters c (by rw [hu]; exact List.mem_cons_self))
    exact EndsSpan.cons (hletter.2.2 hstart.1 hstart.2) _

theorem unit_semi : isUnit alnum ';' = false := rfl

def Entry.groups : Groups :=
  ⟨e.label.written, e.value.text, e.unit, (e.field 0).map Decimal.text, (e.field 1).map Decimal.text,
    (e.field 2).map Decimal.text, (e.field 3).map Decimal.text⟩

theorem written_ne : e.label.written ≠ [] := by
  unfold Label.written
  cases hq : e.label.quoted with
  | true => simp
  | false => simpa using (e.label.plain hq).1

theorem written_noEquals : ∀ c ∈ e.label.written, (c != '=') = true := by
  intro c hc
  have hmem : c = '\'' ∨ c ∈ e.label.text := by
    unfold Label.written at hc
    cases hq : e.label.quoted with
    | true => rw [hq] at hc; simp at hc; tauto
    | false => rw [hq] at hc; exact Or.inr hc
  rcases hmem with rfl | hmem
  · decide
  · simpa using fun he : c = '=' => e.label.noEquals (he ▸ hmem)

theorem matchMetric_text : matchMetric alnum e.text = some e.groups := by
  have hname := written_noEquals e
  have hequals : EndsSpan (· != '=') ('=' :: e.data) := EndsSpan.cons (by decide) _
  have hvalue : ∀ c ∈ e.value.text, isNumber c = true := fun c hc => decimalChars_number c (e.value.text_chars c hc)
  have hunit : ∀ c ∈ e.unit, isUnit alnum c = true := fun c hc => (letter_unit (e.letters c hc)).1
  have hfields : EndsSpan (isUnit alnum) (e.fields.flatMap fieldText) := endsSpan_fields unit_semi e.fields
  have hne : e.label.written.isEmpty = false := by simpa using written_ne e
  have hvne : e.value.text.isEmpty = false := by simp [Decimal.text, e.value.body_ne]
  unfold matchMetric
  simp only [Entry.text, takeWhile_span hname hequals, dropWhile_span hname hequals, List.tail_cons]
  simp only [Entry.data, takeWhile_span hvalue (endsSpan_unit e), dropWhile_span hvalue (endsSpan_unit e),
    takeWhile_span hunit hfields, dropWhile_span hunit hfields, matchField_fields decimalChars_range (by decide),
    matchField_fields decimalChars_number (by decide), hne, hvne]
  simp [Entry.groups, Entry.field, List.head?_eq_getElem?]

end

end

/-! ## The metric of an entry -/

section
variable {alnum : Char → Bool} (e : Entry alnum)

theorem data_noSpace : ∀ c ∈ e.data, isNoSpace c = true := by
  have hdecimal : ∀ (d : Decimal), ∀ c ∈ d.text, isNoSpace c = true := fun d c hc => by
    simp [isNoSpace, (decimalChars_kept c (d.text_chars c hc)).2.1]
  intro c hc
  simp only [Entry.data, List.mem_append, List.mem_flatMap] at hc
  rcases hc with hc | hc | ⟨f, -, hc⟩
  · exact hdecimal e.value c hc
  · exact (letter_unit (e.letters c hc)).2.1
  · rcases List.mem_cons.mp hc with rfl | hc
    · decide
    · cases f with
      | none => cases hc
      | some d => exact hdecimal d c hc

theorem data_ne : e.data ≠ [] := by
  simp [Entry.data, Decimal.text, e.value.body_ne]

theorem written_head : ∀ c, e.label.written.head? = some c → isSpace c = false := by
  intro c hc
  unfold Label.written at hc
  cases hq : e.label.quoted with
  | true =>
    rw [hq] at hc
    obtain rfl : '\'' = c := by simpa using hc
    rfl
  | false =>
    rw [hq] at hc
    exact ((e.label.plain hq).2 c hc).1

theorem strip_text (hl : Blank lead) : strip (lead ++ e.text) = e.text := by
  have hstrip : strip e.text = e.text := by
    refine strip_of_ends (fun c hc => ?_) fun c hc => ?_
    · unfold Entry.text at hc
      rw [List.head?_append_of_ne_nil _ (written_ne e)] at hc
      exact written_head e c hc
    · have hlast : e.text.getLast? = e.data.getLast? := by
        unfold Entry.text
        rw [List.getLast?_append_of_ne_nil _ (List.cons_ne_nil _ _), List.getLast?_cons_of_ne_nil (data_ne e)]
      rw [hlast] at hc
      simpa [isNoSpace] using data_noSpace e c (List.mem_of_getLast? hc)
  unfold strip at hstrip ⊢
  rw [dropWhile_blank_append hl, hstrip]

theorem ofText_entry (hl : Blank lead) : Metric.ofText alnum (lead ++ e.text) = e.groups.metric.map some := by
  unfold Metric.ofText
  rw [strip_text e hl, matchMetric_text]

def Entry.metric : Metric :=
  ⟨e.name, readNumber e.value, e.unit, (e.field 0).bind readNumber, (e.field 1).bind readNumber,
    if e.unit == ['%'] then some (.int 0) else (e.field 2).bind readNumber,
    if e.unit == ['%'] then some (.int 100) else (e.field 3).bind readNumber⟩

theorem field_eq_some {i : Nat} {d : Decimal} : e.field i = some d ↔ e.fields[i]? = some (some d) := by
  unfold Entry.field
  exact Option.join_eq_some_iff

theorem mem_numbers {d : Decimal} : d ∈ e.numbers ↔ d = e.value ∨ ∃ i < 4, e.field i = some d := by
  have hfields : d ∈ e.fields.filterMap id ↔ ∃ i < 4, e.field i = some d := by
    rw [List.mem_filterMap]
    constructor
    · intro ⟨f, hf, hfd⟩
      obtain ⟨i, hi, rfl⟩ := List.getElem_of_mem hf
      exact ⟨i, lt_of_lt_of_le hi e.four, (field_eq_some e).mpr (by rw [List.getElem?_eq_getElem hi]; exact congrArg some hfd)⟩
    · intro ⟨i, _, hi⟩
      exact ⟨some d, List.mem_of_getElem? ((field_eq_some e).mp hi), rfl⟩
  unfold Entry.numbers
  rw [List.mem_cons, hfields]

theorem unquoted_written : unquoted e.label.written = e.name := by
  unfold Label.written Entry.name unquoted
  cases e.label.quoted <;> simp

theorem guess_field (h : ∀ d, f = some d → ¬ Overflows d) :
    guessIntOrFloat (f.map Decimal.text) = .ok (f.bind readNumber) := by
  cases f with
  | none => rfl
  | some d => exact guess_text (h d rfl)

theorem guess_inRange {r : Option Number} (h : guessIntOrFloat (f.map Decimal.text) = .ok r) :
    ∀ d, f = some d → ¬ Overflows d := by
  intro d hd ho
  subst hd
  rw [Option.map_some, guess_overflows ho] at h
  cases h

theorem groups_metric (h : ∀ d ∈ e.numbers, ¬ Overflows d) : e.groups.metric = .ok e.metric := by
  have hfield : ∀ i < 4, guessIntOrFloat ((e.field i).map Decimal.text) = .ok ((e.field i).bind readNumber) := by
    intro i hi
    exact guess_field fun d hd => h d ((mem_numbers e).mpr (Or.inr ⟨i, hi, hd⟩))
  unfold Groups.metric
  simp only [Entry.groups, guess_text (h e.value ((mem_numbers e).mpr (Or.inl rfl))), hfield 0 (by decide),
    hfield 1 (by decide), hfield 2 (by decide), hfield 3 (by decide), unquoted_written]
  rfl

theorem inRange_of_metric {m : Metric} (h : e.groups.metric = .ok m) : ∀ d ∈ e.numbers, ¬ Overflows d := by
  unfold Groups.metric at h
  simp only [Entry.groups] at h
  cases h0 : guessIntOrFloat (some e.value.text) with
  | error x => rw [h0] at h; cases h
  | ok v =>
    rw [h0] at h
    cases h1 : guessIntOrFloat ((e.field 0).map Decimal.text) with
    | error x => rw [h1] at h; cases h
    | ok warning =>
      rw [h1] at h
      cases h2 : guessIntOrFloat ((e.field 1).map Decimal.text) with
      | error x => rw [h2] at h; cases h
      | ok critical =>
        rw [h2] at h
        cases h3 : guessIntOrFloat ((e.field 2).map Decimal.text) with
        | error x => rw [h3] at h; cases h
        | ok min =>
          rw [h3] at h
          cases h4 : guessIntOrFloat ((e.field 3).map Decimal.text) with
          | error x => rw [h4] at h; cases h
          | ok max =>
            have hvalue : ∀ d, some e.value = some d → ¬ Overflows d := guess_inRange (f := some e.value) h0
            intro d hd
            rcases (mem_numbers e).mp hd with rfl | ⟨i, hi, hd⟩
            · exact hvalue e.value rfl
            · interval_cases i
              · exact guess_inRange h1 d hd
              · exact guess_inRange h2 d hd
              · exact guess_inRange h3 d hd
              · exact guess_inRange h4 d hd

theorem saysField_iff : SaysField f (f.bind readNumber) ↔ ∀ d, f = some d → Exact d := by
  cases f with
  | none => exact ⟨fun _ d hd => (nomatch hd), fun _ => rfl⟩
  | some d =>
    rw [Option.bind_some, says_iff]
    exact ⟨fun h d' hd' => Option.some.inj hd' ▸ h, fun h => h d rfl⟩

theorem mem_shown {d : Decimal} : d ∈ e.shown ↔ d = e.value ∨ e.field 0 = some d ∨ e.field 1 = some d ∨
    e.unit ≠ ['%'] ∧ (e.field 2 = some d ∨ e.field 3 = some d) := by
  unfold Entry.shown
  by_cases hu : e.unit = ['%']
  · simp [hu]
  · simp [hu]

theorem reads_iff : e.Reads e.metric ↔ ∀ d ∈ e.shown, Exact d := by
  constructor
  · intro h d hd
    have hlimits := h.limits
    rcases (mem_shown e).mp hd with rfl | hd | hd | ⟨hu, hd⟩
    · exact says_iff.mp h.value
    · exact saysField_iff.mp h.warning d hd
    · exact saysField_iff.mp h.critical d hd
    · have hbeq : (e.unit == ['%']) = false := by simpa using hu
      rw [if_neg hu] at hlimits
      simp only [Entry.metric, hbeq] at hlimits
      rcases hd with hd | hd
      · exact saysField_iff.mp hlimits.1 d hd
      · exact saysField_iff.mp hlimits.2 d hd
  · intro h
    refine ⟨rfl, says_iff.mpr (h _ ((mem_shown e).mpr (Or.inl rfl))), rfl,
      saysField_iff.mpr fun d hd => h d ((mem_shown e).mpr (Or.inr (Or.inl hd))),
      saysField_iff.mpr fun d hd => h d ((mem_shown e).mpr (Or.inr (Or.inr (Or.inl hd)))), ?_⟩
    by_cases hu : e.unit = ['%']
    · rw [if_pos hu]
      simp [Entry.metric, hu]
    · have hbeq : (e.unit == ['%']) = false := by simpa using hu
      rw [if_neg hu]
      simp only [Entry.metric, hbeq]
      exact ⟨saysField_iff.mpr fun d hd => h d ((mem_shown e).mpr (Or.inr (Or.inr (Or.inr ⟨hu, Or.inl hd⟩)))),
        saysField_iff.mpr fun d hd => h d ((mem_shown e).mpr (Or.inr (Or.inr (Or.inr ⟨hu, Or.inr hd⟩))))⟩

end

/-! ## The elements of a line -/

section
variable {alnum : Char → Bool} (e : Entry alnum)

theorem blank_noEquals (hl : Blank lead) : ∀ c ∈ lead, (c != '=') = true := by
  intro c hc
  have hspace := hl c hc
  by_contra hn
  obtain rfl : c = '=' := by simpa using hn
  cases hspace

theorem matchElement_text {rest : Text} (hl : Blank lead) (hr : EndsSpan isNoSpace rest) :
    matchElement (lead ++ (e.text ++ rest)) = some (lead ++ e.text, rest) := by
  have hsplit : lead ++ (e.text ++ rest) = (lead ++ e.label.written) ++ '=' :: (e.data ++ rest) := by
    simp [Entry.text]
  have hname : ∀ c ∈ lead ++ e.label.written, (c != '=') = true := by
    intro c hc
    exact (List.mem_append.mp hc).elim (blank_noEquals hl c) (written_noEquals e c)
  have hequals : EndsSpan (· != '=') ('=' :: (e.data ++ rest)) := EndsSpan.cons (by decide) _
  unfold matchElement
  rw [hsplit]
  simp only [takeWhile_span hname hequals, dropWhile_span hname hequals, List.tail_cons,
    takeWhile_span (data_noSpace e) hr, dropWhile_span (data_noSpace e) hr]
  simp [written_ne e, data_ne e, Entry.text]

theorem findall_noEquals : ∀ {fuel : Nat} {l : Text}, '=' ∉ l → findall fuel l = []
  | 0, _, _ => rfl
  | _ + 1, [], _ => rfl
  | fuel + 1, c :: l, h => by
    have hnone : matchElement (c :: l) = none := by
      simp only [List.mem_cons, not_or] at h
      simp [matchElement, h.1, h.2]
    have hrest : '=' ∉ l := fun hm => h (List.mem_cons_of_mem c hm)
    simp only [findall, hnone, findall_noEquals hrest]

theorem findall_some {fuel : Nat} {l elem rest : Text} (hl : l ≠ []) (h : matchElement l = some (elem, rest)) :
    findall (fuel + 1) l = elem :: findall fuel rest := by
  cases l with
  | nil => exact absurd rfl hl
  | cons c l => simp only [findall, h]

def elementsOf : Text → List (Entry alnum × Text) → List Text
  | _, [] => []
  | lead, m :: ms => (lead ++ m.1.text) :: elementsOf m.2 ms

def restText (ms : List (Entry alnum × Text)) : Text := ms.flatMap fun m => m.1.text ++ m.2

theorem findall_entries : ∀ {ms : List (Entry alnum × Text)} {lead : Text} {fuel : Nat}, Blank lead →
    (∀ m ∈ ms, Blank m.2) → (∀ m ∈ ms.dropLast, m.2 ≠ []) → (lead ++ restText ms).length ≤ fuel →
    findall fuel (lead ++ restText ms) = elementsOf lead ms
  | [], lead, fuel, hl, _, _, _ => by
    refine findall_noEquals fun hm => ?_
    have hne := blank_noEquals hl '=' (by simpa [restText] using hm)
    cases hne
  | m :: ms, lead, fuel, hl, hgaps, happart, hfuel => by
    have hsplit : lead ++ restText (m :: ms) = lead ++ (m.1.text ++ (m.2 ++ restText ms)) := by simp [restText]
    have hgap : Blank m.2 := hgaps m List.mem_cons_self
    have hend : EndsSpan isNoSpace (m.2 ++ restText ms) := by
      cases hm : m.2 with
      | cons c w => exact EndsSpan.cons (by simp [isNoSpace, hgap c (by rw [hm]; exact List.mem_cons_self)]) _
      | nil =>
        -- only the last entry has no white space behind it
        cases ms with
        | nil => exact EndsSpan.nil
        | cons m' ms => exact absurd hm (happart m (by simp))
    rw [hsplit] at hfuel ⊢
    have hlen : 0 < m.1.text.length := by simp [Entry.text]
    simp only [List.length_append] at hfuel
    obtain ⟨fuel, rfl⟩ : ∃ k, fuel = k + 1 := ⟨fuel - 1, by omega⟩
    have hne : lead ++ (m.1.text ++ (m.2 ++ restText ms)) ≠ [] := by simp [Entry.text]
    rw [findall_some hne (matchElement_text m.1 hl hend), elementsOf]
    refine congrArg _ (findall_entries hgap (fun m' hm' => hgaps m' (List.mem_cons_of_mem _ hm')) (fun m' hm' => ?_) ?_)
    · cases ms with
      | nil => cases hm'
      | cons m'' ms => exact happart m' (by rw [List.dropLast_cons_cons]; exact List.mem_cons_of_mem _ hm')
    · simp only [List.length_append]
      omega

theorem elementsOf_nonempty : ∀ {ms : List (Entry alnum × Text)} {lead : Text},
    (elementsOf lead ms).filter (fun e => !e.isEmpty) = elementsOf lead ms
  | [], _ => rfl
  | m :: ms, lead => by
    rw [elementsOf, List.filter_cons_of_pos (by simp [Entry.text]), elementsOf_nonempty]

/-! ## The metrics of a line -/

def putMetric (metrics : Dict Text Metric) (e : Entry alnum) : Dict Text Metric := metrics.set e.name e.metric

theorem addMetric_eq (hl : Blank lead) (metrics : Dict Text Metric) :
    addMetric alnum metrics (lead ++ e.text) = e.groups.metric.map fun m => metrics.set m.name m := by
  unfold addMetric
  rw [ofText_entry e hl]
  cases e.groups.metric <;> rfl

theorem addMetric_ok (hl : Blank lead) (h : ∀ d ∈ e.numbers, ¬ Overflows d) (metrics : Dict Text Metric) :
    addMetric alnum metrics (lead ++ e.text) = .ok (putMetric metrics e) := by
  rw [addMetric_eq e hl, groups_metric e h]
  rfl

theorem inRange_of_addMetric (hl : Blank lead) {metrics metrics' : Dict Text Metric}
    (h : addMetric alnum metrics (lead ++ e.text) = .ok metrics') : ∀ d ∈ e.numbers, ¬ Overflows d := by
  rw [addMetric_eq e hl] at h
  cases hm : e.groups.metric with
  | error x => rw [hm] at h; cases h
  | ok m => exact inRange_of_metric e hm

theorem foldlM_elements : ∀ {ms : List (Entry alnum × Text)} {lead : Text} (metrics : Dict Text Metric), Blank lead →
    (∀ m ∈ ms, Blank m.2) → (∀ m ∈ ms, ∀ d ∈ m.1.numbers, ¬ Overflows d) →
    (elementsOf lead ms).foldlM (addMetric alnum) metrics = .ok ((ms.map Prod.fst).foldl putMetric metrics)
  | [], _, _, _, _, _ => rfl
  | m :: ms, lead, metrics, hl, hgaps, hrange => by
    rw [elementsOf, List.foldlM_cons, addMetric_ok m.1 hl (hrange m List.mem_cons_self)]
    exact foldlM_elements (putMetric metrics m.1) (hgaps m List.mem_cons_self)
      (fun m' hm' => hgaps m' (List.mem_cons_of_mem _ hm')) fun m' hm' => hrange m' (List.mem_cons_of_mem _ hm')

theorem inRange_of_elements : ∀ {ms : List (Entry alnum × Text)} {lead : Text} {metrics metrics' : Dict Text Metric},
    Blank lead → (∀ m ∈ ms, Blank m.2) → (elementsOf lead ms).foldlM (addMetric alnum) metrics = .ok metrics' →
    ∀ m ∈ ms, ∀ d ∈ m.1.numbers, ¬ Overflows d
  | [], _, _, _, _, _, _ => fun _ hm => nomatch hm
  | m :: ms, lead, metrics, metrics', hl, hgaps, h => by
    rw [elementsOf, List.foldlM_cons] at h
    cases hm : addMetric alnum metrics (lead ++ m.1.text) with
    | error x => rw [hm] at h; cases h
    | ok metrics₁ =>
      rw [hm] at h
      intro m' hm'
      rcases List.mem_cons.mp hm' with rfl | hm'
      · exact inRange_of_addMetric m'.1 hl hm
      · exact inRange_of_elements (hgaps m List.mem_cons_self) (fun m'' hm'' => hgaps m'' (List.mem_cons_of_mem _ hm''))
          h m' hm'

theorem get?_putMetric (name : Text) : ∀ {es : List (Entry alnum)} {metrics : Dict Text Metric},
    (es.foldl putMetric metrics).get? name =
      ((es.filter fun e => e.name == name).getLast?.map Entry.metric).or (metrics.get? name)
  | [], _ => rfl
  | e :: es, metrics => by
    rw [List.foldl_cons, get?_putMetric name]
    unfold putMetric
    rw [Dict.get?_set]
    by_cases h : name = e.name
    · subst h
      rw [if_pos rfl, List.filter_cons_of_pos (by simp), List.getLast?_cons]
      cases (es.filter fun e' => e'.name == e.name).getLast? <;> rfl
    · rw [if_neg h, List.filter_cons_of_neg (by simpa using fun he => h he.symm)]

theorem mem_keys_putMetric (name : Text) : ∀ {es : List (Entry alnum)} {metrics : Dict Text Metric},
    name ∈ (es.foldl putMetric metrics).keys ↔ name ∈ es.map Entry.name ∨ name ∈ metrics.keys
  | [], _ => by simp
  | e :: es, metrics => by
    rw [List.foldl_cons, mem_keys_putMetric name]
    unfold putMetric
    rw [Dict.mem_keys_set, List.map_cons, List.mem_cons]
    tauto

end

section
variable {alnum : Char → Bool} (p : Line alnum)

theorem elements_text : (findall p.text.length p.text).filter (fun e => !e.isEmpty) = elementsOf p.lead p.entries := by
  have h : findall p.text.length p.text = elementsOf p.lead p.entries :=
    findall_entries p.leadBlank p.gapBlank p.apart (le_refl _)
  rw [h, elementsOf_nonempty]

theorem perfDatas_text (h : ∀ e ∈ p.metrics, ∀ d ∈ e.numbers, ¬ Overflows d) :
    perfDatas alnum p.text = .ok (p.metrics.foldl putMetric Dict.empty) := by
  unfold perfDatas
  rw [elements_text]
  exact foldlM_elements Dict.empty p.leadBlank p.gapBlank fun m hm => h m.1 (List.mem_map_of_mem hm)

theorem inRange_of_perfDatas {metrics : Dict Text Metric} (h : perfDatas alnum p.text = .ok metrics) :
    ∀ e ∈ p.metrics, ∀ d ∈ e.numbers, ¬ Overflows d := by
  unfold perfDatas at h
  rw [elements_text] at h
  intro e he
  obtain ⟨m, hm, rfl⟩ := List.mem_map.mp he
  exact inRange_of_elements p.leadBlank p.gapBlank h m hm

theorem one_iff : (p.metrics.foldl putMetric Dict.empty).keys.length = p.labels.dedup.length ↔
    ∀ e ∈ p.metrics, ∀ e' ∈ p.metrics, e.name = e'.name → e.label.text = e'.label.text := by
  have hkeys : (p.metrics.foldl putMetric Dict.empty).keys.toFinset = p.labels.toFinset.image unquoted := by
    ext name
    rw [List.mem_toFinset, mem_keys_putMetric]
    simp [Line.labels, Entry.name, Dict.keys, Dict.empty]
  have hcard : (p.metrics.foldl putMetric Dict.empty).keys.length = (p.labels.toFinset.image unquoted).card := by
    rw [← hkeys]
    exact (List.toFinset_card_of_nodup (p.metrics.foldl putMetric Dict.empty).nodup).symm
  rw [hcard, ← List.card_toFinset, Finset.card_image_iff]
  constructor
  · intro hinj e he e' he' hname
    refine hinj ?_ ?_ hname
    · simpa [Line.labels] using ⟨e, he, rfl⟩
    · simpa [Line.labels] using ⟨e', he', rfl⟩
  · intro hall label hl label' hl' hname
    rw [Finset.mem_coe, List.mem_toFinset] at hl hl'
    obtain ⟨e, he, rfl⟩ := List.mem_map.mp hl
    obtain ⟨e', he', rfl⟩ := List.mem_map.mp hl'
    exact hall e he e' he' hname

theorem get?_last (hapart : ∀ e ∈ p.metrics, ∀ e' ∈ p.metrics, e.name = e'.name → e.label.text = e'.label.text)
    {label : Text} {e : Entry alnum} (h : p.last label = some e) :
    (p.metrics.foldl putMetric Dict.empty).get? e.name = some e.metric := by
  obtain ⟨he, hlabel⟩ := List.mem_filter.mp (List.mem_of_getLast? h)
  have hlabel' : e.label.text = label := by simpa using hlabel
  have hfilter : (p.metrics.filter fun e' => e'.name == e.name) = p.metrics.filter fun e' => e'.label.text == label := by
    refine List.filter_congr fun e' he' => ?_
    rw [Bool.eq_iff_iff, beq_iff_eq, beq_iff_eq, ← hlabel']
    exact ⟨hapart e' he' e he, fun ht => congrArg unquoted ht⟩
  rw [get?_putMetric, hfilter]
  change ((p.last label).map Entry.metric).or _ = _
  rw [h]
  rfl

theorem read_iff (hrange : ∀ e ∈ p.metrics, ∀ d ∈ e.numbers, ¬ Overflows d) :
    p.Read (p.metrics.foldl putMetric Dict.empty) ↔ p.Faithful := by
  constructor
  · intro h
    have hapart := (one_iff p).mp h.one
    refine ⟨hrange, hapart, fun label e hlast => ?_⟩
    obtain ⟨m, hm, hreads⟩ := h.last label e hlast
    rw [get?_last p hapart hlast] at hm
    rw [← Option.some.inj hm] at hreads
    exact (reads_iff e).mp hreads
  · intro h
    refine ⟨(one_iff p).mpr h.apart, fun label e hlast => ?_⟩
    exact ⟨e.metric, get?_last p h.apart hlast, (reads_iff e).mpr (h.exact label e hlast)⟩

/-- The metrics are those that are written if and only if the numbers are in
the range of the doubles, the whole ones are doubles, and quotes do not tell
two labels apart. -/
theorem perfDatas_faithful :
    (∃ metrics, perfDatas alnum p.text = .ok metrics ∧ p.Read metrics) ↔ p.Faithful := by
  constructor
  · intro ⟨metrics, hok, hread⟩
    have hrange := inRange_of_perfDatas p hok
    rw [perfDatas_text p hrange] at hok
    rw [← Except.ok.inj hok] at hread
    exact (read_iff p hrange).mp hread
  · intro h
    exact ⟨_, perfDatas_text p h.inRange, (read_iff p h.inRange).mpr h⟩

end

/-! ## A counter -/

section

theorem traffic_plain : "traffic".toList ≠ [] ∧ ∀ c, "traffic".toList.head? = some c → isSpace c = false ∧ c ≠ '\'' := by
  refine ⟨by decide, fun c hc => ?_⟩
  obtain rfl : 't' = c := Option.some.inj hc
  decide

theorem traffic_digits : ∀ c ∈ "9007199254740993".toList ++ Option.getD none [], c.isDigit = true :=
  forall_of_all (by decide)

/-- One more than `2 ^ 53`. -/
def trafficValue : Decimal := ⟨none, "9007199254740993".toList, none, traffic_digits, (by decide +kernel)⟩

theorem traffic_start : ∀ c, ['c'].head? = some c → c ≠ 'e' ∧ c ≠ 'E' := by
  intro c hc
  obtain rfl : 'c' = c := Option.some.inj hc
  decide

def trafficEntry : Entry (fun _ => false) where
  label := ⟨false, "traffic".toList, (by decide +kernel), fun _ => traffic_plain⟩
  value := trafficValue
  unit := ['c']
  letters := forall_of_all (by decide +kernel)
  start := traffic_start
  fields := []
  four := Nat.zero_le 4

theorem traffic_lead : Blank [] := fun _ h => nomatch h

theorem traffic_gaps : ∀ m ∈ [(trafficEntry, ([] : Text))], Blank m.2 := by
  intro m hm
  rw [List.mem_singleton.mp hm]
  exact traffic_lead

/-- `traffic=9007199254740993c` -/
def trafficLine : Line (fun _ => false) where
  lead := []
  entries := [(trafficEntry, [])]
  leadBlank := traffic_lead
  gapBlank := traffic_gaps
  apart := fun _ h => nomatch h

theorem traffic_double : floatValue trafficValue.double = some 9007199254740992 := by
  decide +kernel

theorem traffic_value : trafficValue.value = 9007199254740993 := by
  decide +kernel

theorem traffic_rounded :
    ¬ ∃ metrics, perfDatas (fun _ => false) trafficLine.text = .ok metrics ∧ trafficLine.Read metrics := by
  intro ⟨metrics, hok, hread⟩
  have hrange := inRange_of_perfDatas trafficLine hok
  rw [perfDatas_text trafficLine hrange] at hok
  rw [← Except.ok.inj hok] at hread
  have hfaithful := (read_iff trafficLine hrange).mp hread
  obtain ⟨v, hv, hwhole⟩ := hfaithful.exact "traffic".toList trafficEntry rfl trafficValue List.mem_cons_self
  rw [traffic_double] at hv
  rw [traffic_value] at hwhole
  rw [← Option.some.inj hv] at hwhole
  revert hwhole
  decide

end

end Perfdata

end Alignak
