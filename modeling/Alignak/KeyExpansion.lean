import Alignak.KeyRanges
import Mathlib.Algebra.Order.Group.Nat

/-!
# Expanding a key

What is before the first bracket stays before every key that is yielded, so a
key is expanded segment by segment.
-/

namespace Alignak

/-! ## Loops that yield -/

section
variable {ε α β γ : Type} {f : α → Except ε (List β)} {l : List α}

theorem yieldAll_congr {f' : α → Except ε (List β)} (h : ∀ a ∈ l, f a = f' a) : yieldAll f l = yieldAll f' l := by
  induction l with
  | nil => rfl
  | cons a l ih =>
    unfold yieldAll
    rw [h a List.mem_cons_self, ih fun b hb => h b (List.mem_cons_of_mem _ hb)]

theorem yieldAll_ok {g : α → List β} (h : ∀ a ∈ l, f a = .ok (g a)) : yieldAll f l = .ok (l.flatMap g) := by
  induction l with
  | nil => rfl
  | cons a l ih =>
    unfold yieldAll
    rw [h a List.mem_cons_self, ih fun b hb => h b (List.mem_cons_of_mem _ hb)]
    rfl

theorem yieldAll_map (g : β → γ) : yieldAll (fun a => (f a).map (List.map g)) l = (yieldAll f l).map (List.map g) := by
  induction l with
  | nil => rfl
  | cons a l ih =>
    unfold yieldAll
    rw [ih]
    cases f a with
    | error e => rfl
    | ok xs =>
      cases yieldAll f l with
      | error e => rfl
      | ok ys =>
        simp only [Except.map, bind, Except.bind, pure, Except.pure, List.map_append]

/-- The first turn that raises ends the loop. -/
theorem yieldAll_error {a : α} {e : ε} {l' : List α} {g : α → List β} (h : ∀ b ∈ l, f b = .ok (g b)) (ha : f a = .error e) :
    yieldAll f (l ++ a :: l') = .error e := by
  induction l with
  | nil =>
    rw [List.nil_append, yieldAll, ha]
    rfl
  | cons b l ih =>
    rw [List.cons_append, yieldAll, h b List.mem_cons_self, ih fun c hc => h c (List.mem_cons_of_mem _ hc)]
    rfl

end

/-! ## Numbers of a range -/

theorem KeyRange.numbers_ok (r : KeyRange) (h : r.step ≠ 0) :
    r.numbers = .ok (List.range' r.first ((r.last + 1 - r.first + (r.step - 1)) / r.step) r.step) := if_neg h

theorem KeyRange.mem_numbers {r : KeyRange} {l : List Nat} {n : Nat} (h : r.numbers = .ok l) :
    n ∈ l ↔ ∃ k, n = r.first + k * r.step ∧ n ≤ r.last := by
  unfold KeyRange.numbers at h
  by_cases hstep : r.step = 0
  · rw [if_pos hstep] at h; cases h
  · rw [if_neg hstep] at h
    cases h
    have hpos : 0 < r.step := Nat.pos_of_ne_zero hstep
    rw [List.mem_range']
    constructor
    · rintro ⟨k, hk, rfl⟩
      refine ⟨k, by rw [Nat.mul_comm], ?_⟩
      rw [Nat.lt_div_iff_mul_lt hpos] at hk
      rw [Nat.mul_comm]
      omega
    · rintro ⟨k, rfl, hk⟩
      refine ⟨k, ?_, by rw [Nat.mul_comm]⟩
      rw [Nat.lt_div_iff_mul_lt hpos]
      omega

theorem KeyRange.numbers_nil {r : KeyRange} {l : List Nat} (h : r.numbers = .ok l) : l = [] ↔ r.last < r.first := by
  constructor
  · intro he
    by_contra hle
    have : r.first ∈ l := (r.mem_numbers h).mpr ⟨0, by simp, by omega⟩
    rw [he] at this
    cases this
  · intro hlt
    refine List.eq_nil_iff_forall_not_mem.mpr fun n hn => ?_
    obtain ⟨k, hk, hle⟩ := (r.mem_numbers h).mp hn
    omega

/-! ## Readings -/

section
variable {digits : Digits} {text value after : List Char} {r : KeyRange} {n : Nat} {c : Char}

theorem readChar_sound (h : readChar c text = some after) : text = c :: after := by
  cases text with
  | nil => cases h
  | cons d text =>
    by_cases hd : d = c
    · rw [readChar, if_pos hd] at h; cases h; rw [hd]
    · rw [readChar, if_neg hd] at h; cases h

theorem readNumber_sound (h : readNumber digits text = some (n, after)) : ∃ x, text = x ++ after ∧ '\n' ∉ x := by
  unfold readNumber at h
  split at h
  · cases h
  · cases h
    refine ⟨_, List.takeWhile_append_dropWhile.symm, fun hmem => ?_⟩
    have hdigit := List.mem_takeWhile_imp hmem
    rw [Digits.isDigit, digits.newline] at hdigit
    cases hdigit

theorem readStep_sound (h : readStep digits text = some (n, after)) : ∃ x, text = x ++ after ∧ '\n' ∉ x := by
  unfold readStep at h
  split at h
  · cases h; exact ⟨[], rfl, List.not_mem_nil⟩
  · rename_i behind hslash
    obtain ⟨x, rfl, hx⟩ := readNumber_sound h
    exact ⟨'/' :: x, readChar_sound hslash, by simpa using hx⟩

theorem readRange_sound (h : readRange digits text = some (r, after)) : ∃ x, text = '[' :: (x ++ after) ∧ '\n' ∉ x := by
  unfold readRange at h
  obtain ⟨t₁, h1, h⟩ := Option.bind_eq_some_iff.mp h
  obtain ⟨⟨first, t₂⟩, h2, h⟩ := Option.bind_eq_some_iff.mp h
  obtain ⟨t₃, h3, h⟩ := Option.bind_eq_some_iff.mp h
  obtain ⟨⟨last, t₄⟩, h4, h⟩ := Option.bind_eq_some_iff.mp h
  obtain ⟨⟨step, t₅⟩, h5, h⟩ := Option.bind_eq_some_iff.mp h
  obtain ⟨t₆, h6, h⟩ := Option.bind_eq_some_iff.mp h
  cases h
  obtain ⟨x, rfl, hx⟩ := readNumber_sound h2
  obtain ⟨y, rfl, hy⟩ := readNumber_sound h4
  obtain ⟨z, rfl, hz⟩ := readStep_sound h5
  refine ⟨x ++ '-' :: (y ++ (z ++ [']'])), ?_, ?_⟩
  · rw [readChar_sound h1, readChar_sound h3, readChar_sound h6]
    simp
  · simp [hx, hy, hz]

theorem restOfLine_line (h : '\n' ∉ text) : restOfLine text = some text := by
  induction text with
  | nil => rfl
  | cons c text ih =>
    obtain ⟨hc, htext⟩ := not_or.mp (mt List.mem_cons.mpr h)
    rw [restOfLine, if_neg (Ne.symm hc), ih htext]
    rfl

theorem restOfLine_newline (h : '\n' ∈ text) (hlast : text.getLast? ≠ some '\n') : restOfLine text = none := by
  induction text with
  | nil => cases h
  | cons c text ih =>
    rw [restOfLine]
    by_cases hc : c = '\n'
    · rw [if_pos hc, if_neg fun e => hlast (by rw [e, hc]; rfl)]
    · have hmem : '\n' ∈ text := (List.mem_cons.mp h).resolve_left (Ne.symm hc)
      rw [if_neg hc, ih hmem]
      · rfl
      · rwa [List.getLast?_cons_of_ne_nil (List.ne_nil_of_mem hmem)] at hlast

/-! ## Segments -/

theorem segmentsAfter_append (x : List Char) : segmentsAfter digits x.length (x ++ text) = segments digits text := by
  induction x with
  | nil => rfl
  | cons c x ih => exact ih

theorem segments_char (h : readRange digits (c :: text) = none) :
    segments digits (c :: text) = .char c :: segments digits text := by
  rw [segments, segmentsAfter, h]
  rfl

theorem segments_range (h : readRange digits text = some (r, after)) :
    segments digits text = .range r :: segments digits after := by
  obtain ⟨x, rfl, -⟩ := readRange_sound h
  rw [segments, segmentsAfter, h]
  simp only [List.length_append, Nat.add_sub_cancel, segmentsAfter_append]

theorem segments_induction (digits : Digits) {P : List Char → Prop} (nil : P [])
    (char : ∀ c text, readRange digits (c :: text) = none → P text → P (c :: text))
    (range : ∀ text r after, readRange digits text = some (r, after) → P after → P text) (text : List Char) : P text := by
  induction hn : text.length using Nat.strong_induction_on generalizing text with
  | _ n ih =>
    cases text with
    | nil => exact nil
    | cons c text =>
      cases hr : readRange digits (c :: text) with
      | none => exact char c text hr (ih _ (by rw [← hn]; simp) text rfl)
      | some p =>
        obtain ⟨r, after⟩ := p
        obtain ⟨x, hx, -⟩ := readRange_sound hr
        refine range _ r after hr (ih _ ?_ after rfl)
        rw [← hn, hx]
        simp only [List.length_cons, List.length_append]
        omega

end

/-! ## Products -/

section
variable {segs : List Segment} {texts : List (List Char)} {r : KeyRange} {numbers : List Nat}

theorem product_numbers (hr : r.numbers = .ok numbers) (hne : numbers ≠ []) :
    product (.range r :: segs) = (product segs).map fun texts => numbers.flatMap fun idx => texts.map (Nat.toDigits 10 idx ++ ·) := by
  rw [product, hr]
  simp only [if_neg hne]

theorem product_empty (hr : r.numbers = .ok []) : product (.range r :: segs) = some [] := by
  rw [product, hr]
  rfl

theorem bracket_notMem_digits (n : Nat) : '[' ∉ Nat.toDigits 10 n := fun h =>
  absurd (Nat.isDigit_of_mem_toDigits (by decide) (le_refl _) h) (by decide)

theorem count_digits (n : Nat) (x : List Char) : (Nat.toDigits 10 n ++ x).count '[' = x.count '[' := by
  rw [List.count_append, List.count_eq_zero_of_not_mem (bracket_notMem_digits n), Nat.zero_add]

theorem product_count (digits : Digits) (text : List Char) : ∀ {texts}, product (segments digits text) = some texts →
    ∀ x ∈ texts, x.count '[' ≤ text.count '[' ∧
      ((segments digits text).any Segment.isRange = true → x.count '[' < text.count '[') := by
  refine segments_induction digits (P := fun text => ∀ {texts}, product (segments digits text) = some texts → ∀ x ∈ texts,
    x.count '[' ≤ text.count '[' ∧ ((segments digits text).any Segment.isRange = true → x.count '[' < text.count '['))
    ?_ ?_ ?_ text
  · intro texts h x hx
    cases h
    rw [List.mem_singleton.mp hx]
    exact ⟨le_refl _, fun hany => by cases hany⟩
  · intro c text hc ih texts h x hx
    rw [segments_char hc, product] at h
    obtain ⟨texts, htexts, rfl⟩ := Option.map_eq_some_iff.mp h
    obtain ⟨y, hy, rfl⟩ := List.mem_map.mp hx
    obtain ⟨hle, hlt⟩ := ih htexts y hy
    rw [segments_char hc, List.any_cons, List.count_cons, List.count_cons]
    refine ⟨by omega, fun hany => ?_⟩
    have := hlt hany
    omega
  · intro text r after hr ih texts h x hx
    rw [segments_range hr] at h
    have hlt : x.count '[' ≤ after.count '[' := by
      cases hn : r.numbers with
      | error e => rw [product, hn] at h; cases h
      | ok numbers =>
        by_cases hne : numbers = []
        · subst hne
          rw [product_empty hn] at h
          cases h
          cases hx
        · rw [product_numbers hn hne] at h
          obtain ⟨texts, htexts, rfl⟩ := Option.map_eq_some_iff.mp h
          obtain ⟨idx, -, hx⟩ := List.mem_flatMap.mp hx
          obtain ⟨y, hy, rfl⟩ := List.mem_map.mp hx
          rw [count_digits]
          exact (ih htexts y hy).1
    obtain ⟨inner, rfl, -⟩ := readRange_sound hr
    have hcount : ('[' :: (inner ++ after)).count '[' = inner.count '[' + after.count '[' + 1 := by
      rw [List.count_cons_self, List.count_append]
    rw [hcount]
    exact ⟨by omega, fun _ => by omega⟩

theorem product_chars (digits : Digits) (text : List Char) : (segments digits text).any Segment.isRange = false →
    product (segments digits text) = some [text] := by
  refine segments_induction digits (P := fun text => (segments digits text).any Segment.isRange = false →
    product (segments digits text) = some [text]) ?_ ?_ ?_ text
  · intro _
    rfl
  · intro c text hc ih h
    rw [segments_char hc] at h ⊢
    rw [product, ih h]
    rfl
  · intro text r after hr ih h
    rw [segments_range hr] at h
    cases h

end

/-! ## The expression on a key -/

section
variable {digits : Digits} {before behind text value after : List Char} {r : KeyRange} {fuel : Nat}

theorem rangeMatch_none (hr : readRange digits (value.dropWhile (· ≠ '[')) = none) : rangeMatch digits value =
    (restOfLine (value.dropWhile (· ≠ '['))).map fun after => ⟨value.takeWhile (· ≠ '['), none, after⟩ := by
  unfold rangeMatch
  simp only [hr]

theorem rangeMatch_some (hr : readRange digits (value.dropWhile (· ≠ '[')) = some (r, behind)) (h : restOfLine behind = some after) :
    rangeMatch digits value = some ⟨value.takeWhile (· ≠ '['), some r, after⟩ := by
  unfold rangeMatch
  simp only [hr, h]

theorem rangeMatch_back (hr : readRange digits (value.dropWhile (· ≠ '[')) = some (r, behind)) (h : restOfLine behind = none) :
    rangeMatch digits value =
      (restOfLine (value.dropWhile (· ≠ '['))).map fun after => ⟨value.takeWhile (· ≠ '['), none, after⟩ := by
  unfold rangeMatch
  simp only [hr, h]

theorem rangeMatch_append (h : '[' ∉ before) :
    rangeMatch digits (before ++ text) = (rangeMatch digits text).map fun m => { m with before := before ++ m.before } := by
  have hall : ∀ c ∈ before, decide (c ≠ '[') = true := fun c hc => decide_eq_true fun e => h (e ▸ hc)
  have htake : (before ++ text).takeWhile (· ≠ '[') = before ++ text.takeWhile (· ≠ '[') := List.takeWhile_append_of_pos hall
  have hdrop : (before ++ text).dropWhile (· ≠ '[') = text.dropWhile (· ≠ '[') := List.dropWhile_append_of_pos hall
  cases hr : readRange digits (text.dropWhile (· ≠ '[')) with
  | none =>
    rw [rangeMatch_none hr, rangeMatch_none (hdrop ▸ hr), htake, hdrop, Option.map_map]
    rfl
  | some p =>
    obtain ⟨r, behind⟩ := p
    cases hline : restOfLine behind with
    | none =>
      rw [rangeMatch_back hr hline, rangeMatch_back (hdrop ▸ hr) hline, htake, hdrop, Option.map_map]
      rfl
    | some after =>
      rw [rangeMatch_some hr hline, rangeMatch_some (hdrop ▸ hr) hline, htake]
      rfl

theorem expandWithin_append (h : '[' ∉ before) : ∀ text, expandWithin digits fuel (before ++ text) =
    (expandWithin digits fuel text).map (List.map (before ++ ·)) := by
  induction fuel with
  | zero => intro text; rfl
  | succ fuel ih =>
    intro text
    unfold expandWithin
    rw [rangeMatch_append h]
    cases rangeMatch digits text with
    | none => rfl
    | some m =>
      obtain ⟨middle, range, after⟩ := m
      cases range with
      | none => rfl
      | some r =>
        simp only [Option.map_some]
        cases r.numbers with
        | error e => rfl
        | ok numbers =>
          have hturn : ∀ idx ∈ numbers, expandWithin digits fuel (before ++ middle ++ Nat.toDigits 10 idx ++ after) =
              (expandWithin digits fuel (middle ++ Nat.toDigits 10 idx ++ after)).map (List.map (before ++ ·)) := fun idx _ => by
            rw [← ih, List.append_assoc, List.append_assoc, List.append_assoc]
          exact (yieldAll_congr hturn).trans (yieldAll_map _)

theorem expandWithin_text {m : RangeMatch} (h : rangeMatch digits value = some m) (hm : m.range = none) :
    expandWithin digits (fuel + 1) value = .ok [value] := by
  obtain ⟨before, range, after⟩ := m
  cases hm
  rw [expandWithin, h]

theorem expandWithin_range {m : RangeMatch} (h : rangeMatch digits value = some m) (hm : m.range = some r) :
    expandWithin digits (fuel + 1) value = r.numbers.bind fun numbers =>
      yieldAll (fun idx => expandWithin digits fuel (m.before ++ Nat.toDigits 10 idx ++ m.after)) numbers := by
  obtain ⟨before, range, after⟩ := m
  cases hm
  rw [expandWithin, h]
  rfl

theorem dropWhile_bracket : ('[' :: text).dropWhile (· ≠ '[') = '[' :: text := List.dropWhile_cons_of_neg (by simp)

theorem rangeMatch_range (hline : '\n' ∉ text) (hr : readRange digits text = some (r, after)) :
    rangeMatch digits text = some ⟨[], some r, after⟩ := by
  obtain ⟨x, rfl, -⟩ := readRange_sound hr
  have hafter : '\n' ∉ after := fun h => hline (by simp [h])
  rw [rangeMatch_some (by rwa [dropWhile_bracket]) (restOfLine_line hafter), List.takeWhile_cons_of_neg (by simp)]

theorem rangeMatch_bracket (hline : '\n' ∉ text) (hr : readRange digits ('[' :: text) = none) :
    rangeMatch digits ('[' :: text) = some ⟨[], none, '[' :: text⟩ := by
  have hbracket : '\n' ∉ '[' :: text := by simpa using hline
  rw [rangeMatch_none (by rwa [dropWhile_bracket]), dropWhile_bracket, restOfLine_line hbracket,
    List.takeWhile_cons_of_neg (by simp)]
  rfl

theorem rangeMatch_newline (h : '\n' ∈ value.dropWhile (· ≠ '[')) (hlast : value.getLast? ≠ some '\n') :
    rangeMatch digits value = none := by
  have hsuffix : value.dropWhile (· ≠ '[') <:+ value := List.dropWhile_suffix _
  have htext : ∀ text, text <:+ value → '\n' ∈ text → restOfLine text = none := by
    rintro text ⟨front, rfl⟩ hmem
    rw [List.getLast?_append_of_ne_nil _ (List.ne_nil_of_mem hmem)] at hlast
    exact restOfLine_newline hmem hlast
  cases hr : readRange digits (value.dropWhile (· ≠ '[')) with
  | none =>
    rw [rangeMatch_none hr, htext _ hsuffix h]
    rfl
  | some p =>
    obtain ⟨r, behind⟩ := p
    obtain ⟨x, hx, hline⟩ := readRange_sound hr
    have hmem : '\n' ∈ behind := by
      rw [hx] at h
      simpa [hline] using h
    have hbehind : behind <:+ value := by
      refine List.IsSuffix.trans ⟨'[' :: x, ?_⟩ hsuffix
      rw [hx, List.cons_append]
    rw [rangeMatch_back hr (htext _ hbehind hmem), htext _ hsuffix h]
    rfl

end

/-! ## The expansion -/

def Shrunk (texts : List (List Char)) (meant : Option (List (List Char))) : Prop :=
  ∀ l, meant = some l → ∀ x ∈ l, ∃ y ∈ texts, x.count '[' < y.count '['

inductive Expands (segs : List Segment) : Except Exn (List (List Char)) → Prop
  | product {texts : List (List Char)} (meets : meeting segs = .nothing) (eq : product segs = some texts) : Expands segs (.ok texts)
  | zeroStep (meets : meeting segs = .zeroStep) : Expands segs (.error .valueError)
  | strayBracket {texts : List (List Char)} (meets : meeting segs = .strayBracket) (ne : texts ≠ [])
      (shrunk : Shrunk texts (Alignak.product segs)) : Expands segs (.ok texts)

section
variable {digits : Digits} {c : Char} {text after : List Char} {r : KeyRange} {segs : List Segment} {numbers : List Nat}
  {result : Except Exn (List (List Char))} {fuel : Nat}

theorem Expands.char (h : Expands segs result) (hc : c ≠ '[') : Expands (.char c :: segs) (result.map (List.map ([c] ++ ·))) := by
  have hmeet : meeting (.char c :: segs) = meeting segs := if_neg hc
  cases h with
  | product meets eq =>
    refine .product (hmeet.trans meets) ?_
    rw [Alignak.product, eq]
    rfl
  | zeroStep meets => exact .zeroStep (hmeet.trans meets)
  | @strayBracket texts meets ne shrunk =>
    refine .strayBracket (hmeet.trans meets) (fun e => ne (List.map_eq_nil_iff.mp e)) ?_
    intro l' hl' x hx
    rw [Alignak.product] at hl'
    obtain ⟨l, hl, rfl⟩ := Option.map_eq_some_iff.mp hl'
    obtain ⟨z, hz, rfl⟩ := List.mem_map.mp hx
    obtain ⟨y, hy, hlt⟩ := shrunk l hl z hz
    refine ⟨_, List.mem_map_of_mem hy, ?_⟩
    rw [List.singleton_append, List.count_cons, List.count_cons]
    omega

theorem yieldAll_numbers (texts : List (List Char)) (numbers : List Nat) :
    yieldAll (fun idx => (Except.ok texts : Except Exn (List (List Char))).map (List.map (Nat.toDigits 10 idx ++ ·))) numbers =
      .ok (numbers.flatMap fun idx => texts.map (Nat.toDigits 10 idx ++ ·)) := yieldAll_ok fun _ _ => rfl

theorem Expands.range (h : Expands segs result) (hr : r.numbers = .ok numbers) (hne : numbers ≠ []) :
    Expands (.range r :: segs) (yieldAll (fun idx => result.map (List.map (Nat.toDigits 10 idx ++ ·))) numbers) := by
  have hstep : r.step ≠ 0 := fun hz => by
    rw [KeyRange.numbers, if_pos hz] at hr
    cases hr
  have hmeet : meeting (.range r :: segs) = meeting segs := by
    rw [meeting, if_neg hstep, if_neg fun hlt => hne ((r.numbers_nil hr).mpr hlt)]
  cases h with
  | @product texts meets eq =>
    rw [yieldAll_numbers]
    refine .product (hmeet.trans meets) ?_
    rw [product_numbers hr hne, eq]
    rfl
  | zeroStep meets =>
    obtain ⟨n, numbers, rfl⟩ := List.exists_cons_of_ne_nil hne
    exact .zeroStep (hmeet.trans meets)
  | @strayBracket texts meets ne shrunk =>
    rw [yieldAll_numbers]
    obtain ⟨n, hn⟩ := List.exists_mem_of_ne_nil numbers hne
    obtain ⟨t, ht⟩ := List.exists_mem_of_ne_nil texts ne
    refine .strayBracket (hmeet.trans meets) (List.ne_nil_of_mem (List.mem_flatMap.mpr ⟨n, hn, List.mem_map_of_mem ht⟩)) ?_
    intro l' hl' x hx
    rw [product_numbers hr hne] at hl'
    obtain ⟨l, hl, rfl⟩ := Option.map_eq_some_iff.mp hl'
    obtain ⟨idx, hidx, hx⟩ := List.mem_flatMap.mp hx
    obtain ⟨z, hz, rfl⟩ := List.mem_map.mp hx
    obtain ⟨y, hy, hlt⟩ := shrunk l hl z hz
    refine ⟨_, List.mem_flatMap.mpr ⟨idx, hidx, List.mem_map_of_mem hy⟩, ?_⟩
    rwa [count_digits, count_digits]

theorem Expands.bracket (hr : readRange digits ('[' :: text) = none) : Expands (segments digits ('[' :: text)) (.ok ['[' :: text]) := by
  have hmeet : meeting (segments digits ('[' :: text)) =
      if (segments digits text).any Segment.isRange then .strayBracket else .nothing := by
    rw [segments_char hr]
    rfl
  have hany : (segments digits ('[' :: text)).any Segment.isRange = (segments digits text).any Segment.isRange := by
    rw [segments_char hr]
    rfl
  cases h : (segments digits text).any Segment.isRange with
  | false =>
    refine .product (by rw [hmeet, h]; rfl) (product_chars digits _ (hany.trans h))
  | true =>
    refine .strayBracket (by rw [hmeet, h]; rfl) (List.cons_ne_nil _ _) ?_
    intro l hl x hx
    exact ⟨_, List.mem_singleton_self _, (product_count digits _ hl x hx).2 (hany.trans h)⟩

/-- Without a newline behind its first bracket, a text is expanded segment by
segment, and the fuel is enough. -/
theorem expandWithin_segments (digits : Digits) (text : List Char) : ∀ fuel, text.count '[' < fuel → '\n' ∉ text.dropWhile (· ≠ '[') →
    Expands (segments digits text) (expandWithin digits fuel text) := by
  refine segments_induction digits (P := fun text => ∀ fuel, text.count '[' < fuel → '\n' ∉ text.dropWhile (· ≠ '[') →
    Expands (segments digits text) (expandWithin digits fuel text)) ?_ ?_ ?_ text
  · intro fuel hfuel _
    obtain ⟨fuel, rfl⟩ := Nat.exists_eq_succ_of_ne_zero (by omega : fuel ≠ 0)
    exact .product rfl rfl
  · intro c text hc ih fuel hfuel hline
    by_cases hb : c = '['
    · subst hb
      obtain ⟨fuel, rfl⟩ := Nat.exists_eq_succ_of_ne_zero (by omega : fuel ≠ 0)
      rw [dropWhile_bracket] at hline
      rw [expandWithin_text (rangeMatch_bracket (fun h => hline (List.mem_cons_of_mem _ h)) hc) rfl]
      exact .bracket hc
    · rw [segments_char hc]
      have happend : expandWithin digits fuel ([c] ++ text) = (expandWithin digits fuel text).map (List.map ([c] ++ ·)) :=
        expandWithin_append (by simpa using Ne.symm hb) text
      rw [List.singleton_append] at happend
      rw [happend]
      refine Expands.char (ih fuel ?_ ?_) hb
      · rw [List.count_cons] at hfuel
        omega
      · rwa [List.dropWhile_cons_of_pos (by simpa using hb)] at hline
  · intro text r after hr ih fuel hfuel hline
    obtain ⟨fuel, rfl⟩ := Nat.exists_eq_succ_of_ne_zero (by omega : fuel ≠ 0)
    obtain ⟨x, rfl, hx⟩ := readRange_sound hr
    rw [dropWhile_bracket] at hline
    rw [segments_range hr, expandWithin_range (rangeMatch_range hline hr) rfl]
    by_cases hz : r.step = 0
    · have hn : r.numbers = .error .valueError := if_pos hz
      rw [hn]
      exact .zeroStep (by rw [meeting, if_pos hz])
    · obtain ⟨numbers, hn⟩ : ∃ numbers, r.numbers = .ok numbers := ⟨_, r.numbers_ok hz⟩
      rw [hn]
      by_cases hne : numbers = []
      · subst hne
        refine .product ?_ (product_empty hn)
        rw [meeting, if_neg hz, if_pos ((r.numbers_nil hn).mp rfl)]
      · have hafter : '\n' ∉ after := fun h => hline (by simp [h])
        have hcount : after.count '[' < fuel := by
          rw [List.count_cons_self, List.count_append] at hfuel
          omega
        have hturn : ∀ idx ∈ numbers, expandWithin digits fuel ([] ++ Nat.toDigits 10 idx ++ after) =
            (expandWithin digits fuel after).map (List.map (Nat.toDigits 10 idx ++ ·)) := fun idx _ => by
          rw [List.nil_append, expandWithin_append (bracket_notMem_digits idx)]
        have hexp := (ih fuel hcount fun h => hafter ((List.dropWhile_suffix _).subset h)).range hn hne
        rw [← yieldAll_congr hturn] at hexp
        exact hexp

end

theorem expandRanges_segments {digits : Digits} {key : List Char} (h : '\n' ∉ key.dropWhile (· ≠ '[')) :
    Expands (segments digits key) (expandRanges digits key) := expandWithin_segments digits key _ (Nat.lt_succ_self _) h

theorem expandRanges_newline {digits : Digits} {key : List Char} (h : '\n' ∈ key.dropWhile (· ≠ '[')) (hlast : key.getLast? ≠ some '\n') :
    expandRanges digits key = .error .attributeError := by
  rw [expandRanges, expandWithin, rangeMatch_newline h hlast]

end Alignak
