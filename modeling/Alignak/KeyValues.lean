import Alignak.Strip
import Mathlib.Data.List.TakeWhile

/-!
# A key and its values

A value of `duplicate_foreach` is cut at its commas. Each piece is a key, with
values of its own written as `$(value)$` behind it or none.
-/

namespace Alignak

/-- A bare `$(something)$` at the head of a text, and what is behind it. -/
def readValue : List Char → Option (List Char × List Char)
  | '$' :: '(' :: text =>
    if text.takeWhile (· ≠ ')') = [] then none
    else match text.dropWhile (· ≠ ')') with
      | ')' :: '$' :: after => some (text.takeWhile (· ≠ ')'), after)
      | _ => none
  | _ => none

def readValuesWithin : Nat → List Char → Option (List (List Char))
  | _, [] => some []
  | 0, _ => none
  | fuel + 1, text =>
    match readValue text with
    | none => none
    | some (value, after) => (readValuesWithin fuel (after.dropWhile isSpace)).map (value :: ·)

def readValues (text : List Char) : Option (List (List Char)) := readValuesWithin text.length text

/-- `KEY_VALUES_REGEX` on a stripped text: the key ends before the first `$`
and the spaces there. -/
def keyValues (value : List Char) : Option (List Char × List (List Char)) :=
  let key := (value.takeWhile (· ≠ '$')).rdropWhile isSpace
  if key = [] then none else (readValues (value.dropWhile (· ≠ '$'))).map fun values => (key, values)

def pieces (entry : List Char) : List (List Char) := ((entry.splitOn ',').map strip).filter (· ≠ [])

/-! ## The written form -/

inductive ValuesText : List Char → List (List Char) → Prop
  | nil : ValuesText [] []
  | cons {value blank text : List Char} {values : List (List Char)} (ne : value ≠ []) (free : ')' ∉ value)
      (spaces : Blank blank) (rest : ValuesText text values) :
      ValuesText ('$' :: '(' :: (value ++ ')' :: '$' :: (blank ++ text))) (value :: values)

inductive KeyText : List Char → List Char → List (List Char) → Prop
  | mk {key blank text : List Char} {values : List (List Char)} (stripped : Stripped key) (free : '$' ∉ key)
      (spaces : Blank blank) (rest : ValuesText text values) : KeyText (key ++ blank ++ text) key values

/-! ## Reading finds what is written -/

section
variable {text after value key : List Char} {values : List (List Char)}

theorem ne_mark {c d : Char} (h : c ∉ text) (hd : d ∈ text) : decide (d ≠ c) = true :=
  decide_eq_true fun e => h (e ▸ hd)

theorem takeWhile_ne {c : Char} (h : c ∉ text) : (text ++ c :: after).takeWhile (· ≠ c) = text := by
  rw [List.takeWhile_append_of_pos fun d hd => ne_mark h hd]
  simp

theorem dropWhile_ne {c : Char} (h : c ∉ text) : (text ++ c :: after).dropWhile (· ≠ c) = c :: after := by
  rw [List.dropWhile_append_of_pos fun d hd => ne_mark h hd]
  simp

theorem readValue_written (hne : value ≠ []) (hfree : ')' ∉ value) :
    readValue ('$' :: '(' :: (value ++ ')' :: '$' :: after)) = some (value, after) := by
  unfold readValue
  simp only [takeWhile_ne hfree, dropWhile_ne hfree, if_neg hne]

theorem readValue_sound (h : readValue text = some (value, after)) :
    text = '$' :: '(' :: (value ++ ')' :: '$' :: after) ∧ value ≠ [] ∧ ')' ∉ value := by
  unfold readValue at h
  split at h
  · rename_i text
    split at h
    · cases h
    · rename_i hne
      split at h
      · rename_i hdrop
        cases h
        refine ⟨?_, hne, fun hmem => ?_⟩
        · rw [← hdrop, List.takeWhile_append_dropWhile]
        · simpa using List.mem_takeWhile_imp hmem
      · cases h
  · cases h

theorem ValuesText.head (h : ValuesText text values) : text.dropWhile isSpace = text := by
  cases h with
  | nil => rfl
  | cons => rfl

theorem dropWhile_blank {blank : List Char} (hb : Blank blank) (h : text.dropWhile isSpace = text) :
    (blank ++ text).dropWhile isSpace = text := by rw [dropWhile_blank_append hb, h]

theorem readValuesWithin_written (h : ValuesText text values) :
    ∀ fuel, text.length ≤ fuel → readValuesWithin fuel text = some values := by
  induction h with
  | nil => intro fuel _; cases fuel <;> rfl
  | cons hne hfree hspaces hrest ih =>
    intro fuel hfuel
    cases fuel with
    | zero => simp at hfuel
    | succ fuel =>
      unfold readValuesWithin
      rw [readValue_written hne hfree]
      simp only
      rw [dropWhile_blank hspaces hrest.head, ih fuel]
      · rfl
      · simp only [List.length_cons, List.length_append] at hfuel
        omega

theorem readValuesWithin_sound (fuel : Nat) : ∀ {text : List Char} {values : List (List Char)},
    readValuesWithin fuel text = some values → ValuesText text values := by
  induction fuel with
  | zero =>
    intro text values h
    cases text with
    | nil => cases h; exact .nil
    | cons c text => cases h
  | succ fuel ih =>
    intro text values h
    cases text with
    | nil => cases h; exact .nil
    | cons c text =>
      unfold readValuesWithin at h
      cases hr : readValue (c :: text) with
      | none => rw [hr] at h; cases h
      | some p =>
        obtain ⟨value, after⟩ := p
        rw [hr] at h
        obtain ⟨rest, hrest, rfl⟩ := Option.map_eq_some_iff.mp h
        obtain ⟨htext, hne, hfree⟩ := readValue_sound hr
        rw [htext, ← List.takeWhile_append_dropWhile (p := isSpace) (l := after)]
        exact .cons hne hfree (fun d hd => List.mem_takeWhile_imp hd) (ih hrest)

theorem readValues_iff : readValues text = some values ↔ ValuesText text values :=
  ⟨readValuesWithin_sound _, fun h => readValuesWithin_written h _ (le_refl _)⟩

theorem ValuesText.start (h : ValuesText text values) : text = [] ∨ ∃ after, text = '$' :: after := by
  cases h with
  | nil => exact Or.inl rfl
  | cons => exact Or.inr ⟨_, rfl⟩

theorem takeWhile_mark (h : '$' ∉ key) (ht : text = [] ∨ ∃ after, text = '$' :: after) :
    (key ++ text).takeWhile (· ≠ '$') = key ∧ (key ++ text).dropWhile (· ≠ '$') = text := by
  obtain rfl | ⟨after, rfl⟩ := ht
  · have hall : ∀ d ∈ key, decide (d ≠ '$') = true := fun d hd => ne_mark h hd
    rw [List.append_nil]
    exact ⟨List.takeWhile_eq_self_iff.mpr hall, List.dropWhile_eq_nil_iff.mpr hall⟩
  · exact ⟨takeWhile_ne h, dropWhile_ne h⟩

theorem keyValues_written (h : KeyText text key values) : keyValues text = some (key, values) := by
  obtain ⟨hs, hfree, hblank, hrest⟩ := h
  rename_i blank body
  have hmark : '$' ∉ key ++ blank := fun hmem => by
    rcases List.mem_append.mp hmem with hmem | hmem
    · exact hfree hmem
    · exact absurd (hblank _ hmem) (by decide)
  obtain ⟨htake, hdrop⟩ := takeWhile_mark hmark hrest.start
  have hkey : (key ++ blank).rdropWhile isSpace = key := by
    rw [rdropWhile_append_blank hblank]
    exact List.rdropWhile_eq_self_iff.mpr fun h => by simp [hs.last h]
  unfold keyValues
  simp only [htake, hdrop, hkey, if_neg hs.ne, readValues_iff.mpr hrest]
  rfl

theorem Blank.rtakeWhile (text : List Char) : Blank (text.rtakeWhile isSpace) := fun _ hc => List.mem_rtakeWhile_imp hc

theorem keyValues_sound (hs : Stripped text) (h : keyValues text = some (key, values)) : KeyText text key values := by
  unfold keyValues at h
  by_cases hne : (text.takeWhile (· ≠ '$')).rdropWhile isSpace = []
  · simp only [hne, if_true] at h
    cases h
  · simp only [if_neg hne] at h
    obtain ⟨read, hread, heq⟩ := Option.map_eq_some_iff.mp h
    cases heq
    have hsplit : text = (text.takeWhile (· ≠ '$')).rdropWhile isSpace ++ (text.takeWhile (· ≠ '$')).rtakeWhile isSpace ++
        text.dropWhile (· ≠ '$') := by
      rw [List.rdropWhile_append_rtakeWhile, List.takeWhile_append_dropWhile]
    have hfree : '$' ∉ (text.takeWhile (· ≠ '$')).rdropWhile isSpace := fun hmem => by
      simpa using List.mem_takeWhile_imp (List.IsPrefix.subset (List.rdropWhile_prefix _ _) hmem)
    have hstripped : Stripped ((text.takeWhile (· ≠ '$')).rdropWhile isSpace) := by
      refine ⟨hne, fun hkey => ?_, fun hkey => ?_⟩
      · have hhead := hs.head hs.ne
        have hpre : (text.takeWhile (· ≠ '$')).rdropWhile isSpace <+: text :=
          (List.rdropWhile_prefix _ _).trans (List.takeWhile_prefix _)
        rw [hpre.head hkey]
        exact hhead
      · exact Bool.eq_false_iff.mpr (List.rdropWhile_last_not _ _ hkey)
    have hwritten : KeyText _ _ values := ⟨hstripped, hfree, Blank.rtakeWhile (text.takeWhile (· ≠ '$')), readValues_iff.mp hread⟩
    rwa [← hsplit] at hwritten

end

theorem strip_stripped {text : List Char} (h : strip text ≠ []) : Stripped (strip text) := by
  refine ⟨h, fun hne => ?_, fun hne => ?_⟩
  · have hpre : strip text <+: text.dropWhile isSpace := List.rdropWhile_prefix _ _
    have hd : text.dropWhile isSpace ≠ [] := fun e => hne (List.prefix_nil.mp (e ▸ hpre))
    rw [hpre.head hne]
    exact List.head_dropWhile_not isSpace hd
  · exact Bool.eq_false_iff.mpr (List.rdropWhile_last_not _ _ hne)

theorem pieces_stripped {entry piece : List Char} (h : piece ∈ pieces entry) : Stripped piece := by
  obtain ⟨hmem, hne⟩ := List.mem_filter.mp h
  obtain ⟨text, -, rfl⟩ := List.mem_map.mp hmem
  exact strip_stripped (by simpa using hne)

end Alignak
