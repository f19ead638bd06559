import Alignak.ExternalCommands

/-!
# The fields of a command

`split_semicolon` gives back the fields of a line in which each semicolon of a
field stands behind a backslash.
-/

namespace Alignak.ExternalCommandManager

def escapeSemicolons (field : List Char) : List Char := field.flatMap fun c => if c = ';' then ['\\', ';'] else [c]

def joinFields (fields : List (List Char)) : List Char := [';'].intercalate fields

abbrev EndsEscaping (field : List Char) : Prop := field.getLast? = some '\\'

theorem joinFields_single (field : List Char) : joinFields [field] = field := by
  simp [joinFields, List.intercalate]

theorem joinFields_cons (field : List Char) {fields : List (List Char)} (h : fields ≠ []) :
    joinFields (field :: fields) = field ++ ';' :: joinFields fields := by
  cases fields with
  | nil => exact absurd rfl h
  | cons f fields => simp [joinFields, List.intercalate, List.intersperse]

/-! ## The loop over the characters -/

/-- The loop from a part of which `acc` is read. -/
def joinFrom (maxsplit i : Nat) (acc text : List Char) : List (List Char) :=
  joinParts maxsplit i (acc ++ (text.splitOn ';').headD []) (text.splitOn ';').tail

section
variable {maxsplit i : Nat} {acc text : List Char}

theorem joinFrom_nil : joinFrom maxsplit i acc [] = [acc] := by
  simp [joinFrom, joinParts]

theorem splitOn_cons_ne {c : Char} (h : c ≠ ';') : (c :: text).splitOn ';' =
    (c :: (text.splitOn ';').headD []) :: (text.splitOn ';').tail := by
  rw [List.splitOn_cons_eq_if_modifyHead, if_neg (by simpa using h)]
  cases hs : text.splitOn ';' with
  | nil => exact absurd hs (List.splitOn_ne_nil _ _)
  | cons part parts => rfl

theorem splitOn_semicolon : (';' :: text).splitOn ';' = [] :: text.splitOn ';' := by
  rw [List.splitOn_cons_eq_if_modifyHead, if_pos (by rfl)]

theorem joinFrom_char {c : Char} (h : c ≠ ';') :
    joinFrom maxsplit i acc (c :: text) = joinFrom maxsplit i (acc ++ [c]) text := by
  unfold joinFrom
  rw [splitOn_cons_ne h]
  simp

theorem joinFrom_semicolon : joinFrom maxsplit i acc (';' :: text) =
    if acc.getLast? = some '\\' then joinFrom maxsplit i (acc.dropLast ++ [';']) text
    else if maxsplit ≤ i then joinFrom maxsplit i (acc ++ [';']) text
    else acc :: joinFrom maxsplit (i + 1) [] text := by
  unfold joinFrom
  rw [splitOn_semicolon]
  cases hs : text.splitOn ';' with
  | nil => exact absurd hs (List.splitOn_ne_nil _ _)
  | cons part parts => simp [joinParts]

theorem splitSemicolon_from (line : List Char) (maxsplit : Option Nat) :
    splitSemicolon line maxsplit = joinFrom (maxsplit.getD (line.splitOn ';').length) 0 [] line := by
  unfold splitSemicolon joinFrom
  cases hs : line.splitOn ';' with
  | nil => exact absurd hs (List.splitOn_ne_nil _ _)
  | cons part parts => simp

/-! ## A field -/

theorem joinFrom_field (field : List Char) :
    joinFrom maxsplit i acc (escapeSemicolons field ++ text) = joinFrom maxsplit i (acc ++ field) text := by
  induction field generalizing acc with
  | nil => simp [escapeSemicolons]
  | cons c field ih =>
    by_cases hc : c = ';'
    · subst hc
      have hcons : escapeSemicolons (';' :: field) ++ text = '\\' :: ';' :: (escapeSemicolons field ++ text) := by
        simp [escapeSemicolons]
      rw [hcons, joinFrom_char (by decide), joinFrom_semicolon, if_pos (by simp), List.dropLast_concat, ih]
      simp
    · have hcons : escapeSemicolons (c :: field) ++ text = c :: (escapeSemicolons field ++ text) := by
        simp [escapeSemicolons, hc]
      rw [hcons, joinFrom_char hc, ih]
      simp

theorem endsEscaping_append {field : List Char} (hacc : ¬ EndsEscaping acc) (hfield : ¬ EndsEscaping field) :
    ¬ EndsEscaping (acc ++ field) := by
  cases field with
  | nil => simpa using hacc
  | cons c field =>
    unfold EndsEscaping at hfield ⊢
    rw [List.getLast?_append_of_ne_nil _ (by simp)]
    exact hfield

/-! ## The fields -/

variable {fields : List (List Char)}

theorem joinFields_escaped_cons (field : List Char) (h : fields ≠ []) :
    joinFields ((field :: fields).map escapeSemicolons) =
      escapeSemicolons field ++ ';' :: joinFields (fields.map escapeSemicolons) := by
  rw [List.map_cons, joinFields_cons _ (by simpa using h)]

theorem joinFrom_rest (hi : maxsplit ≤ i) (hne : fields ≠ []) (hacc : ¬ EndsEscaping acc)
    (hf : ∀ field ∈ fields, ¬ EndsEscaping field) :
    joinFrom maxsplit i acc (joinFields (fields.map escapeSemicolons)) = [acc ++ joinFields fields] := by
  induction fields generalizing acc with
  | nil => exact absurd rfl hne
  | cons field fields ih =>
    have hfield := endsEscaping_append hacc (hf field List.mem_cons_self)
    by_cases hl : fields = []
    · subst hl
      have hread := @joinFrom_field maxsplit i acc [] field
      rw [List.append_nil, joinFrom_nil] at hread
      simpa [joinFields_single] using hread
    · rw [joinFields_escaped_cons field hl, joinFrom_field, joinFrom_semicolon, if_neg hfield, if_pos hi]
      have hsemicolon : ¬ EndsEscaping (acc ++ field ++ [';']) := by
        unfold EndsEscaping
        simp
      rw [ih hl hsemicolon fun f hmem => hf f (List.mem_cons_of_mem _ hmem), joinFields_cons _ hl]
      simp

theorem joinFrom_fields {n : Nat} (hn : maxsplit = i + n) (hne : fields ≠ []) (hf : ∀ field ∈ fields, ¬ EndsEscaping field) :
    joinFrom maxsplit i [] (joinFields (fields.map escapeSemicolons)) =
      if fields.length ≤ n then fields else fields.take n ++ [joinFields (fields.drop n)] := by
  have hnil : ¬ EndsEscaping [] := by
    unfold EndsEscaping
    simp
  induction n generalizing i fields with
  | zero =>
    rw [joinFrom_rest (by omega) hne hnil hf, if_neg (by simpa using hne)]
    simp
  | succ n ih =>
    cases fields with
    | nil => exact absurd rfl hne
    | cons field fields =>
      by_cases hl : fields = []
      · subst hl
        have hread := @joinFrom_field maxsplit i [] [] field
        rw [List.append_nil, joinFrom_nil] at hread
        simpa [joinFields_single] using hread
      · have hfield := hf field List.mem_cons_self
        rw [joinFields_escaped_cons field hl, joinFrom_field, joinFrom_semicolon, List.nil_append, if_neg hfield,
          if_neg (by omega), ih (by omega) hl fun f hmem => hf f (List.mem_cons_of_mem _ hmem)]
        simp only [List.length_cons, Nat.add_le_add_iff_right]
        split <;> simp

end

/-! ## The bound -/

theorem joinParts_bound {m m' : Nat} (parts : List (List Char)) : ∀ {i : Nat} {part : List Char},
    i + parts.length ≤ m → i + parts.length ≤ m' → joinParts m i part parts = joinParts m' i part parts := by
  induction parts with
  | nil => exact fun _ _ => rfl
  | cons next parts ih =>
    intro i part hm hm'
    simp only [List.length_cons] at hm hm'
    rw [joinParts, joinParts, if_neg (show ¬ m ≤ i by omega), if_neg (show ¬ m' ≤ i by omega)]
    rw [ih (by omega) (by omega), ih (i := i + 1) (by omega) (by omega)]

theorem splitSemicolon_none (line : List Char) {m : Nat} (h : (line.splitOn ';').length ≤ m) :
    splitSemicolon line none = splitSemicolon line (some m) := by
  rw [splitSemicolon_from, splitSemicolon_from]
  unfold joinFrom
  refine joinParts_bound _ ?_ ?_
  · simp
  · simp only [List.length_tail, Option.getD_some]
    omega

/-- The fields of a line come back, and up to a bound the first ones and what
is left as one part. -/
theorem splitSemicolon_fields (fields : List (List Char)) (hne : fields ≠ []) (hf : ∀ field ∈ fields, ¬ EndsEscaping field) :
    splitSemicolon (joinFields (fields.map escapeSemicolons)) none = fields ∧
    ∀ m, splitSemicolon (joinFields (fields.map escapeSemicolons)) (some m) =
      if fields.length ≤ m then fields else fields.take m ++ [joinFields (fields.drop m)] := by
  have hbound : ∀ m, splitSemicolon (joinFields (fields.map escapeSemicolons)) (some m) =
      if fields.length ≤ m then fields else fields.take m ++ [joinFields (fields.drop m)] := by
    intro m
    rw [splitSemicolon_from]
    exact joinFrom_fields (by simp) hne hf
  refine ⟨?_, hbound⟩
  have hnone := splitSemicolon_none (joinFields (fields.map escapeSemicolons)) (le_max_left _ fields.length)
  rw [hnone, hbound, if_pos (le_max_right _ _)]

/-- An empty field and a field with a semicolon. -/
theorem splitSemicolon_three :
    splitSemicolon (joinFields (["a".toList, [], "b;".toList].map escapeSemicolons)) (some 1) = ["a".toList, ";b;".toList] :=
  (splitSemicolon_fields ["a".toList, [], "b;".toList] (by simp) (by simp)).2 1

/-! ## Without a bound -/

/-- The fields of a text of whose first field `acc` is read. -/
def fieldsFrom (acc : List Char) : List Char → List (List Char)
  | [] => [acc]
  | c :: text =>
    if c = ';' then if EndsEscaping acc then fieldsFrom (acc.dropLast ++ [';']) text else acc :: fieldsFrom [] text
    else fieldsFrom (acc ++ [c]) text

section
variable {acc text : List Char}

theorem fieldsFrom_char {c : Char} (h : c ≠ ';') : fieldsFrom acc (c :: text) = fieldsFrom (acc ++ [c]) text := by
  rw [fieldsFrom, if_neg h]

theorem fieldsFrom_escaped (h : EndsEscaping acc) :
    fieldsFrom acc (';' :: text) = fieldsFrom (acc.dropLast ++ [';']) text := by
  rw [fieldsFrom, if_pos rfl, if_pos h]

theorem fieldsFrom_semicolon (h : ¬ EndsEscaping acc) : fieldsFrom acc (';' :: text) = acc :: fieldsFrom [] text := by
  rw [fieldsFrom, if_pos rfl, if_neg h]

theorem joinFrom_fieldsFrom {m : Nat} (text : List Char) : ∀ {i : Nat} {acc : List Char},
    i + (text.splitOn ';').length ≤ m → joinFrom m i acc text = fieldsFrom acc text := by
  induction text with
  | nil =>
    intro i acc _
    exact joinFrom_nil
  | cons c text ih =>
    intro i acc hm
    by_cases hc : c = ';'
    · subst hc
      rw [splitOn_semicolon, List.length_cons] at hm
      have hpos := List.length_pos_of_ne_nil (List.splitOn_ne_nil ';' text)
      rw [joinFrom_semicolon]
      by_cases ha : EndsEscaping acc
      · rw [if_pos ha, fieldsFrom_escaped ha]
        exact ih (by omega)
      · rw [if_neg ha, if_neg (by omega), fieldsFrom_semicolon ha]
        rw [ih (i := i + 1) (by omega)]
    · rw [splitOn_cons_ne hc, List.length_cons, List.length_tail] at hm
      have hpos := List.length_pos_of_ne_nil (List.splitOn_ne_nil ';' text)
      rw [joinFrom_char hc, fieldsFrom_char hc]
      exact ih (by omega)

theorem splitSemicolon_fieldsFrom (line : List Char) : splitSemicolon line none = fieldsFrom [] line := by
  rw [splitSemicolon_from]
  exact joinFrom_fieldsFrom line (by simp)

theorem not_endsEscaping_nil : ¬ EndsEscaping [] := by
  unfold EndsEscaping
  simp

theorem endsEscaping_append_ne {field : List Char} (h : field ≠ []) : EndsEscaping (acc ++ field) ↔ EndsEscaping field := by
  unfold EndsEscaping
  rw [List.getLast?_append_of_ne_nil _ h]

/-! ### Texts one after the other -/

theorem fieldsFrom_plain (h : ';' ∉ text) : fieldsFrom acc text = [acc ++ text] := by
  induction text generalizing acc with
  | nil => simp [fieldsFrom]
  | cons c text ih =>
    rw [List.mem_cons, not_or] at h
    rw [fieldsFrom_char (Ne.symm h.1), ih h.2]
    simp

theorem fieldsFrom_append (h : ¬ EndsEscaping (acc ++ text)) (more : List Char) :
    fieldsFrom acc (text ++ ';' :: more) = fieldsFrom acc text ++ fieldsFrom [] more := by
  induction text generalizing acc with
  | nil =>
    rw [List.append_nil] at h
    rw [List.nil_append, fieldsFrom_semicolon h]
    rfl
  | cons c text ih =>
    by_cases hc : c = ';'
    · subst hc
      by_cases ha : EndsEscaping acc
      · rw [List.cons_append, fieldsFrom_escaped ha, fieldsFrom_escaped ha]
        refine ih fun hends => h ?_
        rw [List.append_assoc, endsEscaping_append_ne (by simp)] at hends
        rwa [endsEscaping_append_ne (by simp)]
      · rw [List.cons_append, fieldsFrom_semicolon ha, fieldsFrom_semicolon ha, List.cons_append, ih]
        rw [endsEscaping_append_ne (by simp)] at h
        cases text with
        | nil => exact not_endsEscaping_nil
        | cons d text => exact fun hends => h ((@endsEscaping_append_ne [';'] _ (by simp)).mpr hends)
    · rw [List.cons_append, fieldsFrom_char hc, fieldsFrom_char hc]
      refine ih ?_
      rwa [List.append_assoc, List.singleton_append]

theorem fieldsFrom_prepend {read : List Char} (h : ¬ EndsEscaping acc) :
    fieldsFrom (acc ++ read) text = (fieldsFrom read text).modifyHead (acc ++ ·) := by
  induction text generalizing read with
  | nil => rfl
  | cons c text ih =>
    by_cases hc : c = ';'
    · subst hc
      by_cases hr : EndsEscaping read
      · have hne : read ≠ [] := by
          rintro rfl
          exact not_endsEscaping_nil hr
        rw [fieldsFrom_escaped hr, fieldsFrom_escaped ((endsEscaping_append_ne hne).mpr hr),
          List.dropLast_append_of_ne_nil hne, List.append_assoc, ih]
      · rw [fieldsFrom_semicolon hr, fieldsFrom_semicolon (endsEscaping_append h hr)]
        rfl
    · rw [fieldsFrom_char hc, fieldsFrom_char hc, List.append_assoc, ih]

theorem fieldsFrom_length_escaped (h : EndsEscaping (acc ++ text)) (more : List Char) :
    (fieldsFrom acc (text ++ ';' :: more)).length + 1 = (fieldsFrom acc text).length + (fieldsFrom [] more).length := by
  induction text generalizing acc with
  | nil =>
    rw [List.append_nil] at h
    have hstart : ¬ EndsEscaping (acc.dropLast ++ [';']) := by
      unfold EndsEscaping
      simp
    rw [List.nil_append, fieldsFrom_escaped h, ← List.append_nil (acc.dropLast ++ [';']), fieldsFrom_prepend hstart,
      List.length_modifyHead, Nat.add_comm]
    rfl
  | cons c text ih =>
    by_cases hc : c = ';'
    · subst hc
      rw [endsEscaping_append_ne (by simp)] at h
      by_cases ha : EndsEscaping acc
      · rw [List.cons_append, fieldsFrom_escaped ha, fieldsFrom_escaped ha]
        refine ih ?_
        rwa [List.append_assoc, endsEscaping_append_ne (by simp)]
      · have htext : EndsEscaping ([] ++ text) := by
          cases text with
          | nil => exact absurd h (by unfold EndsEscaping; simp)
          | cons d text => exact (@endsEscaping_append_ne [';'] _ (by simp)).mp h
        have hrest := ih htext
        rw [List.cons_append, fieldsFrom_semicolon ha, fieldsFrom_semicolon ha, List.length_cons, List.length_cons]
        omega
    · rw [List.cons_append, fieldsFrom_char hc, fieldsFrom_char hc]
      refine ih ?_
      rwa [List.append_assoc, List.singleton_append]

theorem fieldsFrom_countP {p : Char → Bool} (hs : p ';' = false) (hb : p '\\' = false) :
    (fieldsFrom acc text).flatten.countP p = acc.countP p + text.countP p := by
  induction text generalizing acc with
  | nil => simp [fieldsFrom]
  | cons c text ih =>
    by_cases hc : c = ';'
    · subst hc
      by_cases ha : EndsEscaping acc
      · have hlast : acc = acc.dropLast ++ ['\\'] := (List.dropLast_append_getLast? _ ha).symm
        have hcount : acc.countP p = acc.dropLast.countP p := by
          conv_lhs => rw [hlast]
          simp [hb]
        rw [fieldsFrom_escaped ha, ih, List.countP_append, hcount]
        simp [hs]
      · rw [fieldsFrom_semicolon ha, List.flatten_cons, List.countP_append, ih]
        simp [hs]
    · rw [fieldsFrom_char hc, ih]
      simp only [List.countP_append, List.countP_cons, List.countP_nil]
      omega

theorem fieldsFrom_eq_cons {name : List Char} {fields : List (List Char)} (h : fieldsFrom acc text = name :: fields)
    (hname : ';' ∉ name) : ∃ field rest, text = field ++ rest ∧ name = acc ++ field ∧
      (rest = [] ∧ fields = [] ∨ ∃ more, rest = ';' :: more ∧ ¬ EndsEscaping name ∧ fields = fieldsFrom [] more) := by
  induction text generalizing acc with
  | nil =>
    obtain ⟨rfl, rfl⟩ := List.cons.inj h
    exact ⟨[], [], rfl, (List.append_nil acc).symm, .inl ⟨rfl, rfl⟩⟩
  | cons c text ih =>
    by_cases hc : c = ';'
    · subst hc
      by_cases ha : EndsEscaping acc
      · rw [fieldsFrom_escaped ha] at h
        obtain ⟨field, _, -, rfl, -⟩ := ih h
        simp at hname
      · rw [fieldsFrom_semicolon ha] at h
        obtain ⟨rfl, rfl⟩ := List.cons.inj h
        exact ⟨[], ';' :: text, rfl, (List.append_nil acc).symm, .inr ⟨text, rfl, ha, rfl⟩⟩
    · rw [fieldsFrom_char hc] at h
      obtain ⟨field, rest, rfl, rfl, hrest⟩ := ih h
      exact ⟨c :: field, rest, rfl, by simp, hrest⟩

/-! ### Fields appended to a line -/

def appendFields (fields : List (List Char)) : List Char := fields.flatMap (';' :: ·)

variable {fields : List (List Char)}

theorem appendFields_cons (field : List Char) : appendFields (field :: fields) = ';' :: (field ++ appendFields fields) := rfl

theorem fieldsFrom_appendFields (h : ∀ field ∈ (text :: fields).dropLast, ¬ EndsEscaping field) :
    fieldsFrom [] (text ++ appendFields fields) = fieldsFrom [] text ++ fields.flatMap (fieldsFrom []) := by
  induction fields generalizing text with
  | nil => simp [appendFields]
  | cons field fields ih =>
    rw [List.dropLast_cons_cons] at h
    rw [appendFields_cons, @fieldsFrom_append [] _ (h text List.mem_cons_self), List.flatMap_cons,
      ih fun f hf => h f (List.mem_cons_of_mem _ hf)]

theorem fieldsFrom_appendFields_length : ∀ (fields : List (List Char)) (text : List Char),
    (fieldsFrom [] (text ++ appendFields fields)).length ≤ (fieldsFrom [] text ++ fields.flatMap (fieldsFrom [])).length ∧
    ((∃ field ∈ (text :: fields).dropLast, EndsEscaping field) →
      (fieldsFrom [] (text ++ appendFields fields)).length < (fieldsFrom [] text ++ fields.flatMap (fieldsFrom [])).length)
  | [], text => by simp [appendFields]
  | field :: fields, text => by
    rw [appendFields_cons, List.dropLast_cons_cons, List.flatMap_cons, List.length_append, List.length_append]
    by_cases ht : EndsEscaping text
    · have hjoined := @fieldsFrom_length_escaped [] _ ht field
      have hle := (fieldsFrom_appendFields_length fields (text ++ ';' :: field)).1
      rw [List.append_assoc, List.cons_append, List.length_append] at hle
      exact ⟨by omega, fun _ => by omega⟩
    · obtain ⟨hle, hlt⟩ := fieldsFrom_appendFields_length fields field
      rw [List.length_append] at hle hlt
      rw [@fieldsFrom_append [] _ ht, List.length_append]
      refine ⟨by omega, ?_⟩
      rintro ⟨f, hf, he⟩
      rcases List.mem_cons.mp hf with rfl | hf
      · exact absurd he ht
      · have := hlt ⟨f, hf, he⟩
        omega

theorem fieldsFrom_appendFields_iff : fieldsFrom [] (text ++ appendFields fields) =
    fieldsFrom [] text ++ fields.flatMap (fieldsFrom []) ↔ ∀ field ∈ (text :: fields).dropLast, ¬ EndsEscaping field := by
  refine ⟨fun h field hf he => ?_, fieldsFrom_appendFields⟩
  have hlt := (fieldsFrom_appendFields_length fields text).2 ⟨field, hf, he⟩
  rw [h] at hlt
  exact absurd hlt (Nat.lt_irrefl _)

end

end Alignak.ExternalCommandManager
