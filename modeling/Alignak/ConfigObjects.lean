import Alignak.ConfigRuns

/-!
# The objects of lines

An object has the values of its lines under the names that the lines are cut
to. A value with its own tab or three blanks takes its property with it, and
the name that comes out is none of the block.
-/

namespace Alignak.ConfigBuffer

/-! ## The object of some lines -/

def cutOf (line : Text) : Option (Text × Text) :=
  (cutLine line).head?.map fun prop => (prop, [' '].intercalate (cutLine line).tail)

def given (name : Text) (pairs : List (Text × Text)) : Option (List Text) :=
  if (pairs.filter fun p => p.1 = name).isEmpty then none else some ((pairs.filter fun p => p.1 = name).map Prod.snd)

section
variable {name : Text} {pairs : List (Text × Text)} {p : Text × Text}

theorem given_concat : given name (pairs ++ [p]) =
    if name = p.1 then some ((given p.1 pairs).getD [] ++ [p.2]) else given name pairs := by
  unfold given
  by_cases h : name = p.1
  · subst h
    rw [if_pos rfl, List.filter_append]
    by_cases hnil : pairs.filter (fun q => q.1 = p.1) = []
    · simp [hnil]
    · simp [hnil]
  · have hp : p.1 ≠ name := fun he => h he.symm
    have hnil : [p].filter (fun q => q.1 = name) = [] := by simp [hp]
    rw [if_neg h, List.filter_append, hnil, List.append_nil]

theorem given_some (h : p ∈ pairs) : given p.1 pairs ≠ none := by
  unfold given
  rw [if_neg]
  · exact Option.some_ne_none _
  · rw [List.isEmpty_iff]
    intro hnil
    exact List.filter_eq_nil_iff.mp hnil p h (by simp)

theorem mem_of_given (h : given name pairs ≠ none) : ∃ p ∈ pairs, p.1 = name := by
  unfold given at h
  by_cases hnil : (pairs.filter fun p => p.1 = name).isEmpty = true
  · rw [if_pos hnil] at h
    exact absurd rfl h
  · rw [List.isEmpty_iff] at hnil
    obtain ⟨p, hp⟩ := List.exists_mem_of_ne_nil _ hnil
    obtain ⟨hmem, hname⟩ := List.mem_filter.mp hp
    exact ⟨p, hmem, by simpa using hname⟩

end

variable {o : Object} {origin : Text}

theorem addValue_none {line : Text} (h : cutOf line = none) : addValue o line = o := by
  unfold cutOf at h
  unfold addValue
  cases hc : cutLine line with
  | nil => rfl
  | cons prop rest => simp [hc] at h

theorem addValue_some {line : Text} {p : Text × Text} (h : cutOf line = some p) :
    addValue o line = o.set p.1 ((o.get? p.1).getD [] ++ [p.2]) := by
  unfold cutOf at h
  unfold addValue
  cases hc : cutLine line with
  | nil => simp [hc] at h
  | cons prop rest =>
    rw [hc] at h
    cases h
    rfl

theorem get?_buildObject (lines : List Text) (name : Text) :
    (buildObject lines).get? name = given name (lines.filterMap cutOf) := by
  induction lines using List.reverseRecOn generalizing name with
  | nil => rfl
  | append_singleton lines line ih =>
    have hstep : buildObject (lines ++ [line]) = addValue (buildObject lines) line := by
      unfold buildObject
      rw [List.foldl_append]
      rfl
    rw [hstep, List.filterMap_append]
    cases hc : cutOf line with
    | none =>
      rw [addValue_none hc, ih]
      simp [hc]
    | some p =>
      rw [addValue_some hc, Dict.get?_set, ih, ih]
      simp only [List.filterMap_cons, List.filterMap_nil, hc]
      rw [given_concat]

/-! ## What is asked of the objects -/

def importedName : Text := "imported_from".toList

def IsObject (b : Block) (o : Object) : Prop :=
  ∃ origin, ∀ name, o.get? name = given name ((importedName, origin) :: b.entries.map fun e => (e.name, e.value))

def Uncut (e : Entry) : Prop := HasBreak e.sep ∨ ¬ HasBreak (e.value ++ e.after.text)

/-! ## The object of a block -/

theorem gap_isWhitespace {c : Char} (h : c = ' ' ∨ c = '\t') : isWhitespace c = true := by
  rcases h with rfl | rfl <;> rfl

theorem cutOf_entry {e : Entry} (h : Uncut e) : cutOf e.line.text = some (e.name, e.value) := by
  unfold cutOf
  rw [e.text_eq, cutLine_entry e.name_ne e.name_word e.sep_ne (fun c hc => gap_isWhitespace (e.sep_gap c hc)) e.stripped
    e.after.blank h]
  simp [List.intercalate]

theorem cutOf_mistaken {e : Entry} (h : ¬ Uncut e) : ∃ p, cutOf e.line.text = some p ∧ ∃ c ∈ p.1, isSpace c = true := by
  unfold Uncut at h
  rw [not_or, not_not] at h
  obtain ⟨key, rest, hcut, hspace⟩ :=
    cutLine_mistaken e.name_ne e.name_word e.sep_ne (fun c hc => gap_isWhitespace (e.sep_gap c hc)) e.stripped h.1 h.2
  unfold cutOf
  rw [e.text_eq, hcut]
  exact ⟨_, rfl, hspace⟩

theorem spaceless_not_hasBreak {l : Text} (h : Spaceless l) : ¬ HasBreak l := by
  rintro (⟨c, hc, hb⟩ | ⟨a, b, c, hi, ha, _⟩)
  · rw [not_isBreak (h c hc)] at hb
    exact Bool.noConfusion hb
  · rw [not_isFill (h a (hi.subset (by simp)))] at ha
    exact Bool.noConfusion ha

theorem importedName_word : ∀ c ∈ importedName, isSpace c = false := Numerals.forall_of_all (by decide)

theorem cutOf_imported (h : Origin origin) :
    cutOf (importedText ++ origin) = some (importedName, origin) := by
  have ht : importedText ++ origin = importedName ++ ([' '] ++ (origin ++ [])) := by
    rw [List.append_nil]
    rfl
  have hs := word_stripped h.ne h.spaceless
  have huncut : HasBreak [' '] ∨ ¬ HasBreak (origin ++ []) := by
    rw [List.append_nil]
    exact .inr (spaceless_not_hasBreak h.spaceless)
  have hcut : cutLine (importedName ++ ([' '] ++ (origin ++ []))) = [importedName, origin] :=
    cutLine_entry (List.cons_ne_nil _ _) importedName_word (List.cons_ne_nil _ _)
      (fun _ hc => gap_isWhitespace (.inl (List.mem_singleton.mp hc))) hs blank_nil huncut
  unfold cutOf
  rw [ht, hcut]
  simp [List.intercalate]

def Built (b : Block) (o : Object) : Prop := ∃ origin, Origin origin ∧ o = buildObject (blockLines origin b)

theorem cuts_block {b : Block} (ho : Origin origin) (h : ∀ e ∈ b.entries, Uncut e) :
    (blockLines origin b).filterMap cutOf = (importedName, origin) :: b.entries.map fun e => (e.name, e.value) := by
  unfold blockLines texts
  rw [List.filterMap_cons_some (cutOf_imported ho), List.filterMap_map, ← List.filterMap_eq_map]
  congr 1
  exact List.filterMap_congr fun e he => cutOf_entry (h e he)

theorem Built.isObject_iff {b : Block} (h : Built b o) : IsObject b o ↔ ∀ e ∈ b.entries, Uncut e := by
  obtain ⟨origin, ho, rfl⟩ := h
  constructor
  · rintro ⟨place, hplace⟩ e he
    by_contra hcut
    obtain ⟨p, hp, c, hc, hspace⟩ := cutOf_mistaken hcut
    have hmem : p ∈ (blockLines origin b).filterMap cutOf :=
      List.mem_filterMap.mpr ⟨_, List.mem_cons_of_mem _ (List.mem_map.mpr ⟨e, he, rfl⟩), hp⟩
    have hsome := given_some hmem
    rw [← get?_buildObject, hplace] at hsome
    obtain ⟨q, hq, hname⟩ := mem_of_given hsome
    rw [← hname] at hc
    rcases List.mem_cons.mp hq with rfl | hq
    · rw [importedName_word c hc] at hspace
      exact Bool.noConfusion hspace
    · obtain ⟨e', _, rfl⟩ := List.mem_map.mp hq
      rw [e'.name_word c hc] at hspace
      exact Bool.noConfusion hspace
  · intro h
    exact ⟨origin, fun name => by rw [get?_buildObject, cuts_block ho h]⟩

theorem built_nonempty (ho : Origin origin) (b : Block) :
    (buildObject (blockLines origin b)).entries.isEmpty = false := by
  have hmem : (importedName, origin) ∈ (blockLines origin b).filterMap cutOf :=
    List.mem_filterMap.mpr ⟨_, List.mem_cons_self, cutOf_imported ho⟩
  have hsome := given_some hmem
  rw [← get?_buildObject] at hsome
  rw [← Bool.not_eq_true, List.isEmpty_iff]
  intro hnil
  apply hsome
  unfold Dict.get?
  rw [hnil]
  rfl

end Alignak.ConfigBuffer
