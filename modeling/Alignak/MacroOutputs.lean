import Alignak.MacroEscapes

/-!
# The outputs in a resolved command

What a plugin or a user has written reaches a command through the output macros.
-/

namespace Alignak.Macros

def outputNames : List Text :=
  ["HOSTOUTPUT".toList, "LONGHOSTOUTPUT".toList, "HOSTPERFDATA".toList, "LASTHOSTPERFDATA".toList, "HOSTACKAUTHOR".toList,
    "HOSTACKAUTHORNAME".toList, "HOSTACKAUTHORALIAS".toList, "HOSTACKCOMMENT".toList, "SERVICEOUTPUT".toList,
    "LONGSERVICEOUTPUT".toList, "SERVICEPERFDATA".toList, "LASTSERVICEPERFDATA".toList, "SERVICEACKAUTHOR".toList,
    "SERVICEACKAUTHORNAME".toList, "SERVICEACKAUTHORALIAS".toList, "SERVICEACKCOMMENT".toList]

def IsOutputMacro (m : Text) : Prop := ∃ name ∈ outputNames, m = name ∨ ∃ elts, m = name ++ ':' :: elts

/-- No illegal character is in the value, nor where the word for `$$` in it has become a dollar. -/
def Harmless (illegal value : Text) : Prop := ∀ c ∈ illegal, c ∉ value ∧ c ∉ replace doubleDollar ['$'] value

section
variable {illegal chain value : Text}

theorem deleteUnwantedCaracters_eq : ∀ {illegal chain : Text}, deleteUnwantedCaracters illegal chain = chain.filter fun c => decide (c ∉ illegal)
  | [], chain => by simp [deleteUnwantedCaracters]
  | d :: illegal, chain => by
    have ih : deleteUnwantedCaracters (d :: illegal) chain = deleteUnwantedCaracters illegal (replace [d] [] chain) := rfl
    rw [ih, deleteUnwantedCaracters_eq, replace_char, List.filter_filter]
    refine List.filter_congr fun c _ => ?_
    by_cases hc : c = d
    · simp [hc]
    · simp [hc]

theorem notMem_deleteUnwantedCaracters {c : Char} (hc : c ∈ illegal) : c ∉ deleteUnwantedCaracters illegal chain := by
  rw [deleteUnwantedCaracters_eq, List.mem_filter]
  exact fun h => of_decide_eq_true h.2 hc

theorem deleteUnwantedCaracters_clean (h : ∀ c ∈ illegal, c ∉ chain) : deleteUnwantedCaracters illegal chain = chain := by
  rw [deleteUnwantedCaracters_eq, List.filter_eq_self]
  exact fun c hc => decide_eq_true fun hi => h c hi hc

theorem harmless_iff : Harmless illegal value ↔ (∀ c ∈ illegal, c ∉ value) ∧ ('$' ∈ illegal → ¬ doubleDollar <:+: value) := by
  constructor
  · intro h
    refine ⟨fun c hc => (h c hc).1, fun hd hi => ?_⟩
    exact (h '$' hd).2 (mem_replace_present (by decide) hi List.mem_cons_self)
  · rintro ⟨hclean, hd⟩ c hc
    refine ⟨hclean c hc, fun hm => ?_⟩
    rcases mem_replace hm with hm' | hm'
    · exact hclean c hc hm'
    · rw [List.mem_singleton] at hm'
      subst hm'
      rw [replace_absent (hd hc)] at hm
      exact hclean _ hc hm

end

/-! ## Names -/

theorem outputNames_spec : ∀ name ∈ outputNames, ':' ∉ name ∧ name.head?.isSome = true ∧ name.head? ≠ some 'A' ∧ name.head? ≠ some '_' := by
  decide

theorem outputMacros_colon : ∀ name ∈ outputMacros, ':' ∉ name := by
  decide

section
variable (mr : MacroResolver) (data : List Element)

def objectOf (m : Text) : Option Element := data.reverse.find? fun obj => (obj.cls.macros m).isSome

def objectText (m : Text) : Text :=
  match objectOf data m with
  | none => []
  | some obj =>
    match obj.cls.macros m with
    | none => []
    | some prop => if prop.name = [] then [] else getValueFromElement obj prop

def elementText (m : Text) : Except Exn Text := if ':' ∈ m then resolveOndemand mr data m else .ok (objectText data m)

def Sanitised (m : Text) : Prop :=
  ∀ text, elementText mr data m = .ok text →
    (m ∈ outputMacros ∨ ∀ c ∈ mr.illegalMacroOutputChars, c ∉ text) ∧
    ('$' ∈ mr.illegalMacroOutputChars → ¬ doubleDollar <:+: deleteUnwantedCaracters mr.illegalMacroOutputChars text)

section
variable {mr data} {args : Option (List Text)} {m : Text}

theorem splitOn_colon (h : ':' ∈ m) : 1 < (m.splitOn ':').length := by
  obtain ⟨a, b, rfl⟩ := List.append_of_mem h
  rw [List.splitOn_append_cons_self, List.length_append]
  have ha := List.length_pos_of_ne_nil (List.splitOn_ne_nil ':' a)
  have hb := List.length_pos_of_ne_nil (List.splitOn_ne_nil ':' b)
  omega

theorem isArgN_head (h : m.head? ≠ some 'A') : isArgN m = false := by
  unfold isArgN
  split
  · simp at h
  · rfl

theorem isCustomOf_head {cls : Text} (h : m.head? ≠ some '_') : isCustomOf mr cls m = false := by
  unfold isCustomOf
  cases m with
  | nil => rfl
  | cons c m =>
    have hc : ¬ '_' = c := fun e => h (by rw [← e]; rfl)
    simp [List.isPrefixOf, hc]

theorem IsOutputMacro.head (h : IsOutputMacro m) : m.head? ≠ some 'A' ∧ m.head? ≠ some '_' := by
  obtain ⟨name, hn, hm⟩ := h
  obtain ⟨_, hsome, hA, hu⟩ := outputNames_spec name hn
  have hhead : m.head? = name.head? := by
    rcases hm with rfl | ⟨elts, rfl⟩
    · rfl
    · obtain ⟨c, hc⟩ := Option.isSome_iff_exists.mp hsome
      rw [List.head?_append, hc]
      rfl
  rw [hhead]
  exact ⟨hA, hu⟩

theorem getTypeOfMacro_output (h : IsOutputMacro m) : getTypeOfMacro mr data m =
    if ':' ∈ m then .ondemand else (objectOf data m).elim .unknown .object := by
  obtain ⟨hA, hu⟩ := h.head
  unfold getTypeOfMacro
  rw [isArgN_head hA, isCustomOf_head hu, isCustomOf_head hu, isCustomOf_head hu]
  simp only [Bool.false_eq_true, if_false]
  by_cases hc : ':' ∈ m
  · rw [if_pos (splitOn_colon hc), if_pos hc]
  · have hone : ¬ 1 < (m.splitOn ':').length := by
      rw [List.splitOn_eq_singleton hc]
      exact lt_irrefl 1
    rw [if_neg hone, if_neg hc]
    unfold objectOf
    cases data.reverse.find? fun obj => (obj.cls.macros m).isSome <;> rfl

theorem deleteUnwantedCaracters_nil : deleteUnwantedCaracters mr.illegalMacroOutputChars [] = [] := by
  rw [deleteUnwantedCaracters_eq]
  rfl

theorem resolveObject_eq (obj : Element) (ho : objectOf data m = some obj) : resolveObject mr obj m =
    if m ∈ outputMacros then deleteUnwantedCaracters mr.illegalMacroOutputChars (objectText data m) else objectText data m := by
  unfold resolveObject objectText
  rw [ho]
  simp only
  cases obj.cls.macros m with
  | none => simp only [deleteUnwantedCaracters_nil, ite_self]
  | some prop =>
    simp only
    by_cases hp : prop.name = []
    · simp only [if_pos hp, deleteUnwantedCaracters_nil, ite_self]
    · simp only [if_neg hp, List.contains_iff_mem]

theorem getValue_output (h : IsOutputMacro m) : getValue mr data args m =
    (elementText mr data m).map fun text => if m ∈ outputMacros then deleteUnwantedCaracters mr.illegalMacroOutputChars text else text := by
  unfold getValue elementText
  rw [getTypeOfMacro_output h]
  by_cases hc : ':' ∈ m
  · have hm : m ∉ outputMacros := fun hm => outputMacros_colon m hm hc
    rw [if_pos hc, if_pos hc]
    simp only [if_neg hm]
    cases resolveOndemand mr data m <;> rfl
  · rw [if_neg hc, if_neg hc]
    cases ho : objectOf data m with
    | none =>
      have ht : objectText data m = [] := by
        unfold objectText
        rw [ho]
      simp only [Option.elim_none, Except.map, ht, deleteUnwantedCaracters_nil, ite_self]
    | some obj =>
      simp only [Option.elim_some, Except.map]
      rw [resolveObject_eq obj ho]

theorem harmless_output (h : IsOutputMacro m) {value : Text} (hv : getValue mr data args m = .ok value) :
    Harmless mr.illegalMacroOutputChars value ↔ Sanitised mr data m := by
  rw [getValue_output h] at hv
  cases ht : elementText mr data m with
  | error e => rw [ht] at hv; cases hv
  | ok text =>
    rw [ht] at hv
    simp only [Except.map, Except.ok.injEq] at hv
    have hsan : Sanitised mr data m ↔ (m ∈ outputMacros ∨ ∀ c ∈ mr.illegalMacroOutputChars, c ∉ text) ∧
        ('$' ∈ mr.illegalMacroOutputChars → ¬ doubleDollar <:+: deleteUnwantedCaracters mr.illegalMacroOutputChars text) := by
      unfold Sanitised
      rw [ht]
      constructor
      · exact fun hs => hs text rfl
      · intro hs text' he
        cases he
        exact hs
    rw [harmless_iff, hsan, ← hv]
    by_cases hm : m ∈ outputMacros
    · simp only [hm, true_or, true_and, if_true]
      exact and_iff_right fun c hc => notMem_deleteUnwantedCaracters hc
    · simp only [hm, false_or, if_false]
      refine and_congr_right fun hclean => ?_
      rw [deleteUnwantedCaracters_clean hclean]

end

/-! ## Commands -/

variable (args : Option (List Text)) (cLine : Text)

def OutputsHarmless : Prop :=
  ∀ turns, run mr data args cLine = .ok turns → ∀ turn ∈ turns, ∀ v ∈ turn, IsOutputMacro v.1 →
    Harmless mr.illegalMacroOutputChars v.2

def OutputsSanitised : Prop :=
  ∀ turns, run mr data args cLine = .ok turns → ∀ turn ∈ turns, ∀ v ∈ turn, IsOutputMacro v.1 →
    Sanitised mr (data ++ mr.itself :: mr.myConf.toList) v.1

theorem outputsHarmless_iff : OutputsHarmless mr data args cLine ↔ OutputsSanitised mr data args cLine := by
  refine forall₂_congr fun turns hrun => forall₂_congr fun turn ht => forall₂_congr fun v hv => forall_congr' fun ho => ?_
  exact harmless_output ho (runTurns_values hrun turn ht v hv)

end

def hostClass : ItemClass where
  myType := "host".toList
  macros m :=
    if m = "HOSTOUTPUT".toList then some ⟨"output".toList, []⟩
    else if m = "LONGHOSTOUTPUT".toList then some ⟨"long_output".toList, []⟩
    else none
  unnamed := rfl

def attacked : Element where
  cls := hostClass
  hostName := "srv".toList
  getattr _ := .text "up; reboot".toList
  customs := []
  macromodulations := []

def cautiousResolver : MacroResolver :=
  { bareResolver with
    listsOnDemand := [⟨hostClass, fun name => if name = "srv".toList then some attacked else none⟩]
    illegalMacroOutputChars := ";".toList }

/-- The long output is not in the list, and the on-demand branch takes nothing out. -/
theorem output_unsanitised : ¬ OutputsHarmless cautiousResolver [attacked] none "log $LONGHOSTOUTPUT$".toList ∧
    ¬ OutputsHarmless cautiousResolver [attacked] none "log $HOSTOUTPUT:srv$".toList := by
  constructor
  · intro h
    have hv := h [[("LONGHOSTOUTPUT".toList, "up; reboot".toList)]] (by decide) _ List.mem_cons_self _ List.mem_cons_self
      ⟨"LONGHOSTOUTPUT".toList, by decide, .inl rfl⟩
    have := (hv ';' (by decide)).1
    revert this
    decide
  · intro h
    have hv := h [[("HOSTOUTPUT:srv".toList, "up; reboot".toList)]] (by decide) _ List.mem_cons_self _ List.mem_cons_self
      ⟨"HOSTOUTPUT".toList, by decide, .inr ⟨"srv".toList, by decide⟩⟩
    have := (hv ';' (by decide)).1
    revert this
    decide

end Alignak.Macros
