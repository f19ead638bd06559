import Alignak.Macros
import Alignak.ReplaceParts

/-!
# The runs of the resolver

Every turn of the loop puts values in the place of names. The turns of a run
are listed here, and with them the replacements that the run makes; the loop
comes to its end by itself.
-/

namespace Alignak.Macros

/-! ## Values -/

theorem foldlM_error {α β : Type} {f : β → α → Except Exn β} {e : Exn} : ∀ {l : List α} {b : β},
    l.foldlM f b = .error e → ∃ a ∈ l, ∃ b, f b a = .error e
  | [], b, h => by cases h
  | a :: l, b, h => by
    rw [List.foldlM_cons] at h
    cases hf : f b a with
    | error e' =>
      rw [hf] at h
      cases h
      exact ⟨a, List.mem_cons_self, b, hf⟩
    | ok b' =>
      rw [hf] at h
      obtain ⟨c, hc, d, hd⟩ := foldlM_error h
      exact ⟨c, List.mem_cons_of_mem _ hc, d, hd⟩

section
variable {mr : MacroResolver} {data : List Element} {args : Option (List Text)} {e : Exn}

theorem resolveOndemand_error {m : Text} (h : resolveOndemand mr data m = .error e) : e = .keyError := by
  unfold resolveOndemand at h
  split at h
  · split at h
    · cases h
    · split at h
      · cases h; rfl
      · cases h
  · cases h
  · cases h

theorem resolveCustom_error {cls m : Text} (h : resolveCustom mr data cls m = .error e) : e = .keyError := by
  obtain ⟨elt, _, value, helt⟩ := foldlM_error h
  by_cases hs : elt.cls.myType.map Char.toUpper ≠ cls ∨ elt.customs = []
  · rw [if_pos hs] at helt
    cases helt
  · rw [if_neg hs] at helt
    obtain ⟨id, _, value', hid⟩ := foldlM_error helt
    unfold resolveModulation at hid
    cases hm : mr.macromodulations id with
    | none => rw [hm] at hid; cases hid; rfl
    | some modulation => rw [hm] at hid; cases hid

theorem getValue_error {m : Text} (h : getValue mr data args m = .error e) : e = .keyError := by
  unfold getValue at h
  split at h
  · cases h
  · cases h
  · exact resolveCustom_error h
  · exact resolveOndemand_error h
  · cases h

theorem getValues_error : ∀ {ms : List Text}, getValues mr data args ms = .error e → e = .keyError
  | [], h => by cases h
  | m :: ms, h => by
    unfold getValues at h
    cases hv : getValue mr data args m with
    | error e' =>
      rw [hv] at h
      cases h
      exact getValue_error hv
    | ok v =>
      cases hvs : getValues mr data args ms with
      | error e' =>
        rw [hv, hvs] at h
        cases h
        exact getValues_error hvs
      | ok vs => rw [hv, hvs] at h; cases h

theorem getValues_mem : ∀ {ms : List Text} {vs : List (Text × Text)}, getValues mr data args ms = .ok vs →
    (∀ m ∈ ms, ∃ v, (m, v) ∈ vs) ∧ ∀ p ∈ vs, getValue mr data args p.1 = .ok p.2
  | [], vs, h => by
    cases h
    exact ⟨by simp, by simp⟩
  | m :: ms, vs, h => by
    unfold getValues at h
    cases hv : getValue mr data args m with
    | error e' => rw [hv] at h; cases h
    | ok v =>
      cases hvs : getValues mr data args ms with
      | error e' => rw [hv, hvs] at h; cases h
      | ok vs' =>
        rw [hv, hvs] at h
        cases h
        obtain ⟨hkeys, hvalues⟩ := getValues_mem hvs
        constructor
        · intro k hk
          rcases List.mem_cons.mp hk with rfl | hk
          · exact ⟨v, List.mem_cons_self⟩
          · obtain ⟨u, hu⟩ := hkeys k hk
            exact ⟨u, List.mem_cons_of_mem _ hu⟩
        · intro p hp
          rcases List.mem_cons.mp hp with rfl | hp
          · exact hv
          · exact hvalues p hp

theorem getValue_nil : getValue mr data args [] = .ok [] := by
  have hnone : (data.reverse.find? fun obj => (obj.cls.macros []).isSome) = none := by
    refine List.find?_eq_none.mpr fun obj _ => ?_
    rw [obj.cls.unnamed]
    exact Bool.false_ne_true
  have ht : getTypeOfMacro mr data [] = .unknown := by
    unfold getTypeOfMacro
    rw [hnone]
    rfl
  unfold getValue
  rw [ht]

end

/-! ## Turns -/

section
variable (mr : MacroResolver) (data : List Element) (args : Option (List Text))

def runTurns : Nat → Nat → Text → Except Exn (List (List (Text × Text)))
  | 0, _, _ => .error .diverges
  | fuel + 1, nbLoop, cLine =>
    if getMacros cLine = [] then .ok []
    else do
      let macros ← getValues mr data args (getMacros cLine)
      if nbLoop + 1 > 32 then return [macros]
      else do
        let turns ← runTurns fuel (nbLoop + 1) (replaceMacros macros cLine)
        return macros :: turns

end

def turnSteps (macros : List (Text × Text)) : List (Text × Text) :=
  macros.map (fun v => (dollared v.1, v.2)) ++ [(['$', '$'], doubleDollar)]

def runSteps (turns : List (List (Text × Text))) : List (Text × Text) := turns.flatMap turnSteps ++ [(doubleDollar, ['$'])]

theorem replaceMacros_eq (macros : List (Text × Text)) (cLine : Text) : replaceMacros macros cLine = replaceAll (turnSteps macros) cLine := by
  unfold replaceMacros turnSteps
  rw [replaceAll_append]
  unfold replaceAll
  rw [List.foldl_map]
  rfl

section
variable {mr : MacroResolver} {data : List Element} {args : Option (List Text)}

theorem resolveLoop_eq : ∀ {fuel nbLoop : Nat} {cLine : Text}, resolveLoop mr data args fuel nbLoop cLine =
    (runTurns mr data args fuel nbLoop cLine).map fun turns => replaceAll (turns.flatMap turnSteps) cLine
  | 0, _, _ => rfl
  | fuel + 1, nbLoop, cLine => by
    unfold resolveLoop runTurns
    by_cases hm : getMacros cLine = []
    · rw [if_pos hm, if_pos hm]
      rfl
    · rw [if_neg hm, if_neg hm]
      cases hv : getValues mr data args (getMacros cLine) with
      | error e => rfl
      | ok macros =>
        simp only [Except.bind, bind]
        by_cases hn : nbLoop + 1 > 32
        · rw [if_pos hn, if_pos hn, replaceMacros_eq]
          simp [pure, Except.pure, Except.map]
        · rw [if_neg hn, if_neg hn, resolveLoop_eq]
          cases hr : runTurns mr data args fuel (nbLoop + 1) (replaceMacros macros cLine) with
          | error e => rfl
          | ok turns =>
            simp only [pure, Except.pure, Except.map, List.flatMap_cons]
            rw [replaceAll_append, replaceMacros_eq]

theorem resolveSimpleMacrosInString_eq (fuel : Nat) (cLine : Text) : resolveSimpleMacrosInString mr data args fuel cLine =
    (runTurns mr (data ++ mr.itself :: mr.myConf.toList) args fuel 0 cLine).map fun turns => strip (replaceAll (runSteps turns) cLine) := by
  unfold resolveSimpleMacrosInString
  rw [resolveLoop_eq]
  cases runTurns mr (data ++ mr.itself :: mr.myConf.toList) args fuel 0 cLine with
  | error e => rfl
  | ok turns =>
    simp only [Except.map, Except.bind, bind, pure, Except.pure]
    unfold runSteps
    rw [replaceAll_append]
    rfl

theorem runTurns_fuel : ∀ {fuel k nbLoop : Nat} {cLine : Text}, nbLoop ≤ 32 → 33 ≤ fuel + nbLoop → 33 ≤ k + nbLoop →
    runTurns mr data args fuel nbLoop cLine = runTurns mr data args k nbLoop cLine
  | 0, _, _, _, _, _, _ => by omega
  | _ + 1, 0, _, _, _, _, _ => by omega
  | fuel + 1, k + 1, nbLoop, cLine, hn, hf, hk => by
    unfold runTurns
    by_cases hm : getMacros cLine = []
    · rw [if_pos hm, if_pos hm]
    · rw [if_neg hm, if_neg hm]
      cases hv : getValues mr data args (getMacros cLine) with
      | error e => rfl
      | ok macros =>
        simp only [Except.bind, bind]
        by_cases hl : nbLoop + 1 > 32
        · rw [if_pos hl, if_pos hl]
        · rw [if_neg hl, if_neg hl, runTurns_fuel (k := k) (by omega) (by omega) (by omega)]

theorem runTurns_error {e : Exn} : ∀ {fuel nbLoop : Nat} {cLine : Text}, nbLoop ≤ 32 → 33 ≤ fuel + nbLoop →
    runTurns mr data args fuel nbLoop cLine = .error e → e = .keyError
  | 0, _, _, _, _, _ => by omega
  | fuel + 1, nbLoop, cLine, hn, hf, h => by
    unfold runTurns at h
    by_cases hm : getMacros cLine = []
    · rw [if_pos hm] at h
      cases h
    · rw [if_neg hm] at h
      cases hv : getValues mr data args (getMacros cLine) with
      | error e' =>
        rw [hv] at h
        cases h
        exact getValues_error hv
      | ok macros =>
        rw [hv] at h
        simp only [Except.bind, bind] at h
        by_cases hl : nbLoop + 1 > 32
        · rw [if_pos hl] at h
          cases h
        · rw [if_neg hl] at h
          cases hr : runTurns mr data args fuel (nbLoop + 1) (replaceMacros macros cLine) with
          | error e' =>
            rw [hr] at h
            cases h
            exact runTurns_error (by omega) (by omega) hr
          | ok turns => rw [hr] at h; cases h

theorem runTurns_ok {fuel nbLoop : Nat} {cLine : Text} {turns : List (List (Text × Text))}
    (h : runTurns mr data args (fuel + 1) nbLoop cLine = .ok turns) :
    getMacros cLine = [] ∧ turns = [] ∨ ∃ macros rest, getValues mr data args (getMacros cLine) = .ok macros ∧ turns = macros :: rest ∧
      (rest = [] ∨ runTurns mr data args fuel (nbLoop + 1) (replaceMacros macros cLine) = .ok rest) := by
  unfold runTurns at h
  by_cases hm : getMacros cLine = []
  · rw [if_pos hm] at h
    cases h
    exact .inl ⟨hm, rfl⟩
  · rw [if_neg hm] at h
    cases hv : getValues mr data args (getMacros cLine) with
    | error e' => rw [hv] at h; cases h
    | ok macros =>
      rw [hv] at h
      simp only [Except.bind, bind] at h
      by_cases hl : nbLoop + 1 > 32
      · rw [if_pos hl] at h
        cases h
        exact .inr ⟨macros, [], rfl, rfl, .inl rfl⟩
      · rw [if_neg hl] at h
        cases hr : runTurns mr data args fuel (nbLoop + 1) (replaceMacros macros cLine) with
        | error e' => rw [hr] at h; cases h
        | ok turns' =>
          rw [hr] at h
          cases h
          exact .inr ⟨macros, turns', rfl, rfl, .inr hr⟩

theorem runTurns_values : ∀ {fuel nbLoop : Nat} {cLine : Text} {turns : List (List (Text × Text))},
    runTurns mr data args fuel nbLoop cLine = .ok turns → ∀ turn ∈ turns, ∀ p ∈ turn, getValue mr data args p.1 = .ok p.2
  | 0, _, _, _, h => by cases h
  | fuel + 1, nbLoop, cLine, turns, h => by
    rcases runTurns_ok h with ⟨_, rfl⟩ | ⟨macros, rest, hv, rfl, hrest⟩
    · simp
    · intro turn ht
      rcases List.mem_cons.mp ht with rfl | ht
      · exact (getValues_mem hv).2
      · rcases hrest with rfl | hrest
        · exact absurd ht List.not_mem_nil
        · exact runTurns_values hrest turn ht

theorem runTurns_first {fuel nbLoop : Nat} {cLine : Text} {turns : List (List (Text × Text))} {m : Text}
    (h : runTurns mr data args fuel nbLoop cLine = .ok turns) (hm : m ∈ getMacros cLine) :
    ∃ macros rest, turns = macros :: rest ∧ getValues mr data args (getMacros cLine) = .ok macros := by
  cases fuel with
  | zero => cases h
  | succ fuel =>
    rcases runTurns_ok h with ⟨hnil, _⟩ | ⟨macros, rest, hv, rfl, _⟩
    · exact absurd hnil (List.ne_nil_of_mem hm)
    · exact ⟨macros, rest, rfl, hv⟩

end

end Alignak.Macros
