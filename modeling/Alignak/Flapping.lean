import Alignak.Notifications
import Mathlib.Algebra.Order.Ring.Rat
import Mathlib.Tactic.FieldSimp
import Mathlib.Tactic.Linarith
import Mathlib.Tactic.NormNum
import Mathlib.Tactic.Positivity
import Mathlib.Tactic.Ring

/-!
# The percentage of state changes

`add_flapping_change` and `update_flapping` over the samples that an item
records.
-/

namespace Alignak.Scheduling

/-! ## The window -/

/-- What `add_flapping_change` makes of the list of changes. -/
def pushChange (flapHistory : Nat) (changes : List Bool) (sample : Bool) : List Bool :=
  let changes := changes ++ [sample]
  if flapHistory < changes.length then changes.drop 1 else changes

def lastSamples (flapHistory : Nat) (samples : List Bool) : List Bool := samples.drop (samples.length - flapHistory)

theorem lastSamples_length (flapHistory : Nat) (samples : List Bool) :
    (lastSamples flapHistory samples).length = min flapHistory samples.length := by
  unfold lastSamples
  rw [List.length_drop]
  omega

theorem pushChange_lastSamples (flapHistory : Nat) (samples : List Bool) (sample : Bool) :
    pushChange flapHistory (lastSamples flapHistory samples) sample = lastSamples flapHistory (samples ++ [sample]) := by
  have hlen := lastSamples_length flapHistory samples
  unfold pushChange
  simp only [List.length_append, List.length_singleton, hlen]
  unfold lastSamples
  rw [List.length_append, List.length_singleton]
  by_cases h : flapHistory ≤ samples.length
  · rw [if_pos (by omega), show samples.length + 1 - flapHistory = samples.length - flapHistory + 1 by omega]
    have hlast : (samples ++ [sample]).drop (samples.length - flapHistory) =
        samples.drop (samples.length - flapHistory) ++ [sample] := List.drop_append_of_le_length (by omega)
    rw [← List.drop_drop, hlast]
  · rw [if_neg (by omega), show samples.length - flapHistory = 0 by omega, show samples.length + 1 - flapHistory = 0 by omega]
    rfl

/-! ## The weights -/

def weigh (slope : Rat) : Nat → List Bool → Rat
  | _, [] => 0
  | rank, changed :: changes => (if changed then rank * slope + 4 / 5 else 0) + weigh slope (rank + 1) changes

def fullWeight (slope : Rat) (rank n : Nat) : Rat := n * (4 / 5) + slope * (n * rank + n * (n - 1) / 2)

section
variable {slope : Rat}

theorem percentStateChange_eq (flapHistory : Nat) (changes : List Bool) :
    percentStateChange flapHistory changes = weigh (2 / 5 / flapHistory) 1 changes / flapHistory * 100 := by
  have hfold : ∀ (changes : List Bool) (rank : Nat) (res : Rat), (changes.zipIdx rank).foldl (fun (res : Rat) (c : Bool × Nat) =>
      if c.1 then res + (c.2 * (12 / 10 - 8 / 10) / flapHistory + 8 / 10) else res) res =
        res + weigh (2 / 5 / flapHistory) rank changes := by
    intro changes
    induction changes with
    | nil =>
      intro rank res
      simp [weigh]
    | cons changed changes ih =>
      intro rank res
      rw [List.zipIdx_cons, List.foldl_cons, ih, weigh]
      cases changed
      · simp
      · simp only [if_true]
        ring
  unfold percentStateChange
  simp only
  rw [hfold, zero_add]

theorem fullWeight_succ (slope : Rat) (rank n : Nat) :
    fullWeight slope rank (n + 1) = rank * slope + 4 / 5 + fullWeight slope (rank + 1) n := by
  unfold fullWeight
  push_cast
  ring

theorem weigh_nonneg (h : 0 ≤ slope) (changes : List Bool) : ∀ rank, 0 ≤ weigh slope rank changes := by
  induction changes with
  | nil => exact fun _ => le_refl _
  | cons changed changes ih =>
    intro rank
    have hrest := ih (rank + 1)
    have hrank : 0 ≤ (rank : Rat) * slope := by positivity
    rw [weigh]
    split <;> linarith

theorem weigh_none {changes : List Bool} (hc : ∀ c ∈ changes, c = false) : ∀ rank, weigh slope rank changes = 0 := by
  induction changes with
  | nil => exact fun _ => rfl
  | cons changed changes ih =>
    intro rank
    have hhead : changed = false := hc changed List.mem_cons_self
    subst hhead
    rw [weigh, ih fun c hmem => hc c (List.mem_cons_of_mem _ hmem)]
    simp

theorem weigh_all {changes : List Bool} (hc : ∀ c ∈ changes, c = true) :
    ∀ rank, weigh slope rank changes = fullWeight slope rank changes.length := by
  induction changes with
  | nil =>
    intro rank
    simp [weigh, fullWeight]
  | cons changed changes ih =>
    intro rank
    have hhead : changed = true := hc changed List.mem_cons_self
    subst hhead
    rw [weigh, ih fun c hmem => hc c (List.mem_cons_of_mem _ hmem), List.length_cons, fullWeight_succ, if_pos rfl]

theorem weigh_le (h : 0 ≤ slope) (changes : List Bool) : ∀ rank, weigh slope rank changes ≤ fullWeight slope rank changes.length := by
  induction changes with
  | nil =>
    intro rank
    simp [weigh, fullWeight]
  | cons changed changes ih =>
    intro rank
    have hrest := ih (rank + 1)
    have hrank : 0 ≤ (rank : Rat) * slope := by positivity
    rw [weigh, List.length_cons, fullWeight_succ]
    split <;> linarith

theorem weigh_some (h : 0 ≤ slope) {changes : List Bool} (hc : false ∈ changes) :
    ∀ rank, weigh slope rank changes ≤ fullWeight slope rank changes.length - 4 / 5 := by
  induction changes with
  | nil => exact absurd hc List.not_mem_nil
  | cons changed changes ih =>
    intro rank
    have hrank : 0 ≤ (rank : Rat) * slope := by positivity
    rw [weigh, List.length_cons, fullWeight_succ]
    cases changed with
    | false =>
      have hrest := weigh_le h changes (rank + 1)
      simp only [Bool.false_eq_true, if_false]
      linarith
    | true =>
      have hrest := ih (by simpa using hc) (rank + 1)
      simp only [if_true]
      linarith

end

/-! ## The percentage of a window -/

section
variable {flapHistory : Nat} {changes : List Bool}

theorem fullWeight_window (h : 0 < flapHistory) (n : Nat) :
    fullWeight (2 / 5 / flapHistory) 1 n = n * (4 / 5) + n * (n + 1) / 5 / flapHistory := by
  have hne : (flapHistory : Rat) ≠ 0 := by exact_mod_cast h.ne'
  unfold fullWeight
  push_cast
  field_simp
  ring

theorem fullWeight_le (h : 0 < flapHistory) {n : Nat} (hn : n ≤ flapHistory) :
    fullWeight (2 / 5 / flapHistory) 1 n ≤ n + 1 / 5 := by
  have hpos : (0 : Rat) < flapHistory := by exact_mod_cast h
  have hle : (n : Rat) ≤ flapHistory := by exact_mod_cast hn
  have hpart : (n : Rat) * (n + 1) / 5 / flapHistory ≤ (n + 1) / 5 := by
    rw [div_le_iff₀ hpos]
    have hn0 : (0 : Rat) ≤ n + 1 := by positivity
    nlinarith
  rw [fullWeight_window h]
  linarith

theorem percent_full (h : 0 < flapHistory) (hl : changes.length = flapHistory) (hc : ∀ c ∈ changes, c = true) :
    percentStateChange flapHistory changes = 100 + 20 / flapHistory := by
  have hne : (flapHistory : Rat) ≠ 0 := by exact_mod_cast h.ne'
  rw [percentStateChange_eq, weigh_all hc, hl, fullWeight_window h]
  field_simp
  ring

theorem weigh_lt (h : 0 < flapHistory) (hl : changes.length ≤ flapHistory)
    (hc : ¬ (changes.length = flapHistory ∧ ∀ c ∈ changes, c = true)) :
    weigh (2 / 5 / flapHistory) 1 changes < flapHistory := by
  have hslope : (0 : Rat) ≤ 2 / 5 / flapHistory := by positivity
  have hfull := fullWeight_le h hl
  by_cases hall : ∀ c ∈ changes, c = true
  · have hlt : changes.length + 1 ≤ flapHistory := by
      have hne : changes.length ≠ flapHistory := fun e => hc ⟨e, hall⟩
      omega
    have hltq : (changes.length : Rat) + 1 ≤ flapHistory := by exact_mod_cast hlt
    have hle := weigh_le hslope changes 1
    linarith
  · have hmem : false ∈ changes := by
      by_contra hnot
      refine hall fun c hmem => ?_
      cases c
      · exact absurd hmem hnot
      · rfl
    have hle := weigh_some hslope hmem 1
    have hlq : (changes.length : Rat) ≤ flapHistory := by exact_mod_cast hl
    linarith

theorem percent_lt (h : 0 < flapHistory) (hl : changes.length ≤ flapHistory)
    (hc : ¬ (changes.length = flapHistory ∧ ∀ c ∈ changes, c = true)) : percentStateChange flapHistory changes < 100 := by
  have hpos : (0 : Rat) < flapHistory := by exact_mod_cast h
  have hlt := weigh_lt h hl hc
  rw [percentStateChange_eq]
  have hone : weigh (2 / 5 / flapHistory) 1 changes / flapHistory < 1 := (div_lt_one hpos).mpr hlt
  linarith

theorem percent_nonneg : 0 ≤ percentStateChange flapHistory changes := by
  have hslope : (0 : Rat) ≤ 2 / 5 / flapHistory := by positivity
  have hw := weigh_nonneg hslope changes 1
  rw [percentStateChange_eq]
  positivity

theorem percent_none (hc : ∀ c ∈ changes, c = false) : percentStateChange flapHistory changes = 0 := by
  rw [percentStateChange_eq, weigh_none hc]
  simp

end

/-! ## A history of samples -/

structure Flapping where
  changes : List Bool := []
  percentStateChange : Rat := 0
  deriving DecidableEq, Repr

/-- One sample. `enabled` says whether the detection was, for the item and its
class. -/
structure FlapSample where
  enabled : Bool
  hasChanged : Bool
  deriving DecidableEq, Repr

def recordSample (flapHistory : Nat) (s : Flapping) (sample : FlapSample) : Except Exn Flapping :=
  let changes := if sample.enabled then pushChange flapHistory s.changes sample.hasChanged else s.changes
  if flapHistory = 0 then .error .zeroDivisionError else .ok ⟨changes, percentStateChange flapHistory changes⟩

def recordSamples (flapHistory : Nat) (samples : List FlapSample) : Except Exn Flapping :=
  samples.foldlM (recordSample flapHistory) {}

def recorded (samples : List FlapSample) : List Bool := (samples.filter FlapSample.enabled).map FlapSample.hasChanged

/-- The percentage is one, 0 where nothing has changed and 100 where everything
has, in the windows that count. -/
structure Normalised (counts : List Bool → Prop) (s : Flapping) : Prop where
  nonneg : 0 ≤ s.percentStateChange
  le : s.percentStateChange ≤ 100
  none : (∀ c ∈ s.changes, c = false) → s.percentStateChange = 0
  all : counts s.changes → (∀ c ∈ s.changes, c = true) → s.percentStateChange = 100

section
variable {flapHistory : Nat}

theorem recordSample_eq (h : 0 < flapHistory) (samples : List Bool) (p : Rat) (sample : FlapSample) :
    recordSample flapHistory ⟨lastSamples flapHistory samples, p⟩ sample =
      .ok ⟨lastSamples flapHistory (samples ++ recorded [sample]),
        percentStateChange flapHistory (lastSamples flapHistory (samples ++ recorded [sample]))⟩ := by
  unfold recordSample
  simp only
  rw [if_neg h.ne']
  by_cases he : sample.enabled = true
  · simp only [he, if_true, recorded, List.filter_cons, List.filter_nil, List.map_cons, List.map_nil, pushChange_lastSamples]
  · simp [he, recorded]

theorem recordSamples_from (h : 0 < flapHistory) (samples : List FlapSample) : ∀ before : List Bool,
    samples.foldlM (recordSample flapHistory)
        ⟨lastSamples flapHistory before, percentStateChange flapHistory (lastSamples flapHistory before)⟩ =
      .ok ⟨lastSamples flapHistory (before ++ recorded samples),
        percentStateChange flapHistory (lastSamples flapHistory (before ++ recorded samples))⟩ := by
  induction samples with
  | nil =>
    intro before
    simp only [recorded, List.filter_nil, List.map_nil, List.append_nil]
    rfl
  | cons sample samples ih =>
    intro before
    rw [List.foldlM_cons, recordSample_eq h]
    have hsplit : recorded (sample :: samples) = recorded [sample] ++ recorded samples := by
      unfold recorded
      rw [← List.map_append, ← List.filter_append]
      rfl
    rw [hsplit, ← List.append_assoc]
    exact ih _

theorem recordSamples_eq (h : 0 < flapHistory) (samples : List FlapSample) :
    recordSamples flapHistory samples = .ok ⟨lastSamples flapHistory (recorded samples),
      percentStateChange flapHistory (lastSamples flapHistory (recorded samples))⟩ := by
  have hnil : lastSamples flapHistory [] = [] := List.drop_nil
  have hstart : percentStateChange flapHistory [] = 0 := percent_none fun c hmem => absurd hmem List.not_mem_nil
  have hrun := recordSamples_from h samples []
  rw [hnil, hstart, List.nil_append] at hrun
  exact hrun

theorem recordSamples_zero {samples : List FlapSample} {s : Flapping} (h : recordSamples 0 samples = .ok s) :
    samples = [] ∧ s = {} := by
  cases samples with
  | nil =>
    cases h
    exact ⟨rfl, rfl⟩
  | cons sample samples => cases h

def FullOfChanges (flapHistory : Nat) (window : List Bool) : Prop := window.length = flapHistory ∧ ∀ c ∈ window, c = true

/-- A window that counts stands for 100 per cent, and misses it when every
sample is a change. -/
theorem normalised_iff (h : 0 < flapHistory) {counts : List Bool → Prop} {window : List Bool} (hl : window.length ≤ flapHistory)
    (hcounts : FullOfChanges flapHistory window → counts window) :
    Normalised counts ⟨window, percentStateChange flapHistory window⟩ ↔ ¬ (counts window ∧ ∀ c ∈ window, c = true) := by
  have hpos : (0 : Rat) < flapHistory := by exact_mod_cast h
  constructor
  · intro hn hc
    by_cases hfull : FullOfChanges flapHistory window
    · have hle := hn.le
      have hp := percent_full h hfull.1 hfull.2
      have hover : (0 : Rat) < 20 / flapHistory := by positivity
      simp only [hp] at hle
      linarith
    · have hlt := percent_lt h hl hfull
      have hall := hn.all hc.1 hc.2
      simp only at hall
      linarith
  · intro hc
    have hlt := percent_lt h hl fun hfull => hc ⟨hcounts hfull, hfull.2⟩
    exact ⟨percent_nonneg, hlt.le, percent_none, fun hw hall => absurd ⟨hw, hall⟩ hc⟩

/-- The percentage of every history, with 100 asked of the windows that are
whole, and of all that are not empty. -/
theorem percentStateChange_normalised_iff (flapHistory : Nat) (samples : List FlapSample) :
    ((∃ s, recordSamples flapHistory samples = .ok s ∧ Normalised (fun window => window.length = flapHistory) s) ↔
      0 < flapHistory ∧ ¬ (flapHistory ≤ (recorded samples).length ∧ ∀ c ∈ lastSamples flapHistory (recorded samples), c = true)) ∧
    ((∃ s, recordSamples flapHistory samples = .ok s ∧ Normalised (fun window => window ≠ []) s) ↔
      (0 < flapHistory ∨ samples = []) ∧
        ¬ (recorded samples ≠ [] ∧ ∀ c ∈ lastSamples flapHistory (recorded samples), c = true)) := by
  by_cases h : 0 < flapHistory
  · have hrun := recordSamples_eq h samples
    have hlen := lastSamples_length flapHistory (recorded samples)
    have hl : (lastSamples flapHistory (recorded samples)).length ≤ flapHistory := by omega
    have hex : ∀ counts, (∃ s, recordSamples flapHistory samples = .ok s ∧ Normalised counts s) ↔ Normalised counts
        ⟨lastSamples flapHistory (recorded samples),
          percentStateChange flapHistory (lastSamples flapHistory (recorded samples))⟩ := by
      intro counts
      rw [hrun]
      simp
    constructor
    · rw [hex, normalised_iff h hl fun hfull => hfull.1, hlen]
      simp only [h, true_and, min_eq_left_iff]
    · have hne : lastSamples flapHistory (recorded samples) ≠ [] ↔ recorded samples ≠ [] := by
        rw [← List.length_pos_iff, ← List.length_pos_iff, hlen]
        omega
      have hcounts : FullOfChanges flapHistory (lastSamples flapHistory (recorded samples)) →
          lastSamples flapHistory (recorded samples) ≠ [] := by
        intro hfull e
        have hzero := hfull.1
        rw [e] at hzero
        exact absurd hzero h.ne
      rw [hex, normalised_iff h hl hcounts, hne]
      simp only [h, true_or, true_and]
  · have hz : flapHistory = 0 := by omega
    subst hz
    constructor
    · refine ⟨?_, fun hc => absurd hc.1 h⟩
      rintro ⟨s, hs, hn⟩
      have hall := hn.all
      rw [(recordSamples_zero hs).2] at hall
      exact absurd (hall rfl fun c hmem => absurd hmem List.not_mem_nil) (by decide)
    · constructor
      · rintro ⟨s, hs, -⟩
        have hnil := (recordSamples_zero hs).1
        subst hnil
        exact ⟨Or.inr rfl, fun hc => hc.1 rfl⟩
      · rintro ⟨hor, -⟩
        have hnil := hor.resolve_left h
        subst hnil
        refine ⟨{}, rfl, le_refl _, by decide, fun _ => rfl, fun hw => absurd rfl hw⟩

end

/-- Twenty changes in a window of twenty. -/
theorem percent_over : ∃ s, recordSamples 20 (List.replicate 20 ⟨true, true⟩) = .ok s ∧ s.percentStateChange = 101 ∧
    ¬ Normalised (fun window => window.length = 20) s := by
  have hrun : recordSamples 20 (List.replicate 20 ⟨true, true⟩) = .ok ⟨List.replicate 20 true, 101⟩ := by decide +kernel
  refine ⟨_, hrun, rfl, fun hn => ?_⟩
  have hle := hn.le
  norm_num at hle

end Alignak.Scheduling
