import Alignak.KeyExpansion
import Alignak.KeyValues
import Mathlib.Algebra.Order.BigOperators.Group.List
import Mathlib.Algebra.GroupWithZero.Nat
import Mathlib.Data.List.MinMax

/-!
# The keys and values of a duplicated service

`generate_key_value_sequences` yields one entry for each key of the product of
the ranges of a piece.
-/

namespace Alignak

/-- The entry of a key: `KEY`, `VALUE` and `VALUE1`, `VALUE2`, … -/
structure KeyValue where
  key : List Char
  value : List Char
  numbered : List (List Char)
  deriving DecidableEq, Repr

/-- The values of the piece, or the default. `VALUE` is `VALUE1`. -/
def withValues (defaultValue : List Char) (values : List (List Char)) (key : List Char) : KeyValue :=
  match values with
  | [] => ⟨key, defaultValue, [defaultValue]⟩
  | value :: _ => ⟨key, value, values⟩

inductive KeyValueSyntaxError
  | invalidPattern (value : List Char)
  | noKey
  deriving DecidableEq, Repr

inductive SequenceError
  | syntaxError (e : KeyValueSyntaxError)
  | raised (e : Exn)
  deriving DecidableEq, Repr

section
variable (digits : Digits) (defaultValue : List Char)

def pieceSequences (piece : List Char) : Except SequenceError (List KeyValue) :=
  match keyValues piece with
  | none => .error (.syntaxError (.invalidPattern piece))
  | some (key, values) =>
    match expandRanges digits key with
    | .error e => .error (.raised e)
    | .ok subkeys => .ok (subkeys.map (withValues defaultValue values))

def generateKeyValueSequences (entry : List Char) : Except SequenceError (List KeyValue) := do
  let yielded ← yieldAll (pieceSequences digits defaultValue) (pieces entry)
  if yielded = [] then .error (.syntaxError .noKey) else return yielded

/-! ## What is meant -/

inductive Describes : List Char → List KeyValue → Prop
  | mk {piece key : List Char} {values texts : List (List Char)} (written : KeyText piece key values)
      (meant : product (segments digits key) = some texts) : Describes piece (texts.map (withValues defaultValue values))

/-- The entries are yielded, or the syntax error is raised. -/
inductive Conforms (entry : List Char) : Except SequenceError (List KeyValue) → Prop
  | yields {groups : List (List KeyValue)} (described : List.Forall₂ (Describes digits defaultValue) (pieces entry) groups) :
      Conforms entry (.ok groups.flatten)
  | syntaxError (e : KeyValueSyntaxError) : Conforms entry (.error (.syntaxError e))

def Regular (piece : List Char) : Prop :=
  ∀ key values, keyValues piece = some (key, values) →
    '\n' ∉ key.dropWhile (· ≠ '[') ∧ meeting (segments digits key) ≠ .zeroStep

def Unblocked (piece : List Char) : Prop :=
  ∀ key values, keyValues piece = some (key, values) → meeting (segments digits key) ≠ .strayBracket

def wellWritten (piece : List Char) : Bool := (keyValues piece).isSome

/-- The pieces before the first that is no key are regular, and where all are
keys nothing keeps a range from being expanded. -/
structure Expandable (entry : List Char) : Prop where
  regular : ∀ piece ∈ (pieces entry).takeWhile wellWritten, Regular digits piece
  unblocked : (pieces entry).all wellWritten = true → ∀ piece ∈ pieces entry, Unblocked digits piece

end

/-! ## Lists that are told apart by a measure -/

section
variable {α β : Type} {l : List α} {g h : α → List β}

theorem not_below {l : List β} (f : β → Nat) (hne : l ≠ []) : ¬ ∀ x ∈ l, ∃ y ∈ l, f x < f y := by
  intro hbelow
  obtain ⟨m, hm⟩ := Option.ne_none_iff_exists'.mp (mt List.argmax_eq_none.mp hne : l.argmax f ≠ none)
  obtain ⟨y, hy, hlt⟩ := hbelow m (List.argmax_mem hm)
  exact absurd (List.le_of_mem_argmax hy hm) (Nat.not_le.mpr hlt)

theorem flatMap_ne (f : β → Nat) (hall : ∀ a ∈ l, g a = h a ∨ (g a ≠ [] ∧ ∀ x ∈ h a, ∃ y ∈ g a, f x < f y))
    {a : α} (ha : a ∈ l) (hdiff : g a ≠ h a) : l.flatMap g ≠ l.flatMap h := by
  classical
  intro heq
  have hdiffs : ∀ b ∈ l, g b ≠ h b → g b ≠ [] ∧ ∀ x ∈ h b, ∃ y ∈ g b, f x < f y := fun b hb hne => (hall b hb).resolve_left hne
  let others := (l.filter fun b => g b ≠ h b).flatMap g
  have hmem : ∀ b ∈ l, g b ≠ h b → ∀ y ∈ g b, y ∈ others := fun b hb hne y hy =>
    List.mem_flatMap.mpr ⟨b, List.mem_filter.mpr ⟨hb, by simpa using hne⟩, hy⟩
  obtain ⟨z, hz⟩ := List.exists_mem_of_ne_nil _ (hdiffs a ha hdiff).1
  obtain ⟨m, hm⟩ := Option.ne_none_iff_exists'.mp
    (mt List.argmax_eq_none.mp (List.ne_nil_of_mem (hmem a ha hdiff z hz)) : others.argmax f ≠ none)
  obtain ⟨b, hb, hmb⟩ := List.mem_flatMap.mp (List.argmax_mem hm)
  obtain ⟨hbl, hbne⟩ := List.mem_filter.mp hb
  -- what is counted: the values as great as the greatest
  have hzero : ∀ c ∈ l, g c ≠ h c → (h c).countP (f m ≤ f ·) = 0 := by
    intro c hc hne
    refine List.countP_eq_zero.mpr fun x hx => ?_
    obtain ⟨y, hy, hlt⟩ := (hdiffs c hc hne).2 x hx
    have := List.le_of_mem_argmax (hmem c hc hne y hy) hm
    simp only [decide_eq_true_eq]
    omega
  have hsum : (l.map fun c => (h c).countP (f m ≤ f ·)).sum < (l.map fun c => (g c).countP (f m ≤ f ·)).sum := by
    refine List.sum_lt_sum _ _ (fun c hc => ?_) ⟨b, hbl, ?_⟩
    · by_cases hne : g c = h c
      · rw [hne]
      · rw [hzero c hc hne]
        exact Nat.zero_le _
    · rw [hzero b hbl (by simpa using hbne)]
      exact List.countP_pos_iff.mpr ⟨m, hmb, by simp⟩
  have hcount := congrArg (List.countP (f m ≤ f ·)) heq
  rw [List.countP_flatMap, List.countP_flatMap] at hcount
  exact absurd hcount.symm (Nat.ne_of_lt hsum)

end

/-! ## The turns -/

section
variable {digits : Digits} {defaultValue piece key : List Char} {values : List (List Char)} {l : List (List Char)}

theorem withValues_key (values : List (List Char)) : (withValues defaultValue values key).key = key := by
  cases values <;> rfl

theorem pieceSequences_invalid (h : wellWritten piece = false) :
    pieceSequences digits defaultValue piece = .error (.syntaxError (.invalidPattern piece)) := by
  have hnone : keyValues piece = none := by simpa [wellWritten] using h
  rw [pieceSequences, hnone]

theorem pieceSequences_error {e : Exn} (h : keyValues piece = some (key, values)) (he : expandRanges digits key = .error e) :
    pieceSequences digits defaultValue piece = .error (.raised e) := by
  rw [pieceSequences, h]
  simp only [he]

theorem pieceSequences_ok {texts : List (List Char)} (h : keyValues piece = some (key, values)) (he : expandRanges digits key = .ok texts) :
    pieceSequences digits defaultValue piece = .ok (texts.map (withValues defaultValue values)) := by
  rw [pieceSequences, h]
  simp only [he]

theorem wellWritten_iff : wellWritten piece = true ↔ ∃ key values, keyValues piece = some (key, values) := by
  rw [wellWritten, Option.isSome_iff_exists]
  constructor
  · rintro ⟨p, hp⟩
    exact ⟨p.1, p.2, hp⟩
  · rintro ⟨key, values, h⟩
    exact ⟨_, h⟩

theorem pieceSequences_regular (defaultValue : List Char) (h : keyValues piece = some (key, values)) (hreg : Regular digits piece) :
    ∃ texts, pieceSequences digits defaultValue piece = .ok (texts.map (withValues defaultValue values)) ∧
      (meeting (segments digits key) = .nothing ∧ product (segments digits key) = some texts ∨
        meeting (segments digits key) = .strayBracket ∧ texts ≠ [] ∧ Shrunk texts (product (segments digits key))) := by
  obtain ⟨hline, hstep⟩ := hreg key values h
  cases hr : expandRanges digits key with
  | error e =>
    have hexp : Expands (segments digits key) (expandRanges digits key) := expandRanges_segments hline
    rw [hr] at hexp
    cases hexp with
    | zeroStep meets => exact absurd meets hstep
  | ok texts =>
    have hexp : Expands (segments digits key) (expandRanges digits key) := expandRanges_segments hline
    rw [hr] at hexp
    refine ⟨texts, pieceSequences_ok h hr, ?_⟩
    cases hexp with
    | product meets eq => exact Or.inl ⟨meets, eq⟩
    | strayBracket meets ne shrunk => exact Or.inr ⟨meets, ne, shrunk⟩

theorem pieceSequences_irregular (defaultValue : List Char) (hs : Stripped piece) (h : keyValues piece = some (key, values)) (hreg : ¬ Regular digits piece) :
    ∃ e, e ≠ .diverges ∧ pieceSequences digits defaultValue piece = .error (.raised e) := by
  by_cases hline : '\n' ∈ key.dropWhile (· ≠ '[')
  · have hlast : key.getLast? ≠ some '\n' := fun hl => by
      cases keyValues_sound hs h with
      | mk stripped free spaces rest =>
        have hspace := stripped.last stripped.ne
        rw [List.getLast?_eq_some_getLast stripped.ne] at hl
        rw [Option.some.inj hl] at hspace
        cases hspace
    exact ⟨.attributeError, by decide, pieceSequences_error h (expandRanges_newline hline hlast)⟩
  · have hstep : meeting (segments digits key) = .zeroStep := by
      by_contra hstep
      refine hreg fun key' values' h' => ?_
      rw [h] at h'
      cases h'
      exact ⟨hline, hstep⟩
    cases hr : expandRanges digits key with
    | error e =>
      have hexp : Expands (segments digits key) (expandRanges digits key) := expandRanges_segments hline
      rw [hr] at hexp
      cases hexp with
      | zeroStep => exact ⟨.valueError, by decide, pieceSequences_error h hr⟩
    | ok texts =>
      have hexp : Expands (segments digits key) (expandRanges digits key) := expandRanges_segments hline
      rw [hr] at hexp
      cases hexp with
      | product meets eq => rw [hstep] at meets; cases meets
      | strayBracket meets ne shrunk => rw [hstep] at meets; cases meets

theorem yieldAll_regular (defaultValue : List Char) (hall : l.all wellWritten = true) (hreg : ∀ piece ∈ l, Regular digits piece) :
    ∀ piece ∈ l, pieceSequences digits defaultValue piece = .ok ((pieceSequences digits defaultValue piece).toOption.getD []) := by
  intro piece hp
  obtain ⟨key, values, h⟩ := wellWritten_iff.mp (List.all_eq_true.mp hall piece hp)
  obtain ⟨texts, ht, -⟩ := pieceSequences_regular defaultValue h (hreg piece hp)
  rw [ht]
  rfl

theorem yieldAll_invalid (defaultValue : List Char) (hall : l.all wellWritten = false) (hreg : ∀ piece ∈ l.takeWhile wellWritten, Regular digits piece) :
    ∃ e, yieldAll (pieceSequences digits defaultValue) l = .error (.syntaxError e) := by
  obtain ⟨piece, rest, hrest⟩ := List.exists_cons_of_ne_nil (l := l.dropWhile wellWritten) fun hnil => by
    rw [List.all_eq_true.mpr (List.dropWhile_eq_nil_iff.mp hnil)] at hall
    cases hall
  have hpiece : wellWritten piece = false := by
    have hhead := List.head?_dropWhile_not wellWritten l
    rw [hrest] at hhead
    exact hhead
  have hok := yieldAll_regular defaultValue (l := l.takeWhile wellWritten)
    (List.all_eq_true.mpr fun p hp => List.mem_takeWhile_imp hp) hreg
  refine ⟨.invalidPattern piece, ?_⟩
  rw [← List.takeWhile_append_dropWhile (p := wellWritten) (l := l), hrest]
  exact yieldAll_error hok (pieceSequences_invalid hpiece)

/-- An irregular piece raises what no caller waits for. -/
theorem yieldAll_irregular (defaultValue : List Char) (hs : ∀ piece ∈ l, Stripped piece) (h : ¬ ∀ piece ∈ l.takeWhile wellWritten, Regular digits piece) :
    ∃ e, e ≠ .diverges ∧ yieldAll (pieceSequences digits defaultValue) l = .error (.raised e) := by
  induction l with
  | nil => exact absurd (fun _ hp => absurd hp List.not_mem_nil) h
  | cons piece l ih =>
    cases hw : wellWritten piece with
    | false =>
      rw [List.takeWhile_cons_of_neg (by rw [hw]; exact Bool.false_ne_true)] at h
      exact absurd (fun _ hp => absurd hp List.not_mem_nil) h
    | true =>
      obtain ⟨key, values, hk⟩ := wellWritten_iff.mp hw
      by_cases hreg : Regular digits piece
      · rw [List.takeWhile_cons_of_pos hw] at h
        have hrest : ¬ ∀ p ∈ l.takeWhile wellWritten, Regular digits p := fun hall => h fun p hp => by
          rcases List.mem_cons.mp hp with rfl | hp
          · exact hreg
          · exact hall p hp
        obtain ⟨e, hne, he⟩ := ih (fun p hp => hs p (List.mem_cons_of_mem _ hp)) hrest
        obtain ⟨texts, ht, -⟩ := pieceSequences_regular defaultValue hk hreg
        refine ⟨e, hne, ?_⟩
        rw [yieldAll, ht, he]
        rfl
      · obtain ⟨e, hne, he⟩ := pieceSequences_irregular defaultValue (hs piece List.mem_cons_self) hk hreg
        refine ⟨e, hne, ?_⟩
        rw [yieldAll, he]
        rfl

theorem describes_turn (hreg : Regular digits piece) {group : List KeyValue}
    (hd : Describes digits defaultValue piece group) :
    (Unblocked digits piece → (pieceSequences digits defaultValue piece).toOption.getD [] = group) ∧
    (¬ Unblocked digits piece → (pieceSequences digits defaultValue piece).toOption.getD [] ≠ [] ∧
      ∀ x ∈ group, ∃ y ∈ (pieceSequences digits defaultValue piece).toOption.getD [], x.key.count '[' < y.key.count '[') := by
  obtain ⟨written, meant⟩ := hd
  rename_i key values meantTexts
  have hk := keyValues_written written
  obtain ⟨texts, ht, hcase⟩ := pieceSequences_regular defaultValue hk hreg
  have hun : ¬ Unblocked digits piece ↔ meeting (segments digits key) = .strayBracket := by
    constructor
    · intro h
      by_contra hm
      refine h fun key' values' h' => ?_
      rw [hk] at h'
      cases h'
      exact hm
    · exact fun hm h => h key values hk hm
  rw [ht]
  constructor
  · intro hu
    rcases hcase with ⟨-, heq⟩ | ⟨hstray, -⟩
    · rw [meant] at heq
      cases heq
      rfl
    · exact absurd hu (hun.mpr hstray)
  · intro hu
    rcases hcase with ⟨hnothing, -⟩ | ⟨-, hne, hshrunk⟩
    · rw [hun.mp hu] at hnothing
      cases hnothing
    · refine ⟨fun e => hne (List.map_eq_nil_iff.mp e), fun x hx => ?_⟩
      obtain ⟨t, htx, rfl⟩ := List.mem_map.mp hx
      obtain ⟨y, hy, hlt⟩ := hshrunk _ meant t htx
      refine ⟨_, List.mem_map_of_mem hy, ?_⟩
      rwa [withValues_key, withValues_key]

theorem describes_exists (hs : Stripped piece) (hw : wellWritten piece = true) (hreg : Regular digits piece)
    (hu : Unblocked digits piece) : Describes digits defaultValue piece ((pieceSequences digits defaultValue piece).toOption.getD []) := by
  obtain ⟨key, values, hk⟩ := wellWritten_iff.mp hw
  obtain ⟨texts, ht, hcase⟩ := pieceSequences_regular defaultValue hk hreg
  rw [ht]
  rcases hcase with ⟨-, heq⟩ | ⟨hstray, -⟩
  · exact ⟨keyValues_sound hs hk, heq⟩
  · exact absurd hstray (hu key values hk)

variable (digits defaultValue) in
def describedBy (piece : List Char) : List KeyValue :=
  match keyValues piece with
  | none => []
  | some (key, values) => ((product (segments digits key)).getD []).map (withValues defaultValue values)

theorem Describes.eq {group : List KeyValue} (h : Describes digits defaultValue piece group) :
    describedBy digits defaultValue piece = group := by
  obtain ⟨written, meant⟩ := h
  rw [describedBy, keyValues_written written]
  simp only [meant, Option.getD_some]

theorem describes_groups {groups : List (List KeyValue)} (h : List.Forall₂ (Describes digits defaultValue) l groups) :
    groups = l.map (describedBy digits defaultValue) := by
  induction h with
  | nil => rfl
  | cons hd _ ih => rw [List.map_cons, hd.eq, ← ih]

theorem unblocked_of_nothing (hall : l.all wellWritten = true) (hreg : ∀ piece ∈ l, Regular digits piece)
    (hnil : (l.flatMap fun p => (pieceSequences digits defaultValue p).toOption.getD []) = []) : ∀ piece ∈ l, Unblocked digits piece := by
  intro piece hp
  obtain ⟨key, values, hk⟩ := wellWritten_iff.mp (List.all_eq_true.mp hall piece hp)
  obtain ⟨texts, ht, hcase⟩ := pieceSequences_regular defaultValue hk (hreg piece hp)
  have hempty := List.flatMap_eq_nil_iff.mp hnil piece hp
  rw [ht] at hempty
  intro key' values' h'
  rw [hk] at h'
  cases h'
  rcases hcase with ⟨hm, -⟩ | ⟨-, hne, -⟩
  · rw [hm]
    decide
  · exact absurd (List.map_eq_nil_iff.mp hempty) hne

theorem unblocked_of_described {groups : List (List KeyValue)} (hreg : ∀ piece ∈ l, Regular digits piece)
    (hd : List.Forall₂ (Describes digits defaultValue) l groups)
    (heq : (l.flatMap fun p => (pieceSequences digits defaultValue p).toOption.getD []) = groups.flatten) :
    ∀ piece ∈ l, Unblocked digits piece := by
  intro piece hp
  by_contra hblocked
  obtain rfl := describes_groups hd
  have hdescribed : ∀ p ∈ l, Describes digits defaultValue p (describedBy digits defaultValue p) :=
    List.forall₂_same.mp (List.forall₂_map_right_iff.mp hd)
  have hturn := fun p hp => describes_turn (hreg p hp) (hdescribed p hp)
  refine flatMap_ne (fun x : KeyValue => x.key.count '[') (h := describedBy digits defaultValue) (fun p hp => ?_) hp ?_ heq
  · by_cases hu : Unblocked digits p
    · exact Or.inl ((hturn p hp).1 hu)
    · exact Or.inr ((hturn p hp).2 hu)
  · intro heq
    obtain ⟨hne, hbelow⟩ := (hturn piece hp).2 hblocked
    rw [heq] at hne hbelow
    exact not_below (fun x : KeyValue => x.key.count '[') hne hbelow

/-- All pieces are keys that raise nothing. -/
theorem conforms_iff_unblocked (defaultValue : List Char) {entry : List Char} (hall : (pieces entry).all wellWritten = true)
    (hreg : ∀ piece ∈ pieces entry, Regular digits piece) :
    generateKeyValueSequences digits defaultValue entry ≠ .error (.raised .diverges) ∧
      (Conforms digits defaultValue entry (generateKeyValueSequences digits defaultValue entry) ↔
        ∀ piece ∈ pieces entry, Unblocked digits piece) := by
  have hyield := yieldAll_ok (yieldAll_regular defaultValue hall hreg)
  by_cases hnil : ((pieces entry).flatMap fun p => (pieceSequences digits defaultValue p).toOption.getD []) = []
  · have hgen : generateKeyValueSequences digits defaultValue entry = .error (.syntaxError .noKey) := by
      rw [generateKeyValueSequences, hyield]
      exact if_pos hnil
    rw [hgen]
    exact ⟨by simp, fun _ => unblocked_of_nothing hall hreg hnil, fun _ => .syntaxError _⟩
  · have hgen : generateKeyValueSequences digits defaultValue entry =
        .ok ((pieces entry).flatMap fun p => (pieceSequences digits defaultValue p).toOption.getD []) := by
      rw [generateKeyValueSequences, hyield]
      exact if_neg hnil
    rw [hgen]
    refine ⟨by simp, fun hconf => ?_, fun hun => ?_⟩
    · generalize hr : Except.ok ((pieces entry).flatMap fun p => (pieceSequences digits defaultValue p).toOption.getD []) = result at hconf
      cases hconf with
      | syntaxError e => cases hr
      | yields hd => exact unblocked_of_described hreg hd (Except.ok.inj hr)
    · have hgroups : List.Forall₂ (Describes digits defaultValue) (pieces entry)
          ((pieces entry).map fun p => (pieceSequences digits defaultValue p).toOption.getD []) := by
        refine List.forall₂_map_right_iff.mpr (List.forall₂_same.mpr fun p hp => ?_)
        exact describes_exists (pieces_stripped hp) (List.all_eq_true.mp hall p hp) (hreg p hp) (hun p hp)
      exact .yields hgroups

variable (digits defaultValue) in
/-- The generator ends on every entry. It yields what is described, or raises
the syntax error, just where the entry is expandable. -/
theorem generateKeyValueSequences_iff (entry : List Char) :
    generateKeyValueSequences digits defaultValue entry ≠ .error (.raised .diverges) ∧
      (Conforms digits defaultValue entry (generateKeyValueSequences digits defaultValue entry) ↔ Expandable digits entry) := by
  by_cases hreg : ∀ piece ∈ (pieces entry).takeWhile wellWritten, Regular digits piece
  · cases hall : (pieces entry).all wellWritten with
    | false =>
      obtain ⟨e, he⟩ := yieldAll_invalid defaultValue hall hreg
      have hgen : generateKeyValueSequences digits defaultValue entry = .error (.syntaxError e) := by
        rw [generateKeyValueSequences, he]
        rfl
      rw [hgen]
      refine ⟨by simp, fun _ => ⟨hreg, fun h => ?_⟩, fun _ => .syntaxError e⟩
      rw [hall] at h
      cases h
    | true =>
      have hself : (pieces entry).takeWhile wellWritten = pieces entry := List.takeWhile_eq_self_iff.mpr (List.all_eq_true.mp hall)
      have hpieces : ∀ piece ∈ pieces entry, Regular digits piece := fun p hp => hreg p (hself.symm ▸ hp)
      obtain ⟨hends, hiff⟩ := conforms_iff_unblocked defaultValue hall hpieces
      refine ⟨hends, hiff.trans ⟨fun hun => ⟨hreg, fun _ => hun⟩, fun hexp => hexp.unblocked hall⟩⟩
  · have hs : ∀ piece ∈ pieces entry, Stripped piece := fun piece hp => pieces_stripped hp
    obtain ⟨e, hne, he⟩ := yieldAll_irregular defaultValue hs hreg
    have hgen : generateKeyValueSequences digits defaultValue entry = .error (.raised e) := by
      rw [generateKeyValueSequences, he]
      rfl
    rw [hgen]
    refine ⟨fun h => ?_, fun hconf => ?_, fun hexp => absurd hexp.regular hreg⟩
    · cases h
      exact hne rfl
    · cases hconf

/-- A range with step 0 raises a `ValueError` that is no syntax error. -/
theorem zeroStep_raises : ¬ Conforms Digits.ascii [] "web[1-3/0]".toList (generateKeyValueSequences Digits.ascii [] "web[1-3/0]".toList) := by
  have hraise : generateKeyValueSequences Digits.ascii [] "web[1-3/0]".toList = .error (.raised .valueError) := by decide
  rw [hraise]
  intro h
  cases h

end

end Alignak
