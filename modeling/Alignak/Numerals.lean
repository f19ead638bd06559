import Alignak.Spans
import Alignak.Strip
import Mathlib.Algebra.Order.Floor.Defs
import Mathlib.Algebra.Order.Ring.Rat
import Mathlib.Data.Rat.Floor
import Mathlib.Tactic.IntervalCases

/-!
# Numbers in texts

Python's `int` and `float` on texts: decimal digits of any script, a sign, an
underscore between two digits, and for `float` a point, an exponent and the
names of the values that are not numbers.
-/

namespace Alignak

namespace Numerals

/-- What a conversion raises: `ValueError` or `OverflowError`. -/
inductive Failure
  | value
  | overflow
  deriving DecidableEq

/-! ## Digits -/

def decimalZeros : List Nat :=
  [0x30, 0x660, 0x6f0, 0x7c0, 0x966, 0x9e6, 0xa66, 0xae6, 0xb66, 0xbe6, 0xc66, 0xce6, 0xd66, 0xde6, 0xe50, 0xed0, 0xf20,
    0x1040, 0x1090, 0x17e0, 0x1810, 0x1946, 0x19d0, 0x1a80, 0x1a90, 0x1b50, 0x1bb0, 0x1c40, 0x1c50, 0xa620, 0xa8d0,
    0xa900, 0xa9d0, 0xa9f0, 0xaa50, 0xabf0, 0xff10, 0x104a0, 0x10d30, 0x11066, 0x110f0, 0x11136, 0x111d0, 0x112f0, 0x11450,
    0x114d0, 0x11650, 0x116c0, 0x11730, 0x118e0, 0x11c50, 0x11d50, 0x11da0, 0x16a60, 0x16b50, 0x1d7ce, 0x1d7d8, 0x1d7e2,
    0x1d7ec, 0x1d7f6, 0x1e950]

/-- `unicodedata.decimal` -/
def decimalValue (c : Char) : Option Nat :=
  (decimalZeros.find? fun z => z ≤ c.toNat && c.toNat < z + 10).map (c.toNat - ·)

/-- The class of `\d`. -/
def isDecimal (c : Char) : Bool := (decimalValue c).isSome

def asciiDigit (c : Char) : Char := (decimalValue c).elim c Nat.digitChar

def dropUnderscores (afterDigit : Bool) : List Char → Option (List Char)
  | [] => some []
  | c :: l =>
    if c = '_' then
      if afterDigit && l.head?.any Char.isDigit then dropUnderscores false l else none
    else (dropUnderscores c.isDigit l).map (c :: ·)

def prepared (text : List Char) : Option (List Char) := dropUnderscores false (strip (text.map asciiDigit))

def splitSign : List Char → Bool × List Char
  | '-' :: l => (true, l)
  | '+' :: l => (false, l)
  | l => (false, l)

def readNat (l : List Char) : Option Nat :=
  if !l.isEmpty && l.all Char.isDigit then some (Nat.ofDigitChars 10 l 0) else none

def readSigned (l : List Char) : Option Int :=
  (readNat (splitSign l).2).map fun n => if (splitSign l).1 then -(n : Int) else n

/-- `int(text)` -/
def toInt (text : List Char) : Except Failure Int :=
  match (prepared text).bind readSigned with
  | some n => .ok n
  | none => .error .value

/-! ## Floats -/

def splitFraction : List Char → List Char × List Char
  | '.' :: l => (l.takeWhile Char.isDigit, l.dropWhile Char.isDigit)
  | l => ([], l)

def readExponent : List Char → Option Int
  | [] => some 0
  | c :: l => if c = 'e' ∨ c = 'E' then readSigned l else none

def readDecimal (l : List Char) : Option (Nat × Int) :=
  let whole := l.takeWhile Char.isDigit
  let split := splitFraction (l.dropWhile Char.isDigit)
  if (whole ++ split.1).isEmpty then none
  else (readExponent split.2).map fun e => (Nat.ofDigitChars 10 (whole ++ split.1) 0, e - split.1.length)

def unsignedFloat (l : List Char) : Option Float.Model :=
  let name := l.map Char.toLower
  if name = "inf".toList ∨ name = "infinity".toList then some (.pack (.infinity .positive))
  else if name = "nan".toList then some (.pack .notANumber)
  else (readDecimal l).map fun d => Float.Model.ofScientific d.1 d.2

def withSign (negative : Bool) (x : Float.Model) : Float.Model := if negative then x.neg else x

/-- `float(text)` -/
def toFloat (text : List Char) : Except Failure Float.Model :=
  match (prepared text).bind fun l => (unsignedFloat (splitSign l).2).map (withSign (splitSign l).1) with
  | some x => .ok x
  | none => .error .value

def floatValue (x : Float.Model) : Option Rat :=
  match x.unpack with
  | .zero _ => some 0
  | .finite s m e _ => some (s.apply m * (2 : Rat) ^ e)
  | _ => none

/-- `int(x)` of a float, which drops the fraction. -/
def truncate (x : Float.Model) : Except Failure Int :=
  match x.unpack with
  | .notANumber => .error .value
  | .infinity _ => .error .overflow
  | .zero _ => .ok 0
  | .finite s m e _ => .ok (s.apply (if 0 ≤ e then (m * 2 ^ e.toNat : Nat) else (m / 2 ^ (-e).toNat : Nat)))

/-! ## Decimals -/

structure Decimal where
  /-- The sign, if one is written; `true` is the minus. -/
  sign : Option Bool
  whole : List Char
  fraction : Option (List Char)
  digits : ∀ c ∈ whole ++ fraction.getD [], c.isDigit = true
  some_digit : whole ++ fraction.getD [] ≠ []

namespace Decimal

def signText (d : Decimal) : List Char := d.sign.elim [] fun negative => if negative then ['-'] else ['+']

def body (d : Decimal) : List Char := d.whole ++ d.fraction.elim [] fun f => '.' :: f

def text (d : Decimal) : List Char := d.signText ++ d.body

def isNegative (d : Decimal) : Bool := d.sign.getD false

def mantissa (d : Decimal) : Nat := Nat.ofDigitChars 10 (d.whole ++ d.fraction.getD []) 0

def exponent (d : Decimal) : Int := -(d.fraction.getD []).length

def value (d : Decimal) : Rat := (if d.isNegative then -1 else 1) * d.mantissa * (10 : Rat) ^ d.exponent

def double (d : Decimal) : Float.Model := withSign d.isNegative (Float.Model.ofScientific d.mantissa d.exponent)

end Decimal

section
variable {c : Char} {l : List Char}

theorem forall_of_all {α : Type} {P : α → Prop} [DecidablePred P] {l : List α} (h : (l.all fun x => decide (P x)) = true) :
    ∀ x ∈ l, P x := by
  simpa using h

def digitChars : List Char := "0123456789".toList

theorem mem_digitChars (h : c.isDigit = true) : c ∈ digitChars := by
  unfold Char.isDigit at h
  simp only [Bool.and_eq_true, decide_eq_true_eq] at h
  obtain ⟨k, hk⟩ : ∃ k, c.toNat = k := ⟨_, rfl⟩
  have hlow : 48 ≤ k := hk ▸ h.1
  have hhigh : k ≤ 57 := hk ▸ h.2
  have hc : c = Char.ofNat k := by rw [← hk, Char.ofNat_toNat]
  subst hc
  clear hk h
  interval_cases k <;> decide

theorem digitChars_unsigned : ∀ c ∈ digitChars, c ≠ '-' ∧ c ≠ '+' := forall_of_all (by decide)

theorem digitChars_nameless : ∀ c ∈ digitChars, c.toLower ≠ 'i' ∧ c.toLower ≠ 'n' := forall_of_all (by decide)

theorem decimal_range (h : isDecimal c = true) : (48 ≤ c.toNat ∧ c.toNat ≤ 57) ∨ (1632 ≤ c.toNat ∧ c.toNat < 0x1680) ∨
    (0x1680 < c.toNat ∧ c.toNat < 0x2000) ∨ 0x3000 < c.toNat := by
  have hzeros : ∀ z ∈ decimalZeros, z = 48 ∨ (1632 ≤ z ∧ z + 10 ≤ 0x1680) ∨ (0x1680 < z ∧ z + 10 ≤ 0x2000) ∨ 0x3000 < z := by
    decide
  unfold isDecimal decimalValue at h
  rw [Option.isSome_map, List.find?_isSome] at h
  obtain ⟨z, hz, hin⟩ := h
  have hrange := hzeros z hz
  simp only [Bool.and_eq_true, decide_eq_true_eq] at hin
  omega

theorem decimal_of_digit (h : c.isDigit = true) : isDecimal c = true := by
  have hall : ∀ d ∈ digitChars, isDecimal d = true := forall_of_all (by decide)
  exact hall c (mem_digitChars h)

theorem decimal_not_space (h : isDecimal c = true) : isSpace c = false := by
  have hd := decimal_range h
  simp only [isSpace, Bool.or_eq_false_iff, Bool.and_eq_false_iff, decide_eq_false_iff_not, beq_eq_false_iff_ne]
  omega

theorem others_not_decimal : isDecimal ' ' = false ∧ isDecimal '-' = false ∧ isDecimal '/' = false ∧ isDecimal ':' = false := by decide

def decimalChars : List Char := digitChars ++ ['.', '-', '+']

theorem decimalChars_kept : ∀ c ∈ decimalChars, asciiDigit c = c ∧ isSpace c = false ∧ c ≠ '_' :=
  forall_of_all (by decide)

theorem dropUnderscores_none : ∀ {l : List Char} {b : Bool}, (∀ c ∈ l, c ≠ '_') → dropUnderscores b l = some l
  | [], _, _ => rfl
  | c :: l, b, h => by
    rw [dropUnderscores, if_neg (h c List.mem_cons_self), dropUnderscores_none fun d hd => h d (List.mem_cons_of_mem _ hd)]
    rfl

theorem prepared_decimal (h : ∀ c ∈ l, c ∈ decimalChars) : prepared l = some l := by
  have hmap : l.map asciiDigit = l := by
    rw [List.map_congr_left fun c hc => (decimalChars_kept c (h c hc)).1, List.map_id']
  have hstrip : strip l = l :=
    strip_of_ends (fun c hc => (decimalChars_kept c (h c (List.mem_of_head? hc))).2.1)
      fun c hc => (decimalChars_kept c (h c (List.mem_of_getLast? hc))).2.1
  unfold prepared
  rw [hmap, hstrip]
  exact dropUnderscores_none fun c hc => (decimalChars_kept c (h c hc)).2.2

theorem splitSign_unsigned (h : ∀ c, l.head? = some c → c ≠ '-' ∧ c ≠ '+') : splitSign l = (false, l) := by
  cases l with
  | nil => rfl
  | cons c l =>
    obtain ⟨h1, h2⟩ := h c rfl
    unfold splitSign
    split
    · rename_i heq
      exact absurd (List.cons.inj heq).1 h1
    · rename_i heq
      exact absurd (List.cons.inj heq).1 h2
    · rfl

theorem readNat_digits (hne : l ≠ []) (h : ∀ c ∈ l, c.isDigit = true) : readNat l = some (Nat.ofDigitChars 10 l 0) := by
  have hempty : l.isEmpty = false := by simpa using hne
  unfold readNat
  rw [hempty, List.all_eq_true.mpr h]
  rfl

theorem readSigned_digits (hne : l ≠ []) (h : ∀ c ∈ l, c.isDigit = true) : readSigned l = some (Nat.ofDigitChars 10 l 0 : Int) := by
  have hunsigned : splitSign l = (false, l) :=
    splitSign_unsigned fun c hc => digitChars_unsigned c (mem_digitChars (h c (List.mem_of_head? hc)))
  unfold readSigned
  rw [hunsigned, readNat_digits hne h]
  rfl

theorem toInt_digits (hne : l ≠ []) (h : ∀ c ∈ l, c.isDigit = true) : toInt l = .ok (Nat.ofDigitChars 10 l 0 : Int) := by
  unfold toInt
  rw [prepared_decimal fun c hc => List.mem_append_left _ (mem_digitChars (h c hc)), Option.bind_some, readSigned_digits hne h]

end

namespace Decimal

variable (d : Decimal)

theorem mem_whole {c : Char} (h : c ∈ d.whole) : c.isDigit = true := d.digits c (List.mem_append_left _ h)

theorem mem_fraction {c : Char} {f : List Char} (hf : d.fraction = some f) (h : c ∈ f) : c.isDigit = true :=
  d.digits c (List.mem_append_right _ (by rw [hf]; exact h))

theorem body_chars : ∀ c ∈ d.body, c ∈ digitChars ∨ c = '.' := by
  intro c hc
  unfold body at hc
  rcases List.mem_append.mp hc with hc | hc
  · exact Or.inl (mem_digitChars (d.mem_whole hc))
  · cases hf : d.fraction with
    | none => rw [hf] at hc; cases hc
    | some f =>
      rw [hf] at hc
      rcases List.mem_cons.mp hc with rfl | hc
      · exact Or.inr rfl
      · exact Or.inl (mem_digitChars (d.mem_fraction hf hc))

theorem text_chars : ∀ c ∈ d.text, c ∈ decimalChars := by
  intro c hc
  rcases List.mem_append.mp hc with hc | hc
  · unfold signText at hc
    cases hs : d.sign with
    | none => rw [hs] at hc; cases hc
    | some b =>
      rw [hs] at hc
      cases b with
      | false => rw [show c = '+' by simpa using hc]; decide
      | true => rw [show c = '-' by simpa using hc]; decide
  · rcases d.body_chars c hc with h | rfl
    · exact List.mem_append_left _ h
    · decide

theorem body_ne : d.body ≠ [] := by
  intro h
  have hne := d.some_digit
  unfold body at h
  rw [List.append_eq_nil_iff] at h
  cases hf : d.fraction with
  | none => rw [hf, Option.getD_none, List.append_nil] at hne; exact hne h.1
  | some f => rw [hf] at h; cases h.2

theorem splitSign_text : splitSign d.text = (d.isNegative, d.body) := by
  unfold text signText isNegative
  cases hs : d.sign with
  | some b => cases b <;> rfl
  | none =>
    refine splitSign_unsigned fun c hc => ?_
    have hmem : c ∈ d.body := List.mem_of_head? hc
    rcases d.body_chars c hmem with h | rfl
    · exact digitChars_unsigned c h
    · decide

theorem readDecimal_body : readDecimal d.body = some (d.mantissa, d.exponent) := by
  have hwhole : ∀ c ∈ d.whole, c.isDigit = true := fun c => d.mem_whole
  have hstop : EndsSpan Char.isDigit (d.fraction.elim [] fun f => '.' :: f) := by
    cases d.fraction with
    | none => exact EndsSpan.nil
    | some f => exact EndsSpan.cons (by decide) f
  have hne := d.some_digit
  unfold readDecimal body
  rw [takeWhile_span hwhole hstop, dropWhile_span hwhole hstop]
  unfold mantissa exponent
  cases hf : d.fraction with
  | none =>
    rw [hf] at hne
    have hempty : (d.whole ++ []).isEmpty = false := by simpa using hne
    simp only [Option.elim_none, splitFraction, Option.getD_none, hempty]
    rfl
  | some f =>
    rw [hf] at hne
    have hall : ∀ c ∈ f, c.isDigit = true := fun c => d.mem_fraction hf
    have htake : f.takeWhile Char.isDigit = f := List.takeWhile_eq_self_iff.mpr hall
    have hdrop : f.dropWhile Char.isDigit = [] := List.dropWhile_eq_nil_iff.mpr hall
    have hempty : (d.whole ++ f).isEmpty = false := by simpa using hne
    simp only [Option.elim_some, splitFraction, htake, hdrop, Option.getD_some, hempty]
    simp [readExponent]

theorem unsignedFloat_body : unsignedFloat d.body = some (Float.Model.ofScientific d.mantissa d.exponent) := by
  obtain ⟨c, l, hcl⟩ := List.exists_cons_of_ne_nil d.body_ne
  have hc : c.toLower ≠ 'i' ∧ c.toLower ≠ 'n' := by
    rcases d.body_chars c (by rw [hcl]; exact List.mem_cons_self) with h | rfl
    · exact digitChars_nameless c h
    · decide
  have hhead : (d.body.map Char.toLower).head? = some c.toLower := by rw [hcl]; rfl
  have hinf : ¬ (d.body.map Char.toLower = "inf".toList ∨ d.body.map Char.toLower = "infinity".toList) := by
    intro h
    rcases h with h | h <;> rw [h] at hhead <;> exact hc.1 (Option.some.inj hhead).symm
  have hnan : d.body.map Char.toLower ≠ "nan".toList := by
    intro h
    rw [h] at hhead
    exact hc.2 (Option.some.inj hhead).symm
  unfold unsignedFloat
  simp only [if_neg hinf, if_neg hnan, readDecimal_body, Option.map_some]

theorem toFloat_text : toFloat d.text = .ok d.double := by
  unfold toFloat
  rw [prepared_decimal d.text_chars, Option.bind_some, splitSign_text, unsignedFloat_body]
  rfl

end Decimal

end Numerals

end Alignak
