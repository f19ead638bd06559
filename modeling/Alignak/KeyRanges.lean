import Alignak.Exn
import Alignak.Strip
import Mathlib.Data.List.TakeWhile
import Mathlib.Data.List.Count

/-!
# The ranges of a key

`expand_ranges` looks at the first bracket of a key. Where it opens a range the
number of the range is put in its place, one after the other, and the new key is
expanded again.
-/

namespace Alignak

/-- The loop of a generator: what the turns yield, up to one that raises. -/
def yieldAll {ε α β : Type} (f : α → Except ε (List β)) : List α → Except ε (List β)
  | [] => .ok []
  | a :: l => do
    let xs ← f a
    let ys ← yieldAll f l
    return xs ++ ys

/-- The decimal digits as `\d` and `int` know them. -/
structure Digits where
  value : Char → Option Nat
  newline : value '\n' = none

def Digits.ascii : Digits where
  value := fun c => if c.isDigit then some (c.toNat - '0'.toNat) else none
  newline := rfl

/-- `[first-last/step]`. -/
structure KeyRange where
  first : Nat
  last : Nat
  step : Nat
  deriving DecidableEq, Repr

namespace KeyRange

/-- `range(first, last + 1, step)`, which does not take 0 for a step. -/
def numbers (r : KeyRange) : Except Exn (List Nat) :=
  if r.step = 0 then .error .valueError
  else .ok (List.range' r.first ((r.last + 1 - r.first + (r.step - 1)) / r.step) r.step)

end KeyRange

/-! ## The regular expression -/

section
variable (digits : Digits)

def Digits.isDigit (c : Char) : Bool := (digits.value c).isSome

def Digits.number (text : List Char) : Nat := text.foldl (fun n c => 10 * n + (digits.value c).getD 0) 0

/-- `\d+`. -/
def readNumber (text : List Char) : Option (Nat × List Char) :=
  if text.takeWhile digits.isDigit = [] then none
  else some (digits.number (text.takeWhile digits.isDigit), text.dropWhile digits.isDigit)

def readChar (c : Char) : List Char → Option (List Char)
  | [] => none
  | d :: text => if d = c then some text else none

/-- `(?:/(?P<step>\d+))?`, 1 when there is none. -/
def readStep (text : List Char) : Option (Nat × List Char) :=
  match readChar '/' text with
  | none => some (1, text)
  | some text => readNumber digits text

def readRange (text : List Char) : Option (KeyRange × List Char) := do
  let text ← readChar '[' text
  let (first, text) ← readNumber digits text
  let text ← readChar '-' text
  let (last, text) ← readNumber digits text
  let (step, text) ← readStep digits text
  let after ← readChar ']' text
  return (⟨first, last, step⟩, after)

/-- `.*$`: a newline can only be the last character, and is left out. -/
def restOfLine : List Char → Option (List Char)
  | [] => some []
  | c :: text =>
    if c = '\n' then (if text = [] then some [] else none)
    else (restOfLine text).map (c :: ·)

structure RangeMatch where
  before : List Char
  range : Option KeyRange
  after : List Char
  deriving DecidableEq, Repr

/-- `RANGE_REGEX`. The range is optional, so it is given up where what is behind
it does not match. -/
def rangeMatch (value : List Char) : Option RangeMatch :=
  let before := value.takeWhile (· ≠ '[')
  let text := value.dropWhile (· ≠ '[')
  match readRange digits text with
  | none => (restOfLine text).map fun after => ⟨before, none, after⟩
  | some (r, behind) =>
    match restOfLine behind with
    | some after => some ⟨before, some r, after⟩
    | none => (restOfLine text).map fun after => ⟨before, none, after⟩

def expandWithin : Nat → List Char → Except Exn (List (List Char))
  | 0, _ => .error .diverges
  | fuel + 1, value =>
    match rangeMatch digits value with
    | none => .error .attributeError
    | some ⟨before, range, after⟩ =>
      match range with
      | none => .ok [value]
      | some r => do
        let numbers ← r.numbers
        yieldAll (fun idx => expandWithin fuel (before ++ Nat.toDigits 10 idx ++ after)) numbers

def expandRanges (value : List Char) : Except Exn (List (List Char)) := expandWithin digits (value.count '[' + 1) value

/-! ## The keys that are meant -/

inductive Segment
  | char (c : Char)
  | range (r : KeyRange)
  deriving DecidableEq, Repr

def Segment.isRange : Segment → Bool
  | .char _ => false
  | .range _ => true

def segmentsAfter : Nat → List Char → List Segment
  | _, [] => []
  | covered + 1, _ :: text => segmentsAfter covered text
  | 0, c :: text =>
    match readRange digits (c :: text) with
    | none => .char c :: segmentsAfter 0 text
    | some (r, after) => .range r :: segmentsAfter (text.length - after.length) text

def segments (text : List Char) : List Segment := segmentsAfter digits 0 text

end

def product : List Segment → Option (List (List Char))
  | [] => some [[]]
  | .char c :: rest => (product rest).map fun texts => texts.map (c :: ·)
  | .range r :: rest =>
    match r.numbers with
    | .error _ => none
    | .ok numbers =>
      if numbers = [] then some []
      else (product rest).map fun texts => numbers.flatMap fun idx => texts.map (Nat.toDigits 10 idx ++ ·)

inductive Meeting
  | nothing
  | zeroStep
  | strayBracket
  deriving DecidableEq, Repr

def meeting : List Segment → Meeting
  | [] => .nothing
  | .char c :: rest =>
    if c = '[' then (if rest.any Segment.isRange then .strayBracket else .nothing) else meeting rest
  | .range r :: rest => if r.step = 0 then .zeroStep else if r.last < r.first then .nothing else meeting rest

end Alignak
