import Alignak.Dict
import Alignak.Exn
import Alignak.Numerals

/-!
# Performance data

A text of performance data is cut into elements, one for each `=`, and each
element is read as a metric with a name, a value, a unit and four fields that
may be empty.
-/

namespace Alignak

namespace Perfdata

open Numerals

abbrev Text := List Char

/-! ## Numbers -/

inductive Number
  | int (n : Int)
  | float (x : Float.Model)
  deriving DecidableEq

def Number.value : Number → Option Rat
  | int n => some n
  | float x => floatValue x

def toBestIntFloat (val : Text) : Except Failure Number := do
  let flt ← toFloat val
  let integer ← truncate flt
  return if floatValue flt = some (integer : Rat) then .int integer else .float flt

/-- No group is `None`, which is not a number; only a `ValueError` is caught. -/
def guessIntOrFloat : Option Text → Except Failure (Option Number)
  | none => .ok none
  | some val =>
    match toBestIntFloat val with
    | .ok n => .ok (some n)
    | .error .value => .ok none
    | .error .overflow => .error .overflow

/-! ## Patterns -/

section
/-! `alnum` is `str.isalnum` on the characters beyond ASCII. -/
variable (alnum : Char → Bool)

/-- `[\d\.\-\+eE]` -/
def isNumber (c : Char) : Bool := isDecimal c || ['.', '-', '+', 'e', 'E'].contains c

/-- `[\d\.\-\+eE:~@]` -/
def isRange (c : Char) : Bool := isNumber c || [':', '~', '@'].contains c

/-- `\w` -/
def isWord (c : Char) : Bool := c.isAlphanum || c == '_' || (128 ≤ c.toNat && alnum c)

/-- `[\w\/%]` -/
def isUnit (c : Char) : Bool := isWord alnum c || ['/', '%'].contains c

def isNoSpace (c : Char) : Bool := !isSpace c

/-- `([^=]+=\S+)` at the start of a text: what it matches, and what follows. -/
def matchElement (l : Text) : Option (Text × Text) :=
  let name := l.takeWhile (· != '=')
  let rest := (l.dropWhile (· != '=')).tail
  let value := rest.takeWhile isNoSpace
  if !name.isEmpty && l.contains '=' && !value.isEmpty then some (name ++ '=' :: value, rest.dropWhile isNoSpace) else none

/-- `findall`: from one match to the next, past a character where there is none. -/
def findall : Nat → Text → List Text
  | 0, _ => []
  | _ + 1, [] => []
  | fuel + 1, c :: l =>
    match matchElement (c :: l) with
    | some r => r.1 :: findall fuel r.2
    | none => findall fuel l

structure Groups where
  name : Text
  value : Text
  uom : Text
  warning : Option Text
  critical : Option Text
  min : Option Text
  max : Option Text

/-- `;?([...]+)?`: the group, and what follows. -/
def matchField (cls : Char → Bool) (l : Text) : Option Text × Text :=
  let l := if l.head? = some ';' then l.tail else l
  (if (l.takeWhile cls).isEmpty then none else some (l.takeWhile cls), l.dropWhile cls)

def matchMetric (s : Text) : Option Groups :=
  let name := s.takeWhile (· != '=')
  let rest := (s.dropWhile (· != '=')).tail
  let value := rest.takeWhile isNumber
  let afterValue := rest.dropWhile isNumber
  let warning := matchField isRange (afterValue.dropWhile (isUnit alnum))
  let critical := matchField isRange warning.2
  let min := matchField isNumber critical.2
  let max := matchField isNumber min.2
  if !name.isEmpty && s.contains '=' && !value.isEmpty then
    some ⟨name, value, afterValue.takeWhile (isUnit alnum), warning.1, critical.1, min.1, max.1⟩
  else none

/-! ## Metrics -/

structure Metric where
  name : Text
  value : Option Number
  uom : Text
  warning : Option Number
  critical : Option Number
  min : Option Number
  max : Option Number

def unquoted (name : Text) : Text := name.filter (· != '\'')

def Groups.metric (g : Groups) : Except Failure Metric := do
  let value ← guessIntOrFloat (some g.value)
  let warning ← guessIntOrFloat g.warning
  let critical ← guessIntOrFloat g.critical
  let min ← guessIntOrFloat g.min
  let max ← guessIntOrFloat g.max
  let percent := g.uom == ['%']
  return ⟨unquoted g.name, value, g.uom, warning, critical, if percent then some (.int 0) else min,
    if percent then some (.int 100) else max⟩

/-- `Metric(string)`, which has no name if nothing matches. -/
def Metric.ofText (string : Text) : Except Failure (Option Metric) :=
  match matchMetric alnum (strip string) with
  | none => .ok none
  | some g => g.metric.map some

def addMetric (metrics : Dict Text Metric) (elem : Text) : Except Failure (Dict Text Metric) := do
  let metric ← Metric.ofText alnum elem
  return metric.elim metrics fun m => metrics.set m.name m

/-- `PerfDatas(string).metrics` -/
def perfDatas (string : Text) : Except Failure (Dict Text Metric) :=
  ((findall string.length string).filter fun e => !e.isEmpty).foldlM (addMetric alnum) Dict.empty

end

/-! ## Texts in the format of the plugins -/

section
variable (alnum : Char → Bool)

def isLetter (c : Char) : Bool := c.isAlpha || (128 ≤ c.toNat && alnum c && !isDecimal c && !isSpace c)

structure Label where
  quoted : Bool
  text : Text
  noEquals : '=' ∉ text
  plain : quoted = false → text ≠ [] ∧ ∀ c, text.head? = some c → isSpace c = false ∧ c ≠ '\''

def Label.written (label : Label) : Text := if label.quoted then '\'' :: label.text ++ ['\''] else label.text

structure Entry where
  label : Label
  value : Decimal
  unit : Text
  letters : ∀ c ∈ unit, isLetter alnum c = true ∨ c = '/' ∨ c = '%'
  start : ∀ c, unit.head? = some c → c ≠ 'e' ∧ c ≠ 'E'
  fields : List (Option Decimal)
  four : fields.length ≤ 4

structure Line where
  lead : Text
  entries : List (Entry alnum × Text)
  leadBlank : Blank lead
  gapBlank : ∀ m ∈ entries, Blank m.2
  apart : ∀ m ∈ entries.dropLast, m.2 ≠ []

end

section
variable {alnum : Char → Bool}

def fieldText (field : Option Decimal) : Text := ';' :: field.elim [] Decimal.text

namespace Entry

variable (e : Entry alnum)

def name : Text := unquoted e.label.text

def data : Text := e.value.text ++ (e.unit ++ e.fields.flatMap fieldText)

def text : Text := e.label.written ++ '=' :: e.data

def field (i : Nat) : Option Decimal := (e.fields[i]?).join

def numbers : List Decimal := e.value :: e.fields.filterMap id

def shown : List Decimal :=
  e.value :: (e.field 0).toList ++ (e.field 1).toList ++
    if e.unit = ['%'] then [] else (e.field 2).toList ++ (e.field 3).toList

end Entry

namespace Line

variable (p : Line alnum)

def metrics : List (Entry alnum) := p.entries.map Prod.fst

def text : Text := p.lead ++ p.entries.flatMap fun m => m.1.text ++ m.2

def labels : List Text := p.metrics.map fun e => e.label.text

def last (label : Text) : Option (Entry alnum) := (p.metrics.filter fun e => e.label.text == label).getLast?

end Line

end

/-! ## What is expected -/

def Says (d : Decimal) (n : Number) : Prop :=
  (d.value.den = 1 → n.value = some d.value) ∧ (d.value.den ≠ 1 → n.value = floatValue d.double)

def SaysField : Option Decimal → Option Number → Prop
  | none, r => r = none
  | some d, r => ∃ n, r = some n ∧ Says d n

section
variable {alnum : Char → Bool}

structure Entry.Reads (e : Entry alnum) (m : Metric) : Prop where
  name : m.name = e.name
  value : SaysField (some e.value) m.value
  uom : m.uom = e.unit
  warning : SaysField (e.field 0) m.warning
  critical : SaysField (e.field 1) m.critical
  limits : if e.unit = ['%'] then m.min = some (.int 0) ∧ m.max = some (.int 100)
    else SaysField (e.field 2) m.min ∧ SaysField (e.field 3) m.max

structure Line.Read (p : Line alnum) (metrics : Dict Text Metric) : Prop where
  one : metrics.keys.length = p.labels.dedup.length
  last : ∀ label e, p.last label = some e → ∃ m, metrics.get? e.name = some m ∧ e.Reads m

def Overflows (d : Decimal) : Prop := truncate d.double = .error .overflow

def Exact (d : Decimal) : Prop := ∃ v, floatValue d.double = some v ∧ (d.value.den = 1 → v = d.value)

structure Line.Faithful (p : Line alnum) : Prop where
  inRange : ∀ e ∈ p.metrics, ∀ d ∈ e.numbers, ¬ Overflows d
  apart : ∀ e ∈ p.metrics, ∀ e' ∈ p.metrics, e.name = e'.name → e.label.text = e'.label.text
  exact : ∀ label e, p.last label = some e → ∀ d ∈ e.shown, Exact d

end

end Perfdata

end Alignak
