import Alignak.DaterangeEntries

/-!
# The lines of timeperiods

The written forms of the entries of a timeperiod, their texts and the dateranges
that they mean: each of them is resolved to its daterange, and to nothing else.
-/

namespace Alignak

open EntryPattern Pattern

/-! ## What is written -/

structure Numeral where
  digits : List Char
  ne : digits ≠ []
  digit : ∀ c ∈ digits, Numerals.isDecimal c = true

def Numeral.value (n : Numeral) : Int := Nat.ofDigitChars 10 (n.digits.map Numerals.asciiDigit) 0

structure DayNumber where
  fromEnd : Bool
  number : Numeral

namespace DayNumber

def text (n : DayNumber) : List Char := if n.fromEnd then '-' :: n.number.digits else n.number.digits

def value (n : DayNumber) : Int := if n.fromEnd then -n.number.value else n.number.value

end DayNumber

/-- `yyyy-mm-dd` -/
structure WrittenDate where
  year : Numeral
  month : Numeral
  day : Numeral
  yearLength : year.digits.length = 4
  monthLength : month.digits.length = 2
  dayLength : day.digits.length = 2

def WrittenDate.text (d : WrittenDate) : List Char := d.year.digits ++ '-' :: (d.month.digits ++ '-' :: d.day.digits)

/-- `hh:mm-hh:mm` -/
structure WrittenRange where
  hstart : Numeral
  mstart : Numeral
  hend : Numeral
  mend : Numeral
  lengths : hstart.digits.length = 2 ∧ mstart.digits.length = 2 ∧ hend.digits.length = 2 ∧ mend.digits.length = 2
  latin : ∀ c ∈ hstart.digits ++ mstart.digits ++ hend.digits ++ mend.digits, c.isDigit = true

namespace WrittenRange

def text (r : WrittenRange) : List Char :=
  r.hstart.digits ++ ':' :: (r.mstart.digits ++ '-' :: (r.hend.digits ++ ':' :: r.mend.digits))

def timerange (r : WrittenRange) : Timerange :=
  ⟨Nat.ofDigitChars 10 r.hstart.digits 0, Nat.ofDigitChars 10 r.mstart.digits 0, Nat.ofDigitChars 10 r.hend.digits 0,
    Nat.ofDigitChars 10 r.mend.digits 0⟩

end WrittenRange

structure WrittenRanges where
  first : WrittenRange
  more : List (Nat × Nat × WrittenRange)
  after : Nat

namespace WrittenRanges

def moreText (after : Nat) : List (Nat × Nat × WrittenRange) → List Char
  | [] => List.replicate after ' '
  | (i, j, r) :: more => List.replicate i ' ' ++ ',' :: (List.replicate j ' ' ++ (r.text ++ moreText after more))

def text (rs : WrittenRanges) : List Char := rs.first.text ++ moreText rs.after rs.more

def timeranges (rs : WrittenRanges) : List (Option Timerange) :=
  some rs.first.timerange :: rs.more.map fun x => some x.2.2.timerange

end WrittenRanges

structure KnownName (table : List (String × Int)) where
  name : String
  id : Int
  mem : (name, id) ∈ table

abbrev Weekday := KnownName Daterange.weekdays

abbrev Month := KnownName Daterange.months

inductive DayNames
  | weekdays (start stop : Weekday)
  | months (start stop : Month)
  | days

namespace DayNames

def start : DayNames → List Char
  | weekdays w _ => w.name.toList
  | months m _ => m.name.toList
  | days => "day".toList

def stop : DayNames → List Char
  | weekdays _ w => w.name.toList
  | months _ m => m.name.toList
  | days => "day".toList

def cls : DayNames → DaterangeClass
  | weekdays _ _ => .weekDay
  | months _ _ => .monthDate
  | days => .monthDay

def fields (first last : Int) : DayNames → Daterange
  | weekdays w w' => ⟨0, 0, 0, w.id, first, 0, 0, 0, w'.id, last⟩
  | months m m' => ⟨0, m.id, first, 0, 0, 0, m'.id, last, 0, 0⟩
  | days => ⟨0, 0, first, 0, 0, 0, 0, last, 0, 0⟩

end DayNames

inductive DayName
  | weekday (w : Weekday)
  | month (m : Month)
  | day

def DayName.both : DayName → DayNames
  | weekday w => .weekdays w w
  | month m => .months m m
  | day => .days

structure MonthWeekDay where
  weekday : Weekday
  number : DayNumber
  month : Month

inductive RangeForm
  | dates (start stop : WrittenDate)
  | date (day : WrittenDate)
  | monthWeekDays (start stop : MonthWeekDay)
  | between (names : DayNames) (first last : DayNumber)
  | within (name : DayName) (first last : DayNumber)

inductive SingleForm
  | monthWeekDay (day : MonthWeekDay)
  | day (name : DayName) (number : DayNumber)
  | weekday (w : Weekday)

namespace RangeForm

def texts : RangeForm → List (List Char)
  | dates start stop => [start.text, ['-'], stop.text]
  | date day => [day.text]
  | monthWeekDays start stop =>
    [start.weekday.name.toList, start.number.text, start.month.name.toList, ['-'],
      stop.weekday.name.toList, stop.number.text, stop.month.name.toList]
  | between names first last => [names.start, first.text, ['-'], names.stop, last.text]
  | within name first last => [name.both.start, first.text, ['-'], last.text]

def cls : RangeForm → DaterangeClass
  | dates _ _ => .calendar
  | date _ => .calendar
  | monthWeekDays _ _ => .monthWeekDay
  | between names _ _ => names.cls
  | within name _ _ => name.both.cls

def fields : RangeForm → Daterange
  | dates start stop =>
    ⟨start.year.value, start.month.value, start.day.value, 0, 0, stop.year.value, stop.month.value, stop.day.value, 0, 0⟩
  | date day => ⟨day.year.value, day.month.value, day.day.value, 0, 0, day.year.value, day.month.value, day.day.value, 0, 0⟩
  | monthWeekDays start stop =>
    ⟨0, start.month.id, 0, start.weekday.id, start.number.value, 0, stop.month.id, 0, stop.weekday.id, stop.number.value⟩
  | between names first last => names.fields first.value last.value
  | within name first last => name.both.fields first.value last.value

end RangeForm

inductive DaterangeLine
  | range (form : RangeForm) (skip : Option Numeral) (blanks : Nat) (other : WrittenRanges)
  | single (form : SingleForm) (blanks : Nat) (other : WrittenRanges)

namespace SingleForm

def texts : SingleForm → List (List Char)
  | monthWeekDay d => [d.weekday.name.toList, d.number.text, d.month.name.toList]
  | day name number => [name.both.start, number.text]
  | weekday w => [w.name.toList]

def object (other : WrittenRanges) : SingleForm → DaterangeObject
  | monthWeekDay d =>
    .dated (some .monthWeekDay) ⟨0, d.month.id, 0, d.weekday.id, d.number.value, 0, d.month.id, 0, d.weekday.id, d.number.value⟩ 0
      (String.ofList other.text) other.timeranges
  | day name number =>
    .dated (some name.both.cls) (name.both.fields number.value number.value) 0 (String.ofList other.text) other.timeranges
  | weekday w => .standard w.name (String.ofList other.text) other.timeranges

end SingleForm

namespace DaterangeLine

def texts : DaterangeLine → List (List Char)
  | range form none _ _ => form.texts
  | range form (some k) _ _ => form.texts ++ [['/'], k.digits]
  | single form _ _ => form.texts

def rest : DaterangeLine → List Char
  | range _ _ blanks other => List.replicate blanks ' ' ++ other.text
  | single _ blanks other => List.replicate blanks ' ' ++ other.text

def text (line : DaterangeLine) : List Char := joined line.texts line.rest

def numbers : DaterangeLine → List DayNumber
  | range (.monthWeekDays start stop) _ _ _ => [start.number, stop.number]
  | range (.between _ first last) _ _ _ => [first, last]
  | range (.within _ first last) _ _ _ => [first, last]
  | single (.monthWeekDay d) _ _ => [d.number]
  | single (.day _ number) _ _ => [number]
  | _ => []

def Unsigned (line : DaterangeLine) : Prop := ∀ n ∈ line.numbers, n.fromEnd = false

def object : DaterangeLine → DaterangeObject
  | range form skip _ other =>
    .dated (some form.cls) form.fields ((skip.map Numeral.value).getD 0) (String.ofList other.text) other.timeranges
  | single form _ other => form.object other

end DaterangeLine

end Alignak
