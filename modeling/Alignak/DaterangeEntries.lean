import Alignak.ExternalCommands
import Alignak.SpacedPatterns
import Alignak.TimeperiodObjects

/-!
# The entries of timeperiods

`resolve_daterange` tries its patterns one after the other anywhere in the
entry.
-/

namespace Alignak

/-! ## The fields of a daterange -/

def Daterange.months : List (String × Int) :=
  [("january", 1), ("february", 2), ("march", 3), ("april", 4), ("may", 5), ("june", 6), ("july", 7), ("august", 8),
    ("september", 9), ("october", 10), ("november", 11), ("december", 12)]

def Daterange.weekdayId (t : List Char) : Option Int := Daterange.weekdays.lookup (String.ofList t)

def Daterange.monthId (t : List Char) : Option Int := Daterange.months.lookup (String.ofList t)

/-- A name that is not known raises `KeyError`. -/
def known : Option Int → Except Exn Int
  | some i => .ok i
  | none => .error .keyError

inductive FieldValue
  | num (n : Int)
  | text (t : List Char)

def FieldValue.toInt : FieldValue → Except Exn Int
  | num n => .ok n
  | text t => ExternalCommandManager.readInt t

theorem FieldValue.toInt_num (n : Int) : (num n).toInt = .ok n := rfl

theorem FieldValue.toInt_text (t : List Char) : (text t).toInt = ExternalCommandManager.readInt t := rfl

structure DaterangeData where
  syear : FieldValue := .num 0
  smon : FieldValue := .num 0
  smday : FieldValue := .num 0
  swday : FieldValue := .num 0
  swdayOffset : FieldValue := .num 0
  eyear : FieldValue := .num 0
  emon : FieldValue := .num 0
  emday : FieldValue := .num 0
  ewday : FieldValue := .num 0
  ewdayOffset : FieldValue := .num 0
  skipInterval : FieldValue
  other : List Char

def DaterangeData.build (cls : DaterangeClass) (data : DaterangeData) : Except Exn (Option DaterangeObject) := do
  let fields : Daterange :=
    ⟨← data.syear.toInt, ← data.smon.toInt, ← data.smday.toInt, ← data.swday.toInt, ← data.swdayOffset.toInt,
      ← data.eyear.toInt, ← data.emon.toInt, ← data.emday.toInt, ← data.ewday.toInt, ← data.ewdayOffset.toInt⟩
  let skipInterval ← data.skipInterval.toInt
  return some (.dated (some cls) fields skipInterval (String.ofList data.other) (Timerange.ofEntries (String.ofList data.other)))

/-! ## The patterns -/

namespace EntryPattern

/-- `[\d-]` -/
def isOffset (c : Char) : Bool := Numerals.isDecimal c || c == '-'

/-- `[0-9:, -]` -/
def isHours (c : Char) : Bool := c.isDigit || c == ':' || c == ',' || c == ' ' || c == '-'

def number (n : Nat) : Piece := ⟨Numerals.isDecimal, n, some n, true⟩

/-- `([a-z]*)` -/
def word : Piece := ⟨Char.isLower, 0, none, true⟩

/-- `([\d-]+)` -/
def offset : Piece := ⟨isOffset, 1, none, true⟩

/-- `(\d+)` -/
def interval : Piece := ⟨Numerals.isDecimal, 1, none, true⟩

/-- `[\s\t]*` -/
def blanks : Piece := ⟨isSpace, 0, none, false⟩

/-- `([0-9:, -]+)` -/
def hours : Piece := ⟨isHours, 1, none, true⟩

def dash : Piece := .char '-'

def slash : Piece := .char '/'

/-- `(\d{4})-(\d{2})-(\d{2})` -/
def date : Pattern := [number 4, dash, number 2, dash, number 2]

end EntryPattern

open EntryPattern Pattern

structure EntryForm where
  pattern : Pattern
  make : List (List Char) → Except Exn (Option DaterangeObject)

def CalendarDaterange.make (syear smon smday eyear emon emday : List Char) (skipInterval : FieldValue) (other : List Char) :
    Except Exn (Option DaterangeObject) :=
  DaterangeData.build .calendar {
    syear := .text syear, smon := .text smon, smday := .text smday, eyear := .text eyear, emon := .text emon, emday := .text emday,
    skipInterval := skipInterval, other := other }

def MonthWeekDayDaterange.make (swday swdayOffset smon ewday ewdayOffset emon : List Char) (skipInterval : FieldValue) (other : List Char) :
    Except Exn (Option DaterangeObject) := do
  let smonId ← known (Daterange.monthId smon)
  let emonId ← known (Daterange.monthId emon)
  let swdayId ← known (Daterange.weekdayId swday)
  let ewdayId ← known (Daterange.weekdayId ewday)
  DaterangeData.build .monthWeekDay {
    smon := .num smonId, swday := .num swdayId, swdayOffset := .text swdayOffset,
    emon := .num emonId, ewday := .num ewdayId, ewdayOffset := .text ewdayOffset,
    skipInterval := skipInterval, other := other }

def betweenDays (t00 smday t01 emday : List Char) (skipInterval : FieldValue) (other : List Char) : Except Exn (Option DaterangeObject) :=
  match Daterange.weekdayId t00, Daterange.weekdayId t01 with
  | some swday, some ewday => DaterangeData.build .weekDay {
      swday := .num swday, swdayOffset := .text smday, ewday := .num ewday, ewdayOffset := .text emday,
      skipInterval := skipInterval, other := other }
  | _, _ =>
    match Daterange.monthId t00, Daterange.monthId t01 with
    | some smon, some emon => DaterangeData.build .monthDate {
        smon := .num smon, smday := .text smday, emon := .num emon, emday := .text emday,
        skipInterval := skipInterval, other := other }
    | _, _ =>
      if t00 = "day".toList ∧ t01 = "day".toList then
        DaterangeData.build .monthDay { smday := .text smday, emday := .text emday, skipInterval := skipInterval, other := other }
      else .ok none

namespace EntryForm

def datesSkip : EntryForm where
  pattern := spaced [EntryPattern.date, [dash], EntryPattern.date, [slash]] ++ [interval, blanks, hours]
  make
    | [syear, smon, smday, eyear, emon, emday, skipInterval, other] =>
      CalendarDaterange.make syear smon smday eyear emon emday (.text skipInterval) other
    | _ => .ok none

def dateSkip : EntryForm where
  pattern := spaced [EntryPattern.date, [slash]] ++ [interval, blanks, hours]
  make
    | [syear, smon, smday, skipInterval, other] => CalendarDaterange.make syear smon smday syear smon smday (.text skipInterval) other
    | _ => .ok none

def dates : EntryForm where
  pattern := spaced [EntryPattern.date, [dash]] ++ (EntryPattern.date ++ [blanks, hours])
  make
    | [syear, smon, smday, eyear, emon, emday, other] => CalendarDaterange.make syear smon smday eyear emon emday (.num 0) other
    | _ => .ok none

def date : EntryForm where
  pattern := EntryPattern.date ++ [blanks, hours]
  make
    | [syear, smon, smday, other] => CalendarDaterange.make syear smon smday syear smon smday (.num 0) other
    | _ => .ok none

def monthWeekDaysSkip : EntryForm where
  pattern := spaced [[word], [offset], [word], [dash], [word], [offset], [word], [slash]] ++ [interval, blanks, hours]
  make
    | [swday, swdayOffset, smon, ewday, ewdayOffset, emon, skipInterval, other] =>
      MonthWeekDayDaterange.make swday swdayOffset smon ewday ewdayOffset emon (.text skipInterval) other
    | _ => .ok none

def betweenSkip : EntryForm where
  pattern := spaced [[word], [offset], [dash], [word], [offset], [slash]] ++ [interval, blanks, hours]
  make
    | [t00, smday, t01, emday, skipInterval, other] => betweenDays t00 smday t01 emday (.text skipInterval) other
    | _ => .ok none

def withinSkip : EntryForm where
  pattern := spaced [[word], [offset], [dash], [offset], [slash]] ++ [interval, blanks, hours]
  make
    | [t00, smday, emday, skipInterval, other] => betweenDays t00 smday t00 emday (.text skipInterval) other
    | _ => .ok none

def monthWeekDays : EntryForm where
  pattern := spaced [[word], [offset], [word], [dash], [word], [offset], [word]] ++ [blanks, hours]
  make
    | [swday, swdayOffset, smon, ewday, ewdayOffset, emon, other] =>
      MonthWeekDayDaterange.make swday swdayOffset smon ewday ewdayOffset emon (.num 0) other
    | _ => .ok none

def within : EntryForm where
  pattern := spaced [[word], [offset], [dash]] ++ [offset, blanks, hours]
  make
    | [t00, smday, emday, other] => betweenDays t00 smday t00 emday (.num 0) other
    | _ => .ok none

def between : EntryForm where
  pattern := spaced [[word], [offset], [dash], [word]] ++ [offset, blanks, hours]
  make
    | [t00, smday, t01, emday, other] => betweenDays t00 smday t01 emday (.num 0) other
    | _ => .ok none

def single : EntryForm where
  pattern := spaced [[word], [offset]] ++ [word, blanks, hours]
  make
    | [t00, t02, t01, other] =>
      if (Daterange.weekdayId t00).isSome ∧ (Daterange.monthId t01).isSome then
        MonthWeekDayDaterange.make t00 t02 t01 t00 t02 t01 (.num 0) other
      else if t01 = [] then betweenDays t00 t02 t00 t02 (.num 0) other
      else .ok none
    | _ => .ok none

def standard : EntryForm where
  pattern := [word, { blanks with least := 1 }, hours]
  make
    | [t00, other] =>
      if (Daterange.weekdayId t00).isSome then
        .ok (some (.standard (String.ofList t00) (String.ofList other) (Timerange.ofEntries (String.ofList other))))
      else .ok none
    | _ => .ok none

end EntryForm

/-- The forms, in the order of the source. -/
def entryForms : List EntryForm :=
  [.datesSkip, .dateSkip, .dates, .date, .monthWeekDaysSkip, .betweenSkip, .withinSkip, .monthWeekDays, .within, .between, .single,
    .standard]

def firstForm : List EntryForm → List Char → Except Exn (Option DaterangeObject)
  | [], _ => .ok none
  | form :: forms, entry =>
    match form.pattern.search entry with
    | none => firstForm forms entry
    | some found =>
      match form.make (form.pattern.groups found) with
      | .ok none => firstForm forms entry
      | made => made

structure Resolution where
  dateranges : List DaterangeObject
  invalidEntries : List (List Char)

def resolveDaterange (entry : List Char) : EStateM Exn Resolution PUnit :=
  match firstForm entryForms entry with
  | .ok (some d) => modify fun r => { r with dateranges := r.dateranges ++ [d] }
  | .ok none => modify fun r => { r with invalidEntries := r.invalidEntries ++ [entry] }
  | .error e => throw e

end Alignak
