import Alignak.Calendar
import Alignak.Timeperiod
import Alignak.Effect

/-!
# Dateranges

The dateranges of `daterange.py`: the days of one are given by its first and
last second around a reference time, which each class finds in its own way, and
its hours by its time ranges.
-/

namespace Alignak

/-! ## The clock and the calendar -/

namespace Clock

variable (clock : Clock)

def getSecFromMorning (timestamp : Int) : Int :=
  let tLt := clock.localtime timestamp
  tLt.hour * 3600 + tLt.min * 60 + tLt.sec

def getDay (timestamp : Int) : Int := timestamp - clock.getSecFromMorning timestamp

def getStartOfDay (year month day : Int) : Int := clock.mktime year month day 0 0 0

def getEndOfDay (year month day : Int) : Int := clock.mktime year month day 23 59 59

end Clock

def monthcalendar (year month : Int) : List (List Int) :=
  let before := (weekday year month 1).toNat
  let days := (daysInMonth year month).toNat
  let weeks := (before + days + 6) / 7
  (List.range weeks).map fun w => (List.range 7).map fun i =>
    let day := w * 7 + i
    if before ≤ day ∧ day < before + days then (day : Int) - before + 1 else 0

/-- The loop over the weeks. A month without the week raises `IndexError`, which
the source does not catch. -/
def findWeek (cal : List (List Int)) (weekday : Nat) (offset : Int) : Nat → Nat → Int → Except Exn (Option Int)
  | 0, _, _ => .ok none
  | turns + 1, i, nbFound =>
    match cal[i]? with
    | none => .error .indexError
    | some week =>
      match week[weekday]? with
      | none => .error .indexError
      | some day =>
        let nbFound := if day ≠ 0 then nbFound + 1 else nbFound
        if nbFound = offset then .ok (some day) else findWeek cal weekday offset turns (i + 1) nbFound

def findDayByWeekdayOffset (year month weekday offset : Int) : Except Exn (Option Int) :=
  let cal := monthcalendar year month
  let cal := if offset < 0 then cal.reverse else cal
  findWeek cal weekday.toNat offset.natAbs (offset.natAbs + 1) 0 0

def findDayByOffset (year month offset : Int) : Int :=
  let days := daysInMonth year month
  if offset ≥ 0 then min offset days else max 1 (days + offset + 1)

/-! ## Time ranges -/

/-- A time range whose entry has matched: `is_correct` refuses the others. -/
structure Timerange where
  hstart : Nat
  mstart : Nat
  hend : Nat
  mend : Nat
  deriving DecidableEq, Repr

namespace Timerange

variable (clock : Clock) (r : Timerange)

def getSecFromMorning : Int := r.hstart * 3600 + r.mstart * 60

def lastSec : Int := r.hend * 3600 + r.mend * 60

def isTimeValid (timestamp : Int) : Bool :=
  decide (r.getSecFromMorning ≤ clock.getSecFromMorning timestamp ∧ clock.getSecFromMorning timestamp ≤ r.lastSec)

def invalidSec : Int := if r.lastSec = 86400 then 86399 else r.lastSec

def nextStart (timeranges : List Timerange) (timestamp : Int) : Option Int :=
  ((timeranges.map getSecFromMorning).filter fun trStart => decide (clock.getSecFromMorning timestamp ≤ trStart)).min?

end Timerange

/-! ## The searches of a daterange -/

structure TimedDaterange (clock : Clock) where
  getStartAndEndTime : Int → Int × Int
  timeranges : List Timerange
  morning : ∀ ref, clock.getSecFromMorning (getStartAndEndTime ref).1 = 0

namespace TimedDaterange

variable {clock : Clock} (d : TimedDaterange clock)

def isTimeDayValid (timestamp : Int) : Bool :=
  let (startTime, endTime) := d.getStartAndEndTime timestamp
  decide (startTime ≤ timestamp ∧ timestamp ≤ endTime)

def isTimeValid (timestamp : Int) : Bool :=
  d.isTimeDayValid timestamp && d.timeranges.any fun timerange => timerange.isTimeValid clock timestamp

def getNextFutureTimerangeValid (timestamp : Int) : Option Int := Timerange.nextStart clock d.timeranges timestamp

def getNextFutureTimerangeInvalid (timestamp : Int) : Option Int :=
  ((d.timeranges.filter fun timerange => decide (clock.getSecFromMorning timestamp ≤ timerange.lastSec)).map Timerange.invalidSec).min?

def getNextValidDay (timestamp : Int) : Option Int :=
  let (startTime, _) := match d.getNextFutureTimerangeValid timestamp with
    | none => d.getStartAndEndTime (clock.getDay timestamp + 86400)
    | some _ => d.getStartAndEndTime timestamp
  if timestamp ≤ startTime then some (clock.getDay startTime)
  else if d.isTimeDayValid timestamp then some (clock.getDay timestamp)
  else none

def getNextValidTimeFromT (timestamp : Int) : Option Int :=
  if d.isTimeValid timestamp then some timestamp
  else match d.getNextValidDay timestamp with
    | none => none
    | some tDay =>
      match d.getNextFutureTimerangeValid (if timestamp < tDay then tDay else timestamp) with
      | some secFromMorning => some (tDay + secFromMorning)
      | none =>
        -- the next day; without one the source looks up the hour of now, and drops it
        match d.getNextValidDay (clock.getDay timestamp + 86400) with
        | none => none
        | some tDay2 => (d.getNextFutureTimerangeValid tDay2).map fun secFromMorning => tDay2 + secFromMorning

def getNextInvalidDay (timestamp : Int) : Option Int :=
  if !d.isTimeDayValid timestamp then some timestamp
  else match d.getNextFutureTimerangeInvalid timestamp with
    | none =>
      let (_, endTime) := d.getStartAndEndTime (clock.getDay timestamp)
      some (clock.getDay (endTime + 1))
    | some _ =>
      let (startTime, endTime) := d.getStartAndEndTime timestamp
      if startTime ≤ timestamp ∧ timestamp ≤ endTime then some (clock.getDay timestamp)
      else if startTime ≥ timestamp then some (clock.getDay startTime)
      else none

/-- The comparison of the timestamp with no day raises. With a day the search
ends here, and the second one of the source is not reached. -/
def getNextInvalidTimeFromT (timestamp : Int) : Except Exn (Option Int) :=
  if !d.isTimeValid timestamp then .ok (some timestamp)
  else match d.getNextInvalidDay timestamp with
    | none => .error .typeError
    | some tDay =>
      match d.getNextFutureTimerangeInvalid (if timestamp < tDay then tDay else timestamp) with
      | some secFromMorning => .ok (some (tDay + secFromMorning + 1))
      | none => .ok (some tDay)

def abstract : AbstractDaterange where
  isTimeValid := d.isTimeValid
  getNextValidTimeFromT := d.getNextValidTimeFromT
  getNextInvalidTimeFromT timestamp :=
    match d.getNextInvalidTimeFromT timestamp with
    | .ok res => res
    | .error _ => none

end TimedDaterange

/-! ## The classes -/

/-- The fields of a `Daterange`; a year of 0 stands for none. -/
structure Daterange where
  syear : Int
  smon : Int
  smday : Int
  swday : Int
  swdayOffset : Int
  eyear : Int
  emon : Int
  emday : Int
  ewday : Int
  ewdayOffset : Int
  deriving DecidableEq, Repr

inductive DaterangeClass
  | calendar
  | monthWeekDay
  | monthDate
  | weekDay
  | monthDay
  deriving DecidableEq, Repr

/-- The day that a search has found: a date without a day raises `TypeError`. -/
def foundDay : Option Int → EStateM Exn Daterange Int
  | some day => pure day
  | none => throw .typeError

abbrev DaterangeM := EStateM Exn Daterange

section
variable (clock : Clock)

def weekdayOf (year month weekday offset : Int) : DaterangeM Int :=
  match findDayByWeekdayOffset year month weekday offset with
  | .ok day => foundDay day
  | .error e => throw e

def fillStartYear (now : LocalTime) : DaterangeM Unit :=
  modify fun d => if d.syear = 0 then { d with syear := now.year } else d

def fillEndYear (now : LocalTime) : DaterangeM Unit :=
  modify fun d => if d.eyear = 0 then { d with eyear := now.year } else d

def LocalTime.epoch (now : LocalTime) : Int := clock.mktime now.year now.mon now.mday now.hour now.min now.sec

def CalendarDaterange.getStartAndEndTime (_ref : Int) : DaterangeM (Int × Int) := do
  let d ← get
  return (clock.getStartOfDay d.syear d.smon d.smday, clock.getEndOfDay d.eyear d.emon d.emday)

def startByWeekday (year month weekday offset : Int) : DaterangeM Int := do
  let day ← weekdayOf year month weekday offset
  return clock.getStartOfDay year month day

def endByWeekday (year month weekday offset : Int) : DaterangeM Int := do
  let day ← weekdayOf year month weekday offset
  return clock.getEndOfDay year month day

def MonthWeekDayDaterange.getStartAndEndTime (ref : Int) : DaterangeM (Int × Int) := do
  let now := clock.localtime ref
  fillStartYear now
  let d ← get
  let startTime ← startByWeekday clock d.syear d.smon d.swday d.swdayOffset
  fillEndYear now
  let d ← get
  let endTime ← endByWeekday clock d.eyear d.emon d.ewday d.ewdayOffset
  let nowEpoch := now.epoch clock
  if startTime > endTime then
    if nowEpoch > endTime then
      let endTime ← endByWeekday clock (d.eyear + 1) d.emon d.ewday d.ewdayOffset
      return (startTime, endTime)
    else
      let startTime ← startByWeekday clock (d.syear - 1) d.smon d.swday d.swdayOffset
      return (startTime, endTime)
  else if nowEpoch > endTime then
    let startTime ← startByWeekday clock (d.syear + 1) d.smon d.swday d.swdayOffset
    let endTime ← endByWeekday clock (d.eyear + 1) d.emon d.ewday d.ewdayOffset
    return (startTime, endTime)
  else return (startTime, endTime)

def startByDay (year month day : Int) : Int := clock.getStartOfDay year month (findDayByOffset year month day)

def endByDay (year month day : Int) : Int := clock.getEndOfDay year month (findDayByOffset year month day)

def MonthDateDaterange.getStartAndEndTime (ref : Int) : DaterangeM (Int × Int) := do
  let now := clock.localtime ref
  fillStartYear now
  fillEndYear now
  let d ← get
  let startTime := startByDay clock d.syear d.smon d.smday
  let endTime := endByDay clock d.eyear d.emon d.emday
  let nowEpoch := now.epoch clock
  if startTime > endTime then
    if nowEpoch > endTime then return (startTime, endByDay clock (d.eyear + 1) d.emon d.emday)
    else return (startByDay clock (d.syear - 1) d.smon d.emday, endTime)
  else if nowEpoch > endTime then
    return (startByDay clock (d.syear + 1) d.smon d.smday, endByDay clock (d.eyear + 1) d.emon d.emday)
  else return (startTime, endTime)

def nextEndMonth (month : Int) : DaterangeM Int := do
  if month + 1 > 12 then
    modify fun d => { d with eyear := d.eyear + 1 }
    return 1
  else return month + 1

def nextStartMonth (month : Int) : DaterangeM Int := do
  if month + 1 > 12 then
    modify fun d => { d with syear := d.syear + 1 }
    return 1
  else return month + 1

def previousStartMonth (month : Int) : DaterangeM Int := do
  if month - 1 < 1 then
    modify fun d => { d with syear := d.syear - 1 }
    return 12
  else return month - 1

def WeekDayDaterange.startOf (month : Int) : DaterangeM Int := do
  let d ← get
  startByWeekday clock d.syear month d.swday d.swdayOffset

def WeekDayDaterange.endOf (month : Int) : DaterangeM Int := do
  let d ← get
  endByWeekday clock d.eyear month d.ewday d.ewdayOffset

def WeekDayDaterange.nextEnd (month : Int) : DaterangeM (Int × Int) := do
  let month ← nextEndMonth month
  let endTime ← WeekDayDaterange.endOf clock month
  return (month, endTime)

def WeekDayDaterange.getStartAndEndTime (ref : Int) : DaterangeM (Int × Int) := do
  let now := clock.localtime ref
  fillStartYear now
  let startTime ← startOf clock now.mon
  fillEndYear now
  let endTime ← endOf clock now.mon
  let (monthEndId, endTime) ← (if startTime > endTime then nextEnd clock now.mon else pure (now.mon, endTime))
  if endTime < now.epoch clock then
    let monthEndId ← nextEndMonth monthEndId
    let monthStartId ← nextStartMonth now.mon
    let startTime ← startOf clock monthStartId
    let endTime ← endOf clock monthEndId
    return (startTime, endTime)
  else return (startTime, endTime)

def MonthDayDaterange.getStartAndEndTime (ref : Int) : DaterangeM (Int × Int) := do
  let now := clock.localtime ref
  fillStartYear now
  fillEndYear now
  let d ← get
  let endTime := endByDay clock d.eyear now.mon d.emday
  let monthStartId ← (if startByDay clock d.syear now.mon d.smday > endTime then previousStartMonth now.mon else pure now.mon)
  let d ← get
  let startTime := startByDay clock d.syear monthStartId d.smday
  if endTime < now.epoch clock then
    let monthEndId ← nextEndMonth now.mon
    let monthStartId ← nextStartMonth monthStartId
    let d ← get
    return (startByDay clock d.syear monthStartId d.smday, endByDay clock d.eyear monthEndId d.emday)
  else return (startTime, endTime)

def DaterangeClass.getStartAndEndTime : DaterangeClass → Int → DaterangeM (Int × Int)
  | .calendar => CalendarDaterange.getStartAndEndTime clock
  | .monthWeekDay => MonthWeekDayDaterange.getStartAndEndTime clock
  | .monthDate => MonthDateDaterange.getStartAndEndTime clock
  | .weekDay => WeekDayDaterange.getStartAndEndTime clock
  | .monthDay => MonthDayDaterange.getStartAndEndTime clock

def StandardDaterange.getStartAndEndTime (dayId : Int) (ref : Int) : Int × Int :=
  let now := clock.localtime ref
  let dayDiff := (dayId - now.wday) % 7
  (clock.getStartOfDay now.year now.mon (now.mday + dayDiff), clock.getEndOfDay now.year now.mon (now.mday + dayDiff))

end

end Alignak
