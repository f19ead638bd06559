import Alignak.DaterangeHistory
import Alignak.Strip

/-!
# Timeperiod objects

Asking a timeperiod may store years into its dateranges and into those of the
timeperiods that it excludes.
-/

namespace Alignak

/-! ## Asking objects one after the other -/

section
variable {ε σ τ α β : Type}

def onPart (part : σ → τ) (update : τ → σ → σ) (m : EStateM ε τ α) : EStateM ε σ α := fun s =>
  match m (part s) with
  | .ok a t => .ok a (update t s)
  | .error e t => .error e (update t s)

def firstThat (m : EStateM ε σ Bool) : List σ → EStateM.Result ε (List σ) Bool
  | [] => .ok false []
  | s :: l =>
    match m s with
    | .error e s => .error e (s :: l)
    | .ok true s => .ok true (s :: l)
    | .ok false s =>
      match firstThat m l with
      | .error e l => .error e (s :: l)
      | .ok b l => .ok b (s :: l)

def visit (m : β → EStateM ε σ β) : β → List σ → EStateM.Result ε (List σ) β
  | b, [] => .ok b []
  | b, s :: l =>
    match m b s with
    | .error e s => .error e (s :: l)
    | .ok b s =>
      match visit m b l with
      | .error e l => .error e (s :: l)
      | .ok b l => .ok b (s :: l)

def each (m : EStateM ε σ α) : EStateM ε (List σ) (List α) :=
  visit (fun answers => do return answers ++ [← m]) []

end

/-! ## Time ranges -/

namespace Timerange

/-- The entry has to begin with `hh:mm-hh:mm`. -/
def ofEntry : List Char → Option Timerange
  | a :: b :: ':' :: c :: d :: '-' :: e :: f :: ':' :: g :: h :: _ =>
    if [a, b, c, d, e, f, g, h].all Char.isDigit then
      some ⟨Nat.ofDigitChars 10 [a, b] 0, Nat.ofDigitChars 10 [c, d] 0, Nat.ofDigitChars 10 [e, f] 0, Nat.ofDigitChars 10 [g, h] 0⟩
    else none
  | _ => none

/-- `other.split(',')`, each interval stripped. -/
def ofEntries (other : String) : List (Option Timerange) :=
  (other.toList.splitOn ',').map fun timeinterval => ofEntry (strip timeinterval)

end Timerange

/-! ## Dateranges -/

/-- The seven classes of dateranges, the plain `Daterange` without a class of
its own. A time range whose entry has not matched has no hours: `is_valid` is
false and the source puts texts for them. -/
inductive DaterangeObject
  | dated (cls : Option DaterangeClass) (fields : Daterange) (skipInterval : Int) (other : String)
      (timeranges : List (Option Timerange))
  | standard (day other : String) (timeranges : List (Option Timerange))

def Daterange.weekdays : List (String × Int) :=
  [("monday", 0), ("tuesday", 1), ("wednesday", 2), ("thursday", 3), ("friday", 4), ("saturday", 5), ("sunday", 6)]

namespace DaterangeObject

def timeranges : DaterangeObject → List (Option Timerange)
  | dated _ _ _ _ timeranges => timeranges
  | standard _ _ timeranges => timeranges

def validRanges (d : DaterangeObject) : List Timerange := d.timeranges.filterMap id

variable (clock : Clock)

def getStartAndEndTime (ref : Int) : EStateM Exn DaterangeObject (Int × Int)
  | d@(dated none _ _ _ _) => .error .notImplementedError d
  | dated (some cls) fields skipInterval other timeranges =>
    match cls.getStartAndEndTime clock ref fields with
    | .ok bounds fields => .ok bounds (dated (some cls) fields skipInterval other timeranges)
    | .error e fields => .error e (dated (some cls) fields skipInterval other timeranges)
  | d@(standard day _ _) =>
    match Daterange.weekdays.lookup day with
    | none => .error .keyError d
    | some dayId => .ok (StandardDaterange.getStartAndEndTime clock dayId ref) d

def search {α : Type} (question : List Timerange → Daterange.Search α) : EStateM Exn DaterangeObject α := fun d =>
  (question d.validRanges).run (getStartAndEndTime clock) d

def readHours : EStateM Exn DaterangeObject PUnit := do
  if (← get).timeranges.any Option.isNone then throw .typeError

def isTimeDayValid (timestamp : Int) : EStateM Exn DaterangeObject Bool := search clock fun _ => Daterange.isTimeDayValid timestamp

def isTimeValid (timestamp : Int) : EStateM Exn DaterangeObject Bool :=
  search clock fun timeranges => Daterange.isTimeValid clock timeranges timestamp

def getNextFutureTimerangeValid (timestamp : Int) : EStateM Exn DaterangeObject (Option Int) := do
  readHours
  return Timerange.nextStart clock (← get).validRanges timestamp

def getNextFutureTimerangeInvalid (timestamp : Int) : EStateM Exn DaterangeObject (Option Int) := do
  readHours
  let ends := (← get).validRanges.filter fun timerange => decide (clock.getSecFromMorning timestamp ≤ timerange.lastSec)
  return (ends.map Timerange.invalidSec).min?

def getNextValidDay (timestamp : Int) : EStateM Exn DaterangeObject (Option Int) := do
  readHours
  search clock fun timeranges => Daterange.getNextValidDay clock timeranges timestamp

def getNextValidTimeFromT (timestamp : Int) : EStateM Exn DaterangeObject (Option Int) := do
  if ← isTimeValid clock timestamp then return some timestamp
  match ← getNextValidDay clock timestamp with
  | none => return none
  | some tDay =>
    match ← getNextFutureTimerangeValid clock (if timestamp < tDay then tDay else timestamp) with
    | some secFromMorning => return some (tDay + secFromMorning)
    | none =>
      match ← getNextValidDay clock (clock.getDay timestamp + 86400) with
      | none => return none
      | some tDay2 => return (← getNextFutureTimerangeValid clock tDay2).map fun secFromMorning => tDay2 + secFromMorning

def getNextInvalidDay (timestamp : Int) : EStateM Exn DaterangeObject (Option Int) := do
  if !(← isTimeDayValid clock timestamp) then return some timestamp
  match ← getNextFutureTimerangeInvalid clock timestamp with
  | none =>
    let (_, endTime) ← getStartAndEndTime clock (clock.getDay timestamp)
    return some (clock.getDay (endTime + 1))
  | some _ =>
    let (startTime, endTime) ← getStartAndEndTime clock timestamp
    if startTime ≤ timestamp ∧ timestamp ≤ endTime then return some (clock.getDay timestamp)
    else if startTime ≥ timestamp then return some (clock.getDay startTime)
    else return none

/-- With a day the search ends here, and the second one of the source is not reached. -/
def getNextInvalidTimeFromT (timestamp : Int) : EStateM Exn DaterangeObject Int := do
  if !(← isTimeValid clock timestamp) then return timestamp
  match ← getNextInvalidDay clock timestamp with
  | none => throw .typeError
  | some tDay =>
    match ← getNextFutureTimerangeInvalid clock (if timestamp < tDay then tDay else timestamp) with
    | some secFromMorning => return tDay + secFromMorning + 1
    | none => return tDay

/-- The periods of a daterange over the year that follows `originalT`. -/
def collectPeriods (originalT : Int) : Nat → Int → List (Int × Int) → EStateM Exn DaterangeObject (List (Int × Int))
  | 0, _, _ => throw .diverges
  | fuel + 1, timestamp, drMins => do
    match ← getNextValidTimeFromT clock timestamp with
    | none => return drMins
    | some start =>
      let stop ← getNextInvalidTimeFromT clock start
      if stop > originalT + 3600 * 24 * 365 then return drMins ++ [(start, stop)]
      else collectPeriods originalT fuel stop (drMins ++ [(start, stop)])

end DaterangeObject

/-! ## Timeperiods -/

inductive Attribute
  | flag (b : Bool)
  | number (n : Int)
  | text (s : String)
  | texts (l : List String)
  deriving DecidableEq, Repr

inductive TimeperiodProperty
  | name
  | importedFrom
  | use
  | definitionOrder
  | register
  | timeperiodName
  | aliasName
  | unresolved
  | invalidEntries
  | isActive
  | activatedOnce
  deriving DecidableEq, Repr

mutual
inductive TimeperiodObject
  | mk (uuid : String) (attributes : TimeperiodProperty → Attribute) (dateranges : List DaterangeObject) (exclude : List Excluded)

inductive Excluded
  | uuid (s : String)
  | timeperiod (tp : TimeperiodObject)
end

namespace TimeperiodObject

def dateranges : TimeperiodObject → List DaterangeObject
  | mk _ _ dateranges _ => dateranges

def exclude : TimeperiodObject → List Excluded
  | mk _ _ _ exclude => exclude

def withDateranges (dateranges : List DaterangeObject) : TimeperiodObject → TimeperiodObject
  | mk uuid attributes _ exclude => mk uuid attributes dateranges exclude

def withExclude (exclude : List Excluded) : TimeperiodObject → TimeperiodObject
  | mk uuid attributes dateranges _ => mk uuid attributes dateranges exclude

section
variable {α : Type}

def onDateranges (m : EStateM Exn (List DaterangeObject) α) : EStateM Exn TimeperiodObject α := onPart dateranges withDateranges m

def onExclude (m : EStateM Exn (List Excluded) α) : EStateM Exn TimeperiodObject α := onPart exclude withExclude m

end

variable (clock : Clock)

mutual
def isTimeValid (timestamp : Int) : TimeperiodObject → EStateM.Result Exn TimeperiodObject Bool
  | mk uuid attributes dateranges exclude =>
    match anyExcluded timestamp exclude with
    | .error e exclude => .error e (mk uuid attributes dateranges exclude)
    | .ok true exclude => .ok false (mk uuid attributes dateranges exclude)
    | .ok false exclude =>
      match firstThat (DaterangeObject.isTimeValid clock timestamp) dateranges with
      | .error e dateranges => .error e (mk uuid attributes dateranges exclude)
      | .ok b dateranges => .ok b (mk uuid attributes dateranges exclude)

def anyExcluded (timestamp : Int) : List Excluded → EStateM.Result Exn (List Excluded) Bool
  | [] => .ok false []
  | .uuid s :: l => .error .attributeError (.uuid s :: l)
  | .timeperiod tp :: l =>
    match isTimeValid timestamp tp with
    | .error e tp => .error e (.timeperiod tp :: l)
    | .ok true tp => .ok true (.timeperiod tp :: l)
    | .ok false tp =>
      match anyExcluded timestamp l with
      | .error e l => .error e (.timeperiod tp :: l)
      | .ok b l => .ok b (.timeperiod tp :: l)
end

def collectPeriods (fuel : Nat) (originalT : Int) : EStateM Exn TimeperiodObject (List (Int × Int)) :=
  onDateranges (List.flatten <$> each (DaterangeObject.collectPeriods clock originalT fuel originalT []))

end TimeperiodObject

namespace Excluded

def asked {α : Type} (m : EStateM Exn TimeperiodObject α) : EStateM Exn Excluded α
  | .uuid s => .error .attributeError (.uuid s)
  | .timeperiod tp =>
    match m tp with
    | .error e tp => .error e (.timeperiod tp)
    | .ok a tp => .ok a (.timeperiod tp)

end Excluded

namespace TimeperiodObject

open Timeperiod (Scan bound mergePeriods searchHorizon)

variable (clock : Clock)

def getNextInvalidTimeFromT (fuel : Nat) (originalT : Int) : EStateM Exn TimeperiodObject Int := do
  let periods := mergePeriods (← collectPeriods clock fuel originalT)
  let drMins ← onExclude (List.flatten <$> each (Excluded.asked (collectPeriods clock fuel originalT)))
  let periodsExclude := if drMins.isEmpty then [] else mergePeriods drMins
  let answer : Except Exn Int := match periods with
    | [] => return originalT
    | (start, stop) :: _ => do
      if (← bound start) > originalT then return originalT
      match periodsExclude with
      | [] => bound stop
      | (exStart, _) :: _ => do
        if (← bound exStart) < (← bound stop) then bound exStart
        else bound stop
  match answer with
  | .ok t => return t
  | .error e => throw e

def scanExcluded (t01 : Int) (s : Scan) : EStateM Exn Excluded Scan := do
  let valid ← Excluded.asked (isTimeValid clock t01)
  return if !valid && s.stillLoop then ⟨some t01, false⟩ else s

def scanCandidate (s : Scan) (t01 : Int) : EStateM Exn TimeperiodObject Scan := do
  if (← get).exclude.isEmpty && s.stillLoop then return ⟨some t01, false⟩
  else onExclude (visit (scanExcluded clock t01) s)

def sortedStarts (timestamp : Int) : EStateM Exn TimeperiodObject (List Int) := do
  let drMins ← onDateranges (each (DaterangeObject.getNextValidTimeFromT clock timestamp))
  return (drMins.filterMap id).insertionSort (· ≤ ·)

/-- The `while still_loop` loop: one turn from `timestamp`. -/
def searchLoop (originalT : Int) : Nat → Int → EStateM Exn TimeperiodObject (Option Int)
  | 0, _ => throw .diverges
  | fuel + 1, timestamp => do
    let sDrMins ← sortedStarts clock timestamp
    let s ← sDrMins.foldlM (scanCandidate clock) ⟨none, true⟩
    match s.localMin with
    | some localMin =>
      if localMin > originalT + searchHorizon then return none
      else if s.stillLoop then searchLoop originalT fuel localMin
      else return some localMin
    | none =>
      match sDrMins with
      | [] => return none
      | first :: _ =>
        -- looking for the next invalid date of the excluded periods
        let excMins ← onExclude (each (Excluded.asked (getNextInvalidTimeFromT clock fuel first)))
        match excMins.insertionSort (· ≤ ·) with
        | [] => return none
        | localMin :: _ =>
          if localMin > originalT + searchHorizon then return none
          else searchLoop originalT fuel localMin

end TimeperiodObject

structure CachedTimeperiod where
  object : TimeperiodObject
  cache : List (Int × Option Int)

namespace CachedTimeperiod

variable (clock : Clock)

def isTimeValid (timestamp : Int) : EStateM Exn CachedTimeperiod Bool :=
  onPart object (fun tp s => { s with object := tp }) (TimeperiodObject.isTimeValid clock timestamp)

def getNextValidTimeFromT (fuel : Nat) (timestamp : Int) : EStateM Exn CachedTimeperiod (Option Int) := do
  match ((← get).cache.lookup timestamp).join with
  | some res => return some res
  | none =>
    let localMin ← onPart object (fun tp s => { s with object := tp }) (TimeperiodObject.searchLoop clock timestamp fuel timestamp)
    modify fun s => { s with cache := (timestamp, localMin) :: s.cache }
    return localMin

end CachedTimeperiod

end Alignak
