import Alignak.Exn
import Mathlib.Data.List.Sort

/-!
# Timeperiods

A daterange is known through its three methods. A timeperiod is a list of
dateranges, a list of excluded timeperiods and the cache of its next valid
times; times are whole seconds.
-/

namespace Alignak

structure AbstractDaterange where
  isTimeValid : Int → Bool
  getNextValidTimeFromT : Int → Option Int
  getNextInvalidTimeFromT : Int → Option Int

inductive Timeperiod
  | mk (dateranges : List AbstractDaterange) (exclude : List Timeperiod) (cache : List (Int × Option Int))

namespace Timeperiod

def dateranges : Timeperiod → List AbstractDaterange
  | mk ds _ _ => ds

def exclude : Timeperiod → List Timeperiod
  | mk _ es _ => es

def cache : Timeperiod → List (Int × Option Int)
  | mk _ _ c => c

def withCache : Timeperiod → List (Int × Option Int) → Timeperiod
  | mk ds es _, c => mk ds es c

@[simp] theorem withCache_dateranges (tp : Timeperiod) (c) : (tp.withCache c).dateranges = tp.dateranges := by
  cases tp; rfl
@[simp] theorem withCache_exclude (tp : Timeperiod) (c) : (tp.withCache c).exclude = tp.exclude := by
  cases tp; rfl
@[simp] theorem withCache_cache (tp : Timeperiod) (c) : (tp.withCache c).cache = c := by cases tp; rfl

mutual
def isTimeValid : Timeperiod → Int → Bool
  | mk dateranges exclude _, timestamp =>
    if anyTimeValid exclude timestamp then false else dateranges.any fun d => d.isTimeValid timestamp
def anyTimeValid : List Timeperiod → Int → Bool
  | [], _ => false
  | tp :: tps, timestamp => tp.isTimeValid timestamp || anyTimeValid tps timestamp
end

theorem anyTimeValid_eq (tps : List Timeperiod) (t : Int) : anyTimeValid tps t = tps.any fun tp => tp.isTimeValid t := by
  induction tps with
  | nil => rfl
  | cons tp tps ih => simp [anyTimeValid, ih]

theorem isTimeValid_iff (tp : Timeperiod) (t : Int) :
    tp.isTimeValid t = true ↔
      (∃ d ∈ tp.dateranges, d.isTimeValid t = true) ∧ ∀ e ∈ tp.exclude, e.isTimeValid t = false := by
  cases tp with
  | mk ds es c =>
    simp only [isTimeValid, anyTimeValid_eq, dateranges, exclude]
    by_cases h : (es.any fun tp => tp.isTimeValid t) = true
    · have h' : ¬ ∀ e ∈ es, e.isTimeValid t = false := fun hn => by
        obtain ⟨e, he, hv⟩ := List.any_eq_true.mp h
        simp [hn e he] at hv
      simp [h, h']
    · have h' : ∀ e ∈ es, e.isTimeValid t = false := by simpa using h
      rw [if_neg h, List.any_eq_true]
      exact ⟨fun hd => ⟨hd, h'⟩, And.left⟩

/-! ## The next valid time -/

def findNextValidTimeFromCache (tp : Timeperiod) (timestamp : Int) : Option Int :=
  (tp.cache.lookup timestamp).join

structure Scan where
  localMin : Option Int
  stillLoop : Bool
  deriving DecidableEq, Repr

def scanExcluded (t01 : Int) (s : Scan) (timeperiod : Timeperiod) : Scan :=
  if !timeperiod.isTimeValid t01 && s.stillLoop then ⟨some t01, false⟩ else s

def scanCandidate (exclude : List Timeperiod) (s : Scan) (t01 : Int) : Scan :=
  if exclude.isEmpty && s.stillLoop then ⟨some t01, false⟩ else exclude.foldl (scanExcluded t01) s

def sortedStarts (tp : Timeperiod) (timestamp : Int) : List Int :=
  (tp.dateranges.filterMap fun d => d.getNextValidTimeFromT timestamp).insertionSort (· ≤ ·)

/-! ## Periods -/

structure MergeState where
  newIntervals : List (Option Int × Option Int)
  curStart : Option Int
  curEnd : Option Int

/-- `merge_periods`: the empty input gives the one period `(None, None)`. -/
def mergePeriods (data : List (Int × Int)) : List (Option Int × Option Int) :=
  let dat := data.insertionSort fun a b => a.1 ≤ b.1
  let s := dat.foldl (fun (s : MergeState) (d : Int × Int) =>
    match s.curEnd with
    | none => { s with curStart := some d.1, curEnd := some d.2 }
    | some curEnd =>
      if curEnd ≥ d.1 then { s with curEnd := some d.2 }
      else ⟨s.newIntervals ++ [(s.curStart, s.curEnd)], some d.1, some d.2⟩) ⟨[], none, none⟩
  s.newIntervals ++ [(s.curStart, s.curEnd)]

/-- The periods of one daterange over the year that follows `originalT`. -/
def collectPeriods (d : AbstractDaterange) (originalT : Int) :
    Nat → Int → List (Int × Int) → Except Exn (List (Int × Int))
  | 0, _, _ => .error .diverges
  | fuel + 1, timestamp, drMins =>
    match d.getNextValidTimeFromT timestamp with
    | none => .ok drMins
    | some start =>
      match d.getNextInvalidTimeFromT start with
      | none => .error .typeError
      | some stop =>
        if stop > originalT + 3600 * 24 * 365 then .ok (drMins ++ [(start, stop)])
        else collectPeriods d originalT fuel stop (drMins ++ [(start, stop)])

def collectAllPeriods (fuel : Nat) (originalT : Int) : List AbstractDaterange → Except Exn (List (Int × Int))
  | [] => .ok []
  | d :: ds => do
    let drMins ← collectPeriods d originalT fuel originalT []
    let rest ← collectAllPeriods fuel originalT ds
    return drMins ++ rest

/-- Comparing or returning a bound that is `None` raises `TypeError`. -/
def bound : Option Int → Except Exn Int
  | some t => .ok t
  | none => .error .typeError

def getNextInvalidTimeFromT (fuel : Nat) (tp : Timeperiod) (originalT : Int) : Except Exn Int := do
  let periods := mergePeriods (← collectAllPeriods fuel originalT tp.dateranges)
  let drMins ← collectAllPeriods fuel originalT (tp.exclude.flatMap fun e => e.dateranges)
  let periodsExclude := if drMins.isEmpty then [] else mergePeriods drMins
  match periods with
  | [] => return originalT
  | (start, stop) :: _ =>
    if (← bound start) > originalT then return originalT
    match periodsExclude with
    | [] => bound stop
    | (exStart, _) :: _ =>
      if (← bound exStart) < (← bound stop) then bound exStart
      else bound stop

/-! ## The search loop -/

def searchHorizon : Int := 3600 * 24 * 366 + 1

def nextInvalids (fuel : Nat) (u : Int) : List Timeperiod → Except Exn (List Int)
  | [] => .ok []
  | e :: es => do
    let r ← e.getNextInvalidTimeFromT fuel u
    let rest ← nextInvalids fuel u es
    return r :: rest

/-- The `while still_loop` loop: one turn from `timestamp`. -/
def searchLoop (tp : Timeperiod) (originalT : Int) : Nat → Int → Except Exn (Option Int)
  | 0, _ => .error .diverges
  | fuel + 1, timestamp =>
    let sDrMins := tp.sortedStarts timestamp
    let s := sDrMins.foldl (scanCandidate tp.exclude) ⟨none, true⟩
    match s.localMin with
    | some localMin =>
      if localMin > originalT + searchHorizon then .ok none
      else if s.stillLoop then searchLoop tp originalT fuel localMin
      else .ok (some localMin)
    | none =>
      match sDrMins with
      | [] => .ok none
      | first :: _ => do
        -- looking for the next invalid date of the excluded periods
        let excMins ← nextInvalids fuel first tp.exclude
        match excMins.insertionSort (· ≤ ·) with
        | [] => return none
        | localMin :: _ =>
          if localMin > originalT + searchHorizon then return none
          else searchLoop tp originalT fuel localMin

def getNextValidTimeFromT (fuel : Nat) (tp : Timeperiod) (timestamp : Int) :
    Except Exn (Option Int × Timeperiod) :=
  match tp.findNextValidTimeFromCache timestamp with
  | some res => .ok (some res, tp)
  | none => do
    let localMin ← searchLoop tp timestamp fuel timestamp
    return (localMin, tp.withCache ((timestamp, localMin) :: tp.cache))

def cleanCache (tp : Timeperiod) (now : Int) : Timeperiod :=
  tp.withCache (tp.cache.filter fun entry => !decide (entry.1 < now))

end Timeperiod

end Alignak
