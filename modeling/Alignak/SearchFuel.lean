import Alignak.TimeperiodInvalid

/-!
# The answer of a search and its fuel

More fuel gives the same answer.
-/

namespace Alignak.Timeperiod

/-- Fuel for the search over a year. -/
def yearFuel : Nat := 3600 * 24 * 365 + 2

section
variable {tp : Timeperiod} {t T : Int} {fuel k : Nat}

theorem collectPeriods_fuel (d : AbstractDaterange) {l : List (Int × Int)} : ∀ {fuel k : Nat} {T : Int} {acc : List (Int × Int)},
    fuel ≤ k → collectPeriods d t fuel T acc = .ok l → collectPeriods d t k T acc = .ok l
  | 0, _, _, _, _, h => by cases h
  | fuel + 1, 0, _, _, hk, _ => by omega
  | fuel + 1, k + 1, T, acc, hk, h => by
    unfold collectPeriods at h ⊢
    cases hs : d.getNextValidTimeFromT T with
    | none => rw [hs] at h; exact h
    | some start =>
      simp only [hs] at h ⊢
      cases hi : d.getNextInvalidTimeFromT start with
      | none => rw [hi] at h; exact h
      | some stop =>
        simp only [hi] at h ⊢
        by_cases hy : stop > t + 3600 * 24 * 365
        · rw [if_pos hy] at h ⊢
          exact h
        · rw [if_neg hy] at h ⊢
          exact collectPeriods_fuel d (Nat.le_of_succ_le_succ hk) h

theorem collectAllPeriods_fuel (hk : fuel ≤ k) : ∀ {ds : List AbstractDaterange} {l : List (Int × Int)},
    collectAllPeriods fuel t ds = .ok l → collectAllPeriods k t ds = .ok l
  | [], _, h => h
  | d :: ds, l, h => by
    unfold collectAllPeriods at h ⊢
    cases hd : collectPeriods d t fuel t [] with
    | error e => rw [hd] at h; cases h
    | ok l₁ =>
      cases hr : collectAllPeriods fuel t ds with
      | error e => rw [hd, hr] at h; cases h
      | ok l₂ =>
        rw [hd, hr] at h
        rw [collectPeriods_fuel d hk hd, collectAllPeriods_fuel hk hr]
        exact h

theorem getNextInvalidTimeFromT_fuel (hk : fuel ≤ k) {r : Int} (h : getNextInvalidTimeFromT fuel tp t = .ok r) :
    getNextInvalidTimeFromT k tp t = .ok r := by
  unfold getNextInvalidTimeFromT at h ⊢
  cases hd : collectAllPeriods fuel t tp.dateranges with
  | error e => rw [hd] at h; cases h
  | ok l₁ =>
    cases hx : collectAllPeriods fuel t (tp.exclude.flatMap fun e => e.dateranges) with
    | error e => rw [hd, hx] at h; cases h
    | ok l₂ =>
      rw [hd, hx] at h
      rw [collectAllPeriods_fuel hk hd, collectAllPeriods_fuel hk hx]
      exact h

theorem nextInvalids_fuel (hk : fuel ≤ k) : ∀ {es : List Timeperiod} {rs : List Int},
    nextInvalids fuel t es = .ok rs → nextInvalids k t es = .ok rs
  | [], _, h => h
  | e :: es, rs, h => by
    unfold nextInvalids at h ⊢
    cases he : e.getNextInvalidTimeFromT fuel t with
    | error x => rw [he] at h; cases h
    | ok r =>
      cases hr : nextInvalids fuel t es with
      | error x => rw [he, hr] at h; cases h
      | ok rs' =>
        rw [he, hr] at h
        rw [getNextInvalidTimeFromT_fuel hk he, nextInvalids_fuel hk hr]
        exact h

theorem searchLoop_eq (T : Int) : searchLoop tp t (fuel + 1) T =
    match (tp.sortedStarts T).find? (accepts tp.exclude) with
    | some m => .ok (if m > t + searchHorizon then none else some m)
    | none => match tp.sortedStarts T with
      | [] => .ok none
      | first :: _ => nextInvalids fuel first tp.exclude >>= fun excMins =>
        match excMins.insertionSort (· ≤ ·) with
        | [] => .ok none
        | m :: _ => if m > t + searchHorizon then .ok none else searchLoop tp t fuel m := by
  rw [searchLoop]
  simp only [foldl_scan]
  cases (tp.sortedStarts T).find? (accepts tp.exclude) with
  | some m =>
    simp only
    split <;> rfl
  | none => rfl

theorem searchLoop_fuel {o : Option Int} : ∀ {fuel k : Nat} {T : Int}, fuel ≤ k →
    searchLoop tp t fuel T = .ok o → searchLoop tp t k T = .ok o
  | 0, _, _, _, h => by cases h
  | fuel + 1, 0, _, hk, _ => by omega
  | fuel + 1, k + 1, T, hk, h => by
    have hk' : fuel ≤ k := Nat.le_of_succ_le_succ hk
    rw [searchLoop_eq] at h ⊢
    cases hm : (tp.sortedStarts T).find? (accepts tp.exclude) with
    | some m => rw [hm] at h; exact h
    | none =>
      simp only [hm] at h ⊢
      cases hs : tp.sortedStarts T with
      | nil => rw [hs] at h; exact h
      | cons first rest =>
        simp only [hs] at h ⊢
        cases hx : nextInvalids fuel first tp.exclude with
        | error e => rw [hx] at h; cases h
        | ok rs =>
          rw [hx] at h
          rw [nextInvalids_fuel hk' hx]
          simp only [Except.bind, bind] at h ⊢
          cases hms : rs.insertionSort (· ≤ ·) with
          | nil => rw [hms] at h; exact h
          | cons m ms =>
            simp only [hms] at h ⊢
            by_cases hh : m > t + searchHorizon
            · rw [if_pos hh] at h ⊢
              exact h
            · rw [if_neg hh] at h ⊢
              exact searchLoop_fuel hk' h

end

end Alignak.Timeperiod
