import Alignak.Intervals
import Alignak.TimeperiodSound

/-!
# What the search for the next invalid time returns

Each daterange gives its periods over a year, and the answer is where the chain
of the first ones ends, or where an excluded daterange starts before that
(`getNextInvalidTimeFromT_eq`).
-/

namespace Alignak

structure AbstractDaterange.ExactAnswers (d : AbstractDaterange) : Prop where
  valid : d.Exact
  invalid : ∀ t, NextFrom (fun u => d.isTimeValid u = false) t (d.getNextInvalidTimeFromT t)

/-- From `t` on, the daterange is valid from `s` up to `e` and not longer. -/
structure AbstractDaterange.Period (d : AbstractDaterange) (t s e : Int) : Prop where
  from_t : t ≤ s
  start : s = t ∨ d.isTimeValid (s - 1) = false
  lt : s < e
  valid : ∀ u, s ≤ u → u < e → d.isTimeValid u = true
  stop : d.isTimeValid e = false

def AbstractDaterange.Ends (d : AbstractDaterange) (t : Int) : Prop :=
  ∀ u s, t ≤ u → u ≤ t + 3600 * 24 * 365 → NextFrom (fun v => d.isTimeValid v = true) u (some s) →
    ∃ v, s ≤ v ∧ d.isTimeValid v = false

section
variable {d : AbstractDaterange} {t T s e u : Int}

theorem AbstractDaterange.ExactAnswers.period (h : d.ExactAnswers) (hT : t ≤ T) (hfrom : T = t ∨ d.isTimeValid T = false)
    (hs : d.getNextValidTimeFromT T = some s) (he : d.getNextInvalidTimeFromT s = some e) : d.Period t s e := by
  have h1 := h.valid T
  rw [hs] at h1
  have h2 := h.invalid s
  rw [he] at h2
  have hvalid : ∀ u, s ≤ u → u < e → d.isTimeValid u = true := fun u hu hlt => by
    rw [← Bool.not_eq_false]
    exact h2.not_before hu hlt
  have hne : s ≠ e := fun h => by
    have h3 : d.isTimeValid s = true := h1.sat
    rw [h] at h3
    exact absurd (h3.symm.trans h2.sat) (by decide)
  refine ⟨hT.trans h1.le, ?_, lt_of_le_of_ne h2.le hne, hvalid, h2.sat⟩
  rcases eq_or_lt_of_le h1.le with rfl | hlt
  · refine hfrom.imp id fun hf => ?_
    exact absurd (hf.symm.trans h1.sat) (by decide)
  · right
    rw [← Bool.not_eq_true]
    exact h1.not_before (by omega) (by omega)

theorem AbstractDaterange.Period.unique {s' e' : Int} (h : d.Period t s e) (h' : d.Period t s' e') (hs : s' < e) (hs' : s ≤ s') :
    s' = s ∧ e' = e := by
  have hss : s' = s := by
    rcases h'.start with rfl | hv
    · exact le_antisymm h.from_t hs'
    · by_contra hne
      exact absurd (hv.symm.trans (h.valid (s' - 1) (by omega) (by omega))) (by decide)
  subst hss
  refine ⟨rfl, ?_⟩
  by_contra hne
  rcases lt_or_gt_of_ne hne with hlt | hlt
  · exact absurd (h'.stop.symm.trans (h.valid e' (by have := h'.lt; omega) hlt)) (by decide)
  · exact absurd (h.stop.symm.trans (h'.valid e (by have := h.lt; omega) hlt)) (by decide)

/-- The periods that start from `T` on, up to the end of the year. -/
structure AbstractDaterange.Periods (d : AbstractDaterange) (t T : Int) (l : List (Int × Int)) : Prop where
  periods : ∀ p ∈ l, d.Period t p.1 p.2 ∧ T ≤ p.1
  complete : ∀ s e, d.Period t s e → T ≤ s → s ≤ t + 3600 * 24 * 365 → (s, e) ∈ l
  nodup : l.Pairwise fun p q => p.1 < q.1
  some : ∀ u, T ≤ u → d.isTimeValid u = true → l ≠ []

end

namespace Timeperiod

section
variable {d : AbstractDaterange} {t T : Int}

theorem collectPeriods_ok (h : d.ExactAnswers) (he : d.Ends t) : ∀ (fuel : Nat) (T : Int) (acc : List (Int × Int)), t ≤ T →
    T ≤ t + 3600 * 24 * 365 → (T = t ∨ d.isTimeValid T = false) → (t + 3600 * 24 * 365 - T).toNat + 2 ≤ fuel →
    ∃ l, collectPeriods d t fuel T acc = .ok (acc ++ l) ∧ d.Periods t T l
  | 0, _, _, _, _, _, hf => by omega
  | fuel + 1, T, acc, hT, hyear, hfrom, hf => by
    have h1 := h.valid T
    rw [collectPeriods]
    cases hs : d.getNextValidTimeFromT T with
    | none =>
      rw [hs] at h1
      refine ⟨[], by rw [List.append_nil], ⟨fun p hp => absurd hp List.not_mem_nil, fun s e hp hTs _ => ?_, List.Pairwise.nil,
        fun u hu hv => absurd hv (h1 u hu)⟩⟩
      exact absurd (hp.valid s (le_refl s) hp.lt) (h1 s hTs)
    | some s =>
      rw [hs] at h1
      obtain ⟨v, hsv, hv⟩ := he T s hT hyear h1
      obtain ⟨e, hes, -⟩ := (h.invalid s).isSome_of_sat hsv hv
      simp only [hes]
      have hp := h.period hT hfrom hs hes
      have hfirst : ∀ s' e', d.Period t s' e' → T ≤ s' → s ≤ s' := fun s' e' hp' hTs =>
        h1.2 ⟨hTs, hp'.valid s' (le_refl s') hp'.lt⟩
      have hlater : ∀ s' e', d.Period t s' e' → T ≤ s' → (s' = s ∧ e' = e) ∨ e ≤ s' := fun s' e' hp' hTs => by
        by_cases hlt : s' < e
        · exact Or.inl (hp.unique hp' hlt (hfirst s' e' hp' hTs))
        · exact Or.inr (not_lt.mp hlt)
      split
      · rename_i hstop
        refine ⟨[(s, e)], rfl, fun p hmem => ?_, fun s' e' hp' hTs hy => ?_, List.pairwise_singleton .., fun _ _ _ =>
          List.cons_ne_nil _ _⟩
        · rw [List.mem_singleton] at hmem
          subst hmem
          exact ⟨hp, h1.le⟩
        · rcases hlater s' e' hp' hTs with ⟨rfl, rfl⟩ | hle
          · exact List.mem_singleton.mpr rfl
          · omega
      · rename_i hstop
        have hlt := hp.lt
        have hTs : T ≤ s := h1.le
        obtain ⟨l, hl, hall, hcomplete, hnodup, -⟩ := collectPeriods_ok h he fuel e (acc ++ [(s, e)]) (by omega) (by omega)
          (Or.inr hp.stop) (by omega)
        refine ⟨(s, e) :: l, by rw [hl, List.append_assoc]; rfl, fun p hmem => ?_, fun s' e' hp' hTs' hy => ?_, ?_,
          fun _ _ _ => List.cons_ne_nil _ _⟩
        · rcases List.mem_cons.mp hmem with rfl | hmem
          · exact ⟨hp, hTs⟩
          · exact ⟨(hall p hmem).1, by have := (hall p hmem).2; omega⟩
        · rcases hlater s' e' hp' hTs' with ⟨rfl, rfl⟩ | hle
          · exact List.mem_cons_self
          · exact List.mem_cons_of_mem _ (hcomplete s' e' hp' hle hy)
        · exact List.pairwise_cons.mpr ⟨fun p hmem => by have := (hall p hmem).2; show s < p.1; omega, hnodup⟩

/-- Validity without an end raises `TypeError`. -/
theorem collectPeriods_endless (h : d.ExactAnswers) {u s : Int} (hu : u ≤ t + 3600 * 24 * 365)
    (hs : NextFrom (fun v => d.isTimeValid v = true) u (some s)) (hv : ∀ v, s ≤ v → d.isTimeValid v = true) :
    ∀ (fuel : Nat) (T : Int) (acc l : List (Int × Int)), T ≤ u → collectPeriods d t fuel T acc ≠ .ok l
  | 0, _, _, _, _ => by simp [collectPeriods]
  | fuel + 1, T, acc, l, hT => by
    rw [collectPeriods]
    have h1 := h.valid T
    have hus : u ≤ s := hs.le
    obtain ⟨start, hstart, hle⟩ := h1.isSome_of_sat (hT.trans hus) hs.sat
    rw [hstart] at h1
    simp only [hstart]
    have h2 := h.invalid start
    cases he : d.getNextInvalidTimeFromT start with
    | none => simp
    | some stop =>
      rw [he] at h2
      have hstop : stop ≤ u := by
        by_contra hlt
        have hbefore : stop < s := by
          by_contra hge
          exact absurd (h2.sat.symm.trans (hv stop (by omega))) (by decide)
        have hlast : d.isTimeValid (stop - 1) = true := by
          rw [← Bool.not_eq_false]
          have hst : start < stop := by
            refine lt_of_le_of_ne h2.le fun e => ?_
            have h3 := h2.sat
            rw [← e] at h3
            exact absurd (h1.sat.symm.trans h3) (by decide)
          exact h2.not_before (by omega) (by omega)
        exact hs.not_before (by omega) (by omega) hlast
      simp only [if_neg (show ¬ stop > t + 3600 * 24 * 365 by omega)]
      exact collectPeriods_endless h hu hs hv fuel stop _ l hstop

theorem collectAllPeriods_ok {fuel : Nat} (hf : 3600 * 24 * 365 + 2 ≤ fuel) : ∀ {ds : List AbstractDaterange},
    (∀ d ∈ ds, d.ExactAnswers) → (∀ d ∈ ds, d.Ends t) →
    ∃ ls, List.Forall₂ (fun d l => d.Periods t t l) ds ls ∧ collectAllPeriods fuel t ds = .ok ls.flatten
  | [], _, _ => ⟨[], List.Forall₂.nil, rfl⟩
  | d :: ds, h, he => by
    obtain ⟨ls, hls, hrest⟩ := collectAllPeriods_ok hf (fun d' hd => h d' (List.mem_cons_of_mem _ hd))
      fun d' hd => he d' (List.mem_cons_of_mem _ hd)
    obtain ⟨l, hl, hp⟩ := collectPeriods_ok (h d List.mem_cons_self) (he d List.mem_cons_self) fuel t [] (le_refl t) (by omega)
      (Or.inl rfl) (by omega)
    refine ⟨l :: ls, List.Forall₂.cons hp hls, ?_⟩
    rw [collectAllPeriods, hl, hrest]
    rfl

theorem collectAllPeriods_endless {fuel : Nat} {D : List (Int × Int)} : ∀ {ds : List AbstractDaterange},
    (∀ d ∈ ds, d.ExactAnswers) → d ∈ ds → ¬ d.Ends t → collectAllPeriods fuel t ds ≠ .ok D
  | d' :: ds, h, hd, he, hok => by
    rw [collectAllPeriods] at hok
    cases hc : collectPeriods d' t fuel t [] with
    | error x =>
      rw [hc] at hok
      cases hok
    | ok l =>
      rw [hc] at hok
      rcases List.mem_cons.mp hd with rfl | hd
      · unfold AbstractDaterange.Ends at he
        push Not at he
        obtain ⟨u, s, hu, hy, hs, hv⟩ := he
        refine collectPeriods_endless (h d List.mem_cons_self) hy hs (fun v hsv => ?_) fuel t [] l hu hc
        rw [← Bool.not_eq_false]
        exact hv v hsv
      · cases hr : collectAllPeriods fuel t ds with
        | error x =>
          rw [hr] at hok
          cases hok
        | ok D' => exact collectAllPeriods_endless (fun d'' hd' => h d'' (List.mem_cons_of_mem _ hd')) hd he hr

/-! ## The merge -/

def mergeStep (s : MergeState) (d : Int × Int) : MergeState :=
  match s.curEnd with
  | none => { s with curStart := some d.1, curEnd := some d.2 }
  | some curEnd =>
    if curEnd ≥ d.1 then { s with curEnd := some d.2 }
    else ⟨s.newIntervals ++ [(s.curStart, s.curEnd)], some d.1, some d.2⟩

def MergeState.result (s : MergeState) : List (Option Int × Option Int) := s.newIntervals ++ [(s.curStart, s.curEnd)]

theorem mergePeriods_eq (data : List (Int × Int)) :
    mergePeriods data = ((sortByStart data).foldl mergeStep ⟨[], none, none⟩).result := rfl

theorem merge_keeps_first {x : Option Int × Option Int} : ∀ {l : List (Int × Int)} {is : List (Option Int × Option Int)}
    {s e : Int}, ∃ rest, (l.foldl mergeStep ⟨x :: is, some s, some e⟩).result = x :: rest
  | [], is, s, e => ⟨_, rfl⟩
  | d :: l, is, s, e => by
    rw [List.foldl_cons, mergeStep]
    simp only
    split
    · exact merge_keeps_first
    · exact merge_keeps_first

theorem merge_first : ∀ {l : List (Int × Int)} {s e : Int},
    ∃ rest, (l.foldl mergeStep ⟨[], some s, some e⟩).result = (some s, some (chainEnd e l)) :: rest
  | [], s, e => ⟨_, rfl⟩
  | d :: l, s, e => by
    rw [List.foldl_cons, mergeStep, chainEnd]
    simp only [ge_iff_le]
    split
    · exact merge_first
    · exact merge_keeps_first

theorem mergePeriods_nil : mergePeriods [] = [(none, none)] := rfl

theorem mergePeriods_first {data l : List (Int × Int)} {p : Int × Int} (h : sortByStart data = p :: l) :
    ∃ rest, mergePeriods data = (some p.1, some (chainEnd p.2 l)) :: rest := by
  rw [mergePeriods_eq, h]
  exact merge_first

/-! ## The answer -/

variable {fuel : Nat} {tp : Timeperiod} {D X l : List (Int × Int)} {p : Int × Int}

theorem getNextInvalidTimeFromT_error (hD : collectAllPeriods fuel t tp.dateranges = .ok []) {r : Int} :
    getNextInvalidTimeFromT fuel tp t ≠ .ok r := by
  unfold getNextInvalidTimeFromT
  rw [hD]
  intro h
  change (do
    let drMins ← collectAllPeriods fuel t (tp.exclude.flatMap fun e => e.dateranges)
    let _ := if drMins.isEmpty then [] else mergePeriods drMins
    throw Exn.typeError : Except Exn Int) = .ok r at h
  cases hX : collectAllPeriods fuel t (tp.exclude.flatMap fun e => e.dateranges) <;> rw [hX] at h <;> cases h

theorem getNextInvalidTimeFromT_collects {r : Int} (hr : getNextInvalidTimeFromT fuel tp t = .ok r) : ∃ D X,
    collectAllPeriods fuel t tp.dateranges = .ok D ∧
      collectAllPeriods fuel t (tp.exclude.flatMap fun e => e.dateranges) = .ok X := by
  unfold getNextInvalidTimeFromT at hr
  cases hD : collectAllPeriods fuel t tp.dateranges with
  | error x =>
    rw [hD] at hr
    cases hr
  | ok D =>
    cases hX : collectAllPeriods fuel t (tp.exclude.flatMap fun e => e.dateranges) with
    | error x =>
      rw [hD, hX] at hr
      cases hr
    | ok X => exact ⟨D, X, rfl, rfl⟩

theorem getNextInvalidTimeFromT_eq (hD : collectAllPeriods fuel t tp.dateranges = .ok D)
    (hX : collectAllPeriods fuel t (tp.exclude.flatMap fun e => e.dateranges) = .ok X) (hs : sortByStart D = p :: l) :
    getNextInvalidTimeFromT fuel tp t = .ok (if p.1 > t then t else
      match sortByStart X with
      | [] => chainEnd p.2 l
      | x :: _ => if x.1 < chainEnd p.2 l then x.1 else chainEnd p.2 l) := by
  obtain ⟨rest, hm⟩ := mergePeriods_first hs
  unfold getNextInvalidTimeFromT
  rw [hD, hX]
  have hbind : ∀ {α β : Type} (a : α) (k : α → Except Exn β), (Except.ok a >>= k) = k a := fun _ _ => rfl
  rw [hbind, hbind, hm]
  change (if p.1 > t then _ else _ : Except Exn Int) = _
  split
  · rfl
  · cases hx : sortByStart X with
    | nil =>
      have hnil := sortByStart_eq_nil.mp hx
      subst hnil
      rfl
    | cons x xs =>
      obtain ⟨rest', hm'⟩ := mergePeriods_first hx
      have hne : X.isEmpty = false := by
        cases X with
        | nil => cases hx
        | cons x X => rfl
      simp only [hne, hm']
      change (if x.1 < chainEnd p.2 l then _ else _ : Except Exn Int) = _
      split <;> rfl

/-! ## The first invalid time -/

def FirstInvalid (tp : Timeperiod) (t r : Int) : Prop := IsLeast {u | t ≤ u ∧ tp.isTimeValid u = false} r

/-- With fuel enough the answer is the first invalid time, if that is within a year. -/
def ReturnsFirstInvalid (tp : Timeperiod) (t : Int) : Prop :=
  ∀ r, tp.FirstInvalid t r → r ≤ t + 3600 * 24 * 365 → ∃ n, ∀ fuel, n ≤ fuel → getNextInvalidTimeFromT fuel tp t = .ok r

def asked (tp : Timeperiod) : List AbstractDaterange := tp.dateranges ++ tp.exclude.flatMap fun e => e.dateranges

/-- What the answer `r` from `t` takes. -/
structure Regular (tp : Timeperiod) (t r : Int) : Prop where
  some : ∃ d ∈ tp.dateranges, ∃ u, t ≤ u ∧ d.isTimeValid u = true
  ends : ∀ d ∈ tp.asked, d.Ends t
  /-- A period that ends before `r` has one after it, in the order of the starts, that starts no later than its end. -/
  followed : ∀ before d after, tp.dateranges = before ++ d :: after → ∀ s e, d.Period t s e → e < r →
    (∃ d' ∈ after, ∃ e', d'.Period t s e') ∨ ∃ d' ∈ tp.dateranges, ∃ s' e', d'.Period t s' e' ∧ s < s' ∧ s' ≤ e
  exclude : ∀ u, t ≤ u → u < r → ∀ e ∈ tp.exclude, ∀ d ∈ e.dateranges, d.isTimeValid u = false

section
variable {ds : List AbstractDaterange} {ls : List (List (Int × Int))} {q : Int × Int} {r u : Int}

theorem mem_periods (h : List.Forall₂ (fun d l => d.Periods t t l) ds ls) (hq : q ∈ ls.flatten) : ∃ d ∈ ds, d.Period t q.1 q.2 := by
  induction h with
  | nil => cases hq
  | cons hp h ih =>
    rw [List.flatten_cons, List.mem_append] at hq
    rcases hq with hq | hq
    · exact ⟨_, List.mem_cons_self, (hp.periods q hq).1⟩
    · obtain ⟨d, hd, hper⟩ := ih hq
      exact ⟨d, List.mem_cons_of_mem _ hd, hper⟩

theorem periods_mem (h : List.Forall₂ (fun d l => d.Periods t t l) ds ls) (hd : d ∈ ds) {s e : Int} (hp : d.Period t s e)
    (hy : s ≤ t + 3600 * 24 * 365) : (s, e) ∈ ls.flatten := by
  induction h with
  | nil => cases hd
  | cons hl h ih =>
    rw [List.flatten_cons, List.mem_append]
    rcases List.mem_cons.mp hd with rfl | hd
    · exact Or.inl (hl.complete s e hp hp.from_t hy)
    · exact Or.inr (ih hd)

theorem last_with_start (h : List.Forall₂ (fun d l => d.Periods t t l) ds ls) (hy : q.1 ≤ t + 3600 * 24 * 365) :
    (ls.flatten.filter fun x => x.1 = q.1).getLast? = some q ↔ ∃ before d after, ds = before ++ d :: after ∧
      d.Period t q.1 q.2 ∧ ∀ d' ∈ after, ∀ e, ¬ d'.Period t q.1 e := by
  induction h with
  | nil => simp
  | @cons d l ds ls hl h ih =>
    rw [List.flatten_cons, List.filter_append]
    by_cases hnil : (ls.flatten.filter fun x => x.1 = q.1) = []
    · rw [hnil, List.append_nil]
      have hnone : ∀ d' ∈ ds, ∀ e, ¬ d'.Period t q.1 e := fun d' hd' e hp => by
        have hmem := periods_mem h hd' hp hy
        exact List.filter_eq_nil_iff.mp hnil _ hmem (by simp)
      have hone : (l.filter fun x => x.1 = q.1).getLast? = some q ↔ d.Period t q.1 q.2 := by
        constructor
        · intro hlast
          exact (hl.periods q (List.mem_filter.mp (List.mem_of_getLast? hlast)).1).1
        · intro hp
          have hq : q ∈ l.filter fun x => x.1 = q.1 :=
            List.mem_filter.mpr ⟨hl.complete q.1 q.2 hp hp.from_t hy, by simp⟩
          have hlen : (l.filter fun x => x.1 = q.1).length ≤ 1 := by
            by_contra hgt
            obtain ⟨a, b, m, e⟩ : ∃ a b m, (l.filter fun x => x.1 = q.1) = a :: b :: m := by
              cases hf : l.filter fun x => x.1 = q.1 with
              | nil => rw [hf] at hgt; simp at hgt
              | cons a m =>
                cases m with
                | nil => rw [hf] at hgt; simp at hgt
                | cons b m => exact ⟨a, b, m, rfl⟩
            have hpair := (hl.nodup.filter fun x => decide (x.1 = q.1))
            rw [e] at hpair
            have hlt := (List.pairwise_cons.mp hpair).1 b List.mem_cons_self
            have ha : a ∈ l.filter fun x => x.1 = q.1 := e ▸ List.mem_cons_self
            have hb : b ∈ l.filter fun x => x.1 = q.1 := e ▸ List.mem_cons_of_mem _ List.mem_cons_self
            have ha' := (List.mem_filter.mp ha).2
            have hb' := (List.mem_filter.mp hb).2
            rw [decide_eq_true_eq] at ha' hb'
            omega
          cases hf : l.filter fun x => x.1 = q.1 with
          | nil => rw [hf] at hq; cases hq
          | cons a m =>
            rw [hf] at hq hlen
            cases m with
            | nil =>
              rw [List.mem_singleton] at hq
              rw [hq]
              rfl
            | cons b m => simp at hlen
      rw [hone]
      constructor
      · exact fun hp => ⟨[], d, ds, rfl, hp, hnone⟩
      · rintro ⟨before, d', after, e, hp, -⟩
        cases before with
        | nil =>
          cases e
          exact hp
        | cons x before =>
          rw [List.cons_append, List.cons.injEq] at e
          exact absurd hp (hnone d' (e.2 ▸ List.mem_append_right _ List.mem_cons_self) q.2)
    · rw [List.getLast?_append_of_ne_nil _ hnil, ih]
      constructor
      · rintro ⟨before, d', after, e, hp⟩
        exact ⟨d :: before, d', after, by rw [e]; rfl, hp⟩
      · rintro ⟨before, d', after, e, hp, hafter⟩
        cases before with
        | nil =>
          cases e
          -- another daterange has a period with this start
          obtain ⟨x, hx⟩ := List.exists_mem_of_ne_nil _ hnil
          obtain ⟨hx, hxq⟩ := List.mem_filter.mp hx
          rw [decide_eq_true_eq] at hxq
          obtain ⟨d'', hd'', hp''⟩ := mem_periods h hx
          rw [hxq] at hp''
          exact absurd hp'' (hafter d'' hd'' x.2)
        | cons y before =>
          rw [List.cons_append, List.cons.injEq] at e
          exact ⟨before, d', after, e.2, hp, hafter⟩

end

section
variable {ds : List AbstractDaterange} {ls : List (List (Int × Int))} {r u : Int}

theorem first_period (h : d.ExactAnswers) (he : d.Ends t) (hu : t ≤ u) (hv : d.isTimeValid u = true) :
    ∃ s e, d.Period t s e ∧ s ≤ u := by
  have h1 := h.valid t
  obtain ⟨s, hs, hle⟩ := h1.isSome_of_sat hu hv
  rw [hs] at h1
  obtain ⟨v, hsv, hf⟩ := he t s (le_refl t) (by omega) h1
  obtain ⟨e, hes, -⟩ := (h.invalid s).isSome_of_sat hsv hf
  exact ⟨s, e, h.period (le_refl t) (Or.inl rfl) hs hes, hle⟩

theorem periods_ne_nil (h : List.Forall₂ (fun d l => d.Periods t t l) ds ls) (hd : d ∈ ds) (hu : t ≤ u)
    (hv : d.isTimeValid u = true) : ls.flatten ≠ [] := by
  induction h with
  | nil => cases hd
  | cons hl h ih =>
    rw [List.flatten_cons]
    intro hnil
    obtain ⟨h1, h2⟩ := List.append_eq_nil_iff.mp hnil
    rcases List.mem_cons.mp hd with rfl | hd
    · exact hl.some u hu hv h1
    · exact ih hd h2

theorem gap_iff (h : List.Forall₂ (fun d l => d.Periods t t l) ds ls) (hy : r ≤ t + 3600 * 24 * 365) :
    (∃ q, q.2 < r ∧ Gap (sortByStart ls.flatten) q) ↔
      ∃ before d after, ds = before ++ d :: after ∧ ∃ s e, d.Period t s e ∧ e < r ∧ (∀ d' ∈ after, ∀ e', ¬ d'.Period t s e') ∧
        ∀ d' ∈ ds, ∀ s' e', d'.Period t s' e' → s < s' → ¬ s' ≤ e := by
  constructor
  · rintro ⟨q, hq, hgap⟩
    have hmem : q ∈ ls.flatten := by
      obtain ⟨pre, post, e, -⟩ := hgap
      exact mem_sortByStart.mp (e ▸ List.mem_append_right _ List.mem_cons_self)
    obtain ⟨d₀, -, hd0⟩ := mem_periods h hmem
    have hlt := hd0.lt
    obtain ⟨hlast, hnone⟩ := (gap_sortByStart_iff (le_of_lt hlt)).mp hgap
    obtain ⟨before, d, after, e, hp, hafter⟩ := (last_with_start h (by omega)).mp hlast
    refine ⟨before, d, after, e, q.1, q.2, hp, hq, hafter, fun d' hd' s' e' hp' hlt' hle => ?_⟩
    have := hnone _ (periods_mem h hd' hp' (by omega)) hlt'
    simp only at this
    omega
  · rintro ⟨before, d, after, e, s, e', hp, hr, hafter, hnone⟩
    have hlt := hp.lt
    refine ⟨(s, e'), hr, (gap_sortByStart_iff (le_of_lt hlt)).mpr
      ⟨(last_with_start (q := (s, e')) h (show s ≤ _ by omega)).mpr ⟨before, d, after, e, hp, hafter⟩, fun x hx hsx => ?_⟩⟩
    obtain ⟨d', hd', hp'⟩ := mem_periods h hx
    exact not_le.mp (hnone d' hd' x.1 x.2 hp' hsx)

end

variable {r : Int}

theorem followed_iff_not_gap {ls : List (List (Int × Int))} (h : List.Forall₂ (fun d l => d.Periods t t l) tp.dateranges ls)
    (hy : r ≤ t + 3600 * 24 * 365) :
    (∀ before d after, tp.dateranges = before ++ d :: after → ∀ s e, d.Period t s e → e < r →
      (∃ d' ∈ after, ∃ e', d'.Period t s e') ∨ ∃ d' ∈ tp.dateranges, ∃ s' e', d'.Period t s' e' ∧ s < s' ∧ s' ≤ e) ↔
    ¬ ∃ q, q.2 < r ∧ Gap (sortByStart ls.flatten) q := by
  rw [gap_iff h hy]
  push Not
  constructor
  · intro hall before d after e s e' hp hlt hafter
    rcases hall before d after e s e' hp hlt with ⟨d', hd', e'', hp'⟩ | h'
    · exact absurd hp' (hafter d' hd' e'')
    · exact h'
  · intro hall before d after e s e' hp hlt
    by_cases hafter : ∃ d' ∈ after, ∃ e', d'.Period t s e'
    · exact Or.inl hafter
    · push Not at hafter
      exact Or.inr (hall before d after e s e' hp hlt hafter)

theorem first_le_valid (h : ∀ d ∈ ds, d.ExactAnswers) (he : ∀ d ∈ ds, d.Ends t)
    (hls : List.Forall₂ (fun d l => d.Periods t t l) ds ls) (hs : sortByStart ls.flatten = p :: l) (hu : t ≤ u)
    (hy : u ≤ t + 3600 * 24 * 365) (hd : d ∈ ds) (hv : d.isTimeValid u = true) : p.1 ≤ u := by
  obtain ⟨s, e, hper, hsu⟩ := first_period (h d hd) (he d hd) hu hv
  exact ((first_of_sortByStart hs).2 (s, e) (periods_mem hls hd hper (by omega))).trans hsu

theorem collects_asked (h : ∀ d ∈ tp.asked, d.ExactAnswers) (he : ∀ d ∈ tp.asked, d.Ends t) (hf : 3600 * 24 * 365 + 2 ≤ fuel) :
    ∃ ls xs, List.Forall₂ (fun d l => d.Periods t t l) tp.dateranges ls ∧
      List.Forall₂ (fun d l => d.Periods t t l) (tp.exclude.flatMap fun e => e.dateranges) xs ∧
      collectAllPeriods fuel t tp.dateranges = .ok ls.flatten ∧
      collectAllPeriods fuel t (tp.exclude.flatMap fun e => e.dateranges) = .ok xs.flatten := by
  obtain ⟨ls, hls, hD⟩ := collectAllPeriods_ok (t := t) hf (fun d hd => h d (List.mem_append_left _ hd))
    fun d hd => he d (List.mem_append_left _ hd)
  obtain ⟨xs, hxs, hX⟩ := collectAllPeriods_ok (t := t) hf (fun d hd => h d (List.mem_append_right _ hd))
    fun d hd => he d (List.mem_append_right _ hd)
  exact ⟨ls, xs, hls, hxs, hD, hX⟩

theorem ends_of_ok (h : ∀ d ∈ tp.asked, d.ExactAnswers) (hr : getNextInvalidTimeFromT fuel tp t = .ok r) :
    ∀ d ∈ tp.asked, d.Ends t := by
  intro d hd
  by_contra he
  obtain ⟨D, X, hD, hX⟩ := getNextInvalidTimeFromT_collects hr
  rcases List.mem_append.mp hd with hd | hd
  · exact collectAllPeriods_endless (fun d hd => h d (List.mem_append_left _ hd)) hd he hD
  · exact collectAllPeriods_endless (fun d hd => h d (List.mem_append_right _ hd)) hd he hX

theorem answer_iff (h : ∀ d ∈ tp.asked, d.ExactAnswers) (he : ∀ d ∈ tp.asked, d.Ends t) (hf : 3600 * 24 * 365 + 2 ≤ fuel)
    (hr : tp.FirstInvalid t r) (hy : r ≤ t + 3600 * 24 * 365) :
    getNextInvalidTimeFromT fuel tp t = .ok r ↔ tp.Regular t r := by
  obtain ⟨ls, xs, hls, hxs, hD, hX⟩ := collects_asked h he hf
  have htr : t ≤ r := hr.1.1
  cases hs : sortByStart ls.flatten with
  | nil =>
    have hnil := sortByStart_eq_nil.mp hs
    refine ⟨fun hok => absurd hok (getNextInvalidTimeFromT_error (hnil ▸ hD)), fun hreg => ?_⟩
    obtain ⟨d, hd, u, hu, hv⟩ := hreg.some
    exact absurd hnil (periods_ne_nil hls hd hu hv)
  | cons p l =>
    rw [getNextInvalidTimeFromT_eq hD hX hs]
    obtain ⟨d0, hd0, hp0⟩ := mem_periods hls (first_of_sortByStart hs).1
    have hsome : ∃ d ∈ tp.dateranges, ∃ u, t ≤ u ∧ d.isTimeValid u = true :=
      ⟨d0, hd0, p.1, hp0.from_t, hp0.valid p.1 (le_refl _) hp0.lt⟩
    by_cases hpt : p.1 > t
    · rw [if_pos hpt]
      -- nothing covers `t`
      have hinvalid : tp.isTimeValid t = false := by
        rw [← Bool.not_eq_true]
        intro hv
        obtain ⟨⟨d, hd, hdv⟩, -⟩ := (isTimeValid_iff tp t).mp hv
        exact absurd (first_le_valid (fun d hd => h d (List.mem_append_left _ hd)) (fun d hd => he d (List.mem_append_left _ hd))
          hls hs (le_refl t) (by omega) hd hdv) (not_le.mpr hpt)
      have hrt : r = t := le_antisymm (hr.2 ⟨le_refl t, hinvalid⟩) htr
      subst hrt
      refine ⟨fun _ => ⟨hsome, he, fun before d after e s e' hper hlt => ?_, fun u hu hlt => absurd hu (not_le.mpr hlt)⟩,
        fun _ => rfl⟩
      have h1 := hper.from_t
      have h2 := hper.lt
      omega
    · rw [if_neg hpt]
      have hpt' : p.1 = t := le_antisymm (not_lt.mp hpt) hp0.from_t
      have hchain : chainEnd p.2 l < r ↔ ∃ q, q.2 < r ∧ Gap (sortByStart ls.flatten) q := by
        rw [hs]
        refine chainEnd_lt_iff (hs ▸ sortByStart_sorted _) fun x hx => ?_
        obtain ⟨d, -, hper⟩ := mem_periods hls (mem_sortByStart.mp (hs ▸ hx))
        exact le_of_lt hper.lt
      have hreg : tp.Regular t r ↔ ¬ chainEnd p.2 l < r ∧
          ∀ u, t ≤ u → u < r → ∀ e ∈ tp.exclude, ∀ d ∈ e.dateranges, d.isTimeValid u = false := by
        rw [hchain, ← followed_iff_not_gap hls hy]
        exact ⟨fun hreg => ⟨hreg.followed, hreg.exclude⟩, fun hreg => ⟨hsome, he, hreg.1, hreg.2⟩⟩
      -- before the end of the chain, only an exclusion makes an instant invalid
      have hexcluded : r < chainEnd p.2 l → ∃ d ∈ tp.exclude.flatMap (fun e => e.dateranges), d.isTimeValid r = true := by
        intro hlt
        obtain ⟨q, hq, hq1, hq2⟩ := chainEnd_covered (hpt'.trans_le htr) hlt
        obtain ⟨d, hd, hper⟩ := mem_periods hls (mem_sortByStart.mp (hs ▸ hq))
        by_contra hno
        push Not at hno
        have hvalid : tp.isTimeValid r = true := by
          refine (isTimeValid_iff tp r).mpr ⟨⟨d, hd, hper.valid r hq1 hq2⟩, fun e hee => ?_⟩
          rw [← Bool.not_eq_true]
          intro hev
          obtain ⟨⟨d', hd', hv'⟩, -⟩ := (isTimeValid_iff e r).mp hev
          exact absurd hv' (hno d' (List.mem_flatMap.mpr ⟨e, hee, hd'⟩))
        exact absurd (hr.1.2.symm.trans hvalid) (by decide)
      rw [hreg]
      cases hsx : sortByStart xs.flatten with
      | nil =>
        have hnone : ∀ u, t ≤ u → ∀ d ∈ tp.exclude.flatMap (fun e => e.dateranges), d.isTimeValid u = false := by
          intro u hu d hd
          rw [← Bool.not_eq_true]
          exact fun hv => periods_ne_nil hxs hd hu hv (sortByStart_eq_nil.mp hsx)
        simp only [Except.ok.injEq]
        constructor
        · intro e
          exact ⟨not_lt.mpr (le_of_eq e.symm), fun u hu _ e hee d hd => hnone u hu d (List.mem_flatMap.mpr ⟨e, hee, hd⟩)⟩
        · rintro ⟨hge, -⟩
          refine le_antisymm (not_lt.mp fun hlt => ?_) (not_lt.mp hge)
          obtain ⟨d, hd, hv⟩ := hexcluded hlt
          rw [hnone r htr d hd] at hv
          cases hv
      | cons x m =>
        obtain ⟨dx, hdx, hperx⟩ := mem_periods hxs (first_of_sortByStart hsx).1
        have hxfirst : ∀ u, t ≤ u → u ≤ t + 3600 * 24 * 365 → ∀ d ∈ tp.exclude.flatMap (fun e => e.dateranges),
            d.isTimeValid u = true → x.1 ≤ u := fun u hu hyu d hd =>
          first_le_valid (fun d hd => h d (List.mem_append_right _ hd)) (fun d hd => he d (List.mem_append_right _ hd)) hxs hsx
            hu hyu hd
        have hex : (∀ u, t ≤ u → u < r → ∀ e ∈ tp.exclude, ∀ d ∈ e.dateranges, d.isTimeValid u = false) ↔ ¬ x.1 < r := by
          constructor
          · intro hall hlt
            obtain ⟨e, hee, hde⟩ := List.mem_flatMap.mp hdx
            have := hall x.1 hperx.from_t hlt e hee dx hde
            rw [hperx.valid x.1 (le_refl _) hperx.lt] at this
            cases this
          · intro hge u hu hlt e hee d hd
            rw [← Bool.not_eq_true]
            intro hv
            have := hxfirst u hu (by omega) d (List.mem_flatMap.mpr ⟨e, hee, hd⟩) hv
            omega
        have hle : r < chainEnd p.2 l → x.1 ≤ r := by
          intro hlt
          obtain ⟨d, hd, hv⟩ := hexcluded hlt
          exact hxfirst r htr hy d hd hv
        rw [hex]
        simp only [Except.ok.injEq]
        split
        · rename_i hlt
          constructor
          · intro e
            omega
          · rintro ⟨h1, h2⟩
            by_contra hne
            exact absurd (hle (by omega)) (by omega)
        · rename_i hge
          constructor
          · intro e
            omega
          · rintro ⟨h1, h2⟩
            by_contra hne
            have := hle (by omega)
            omega

/-- The answer is the first invalid time, exactly in the regular case. -/
theorem returnsFirstInvalid_iff (tp : Timeperiod) (h : ∀ d ∈ tp.asked, d.ExactAnswers) (t : Int) :
    tp.ReturnsFirstInvalid t ↔ ∀ r, tp.FirstInvalid t r → r ≤ t + 3600 * 24 * 365 → tp.Regular t r := by
  refine forall₃_congr fun r hr hy => ?_
  by_cases he : ∀ d ∈ tp.asked, d.Ends t
  · constructor
    · rintro ⟨n, hn⟩
      exact (answer_iff h he (le_max_right n _) hr hy).mp (hn _ (le_max_left _ _))
    · intro hreg
      exact ⟨_, fun fuel hf => (answer_iff h he hf hr hy).mpr hreg⟩
  · refine ⟨fun ⟨n, hn⟩ => ?_, fun hreg => absurd hreg.ends he⟩
    -- a daterange without an end raises, whatever the fuel
    exact absurd (ends_of_ok h (hn n (le_refl n))) he

end

/-! ## Windows -/

theorem window_answers (a b : Int) : (AbstractDaterange.window a b).ExactAnswers := by
  refine ⟨AbstractDaterange.window_exact a b, fun t => ?_⟩
  simp only [AbstractDaterange.window, decide_eq_false_iff_not]
  by_cases h : a ≤ t ∧ t ≤ b
  · rw [if_pos h]
    refine ⟨⟨by omega, by omega⟩, ?_⟩
    rintro u ⟨hu, hv⟩
    omega
  · rw [if_neg h]
    exact NextFrom.self h

theorem window_ends (a b t : Int) : (AbstractDaterange.window a b).Ends t := by
  intro u s _ _ _
  refine ⟨max s (b + 1), le_max_left _ _, ?_⟩
  simp only [AbstractDaterange.window, decide_eq_false_iff_not]
  omega

theorem windows_asked (ws : List (Int × Int)) :
    ∀ d ∈ (mk (ws.map fun w => .window w.1 w.2) [] []).asked, d.ExactAnswers ∧ ∀ t, d.Ends t := by
  intro d hd
  simp only [asked, dateranges, exclude, List.flatMap_nil, List.append_nil, List.mem_map] at hd
  obtain ⟨w, -, rfl⟩ := hd
  exact ⟨window_answers w.1 w.2, window_ends w.1 w.2⟩

theorem window_period {a b t s e : Int} (h : (AbstractDaterange.window a b).Period t s e) (hat : a ≤ t) : s = t ∧ e = b + 1 := by
  have h1 := h.valid s (le_refl s) h.lt
  have h2 := h.stop
  have h3 := h.valid (e - 1) (by have := h.lt; omega) (by omega)
  have h4 := h.start
  have h5 := h.from_t
  simp only [AbstractDaterange.window, decide_eq_true_eq, decide_eq_false_iff_not] at h1 h2 h3 h4
  omega

theorem returnsFirstInvalid_window : (mk [.window 0 9] [] []).ReturnsFirstInvalid 0 := by
  have hall := windows_asked [(0, 9)]
  refine (returnsFirstInvalid_iff (mk [.window 0 9] [] []) (fun d hd => (hall d hd).1) 0).mpr fun r hr hy => ?_
  have hr10 : r ≤ 10 := hr.2 ⟨by decide, by decide⟩
  refine ⟨⟨_, List.mem_cons_self, 0, le_refl 0, by decide⟩, fun d hd => (hall d hd).2 0, ?_, fun u _ _ e he => nomatch he⟩
  intro before d after e s stop hper hlt
  have hd : d ∈ [AbstractDaterange.window 0 9] := by
    have hmem : d ∈ before ++ d :: after := List.mem_append_right _ List.mem_cons_self
    rw [← e] at hmem
    exact hmem
  rw [List.mem_singleton] at hd
  subst hd
  obtain ⟨-, hstop⟩ := window_period hper (le_refl 0)
  omega

/-- Without a daterange the search raises; with a window inside another one it
answers the end of the inner one. -/
theorem firstInvalid_missed : ¬ (mk [] [] []).ReturnsFirstInvalid 0 ∧
    ¬ (mk [.window 0 9, .window 2 3] [] []).ReturnsFirstInvalid 0 := by
  constructor
  · intro h
    obtain ⟨n, hn⟩ := h 0 ⟨⟨le_refl 0, rfl⟩, fun u hu => hu.1⟩ (by decide)
    exact @getNextInvalidTimeFromT_error 0 n (mk [] [] []) rfl 0 (hn n (le_refl n))
  · intro h
    have hall := windows_asked [(0, 9), (2, 3)]
    have hvalid : ∀ u, (mk [.window 0 9, .window 2 3] [] []).isTimeValid u = decide (0 ≤ u ∧ u ≤ 9) := by
      intro u
      simp only [isTimeValid, anyTimeValid, AbstractDaterange.window, List.any_cons, List.any_nil, Bool.or_false,
        Bool.false_eq_true, if_false, ← Bool.decide_or]
      exact decide_eq_decide.mpr (by omega)
    have hr : (mk [.window 0 9, .window 2 3] [] []).FirstInvalid 0 10 := by
      refine ⟨⟨by decide, by rw [hvalid]; rfl⟩, ?_⟩
      rintro u ⟨hu, hv⟩
      rw [hvalid, decide_eq_false_iff_not] at hv
      omega
    obtain ⟨n, hn⟩ := h 10 hr (by decide)
    have hreg := (answer_iff (fun d hd => (hall d hd).1) (fun d hd => (hall d hd).2 0) (le_max_right n _) hr (by decide)).mp
      (hn _ (le_max_left n _))
    have hper : (AbstractDaterange.window 2 3).Period 0 2 4 := by
      refine ⟨by decide, Or.inr (by decide), by decide, fun u hu hlt => ?_, by decide⟩
      simp only [AbstractDaterange.window, decide_eq_true_eq]
      omega
    rcases hreg.followed [.window 0 9] (.window 2 3) [] rfl 2 4 hper (by decide) with ⟨d', hd', -⟩ | ⟨d', hd', s', e', hp', h1, h2⟩
    · cases hd'
    · have hv := hp'.valid s' (le_refl s') hp'.lt
      have hstart := hp'.start
      have hd'' : d' ∈ [AbstractDaterange.window 0 9, .window 2 3] := hd'
      simp only [List.mem_cons, List.not_mem_nil, or_false] at hd''
      rcases hd'' with rfl | rfl
      · simp only [AbstractDaterange.window, decide_eq_true_eq, decide_eq_false_iff_not] at hv hstart
        omega
      · simp only [AbstractDaterange.window, decide_eq_true_eq, decide_eq_false_iff_not] at hv hstart
        omega

end Timeperiod

end Alignak
