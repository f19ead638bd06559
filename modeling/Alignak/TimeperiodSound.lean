import Alignak.Instants
import Alignak.Timeperiod

/-!
# What the search for the next valid time returns

One turn of the search loop either ends or moves its timestamp past a run of
instants that every excluded timeperiod covers (`searchLoop_turn`).
-/

namespace Alignak

def AbstractDaterange.Exact (d : AbstractDaterange) : Prop :=
  ∀ t, NextFrom (fun u => d.isTimeValid u = true) t (d.getNextValidTimeFromT t)

namespace Timeperiod

def ExactInvalid (e : Timeperiod) : Prop :=
  ∀ fuel u r, e.isTimeValid u = true → e.getNextInvalidTimeFromT fuel u = .ok r →
    u < r ∧ NoneIn (fun v => e.isTimeValid v = false) u r ∧
      (e.isTimeValid r = false ∨ ∀ v, u ≤ v → e.isTimeValid v = true)

structure Exact (tp : Timeperiod) : Prop where
  dateranges : ∀ d ∈ tp.dateranges, d.Exact
  exclude : ∀ e ∈ tp.exclude, e.ExactInvalid

def Covered (tp : Timeperiod) (u : Int) : Prop := ∃ d ∈ tp.dateranges, d.isTimeValid u = true

def SomeExcluded (tp : Timeperiod) (u : Int) : Prop := ∃ e ∈ tp.exclude, e.isTimeValid u = true

def AllExcluded (tp : Timeperiod) (u : Int) : Prop :=
  tp.exclude ≠ [] ∧ ∀ e ∈ tp.exclude, e.isTimeValid u = true

/-- Some daterange's first valid time from `s` is `c`. -/
def Start (tp : Timeperiod) (s c : Int) : Prop := ∃ d ∈ tp.dateranges, d.getNextValidTimeFromT s = some c

theorem AllExcluded.some {tp : Timeperiod} {u : Int} (h : tp.AllExcluded u) : tp.SomeExcluded u := by
  obtain ⟨hne, hall⟩ := h
  obtain ⟨e, he⟩ := List.exists_mem_of_ne_nil _ hne
  exact ⟨e, he, hall e he⟩

theorem isTimeValid_iff_covered (tp : Timeperiod) (u : Int) :
    tp.isTimeValid u = true ↔ tp.Covered u ∧ ¬ tp.SomeExcluded u := by
  rw [isTimeValid_iff]
  refine and_congr Iff.rfl ⟨fun h ⟨e, he, hv⟩ => ?_, fun h e he => ?_⟩
  · rw [h e he] at hv; cases hv
  · cases hv : e.isTimeValid u with
    | false => rfl
    | true => exact absurd ⟨e, he, hv⟩ h

/-! ## The loop over the candidates -/

/-- The test of the inner loop: some excluded timeperiod leaves `c` out. -/
def accepts (exclude : List Timeperiod) (c : Int) : Bool :=
  exclude.isEmpty || exclude.any fun e => !e.isTimeValid c

theorem accepts_iff (tp : Timeperiod) (c : Int) : accepts tp.exclude c = true ↔ ¬ tp.AllExcluded c := by
  unfold accepts AllExcluded
  rw [not_and_or, not_not, Bool.or_eq_true, List.isEmpty_iff]
  refine or_congr Iff.rfl ?_
  simp

theorem foldl_excluded_stopped (exclude : List Timeperiod) (c : Int) (o : Option Int) :
    exclude.foldl (scanExcluded c) ⟨o, false⟩ = ⟨o, false⟩ := by
  induction exclude with
  | nil => rfl
  | cons e es ih => simpa [scanExcluded] using ih

theorem foldl_excluded (exclude : List Timeperiod) (c : Int) :
    exclude.foldl (scanExcluded c) ⟨none, true⟩ =
      if exclude.any (fun e => !e.isTimeValid c) then ⟨some c, false⟩ else ⟨none, true⟩ := by
  induction exclude with
  | nil => rfl
  | cons e es ih =>
    cases he : e.isTimeValid c with
    | false => simp [scanExcluded, he, foldl_excluded_stopped]
    | true => simpa [scanExcluded, he] using ih

theorem scanCandidate_stopped (exclude : List Timeperiod) (c : Int) (o : Option Int) :
    scanCandidate exclude ⟨o, false⟩ c = ⟨o, false⟩ := by
  simp only [scanCandidate, Bool.and_false]
  exact foldl_excluded_stopped exclude c o

theorem scanCandidate_start (exclude : List Timeperiod) (c : Int) :
    scanCandidate exclude ⟨none, true⟩ c = if accepts exclude c then ⟨some c, false⟩ else ⟨none, true⟩ := by
  unfold scanCandidate accepts
  by_cases hx : exclude.isEmpty = true
  · simp [hx]
  · rw [if_neg (by simp [hx]), foldl_excluded]
    simp [hx]

theorem foldl_scan_stopped (exclude : List Timeperiod) (l : List Int) (o : Option Int) :
    l.foldl (scanCandidate exclude) ⟨o, false⟩ = ⟨o, false⟩ := by
  induction l with
  | nil => rfl
  | cons c l ih => rw [List.foldl_cons, scanCandidate_stopped, ih]

theorem foldl_scan (exclude : List Timeperiod) (l : List Int) :
    l.foldl (scanCandidate exclude) ⟨none, true⟩ =
      match l.find? (accepts exclude) with
      | some c => ⟨some c, false⟩
      | none => ⟨none, true⟩ := by
  induction l with
  | nil => rfl
  | cons c l ih =>
    rw [List.foldl_cons, scanCandidate_start, List.find?_cons]
    cases hc : accepts exclude c with
    | true => exact foldl_scan_stopped exclude l (some c)
    | false => exact ih

variable {c s t : Int} {fuel : Nat}

theorem mem_starts {tp : Timeperiod} :
    c ∈ (tp.dateranges.filterMap fun d => d.getNextValidTimeFromT s) ↔ tp.Start s c :=
  List.mem_filterMap

theorem nextInvalids_mem {u : Int} : ∀ {es : List Timeperiod} {rs : List Int},
    nextInvalids fuel u es = .ok rs →
      (∀ r ∈ rs, ∃ e ∈ es, e.getNextInvalidTimeFromT fuel u = .ok r) ∧
      ∀ e ∈ es, ∃ r ∈ rs, e.getNextInvalidTimeFromT fuel u = .ok r
  | [], rs, h => by
    cases h
    exact ⟨by simp, by simp⟩
  | e :: es, rs, h => by
    rw [nextInvalids] at h
    cases hr : e.getNextInvalidTimeFromT fuel u with
    | error x => rw [hr] at h; cases h
    | ok r =>
      cases hs : nextInvalids fuel u es with
      | error x => rw [hr, hs] at h; cases h
      | ok rs' =>
        rw [hr, hs] at h
        cases h
        obtain ⟨h1, h2⟩ := nextInvalids_mem hs
        constructor
        · intro x hx
          rcases List.mem_cons.mp hx with rfl | hx
          · exact ⟨e, by simp, hr⟩
          · obtain ⟨e', he', hx'⟩ := h1 x hx
            exact ⟨e', by simp [he'], hx'⟩
        · intro e' he'
          rcases List.mem_cons.mp he' with rfl | he'
          · exact ⟨r, by simp, hr⟩
          · obtain ⟨x, hx, hx'⟩ := h2 e' he'
            exact ⟨x, by simp [hx], hx'⟩

/-! ## One turn of the loop -/

section
variable {tp : Timeperiod} (hD : ∀ d ∈ tp.dateranges, d.Exact)
include hD

theorem start_covered (h : tp.Start s c) : s ≤ c ∧ tp.Covered c := by
  obtain ⟨d, hd, hc⟩ := h
  have := hD d hd s
  rw [hc] at this
  exact ⟨this.le, d, hd, this.sat⟩

theorem covered_start {u : Int} (hu : tp.Covered u) (hs : s ≤ u) : ∃ c, tp.Start s c ∧ c ≤ u := by
  obtain ⟨d, hd, hv⟩ := hu
  obtain ⟨c, hc, hcu⟩ := (hD d hd s).isSome_of_sat hs hv
  exact ⟨c, ⟨d, hd, hc⟩, hcu⟩

theorem searchLoop_covered {u : Int} (hu : tp.Covered u) (hx : ¬ tp.AllExcluded u) :
    searchLoop tp u 1 u = .ok (some u) := by
  obtain ⟨c, hc, hcu⟩ := covered_start hD hu (le_refl u)
  have hcu : c = u := le_antisymm hcu (start_covered hD hc).1
  subst hcu
  have ha := (accepts_iff tp c).mpr hx
  cases hf : (tp.sortedStarts c).find? (accepts tp.exclude) with
  | none =>
    rw [find?_sorted_none _ hf c (mem_starts.mpr hc)] at ha
    cases ha
  | some m =>
    obtain ⟨hm, _, hl⟩ := find?_sorted_least _ hf
    have hmc : m = c := le_antisymm (hl c (mem_starts.mpr hc) ha) (start_covered hD (mem_starts.mp hm)).1
    subst hmc
    have hh : ¬ m > m + searchHorizon := by unfold searchHorizon; omega
    simp only [searchLoop, foldl_scan, hf, if_neg hh]
    rfl

end

section
variable {tp : Timeperiod} (hE : tp.Exact)
include hE

theorem Start.covered (h : tp.Start s c) : s ≤ c ∧ tp.Covered c := start_covered hE.dateranges h

theorem Covered.start {u : Int} (hu : tp.Covered u) (hs : s ≤ u) : ∃ c, tp.Start s c ∧ c ≤ u :=
  covered_start hE.dateranges hu hs

theorem Start.later {s' : Int} (hs : s ≤ s') (hf : ∀ b, tp.Start s b → s' ≤ b) :
    tp.Start s c ↔ tp.Start s' c := by
  have key : ∀ d ∈ tp.dateranges, d.getNextValidTimeFromT s = d.getNextValidTimeFromT s' := by
    intro d hd
    have h := hE.dateranges d hd s
    refine NextFrom.unique (p := fun u => d.isTimeValid u = true) (t := s') ?_ (hE.dateranges d hd s')
    cases hb : d.getNextValidTimeFromT s with
    | none => rw [hb] at h; exact h.none_later hs
    | some b => rw [hb] at h; exact h.later hs (hf b ⟨d, hd, hb⟩)
  constructor
  · rintro ⟨d, hd, hc⟩; exact ⟨d, hd, (key d hd) ▸ hc⟩
  · rintro ⟨d, hd, hc⟩; exact ⟨d, hd, (key d hd).symm ▸ hc⟩

theorem first_start {cs : List Int} (h : tp.sortedStarts s = c :: cs) :
    tp.Start s c ∧ (∀ b, tp.Start s b → c ≤ b) ∧ NoneIn tp.Covered s c := by
  have hm : tp.Start s c := mem_starts.mp (sorted_head_mem h)
  have hl : ∀ b, tp.Start s b → c ≤ b := fun b hb => sorted_head_le h b (mem_starts.mpr hb)
  refine ⟨hm, hl, fun u hs hu hcov => ?_⟩
  obtain ⟨b, hb, hbu⟩ := Covered.start hE hcov hs
  have := hl b hb
  omega

theorem no_start (h : tp.sortedStarts s = []) : ∀ u, s ≤ u → ¬ tp.Covered u := by
  intro u hs hcov
  obtain ⟨c, hc, _⟩ := Covered.start hE hcov hs
  have hm : c ∈ tp.sortedStarts s := (List.mem_insertionSort (· ≤ ·)).mpr (mem_starts.mpr hc)
  rw [h] at hm
  cases hm

theorem excluded_run {m : Int} {rs ms : List Int} (hx : tp.AllExcluded c)
    (hr : nextInvalids fuel c tp.exclude = .ok rs) (hm : rs.insertionSort (· ≤ ·) = m :: ms) :
    c < m ∧ ∀ u, c ≤ u → u < m → tp.AllExcluded u := by
  obtain ⟨h1, h2⟩ := nextInvalids_mem hr
  have key : ∀ e ∈ tp.exclude, ∀ r, e.getNextInvalidTimeFromT fuel c = .ok r →
      c < r ∧ NoneIn (fun v => e.isTimeValid v = false) c r := fun e he r h =>
    ⟨(hE.exclude e he fuel c r (hx.2 e he) h).1, (hE.exclude e he fuel c r (hx.2 e he) h).2.1⟩
  obtain ⟨e, he, hme⟩ := h1 m (sorted_head_mem hm)
  refine ⟨(key e he m hme).1, fun u hc hu => ⟨hx.1, fun e' he' => ?_⟩⟩
  obtain ⟨r, hrs, hre⟩ := h2 e' he'
  have hmr : m ≤ r := sorted_head_le hm r hrs
  have := (key e' he' r hre).2 u hc (by omega)
  simpa using this

theorem searchLoop_turn {T : Int} {o : Option Int} (h : searchLoop tp t (fuel + 1) T = .ok o) :
    (o = none ∧ ∀ u, T ≤ u → ¬ tp.Covered u) ∨
    (∃ m, tp.Start T m ∧ ¬ tp.AllExcluded m ∧ (∀ b, tp.Start T b → ¬ tp.AllExcluded b → m ≤ b) ∧
      o = if m > t + searchHorizon then none else some m) ∨
    (∃ c m, tp.Start T c ∧ tp.AllExcluded c ∧ NoneIn tp.Covered T c ∧ c < m ∧
      (∀ u, c ≤ u → u < m → tp.AllExcluded u) ∧
      if m > t + searchHorizon then o = none else searchLoop tp t fuel m = .ok o) := by
  simp only [searchLoop, foldl_scan] at h
  cases hf : (tp.sortedStarts T).find? (accepts tp.exclude) with
  | some m =>
    obtain ⟨hm, ha, hl⟩ := find?_sorted_least _ hf
    refine Or.inr (Or.inl ⟨m, mem_starts.mp hm, (accepts_iff tp m).mp ha, fun b hb hx =>
      hl b (mem_starts.mpr hb) ((accepts_iff tp b).mpr hx), ?_⟩)
    simp only [hf] at h
    by_cases hh : m > t + searchHorizon
    · simpa [hh] using h.symm
    · simpa [hh] using h.symm
  | none =>
    simp only [hf] at h
    cases hc : tp.sortedStarts T with
    | nil =>
      simp only [hc] at h
      refine Or.inl ⟨by simpa using h.symm, no_start hE hc⟩
    | cons c cs =>
      obtain ⟨hst, _, hnone⟩ := first_start hE hc
      have hx : tp.AllExcluded c := by
        have := find?_sorted_none _ hf c (mem_starts.mpr hst)
        by_contra hx
        rw [(accepts_iff tp c).mpr hx] at this
        cases this
      simp only [hc] at h
      cases hr : nextInvalids fuel c tp.exclude with
      | error x => rw [hr] at h; cases h
      | ok rs =>
        simp only [hr, bind, Except.bind, pure, Except.pure] at h
        cases hm : rs.insertionSort (· ≤ ·) with
        | nil =>
          -- a fully excluded instant has an excluded timeperiod, which answered
          obtain ⟨e, he⟩ := List.exists_mem_of_ne_nil _ hx.1
          obtain ⟨r, hrs, _⟩ := (nextInvalids_mem hr).2 e he
          have := (List.mem_insertionSort (· ≤ ·)).mpr hrs
          rw [hm] at this
          cases this
        | cons m ms =>
          simp only [hm] at h
          obtain ⟨hcm, hrun⟩ := excluded_run hE hx hr hm
          refine Or.inr (Or.inr ⟨c, m, hst, hx, hnone, hcm, hrun, ?_⟩)
          by_cases hh : m > t + searchHorizon
          · simpa [hh] using h.symm
          · simpa [hh] using h

end

/-! ## Runs of queries -/

theorem searchLoop_withCache (tp : Timeperiod) (c : List (Int × Option Int)) (t : Int) :
    ∀ fuel T, searchLoop (tp.withCache c) t fuel T = searchLoop tp t fuel T
  | 0, _ => rfl
  | fuel + 1, T => by
    have ih := searchLoop_withCache tp c t fuel
    simp only [searchLoop, sortedStarts, withCache_dateranges, withCache_exclude, ih]
    rfl

def CacheOk (tp : Timeperiod) : Prop :=
  ∀ entry ∈ tp.cache, ∃ fuel, searchLoop tp entry.1 fuel entry.1 = .ok entry.2

theorem CacheOk.withCache {tp : Timeperiod} {c : List (Int × Option Int)}
    (h : ∀ entry ∈ c, ∃ fuel, searchLoop tp entry.1 fuel entry.1 = .ok entry.2) : (tp.withCache c).CacheOk := by
  intro entry he
  rw [withCache_cache] at he
  obtain ⟨fuel, hf⟩ := h entry he
  exact ⟨fuel, by rw [searchLoop_withCache]; exact hf⟩

theorem getNextValidTimeFromT_spec {tp tp' : Timeperiod} {o : Option Int}
    (hc : tp.CacheOk) (h : tp.getNextValidTimeFromT fuel t = .ok (o, tp')) :
    (∃ k, searchLoop tp t k t = .ok o) ∧ tp'.CacheOk ∧ ∃ c, tp' = tp.withCache c := by
  unfold getNextValidTimeFromT at h
  cases hf : tp.findNextValidTimeFromCache t with
  | some res =>
    simp only [hf, Except.ok.injEq, Prod.mk.injEq] at h
    obtain ⟨rfl, rfl⟩ := h
    refine ⟨?_, hc, tp.cache, by cases tp; rfl⟩
    unfold findNextValidTimeFromCache at hf
    have hl : tp.cache.lookup t = some (some res) := by
      cases hl : tp.cache.lookup t with
      | none => simp [hl] at hf
      | some o => simp [hl] at hf; rw [hf]
    obtain ⟨l₁, l₂, he, _⟩ := List.lookup_eq_some_iff.mp hl
    exact hc (t, some res) (by rw [he]; simp)
  | none =>
    simp only [hf] at h
    cases hs : searchLoop tp t fuel t with
    | error x => rw [hs] at h; cases h
    | ok o' =>
      rw [hs] at h
      cases h
      refine ⟨⟨fuel, hs⟩, CacheOk.withCache fun entry he => ?_, _, rfl⟩
      rcases List.mem_cons.mp he with rfl | he
      · exact ⟨fuel, hs⟩
      · exact hc entry he

inductive Reached (ds : List AbstractDaterange) (es : List Timeperiod) : Timeperiod → Prop
  | init : Reached ds es (mk ds es [])
  | query {tp tp' : Timeperiod} {fuel : Nat} {t : Int} {o : Option Int} : Reached ds es tp →
      tp.getNextValidTimeFromT fuel t = .ok (o, tp') → Reached ds es tp'
  | clean {tp : Timeperiod} (now : Int) : Reached ds es tp → Reached ds es (tp.cleanCache now)

theorem Reached.spec {ds : List AbstractDaterange} {es : List Timeperiod} {tp : Timeperiod} (h : Reached ds es tp) :
    tp.CacheOk ∧ ∃ c, tp = (mk ds es []).withCache c := by
  induction h with
  | init => exact ⟨fun _ he => absurd he List.not_mem_nil, [], rfl⟩
  | @query tp tp' fuel t o _ hq ih =>
    obtain ⟨hc, c, rfl⟩ := ih
    obtain ⟨_, hc', c', rfl⟩ := getNextValidTimeFromT_spec hc hq
    exact ⟨hc', c', rfl⟩
  | @clean tp now _ ih =>
    obtain ⟨hc, c, rfl⟩ := ih
    exact ⟨(CacheOk.withCache fun entry he => hc entry (List.mem_of_mem_filter he)), _, rfl⟩

/-- `P t o` holds of every answer `o` that a query at `t` gives, whatever was
asked before. -/
def Answers (ds : List AbstractDaterange) (es : List Timeperiod) (t : Int) (P : Option Int → Prop) : Prop :=
  ∀ tp, Reached ds es tp → ∀ fuel o tp', tp.getNextValidTimeFromT fuel t = .ok (o, tp') → P o

theorem answers_iff {ds : List AbstractDaterange} {es : List Timeperiod} {P : Option Int → Prop} :
    Answers ds es t P ↔ ∀ fuel o, searchLoop (mk ds es []) t fuel t = .ok o → P o := by
  constructor
  · intro h fuel o ho
    refine h _ Reached.init fuel o ((mk ds es []).withCache [(t, o)]) ?_
    simp only [getNextValidTimeFromT, ho]
    rfl
  · intro h tp hr fuel o tp' hq
    obtain ⟨hc, c, rfl⟩ := hr.spec
    obtain ⟨⟨k, hk⟩, _⟩ := getNextValidTimeFromT_spec hc hq
    rw [searchLoop_withCache] at hk
    exact h k o hk

end Timeperiod

/-! ## Windows -/

/-- The daterange of the seconds from `a` to `b`. -/
def AbstractDaterange.window (a b : Int) : AbstractDaterange where
  isTimeValid u := decide (a ≤ u ∧ u ≤ b)
  getNextValidTimeFromT t := if max t a ≤ b then some (max t a) else none
  getNextInvalidTimeFromT t := some (if a ≤ t ∧ t ≤ b then b + 1 else t)

section
variable {a b u : Int}

theorem AbstractDaterange.window_here (h : a ≤ u ∧ u ≤ b) : (window a b).getNextValidTimeFromT u = some u := by
  simp only [window, max_eq_left h.1, if_pos h.2]

theorem AbstractDaterange.window_after (h : b < u) : (window a b).getNextValidTimeFromT u = none := by
  simp only [window]
  rw [if_neg (by omega)]

theorem AbstractDaterange.window_end (h : a ≤ u ∧ u ≤ b) : (window a b).getNextInvalidTimeFromT u = some (b + 1) := by
  simp only [window, if_pos h]

theorem AbstractDaterange.window_exact (a b : Int) : (window a b).Exact := by
  intro t
  simp only [window]
  by_cases h : max t a ≤ b
  · rw [if_pos h]
    refine ⟨⟨le_max_left t a, by simpa using h⟩, fun u ⟨hu, hv⟩ => ?_⟩
    simp only [decide_eq_true_eq] at hv
    omega
  · rw [if_neg h]
    intro u hu hv
    simp only [decide_eq_true_eq] at hv
    omega

namespace Timeperiod

def window (a b : Int) : Timeperiod := mk [.window a b] [] []

theorem window_isTimeValid : (window a b).isTimeValid u = decide (a ≤ u ∧ u ≤ b) := by
  simp [window, isTimeValid, anyTimeValid, AbstractDaterange.window]

theorem collectPeriods_window {fuel : Nat} {ps : List (Int × Int)} (h : a ≤ u ∧ u ≤ b)
    (hy : ¬ b + 1 > u + 3600 * 24 * 365) (hp : collectPeriods (.window a b) u fuel u [] = .ok ps) :
    ps = [(u, b + 1)] := by
  cases fuel with
  | zero => cases hp
  | succ fuel =>
    simp only [collectPeriods, AbstractDaterange.window_here h, AbstractDaterange.window_end h, if_neg hy] at hp
    cases fuel with
    | zero => cases hp
    | succ fuel =>
      have hn : (AbstractDaterange.window a b).getNextValidTimeFromT (b + 1) = none :=
        AbstractDaterange.window_after (by omega)
      simp only [collectPeriods, hn] at hp
      cases hp
      rfl

theorem window_exactInvalid (hy : b + 1 ≤ a + 3600 * 24 * 365) : (window a b).ExactInvalid := by
  intro fuel u r hu hr
  have hab : a ≤ u ∧ u ≤ b := by simpa [window_isTimeValid] using hu
  have hrb : r = b + 1 := by
    simp only [getNextInvalidTimeFromT, window, dateranges, exclude, collectAllPeriods] at hr
    cases hp : collectPeriods (.window a b) u fuel u [] with
    | error x => rw [hp] at hr; cases hr
    | ok ps =>
      have := collectPeriods_window hab (by omega) hp
      subst this
      rw [hp] at hr
      change (if u > u then Except.ok u else Except.ok (b + 1)) = Except.ok r at hr
      rw [if_neg (lt_irrefl u)] at hr
      cases hr
      rfl
  subst hrb
  refine ⟨by omega, fun v hv hvb hf => ?_, Or.inl ?_⟩
  · simp only [window_isTimeValid, decide_eq_false_iff_not] at hf
    omega
  · rw [window_isTimeValid]
    simp only [decide_eq_false_iff_not]
    omega

end Timeperiod

end

namespace Timeperiod

theorem windows_exact (ws es : List (Int × Int)) (hy : ∀ w ∈ es, w.2 + 1 ≤ w.1 + 3600 * 24 * 365) :
    (mk (ws.map fun w => .window w.1 w.2) (es.map fun w => window w.1 w.2) []).Exact := by
  constructor
  · intro d hd
    obtain ⟨w, _, rfl⟩ := List.mem_map.mp hd
    exact AbstractDaterange.window_exact w.1 w.2
  · intro e he
    obtain ⟨w, hw, rfl⟩ := List.mem_map.mp he
    exact window_exactInvalid (hy w hw)

/-! ## Valid answers -/

def AnswerValid (tp : Timeperiod) (t : Int) (o : Option Int) : Prop :=
  ∀ r, o = some r → t ≤ r ∧ tp.isTimeValid r = true

/-- From `t` to the horizon, an instant that a daterange covers is in all the
excluded timeperiods as soon as it is in one of them. -/
def ExclusionsAgree (tp : Timeperiod) (t : Int) : Prop :=
  ∀ u, t ≤ u → u ≤ t + searchHorizon → tp.Covered u → tp.SomeExcluded u → tp.AllExcluded u

section
variable {tp : Timeperiod} (hE : tp.Exact)
include hE

theorem searchLoop_answer {t r : Int} : ∀ fuel T, t ≤ T → searchLoop tp t fuel T = .ok (some r) →
    t ≤ r ∧ r ≤ t + searchHorizon ∧ tp.Covered r ∧ ¬ tp.AllExcluded r
  | 0, _, _, h => by cases h
  | fuel + 1, T, hT, h => by
    rcases searchLoop_turn hE h with ⟨ho, _⟩ | ⟨m, hm, hx, _, ho⟩ | ⟨c, m, hc, _, _, hcm, _, ho⟩
    · cases ho
    · by_cases hh : m > t + searchHorizon
      · rw [if_pos hh] at ho; cases ho
      · rw [if_neg hh] at ho
        cases ho
        obtain ⟨hTm, hcov⟩ := Start.covered hE hm
        exact ⟨by omega, by omega, hcov, hx⟩
    · by_cases hh : m > t + searchHorizon
      · rw [if_pos hh] at ho; cases ho
      · rw [if_neg hh] at ho
        have := (Start.covered hE hc).1
        exact searchLoop_answer fuel m (by omega) ho

theorem searchLoop_here {u : Int} (hu : tp.Covered u) (hx : ¬ tp.AllExcluded u) : searchLoop tp u 1 u = .ok (some u) :=
  searchLoop_covered hE.dateranges hu hx

end

theorem answers_valid_iff (ds : List AbstractDaterange) (es : List Timeperiod) (hE : (mk ds es []).Exact) :
    (∀ t, ExclusionsAgree (mk ds es []) t → Answers ds es t (AnswerValid (mk ds es []) t)) ∧
    ((∀ t, Answers ds es t (AnswerValid (mk ds es []) t)) ↔ ∀ t, ExclusionsAgree (mk ds es []) t) := by
  have suff : ∀ t, ExclusionsAgree (mk ds es []) t → Answers ds es t (AnswerValid (mk ds es []) t) := by
    intro t hA
    refine answers_iff.mpr fun fuel o ho r hr => ?_
    subst hr
    obtain ⟨htr, hrh, hcov, hx⟩ := searchLoop_answer hE fuel t (le_refl t) ho
    exact ⟨htr, (isTimeValid_iff_covered _ r).mpr ⟨hcov, fun hs => hx (hA r htr hrh hcov hs)⟩⟩
  refine ⟨suff, fun h t u _ _ hcov hs => ?_, fun h t => suff t (h t)⟩
  by_contra hx
  obtain ⟨_, hv⟩ := answers_iff.mp (h u) 1 _ (searchLoop_here hE hcov hx) u rfl
  exact ((isTimeValid_iff_covered _ u).mp hv).2 hs

/-- With one excluded timeperiod the answer is valid. -/
theorem answers_valid_one_exclusion :
    Answers [.window 0 9] [window 3 4] 3 (AnswerValid (mk [.window 0 9] [window 3 4] []) 3) :=
  (answers_valid_iff _ _ (windows_exact [(0, 9)] [(3, 4)] (by simp))).1 3
    fun u _ _ _ ⟨e, he, hv⟩ => by
      have he : e = window 3 4 := by simpa [exclude] using he
      subst he
      exact ⟨by simp [exclude], by simpa [exclude] using hv⟩

/-- Instant 0 is in the first excluded timeperiod and not in the second. -/
theorem answer_in_exclusion :
    (mk [.window 0 9] [window 0 0, window 2 2] []).Exact ∧
    ¬ Answers [.window 0 9] [window 0 0, window 2 2] 0
      (AnswerValid (mk [.window 0 9] [window 0 0, window 2 2] []) 0) := by
  refine ⟨windows_exact [(0, 9)] [(0, 0), (2, 2)] (by simp), fun h => ?_⟩
  have hq : searchLoop (mk [.window 0 9] [window 0 0, window 2 2] []) 0 1 0 = .ok (some 0) := by decide
  have hv := (answers_iff.mp h 1 _ hq 0 rfl).2
  revert hv
  decide

/-! ## Skipped instants -/

def AnswerSkipsNothing (tp : Timeperiod) (t : Int) : Option Int → Prop
  | some r => NoneIn (fun u => tp.isTimeValid u = true) t r
  | none => ∀ u, t ≤ u → u ≤ t + searchHorizon → tp.isTimeValid u = false

/-- From a covered instant `s` that all the excluded timeperiods cover, no
valid instant of the horizon comes before every daterange's first valid time
that some excluded timeperiod leaves out, if there is such a time. -/
def StartsComeFirst (tp : Timeperiod) (s : Int) : Prop :=
  tp.Covered s → tp.AllExcluded s → ∀ u, s < u → u ≤ s + searchHorizon → tp.isTimeValid u = true →
    ∀ c, tp.Start s c → ¬ tp.AllExcluded c → ∃ b, tp.Start s b ∧ ¬ tp.AllExcluded b ∧ b ≤ u

theorem noneIn_valid_of_excluded {tp : Timeperiod} {t s : Int} (h : ∀ u, t ≤ u → u < s → tp.AllExcluded u) :
    NoneIn (fun u => tp.isTimeValid u = true) t s := fun u ht hs hv =>
  ((isTimeValid_iff_covered tp u).mp hv).2 (h u ht hs).some

/-- The query at an excluded instant from which some start is left out answers
with the least such start, or with nothing past the horizon. -/
theorem searchLoop_from_excluded {tp : Timeperiod} {s c : Int} (hc : tp.Start s c) (hcx : ¬ tp.AllExcluded c) :
    ∃ m, tp.Start s m ∧ ¬ tp.AllExcluded m ∧
      searchLoop tp s 1 s = .ok (if m > s + searchHorizon then none else some m) := by
  cases hf : (tp.sortedStarts s).find? (accepts tp.exclude) with
  | none =>
    have := find?_sorted_none _ hf c (mem_starts.mpr hc)
    rw [(accepts_iff tp c).mpr hcx] at this
    cases this
  | some m =>
    obtain ⟨hm, ha, _⟩ := find?_sorted_least _ hf
    refine ⟨m, mem_starts.mp hm, (accepts_iff tp m).mp ha, ?_⟩
    simp only [searchLoop, foldl_scan, hf]
    by_cases hh : m > s + searchHorizon
    · simp [hh]
    · simp [hh]

section
variable {tp : Timeperiod} (hE : tp.Exact)
include hE

theorem accepted_skips_nothing {t T m : Int} (hT : t ≤ T) (hS : ∀ s, t ≤ s → s ≤ t + searchHorizon → tp.StartsComeFirst s)
    (hm : tp.Start T m) (hx : ¬ tp.AllExcluded m) (hl : ∀ b, tp.Start T b → ¬ tp.AllExcluded b → m ≤ b)
    {u : Int} (hTu : T ≤ u) (hum : u < m) (huh : u ≤ t + searchHorizon) : tp.isTimeValid u = false := by
  by_contra hv
  rw [Bool.not_eq_false] at hv
  obtain ⟨hcov, hsx⟩ := (isTimeValid_iff_covered tp u).mp hv
  cases hc : tp.sortedStarts T with
  | nil => exact no_start hE hc u hTu hcov
  | cons c cs =>
    obtain ⟨hst, hle, hnone⟩ := first_start hE hc
    have hcu : c ≤ u := by
      by_contra hlt
      exact hnone u hTu (by omega) hcov
    obtain ⟨hTc, hccov⟩ := Start.covered hE hst
    have hcx : tp.AllExcluded c := by
      by_contra hcx
      have := hl c hst hcx
      omega
    have hne : c ≠ u := fun e => hsx (e ▸ hcx.some)
    -- the starts seen from `T` are those seen from the first one
    obtain ⟨b, hb, hbx, hbu⟩ := hS c (by omega) (by omega) hccov hcx u (by omega) (by omega) hv m
      ((Start.later hE hTc hle).mp hm) hx
    have := hl b ((Start.later hE hTc hle).mpr hb) hbx
    omega

theorem searchLoop_skips_nothing {t : Int} (hS : ∀ s, t ≤ s → s ≤ t + searchHorizon → tp.StartsComeFirst s)
    {o : Option Int} : ∀ fuel T, t ≤ T → NoneIn (fun u => tp.isTimeValid u = true) t T →
      searchLoop tp t fuel T = .ok o → tp.AnswerSkipsNothing t o
  | 0, _, _, _, h => by cases h
  | fuel + 1, T, hT, hN, h => by
    rcases searchLoop_turn hE h with ⟨rfl, hno⟩ | ⟨m, hm, hx, hl, ho⟩ | ⟨c, m, hc, hcx, hnone, hcm, hrun, ho⟩
    · intro u htu _
      by_contra hv
      rw [Bool.not_eq_false] at hv
      rcases lt_or_ge u T with hu | hu
      · exact hN u htu hu hv
      · exact hno u hu ((isTimeValid_iff_covered tp u).mp hv).1
    · have key : ∀ u, t ≤ u → u < m → u ≤ t + searchHorizon → tp.isTimeValid u = false := by
        intro u htu hum huh
        rcases lt_or_ge u T with hu | hu
        · simpa using hN u htu hu
        · exact accepted_skips_nothing hE hT hS hm hx hl hu hum huh
      by_cases hh : m > t + searchHorizon
      · rw [if_pos hh] at ho
        subst ho
        exact fun u htu huh => key u htu (by omega) huh
      · rw [if_neg hh] at ho
        subst ho
        intro u htu hum
        simp [key u htu hum (by omega)]
    · have hTc := (Start.covered hE hc).1
      have hN' : NoneIn (fun u => tp.isTimeValid u = true) t m :=
        (hN.trans (hnone.mono fun u hu => ((isTimeValid_iff_covered tp u).mp hu).1)).trans (noneIn_valid_of_excluded hrun)
      by_cases hh : m > t + searchHorizon
      · rw [if_pos hh] at ho
        subst ho
        intro u htu huh
        simpa using hN' u htu (by omega)
      · rw [if_neg hh] at ho
        exact searchLoop_skips_nothing hS fuel m (by omega) hN' ho

end

theorem answers_skip_nothing_iff (ds : List AbstractDaterange) (es : List Timeperiod) (hE : (mk ds es []).Exact) :
    (∀ t, (∀ s, t ≤ s → s ≤ t + searchHorizon → StartsComeFirst (mk ds es []) s) →
      Answers ds es t (AnswerSkipsNothing (mk ds es []) t)) ∧
    ((∀ t, Answers ds es t (AnswerSkipsNothing (mk ds es []) t)) ↔ ∀ s, StartsComeFirst (mk ds es []) s) := by
  have suff : ∀ t, (∀ s, t ≤ s → s ≤ t + searchHorizon → StartsComeFirst (mk ds es []) s) →
      Answers ds es t (AnswerSkipsNothing (mk ds es []) t) := fun t hS =>
    answers_iff.mpr fun fuel _ ho => searchLoop_skips_nothing hE hS fuel t (le_refl t) (NoneIn.refl _ t) ho
  refine ⟨suff, fun h s _ hsx u hsu huh hv c hc hcx => ?_, fun h t => suff t fun s _ _ => h s⟩
  obtain ⟨m, hm, hmx, hq⟩ := searchLoop_from_excluded hc hcx
  refine ⟨m, hm, hmx, ?_⟩
  by_contra hlt
  have hans := answers_iff.mp (h s) 1 _ hq
  by_cases hh : m > s + searchHorizon
  · rw [if_pos hh] at hans
    rw [hans u (by omega) huh] at hv
    cases hv
  · rw [if_neg hh] at hans
    exact hans u (by omega) (by omega) hv

/-- With one daterange no valid instant is skipped. -/
theorem answers_skip_nothing_one_daterange :
    Answers [.window 0 9] [window 3 4] 3 (AnswerSkipsNothing (mk [.window 0 9] [window 3 4] []) 3) :=
  (answers_skip_nothing_iff _ _ (windows_exact [(0, 9)] [(3, 4)] (by simp))).1 3
    fun s _ _ ⟨d, hd, hv⟩ hx u _ _ _ c hc hcx => by
      have hd : d = .window 0 9 := by simpa [dateranges] using hd
      subst hd
      have hs : (0 : Int) ≤ s ∧ s ≤ 9 := by simpa [AbstractDaterange.window] using hv
      have hc : c = s := by
        simpa [Start, dateranges, AbstractDaterange.window, hs, eq_comm] using hc
      exact absurd (hc ▸ hx) hcx

/-- The first start, 0, is excluded up to 2; the other daterange starts at 5:
the valid instants 3 and 4 are skipped. -/
theorem answer_skips_instants :
    (mk [.window 0 9, .window 5 9] [window 0 2] []).Exact ∧
    ¬ Answers [.window 0 9, .window 5 9] [window 0 2] 0
      (AnswerSkipsNothing (mk [.window 0 9, .window 5 9] [window 0 2] []) 0) := by
  refine ⟨windows_exact [(0, 9), (5, 9)] [(0, 2)] (by simp), fun h => ?_⟩
  have hq : searchLoop (mk [.window 0 9, .window 5 9] [window 0 2] []) 0 1 0 = .ok (some 5) := by decide
  have hv := answers_iff.mp h 1 _ hq 3 (by decide) (by decide)
  revert hv
  decide

end Timeperiod

end Alignak
