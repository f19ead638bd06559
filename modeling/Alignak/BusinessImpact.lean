import Alignak.Scheduler
import Mathlib.Order.Bounds.Basic

/-!
# The business impact values

An item takes the value of its first active modulation, or its own, and a
problem takes the highest of that and of the values of its impacts.
-/

namespace Alignak.Scheduling

structure BusinessImpactModulation where
  businessImpact : Int
  modulationPeriod : Option Nat
  deriving DecidableEq, Repr

structure BusinessConf extends Conf where
  businessImpactModulations : Nat → List BusinessImpactModulation

structure BusinessWorld (conf : BusinessConf) where
  problem : Nat → ProblemState
  businessImpact : Nat → Int
  myOwnBusinessImpact : Nat → Int
  isProblem : ∀ i, (problem i).impacts ≠ [] → (problem i).isProblem = true
  known : ∀ i, ∀ j ∈ (problem i).impacts, j ∈ conf.toConf.allMyHostsAndServices

section
variable {conf : BusinessConf}

namespace BusinessWorld

def setBusinessImpact (b : BusinessWorld conf) (i : Nat) (v : Int) : BusinessWorld conf :=
  { b with businessImpact := Function.update b.businessImpact i v }

def saveOwn (b : BusinessWorld conf) (i : Nat) : BusinessWorld conf :=
  if b.myOwnBusinessImpact i = -1 then
    { b with myOwnBusinessImpact := Function.update b.myOwnBusinessImpact i (b.businessImpact i) }
  else b

end BusinessWorld

variable (conf) in
def activeModulation (env : Env) (i : Nat) : Option BusinessImpactModulation :=
  (conf.businessImpactModulations i).find? fun m => env.periodValid m.modulationPeriod env.now

def impactValues (b : BusinessWorld conf) (i : Nat) : List Int :=
  ((b.problem i).impacts.filter (· ∈ conf.hosts)).map b.businessImpact ++
    ((b.problem i).impacts.filter (· ∈ conf.services)).map b.businessImpact

def updateBusinessImpactValue (env : Env) (i : Nat) (b : BusinessWorld conf) : Except Exn (BusinessWorld conf) :=
  let b := b.saveOwn i
  let modulation := activeModulation conf env i
  let b := match modulation with
    | some m => b.setBusinessImpact i m.businessImpact
    | none => b
  if (b.problem i).impacts ≠ [] then
    match (impactValues b i).max? with
    | none => .error .valueError
    | some v => .ok (b.setBusinessImpact i (max (b.businessImpact i) v))
  else if b.myOwnBusinessImpact i ≠ -1 ∧ modulation = none then .ok (b.setBusinessImpact i (b.myOwnBusinessImpact i))
  else .ok b

/-! ## The value that an item is to have -/

def BusinessWorld.own (b : BusinessWorld conf) (i : Nat) : Int :=
  if b.myOwnBusinessImpact i = -1 then b.businessImpact i else b.myOwnBusinessImpact i

def BusinessWorld.base (b : BusinessWorld conf) (env : Env) (i : Nat) : Int :=
  match activeModulation conf env i with
  | some m => m.businessImpact
  | none => b.own i

def BusinessWorld.values (b : BusinessWorld conf) (env : Env) (i : Nat) : Set Int :=
  {v | v = b.base env i ∨ (b.problem i).isProblem = true ∧ ∃ j ∈ (b.problem i).impacts, j ≠ i ∧ v = b.businessImpact j}

def BusinessWorld.Fits (b : BusinessWorld conf) (env : Env) (i : Nat) : Prop :=
  activeModulation conf env i ≠ none ∨ (b.problem i).impacts = [] ∨ b.businessImpact i = b.own i ∨
    ∃ j ∈ (b.problem i).impacts, j ≠ i ∧ b.businessImpact i ≤ b.businessImpact j ∧ b.own i ≤ b.businessImpact j

variable {env : Env} {i : Nat} {b b' : BusinessWorld conf}

/-! ## One update -/

def BusinessWorld.start (b : BusinessWorld conf) (env : Env) (i : Nat) : Int :=
  match activeModulation conf env i with
  | some m => m.businessImpact
  | none => b.businessImpact i

def BusinessWorld.compared (b : BusinessWorld conf) (env : Env) (i : Nat) : Set Int :=
  {v | v = b.start env i ∨ ∃ j ∈ (b.problem i).impacts, j ≠ i ∧ v = b.businessImpact j}

theorem mem_impactValues {v : Int} : v ∈ impactValues b i ↔ ∃ j ∈ (b.problem i).impacts, v = b.businessImpact j := by
  unfold impactValues
  simp only [List.mem_append, List.mem_map, List.mem_filter, decide_eq_true_eq]
  constructor
  · rintro (⟨j, ⟨hj, -⟩, rfl⟩ | ⟨j, ⟨hj, -⟩, rfl⟩)
    · exact ⟨j, hj, rfl⟩
    · exact ⟨j, hj, rfl⟩
  · rintro ⟨j, hj, rfl⟩
    rcases List.mem_append.mp (b.known i j hj) with h | h
    · exact Or.inl ⟨j, ⟨hj, h⟩, rfl⟩
    · exact Or.inr ⟨j, ⟨hj, h⟩, rfl⟩

theorem saveOwn_same (b : BusinessWorld conf) (i : Nat) : (b.saveOwn i).problem = b.problem ∧
    (b.saveOwn i).businessImpact = b.businessImpact ∧ (b.saveOwn i).myOwnBusinessImpact i = b.own i := by
  unfold BusinessWorld.saveOwn BusinessWorld.own
  split
  · exact ⟨rfl, rfl, Function.update_self ..⟩
  · exact ⟨rfl, rfl, rfl⟩

structure Updated (env : Env) (i : Nat) (b b' : BusinessWorld conf) : Prop where
  problem : b'.problem = b.problem
  others : ∀ j, j ≠ i → b'.businessImpact j = b.businessImpact j
  alone : (b.problem i).impacts = [] → b'.businessImpact i = b.base env i
  greatest : (b.problem i).impacts ≠ [] → IsGreatest (b.compared env i) (b'.businessImpact i)

def BusinessWorld.modulated (b : BusinessWorld conf) (env : Env) (i : Nat) : BusinessWorld conf :=
  match activeModulation conf env i with
  | some m => (b.saveOwn i).setBusinessImpact i m.businessImpact
  | none => b.saveOwn i

theorem modulated_same (b : BusinessWorld conf) (env : Env) (i : Nat) : (b.modulated env i).problem = b.problem ∧
    (b.modulated env i).businessImpact = Function.update b.businessImpact i (b.start env i) ∧
    (b.modulated env i).myOwnBusinessImpact i = b.own i := by
  obtain ⟨h1, h2, h3⟩ := saveOwn_same b i
  unfold BusinessWorld.modulated BusinessWorld.start
  cases activeModulation conf env i with
  | none => exact ⟨h1, by rw [h2, Function.update_eq_self], h3⟩
  | some m =>
    refine ⟨h1, ?_, h3⟩
    show Function.update _ _ _ = _
    rw [h2]

theorem greatest_compared {v : Int}
    (hv : (impactValues (b.modulated env i) i).max? = some v) : IsGreatest (b.compared env i) (max (b.start env i) v) := by
  obtain ⟨h1, h2, -⟩ := modulated_same b env i
  obtain ⟨hmem, hle⟩ := List.max?_eq_some_iff.mp hv
  have hval : ∀ x, x ∈ impactValues (b.modulated env i) i ↔
      ∃ j ∈ (b.problem i).impacts, x = if j = i then b.start env i else b.businessImpact j := fun x => by
    rw [mem_impactValues, h1, h2]
    simp only [Function.update_apply]
  refine ⟨?_, ?_⟩
  · rcases le_total v (b.start env i) with h | h
    · exact Or.inl (max_eq_left h)
    · rw [max_eq_right h]
      obtain ⟨j, hj, e⟩ := (hval v).mp hmem
      by_cases hji : j = i
      · rw [if_pos hji] at e
        exact Or.inl e
      · rw [if_neg hji] at e
        exact Or.inr ⟨j, hj, hji, e⟩
  · rintro x (rfl | ⟨j, hj, hji, rfl⟩)
    · exact le_max_left _ _
    · exact le_trans (hle _ ((hval _).mpr ⟨j, hj, (if_neg hji).symm⟩)) (le_max_right _ _)

theorem update_ok (env : Env) (i : Nat) (b : BusinessWorld conf) :
    ∃ b', updateBusinessImpactValue env i b = .ok b' ∧ Updated env i b b' := by
  obtain ⟨h1, h2, h3⟩ := modulated_same b env i
  have hfold : updateBusinessImpactValue env i b =
      if ((b.modulated env i).problem i).impacts ≠ [] then
        match (impactValues (b.modulated env i) i).max? with
        | none => .error .valueError
        | some v => .ok ((b.modulated env i).setBusinessImpact i (max ((b.modulated env i).businessImpact i) v))
      else if (b.modulated env i).myOwnBusinessImpact i ≠ -1 ∧ activeModulation conf env i = none then
        .ok ((b.modulated env i).setBusinessImpact i ((b.modulated env i).myOwnBusinessImpact i))
      else .ok (b.modulated env i) := rfl
  have hstart : (b.modulated env i).businessImpact i = b.start env i := by rw [h2, Function.update_self]
  have hother : ∀ j, j ≠ i → (b.modulated env i).businessImpact j = b.businessImpact j := fun j hj => by
    rw [h2, Function.update_of_ne hj]
  rw [hfold, h1]
  by_cases hne : (b.problem i).impacts = []
  · rw [if_neg (fun h => h hne)]
    by_cases hc : (b.modulated env i).myOwnBusinessImpact i ≠ -1 ∧ activeModulation conf env i = none
    · rw [if_pos hc]
      refine ⟨_, rfl, h1, fun j hj => ?_, fun _ => ?_, fun h => absurd hne h⟩
      · exact (Function.update_of_ne hj _ _).trans (hother j hj)
      · show Function.update _ _ _ i = _
        rw [Function.update_self, h3]
        unfold BusinessWorld.base
        rw [hc.2]
    · rw [if_neg hc]
      refine ⟨_, rfl, h1, hother, fun _ => ?_, fun h => absurd hne h⟩
      rw [hstart]
      unfold BusinessWorld.start BusinessWorld.base
      cases hm : activeModulation conf env i with
      | some m => rfl
      | none =>
        -- only the own value that stands for none is not put back
        have hown : b.own i = -1 := by
          rw [h3] at hc
          by_contra h
          exact hc ⟨h, hm⟩
        unfold BusinessWorld.own at hown ⊢
        split at hown
        · rw [if_pos ‹_›]
        · exact absurd hown ‹_›
  · rw [if_pos hne]
    cases hv : (impactValues (b.modulated env i) i).max? with
    | none =>
      obtain ⟨j, hj⟩ := List.exists_mem_of_ne_nil _ hne
      have hmem : (b.modulated env i).businessImpact j ∈ impactValues (b.modulated env i) i :=
        mem_impactValues.mpr ⟨j, by rw [h1]; exact hj, rfl⟩
      rw [List.max?_eq_none_iff.mp hv] at hmem
      cases hmem
    | some v =>
      refine ⟨_, rfl, h1, fun j hj => ?_, fun h => absurd h hne, fun _ => ?_⟩
      · exact (Function.update_of_ne hj _ _).trans (hother j hj)
      · show IsGreatest _ (Function.update _ _ _ i)
        rw [Function.update_self, hstart]
        exact greatest_compared hv

theorem Updated.isGreatest_iff (h : Updated env i b b') :
    IsGreatest (b.values env i) (b'.businessImpact i) ↔ b.Fits env i := by
  by_cases hne : (b.problem i).impacts = []
  · have hval : b.values env i = {b.base env i} := by
      ext v
      simp [BusinessWorld.values, hne]
    rw [hval, h.alone hne]
    exact ⟨fun _ => Or.inr (Or.inl hne), fun _ => isGreatest_singleton⟩
  have hprob := b.isProblem i hne
  obtain ⟨hmem, hle⟩ := h.greatest hne
  have hall : ∀ j ∈ (b.problem i).impacts, j ≠ i → b.businessImpact j ≤ b'.businessImpact i :=
    fun j hj hji => hle (Or.inr ⟨j, hj, hji, rfl⟩)
  cases hm : activeModulation conf env i with
  | some m =>
    have hstart : b.start env i = b.base env i := by
      unfold BusinessWorld.start BusinessWorld.base
      rw [hm]
    refine ⟨fun _ => Or.inl (by rw [hm]; exact Option.some_ne_none m), fun _ => ⟨?_, ?_⟩⟩
    · exact hmem.imp (fun e => e.trans hstart) fun hj => ⟨hprob, hj⟩
    · rintro v (rfl | ⟨-, j, hj, hji, rfl⟩)
      · exact hle (Or.inl hstart.symm)
      · exact hall j hj hji
  | none =>
    have hstart : b.start env i = b.businessImpact i := by
      unfold BusinessWorld.start
      rw [hm]
    have hbase : b.base env i = b.own i := by
      unfold BusinessWorld.base
      rw [hm]
    have hfrom : b.businessImpact i ≤ b'.businessImpact i := hle (Or.inl hstart.symm)
    constructor
    · rintro ⟨hmem', hle'⟩
      have hown : b.own i ≤ b'.businessImpact i := hle' (Or.inl hbase.symm)
      rcases hmem with e | ⟨j, hj, hji, e⟩
      · rcases hmem' with e' | ⟨-, j, hj, hji, e'⟩
        · exact Or.inr (Or.inr (Or.inl (by rw [← hstart, ← e, e', hbase])))
        · exact Or.inr (Or.inr (Or.inr ⟨j, hj, hji, e' ▸ hfrom, e' ▸ hown⟩))
      · exact Or.inr (Or.inr (Or.inr ⟨j, hj, hji, e ▸ hfrom, e ▸ hown⟩))
    · rintro (hmod | hnil | heq | ⟨j, hj, hji, hb, ho⟩)
      · exact absurd hm hmod
      · exact absurd hnil hne
      · refine ⟨hmem.imp (fun e => ?_) fun hj => ⟨hprob, hj⟩, ?_⟩
        · rw [e, hstart, hbase, heq]
        · rintro v (rfl | ⟨-, j, hj, hji, rfl⟩)
          · rw [hbase, ← heq]
            exact hfrom
          · exact hall j hj hji
      · refine ⟨Or.inr ⟨hprob, ?_⟩, ?_⟩
        · rcases hmem with e | hj'
          · refine ⟨j, hj, hji, le_antisymm ?_ (hall j hj hji)⟩
            rw [e, hstart]
            exact hb
          · exact hj'
        · rintro v (rfl | ⟨-, j', hj', hji', rfl⟩)
          · rw [hbase]
            exact ho.trans (hall j hj hji)
          · exact hall j' hj' hji'

/-! ## Runs -/

/-- A call of `update_business_impact_value`. -/
structure BusinessTurn (conf : BusinessConf) where
  before : BusinessWorld conf
  env : Env
  item : Nat
  after : BusinessWorld conf

/-- The calls of a run: between them the other functions change what the items
are problems and impacts of. -/
inductive BusinessRun (b₀ : BusinessWorld conf) : List (BusinessTurn conf) → BusinessWorld conf → Prop
  | nil : BusinessRun b₀ [] b₀
  | change {trace : List (BusinessTurn conf)} {b b' : BusinessWorld conf} (h : BusinessRun b₀ trace b)
      (hb : b'.businessImpact = b.businessImpact) (ho : b'.myOwnBusinessImpact = b.myOwnBusinessImpact) :
      BusinessRun b₀ trace b'
  | update {trace : List (BusinessTurn conf)} {b b' : BusinessWorld conf} {env : Env} {i : Nat} (h : BusinessRun b₀ trace b)
      (hu : updateBusinessImpactValue env i b = .ok b') : BusinessRun b₀ (trace ++ [⟨b, env, i, b'⟩]) b'

def BusinessTurn.Fits (t : BusinessTurn conf) : Prop := t.before.Fits t.env t.item

def BusinessTurn.Right (t : BusinessTurn conf) : Prop :=
  IsGreatest (t.before.values t.env t.item) (t.after.businessImpact t.item)

theorem BusinessRun.updated {b₀ : BusinessWorld conf} {trace : List (BusinessTurn conf)} (h : BusinessRun b₀ trace b) :
    ∀ t ∈ trace, Updated t.env t.item t.before t.after := by
  induction h with
  | nil => exact fun t ht => absurd ht List.not_mem_nil
  | change h hb ho ih => exact ih
  | @update trace b b' env i h hu ih =>
    intro t ht
    rcases List.mem_append.mp ht with ht | ht
    · exact ih t ht
    · rw [List.mem_singleton] at ht
      subst ht
      obtain ⟨b'', hok, hup⟩ := update_ok env i b
      rw [hu] at hok
      cases hok
      exact hup

/-- In a run each call gives the highest value exactly when the value before it fits. -/
theorem businessRun_right_iff {b₀ : BusinessWorld conf} {trace : List (BusinessTurn conf)} (h : BusinessRun b₀ trace b) :
    (∀ t ∈ trace, t.Right) ↔ ∀ t ∈ trace, t.Fits :=
  forall₂_congr fun t ht => (h.updated t ht).isGreatest_iff

def updatedWorld (env : Env) (i : Nat) (b : BusinessWorld conf) : BusinessWorld conf :=
  match updateBusinessImpactValue env i b with
  | .ok b' => b'
  | .error _ => b

theorem update_eq_updatedWorld (env : Env) (i : Nat) (b : BusinessWorld conf) :
    updateBusinessImpactValue env i b = .ok (updatedWorld env i b) := by
  obtain ⟨b', hok, -⟩ := update_ok env i b
  unfold updatedWorld
  rw [hok]

end

/-! ## A problem with one impact -/

def modulatedHosts : BusinessConf where
  hosts := [0, 1]
  services := []
  nodup := by decide
  host := id
  hostServices := fun _ => []
  actDependOf := fun _ => []
  actDependOfMe := fun _ => []
  isVolatile := fun _ => false
  resultmodulations := fun _ => []
  enableProblemImpactsStatesChange := false
  businessImpactModulations := fun i => if i = 1 then [⟨5, some 0⟩] else []

def oneImpact : BusinessWorld modulatedHosts where
  problem := fun i => if i = 0 then { isProblem := true, impacts := [1] } else {}
  businessImpact := fun i => if i = 0 then 2 else 3
  myOwnBusinessImpact := fun _ => -1
  isProblem := by
    intro i h
    by_cases hi : i = 0
    · rw [if_pos hi]
    · rw [if_neg hi] at h
      exact absurd rfl h
  known := by
    intro i j hj
    by_cases hi : i = 0
    · rw [if_pos hi, List.mem_singleton] at hj
      subst hj
      decide
    · rw [if_neg hi] at hj
      cases hj

def inPeriod (now : Int) : Env := { plainEnv now with isTimeValid := fun _ t => decide (t = 1) }

def inModulation : BusinessWorld modulatedHosts := updatedWorld (inPeriod 1) 0 (updatedWorld (inPeriod 1) 1 oneImpact)

theorem run_inModulation : BusinessRun oneImpact
    [⟨oneImpact, inPeriod 1, 1, updatedWorld (inPeriod 1) 1 oneImpact⟩,
      ⟨updatedWorld (inPeriod 1) 1 oneImpact, inPeriod 1, 0, inModulation⟩] inModulation :=
  (BusinessRun.nil.update (update_eq_updatedWorld (inPeriod 1) 1 oneImpact)).update
    (update_eq_updatedWorld (inPeriod 1) 0 (updatedWorld (inPeriod 1) 1 oneImpact))

theorem businessRun_right_inModulation :
    BusinessTurn.Right ⟨updatedWorld (inPeriod 1) 1 oneImpact, inPeriod 1, 0, inModulation⟩ := by
  refine (businessRun_right_iff run_inModulation).mpr (fun t ht => ?_) _ (List.mem_cons_of_mem _ (List.mem_singleton.mpr rfl))
  rcases List.mem_cons.mp ht with rfl | ht
  · exact Or.inl (by decide)
  · rw [List.mem_singleton] at ht
    subst ht
    exact Or.inr (Or.inr (Or.inl (by decide)))

/-- After the period host 1 has its own value again, and host 0 keeps that of the modulation. -/
theorem businessImpact_stays : ∃ trace b, BusinessRun oneImpact trace b ∧ ¬ ∀ t ∈ trace, t.Right := by
  have hrun := (run_inModulation.update (update_eq_updatedWorld (inPeriod 2) 1 inModulation)).update
    (update_eq_updatedWorld (inPeriod 2) 0 (updatedWorld (inPeriod 2) 1 inModulation))
  refine ⟨_, _, hrun, fun h => ?_⟩
  obtain ⟨hmem, -⟩ := h _ (List.mem_append_right _ (List.mem_singleton.mpr rfl))
  -- the value is 5, the own value of host 0 is 2, and its impact has 3
  rcases hmem with e | ⟨-, j, hj, -, e⟩
  · exact absurd e (by decide)
  · have hj1 : j ∈ [1] := hj
    rw [List.mem_singleton] at hj1
    subst hj1
    exact absurd e (by decide)

end Alignak.Scheduling
