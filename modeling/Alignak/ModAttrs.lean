import Alignak.ItemsSound

/-!
# Toggling the modified attributes

The commands CHANGE_HOST_MODATTR and CHANGE_SVC_MODATTR give a mask. A set bit
toggles a boolean attribute; of the other attributes it only says that they are
to be saved.
-/

namespace Alignak.Scheduling

def Attribute.isBoolean : Attribute → Bool
  | .notificationsEnabled | .activeChecksEnabled | .passiveChecksEnabled | .eventHandlerEnabled
  | .flapDetectionEnabled | .processPerformanceData | .checkFreshness => true
  | .eventHandler | .checkCommand | .checkInterval | .retryInterval | .maxCheckAttempts | .checkPeriod | .customs
  | .notificationPeriod => false

def Attribute.bit : Attribute → Nat
  | .notificationsEnabled => 0
  | .activeChecksEnabled => 1
  | .passiveChecksEnabled => 2
  | .eventHandlerEnabled => 3
  | .flapDetectionEnabled => 4
  | .processPerformanceData => 6
  | .eventHandler => 8
  | .checkCommand => 9
  | .checkInterval => 10
  | .retryInterval => 11
  | .maxCheckAttempts => 12
  | .checkFreshness => 13
  | .checkPeriod => 14
  | .customs => 15
  | .notificationPeriod => 16

theorem mem_modattrs {m : Nat × Attribute} (h : m ∈ modattrs) : m.1 = m.2.bit := by
  revert m
  decide

def Items.HoldsBooleans (s : Items) (i : Nat) : Prop := ∀ a : Attribute, a.isBoolean = true → ∃ b, s.attrs i a = .bool b

structure Toggled (i : Nat) (changes : Int) (s s' : Items) : Prop where
  toggled : ∀ a : Attribute, a.isBoolean = true → changes.testBit a.bit = true → s'.attrs i a = .bool !(s.attrs i a).truthy
  kept : ∀ a : Attribute, (a.isBoolean = true → changes.testBit a.bit = false) → s'.attrs i a = s.attrs i a
  modified : s'.modifiedAttributes i = Int.xor (s.modifiedAttributes i) changes
  others : ∀ j ≠ i, s'.attrs j = s.attrs j ∧ s'.modifiedAttributes j = s.modifiedAttributes j
  world : s'.world = s.world

def TogglesOnce (changes : Int) : Prop :=
  ∀ a : Attribute, changes.testBit a.bit = true → a.isBoolean = true ∧ a ≠ .checkFreshness

section
variable {s : Items} {i : Nat} {changes : Int} {attrs : Attribute → Value} {a : Attribute}

/-! ## The loop -/

theorem toggled_unset (h : changes.testBit a.bit = false) : toggled changes attrs a = attrs a := by
  unfold toggled
  refine List.foldlRecOn (motive := fun f => f a = attrs a) modattrs (toggle changes) rfl fun f hf m hm => ?_
  by_cases hma : m.2 = a
  · have hbit : changes.testBit m.1 = false := by
      rw [mem_modattrs hm, hma]
      exact h
    unfold toggle
    rw [hbit]
    exact hf
  · rw [toggle_other fun e => hma e.symm]
    exact hf

/-- `not getattr(...)`, whatever the attribute holds. -/
def Value.negated (v : Value) : Value := .bool !v.truthy

theorem foldl_toggle_set {l : List (Nat × Attribute)} (h : ∀ m ∈ l, m.2 = a → changes.testBit m.1 = true) :
    ∀ attrs : Attribute → Value, l.foldl (toggle changes) attrs a = Value.negated^[l.countP fun m => m.2 == a] (attrs a) := by
  induction l with
  | nil => exact fun _ => rfl
  | cons m l ih =>
    intro attrs
    have hl := ih fun n hn => h n (List.mem_cons_of_mem _ hn)
    rw [List.foldl_cons, hl]
    by_cases hm : m.2 = a
    · have hbit := h m List.mem_cons_self hm
      subst hm
      rw [toggle_self changes attrs m.1 m.2, if_pos hbit, List.countP_cons_of_pos (by simp), Function.iterate_succ_apply]
      rfl
    · rw [toggle_other fun e => hm e.symm, List.countP_cons_of_neg (by simpa using hm)]

theorem countP_modattrs (a : Attribute) :
    (modattrs.countP fun m => m.2 == a) = if a = .checkFreshness then 2 else 1 := by
  cases a <;> rfl

theorem toggled_set (h : changes.testBit a.bit = true) :
    toggled changes attrs a = if a = .checkFreshness then (attrs a).negated.negated else (attrs a).negated := by
  unfold toggled
  rw [foldl_toggle_set (fun m hm e => by rw [mem_modattrs hm, e]; exact h), countP_modattrs]
  split <;> rfl

theorem negated_ne (v : Value) : v.negated ≠ v := by
  intro h
  have ht := congrArg Value.truthy h
  unfold Value.negated at ht
  cases hv : v.truthy <;> simp [Value.truthy] at ht

theorem negated_negated_ne (v : Value) : v.negated.negated ≠ v.negated := negated_ne v.negated

/-! ## The commands -/

theorem Items.eq_of {t u : Items} (hw : t.world = u.world) (ha : t.attrs = u.attrs)
    (hm : t.modifiedAttributes = u.modifiedAttributes) : t = u := by
  cases t
  cases u
  cases hw
  cases ha
  cases hm
  rfl

theorem xor_xor (m n : Int) : Int.xor (Int.xor m n) n = m := by
  cases m <;> cases n <;> simp [Int.xor]

theorem changeModattr_toggled (h : TogglesOnce changes) : Toggled i changes s (changeModattr i changes s) where
  toggled a _ hbit := by
    rw [changeModattr_self, toggled_set hbit, if_neg (h a hbit).2]
    rfl
  kept a ha := by
    rw [changeModattr_self]
    cases hbit : changes.testBit a.bit with
    | false => exact toggled_unset hbit
    | true =>
      rw [ha (h a hbit).1] at hbit
      cases hbit
  modified := Function.update_self ..
  others j hj := ⟨changeModattr_ne hj, Function.update_of_ne hj ..⟩
  world := rfl

theorem Toggled.once (h : Toggled i changes s (changeModattr i changes s)) : TogglesOnce changes := by
  intro a hbit
  have hset := @toggled_set _ (s.attrs i) _ hbit
  rw [← changeModattr_self] at hset
  by_cases hb : a.isBoolean = true
  · refine ⟨hb, fun ha => ?_⟩
    rw [if_pos ha, h.toggled a hb hbit] at hset
    exact negated_negated_ne _ hset.symm
  · rw [h.kept a fun hb' => absurd hb' hb] at hset
    by_cases ha : a = .checkFreshness
    · exact absurd (ha ▸ rfl) hb
    · rw [if_neg ha] at hset
      exact absurd hset.symm (negated_ne _)

theorem changeModattr_twice (hs : s.HoldsBooleans i) (h : TogglesOnce changes) :
    changeModattr i changes (changeModattr i changes s) = s := by
  have h1 := changeModattr_toggled (s := s) (i := i) h
  have h2 := changeModattr_toggled (s := changeModattr i changes s) (i := i) h
  have hattrs : (changeModattr i changes (changeModattr i changes s)).attrs = s.attrs := by
    funext j
    by_cases hj : j = i
    · subst hj
      funext a
      by_cases ha : a.isBoolean = true ∧ changes.testBit a.bit = true
      · obtain ⟨b, hb⟩ := hs a ha.1
        rw [h2.toggled a ha.1 ha.2, h1.toggled a ha.1 ha.2, hb]
        simp [Value.truthy]
      · have hk : a.isBoolean = true → changes.testBit a.bit = false := fun hb =>
          Bool.eq_false_iff.mpr fun hbit => ha ⟨hb, hbit⟩
        rw [h2.kept a hk, h1.kept a hk]
    · rw [(h2.others j hj).1, (h1.others j hj).1]
  have hmod : (changeModattr i changes (changeModattr i changes s)).modifiedAttributes = s.modifiedAttributes := by
    funext j
    by_cases hj : j = i
    · subst hj
      rw [h2.modified, h1.modified, xor_xor]
    · rw [(h2.others j hj).2, (h1.others j hj).2]
  exact Items.eq_of (h2.world.trans h1.world) hattrs hmod

end

/-! ## Items that hold truth values -/

section
variable {s s' : Items} {i j : Nat} {a : Attribute}

theorem setAttribute_holdsBooleans (h : s.HoldsBooleans i) (ha : a.isBoolean = false) (v : Value) :
    (s.setAttribute j a v).HoldsBooleans i := by
  intro b hb
  have hne : b ≠ a := fun e => by rw [e, ha] at hb; cases hb
  rw [setAttribute_ne (Or.inr hne)]
  exact h b hb

theorem changeModattr_holdsBooleans (h : s.HoldsBooleans i) (changes : Int) : (changeModattr j changes s).HoldsBooleans i := by
  intro a ha
  by_cases hj : i = j
  · subst hj
    rw [changeModattr_self]
    cases hbit : changes.testBit a.bit with
    | false =>
      rw [toggled_unset hbit]
      exact h a ha
    | true =>
      rw [toggled_set hbit]
      split
      · exact ⟨_, rfl⟩
      · exact ⟨_, rfl⟩
  · rw [changeModattr_ne hj]
    exact h a ha

variable {conf : Conf} {timeperiods : List Nat}

theorem runScheduler_attrs (env : Env) (ev : Event) (s : Items) :
    (stateAfter (runScheduler conf timeperiods env ev s)).attrs = s.attrs := by
  unfold runScheduler
  cases runEvent conf env ev (s.view timeperiods) <;> rfl

theorem after_holdsBooleans {t : ItemTurn} (h : t.state.HoldsBooleans i) : (t.after conf timeperiods).HoldsBooleans i := by
  obtain ⟨s, env, ev⟩ := t
  cases ev with
  | scheduler ev =>
    have hattrs : (ItemTurn.after conf timeperiods ⟨s, env, .scheduler ev⟩).attrs = s.attrs := by
      by_cases hk : ∃ k, ev = .consumeResult k
      · obtain ⟨k, rfl⟩ := hk
        unfold ItemTurn.after runItemEvent
        simp only
        split
        · rfl
        · exact runScheduler_attrs env _ s
      · have hrun : runItemEvent conf timeperiods env (.scheduler ev) = runScheduler conf timeperiods env ev := by
          cases ev with
          | consumeResult k => exact absurd ⟨k, rfl⟩ hk
          | _ => rfl
        unfold ItemTurn.after
        rw [hrun]
        exact runScheduler_attrs env ev s
    intro a ha
    rw [hattrs]
    exact h a ha
  | schedule j =>
    have hs : ItemTurn.after conf timeperiods ⟨s, env, .schedule j⟩ = s := by
      unfold ItemTurn.after runItemEvent
      simp only
      split <;> rfl
    rw [hs]
    exact h
  | changeModattr j changes => exact changeModattr_holdsBooleans h changes
  | changeCheckTimeperiod j p => exact setAttribute_holdsBooleans (s := markModified j 14 s) h rfl _
  | changeSvcNotificationTimeperiod j p => exact setAttribute_holdsBooleans (s := markModified j 16 s) h rfl _
  | changeMaxAttempts j n => exact setAttribute_holdsBooleans (s := markModified j 12 s) h rfl _

theorem ItemRun.holdsBooleans {s₀ : Items} {trace : List ItemTurn} (h : ItemRun conf timeperiods s₀ trace s)
    (h0 : s₀.HoldsBooleans i) : s.HoldsBooleans i := by
  induction h with
  | nil => exact h0
  | snoc _ _ _ ih => exact after_holdsBooleans ih

/-- In every state that a run reaches, the commands treat exactly these masks as they say. -/
theorem modattr_toggles_iff {s₀ : Items} {trace : List ItemTurn} (h : ItemRun conf timeperiods s₀ trace s)
    (h₀ : s₀.HoldsBooleans i) (changes : Int) :
    (Toggled i changes s (changeModattr i changes s) ∧ changeModattr i changes (changeModattr i changes s) = s) ↔
      TogglesOnce changes :=
  ⟨fun ht => ht.1.once, fun ht => ⟨changeModattr_toggled ht, changeModattr_twice (h.holdsBooleans h₀) ht⟩⟩

end

def freshItems : Items where
  world := startWorld
  attrs := fun _ a => match a with
    | .checkInterval => .int 10
    | .customs => .other false
    | a => if a.isBoolean then .bool true else .none
  modifiedAttributes := fun _ => 0

theorem freshItems_holdsBooleans : freshItems.HoldsBooleans 0 := by
  intro a ha
  cases a <;> first | exact ⟨true, rfl⟩ | cases ha

/-- The notifications and the active checks are toggled, twice. -/
theorem modattr_toggles_enabled : Toggled 0 3 freshItems (changeModattr 0 3 freshItems) := by
  have honce : TogglesOnce 3 := by
    intro a
    cases a <;> decide
  exact ((@modattr_toggles_iff _ _ oneHost [] _ _ .nil freshItems_holdsBooleans 3).mpr honce).1

/-- The bit of the freshness checks leaves them on, and the bit of the check interval makes a truth value of it. -/
theorem modattr_untoggled : (changeModattr 0 8192 freshItems).attrs 0 .checkFreshness = .bool true ∧
    (changeModattr 0 1024 freshItems).attrs 0 .checkInterval = .bool false ∧
    ¬ Toggled 0 8192 freshItems (changeModattr 0 8192 freshItems) ∧
    ¬ Toggled 0 1024 freshItems (changeModattr 0 1024 freshItems) := by
  have h1 : (changeModattr 0 8192 freshItems).attrs 0 .checkFreshness = .bool true := by decide
  have h2 : (changeModattr 0 1024 freshItems).attrs 0 .checkInterval = .bool false := by decide
  refine ⟨h1, h2, fun h => ?_, fun h => ?_⟩
  · have ht := h.toggled .checkFreshness rfl (by decide)
    rw [h1] at ht
    cases ht
  · have hk := h.kept .checkInterval fun hb => by cases hb
    rw [h2] at hk
    cases hk

end Alignak.Scheduling
