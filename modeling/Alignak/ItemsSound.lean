import Alignak.ChangeCommands

/-!
# Well-formed items

The periods of an item are known identifiers and the attempt of a SOFT item does
not exceed its maximum.
-/

namespace Alignak.Scheduling

/-- What `timeperiods[period]` expects of a period that is set. -/
def KnownPeriod (timeperiods : List Nat) : Value → Prop
  | .none => True
  | .uuid p => p ∈ timeperiods
  | _ => False

structure Items.WellFormed (timeperiods : List Nat) (s : Items) : Prop where
  checkPeriod : ∀ i, KnownPeriod timeperiods (s.attrs i .checkPeriod)
  notificationPeriod : ∀ i, KnownPeriod timeperiods (s.attrs i .notificationPeriod)
  attempt : ∀ i, (s.world.checkState i).stateType = .soft →
    (s.world.checkState i).attempt ≤ (s.attrs i .maxCheckAttempts).toInt

/-- The turns that store no period, and no maximum below the attempt of a SOFT item. -/
def ItemTurn.Proper (t : ItemTurn) : Prop :=
  match t.event with
  | .scheduler _ | .schedule _ => True
  | .changeCheckTimeperiod _ _ | .changeSvcNotificationTimeperiod _ _ => False
  | .changeModattr i changes => changes.testBit 14 = false ∧ changes.testBit 16 = false ∧
      (changes.testBit 12 = true → (t.state.world.checkState i).stateType = .soft →
        (t.state.world.checkState i).attempt ≤ if (t.state.attrs i .maxCheckAttempts).truthy then 0 else 1)
  | .changeMaxAttempts i n => (t.state.world.checkState i).stateType = .soft → (t.state.world.checkState i).attempt ≤ n

variable {changes : Int} {attrs : Attribute → Value} {a : Attribute}

section
variable {conf : Conf} {timeperiods : List Nat} {env : Env} {s s₀ : Items} {i : Nat}

theorem not_knownPeriod_bool {b : Bool} : ¬ KnownPeriod timeperiods (.bool b) := id

/-! ## Modified attributes -/

theorem toggle_other {m : Nat × Attribute} (h : a ≠ m.2) :
    toggle changes attrs m a = attrs a := by
  unfold toggle
  split
  · exact Function.update_of_ne h _ _
  · rfl

theorem foldl_toggle_other {l : List (Nat × Attribute)} (h : ∀ m ∈ l, a ≠ m.2)
    (attrs : Attribute → Value) : l.foldl (toggle changes) attrs a = attrs a := by
  induction l generalizing attrs with
  | nil => rfl
  | cons m l ih =>
    rw [List.foldl_cons, ih (fun n hn => h n (List.mem_cons_of_mem _ hn))]
    exact toggle_other (h m List.mem_cons_self)

theorem toggle_self (changes : Int) (attrs : Attribute → Value) (bit : Nat) (a : Attribute) :
    toggle changes attrs (bit, a) a = if changes.testBit bit then .bool !(attrs a).truthy else attrs a := by
  unfold toggle
  split
  · exact Function.update_self _ _ _
  · rfl

theorem toggled_once {bit : Nat} (before after : List (Nat × Attribute))
    (h : modattrs = before ++ (bit, a) :: after) (hb : ∀ m ∈ before, a ≠ m.2) (ha : ∀ m ∈ after, a ≠ m.2) :
    toggled changes attrs a = if changes.testBit bit then .bool !(attrs a).truthy else attrs a := by
  unfold toggled
  rw [h, List.foldl_append, List.foldl_cons, foldl_toggle_other ha, toggle_self, foldl_toggle_other hb]

theorem toggled_checkPeriod : toggled changes attrs .checkPeriod =
    if changes.testBit 14 then .bool !(attrs .checkPeriod).truthy else attrs .checkPeriod :=
  toggled_once (modattrs.take 13) (modattrs.drop 14) rfl (by decide) (by decide)

theorem toggled_notificationPeriod : toggled changes attrs .notificationPeriod =
    if changes.testBit 16 then .bool !(attrs .notificationPeriod).truthy else attrs .notificationPeriod :=
  toggled_once (modattrs.take 15) [] rfl (by decide) (by decide)

theorem toggled_maxCheckAttempts : toggled changes attrs .maxCheckAttempts =
    if changes.testBit 12 then .bool !(attrs .maxCheckAttempts).truthy else attrs .maxCheckAttempts :=
  toggled_once (modattrs.take 11) (modattrs.drop 12) rfl (by decide) (by decide)

/-! ## Turns -/

@[simp] theorem setAttribute_self (a : Attribute) (v : Value) : (s.setAttribute i a v).attrs i a = v := by
  simp [Items.setAttribute]

theorem setAttribute_ne {b : Attribute} {j : Nat} (h : j ≠ i ∨ b ≠ a) (v : Value) :
    (s.setAttribute i a v).attrs j b = s.attrs j b := by
  by_cases hj : j = i
  · subst hj
    have hself : (s.setAttribute j a v).attrs j = Function.update (s.attrs j) a v := Function.update_self _ _ _
    refine (congrFun hself b).trans ?_
    exact Function.update_of_ne (h.resolve_left fun h => h rfl) _ _
  · exact congrFun (Function.update_of_ne hj _ _) b

theorem changeCheckTimeperiod_breaks {p : Nat} : ¬ (changeCheckTimeperiod i p s).WellFormed timeperiods := by
  intro h
  have hi := h.checkPeriod i
  rw [changeCheckTimeperiod, setAttribute_self] at hi
  exact hi

theorem changeSvcNotificationTimeperiod_breaks {p : Nat} : ¬ (changeSvcNotificationTimeperiod i p s).WellFormed timeperiods := by
  intro h
  have hi := h.notificationPeriod i
  rw [changeSvcNotificationTimeperiod, setAttribute_self] at hi
  exact hi

theorem changeModattr_self : (changeModattr i changes s).attrs i = toggled changes (s.attrs i) := by
  exact Function.update_self _ _ _

theorem changeModattr_ne {j : Nat} (h : j ≠ i) : (changeModattr i changes s).attrs j = s.attrs j := by
  exact Function.update_of_ne h _ _

theorem changeModattr_wellFormed_iff (h : s.WellFormed timeperiods) :
    (changeModattr i changes s).WellFormed timeperiods ↔ ItemTurn.Proper ⟨s, env, .changeModattr i changes⟩ := by
  constructor
  · intro h'
    have hcheck := h'.checkPeriod i
    have hnotification := h'.notificationPeriod i
    have hattempt := h'.attempt i
    rw [changeModattr_self] at hcheck hnotification hattempt
    rw [toggled_checkPeriod] at hcheck
    rw [toggled_notificationPeriod] at hnotification
    rw [toggled_maxCheckAttempts] at hattempt
    refine ⟨?_, ?_, fun hbit hsoft => ?_⟩
    · by_contra hbit
      rw [if_pos (by simpa using hbit)] at hcheck
      exact not_knownPeriod_bool hcheck
    · by_contra hbit
      rw [if_pos (by simpa using hbit)] at hnotification
      exact not_knownPeriod_bool hnotification
    · have hle := hattempt hsoft
      rw [if_pos hbit] at hle
      refine hle.trans_eq ?_
      cases (s.attrs i .maxCheckAttempts).truthy <;> rfl
  · rintro ⟨h14, h16, h12⟩
    refine ⟨fun j => ?_, fun j => ?_, fun j hsoft => ?_⟩ <;> by_cases hj : j = i
    · subst hj
      rw [changeModattr_self, toggled_checkPeriod, h14]
      exact h.checkPeriod j
    · rw [changeModattr_ne hj]
      exact h.checkPeriod j
    · subst hj
      rw [changeModattr_self, toggled_notificationPeriod, h16]
      exact h.notificationPeriod j
    · rw [changeModattr_ne hj]
      exact h.notificationPeriod j
    · subst hj
      rw [changeModattr_self, toggled_maxCheckAttempts]
      split
      next hbit =>
        refine (h12 hbit hsoft).trans_eq ?_
        cases (s.attrs j .maxCheckAttempts).truthy <;> rfl
      next => exact h.attempt j hsoft
    · rw [changeModattr_ne hj]
      exact h.attempt j hsoft

theorem changeMaxAttempts_wellFormed_iff {n : Int} (h : s.WellFormed timeperiods) :
    (changeMaxAttempts conf i n s).WellFormed timeperiods ↔ ItemTurn.Proper ⟨s, env, .changeMaxAttempts i n⟩ := by
  have hsame : ∀ j, ((changeMaxAttempts conf i n s).world.checkState j).stateType = (s.world.checkState j).stateType := by
    intro j
    by_cases hj : j = i
    · subst hj
      unfold changeMaxAttempts
      simp only [World.modifyCheckState_self]
      split <;> rfl
    · exact congrArg CheckState.stateType (World.modifyCheckState_ne _ hj)
  have hattempt : ∀ j, (s.world.checkState j).stateType = .soft →
      ((changeMaxAttempts conf i n s).world.checkState j).attempt = (s.world.checkState j).attempt := by
    intro j hsoft
    by_cases hj : j = i
    · subst hj
      unfold changeMaxAttempts
      simp only [World.modifyCheckState_self]
      rw [if_neg]
      · rfl
      · rintro ⟨hhard, -⟩
        exact absurd (hsoft.symm.trans hhard) (by decide)
    · exact congrArg CheckState.attempt (World.modifyCheckState_ne _ hj)
  have hmax : (changeMaxAttempts conf i n s).attrs i .maxCheckAttempts = .int n := setAttribute_self _ _
  have hother : ∀ j a, j ≠ i ∨ a ≠ .maxCheckAttempts → (changeMaxAttempts conf i n s).attrs j a = s.attrs j a :=
    fun j a ha => setAttribute_ne ha _
  constructor
  · intro h' hsoft
    have hle := h'.attempt i ((hsame i).trans hsoft)
    rw [hattempt i hsoft, hmax] at hle
    exact hle
  · intro hp
    refine ⟨fun j => ?_, fun j => ?_, fun j hsoft => ?_⟩
    · rw [hother j _ (Or.inr (by decide))]
      exact h.checkPeriod j
    · rw [hother j _ (Or.inr (by decide))]
      exact h.notificationPeriod j
    · rw [hsame] at hsoft
      rw [hattempt j hsoft]
      by_cases hj : j = i
      · subst hj
        rw [hmax]
        exact hp hsoft
      · rw [hother j _ (Or.inl hj)]
        exact h.attempt j hsoft

theorem Items.WellFormed.tame (h : s.WellFormed timeperiods) :
    Tame (fun i => (s.attrs i .maxCheckAttempts).toInt) (s.view timeperiods) := ⟨fun _ => rfl, h.attempt⟩

theorem wellFormed_of_tame {w : World} (h : s.WellFormed timeperiods)
    (ht : Tame (fun i => (s.attrs i .maxCheckAttempts).toInt) w) : Items.WellFormed timeperiods { s with world := w } :=
  ⟨h.checkPeriod, h.notificationPeriod, ht.soft⟩

theorem runScheduler_wellFormed {ev : Event} (hev : ∀ i n, ev ≠ .command (.changeMaxCheckAttempts i n))
    (h : s.WellFormed timeperiods) : (stateAfter (runScheduler conf timeperiods env ev s)).WellFormed timeperiods := by
  have hkeeps : Keeps (Tame fun i => (s.attrs i .maxCheckAttempts).toInt) (runEvent conf env ev) := event_tame hev
  have ht := (hkeeps _ h.tame).1
  unfold runScheduler
  cases hr : runEvent conf env ev (s.view timeperiods) with
  | ok u w =>
    rw [hr] at ht
    exact wellFormed_of_tame h ht
  | error e w =>
    rw [hr] at ht
    exact wellFormed_of_tame h ht

theorem after_wellFormed_iff {ev : ItemEvent} (enabled : ev.Enabled timeperiods s) (h : s.WellFormed timeperiods) :
    (ItemTurn.after conf timeperiods ⟨s, env, ev⟩).WellFormed timeperiods ↔ ItemTurn.Proper ⟨s, env, ev⟩ := by
  cases ev with
  | changeCheckTimeperiod i p => exact iff_of_false changeCheckTimeperiod_breaks id
  | changeSvcNotificationTimeperiod i p => exact iff_of_false changeSvcNotificationTimeperiod_breaks id
  | changeModattr i changes => exact changeModattr_wellFormed_iff h
  | changeMaxAttempts i n => exact changeMaxAttempts_wellFormed_iff h
  | schedule i =>
    refine iff_of_true ?_ trivial
    unfold ItemTurn.after runItemEvent
    simp only
    split <;> exact h
  | scheduler ev =>
    refine iff_of_true ?_ trivial
    by_cases hk : ∃ k, ev = .consumeResult k
    · obtain ⟨k, rfl⟩ := hk
      unfold ItemTurn.after runItemEvent
      simp only
      split
      next => exact h
      next => exact runScheduler_wellFormed (fun _ _ e => nomatch e) h
    · have hrun : runItemEvent conf timeperiods env (.scheduler ev) = runScheduler conf timeperiods env ev := by
        cases ev with
        | consumeResult k => exact absurd ⟨k, rfl⟩ hk
        | _ => rfl
      unfold ItemTurn.after
      rw [hrun]
      exact runScheduler_wellFormed (fun i n e => by subst e; exact enabled) h

/-! ## Runs -/

structure Loaded (timeperiods : List Nat) (s : Items) : Prop where
  world : Initial s.world
  checkPeriod : ∀ i, KnownPeriod timeperiods (s.attrs i .checkPeriod)
  notificationPeriod : ∀ i, KnownPeriod timeperiods (s.attrs i .notificationPeriod)

theorem Loaded.wellFormed (h : Loaded timeperiods s) : s.WellFormed timeperiods := by
  refine ⟨h.checkPeriod, h.notificationPeriod, fun i hsoft => ?_⟩
  obtain ⟨x, stateId, e⟩ := h.world.checkState i
  rw [e] at hsoft
  cases hsoft

/-- The items are well formed all along a run exactly when each turn of it is proper. -/
theorem items_wellFormed_iff {trace : List ItemTurn} (loaded : Loaded timeperiods s₀) (h : ItemRun conf timeperiods s₀ trace s) :
    ((∀ t ∈ trace, t.state.WellFormed timeperiods) ∧ s.WellFormed timeperiods) ↔ ∀ t ∈ trace, t.Proper := by
  induction h with
  | nil => exact iff_of_true ⟨fun t ht => (nomatch ht), loaded.wellFormed⟩ fun t ht => (nomatch ht)
  | @snoc trace s h env ev enabled ih =>
    simp only [List.forall_mem_append, List.forall_mem_singleton]
    rw [← ih]
    constructor
    · rintro ⟨⟨htrace, hs⟩, hafter⟩
      exact ⟨⟨htrace, hs⟩, (after_wellFormed_iff enabled hs).mp hafter⟩
    · rintro ⟨⟨htrace, hs⟩, hproper⟩
      exact ⟨⟨htrace, hs⟩, (after_wellFormed_iff enabled hs).mpr hproper⟩

def loadedItems : Items where
  world := startWorld
  attrs := fun _ a => match a with
    | .checkPeriod => .uuid 0
    | .maxCheckAttempts => .int 3
    | _ => .none
  modifiedAttributes := fun _ => 0

theorem loadedItems_loaded : Loaded [0] loadedItems where
  world := startWorld_initial
  checkPeriod := fun _ => List.mem_singleton_self 0
  notificationPeriod := fun _ => trivial

/-- The number of attempts is changed to five, and the notifications are toggled. -/
theorem loadedItems_wellFormed : ∃ trace s, ItemRun oneHost [0] loadedItems trace s ∧ trace.length = 2 ∧ s.WellFormed [0] := by
  have hrun : ItemRun oneHost [0] loadedItems _ _ := (ItemRun.nil.snoc (plainEnv 0)
    (show ItemEvent.Enabled [0] loadedItems (.changeMaxAttempts 0 5) from trivial)).snoc (plainEnv 0)
    (show ItemEvent.Enabled [0] _ (.changeModattr 0 1) from trivial)
  refine ⟨_, _, hrun, rfl, ((items_wellFormed_iff loadedItems_loaded hrun).mpr fun t ht => ?_).2⟩
  rcases List.mem_cons.mp ht with rfl | ht
  · exact fun hsoft => (nomatch hsoft)
  · rw [List.mem_singleton.mp ht]
    exact ⟨by decide, by decide, fun hbit => absurd hbit (by decide)⟩

/-- The timeperiod of the command is stored as an object, and the next schedule of the host does not find it. -/
theorem timeperiod_not_found : ∃ s, Loaded [0] loadedItems ∧
    ItemRun oneHost [0] loadedItems [⟨loadedItems, plainEnv 0, .changeCheckTimeperiod 0 0⟩] s ∧
    ¬ s.WellFormed [0] ∧ runItemEvent oneHost [0] (plainEnv 0) (.schedule 0) s = .error .keyError s := by
  refine ⟨_, loadedItems_loaded, ItemRun.nil.snoc _ trivial, changeCheckTimeperiod_breaks, ?_⟩
  rfl

end

end Alignak.Scheduling
