import Alignak.Escalations

/-!
# The early starts of escalations

The next notification is the earliest of what `get_next_notif_time` offers.
-/

namespace Alignak.Scheduling

section
variable {env : RepeatEnv} {item : RepeatedItem} {notif : RepeatedNotification} {x : Escalation} {stdTime res t : Rat}

theorem getNextNotifTime_some {status : State} {creationTime : Rat} :
    x.getNextNotifTime env stdTime status creationTime = some t ↔ x.start env creationTime = some t ∧
      x.hasOption (nextTimeLetter status) = true ∧ t ≤ stdTime ∧ x.inPeriod env t = true := by
  unfold Escalation.getNextNotifTime
  cases x.start env creationTime with
  | none => simp
  | some s =>
    by_cases ho : x.hasOption (nextTimeLetter status) = true
    · by_cases hs : stdTime < s
      · simp [ho, hs]
        rintro rfl hle
        exact absurd hle (not_le.mpr hs)
      · by_cases hp : x.inPeriod env s = true
        · simp [ho, hs, hp]
          rintro rfl
          exact ⟨not_lt.mp hs, hp⟩
        · simp [ho, hs, hp]
          rintro rfl -
          simpa using hp
    · simp [ho]

variable (env item notif) in
/-- The test of `get_next_notif_time`: the start of an escalation that has not been raised, up to the standard time. -/
def Offered (stdTime : Rat) (x : Escalation) (t : Rat) : Prop :=
  x.escalationName ∉ notif.alreadyStartEscalations ∧ x.start env notif.creationTime = some t ∧ env.now < t ∧ t ≤ stdTime ∧
    x.hasOption (nextTimeLetter item.state) = true ∧ x.inPeriod env t = true

theorem offered_iff : Offered env item notif stdTime x t ↔ x.escalationName ∉ notif.alreadyStartEscalations ∧
    x.getNextNotifTime env stdTime item.state notif.creationTime = some t ∧ env.now < t := by
  rw [getNextNotifTime_some]
  constructor
  · rintro ⟨hs, hstart, hnow, hle, ho, hp⟩
    exact ⟨hs, ⟨hstart, ho, hle, hp⟩, hnow⟩
  · rintro ⟨hs, ⟨hstart, ho, hle, hp⟩, hnow⟩
    exact ⟨hs, hstart, hnow, hle, ho, hp⟩

/-! ## The fold -/

theorem earlier_of_not_offered (h : ¬ ∃ t, Offered env item notif stdTime x t) : earlier env item notif stdTime res x = res := by
  unfold earlier
  by_cases hs : x.escalationName ∈ notif.alreadyStartEscalations
  · rw [if_pos hs]
  · rw [if_neg hs]
    cases hn : x.getNextNotifTime env stdTime item.state notif.creationTime with
    | none => rfl
    | some t => exact if_neg fun ht => h ⟨t, offered_iff.mpr ⟨hs, hn, ht.1⟩⟩

theorem earlier_of_offered (h : Offered env item notif stdTime x t) : earlier env item notif stdTime res x = min t res := by
  obtain ⟨hs, hn, hnow⟩ := offered_iff.mp h
  unfold earlier
  rw [if_neg hs, hn]
  by_cases ht : t < res
  · simp only [hnow, ht, and_self, if_true]
    exact (min_eq_left ht.le).symm
  · simp only [hnow, ht, and_false, if_false]
    exact (min_eq_right (not_lt.mp ht)).symm

theorem Offered.unique {u : Rat} (h : Offered env item notif stdTime x t) (h' : Offered env item notif stdTime x u) : t = u :=
  Option.some.inj (h.2.1.symm.trans h'.2.1)

theorem isLeast_foldl_earlier (l : List Escalation) (res : Rat) :
    IsLeast (insert res {t | ∃ x ∈ l, Offered env item notif stdTime x t}) (l.foldl (earlier env item notif stdTime) res) := by
  induction l generalizing res with
  | nil =>
    refine ⟨Set.mem_insert _ _, fun u hu => ?_⟩
    rcases hu with rfl | ⟨x, hx, -⟩
    · exact le_rfl
    · cases hx
  | cons x l ih =>
    rw [List.foldl_cons]
    by_cases h : ∃ t, Offered env item notif stdTime x t
    · obtain ⟨t, ht⟩ := h
      obtain ⟨hmem, hle⟩ := ih (min t res)
      rw [earlier_of_offered ht]
      have hmin : List.foldl (earlier env item notif stdTime) (min t res) l ≤ min t res := hle (Set.mem_insert _ _)
      refine ⟨?_, fun u hu => ?_⟩
      · rcases hmem with e | ⟨y, hy, hu⟩
        · rw [e]
          rcases min_choice t res with e | e
          · rw [e]
            exact Or.inr ⟨x, List.mem_cons_self, ht⟩
          · rw [e]
            exact Set.mem_insert _ _
        · exact Or.inr ⟨y, List.mem_cons_of_mem _ hy, hu⟩
      · rcases hu with rfl | ⟨y, hy, hu⟩
        · exact hmin.trans (min_le_right _ _)
        · rcases List.mem_cons.mp hy with rfl | hy
          · rw [← ht.unique hu]
            exact hmin.trans (min_le_left _ _)
          · exact hle (Or.inr ⟨y, hy, hu⟩)
    · obtain ⟨hmem, hle⟩ := ih res
      rw [earlier_of_not_offered h]
      refine ⟨?_, fun u hu => ?_⟩
      · rcases hmem with e | ⟨y, hy, hu⟩
        · exact Or.inl e
        · exact Or.inr ⟨y, List.mem_cons_of_mem _ hy, hu⟩
      · rcases hu with rfl | ⟨y, hy, hu⟩
        · exact hle (Set.mem_insert _ _)
        · rcases List.mem_cons.mp hy with rfl | hy
          · exact absurd ⟨u, hu⟩ h
          · exact hle (Or.inr ⟨y, hy, hu⟩)

/-! ## Where the two tests disagree -/

theorem isEligible_iff {status : State} {notifNumber : Int} {inNotifTime : Rat} :
    x.isEligible env t status notifNumber inNotifTime = true ↔ x.inRange env notifNumber inNotifTime = true ∧
      x.hasOption (eligibleLetter status) = true ∧ x.inPeriod env t = true := by
  unfold Escalation.isEligible
  rw [Bool.and_eq_true, Bool.and_eq_true, and_assoc]

section
variable (env item notif)

def Missed (x : Escalation) (t : Rat) : Prop :=
  BecomesEligible env item notif x t ∧ t < standardTime env item notif ∧ x.hasOption (nextTimeLetter item.state) = false

def Premature (x : Escalation) (t : Rat) : Prop :=
  Offered env item notif (standardTime env item notif) x t ∧ t < standardTime env item notif ∧
    x.isEligible env t item.state notif.notifNb (t - notif.creationTime) = false

/-- Another escalation that is offered starts no later than one that is missed, and one that becomes eligible no later than
one that is premature. -/
def StartsAgree : Prop :=
  (∀ x ∈ item.escalations, ∀ t, Missed env item notif x t →
    ∃ y ∈ item.escalations, ∃ u ≤ t, Offered env item notif (standardTime env item notif) y u) ∧
  ∀ x ∈ item.escalations, ∀ t, Premature env item notif x t → ∃ y ∈ item.escalations, ∃ u ≤ t, BecomesEligible env item notif y u

end

/-! ## The next notification -/

theorem getNextNotificationTime_isLeast : IsLeast (insert (standardTime env item notif)
    {t | ∃ x ∈ item.escalations, Offered env item notif (standardTime env item notif) x t})
    (getNextNotificationTime env item notif) := isLeast_foldl_earlier _ _

theorem BecomesEligible.offered (h : BecomesEligible env item notif x t) (hlt : t < standardTime env item notif) :
    Offered env item notif (standardTime env item notif) x t ∨ Missed env item notif x t := by
  obtain ⟨hs, hstart, hnow, he⟩ := h
  cases ho : x.hasOption (nextTimeLetter item.state) with
  | true => exact Or.inl ⟨hs, hstart, hnow, hlt.le, ho, (isEligible_iff.mp he).2.2⟩
  | false => exact Or.inr ⟨⟨hs, hstart, hnow, he⟩, hlt, ho⟩

theorem Offered.eligible (h : Offered env item notif (standardTime env item notif) x t) (hlt : t < standardTime env item notif) :
    BecomesEligible env item notif x t ∨ Premature env item notif x t := by
  cases he : x.isEligible env t item.state notif.notifNb (t - notif.creationTime) with
  | true => exact Or.inl ⟨h.1, h.2.1, h.2.2.1, he⟩
  | false => exact Or.inr ⟨h, hlt, he⟩

/-- The next notification is at the earliest of the times that are asked for exactly when the starts agree. -/
theorem nextNotification_isLeast_iff :
    IsLeast (repeatTimes env item notif) (getNextNotificationTime env item notif) ↔ StartsAgree env item notif := by
  obtain ⟨hmem, hle⟩ := @getNextNotificationTime_isLeast env item notif
  constructor
  · intro ⟨hmem', hle'⟩
    refine ⟨fun x hx t ht => ?_, fun x hx t ht => ?_⟩
    · have hres := hle' (Or.inr ⟨x, hx, ht.1⟩)
      rcases hmem with e | ⟨y, hy, hu⟩
      · exact absurd (e ▸ hres) (not_le.mpr ht.2.1)
      · exact ⟨y, hy, _, hres, hu⟩
    · have hres := hle (Or.inr ⟨x, hx, ht.1⟩)
      rcases hmem' with e | ⟨y, hy, hu⟩
      · exact absurd (e ▸ hres) (not_le.mpr ht.2.1)
      · exact ⟨y, hy, _, hres, hu⟩
  · rintro ⟨hmissed, hpremature⟩
    have hstd : getNextNotificationTime env item notif ≤ standardTime env item notif := hle (Set.mem_insert _ _)
    -- nothing that is asked for comes before the result
    have hlower : ∀ t ∈ repeatTimes env item notif, getNextNotificationTime env item notif ≤ t := by
      rintro t (rfl | ⟨x, hx, ht⟩)
      · exact hstd
      · by_cases hlt : t < standardTime env item notif
        · rcases ht.offered hlt with ho | hm
          · exact hle (Or.inr ⟨x, hx, ho⟩)
          · obtain ⟨y, hy, u, hu, ho⟩ := hmissed x hx t hm
            exact (hle (Or.inr ⟨y, hy, ho⟩)).trans hu
        · exact hstd.trans (not_lt.mp hlt)
    refine ⟨?_, hlower⟩
    rcases hmem with e | ⟨x, hx, ho⟩
    · exact Or.inl e
    · by_cases hlt : getNextNotificationTime env item notif < standardTime env item notif
      · rcases ho.eligible hlt with he | hp
        · exact Or.inr ⟨x, hx, he⟩
        · obtain ⟨y, hy, u, hu, he⟩ := hpremature x hx _ hp
          have heq : getNextNotificationTime env item notif = u := le_antisymm (hlower u (Or.inr ⟨y, hy, he⟩)) hu
          rw [heq]
          exact Or.inr ⟨y, hy, he⟩
      · exact Or.inl (le_antisymm hstd (not_lt.mp hlt))

end

/-! ## A host that cannot be reached -/

def hourEnv : RepeatEnv where
  now := 1000
  later := 1000
  intervalLength := 60
  isTimeValid := fun _ _ => true

def afterTwenty : Escalation := ⟨"late", .times 20 0, -1, none, ['d', 'x', 'r', 'w', 'c']⟩

def repeated : RepeatedNotification := ⟨1000, 1, 0, []⟩

/-- The notification is due an hour later, and its escalation at 1200 is not looked at. -/
theorem unreachable_missed :
    getNextNotificationTime hourEnv ⟨.unreachable, 60, [afterTwenty]⟩ repeated = 4600 ∧
    BecomesEligible hourEnv ⟨.unreachable, 60, [afterTwenty]⟩ repeated afterTwenty 1200 ∧
    ¬ IsLeast (repeatTimes hourEnv ⟨.unreachable, 60, [afterTwenty]⟩ repeated)
      (getNextNotificationTime hourEnv ⟨.unreachable, 60, [afterTwenty]⟩ repeated) := by
  have hres : getNextNotificationTime hourEnv ⟨.unreachable, 60, [afterTwenty]⟩ repeated = 4600 := by decide +kernel
  have helig : BecomesEligible hourEnv ⟨.unreachable, 60, [afterTwenty]⟩ repeated afterTwenty 1200 :=
    ⟨by decide, by decide +kernel, by decide +kernel, by decide +kernel⟩
  refine ⟨hres, helig, fun h => ?_⟩
  have hle := h.2 (Or.inr ⟨afterTwenty, List.mem_cons_self, helig⟩)
  rw [hres] at hle
  exact absurd hle (by decide +kernel)

example : getNextNotificationTime hourEnv ⟨.down, 60, [afterTwenty]⟩ repeated = 1200 := by decide +kernel

end Alignak.Scheduling
