import Alignak.SilentSteps

/-!
# The numbers of the notifications of a problem

The children of a problem carry the number that follows the one of their item,
and the item takes it when they are made.
-/

namespace Alignak.Scheduling

def Turn.problemNumbers (conf : Conf) (i : Nat) (t : Turn) : List Int :=
  let w := t.after conf
  let sent := (List.range w.nextNotification).filter fun n =>
    decide (t.world.nextNotification ≤ n) && (w.notification n).type == .problem && (w.notification n).ref == i &&
      (w.notification n).contact.isSome
  sent.map fun n => (w.notification n).notifNb

def nextRound (conf : Conf) (i : Nat) (k : Nat) (t : Turn) : Nat :=
  if t.recovers conf i then 0 else if t.problemNumbers conf i = [] then k else k + 1

def rounds (conf : Conf) (i : Nat) (trace : List Turn) : Nat := trace.foldl (nextRound conf i) 0

/-- Each recovery brings the number of the item back to 0, and each round of
the next problem carries its own number, from 1 on. -/
def NumbersRestart (conf : Conf) (i : Nat) (trace : List Turn) : Prop :=
  ∀ before t after, trace = before ++ t :: after →
    (t.recovers conf i = true → ((t.after conf).alert i).currentNotificationNumber = 0) ∧
    ∀ nb ∈ t.problemNumbers conf i, nb = (rounds conf i before : Int) + 1

def recoveryWorld (conf : Conf) (env : Env) (w : World) (c : Nat) : World :=
  let i := (w.check c).ref
  removeInProgressNotifications true i (unacknowledgeProblem i (resolved conf env c w))

def createsRecovery (conf : Conf) (env : Env) (w : World) (c : Nat) : Bool :=
  let i := (w.check c).ref
  let w' := recoveryWorld conf env w c
  enableAction conf (updateItemInformation conf env c w) c &&
    !isDropped conf env w' i .recovery (w'.settings i).notificationPeriod

def Turn.resets (conf : Conf) (i : Nat) (t : Turn) : Bool :=
  match t.event with
  | .consumeResult c => (t.world.alert i).currentNotificationNumber == 0 || createsRecovery conf t.env t.world c
  | _ => true

/-! ## The number and the live masters -/

def Counted (i : Nat) (w : World) : Prop :=
  ∀ n < w.nextNotification, (w.notification n).Master → (w.notification n).ref = i →
    (w.notification n).notifNb = (w.alert i).currentNotificationNumber + 1

/-- The number of the item has `p`. -/
def numberRule (p : Int → Prop) : Rule where
  number := p
  master := fun k _ t nb => t = .problem → nb = k + 1

variable {t : Turn}

section
variable {conf : Conf} {env : Env} {p : Int → Prop} {i : Nat} {w : World}

/-! ## One step -/

theorem Counted.masters (h : Counted i w) : ∀ n < w.nextNotification, (w.notification n).Live → (w.notification n).ref = i →
    (numberRule p).master (w.alert i).currentNotificationNumber n (w.notification n).type (w.notification n).notifNb :=
  fun n hn hl hr ht => h n hn ⟨ht, hl.2⟩ hr

theorem Silent.counted {l : List Nat} {n₀ : Nat} (h : Silent (numberRule p) l i n₀ none w) : Counted i w :=
  fun n hn hm hr => h.masters n hn hm.live hr hm.1

theorem numberRule_problem (n₀ : Nat) : (numberRule p).allows n₀ .problem := by
  refine ⟨fun e => (by cases e), fun k n _ _ _ => ?_⟩
  simp

theorem numberRule_recovery {n₀ : Nat} (h : p 0) : (numberRule p).allows n₀ .recovery :=
  ⟨fun _ => h, fun _ _ _ _ e => (by cases e)⟩

theorem mem_problemNumbers {nb : Int} : nb ∈ t.problemNumbers conf i ↔ ∃ n, New i t.world (t.after conf) n ∧
    ((t.after conf).notification n).type = .problem ∧ ((t.after conf).notification n).contact.isSome ∧
    ((t.after conf).notification n).notifNb = nb := by
  unfold Turn.problemNumbers
  simp only [List.mem_map, List.mem_filter, List.mem_range, Bool.and_eq_true, decide_eq_true_eq, beq_iff_eq]
  constructor
  · rintro ⟨n, ⟨hlt, ⟨⟨hle, ht⟩, hr⟩, hc⟩, hnb⟩
    exact ⟨n, ⟨hle, hlt, hr, Or.inl ht⟩, ht, hc, hnb⟩
  · rintro ⟨n, ⟨hle, hlt, hr, -⟩, ht, hc, hnb⟩
    exact ⟨n, ⟨hlt, ⟨⟨hle, ht⟩, hr⟩, hc⟩, hnb⟩

theorem problemNumbers_nil (h : ∀ n, New i t.world (t.after conf) n →
    ((t.after conf).notification n).type = .problem → ((t.after conf).notification n).contact = none) :
    t.problemNumbers conf i = [] := by
  refine List.eq_nil_iff_forall_not_mem.mpr fun nb hnb => ?_
  obtain ⟨n, hnew, ht, hc, -⟩ := mem_problemNumbers.mp hnb
  rw [h n hnew ht] at hc
  exact absurd hc (by decide)

theorem turn_numbered (conf : Conf) (p : Int → Prop) (h : Held none t.world) (hc : Counted i t.world) (hev : t.event ≠ .scatterMasterNotifications)
    (hr : t.recovers conf i = true → p 0) (hp : p (t.world.alert i).currentNotificationNumber) :
    Silent (numberRule p) (t.world.alert i).notifiedContactsIds i t.world.nextNotification none (t.after conf) :=
  turn_silent h hev (fun _ => numberRule_problem _) (fun hrec => numberRule_recovery (hr hrec)) hp hc.masters

theorem Silent.problemNumbers_nil {r : Rule} {l : List Nat}
    (h : Silent r l i t.world.nextNotification none (t.after conf)) : t.problemNumbers conf i = [] :=
  Scheduling.problemNumbers_nil fun n hnew _ => h.silent n hnew.1 hnew.2.1

theorem turn_pass (h : Held none t.world) (hc : Counted i t.world) (hev : t.event = .scatterMasterNotifications) :
    Counted i (t.after conf) ∧
    (∀ nb ∈ t.problemNumbers conf i, nb = (t.world.alert i).currentNotificationNumber + 1) ∧
    ((t.after conf).alert i).currentNotificationNumber =
      (t.world.alert i).currentNotificationNumber + if t.problemNumbers conf i = [] then 0 else 1 := by
  have hafter : t.after conf = scatterMasterNotifications conf t.env t.world := by
    unfold Turn.after
    rw [hev]
    rfl
  have hpass : Passed conf t.env i t.world (t.after conf) := by
    rw [hafter]
    exact h.passed
  cases hpass with
  | idle hi =>
    have hnil : t.problemNumbers conf i = [] := problemNumbers_nil fun n hnew _ => absurd hnew (hi.new n)
    refine ⟨fun n hn hm href => ?_, fun nb hnb => ?_, ?_⟩
    · have hof : ((t.after conf).notification n).Of i := ⟨href, Or.inl hm.1⟩
      have hlt : n < t.world.nextNotification := Nat.lt_of_not_le fun hle => hi.new n ⟨hle, hn, hof⟩
      have he := hi.old n hlt trivial (Or.inr hof)
      rw [he] at hm href ⊢
      rw [hi.number]
      exact hc n hlt hm href
    · rw [hnil] at hnb
      cases hnb
    · rw [hnil, if_pos rfl, hi.number, Int.add_zero]
  | scattered n hn hlive href _ hs =>
    refine ⟨fun m hm hmaster hmref => ?_, ?_⟩
    · have he := hs.live_eq h hn hlive href hm hmaster.live hmref
      subst he
      exact (hs.master hmaster.2.2).2
    · rcases hlive.1 with hp | hr
      · have hnb := hc n hn ⟨hp, hlive.2⟩ href
        have hnumbers : ∀ nb ∈ t.problemNumbers conf i, nb = (t.world.alert i).currentNotificationNumber + 1 := by
          intro nb hmem
          obtain ⟨k, hk, -, -, rfl⟩ := mem_problemNumbers.mp hmem
          rw [(hs.new k hk).2.1]
          exact hnb
        refine ⟨hnumbers, ?_⟩
        by_cases hnew : ∃ k, New i t.world (t.after conf) k
        · have hne : t.problemNumbers conf i ≠ [] := by
            obtain ⟨k, hk⟩ := hnew
            obtain ⟨ht, -, u, hu, -⟩ := hs.new k hk
            refine List.ne_nil_of_mem (mem_problemNumbers.mpr ⟨k, hk, ht.trans hp, ?_, rfl⟩)
            rw [hu]
            rfl
          rw [if_neg hne, hs.sent hp hnew]
          exact hnb
        · have hnil : t.problemNumbers conf i = [] := problemNumbers_nil fun k hk _ => absurd ⟨k, hk⟩ hnew
          rw [hnil, if_pos rfl, hs.unsent (Or.inr fun k hk => hnew ⟨k, hk⟩), Int.add_zero]
      · have hnil : t.problemNumbers conf i = [] := by
          refine problemNumbers_nil fun k hk ht => ?_
          rw [(hs.new k hk).1, hr] at ht
          cases ht
        rw [hnil, if_pos rfl, hs.unsent (Or.inl (by rw [hr]; decide)), Int.add_zero]
        exact ⟨fun nb hnb => absurd hnb List.not_mem_nil, rfl⟩

/-! ## A recovery -/

theorem raiseRecovery_number (b : Bool) : ((raiseAgain conf env i .recovery b w).alert i).currentNotificationNumber =
    if b && !isDropped conf env (removeInProgressNotifications true i w) i .recovery
        ((removeInProgressNotifications true i w).settings i).notificationPeriod then 0
    else ((removeInProgressNotifications true i w).alert i).currentNotificationNumber := by
  unfold raiseAgain
  cases b with
  | false => rfl
  | true =>
    simp only [if_true, Bool.true_and]
    rcases createNotifications_cases conf env i .recovery
      ((removeInProgressNotifications true i w).settings i).notificationPeriod (removeInProgressNotifications true i w) with
      ⟨hd, e⟩ | ⟨hd, x, hx⟩
    · rw [e, hd]
      rfl
    · rw [hx.number, hd]
      simp

theorem consumeResult_number {k : Nat} (h : Held none w) (hc : Counted (w.check k).ref w)
    (hr : hardRecovery conf env w k = true) :
    ((stateAfter (consumeResult conf env k w)).alert (w.check k).ref).currentNotificationNumber =
      if createsRecovery conf env w k then 0 else (w.alert (w.check k).ref).currentNotificationNumber := by
  suffices hl : Leads (· = w) (consumeResult conf env k) fun s =>
      (s.alert (w.check k).ref).currentNotificationNumber =
        if createsRecovery conf env w k then 0 else (w.alert (w.check k).ref).currentNotificationNumber from (hl w rfl).1
  have hA := Silent.alerting conf (numberRule (· = (w.alert (w.check k).ref).currentNotificationNumber))
    (w.alert (w.check k).ref).notifiedContactsIds (w.check k).ref w.nextNotification
  have hworld : ((recoveryWorld conf env w k).alert (w.check k).ref).currentNotificationNumber =
      (w.alert (w.check k).ref).currentNotificationNumber :=
    (hA.unacknowledge (hA.resolved (Silent.start h rfl hc.masters))).removeAll.number
  refine leads_hardRecovery hr (leads_step (Leads.pre (I := fun s => (s.alert (w.check k).ref).currentNotificationNumber =
    if createsRecovery conf env w k then 0 else (w.alert (w.check k).ref).currentNotificationNumber) ?_ ?_)) fun s hs => hs
  · refine Keeps.bind (Keeps.modify fun s hs => hs) fun _ => ?_
    intro s hs
    have ha : (stateAfter (noMoreAProblem conf (w.check k).ref s)).aside = s.aside := noMoreAProblem_aside _ s
    simp only [World.aside, Prod.mk.injEq] at ha
    refine ⟨?_, fun _ _ _ => trivial⟩
    simp only [ha.2.2.2.1]
    exact hs
  · intro s e
    rw [e, raiseRecovery_number, ← hworld]
    rfl

theorem turn_recovery (h : Held none t.world) (hc : Counted i t.world) (hr : t.recovers conf i = true) :
    Counted i (t.after conf) ∧ t.problemNumbers conf i = [] ∧
      (((t.after conf).alert i).currentNotificationNumber = 0 ↔ t.resets conf i = true) := by
  obtain ⟨k, he, rfl, hrec⟩ := recovers_iff.mp hr
  have hn := turn_numbered conf (fun _ => True) h hc (by rw [he]; nofun) (fun _ => trivial) trivial
  refine ⟨hn.counted, hn.problemNumbers_nil, ?_⟩
  have hafter : t.after conf = stateAfter (consumeResult conf t.env k t.world) := by
    unfold Turn.after
    rw [he]
    rfl
  have hresets : t.resets conf (t.world.check k).ref =
      ((t.world.alert (t.world.check k).ref).currentNotificationNumber == 0 || createsRecovery conf t.env t.world k) := by
    unfold Turn.resets
    rw [he]
  rw [hafter, consumeResult_number h hc hrec, hresets]
  by_cases hcr : createsRecovery conf t.env t.world k = true
  · simp [hcr]
  · simp [hcr]

theorem turn_number (h : Held none t.world) (hc : Counted i t.world) (hr : t.recovers conf i ≠ true) :
    Counted i (t.after conf) ∧
    (∀ nb ∈ t.problemNumbers conf i, nb = (t.world.alert i).currentNotificationNumber + 1) ∧
    ((t.after conf).alert i).currentNotificationNumber =
      (t.world.alert i).currentNotificationNumber + if t.problemNumbers conf i = [] then 0 else 1 := by
  by_cases hev : t.event = .scatterMasterNotifications
  · exact turn_pass h hc hev
  · have hn := turn_numbered conf (· = (t.world.alert i).currentNotificationNumber) h hc hev (fun e => absurd e hr) rfl
    refine ⟨hn.counted, fun nb hnb => ?_, ?_⟩
    · rw [hn.problemNumbers_nil] at hnb
      cases hnb
    · rw [hn.problemNumbers_nil, if_pos rfl, Int.add_zero]
      exact hn.number

/-! ## The runs -/

theorem rounds_snoc (trace : List Turn) (t : Turn) : rounds conf i (trace ++ [t]) = nextRound conf i (rounds conf i trace) t := by
  unfold rounds
  rw [List.foldl_append]
  rfl

theorem numbersRestart_snoc {trace : List Turn} : NumbersRestart conf i (trace ++ [t]) ↔
    NumbersRestart conf i trace ∧
      (t.recovers conf i = true → ((t.after conf).alert i).currentNotificationNumber = 0) ∧
      ∀ nb ∈ t.problemNumbers conf i, nb = (rounds conf i trace : Int) + 1 := forall_split_snoc

theorem Initial.counted (h : Initial w) : Counted i w := by
  intro n hn
  rw [h.nextNotification] at hn
  cases hn

theorem Run.numbers {w₀ w : World} {trace : List Turn} (h0 : Initial w₀) (h : Run conf w₀ trace w) :
    Held none w ∧ Counted i w ∧
    (NumbersRestart conf i trace ↔ ∀ t ∈ trace, t.recovers conf i = true → t.resets conf i = true) ∧
    (NumbersRestart conf i trace → (w.alert i).currentNotificationNumber = (rounds conf i trace : Int)) := by
  induction h with
  | nil =>
    refine ⟨h0.held, h0.counted, ⟨fun _ t ht => absurd ht List.not_mem_nil, fun _ before t after e => ?_⟩, fun _ => ?_⟩
    · exact absurd e (by simp)
    · rw [h0.alert i]
      rfl
  | @snoc trace w w' env ev _ hs ih =>
    obtain ⟨hheld, hcount, hiff, hnum⟩ := ih
    let t : Turn := ⟨w, env, ev⟩
    have hafter : w' = t.after conf := hs.after
    have hstep : Counted i w' ∧
        ((NumbersRestart conf i trace ∧ (t.recovers conf i = true → t.resets conf i = true)) ↔
          NumbersRestart conf i (trace ++ [t])) ∧
        (NumbersRestart conf i (trace ++ [t]) →
          (w'.alert i).currentNotificationNumber = (rounds conf i (trace ++ [t]) : Int)) := by
      rw [numbersRestart_snoc, rounds_snoc, hafter]
      unfold nextRound
      by_cases hr : t.recovers conf i = true
      · obtain ⟨h1, h2, h3⟩ := turn_recovery (t := t) hheld hcount hr
        rw [h2, if_pos hr]
        refine ⟨h1, ⟨fun ⟨hn, hres⟩ => ⟨hn, fun _ => h3.mpr (hres hr), fun nb hnb => ?_⟩, fun ⟨hn, hz, _⟩ => ?_⟩,
          fun ⟨_, hz, _⟩ => hz hr⟩
        · cases hnb
        · exact ⟨hn, fun _ => h3.mp (hz hr)⟩
      · obtain ⟨h1, h2, h3⟩ := turn_number (t := t) hheld hcount hr
        rw [if_neg hr]
        refine ⟨h1, ⟨fun ⟨hn, _⟩ => ⟨hn, fun e => absurd e hr, fun nb hnb => ?_⟩, fun ⟨hn, _, _⟩ => ?_⟩, fun ⟨hn, _, _⟩ => ?_⟩
        · rw [h2 nb hnb]
          show (w.alert i).currentNotificationNumber + 1 = _
          rw [hnum hn]
        · exact ⟨hn, fun e => absurd e hr⟩
        · rw [h3]
          show (w.alert i).currentNotificationNumber + _ = _
          rw [hnum hn]
          split
          · rw [Int.add_zero]
          · rfl
    refine ⟨hheld.step hs, hstep.1, ?_, hstep.2.2⟩
    rw [← hstep.2.1, hiff]
    simp only [List.forall_mem_append, List.forall_mem_singleton]
    exact Iff.rfl

end

/-! ## The results -/

def toldWorld (options : List Char) (interval : Int) : World := { startWorld with
  settings := fun _ => { notificationInterval := interval, notificationOptions := options, contacts := [7] } }

theorem toldWorld_initial (options : List Char) (interval : Int) : Initial (toldWorld options interval) := { startWorld_initial with }

def downAndUp : List (Env × Event) :=
  [(plainEnv 10, .receiveResult 0 ⟨0, .scheduled, 2, 10, false, false, []⟩), (plainEnv 20, .consumeResult 0),
    (plainEnv 30, .getNewActions), (plainEnv 90, .scatterMasterNotifications),
    (plainEnv 95, .receiveResult 0 ⟨0, .scheduled, 0, 95, false, false, []⟩), (plainEnv 100, .consumeResult 0)]

theorem numbersRestart_iff (conf : Conf) (i : Nat) (w₀ w : World) (trace : List Turn) (h₀ : Initial w₀)
    (h : Run conf w₀ trace w) :
    NumbersRestart conf i trace ↔ ∀ t ∈ trace, t.recovers conf i = true → t.resets conf i = true :=
  (h.numbers h₀).2.2.1

/-- The notification of the recovery is not dropped where it may be repeated. -/
theorem numbersRestart_created : (∃ t ∈ turns oneHost (toldWorld ['d'] 60) downAndUp, t.problemNumbers oneHost 0 = [1]) ∧
    NumbersRestart oneHost 0 (turns oneHost (toldWorld ['d'] 60) downAndUp) := by
  have hr := run_of_executes oneHost (show executes oneHost (toldWorld ['d'] 60) downAndUp = true by decide)
  refine ⟨by decide, (numbersRestart_iff oneHost 0 (toldWorld ['d'] 60) _ _ (toldWorld_initial _ _) hr).mpr ?_⟩
  decide

/-- The notification of the recovery is dropped: the number stays at 1. -/
theorem numbersRestart_dropped : ∃ w₀ trace w, Initial w₀ ∧ Run oneHost w₀ trace w ∧ ¬ NumbersRestart oneHost 0 trace := by
  have hr := run_of_executes oneHost (show executes oneHost (toldWorld ['d'] 0) downAndUp = true by decide)
  refine ⟨toldWorld ['d'] 0, _, _, toldWorld_initial _ _, hr, fun h => ?_⟩
  have hz := (h ((turns oneHost (toldWorld ['d'] 0) downAndUp).take 5)
    ⟨worldAfter oneHost (toldWorld ['d'] 0) (downAndUp.take 5), plainEnv 100, .consumeResult 0⟩ [] rfl).1 (by decide)
  exact absurd hz (by decide)

end Alignak.Scheduling
