import Alignak.HardProblems
import Alignak.NotificationNumbers

/-!
# The contacts that are told of a recovery

The contacts of the notifications of a problem stay in the table of their item
until a notification of a recovery is scattered, and this one goes to them.
-/

namespace Alignak.Scheduling

def Turn.sentTo (conf : Conf) (i : Nat) (ty : NotificationType) (t : Turn) : List Nat :=
  let w := t.after conf
  let sent := (List.range w.nextNotification).filter fun n =>
    decide (t.world.nextNotification ≤ n) && (w.notification n).type == ty && (w.notification n).ref == i
  sent.filterMap fun n => (w.notification n).contact

def Turn.comesBack (conf : Conf) (i : Nat) (t : Turn) : Bool :=
  match t.event with
  | .consumeResult c => (t.world.check c).ref == i && Scheduling.comesBack conf t.env t.world c
  | _ => false

structure Told where
  ended : List Nat
  current : List Nat

def nextTold (conf : Conf) (i : Nat) (s : Told) (t : Turn) : Told where
  ended := if t.recovers conf i then s.current else s.ended
  current := (if t.comesBack conf i then [] else s.current) ++ t.sentTo conf i .problem

def told (conf : Conf) (i : Nat) (trace : List Turn) : Told := trace.foldl (nextTold conf i) ⟨[], []⟩

/-- Each contact of a notification of a recovery was told of the problem that
has ended. -/
def RecoveriesTold (conf : Conf) (i : Nat) (trace : List Turn) : Prop :=
  ∀ before t after, trace = before ++ t :: after → ∀ u ∈ t.sentTo conf i .recovery, u ∈ (told conf i before).ended

def Waits (i : Nat) (w : World) (n : Nat) : Prop :=
  (w.notification n).type = .recovery ∧ (w.notification n).ref = i ∧ (w.notification n).contact = none ∧
    (w.notification n).status ≠ .zombie

instance (i : Nat) (w : World) (n : Nat) : Decidable (Waits i w n) := inferInstanceAs (Decidable (_ ∧ _))

def Turn.creates (conf : Conf) (t : Turn) : Bool :=
  match t.event with
  | .consumeResult c => createsRecovery conf t.env t.world c
  | _ => true

def Event.isPass : Event → Bool
  | .scatterMasterNotifications => true
  | _ => false

/-- Where contacts have been notified, a recovery creates its notification, and
the master of a recovery waits on or is scattered and not blocked. -/
def Turn.KeepsRecovery (conf : Conf) (i : Nat) (t : Turn) : Prop :=
  (t.world.alert i).notifiedContactsIds = [] ∨
    (t.recovers conf i = true → t.creates conf = true) ∧
    ∀ n < t.world.nextNotification, Waits i t.world n → Waits i (t.after conf) n ∨
      t.event.isPass = true ∧
        isBlockingNotifications conf t.env t.world i (t.world.settings i).notificationPeriod .recovery t.env.now = false

instance (conf : Conf) (i : Nat) (t : Turn) : Decidable (t.KeepsRecovery conf i) := inferInstanceAs (Decidable (_ ∨ _))

section
variable {conf : Conf} {env : Env} {i : Nat} {w : World}

theorem mem_sentTo {t : Turn} {ty : NotificationType} {u : Nat} : u ∈ t.sentTo conf i ty ↔
    ∃ n, t.world.nextNotification ≤ n ∧ n < (t.after conf).nextNotification ∧ ((t.after conf).notification n).type = ty ∧
      ((t.after conf).notification n).ref = i ∧ ((t.after conf).notification n).contact = some u := by
  unfold Turn.sentTo
  simp only [List.mem_filterMap, List.mem_filter, List.mem_range, Bool.and_eq_true, decide_eq_true_eq, beq_iff_eq]
  constructor
  · rintro ⟨n, ⟨hlt, ⟨hle, ht⟩, hr⟩, hc⟩
    exact ⟨n, hle, hlt, ht, hr, hc⟩
  · rintro ⟨n, hle, hlt, ht, hr, hc⟩
    exact ⟨n, ⟨hlt, ⟨hle, ht⟩, hr⟩, hc⟩

theorem Silent.sentTo_nil {r : Rule} {l : List Nat} {t : Turn} {ty : NotificationType}
    (h : Silent r l i t.world.nextNotification none (t.after conf)) : t.sentTo conf i ty = [] := by
  refine List.eq_nil_iff_forall_not_mem.mpr fun u hu => ?_
  obtain ⟨n, hle, hlt, -, -, hc⟩ := mem_sentTo.mp hu
  rw [h.silent n hle hlt] at hc
  cases hc

theorem Waits.live {n : Nat} (h : Waits i w n) : (w.notification n).Live := ⟨Or.inr h.1, h.2.2⟩

theorem Created.waits {x : Notification} {w' : World} (h : Created i .recovery x w w') :
    w.nextNotification < w'.nextNotification ∧ Waits i w' w.nextNotification := by
  unfold Waits
  rw [h.next, h.notification, Function.update_self]
  exact ⟨Nat.lt_succ_self _, h.type, h.ref, h.contact, by rw [h.status]; decide⟩

theorem comesBack_iff {t : Turn} : t.comesBack conf i = true ↔
    ∃ k, t.event = .consumeResult k ∧ (t.world.check k).ref = i ∧ Scheduling.comesBack conf t.env t.world k = true := by
  unfold Turn.comesBack
  cases he : t.event <;> simp

/-! ## A recovery -/

def recoveryRule (n₀ : Nat) : Rule where
  number := fun _ => True
  master := fun _ n t _ => n₀ ≤ n ∧ t = .recovery

def anyRule : Rule where
  number := fun _ => True
  master := fun _ _ _ _ => True

theorem consumeResult_recovery {k : Nat} (h : Held none w) (hr : hardRecovery conf env w k = true) :
    Silent (recoveryRule w.nextNotification) (w.alert (w.check k).ref).notifiedContactsIds (w.check k).ref
        w.nextNotification none (stateAfter (consumeResult conf env k w)) ∧
      (createsRecovery conf env w k = true → ∃ n < (stateAfter (consumeResult conf env k w)).nextNotification,
        Waits (w.check k).ref (stateAfter (consumeResult conf env k w)) n) := by
  let i := (w.check k).ref
  let J : World → Prop := fun s =>
    Silent (recoveryRule w.nextNotification) (w.alert i).notifiedContactsIds i w.nextNotification none s ∧
      (createsRecovery conf env w k = true → ∃ n < s.nextNotification, Waits i s n)
  suffices hl : Leads (· = w) (consumeResult conf env k) J from (hl w rfl).1
  have hA := Silent.alerting conf anyRule (w.alert i).notifiedContactsIds i w.nextNotification
  have hB := Silent.alerting conf (recoveryRule w.nextNotification) (w.alert i).notifiedContactsIds i w.nextNotification
  have hstart : Silent anyRule (w.alert i).notifiedContactsIds i w.nextNotification none w :=
    Silent.start h trivial fun _ _ _ _ => trivial
  have hany : Silent anyRule (w.alert i).notifiedContactsIds i w.nextNotification (some i) (recoveryWorld conf env w k) :=
    hA.clear (hA.unacknowledge (hA.resolved hstart))
  have hcleared : Silent (recoveryRule w.nextNotification) (w.alert i).notifiedContactsIds i w.nextNotification (some i)
      (recoveryWorld conf env w k) := by
    refine ⟨hany.held, trivial, hany.notified, fun n hn hl href => ?_, hany.next, hany.silent⟩
    have ht := hany.held.1.tracked n hn hl
    rw [href] at ht
    exact absurd hl (hany.held.2 i rfl n ht)
  have hraise : J (raiseAgain conf env i .recovery (enableAction conf (updateItemInformation conf env k w) k)
      (unacknowledgeProblem i (resolved conf env k w))) := by
    unfold raiseAgain
    simp only
    by_cases hb : enableAction conf (updateItemInformation conf env k w) k = true
    · rw [if_pos hb]
      refine ⟨hB.raise hcleared fun _ => (⟨fun _ => trivial, fun _ _ _ hn => ⟨hn, rfl⟩⟩), fun hc => ?_⟩
      unfold createsRecovery at hc
      simp only [Bool.and_eq_true, Bool.not_eq_true'] at hc
      rcases createNotifications_cases conf env i .recovery ((recoveryWorld conf env w k).settings i).notificationPeriod
        (recoveryWorld conf env w k) with ⟨hd, -⟩ | ⟨-, x, hx⟩
      · exact absurd (hd.symm.trans hc.2) (by decide)
      · exact ⟨_, hx.waits⟩
    · rw [if_neg hb]
      refine ⟨hB.weaken hcleared, fun hc => ?_⟩
      unfold createsRecovery at hc
      simp only [Bool.and_eq_true] at hc
      exact absurd hc.1 hb
  have hsame : ∀ s s' : World, s'.loud = s.loud → J s → J s' := by
    intro s s' hl hs
    refine ⟨hB.loud hs.1 hl, fun hc => ?_⟩
    simp only [World.loud, Prod.mk.injEq] at hl
    unfold Waits
    rw [hl.2.1, hl.2.2.2]
    exact hs.2 hc
  refine leads_hardRecovery hr (leads_step (Leads.pre (I := J) ?_ fun s e => e ▸ hraise)) fun s hs => hsame s _ rfl hs
  refine Keeps.bind (Keeps.modify fun s hs => hsame s _ rfl hs) fun _ s hs => ⟨?_, fun _ _ _ => trivial⟩
  have ha : (stateAfter (noMoreAProblem conf i s)).aside = s.aside := noMoreAProblem_aside i s
  simp only [World.aside, Prod.mk.injEq] at ha
  refine hsame s _ ?_ hs
  simp only [World.loud, Prod.mk.injEq]
  exact ⟨ha.2.2.2.1, ha.2.2.2.2.1, ha.2.2.2.2.2.2.1, ha.2.2.2.2.2.2.2.1⟩

/-! ## One step -/

structure Followed (conf : Conf) (i : Nat) (s : Told) (w : World) : Prop where
  held : Held none w
  problem : (s.current ≠ [] ∨ ∃ n < w.nextNotification, (w.notification n).Master ∧ (w.notification n).ref = i) →
    InProblem conf i w
  waiting : ∀ n < w.nextNotification, Waits i w n → ∀ u ∈ (w.alert i).notifiedContactsIds, u ∈ s.ended
  settled : (∀ n < w.nextNotification, ¬ Waits i w n) → ∀ u ∈ (w.alert i).notifiedContactsIds, u ∈ s.current

/-- The live masters of the item were there, or are of a problem that `b` allows. -/
def stayRule (i : Nat) (w : World) (b : Prop) : Rule where
  number := fun _ => True
  master := fun _ n t _ => n < w.nextNotification ∧ (w.notification n).Live ∧ (w.notification n).ref = i ∧
    (w.notification n).type = t ∨ t = .problem ∧ b

theorem turn_stays {t : Turn} (h : Held none t.world) (hev : t.event ≠ .scatterMasterNotifications)
    (hr : t.recovers conf i ≠ true) : Silent (stayRule i t.world (t.reaches conf i = true))
      (t.world.alert i).notifiedContactsIds i t.world.nextNotification none (t.after conf) := by
  refine turn_silent h hev (fun hb => ?_) (fun e => absurd e hr) trivial fun n hn hl href => Or.inl ⟨hn, hl, href, rfl⟩
  exact ⟨fun e => (by cases e), fun _ _ _ _ => Or.inr ⟨rfl, hb⟩⟩

theorem InProblem.turn {t : Turn} (h : InProblem conf i t.world) (hr : t.recovers conf i ≠ true) :
    InProblem conf i (t.after conf) := by
  by_cases hreach : t.reaches conf i = true
  · obtain ⟨k, he, rfl, hk⟩ := reaches_iff.mp hreach
    unfold Turn.after
    rw [he]
    exact hardProblem_inProblem hk
  · refine h.event (fun k e => ?_) fun n _ => ⟨trivial, fun t a b h => h⟩
    by_contra hne
    rw [not_or, not_ne_iff, Bool.not_eq_true] at hne
    obtain ⟨href, hm⟩ := hne
    subst href
    rcases h.consume t.env hm with hk | hk
    · exact hreach (reaches_iff.mpr ⟨k, e, rfl, hk⟩)
    · exact hr (recovers_iff.mpr ⟨k, e, rfl, hk⟩)

theorem Waits.of_silent {r : Rule} {l : List Nat} {n₀ n : Nat} {c : Option Nat} (h : Silent r l i n₀ c w)
    (hn : n < w.nextNotification) (hw : Waits i w n) :
    r.master (w.alert i).currentNotificationNumber n .recovery (w.notification n).notifNb := by
  have hm := h.masters n hn hw.live hw.2.1
  rw [hw.1] at hm
  exact hm

theorem reaches_inProblem {t : Turn} (h : t.reaches conf i = true) : InProblem conf i (t.after conf) := by
  obtain ⟨k, he, rfl, hk⟩ := reaches_iff.mp h
  unfold Turn.after
  rw [he]
  exact hardProblem_inProblem hk

theorem Followed.comesBack {s : Told} {t : Turn} (h : Followed conf i s t.world) (hb : t.comesBack conf i = true)
    (hr : t.recovers conf i ≠ true) : s.current = [] := by
  by_contra hne
  have hin := h.problem (Or.inl hne)
  obtain ⟨k, he, rfl, hk⟩ := comesBack_iff.mp hb
  unfold Scheduling.comesBack at hk
  simp only [Bool.and_eq_true, Bool.not_eq_true', beq_iff_eq] at hk
  obtain ⟨⟨⟨hm, hz⟩, -⟩, -⟩ := hk
  rcases hin.consume t.env hm with hprob | hrec
  · unfold hardProblem reachesHard takenCheck at hprob
    simp [hz] at hprob
  · exact hr (recovers_iff.mpr ⟨k, he, rfl, hrec⟩)

theorem Followed.stay {s : Told} {t : Turn} (h : Followed conf i s t.world) (hk : t.KeepsRecovery conf i)
    (hev : t.event.isPass = false) (hr : t.recovers conf i ≠ true) : Followed conf i (nextTold conf i s t) (t.after conf) := by
  have hstay : Silent (stayRule i t.world (t.reaches conf i = true)) (t.world.alert i).notifiedContactsIds i
      t.world.nextNotification none (t.after conf) :=
    turn_stays h.held (fun e => by rw [e] at hev; cases hev) hr
  have hwait : ∀ n < (t.after conf).nextNotification, Waits i (t.after conf) n → n < t.world.nextNotification ∧
      Waits i t.world n := by
    intro n hn hw
    rcases hw.of_silent hstay hn with ⟨hlt, hl, href, ht⟩ | ⟨ht, -⟩
    · exact ⟨hlt, ht, href, hl.2⟩
    · cases ht
  have hcur : (nextTold conf i s t).current = if t.comesBack conf i then [] else s.current := by
    show (if t.comesBack conf i then [] else s.current) ++ t.sentTo conf i .problem = _
    rw [hstay.sentTo_nil, List.append_nil]
  have hend : (nextTold conf i s t).ended = s.ended := if_neg hr
  refine ⟨hstay.held, ?_, fun n hn hw u hu => ?_, fun hno u hu => ?_⟩
  · rw [hcur]
    rintro (hne | ⟨n, hn, hm, href⟩)
    · refine (h.problem (Or.inl fun e => hne ?_)).turn hr
      rw [e, ite_self]
    · rcases hstay.masters n hn hm.live href with ⟨hlt, hl, href', ht⟩ | ⟨-, hreach⟩
      · exact (h.problem (Or.inr ⟨n, hlt, ⟨ht.trans hm.1, hl.2⟩, href'⟩)).turn hr
      · exact reaches_inProblem hreach
  · obtain ⟨hlt, hw'⟩ := hwait n hn hw
    rw [hstay.notified] at hu
    rw [hend]
    exact h.waiting n hlt hw' u hu
  · rw [hstay.notified] at hu
    have hbefore : ∀ n < t.world.nextNotification, ¬ Waits i t.world n := by
      intro n hn hw
      rcases hk with hnil | ⟨-, hkept⟩
      · rw [hnil] at hu
        cases hu
      · rcases hkept n hn hw with hw' | ⟨hpass, -⟩
        · exact hno n (Nat.lt_of_lt_of_le hn hstay.next) hw'
        · rw [hpass] at hev
          cases hev
    have hcurrent := h.settled hbefore u hu
    rw [hcur]
    split
    · rename_i hb
      rw [h.comesBack hb hr] at hcurrent
      exact hcurrent
    · exact hcurrent

theorem Followed.recover {s : Told} {t : Turn} (h : Followed conf i s t.world) (hk : t.KeepsRecovery conf i)
    (hr : t.recovers conf i = true) : Followed conf i (nextTold conf i s t) (t.after conf) ∧
      t.sentTo conf i .recovery = [] := by
  obtain ⟨k, he, rfl, hrec⟩ := recovers_iff.mp hr
  have hafter : t.after conf = stateAfter (consumeResult conf t.env k t.world) := by
    unfold Turn.after
    rw [he]
    rfl
  obtain ⟨hs, hcreated⟩ := consumeResult_recovery h.held hrec
  rw [← hafter] at hs hcreated
  have hend : (nextTold conf (t.world.check k).ref s t).ended = s.current := if_pos hr
  have hcur : (nextTold conf (t.world.check k).ref s t).current =
      if t.comesBack conf (t.world.check k).ref then [] else s.current := by
    show (if t.comesBack conf (t.world.check k).ref then [] else s.current) ++ _ = _
    rw [hs.sentTo_nil, List.append_nil]
  refine ⟨⟨hs.held, ?_, fun n hn hw u hu => ?_, fun hno u hu => ?_⟩, hs.sentTo_nil⟩
  · rw [hcur]
    rintro (hne | ⟨n, hn, hm, href⟩)
    · by_cases hb : t.comesBack conf (t.world.check k).ref = true
      · rw [if_pos hb] at hne
        exact absurd rfl hne
      · rw [if_neg hb] at hne
        have hb' : Scheduling.comesBack conf t.env t.world k = false := by
          rw [Bool.eq_false_iff]
          exact fun e => hb (comesBack_iff.mpr ⟨k, he, rfl, e⟩)
        rw [hafter]
        exact (h.problem (Or.inl hne)).falseRecovery hrec hb'
    · have hm' := hs.masters n hn hm.live href
      rw [hm.1] at hm'
      cases hm'.2
  · rw [hs.notified] at hu
    rw [hend]
    refine h.settled (fun m hm hmw => ?_) u hu
    rcases hk with hnil | ⟨-, hkept⟩
    · rw [hnil] at hu
      cases hu
    · rcases hkept m hm hmw with hw' | ⟨hpass, -⟩
      · have hnew := hw'.of_silent hs (Nat.lt_of_lt_of_le hm hs.next)
        exact absurd hnew.1 (Nat.not_le_of_lt hm)
      · rw [he] at hpass
        cases hpass
  · rw [hs.notified] at hu
    rcases hk with hnil | ⟨hcreates, -⟩
    · rw [hnil] at hu
      cases hu
    · have hc := hcreates hr
      unfold Turn.creates at hc
      rw [he] at hc
      obtain ⟨n, hn, hw⟩ := hcreated hc
      exact absurd hw (hno n hn)

theorem sentTo_nil {t : Turn} {ty : NotificationType} (h : ∀ n, t.world.nextNotification ≤ n →
    n < (t.after conf).nextNotification → ((t.after conf).notification n).type = ty →
    ((t.after conf).notification n).ref ≠ i) : t.sentTo conf i ty = [] := by
  refine List.eq_nil_iff_forall_not_mem.mpr fun u hu => ?_
  obtain ⟨n, hle, hlt, ht, hr, -⟩ := mem_sentTo.mp hu
  exact h n hle hlt ht hr

theorem nextTold_pass (conf : Conf) (i : Nat) (s : Told) {t : Turn} (hev : t.event = .scatterMasterNotifications) :
    t.recovers conf i ≠ true ∧ (nextTold conf i s t).ended = s.ended ∧
      (nextTold conf i s t).current = s.current ++ t.sentTo conf i .problem := by
  have hr : t.recovers conf i = false := by
    unfold Turn.recovers
    rw [hev]
  have hb : t.comesBack conf i = false := by
    unfold Turn.comesBack
    rw [hev]
  unfold nextTold
  rw [hr, hb]
  exact ⟨by decide, rfl, rfl⟩

theorem Followed.idle {s : Told} {t : Turn} (h : Followed conf i s t.world) (hev : t.event = .scatterMasterNotifications)
    (hheld : Held none (t.after conf)) (hi : Idle i t.world (t.after conf)) :
    Followed conf i (nextTold conf i s t) (t.after conf) ∧ t.sentTo conf i .recovery = [] := by
  obtain ⟨hr, hend, hcur⟩ := nextTold_pass conf i s hev
  have hnil : ∀ ty, ty = .problem ∨ ty = .recovery → t.sentTo conf i ty = [] := by
    refine fun ty hty => sentTo_nil fun n hle hlt ht href => hi.new n ⟨hle, hlt, href, ?_⟩
    rw [ht]
    exact hty
  rw [hnil _ (Or.inl rfl), List.append_nil] at hcur
  have hback : ∀ n < (t.after conf).nextNotification, ((t.after conf).notification n).Of i → n < t.world.nextNotification ∧
      (t.after conf).notification n = t.world.notification n := by
    intro n hn hof
    have hlt : n < t.world.nextNotification := Nat.lt_of_not_le fun hle => hi.new n ⟨hle, hn, hof⟩
    exact ⟨hlt, hi.old n hlt trivial (Or.inr hof)⟩
  refine ⟨⟨hheld, ?_, fun n hn hw u hu => ?_, fun hno u hu => ?_⟩, hnil _ (Or.inr rfl)⟩
  · rw [hcur]
    rintro (hne | ⟨n, hn, hm, href⟩)
    · exact (h.problem (Or.inl hne)).turn hr
    · obtain ⟨hlt, he⟩ := hback n hn ⟨href, Or.inl hm.1⟩
      rw [he] at hm href
      exact (h.problem (Or.inr ⟨n, hlt, hm, href⟩)).turn hr
  · obtain ⟨hlt, he⟩ := hback n hn ⟨hw.2.1, Or.inr hw.1⟩
    unfold Waits at hw
    rw [he] at hw
    rw [hi.notified] at hu
    rw [hend]
    exact h.waiting n hlt hw u hu
  · rw [hi.notified] at hu
    rw [hcur]
    refine h.settled (fun n hn hw => hno n (Nat.lt_of_lt_of_le hn hi.next) ?_) u hu
    unfold Waits
    rw [hi.old n hn trivial (Or.inl ⟨hw.2.1, Or.inr hw.1⟩)]
    exact hw

section
variable {s : Told} {t : Turn} {n : Nat} (h : Followed conf i s t.world) (hev : t.event = .scatterMasterNotifications)
  (hheld : Held none (t.after conf)) (hn : n < t.world.nextNotification) (hlive : (t.world.notification n).Live)
  (href : (t.world.notification n).ref = i) (hs : Scattered conf t.env i n t.world (t.after conf))
include h hev hheld hn hlive href hs

theorem Followed.scatterProblem (hp : (t.world.notification n).type = .problem) :
    Followed conf i (nextTold conf i s t) (t.after conf) ∧ t.sentTo conf i .recovery = [] := by
  obtain ⟨hr, hend, hcur⟩ := nextTold_pass conf i s hev
  have hbefore : ∀ m < t.world.nextNotification, ¬ Waits i t.world m := by
    intro m hm hw
    have he := h.held.live_eq hn hm hlive hw.live href hw.2.1
    subst he
    exact absurd (hp.symm.trans hw.1) (by decide)
  have hafter : ∀ m < (t.after conf).nextNotification, ¬ Waits i (t.after conf) m := by
    intro m hm hw
    have he := hs.live_eq h.held hn hlive href hm hw.live hw.2.1
    subst he
    exact absurd ((hs.type.trans hp).symm.trans hw.1) (by decide)
  refine ⟨⟨hheld, fun _ => ?_, fun m hm hw => absurd hw (hafter m hm), fun _ u hu => ?_⟩, ?_⟩
  · exact (h.problem (Or.inr ⟨n, hn, ⟨hp, hlive.2⟩, href⟩)).turn hr
  · rw [hcur]
    rcases hs.notified hp u hu with hu | ⟨k, hk, hkc⟩
    · exact List.mem_append_left _ (h.settled hbefore u hu)
    · exact List.mem_append_right _ (mem_sentTo.mpr ⟨k, hk.1, hk.2.1, (hs.new k hk).1.trans hp, hk.2.2.1, hkc⟩)
  · refine sentTo_nil fun k hle hlt ht hkr => ?_
    have hnew := (hs.new k ⟨hle, hlt, hkr, Or.inr ht⟩).1
    rw [ht, hp] at hnew
    cases hnew

theorem Followed.scatterRecovery (hk : t.KeepsRecovery conf i) (hrec : (t.world.notification n).type = .recovery) :
    Followed conf i (nextTold conf i s t) (t.after conf) ∧ ∀ u ∈ t.sentTo conf i .recovery, u ∈ s.ended := by
  obtain ⟨hr, hend, hcur⟩ := nextTold_pass conf i s hev
  have hwaits : Waits i t.world n := ⟨hrec, href, hlive.2⟩
  have hzombie : ((t.after conf).notification n).status = .zombie := by
    by_contra hne
    exact absurd (hrec.symm.trans (hs.master hne).1) (by decide)
  have hnone : ∀ m < (t.after conf).nextNotification, ((t.after conf).notification m).Live →
      ((t.after conf).notification m).ref ≠ i := by
    intro m hm hml hmi
    have he := hs.live_eq h.held hn hlive href hm hml hmi
    subst he
    exact hml.2.2 hzombie
  have hnil : t.sentTo conf i .problem = [] := by
    refine sentTo_nil fun k hle hlt ht hkr => ?_
    have hnew := (hs.new k ⟨hle, hlt, hkr, Or.inl ht⟩).1
    rw [ht, hrec] at hnew
    cases hnew
  rw [hnil, List.append_nil] at hcur
  refine ⟨⟨hheld, ?_, fun m hm hw => absurd hw.2.1 (hnone m hm hw.live), fun _ u hu => ?_⟩, fun u hu => ?_⟩
  · rw [hcur]
    rintro (hne | ⟨m, hm, hmaster, hmi⟩)
    · exact (h.problem (Or.inl hne)).turn hr
    · exact absurd hmi (hnone m hm hmaster.live)
  · rw [hs.told hrec] at hu
    rcases hk with hempty | ⟨-, hkept⟩
    · rw [hempty, ite_self] at hu
      cases hu
    · rcases hkept n hn hwaits with hw | ⟨-, hfree⟩
      · exact absurd hzombie hw.2.2.2
      · rw [hfree] at hu
        cases hu
  · obtain ⟨k, hle, hlt, ht, hkr, hkc⟩ := mem_sentTo.mp hu
    obtain ⟨-, -, v, hv, hmem⟩ := hs.new k ⟨hle, hlt, hkr, Or.inr ht⟩
    rw [hkc] at hv
    cases hv
    exact h.waiting n hn hwaits u (hmem hrec)

end

theorem Followed.pass {s : Told} {t : Turn} (h : Followed conf i s t.world) (hk : t.KeepsRecovery conf i)
    (hev : t.event = .scatterMasterNotifications) : Followed conf i (nextTold conf i s t) (t.after conf) ∧
      ∀ u ∈ t.sentTo conf i .recovery, u ∈ s.ended := by
  have hafter : t.after conf = scatterMasterNotifications conf t.env t.world := by
    unfold Turn.after
    rw [hev]
    rfl
  have hheld : Held none (t.after conf) := by
    rw [hafter]
    exact h.held.scatter
  have hpass : Passed conf t.env i t.world (t.after conf) := by
    rw [hafter]
    exact h.held.passed
  cases hpass with
  | idle hi =>
    obtain ⟨hf, hnil⟩ := h.idle hev hheld hi
    refine ⟨hf, fun u hu => ?_⟩
    rw [hnil] at hu
    cases hu
  | scattered n hn hlive href _ hs =>
    rcases hlive.1 with hp | hrec
    · obtain ⟨hf, hnil⟩ := h.scatterProblem hev hheld hn hlive href hs hp
      refine ⟨hf, fun u hu => ?_⟩
      rw [hnil] at hu
      cases hu
    · exact h.scatterRecovery hev hheld hn hlive href hs hk hrec

/-! ## The runs -/

theorem Followed.next {s : Told} {t : Turn} (h : Followed conf i s t.world) (hk : t.KeepsRecovery conf i) :
    Followed conf i (nextTold conf i s t) (t.after conf) ∧ ∀ u ∈ t.sentTo conf i .recovery, u ∈ s.ended := by
  by_cases hev : t.event = .scatterMasterNotifications
  · exact h.pass hk hev
  · by_cases hr : t.recovers conf i = true
    · obtain ⟨hf, hnil⟩ := h.recover hk hr
      refine ⟨hf, fun u hu => ?_⟩
      rw [hnil] at hu
      cases hu
    · have hpass : t.event.isPass = false := by
        cases he : t.event with
        | scatterMasterNotifications => exact absurd he hev
        | _ => rfl
      refine ⟨h.stay hk hpass hr, fun u hu => ?_⟩
      have hnil : t.sentTo conf i .recovery = [] := (turn_stays h.held hev hr).sentTo_nil
      rw [hnil] at hu
      cases hu

theorem told_snoc (trace : List Turn) (t : Turn) : told conf i (trace ++ [t]) = nextTold conf i (told conf i trace) t := by
  unfold told
  rw [List.foldl_append]
  rfl

theorem Initial.followed (h : Initial w) : Followed conf i ⟨[], []⟩ w := by
  refine ⟨h.held, ?_, fun n hn => ?_, fun _ u hu => ?_⟩
  · rintro (hne | ⟨n, hn, -⟩)
    · exact absurd rfl hne
    · rw [h.nextNotification] at hn
      cases hn
  · rw [h.nextNotification] at hn
    cases hn
  · rw [h.alert i] at hu
    cases hu

theorem Run.followed {w₀ : World} {trace : List Turn} (h0 : Initial w₀) (h : Run conf w₀ trace w)
    (hk : ∀ t ∈ trace, t.KeepsRecovery conf i) : Followed conf i (told conf i trace) w ∧ RecoveriesTold conf i trace := by
  induction h with
  | nil => exact ⟨h0.followed, fun before t after e => absurd e (by simp)⟩
  | @snoc trace w w' env ev _ hs ih =>
    obtain ⟨hf, ht⟩ := ih fun t hmem => hk t (List.mem_append_left _ hmem)
    have hnext := hf.next (t := ⟨w, env, ev⟩) (hk _ (List.mem_append_right _ List.mem_cons_self))
    have hafter : w' = Turn.after conf ⟨w, env, ev⟩ := hs.after
    rw [told_snoc, hafter]
    exact ⟨hnext.1, forall_split_snoc.mpr ⟨ht, hnext.2⟩⟩

end

/-! ## The results -/

theorem recoveries_told (conf : Conf) (i : Nat) (w₀ w : World) (trace : List Turn) (h₀ : Initial w₀)
    (h : Run conf w₀ trace w) (hk : ∀ t ∈ trace, t.KeepsRecovery conf i) : RecoveriesTold conf i trace :=
  (h.followed h₀ hk).2

def downAndTold : List (Env × Event) :=
  downAndUp ++ [(plainEnv 110, .getNewActions), (plainEnv 120, .scatterMasterNotifications)]

theorem recoveries_told_created :
    (∃ t ∈ turns oneHost (toldWorld ['d', 'r'] 60) downAndTold, t.sentTo oneHost 0 .recovery = [7]) ∧
      RecoveriesTold oneHost 0 (turns oneHost (toldWorld ['d', 'r'] 60) downAndTold) := by
  have hr := run_of_executes oneHost (show executes oneHost (toldWorld ['d', 'r'] 60) downAndTold = true by decide)
  refine ⟨by decide, recoveries_told oneHost 0 (toldWorld ['d', 'r'] 60) _ _ (toldWorld_initial _ _) hr ?_⟩
  decide

def downTwice : List (Env × Event) :=
  let muted : Env := { plainEnv 100 with enableNotifications := fun _ => false }
  [(plainEnv 10, .receiveResult 0 ⟨0, .scheduled, 2, 10, false, false, []⟩), (plainEnv 20, .consumeResult 0),
    (plainEnv 30, .getNewActions), (plainEnv 90, .scatterMasterNotifications),
    (plainEnv 95, .receiveResult 0 ⟨0, .scheduled, 0, 95, false, false, []⟩), (muted, .consumeResult 0),
    (plainEnv 105, .receiveResult 0 ⟨0, .scheduled, 2, 105, false, false, []⟩), (plainEnv 110, .consumeResult 0),
    (plainEnv 115, .receiveResult 0 ⟨0, .scheduled, 0, 115, false, false, []⟩), (plainEnv 120, .consumeResult 0),
    (plainEnv 125, .getNewActions), (plainEnv 130, .scatterMasterNotifications)]

/-- The contact of the first problem is told that the second one has ended. -/
theorem recoveries_told_stale : ∃ w₀ trace w, Initial w₀ ∧ Run oneHost w₀ trace w ∧ ¬ RecoveriesTold oneHost 0 trace := by
  have hr := run_of_executes oneHost (show executes oneHost (toldWorld ['d', 'r'] 0) downTwice = true by decide +kernel)
  refine ⟨toldWorld ['d', 'r'] 0, _, _, toldWorld_initial _ _, hr, fun h => ?_⟩
  have hu := h ((turns oneHost (toldWorld ['d', 'r'] 0) downTwice).take 11)
    ⟨worldAfter oneHost (toldWorld ['d', 'r'] 0) (downTwice.take 11), plainEnv 130, .scatterMasterNotifications⟩ [] rfl 7
    (by decide +kernel)
  exact absurd hu (by decide +kernel)

end Alignak.Scheduling
