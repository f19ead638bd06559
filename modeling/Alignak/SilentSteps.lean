import Alignak.Scattering

/-!
# The steps that send nothing

Every event but the pass that scatters the masters leaves the notified contacts
of an item and makes masters only.
-/

namespace Alignak.Scheduling

/-- `master k n t nb`: where the number of the item is `k`, its live master `n`
has type `t` and number `nb`. -/
structure Rule where
  number : Int → Prop
  master : Int → Nat → NotificationType → Int → Prop

/-- A new master, from identifier `n₀` on, keeps the rule. -/
def Rule.allows (r : Rule) (n₀ : Nat) (t : NotificationType) : Prop :=
  (t = .recovery → r.number 0) ∧ ∀ k n, r.number k → n₀ ≤ n →
    r.master (if t = .recovery then 0 else k) n t (if t = .problem then k + 1 else if t = .recovery then 0 else k)

/-- The rule at item `i`, whose notified contacts are `l`; the new
notifications, from `n₀` on, are masters. -/
structure Silent (r : Rule) (l : List Nat) (i n₀ : Nat) (c : Option Nat) (w : World) : Prop where
  held : Held c w
  number : r.number (w.alert i).currentNotificationNumber
  notified : (w.alert i).notifiedContactsIds = l
  masters : ∀ n < w.nextNotification, (w.notification n).Live → (w.notification n).ref = i →
    r.master (w.alert i).currentNotificationNumber n (w.notification n).type (w.notification n).notifNb
  next : n₀ ≤ w.nextNotification
  silent : ∀ n, n₀ ≤ n → n < w.nextNotification → (w.notification n).contact = none

variable {c' : Option Nat} {j : Nat} {t : Turn}

section
variable {conf : Conf} {env : Env} {r : Rule} {l : List Nat} {i n₀ : Nat} {c : Option Nat} {w : World}

theorem Silent.change {w' : World} (h : Silent r l i n₀ c w) (hh : Held c' w')
    (hnum : (w'.alert i).currentNotificationNumber = (w.alert i).currentNotificationNumber)
    (hcon : (w'.alert i).notifiedContactsIds = (w.alert i).notifiedContactsIds)
    (hnext : w'.nextNotification = w.nextNotification)
    (hold : ∀ n, (w'.notification n).contact = (w.notification n).contact ∧ ((w'.notification n).Live →
      (w.notification n).Live ∧ (w'.notification n).ref = (w.notification n).ref ∧
        (w'.notification n).type = (w.notification n).type ∧ (w'.notification n).notifNb = (w.notification n).notifNb)) :
    Silent r l i n₀ c' w' := by
  refine ⟨hh, by rw [hnum]; exact h.number, hcon.trans h.notified, fun n hn hm hr => ?_, by rw [hnext]; exact h.next,
    fun n hn hlt => ?_⟩
  · obtain ⟨hm', hr', ht, hnb⟩ := (hold n).2 hm
    rw [hnb, ht, hnum]
    exact h.masters n (by rw [← hnext]; exact hn) hm' (hr'.symm.trans hr)
  · rw [(hold n).1]
    exact h.silent n hn (by rw [← hnext]; exact hlt)

theorem Silent.same {w' : World} (h : Silent r l i n₀ c w) (hh : Held c' w')
    (hnum : (w'.alert i).currentNotificationNumber = (w.alert i).currentNotificationNumber)
    (hcon : (w'.alert i).notifiedContactsIds = (w.alert i).notifiedContactsIds)
    (hnext : w'.nextNotification = w.nextNotification) (hn : w'.notification = w.notification) : Silent r l i n₀ c' w' := by
  refine h.change hh hnum hcon hnext fun n => ?_
  rw [hn]
  exact ⟨rfl, fun hm => ⟨hm, rfl, rfl, rfl⟩⟩

theorem Silent.remove {n : Nat} (h : Silent r l i n₀ c w) : Silent r l i n₀ c (removeInProgressNotification j n w) := by
  obtain ⟨h1, h2, h3⟩ := removeInProgressNotification_tables j n w i
  refine h.change h.held.remove h1 h2 h3 fun k => ?_
  rcases removeInProgressNotification_cases j n w k with e | e
  · rw [e]
    exact ⟨rfl, fun hm => ⟨hm, rfl, rfl, rfl⟩⟩
  · rw [e]
    exact ⟨rfl, fun hm => absurd rfl hm.2.2⟩

theorem Silent.removeAll (h : Silent r l i n₀ c w) :
    Silent r l i n₀ c (removeInProgressNotifications true j w) := by
  unfold removeInProgressNotifications
  refine List.foldlRecOn _ _ h fun w hw n _ => ?_
  unfold removeUnlessPreserved
  split
  · exact hw
  · split
    · exact hw
    · exact hw.remove

theorem Silent.setStatus {n : Nat} {s : ActStatus} (h : Silent r l i n₀ c w)
    (hs : s = .zombie ∨ (w.notification n).contact.isSome ∨ (w.notification n).status ≠ .zombie) :
    Silent r l i n₀ c (w.setNotificationStatus n s) := by
  refine h.change (h.held.setStatus hs) rfl rfl rfl fun k => ?_
  by_cases hk : k = n
  · subst hk
    rw [setNotificationStatus_self]
    refine ⟨rfl, fun hm => ⟨⟨hm.1, hm.2.1, ?_⟩, rfl, rfl, rfl⟩⟩
    rcases hs with rfl | hs | hs
    · exact absurd rfl hm.2.2
    · have hc : (w.notification k).contact = none := hm.2.1
      rw [hc] at hs
      exact absurd hs (by decide)
    · exact hs
  · rw [show (w.setNotificationStatus n s).notification k = w.notification k from Function.update_of_ne hk _ _]
    exact ⟨rfl, fun hm => ⟨hm, rfl, rfl, rfl⟩⟩

theorem Silent.create {t : NotificationType} {period : Option Nat} (h : Silent r l i n₀ c w)
    (hh : Held c' (createNotifications conf env j t period w))
    (ht : j = i → t ≠ .problem ∧ t ≠ .recovery ∨ r.allows n₀ t ∧ Cleared i w) :
    Silent r l i n₀ c' (createNotifications conf env j t period w) := by
  rcases createNotifications_cases conf env j t period w with ⟨-, e⟩ | ⟨-, x, hx⟩
  · rw [e] at hh ⊢
    exact ⟨hh, h.number, h.notified, h.masters, h.next, h.silent⟩
  have hold : ∀ n, n < w.nextNotification →
      (createNotifications conf env j t period w).notification n = w.notification n := by
    intro n hn
    rw [hx.notification, Function.update_of_ne (Nat.ne_of_lt hn)]
  have hnew : (createNotifications conf env j t period w).notification w.nextNotification = x := by
    rw [hx.notification, Function.update_self]
  refine ⟨hh, ?_, (hx.notified i).trans h.notified, fun n hn hm href => ?_, ?_, fun n hn hlt => ?_⟩
  · rw [hx.number]
    split
    · rename_i hc
      rcases ht hc.1.symm with hne | ha
      · exact absurd hc.2 hne.2
      · exact ha.1.1 hc.2
    · exact h.number
  · rw [hx.next] at hn
    rcases Nat.lt_succ_iff_lt_or_eq.mp hn with hlt | rfl
    · rw [hold n hlt] at hm href ⊢
      have hnum : ¬ (i = j ∧ t = .recovery) := by
        rintro ⟨hij, htr⟩
        rcases ht hij.symm with hne | ha
        · exact hne.2 htr
        · have htracked := h.held.1.tracked n hlt hm
          rw [href] at htracked
          exact ha.2 n htracked hm
      rw [hx.number, if_neg hnum]
      exact h.masters n hlt hm href
    · rw [hnew] at hm href ⊢
      have hji : j = i := hx.ref.symm.trans href
      rcases ht hji with hne | ha
      · have htype := hm.1
        rw [hx.type] at htype
        exact absurd htype fun e => e.elim hne.1 hne.2
      · have hrule := ha.1.2 _ w.nextNotification h.number h.next
        subst hji
        rw [hx.number, hx.type, hx.notifNb]
        simpa using hrule
  · rw [hx.next]
    exact Nat.le_succ_of_le h.next
  · rw [hx.next] at hlt
    rcases Nat.lt_succ_iff_lt_or_eq.mp hlt with hlt | rfl
    · rw [hold n hlt]
      exact h.silent n hn hlt
    · rw [hnew]
      exact hx.contact

theorem Silent.alerting (conf : Conf) (r : Rule) (l : List Nat) (i n₀ : Nat) :
    Alerting conf (fun j t => j = i → r.allows n₀ t) (Silent r l i n₀) where
  weaken := fun h => ⟨h.held.weaken, h.number, h.notified, h.masters, h.next, h.silent⟩
  loud := fun h hl => by
    have hh := h.held.loud hl
    simp only [World.loud, Prod.mk.injEq] at hl
    exact h.same hh (by rw [hl.1]) (by rw [hl.1]) hl.2.2.2 hl.2.1
  flags := fun {_ w j f} h hf => by
    have hsame : ((w.modifyAlert j f).alert i).tables = (w.alert i).tables := by
      by_cases hi : i = j
      · subst hi
        rw [World.modifyAlert_self]
        exact hf _
      · rw [World.modifyAlert_ne w hi]
    simp only [AlertState.tables, Prod.mk.injEq] at hsame
    exact h.same ((Held.alerting conf).flags h.held hf) hsame.2.2.1 hsame.2.2.2 rfl rfl
  setStatus := fun h hs => h.setStatus hs
  remove := fun h => h.remove
  clear := fun h => by
    obtain ⟨-, h2, h3, h4, h5, h6⟩ := h.removeAll
    exact ⟨h.held.clear, h2, h3, h4, h5, h6⟩
  create := fun h ht => h.create (h.held.create ht) fun _ => Or.inl ht
  raise := fun {w j t _ _} h hr => by
    refine h.create h.held.raise fun hj => Or.inr ⟨hr hj, ?_⟩
    exact h.held.2 i (by rw [hj]; rfl)
  pick := fun {_ w j n} h hn => by
    refine h.same ((Held.alerting conf).pick h.held hn) ?_ ?_ ?_ ?_ <;>
    · unfold schedulerAdd
      split <;> rfl
  dequeue := fun {_ w j} h => by
    have hsame : ((w.modifyAlert j fun a => { a with actions := [] }).alert i).counts = (w.alert i).counts := by
      by_cases hi : i = j
      · subst hi
        rw [World.modifyAlert_self]
        rfl
      · rw [World.modifyAlert_ne w hi]
    simp only [AlertState.counts, Prod.mk.injEq] at hsame
    exact h.same ((Held.alerting conf).dequeue h.held) hsame.1 hsame.2.1 rfl rfl
  drop := fun h => h.same h.held.drop rfl rfl rfl rfl

theorem Silent.start (h : Held none w) (hnum : r.number (w.alert i).currentNotificationNumber)
    (hm : ∀ n < w.nextNotification, (w.notification n).Live → (w.notification n).ref = i →
      r.master (w.alert i).currentNotificationNumber n (w.notification n).type (w.notification n).notifNb) :
    Silent r (w.alert i).notifiedContactsIds i w.nextNotification none w :=
  ⟨h, hnum, rfl, hm, Nat.le_refl _, fun _ hn hlt => absurd hlt (Nat.not_lt_of_le hn)⟩

end

/-! ## The steps of a run -/

def Turn.after (conf : Conf) (t : Turn) : World := stateAfter (runEvent conf t.env t.event t.world)

def Turn.recovers (conf : Conf) (i : Nat) (t : Turn) : Bool :=
  match t.event with
  | .consumeResult c => (t.world.check c).ref == i && hardRecovery conf t.env t.world c
  | _ => false

def Turn.reaches (conf : Conf) (i : Nat) (t : Turn) : Bool :=
  match t.event with
  | .consumeResult c => (t.world.check c).ref == i && hardProblem conf t.env t.world c
  | _ => false

theorem forall_split_snoc {α : Type} {P : List α → α → Prop} {trace : List α} {t : α} :
    (∀ before u after, trace ++ [t] = before ++ u :: after → P before u) ↔
      (∀ before u after, trace = before ++ u :: after → P before u) ∧ P trace t := by
  constructor
  · refine fun h => ⟨fun before u after e => ?_, h trace t [] rfl⟩
    exact h before u (after ++ [t]) (by rw [e, List.append_assoc]; rfl)
  · rintro ⟨h, ht⟩ before u after e
    rcases List.eq_nil_or_concat after with rfl | ⟨rest, v, rfl⟩
    · obtain ⟨rfl, hu⟩ := List.append_inj' e rfl
      cases hu
      exact ht
    · refine h before u rest ?_
      rw [List.concat_eq_append, ← List.cons_append, ← List.append_assoc] at e
      exact (List.append_inj' e rfl).1

section
variable {conf : Conf} {r : Rule} {i : Nat}

theorem recovers_iff : t.recovers conf i = true ↔
    ∃ k, t.event = .consumeResult k ∧ (t.world.check k).ref = i ∧ hardRecovery conf t.env t.world k = true := by
  unfold Turn.recovers
  cases he : t.event <;> simp

theorem reaches_iff : t.reaches conf i = true ↔
    ∃ k, t.event = .consumeResult k ∧ (t.world.check k).ref = i ∧ hardProblem conf t.env t.world k = true := by
  unfold Turn.reaches
  cases he : t.event <;> simp

theorem turn_silent (h : Held none t.world) (hev : t.event ≠ .scatterMasterNotifications)
    (hp : t.reaches conf i = true → r.allows t.world.nextNotification .problem)
    (hr : t.recovers conf i = true → r.allows t.world.nextNotification .recovery)
    (hnum : r.number (t.world.alert i).currentNotificationNumber)
    (hm : ∀ n < t.world.nextNotification, (t.world.notification n).Live → (t.world.notification n).ref = i →
      r.master (t.world.alert i).currentNotificationNumber n (t.world.notification n).type (t.world.notification n).notifNb) :
    Silent r (t.world.alert i).notifiedContactsIds i t.world.nextNotification none (t.after conf) := by
  refine (Silent.alerting conf r _ i _).event hev (fun k e => ⟨fun hprob hj => hp ?_, fun hrec hj => hr ?_⟩)
    (Silent.start h hnum hm)
  · exact reaches_iff.mpr ⟨k, e, hj, hprob⟩
  · exact recovers_iff.mpr ⟨k, e, hj, hrec⟩

end

end Alignak.Scheduling
