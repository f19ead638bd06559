import Alignak.Alerting

/-!
# One master for each problem

Every live master of a problem or of a recovery is in progress at its item, and
an item has at most one in progress.
-/

namespace Alignak.Scheduling

/-- A master notification of a problem that has not been wiped out. -/
def Notification.Master (x : Notification) : Prop := x.type = .problem ∧ x.contact = none ∧ x.status ≠ .zombie

def Notification.Live (x : Notification) : Prop :=
  (x.type = .problem ∨ x.type = .recovery) ∧ x.contact = none ∧ x.status ≠ .zombie

theorem Notification.Master.live {x : Notification} (h : x.Master) : x.Live := ⟨Or.inl h.1, h.2⟩

structure OneMaster (w : World) : Prop where
  queued : ∀ i, ∀ n ∈ (w.alert i).actions, n < w.nextNotification ∧ (w.notification n).ref = i
  picked : ∀ n ∈ w.actions, n < w.nextNotification
  nodup : w.actions.Nodup
  inProgress : ∀ i, ∀ n ∈ (w.alert i).notificationsInProgress, n < w.nextNotification ∧ (w.notification n).ref = i
  tracked : ∀ n < w.nextNotification, (w.notification n).Live →
    n ∈ (w.alert (w.notification n).ref).notificationsInProgress
  unique : ∀ i, ∀ n ∈ (w.alert i).notificationsInProgress, ∀ m ∈ (w.alert i).notificationsInProgress,
    (w.notification n).Live → (w.notification m).Live → n = m

def Cleared (i : Nat) (w : World) : Prop := ∀ n ∈ (w.alert i).notificationsInProgress, ¬ (w.notification n).Live

def Held (cleared : Option Nat) (w : World) : Prop := OneMaster w ∧ ∀ i ∈ cleared, Cleared i w

theorem Held.weaken {c : Option Nat} {w : World} (h : Held c w) : Held none w := ⟨h.1, fun _ hi => absurd hi (by simp)⟩

theorem Held.loud {c : Option Nat} {w w' : World} (hw : Held c w) (h : w'.loud = w.loud) : Held c w' := by
  simp only [World.loud, Prod.mk.injEq] at h
  obtain ⟨h1, h2, h3, h4⟩ := h
  obtain ⟨⟨a, b, nd, d, e, f⟩, g⟩ := hw
  refine ⟨⟨?_, ?_, ?_, ?_, ?_, ?_⟩, ?_⟩
  · rw [h1, h2, h4]; exact a
  · rw [h3, h4]; exact b
  · rw [h3]; exact nd
  · rw [h1, h2, h4]; exact d
  · rw [h1, h2, h4]; exact e
  · rw [h1, h2]; exact f
  · unfold Cleared
    rw [h1, h2]; exact g

/-! ## One notification -/

section
variable {c : Option Nat} {w : World} {i n : Nat} {x : Notification}

theorem Held.update (h : Held c w) (href : x.ref = (w.notification n).ref) (hm : x.Live → (w.notification n).Live) :
    Held c { w with notification := Function.update w.notification n x } := by
  have hr : ∀ m, (Function.update w.notification n x m).ref = (w.notification m).ref := by
    intro m
    by_cases e : m = n
    · subst e; rw [Function.update_self]; exact href
    · rw [Function.update_of_ne e]
  have hM : ∀ m, (Function.update w.notification n x m).Live → (w.notification m).Live := by
    intro m
    by_cases e : m = n
    · subst e; rw [Function.update_self]; exact hm
    · rw [Function.update_of_ne e]; exact id
  refine ⟨⟨fun j m hj => ?_, h.1.picked, h.1.nodup, fun j m hj => ?_, fun m hlt hmaster => ?_, fun j m hj m' hj' hmm hmm' => ?_⟩,
    fun j hj m hjm hmaster => ?_⟩
  · exact ⟨(h.1.queued j m hj).1, (hr m).trans (h.1.queued j m hj).2⟩
  · exact ⟨(h.1.inProgress j m hj).1, (hr m).trans (h.1.inProgress j m hj).2⟩
  · have ht := h.1.tracked m hlt (hM m hmaster)
    rw [← hr m] at ht
    exact ht
  · exact h.1.unique j m hj m' hj' (hM m hmm) (hM m' hmm')
  · exact h.2 j hj m hjm (hM m hmaster)

theorem Held.setStatus {s : ActStatus} (h : Held c w)
    (hs : s = .zombie ∨ (w.notification n).contact.isSome ∨ (w.notification n).status ≠ .zombie) :
    Held c (w.setNotificationStatus n s) := by
  refine h.update rfl fun hm => ?_
  rcases hs with rfl | hs | hs
  · exact absurd rfl hm.2.2
  · have hnone : (w.notification n).contact = Option.none := hm.2.1
    rw [hnone] at hs
    exact absurd hs (by simp)
  · exact ⟨hm.1, hm.2.1, hs⟩

theorem Held.shrink {f : AlertState → AlertState} (h : Held c w)
    (hsub : ∀ m ∈ (f (w.alert i)).notificationsInProgress, m ∈ (w.alert i).notificationsInProgress)
    (hkeep : ∀ m ∈ (w.alert i).notificationsInProgress, (w.notification m).Live →
      m ∈ (f (w.alert i)).notificationsInProgress)
    (hacts : ∀ m ∈ (f (w.alert i)).actions, m < w.nextNotification ∧ (w.notification m).ref = i) : Held c (w.modifyAlert i f) := by
  have hs : ∀ j m, m ∈ ((w.modifyAlert i f).alert j).notificationsInProgress → m ∈ (w.alert j).notificationsInProgress := by
    intro j m hm
    by_cases e : j = i
    · subst e; rw [World.modifyAlert_self] at hm; exact hsub m hm
    · rw [World.modifyAlert_ne w e] at hm; exact hm
  refine ⟨⟨fun j m hm => ?_, h.1.picked, h.1.nodup, fun j m hj => h.1.inProgress j m (hs j m hj), fun m hlt hm => ?_,
    fun j m hj m' hj' => h.1.unique j m (hs j m hj) m' (hs j m' hj')⟩, fun j hj m hjm => h.2 j hj m (hs j m hjm)⟩
  · by_cases e : j = i
    · subst e; rw [World.modifyAlert_self] at hm; exact hacts m hm
    · rw [World.modifyAlert_ne w e] at hm; exact h.1.queued j m hm
  · have ht := h.1.tracked m hlt hm
    show m ∈ ((w.modifyAlert i f).alert (w.notification m).ref).notificationsInProgress
    by_cases e : (w.notification m).ref = i
    · rw [e] at ht ⊢
      rw [World.modifyAlert_self]
      exact hkeep m ht hm
    · rw [World.modifyAlert_ne w e]
      exact ht

theorem Held.setFlags {f : AlertState → AlertState} (h : Held c w)
    (hf : ∀ a, (f a).notificationsInProgress = a.notificationsInProgress ∧ (f a).actions = a.actions) :
    Held c (w.modifyAlert i f) := by
  refine h.shrink (fun m hm => ?_) (fun m hm _ => ?_) fun m hm => ?_
  · rw [(hf _).1] at hm; exact hm
  · rw [(hf _).1]; exact hm
  · rw [(hf _).2] at hm; exact h.1.queued i m hm

theorem Held.forget (h : Held c w) (hn : ¬ (w.notification n).Live) :
    Held c (w.modifyAlert i fun a => { a with notificationsInProgress := a.notificationsInProgress.filter (· ≠ n) }) := by
  refine h.shrink (fun m hm => (List.mem_filter.mp hm).1) (fun m hm hmm => List.mem_filter.mpr ⟨hm, ?_⟩)
    fun m hm => h.1.queued i m hm
  have hne : m ≠ n := fun e => hn (e ▸ hmm)
  simpa using hne

theorem Held.remove (h : Held c w) : Held c (removeInProgressNotification i n w) := by
  unfold removeInProgressNotification
  split
  · refine Held.forget (h.setStatus (Or.inl rfl)) ?_
    intro hm
    simp only [World.setNotificationStatus, Function.update_self] at hm
    exact hm.2.2 rfl
  · exact h

theorem OneMaster.add (h : OneMaster w) (href : x.ref = i) (hx : x.Live → Cleared i w) : OneMaster (addNotification i x w) := by
  have hold : ∀ m < w.nextNotification, (addNotification i x w).notification m = w.notification m := by
    intro m hm
    exact Function.update_of_ne (Nat.ne_of_lt hm) _ _
  have hnew : (addNotification i x w).notification w.nextNotification = x := Function.update_self ..
  have hin : ∀ j m, m ∈ ((addNotification i x w).alert j).notificationsInProgress ↔
      m ∈ (w.alert j).notificationsInProgress ∨ j = i ∧ m = w.nextNotification := by
    intro j m
    show m ∈ (Function.update w.alert i _ j).notificationsInProgress ↔ _
    by_cases e : j = i
    · subst e; simp
    · rw [Function.update_of_ne e]; simp [e]
  refine ⟨fun j m hm => ?_, fun m hm => Nat.lt_succ_of_lt (h.picked m hm), h.nodup, fun j m hm => ?_, fun m hlt hm => ?_,
    fun j m hm m' hm' hmm hmm' => ?_⟩
  · have hq : m ∈ (w.alert j).actions := by
      have hm' : m ∈ (Function.update w.alert i _ j).actions := hm
      by_cases e : j = i
      · subst e; rw [Function.update_self] at hm'; exact hm'
      · rw [Function.update_of_ne e] at hm'; exact hm'
    have hp := h.queued j m hq
    exact ⟨Nat.lt_succ_of_lt hp.1, by rw [hold m hp.1]; exact hp.2⟩
  · rcases (hin j m).mp hm with hm | ⟨rfl, rfl⟩
    · have hp := h.inProgress j m hm
      exact ⟨Nat.lt_succ_of_lt hp.1, by rw [hold m hp.1]; exact hp.2⟩
    · exact ⟨Nat.lt_succ_self _, by rw [hnew]; exact href⟩
  · rw [hin]
    rcases Nat.lt_succ_iff_lt_or_eq.mp hlt with hlt | rfl
    · rw [hold m hlt] at hm ⊢
      exact Or.inl (h.tracked m hlt hm)
    · rw [hnew]
      exact Or.inr ⟨href, rfl⟩
  · rcases (hin j m).mp hm with h1 | ⟨e, rfl⟩
    · rw [hold m (h.inProgress j m h1).1] at hmm
      rcases (hin j m').mp hm' with h2 | ⟨e, rfl⟩
      · rw [hold m' (h.inProgress j m' h2).1] at hmm'
        exact h.unique j m h1 m' h2 hmm hmm'
      · rw [hnew] at hmm'
        exact absurd hmm (hx hmm' m (e ▸ h1))
    · rcases (hin j m').mp hm' with h2 | ⟨_, rfl⟩
      · rw [hnew] at hmm
        rw [hold m' (h.inProgress j m' h2).1] at hmm'
        exact absurd hmm' (hx hmm m' (e ▸ h2))
      · rfl

theorem Cleared.add {j : Nat} (h : OneMaster w) (hc : Cleared j w) (hx : j = i → ¬ x.Live) :
    Cleared j (addNotification i x w) := by
  intro m hm
  have hm' : m ∈ (Function.update w.alert i _ j).notificationsInProgress := hm
  have hold : m ∈ (w.alert j).notificationsInProgress → ¬ ((addNotification i x w).notification m).Live := by
    intro hin
    have e : (addNotification i x w).notification m = w.notification m :=
      Function.update_of_ne (Nat.ne_of_lt (h.inProgress j m hin).1) _ _
    rw [e]
    exact hc m hin
  by_cases e : j = i
  · rw [e, Function.update_self] at hm'
    rcases List.mem_append.mp hm' with hin | hin
    · exact hold (e ▸ hin)
    · rw [List.mem_singleton.mp hin]
      show ¬ (Function.update w.notification w.nextNotification x w.nextNotification).Live
      rw [Function.update_self]
      exact hx e
  · rw [Function.update_of_ne e] at hm'
    exact hold hm'

theorem Held.add (h : Held c w) (href : x.ref = i) (hx : ¬ x.Live) : Held c (addNotification i x w) :=
  ⟨h.1.add href fun hm => absurd hm hx, fun j hj => Cleared.add h.1 (h.2 j hj) fun _ => hx⟩

theorem Held.enqueue {number : Int} (h : Held c w) (hn : n < w.nextNotification ∧ (w.notification n).ref = i) :
    Held c (w.modifyAlert i fun a => { a with currentNotificationNumber := number, actions := a.actions ++ [n] }) := by
  refine h.shrink (fun m hm => hm) (fun m hm _ => hm) fun m hm => ?_
  rcases List.mem_append.mp hm with hm | hm
  · exact h.1.queued i m hm
  · rw [List.mem_singleton.mp hm]; exact hn

/-! ## The functions of the items -/

variable {conf : Conf} {env : Env}

theorem Held.create {t : NotificationType} {period : Option Nat} (h : Held c w) (ht : t ≠ .problem ∧ t ≠ .recovery) :
    Held c (createNotifications conf env i t period w) := by
  unfold createNotifications
  split
  · exact h
  · refine (h.add (i := i) rfl fun hm => hm.1.elim ht.1 ht.2).enqueue ⟨Nat.lt_succ_self _, ?_⟩
    exact congrArg Notification.ref (Function.update_self w.nextNotification _ w.notification)

theorem Held.raise {t : NotificationType} {period : Option Nat} (h : Held (some i) w) :
    Held none (createNotifications conf env i t period w) := by
  unfold createNotifications
  split
  · exact h.weaken
  · refine Held.enqueue ⟨h.1.add rfl fun _ => h.2 i rfl, fun _ hj => absurd hj (by simp)⟩ ⟨Nat.lt_succ_self _, ?_⟩
    exact congrArg Notification.ref (Function.update_self w.nextNotification _ w.notification)

theorem Held.removeAll {master : Bool} (h : Held c w) : Held c (removeInProgressNotifications master i w) := by
  unfold removeInProgressNotifications
  refine List.foldlRecOn _ _ h fun w hw n _ => ?_
  unfold removeUnlessPreserved
  split
  · exact hw
  · split
    · exact hw
    · exact hw.remove

theorem Held.pick (h : Held c w) (hn : n < w.nextNotification) : Held c (schedulerAdd n w) := by
  unfold schedulerAdd
  split
  · exact h
  · rename_i hmem
    refine ⟨⟨h.1.queued, fun m hm => ?_, ?_, h.1.inProgress, h.1.tracked, h.1.unique⟩, h.2⟩
    · rcases List.mem_append.mp hm with hm | hm
      · exact h.1.picked m hm
      · rw [List.mem_singleton.mp hm]; exact hn
    · refine List.nodup_append.mpr ⟨h.1.nodup, List.nodup_singleton n, fun a ha b hb e => hmem ?_⟩
      rw [← List.mem_singleton.mp hb, ← e]
      exact ha

theorem Held.drop {p : Nat → Bool} (h : Held c w) : Held c { w with actions := w.actions.filter p } :=
  ⟨⟨h.1.queued, fun m hm => h.1.picked m (List.mem_filter.mp hm).1, h.1.nodup.filter p, h.1.inProgress, h.1.tracked,
    h.1.unique⟩, h.2⟩

/-! ## The removal -/

theorem remove_step (w : World) (i k : Nat) :
    ∀ m ∈ ((removeInProgressNotification i k w).alert i).notificationsInProgress, m ≠ k ∧
      m ∈ (w.alert i).notificationsInProgress ∧ (removeInProgressNotification i k w).notification m = w.notification m := by
  intro m hm
  unfold removeInProgressNotification at hm ⊢
  by_cases hk : k ∈ (w.alert i).notificationsInProgress
  · rw [if_pos hk] at hm ⊢
    rw [World.modifyAlert_self] at hm
    have hmem := List.mem_filter.mp hm
    have hne : m ≠ k := by simpa using hmem.2
    exact ⟨hne, hmem.1, Function.update_of_ne hne _ _⟩
  · rw [if_neg hk] at hm ⊢
    exact ⟨fun e => hk (e ▸ hm), hm, rfl⟩

theorem cleared_of_fold (i : Nat) : ∀ (l : List Nat) (w : World),
    (∀ m ∈ (w.alert i).notificationsInProgress, (w.notification m).Live → m ∈ l) →
    Cleared i (l.foldl (removeUnlessPreserved true i) w)
  | [], w, h => fun m hm hmm => absurd (h m hm hmm) List.not_mem_nil
  | k :: l, w, h => by
    refine cleared_of_fold i l _ fun m hm hmm => ?_
    have hskip : ∀ h' : m ∈ (w.alert i).notificationsInProgress, (w.notification m).Live → m ≠ k → m ∈ l := by
      intro h' hmm hne
      exact (List.mem_cons.mp (h m h' hmm)).resolve_left hne
    unfold removeUnlessPreserved at hm hmm
    split at hm
    · rename_i hc
      rw [if_pos hc] at hmm
      refine hskip hm hmm fun e => ?_
      have hsome : (w.notification k).contact.isSome := by simpa using hc
      rw [← e, hmm.2.1] at hsome
      exact absurd hsome (by simp)
    · rename_i hc
      rw [if_neg hc] at hmm
      split at hm
      · rename_i ht
        rw [if_pos ht] at hmm
        refine hskip hm hmm fun e => ?_
        rw [← e] at ht
        rcases hmm.1 with ht' | ht' <;> rw [ht'] at ht <;> exact absurd ht (by decide)
      · rename_i ht
        rw [if_neg ht] at hmm
        obtain ⟨hne, hin, hsame⟩ := remove_step w i k m hm
        rw [hsame] at hmm
        exact hskip hin hmm hne

theorem Held.clear (h : Held c w) : Held (some i) (removeInProgressNotifications true i w) := by
  have hr : Held c (removeInProgressNotifications true i w) := h.removeAll
  refine ⟨hr.1, fun j hj => ?_⟩
  cases hj
  exact cleared_of_fold i _ w fun m hm _ => hm

theorem Held.alerting (conf : Conf) : Alerting conf (fun _ _ => True) Held where
  weaken := fun h => h.weaken
  loud := fun h hl => h.loud hl
  flags := fun h hf => h.setFlags fun a => by
    have ha := hf a
    simp only [AlertState.tables, Prod.mk.injEq] at ha
    exact ⟨ha.1, ha.2.1⟩
  setStatus := fun h hs => h.setStatus hs
  remove := fun h => h.remove
  clear := fun h => h.clear
  create := fun h ht => h.create ht
  raise := fun h _ => h.raise
  pick := fun h hn => h.pick (h.1.queued _ _ hn).1
  dequeue := fun h => h.shrink (fun _ hm => hm) (fun _ hm _ => hm) fun _ hm => absurd hm List.not_mem_nil
  drop := fun h => h.drop

/-! ## The pass that scatters the masters -/

def Children (l : List Nat) (w : World) : Prop := ∀ k ∈ l, k < w.nextNotification ∧ (w.notification k).contact.isSome

theorem scatterChild_held {escalated : Bool} {s : List Nat × World} {r : Nat × Nat} (h : Held c s.2 ∧ Children s.1 s.2) :
    Held c (scatterChild env i n escalated s r).2 ∧
      Children (scatterChild env i n escalated s r).1 (scatterChild env i n escalated s r).2 := by
  unfold scatterChild
  simp only
  split
  · let child : Notification := ⟨(s.2.notification n).type, .scheduled, i, some r.1, (s.2.notification n).tToGo,
      (s.2.notification n).notifNb, escalated⟩
    have hadd : Held c (addNotification i child s.2) := h.1.add rfl fun hm => absurd hm.2.1 (by simp [child])
    have hkids : Children (s.1 ++ [s.2.nextNotification]) (addNotification i child s.2) := by
      intro k hk
      rcases List.mem_append.mp hk with hk | hk
      · have hold := h.2 k hk
        refine ⟨Nat.lt_succ_of_lt hold.1, ?_⟩
        show (Function.update s.2.notification s.2.nextNotification child k).contact.isSome
        rw [Function.update_of_ne (Nat.ne_of_lt hold.1)]
        exact hold.2
      · rw [List.mem_singleton.mp hk]
        refine ⟨Nat.lt_succ_self _, ?_⟩
        show (Function.update s.2.notification s.2.nextNotification child s.2.nextNotification).contact.isSome
        rw [Function.update_self]
        rfl
    split
    · refine ⟨?_, hkids⟩
      dsimp only
      refine Held.setFlags hadd ?_
      exact fun a => ⟨rfl, rfl⟩
    · exact ⟨hadd, hkids⟩
  · exact h

theorem scatterNotification_held (h : Held c w) :
    Held c (scatterNotification conf env i n w).2 ∧
      Children (scatterNotification conf env i n w).1 (scatterNotification conf env i n w).2 := by
  have hnil : ∀ w : World, Children [] w := fun _ _ hk => absurd hk List.not_mem_nil
  unfold scatterNotification
  split
  · exact ⟨h, hnil w⟩
  · simp only
    refine List.foldlRecOn (motive := fun s : List Nat × World => Held c s.2 ∧ Children s.1 s.2) _ _ ⟨?_, hnil _⟩
      fun s hs r _ => scatterChild_held hs
    split
    · dsimp only
      refine Held.setFlags h ?_
      exact fun a => ⟨rfl, rfl⟩
    · exact h

theorem scatterAllowed_held (h : Held c w) :
    Held c (scatterAllowed conf env n w).2 ∧ Children (scatterAllowed conf env n w).1 (scatterAllowed conf env n w).2 := by
  unfold scatterAllowed
  simp only
  split
  · exact ⟨h, fun _ hk => absurd hk List.not_mem_nil⟩
  · exact scatterNotification_held h

theorem addChildren_held : ∀ {l : List Nat} {w : World}, Held c w → Children l w → Held c (addChildren l w)
  | [], _, h, _ => h
  | k :: l, w, h, hk => by
    have hk0 := hk k List.mem_cons_self
    have hs : Held c (w.setNotificationStatus k .scheduled) := h.setStatus (Or.inr (Or.inl hk0.2))
    refine addChildren_held (l := l) (w := schedulerAdd k (w.setNotificationStatus k .scheduled)) (hs.pick hk0.1) ?_
    intro m hm
    have hm' := hk m (List.mem_cons_of_mem _ hm)
    have hc : ((w.setNotificationStatus k .scheduled).notification m).contact = (w.notification m).contact := by
      show (Function.update w.notification k { w.notification k with status := .scheduled } m).contact = _
      by_cases e : m = k
      · subst e; rw [Function.update_self]
      · rw [Function.update_of_ne e]
    unfold schedulerAdd
    split
    · exact ⟨hm'.1, by rw [hc]; exact hm'.2⟩
    · exact ⟨hm'.1, by rw [hc]; exact hm'.2⟩

theorem Held.close {sent : Bool} (h : Held c w) : Held c (closeMaster env n sent w) := by
  unfold closeMaster
  simp only
  have hend : ∀ w' : World, Held c w' → Held c (
      if (w'.settings (w.notification n).ref).notificationInterval ≠ 0 ∧ (w.notification n).tToGo ≠ none then
        repeatMaster env n w'
      else removeInProgressNotification (w.notification n).ref n w') := by
    intro w' hw'
    split
    · exact hw'.update rfl fun hm => hm
    · exact hw'.remove
  split
  · refine hend _ ?_
    split
    · refine Held.setFlags h ?_
      exact fun a => ⟨rfl, rfl⟩
    · exact h
  · exact h.remove

theorem Held.scatterMaster (h : Held c w) : Held c (scatterMasterNotification conf env w n) := by
  obtain ⟨hs, hkids⟩ : Held c (scatterAllowed conf env n w).2 ∧
      Children (scatterAllowed conf env n w).1 (scatterAllowed conf env n w).2 := scatterAllowed_held h
  exact (addChildren_held hs hkids).close

theorem Held.scatter (h : Held c w) : Held c (scatterMasterNotifications conf env w) :=
  List.foldlRecOn _ _ h fun _ hw _ _ => hw.scatterMaster

/-! ## The runs -/

theorem Held.step {ev : Event} {w' : World} (h : Held none w) (hs : Step conf env w ev w') : Held none w' := by
  rw [hs.after]
  by_cases hev : ev = .scatterMasterNotifications
  · subst hev
    exact h.scatter
  · exact (Held.alerting conf).event hev (fun _ _ => ⟨fun _ => trivial, fun _ => trivial⟩) h

theorem Initial.held (h : Initial w) : Held none w := by
  have hnil : ∀ i, (w.alert i).notificationsInProgress = [] ∧ (w.alert i).actions = [] := by
    intro i
    rw [h.alert i]
    exact ⟨rfl, rfl⟩
  refine ⟨⟨fun i n hn => ?_, fun n hn => ?_, ?_, fun i n hn => ?_, fun n hn => ?_, fun i n hn => ?_⟩,
    fun _ hi => absurd hi (by simp)⟩
  · rw [(hnil i).2] at hn; cases hn
  · rw [h.actions] at hn; cases hn
  · rw [h.actions]; exact List.nodup_nil
  · rw [(hnil i).1] at hn; cases hn
  · rw [h.nextNotification] at hn; cases hn
  · rw [(hnil i).1] at hn; cases hn

theorem Reachable.held (h : Reachable conf w) : Held none w := by
  obtain ⟨w₀, trace, hi, hr⟩ := h
  exact Run.invariant conf (P := fun _ => True) hr (fun _ _ => trivial) hi.held fun w env ev w' hw _ hs => hw.step hs

/-! ## The result -/

def Present (w : World) (i n : Nat) : Prop :=
  n ∈ (w.alert i).notificationsInProgress ∨ n ∈ (w.alert i).actions ∨ n ∈ w.actions ∧ (w.notification n).ref = i

end

theorem one_master_problem (conf : Conf) (w : World) (h : Reachable conf w) (i n m : Nat)
    (hn : Present w i n) (hm : Present w i m) (hnm : (w.notification n).Master) (hmm : (w.notification m).Master) :
    n = m := by
  have hI := h.held.1
  have hprogress : ∀ k, Present w i k → (w.notification k).Master → k ∈ (w.alert i).notificationsInProgress := by
    intro k hk hmaster
    rcases hk with hk | hk | ⟨hk, hr⟩
    · exact hk
    · have ht := hI.tracked k (hI.queued i k hk).1 hmaster.live
      rw [(hI.queued i k hk).2] at ht
      exact ht
    · have ht := hI.tracked k (hI.picked k hk) hmaster.live
      rw [hr] at ht
      exact ht
  exact hI.unique i n (hprogress n hn hnm) m (hprogress m hm hmm) hnm.live hmm.live

/-- A host that goes down at its only attempt has one. -/
theorem one_master_problem_down : ∃ w n, Reachable oneHost w ∧ Present w 0 n ∧ (w.notification n).Master ∧
    ∀ m, Present w 0 m → (w.notification m).Master → n = m := by
  let chk : Check := ⟨0, .scheduled, 2, 10, false, false, []⟩
  let w₁ := receiveResult 0 chk startWorld
  let w₂ := stateAfter (consumeResult oneHost (plainEnv 20) 0 w₁)
  have s₁ : Step oneHost (plainEnv 10) startWorld (.receiveResult 0 chk) w₁ := Step.returned trivial rfl
  have s₂ : Step oneHost (plainEnv 20) w₁ (.consumeResult 0) w₂ := Step.returned (Or.inl rfl) rfl
  have h2 : Run oneHost startWorld _ w₂ := (Run.nil.snoc s₁).snoc s₂
  have hr : Reachable oneHost w₂ := ⟨startWorld, _, startWorld_initial, h2⟩
  have hp : Present w₂ 0 0 := Or.inl (by decide)
  have hm : (w₂.notification 0).Master := ⟨rfl, rfl, by decide⟩
  exact ⟨w₂, 0, hr, hp, hm, fun m hpm hmm => one_master_problem oneHost w₂ hr 0 0 m hp hpm hm hmm⟩

end Alignak.Scheduling