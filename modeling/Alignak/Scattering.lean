import Alignak.NotificationSound

/-!
# What a pass makes of the masters of an item

An item has at most one live master of a problem or of a recovery, so that a
pass scatters one of them at most: its children are the only new notifications
of that kind, and the number and the notified contacts of the item change with
it alone.
-/

namespace Alignak.Scheduling

def Notification.Of (x : Notification) (i : Nat) : Prop := x.ref = i ∧ (x.type = .problem ∨ x.type = .recovery)

/-! ## The children of one master -/

/-- The children `l` of master `x`, for `recipients`, are all that is new. -/
structure Made (i : Nat) (x : Notification) (recipients : List Nat) (w : World) (l : List Nat) (w' : World) : Prop where
  next : w.nextNotification ≤ w'.nextNotification
  mem : ∀ k, k ∈ l ↔ w.nextNotification ≤ k ∧ k < w'.nextNotification
  old : ∀ k < w.nextNotification, w'.notification k = w.notification k
  child : ∀ k ∈ l, (w'.notification k).type = x.type ∧ (w'.notification k).ref = i ∧
    (w'.notification k).status = .scheduled ∧ (w'.notification k).notifNb = x.notifNb ∧
    ∃ u ∈ recipients, (w'.notification k).contact = some u
  number : ∀ j, (w'.alert j).currentNotificationNumber = (w.alert j).currentNotificationNumber
  flapping : ∀ j, (w'.alert j).isFlapping = (w.alert j).isFlapping
  ack : w'.ack = w.ack
  others : ∀ j, j ≠ i ∨ x.type ≠ .problem → (w'.alert j).notifiedContactsIds = (w.alert j).notifiedContactsIds
  notified : x.type = .problem → ∀ u ∈ (w'.alert i).notifiedContactsIds,
    u ∈ (w.alert i).notifiedContactsIds ∨ ∃ k ∈ l, (w'.notification k).contact = some u

variable {w' w'' : World} {p : Nat → Prop} {k m : Nat}

section
variable {conf : Conf} {env : Env} {i n : Nat} {x : Notification} {recipients : List Nat} {w : World}

theorem Made.refl : Made i x recipients w [] w where
  next := Nat.le_refl _
  mem := fun k => by simp
  old := fun _ _ => rfl
  child := fun _ hk => absurd hk List.not_mem_nil
  number := fun _ => rfl
  flapping := fun _ => rfl
  ack := rfl
  others := fun _ _ => rfl
  notified := fun _ _ hu => Or.inl hu

theorem Made.add {l : List Nat} (h : Made i x recipients w l w') (child : Notification) {u : Nat}
    (ht : child.type = x.type ∧ child.ref = i ∧ child.status = .scheduled ∧ child.notifNb = x.notifNb)
    (hu : u ∈ recipients) (hc : child.contact = some u) {f : AlertState → AlertState}
    (hf : ∀ a : AlertState, (f a).currentNotificationNumber = a.currentNotificationNumber ∧ (f a).isFlapping = a.isFlapping)
    (hsame : x.type ≠ .problem → ∀ a : AlertState, (f a).notifiedContactsIds = a.notifiedContactsIds)
    (hnew : ∀ a : AlertState, ∀ v ∈ (f a).notifiedContactsIds, v ∈ a.notifiedContactsIds ∨ v = u) :
    Made i x recipients w (l ++ [w'.nextNotification]) ((addNotification i child w').modifyAlert i f) := by
  have hold : ∀ k < w'.nextNotification, ((addNotification i child w').modifyAlert i f).notification k = w'.notification k :=
    fun k hk => Function.update_of_ne (Nat.ne_of_lt hk) _ _
  have hself : ((addNotification i child w').modifyAlert i f).notification w'.nextNotification = child :=
    Function.update_self ..
  have halert : ∀ j, j ≠ i → ((addNotification i child w').modifyAlert i f).alert j = w'.alert j := by
    intro j hj
    rw [World.modifyAlert_ne _ hj]
    exact Function.update_of_ne hj _ _
  have hi : ((addNotification i child w').modifyAlert i f).alert i =
      f { w'.alert i with notificationsInProgress := (w'.alert i).notificationsInProgress ++ [w'.nextNotification] } := by
    rw [World.modifyAlert_self]
    exact congrArg f (Function.update_self ..)
  refine ⟨Nat.le_succ_of_le h.next, fun k => ?_, fun k hk => ?_, fun k hk => ?_, fun j => ?_, fun j => ?_, h.ack,
    fun j hj => ?_, fun hp v hv => ?_⟩
  · show k ∈ l ++ [w'.nextNotification] ↔ _ ∧ k < w'.nextNotification + 1
    rw [List.mem_append, List.mem_singleton, h.mem k]
    have := h.next
    omega
  · rw [hold k (Nat.lt_of_lt_of_le hk h.next)]
    exact h.old k hk
  · rcases List.mem_append.mp hk with hk | hk
    · rw [hold k ((h.mem k).mp hk).2]
      exact h.child k hk
    · rw [List.mem_singleton.mp hk, hself]
      exact ⟨ht.1, ht.2.1, ht.2.2.1, ht.2.2.2, u, hu, hc⟩
  · by_cases hj : j = i
    · subst hj
      rw [hi, (hf _).1]
      exact h.number j
    · rw [halert j hj]
      exact h.number j
  · by_cases hj : j = i
    · subst hj
      rw [hi, (hf _).2]
      exact h.flapping j
    · rw [halert j hj]
      exact h.flapping j
  · by_cases hji : j = i
    · subst hji
      rw [hi, hsame (hj.resolve_left fun e => e rfl)]
      exact h.others j hj
    · rw [halert j hji]
      exact h.others j hj
  · rw [hi] at hv
    rcases hnew _ v hv with hv | rfl
    · rcases h.notified hp v hv with hv | ⟨k, hk, hkc⟩
      · exact Or.inl hv
      · refine Or.inr ⟨k, List.mem_append_left _ hk, ?_⟩
        rw [hold k ((h.mem k).mp hk).2]
        exact hkc
    · refine Or.inr ⟨w'.nextNotification, List.mem_append_right _ List.mem_cons_self, ?_⟩
      rw [hself]
      exact hc

theorem modifyAlert_id (w : World) (i : Nat) : w.modifyAlert i (fun a => a) = w := by
  unfold World.modifyAlert
  rw [Function.update_eq_self]

theorem scatterChild_made {escalated : Bool} {s : List Nat × World} {r : Nat × Nat} (h : Made i x recipients w s.1 s.2)
    (hn : n < w.nextNotification) (hx : w.notification n = x) (hr : r.1 ∈ recipients) :
    Made i x recipients w (scatterChild env i n escalated s r).1 (scatterChild env i n escalated s r).2 := by
  have hx' : s.2.notification n = x := (h.old n hn).trans hx
  unfold scatterChild
  simp only [hx']
  split
  · split
    · rename_i hp
      refine h.add ⟨x.type, .scheduled, i, some r.1, x.tToGo, x.notifNb, escalated⟩
        (f := fun a => { a with notifiedContactsIds := a.notifiedContactsIds ++ [r.1] }) ⟨rfl, rfl, rfl, rfl⟩ hr rfl
        (fun _ => ⟨rfl, rfl⟩) (fun hne => absurd hp.1 hne) fun a v hv => ?_
      rcases List.mem_append.mp hv with hv | hv
      · exact Or.inl hv
      · exact Or.inr (List.mem_singleton.mp hv)
    · have hadd := h.add ⟨x.type, .scheduled, i, some r.1, x.tToGo, x.notifNb, escalated⟩
        (f := fun a => a) ⟨rfl, rfl, rfl, rfl⟩ hr rfl (fun _ => ⟨rfl, rfl⟩) (fun _ _ => rfl) fun _ _ hv => Or.inl hv
      rw [modifyAlert_id] at hadd
      exact hadd
  · exact h

def forgetNotified (i n : Nat) (w : World) : World :=
  if (w.notification n).type = .recovery then w.modifyAlert i fun a => { a with notifiedContactsIds := [] } else w

theorem scatterNotification_made (hn : n < w.nextNotification) (hc : (w.notification n).contact = none) :
    Made i (w.notification n) (notificationContacts env w i n).1 (forgetNotified i n w)
      (scatterNotification conf env i n w).1 (scatterNotification conf env i n w).2 := by
  have hsame : (forgetNotified i n w).notification = w.notification ∧
      (forgetNotified i n w).nextNotification = w.nextNotification := by
    unfold forgetNotified
    split <;> exact ⟨rfl, rfl⟩
  unfold scatterNotification
  rw [hc]
  simp only [Option.isSome_none, Bool.false_eq_true, if_false]
  show Made i (w.notification n) _ (forgetNotified i n w)
    (List.foldl _ ([], forgetNotified i n w) _).1 (List.foldl _ ([], forgetNotified i n w) _).2
  refine List.foldlRecOn (motive := fun s : List Nat × World => Made i (w.notification n) _ (forgetNotified i n w) s.1 s.2)
    _ _ Made.refl fun s hs r hr => ?_
  refine scatterChild_made hs (by rw [hsame.2]; exact hn) (by rw [hsame.1]) ?_
  obtain ⟨u, hu, hur⟩ := List.mem_flatMap.mp hr
  obtain ⟨cmd, -, rfl⟩ := List.mem_map.mp hur
  exact (List.mem_filter.mp hu).1

/-! ## One master -/

def New (i : Nat) (w w' : World) (k : Nat) : Prop :=
  w.nextNotification ≤ k ∧ k < w'.nextNotification ∧ (w'.notification k).Of i

def Others (i : Nat) (w w' : World) (p : Nat → Prop) : Prop :=
  ∀ k < w.nextNotification, p k → (w.notification k).Of i ∨ (w'.notification k).Of i → w'.notification k = w.notification k

structure Scattered (conf : Conf) (env : Env) (i n : Nat) (w w' : World) : Prop where
  next : w.nextNotification ≤ w'.nextNotification
  old : Others i w w' (· ≠ n)
  master : (w'.notification n).status ≠ .zombie → (w.notification n).type = .problem ∧
    (w'.notification n).notifNb = (w'.alert i).currentNotificationNumber + 1
  type : (w'.notification n).type = (w.notification n).type
  ref : (w'.notification n).ref = (w.notification n).ref
  new : ∀ k, New i w w' k → (w'.notification k).type = (w.notification n).type ∧
    (w'.notification k).notifNb = (w.notification n).notifNb ∧ ∃ u, (w'.notification k).contact = some u ∧
      ((w.notification n).type = .recovery → u ∈ (w.alert i).notifiedContactsIds)
  sent : (w.notification n).type = .problem → (∃ k, New i w w' k) →
    (w'.alert i).currentNotificationNumber = (w.notification n).notifNb
  unsent : (w.notification n).type ≠ .problem ∨ (∀ k, ¬ New i w w' k) →
    (w'.alert i).currentNotificationNumber = (w.alert i).currentNotificationNumber
  notified : (w.notification n).type = .problem → ∀ u ∈ (w'.alert i).notifiedContactsIds,
    u ∈ (w.alert i).notifiedContactsIds ∨ ∃ k, New i w w' k ∧ (w'.notification k).contact = some u
  told : (w.notification n).type = .recovery → (w'.alert i).notifiedContactsIds =
    if isBlockingNotifications conf env w i (w.settings i).notificationPeriod .recovery env.now then
      (w.alert i).notifiedContactsIds else []

theorem setNotificationStatus_self (w : World) (n : Nat) (s : ActStatus) :
    (w.setNotificationStatus n s).notification n = { w.notification n with status := s } := Function.update_self ..

theorem repeatMaster_self (w : World) (n : Nat) : (repeatMaster env n w).notification n = { w.notification n with
    tToGo := some (env.getNextNotificationTime (w.notification n).ref (w.notification n) (w.checkState (w.notification n).ref))
    notifNb := (w.alert (w.notification n).ref).currentNotificationNumber + 1 } := Function.update_self ..

def AlertState.counts (a : AlertState) := (a.currentNotificationNumber, a.notifiedContactsIds, a.isFlapping)

theorem removeInProgressNotification_rest (i n : Nat) (w : World) :
    (removeInProgressNotification i n w).nextNotification = w.nextNotification ∧
    (removeInProgressNotification i n w).ack = w.ack ∧
    (∀ k, k ≠ n → (removeInProgressNotification i n w).notification k = w.notification k) ∧
    (∀ j, ((removeInProgressNotification i n w).alert j).counts = (w.alert j).counts) ∧
    ((removeInProgressNotification i n w).notification n).type = (w.notification n).type ∧
    ((removeInProgressNotification i n w).notification n).ref = (w.notification n).ref := by
  unfold removeInProgressNotification
  split
  · refine ⟨rfl, rfl, fun k hk => Function.update_of_ne hk _ _, fun j => ?_, ?_⟩
    · by_cases hj : j = i
      · subst hj
        rw [World.modifyAlert_self]
        rfl
      · rw [World.modifyAlert_ne _ hj]
        rfl
    · show ((w.setNotificationStatus n .zombie).notification n).type = _ ∧ ((w.setNotificationStatus n .zombie).notification n).ref = _
      rw [setNotificationStatus_self]
      exact ⟨rfl, rfl⟩
  · exact ⟨rfl, rfl, fun _ _ => rfl, fun _ => rfl, rfl, rfl⟩

theorem removeInProgressNotification_zombie {i n : Nat} {w : World} (h : n ∈ (w.alert i).notificationsInProgress) :
    ((removeInProgressNotification i n w).notification n).status = .zombie := by
  unfold removeInProgressNotification
  rw [if_pos h]
  show ((w.setNotificationStatus n .zombie).notification n).status = _
  rw [setNotificationStatus_self]

def takeNumber (n : Nat) (sent : Bool) (w : World) : World :=
  let x := w.notification n
  if x.type = .problem ∧ sent = true then w.modifyAlert x.ref fun a => { a with currentNotificationNumber := x.notifNb }
  else w

theorem takeNumber_rest (sent : Bool) (w : World) : (takeNumber n sent w).nextNotification = w.nextNotification ∧
    (takeNumber n sent w).ack = w.ack ∧ (takeNumber n sent w).notification = w.notification ∧
    (takeNumber n sent w).settings = w.settings ∧
    ∀ j, ((takeNumber n sent w).alert j).notificationsInProgress = (w.alert j).notificationsInProgress ∧
      ((takeNumber n sent w).alert j).notifiedContactsIds = (w.alert j).notifiedContactsIds ∧
      ((takeNumber n sent w).alert j).isFlapping = (w.alert j).isFlapping ∧
      ((takeNumber n sent w).alert j).currentNotificationNumber =
        if j = (w.notification n).ref ∧ (w.notification n).type = .problem ∧ sent = true then (w.notification n).notifNb
        else (w.alert j).currentNotificationNumber := by
  unfold takeNumber
  simp only
  by_cases h : (w.notification n).type = .problem ∧ sent = true
  · rw [if_pos h]
    refine ⟨rfl, rfl, rfl, rfl, fun j => ?_⟩
    by_cases hj : j = (w.notification n).ref
    · subst hj
      rw [World.modifyAlert_self, if_pos ⟨rfl, h⟩]
      exact ⟨rfl, rfl, rfl, rfl⟩
    · rw [World.modifyAlert_ne _ hj, if_neg fun e => hj e.1]
      exact ⟨rfl, rfl, rfl, rfl⟩
  · rw [if_neg h]
    exact ⟨rfl, rfl, rfl, rfl, fun j => ⟨rfl, rfl, rfl, by rw [if_neg fun e => h e.2]⟩⟩

theorem closeMaster_eq (sent : Bool) (w : World) : closeMaster env n sent w =
    if (w.notification n).type = .problem ∧ (w.settings (w.notification n).ref).notificationInterval ≠ 0 ∧
        (w.notification n).tToGo ≠ none then repeatMaster env n (takeNumber n sent w)
    else removeInProgressNotification (w.notification n).ref n (takeNumber n sent w) := by
  unfold closeMaster takeNumber
  simp only
  by_cases hp : (w.notification n).type = .problem
  · cases sent
    · simp [hp]
    · simp only [hp, true_and, if_true]
      rfl
  · simp [hp]

theorem closeMaster_rest (env : Env) (n : Nat) (sent : Bool) (w : World) :
    (closeMaster env n sent w).nextNotification = w.nextNotification ∧ (closeMaster env n sent w).ack = w.ack ∧
    (∀ k, k ≠ n → (closeMaster env n sent w).notification k = w.notification k) ∧
    (∀ j, ((closeMaster env n sent w).alert j).counts = ((takeNumber n sent w).alert j).counts) ∧
    ((closeMaster env n sent w).notification n).type = (w.notification n).type ∧
    ((closeMaster env n sent w).notification n).ref = (w.notification n).ref := by
  obtain ⟨h1, h2, h3, -, -⟩ := takeNumber_rest (n := n) sent w
  rw [closeMaster_eq]
  split
  · refine ⟨h1, h2, fun k hk => ?_, fun _ => rfl, ?_⟩
    · rw [← h3]
      exact Function.update_of_ne hk _ _
    · rw [repeatMaster_self, h3]
      exact ⟨rfl, rfl⟩
  · obtain ⟨g1, g2, g3, g4, g5⟩ := removeInProgressNotification_rest (w.notification n).ref n (takeNumber n sent w)
    refine ⟨g1.trans h1, g2.trans h2, fun k hk => ?_, g4, ?_⟩
    · rw [g3 k hk, h3]
    · rw [g5.1, g5.2, h3]
      exact ⟨rfl, rfl⟩

theorem closeMaster_master (env : Env) (n : Nat) (sent : Bool) (w : World) (h : n ∈ (w.alert (w.notification n).ref).notificationsInProgress)
    (hz : ((closeMaster env n sent w).notification n).status ≠ .zombie) : (w.notification n).type = .problem ∧
    ((closeMaster env n sent w).notification n).notifNb =
      ((closeMaster env n sent w).alert (w.notification n).ref).currentNotificationNumber + 1 := by
  obtain ⟨-, -, h3, -, h5⟩ := takeNumber_rest (n := n) sent w
  rw [closeMaster_eq] at hz ⊢
  split
  · rename_i hc
    refine ⟨hc.1, ?_⟩
    rw [repeatMaster_self, h3]
    rfl
  · rename_i hc
    rw [if_neg hc] at hz
    refine absurd (removeInProgressNotification_zombie ?_) hz
    rw [(h5 _).1]
    exact h

theorem setNotificationStatus_same {w : World} {n : Nat} {s : ActStatus} (h : (w.notification n).status = s) :
    w.setNotificationStatus n s = w := by
  unfold World.setNotificationStatus
  rw [← h, Function.update_eq_self]

theorem addChildren_eq : ∀ {l : List Nat} {w : World}, (∀ k ∈ l, (w.notification k).status = .scheduled) →
    ∃ acts, addChildren l w = { w with actions := acts }
  | [], w, _ => ⟨w.actions, rfl⟩
  | k :: l, w, h => by
    show ∃ acts, addChildren l (schedulerAdd k (w.setNotificationStatus k .scheduled)) = _
    rw [setNotificationStatus_same (h k List.mem_cons_self)]
    have hl : ∀ m ∈ l, (w.notification m).status = .scheduled := fun m hm => h m (List.mem_cons_of_mem _ hm)
    unfold schedulerAdd
    split
    · exact addChildren_eq hl
    · obtain ⟨acts, he⟩ := addChildren_eq (w := { w with actions := w.actions ++ [k] }) hl
      exact ⟨acts, he⟩

def beforeChildren (conf : Conf) (env : Env) (n : Nat) (w : World) : World :=
  let x := w.notification n
  if isBlockingNotifications conf env w x.ref (w.settings x.ref).notificationPeriod x.type env.now then w
  else forgetNotified x.ref n w

theorem scatterAllowed_made (conf : Conf) (env : Env) (hn : n < w.nextNotification) (hc : (w.notification n).contact = none) :
    Made (w.notification n).ref (w.notification n) (notificationContacts env w (w.notification n).ref n).1
      (beforeChildren conf env n w) (scatterAllowed conf env n w).1 (scatterAllowed conf env n w).2 := by
  unfold scatterAllowed beforeChildren
  simp only
  split
  · exact Made.refl
  · exact scatterNotification_made hn hc

theorem scatterMasterNotification_eq (conf : Conf) (env : Env) (hn : n < w.nextNotification) (hc : (w.notification n).contact = none) :
    ∃ acts, scatterMasterNotification conf env w n =
      closeMaster env n ((scatterAllowed conf env n w).1 != []) { (scatterAllowed conf env n w).2 with actions := acts } := by
  have hmade := scatterAllowed_made conf env hn hc
  obtain ⟨acts, he⟩ := addChildren_eq fun k hk => (hmade.child k hk).2.2.1
  refine ⟨acts, ?_⟩
  unfold scatterMasterNotification
  simp only
  rw [he]

theorem beforeChildren_rest (conf : Conf) (env : Env) (n : Nat) (w : World) :
    (beforeChildren conf env n w).notification = w.notification ∧
    (beforeChildren conf env n w).nextNotification = w.nextNotification ∧ (beforeChildren conf env n w).ack = w.ack ∧
    ∀ j, ((beforeChildren conf env n w).alert j).currentNotificationNumber = (w.alert j).currentNotificationNumber ∧
      ((beforeChildren conf env n w).alert j).isFlapping = (w.alert j).isFlapping ∧
      (j ≠ (w.notification n).ref ∨ (w.notification n).type ≠ .recovery →
        ((beforeChildren conf env n w).alert j).notifiedContactsIds = (w.alert j).notifiedContactsIds) := by
  unfold beforeChildren forgetNotified
  simp only
  split
  · exact ⟨rfl, rfl, rfl, fun _ => ⟨rfl, rfl, fun _ => rfl⟩⟩
  · split
    · rename_i hr
      refine ⟨rfl, rfl, rfl, fun j => ?_⟩
      by_cases hj : j = (w.notification n).ref
      · subst hj
        rw [World.modifyAlert_self]
        exact ⟨rfl, rfl, fun h => absurd hr (h.resolve_left fun e => e rfl)⟩
      · rw [World.modifyAlert_ne _ hj]
        exact ⟨rfl, rfl, fun _ => rfl⟩
    · exact ⟨rfl, rfl, rfl, fun _ => ⟨rfl, rfl, fun _ => rfl⟩⟩

theorem beforeChildren_told (h : (w.notification n).type = .recovery) :
    ((beforeChildren conf env n w).alert (w.notification n).ref).notifiedContactsIds =
      if isBlockingNotifications conf env w (w.notification n).ref (w.settings (w.notification n).ref).notificationPeriod
        .recovery env.now then (w.alert (w.notification n).ref).notifiedContactsIds else [] := by
  unfold beforeChildren forgetNotified
  simp only [h, if_true]
  split
  · rfl
  · rw [World.modifyAlert_self]

theorem recovery_contacts (h : (w.notification n).type = .recovery) :
    ∀ u ∈ (notificationContacts env w i n).1, u ∈ (w.alert i).notifiedContactsIds := by
  unfold notificationContacts
  simp only [h, if_true]
  intro u hu
  split at hu
  · exact absurd hu List.not_mem_nil
  · exact hu

theorem scatterMasterNotification_scattered (conf : Conf) (env : Env) (h : Held none w) (hn : n < w.nextNotification)
    (hlive : (w.notification n).Live) : Scattered conf env (w.notification n).ref n w
      (scatterMasterNotification conf env w n) := by
  obtain ⟨acts, he⟩ := scatterMasterNotification_eq conf env hn hlive.2.1
  have hm := scatterAllowed_made conf env hn hlive.2.1
  have hin : n ∈ (((scatterAllowed conf env n w).2).alert (w.notification n).ref).notificationsInProgress := by
    have hheld : OneMaster (scatterAllowed conf env n w).2 := (scatterAllowed_held h).1.1
    have hold : (scatterAllowed conf env n w).2.notification n = w.notification n := by
      rw [hm.old n (by rw [(beforeChildren_rest conf env n w).2.1]; exact hn), (beforeChildren_rest conf env n w).1]
    have ht := hheld.tracked n
    rw [hold] at ht
    refine ht (Nat.lt_of_lt_of_le hn ?_) hlive
    have hnext := hm.next
    rw [(beforeChildren_rest conf env n w).2.1] at hnext
    exact hnext
  rw [he]
  generalize (scatterAllowed conf env n w).1 = l at hm ⊢
  generalize (scatterAllowed conf env n w).2 = w₁ at hm hin ⊢
  obtain ⟨b1, b2, -, b4⟩ := beforeChildren_rest conf env n w
  have hnext := hm.next
  rw [b2] at hnext
  have hold : ∀ k < w.nextNotification, w₁.notification k = w.notification k := by
    intro k hk
    rw [hm.old k (by rw [b2]; exact hk), b1]
  obtain ⟨c1, -, c3, c4, c5⟩ := closeMaster_rest env n (l != []) { w₁ with actions := acts }
  obtain ⟨-, -, -, -, t5⟩ := takeNumber_rest (n := n) (l != []) { w₁ with actions := acts }
  have hcounts : ∀ j, ((closeMaster env n (l != []) { w₁ with actions := acts }).alert j).notifiedContactsIds =
        (w₁.alert j).notifiedContactsIds ∧
      ((closeMaster env n (l != []) { w₁ with actions := acts }).alert j).currentNotificationNumber =
        if j = (w.notification n).ref ∧ (w.notification n).type = .problem ∧ (l != []) = true then (w.notification n).notifNb
        else (w.alert j).currentNotificationNumber := by
    intro j
    have hc := c4 j
    simp only [AlertState.counts, Prod.mk.injEq] at hc
    obtain ⟨-, ht2, -, ht4⟩ := t5 j
    refine ⟨hc.2.1.trans ht2, ?_⟩
    rw [hc.1, ht4]
    show (if j = (w₁.notification n).ref ∧ (w₁.notification n).type = .problem ∧ (l != []) = true then
      (w₁.notification n).notifNb else (w₁.alert j).currentNotificationNumber) = _
    rw [hold n hn, hm.number j, (b4 j).1]
  have hkid : ∀ k ∈ l, New (w.notification n).ref w (closeMaster env n (l != []) { w₁ with actions := acts }) k ∧
      (closeMaster env n (l != []) { w₁ with actions := acts }).notification k = w₁.notification k := by
    intro k hk
    have hlt := (hm.mem k).mp hk
    rw [b2] at hlt
    have he : (closeMaster env n (l != []) { w₁ with actions := acts }).notification k = w₁.notification k := c3 k (by omega)
    obtain ⟨e1, e2, -⟩ := hm.child k hk
    refine ⟨⟨hlt.1, by rw [c1]; exact hlt.2, ?_⟩, he⟩
    rw [he]
    exact ⟨e2, by rw [e1]; exact hlive.1⟩
  have hmem : ∀ k, New (w.notification n).ref w (closeMaster env n (l != []) { w₁ with actions := acts }) k → k ∈ l := by
    intro k hk
    have hlt := hk.2.1
    rw [c1] at hlt
    exact (hm.mem k).mpr ⟨by rw [b2]; exact hk.1, hlt⟩
  refine ⟨by rw [c1]; exact hnext, fun k hk hne _ => ?_, fun hz => ?_, ?_, ?_, fun k hk => ?_, fun hp hlt => ?_,
    fun hp => ?_, fun hp u hu => ?_, fun hr => ?_⟩
  · rw [c3 k hne]
    exact hold k hk
  · have hmaster := closeMaster_master env n (l != []) { w₁ with actions := acts }
    have hx : ({ w₁ with actions := acts } : World).notification n = w.notification n := hold n hn
    rw [hx] at hmaster
    exact hmaster hin hz
  · rw [c5.1]
    exact congrArg Notification.type (hold n hn)
  · rw [c5.2]
    exact congrArg Notification.ref (hold n hn)
  · obtain ⟨e1, -, -, e4, u, hu, e5⟩ := hm.child k (hmem k hk)
    rw [(hkid k (hmem k hk)).2]
    exact ⟨e1, e4, u, e5, fun hr => recovery_contacts hr u hu⟩
  · obtain ⟨k, hk⟩ := hlt
    have hne : l ≠ [] := List.ne_nil_of_mem (hmem k hk)
    rw [(hcounts _).2, if_pos ⟨rfl, hp, by simpa using hne⟩]
  · rw [(hcounts _).2, if_neg]
    rintro ⟨-, hp', hl⟩
    obtain ⟨k, hk⟩ := List.exists_mem_of_ne_nil l (by simpa using hl)
    exact hp.elim (fun hp => hp hp') fun hp => hp k (hkid k hk).1
  · rw [(hcounts _).1] at hu
    rcases hm.notified hp u hu with hu | ⟨k, hk, hkc⟩
    · rw [(b4 _).2.2 (Or.inr (by rw [hp]; decide))] at hu
      exact Or.inl hu
    · refine Or.inr ⟨k, (hkid k hk).1, ?_⟩
      rw [(hkid k hk).2]
      exact hkc
  · rw [(hcounts _).1, hm.others _ (Or.inr (by rw [hr]; decide))]
    exact beforeChildren_told hr

structure Idle (i : Nat) (w w' : World) : Prop where
  next : w.nextNotification ≤ w'.nextNotification
  old : Others i w w' fun _ => True
  new : ∀ k, ¬ New i w w' k
  number : (w'.alert i).currentNotificationNumber = (w.alert i).currentNotificationNumber
  notified : (w'.alert i).notifiedContactsIds = (w.alert i).notifiedContactsIds
  quiet : w'.quiet = w.quiet
  ack : w'.ack = w.ack
  flapping : ∀ j, (w'.alert j).isFlapping = (w.alert j).isFlapping

theorem scatterMasterNotification_idle (conf : Conf) (env : Env) (hn : n < w.nextNotification) (hc : (w.notification n).contact = none)
    (hof : ¬ (w.notification n).Of i) : Idle i w (scatterMasterNotification conf env w n) := by
  have hquiet : (scatterMasterNotification conf env w n).quiet = w.quiet :=
    quiet_of_still (scatterMasterNotification_still n w)
  obtain ⟨acts, he⟩ := scatterMasterNotification_eq conf env hn hc
  have hm := scatterAllowed_made conf env hn hc
  rw [he] at hquiet ⊢
  generalize (scatterAllowed conf env n w).1 = l at hm hquiet ⊢
  generalize (scatterAllowed conf env n w).2 = w₁ at hm hquiet ⊢
  obtain ⟨b1, b2, b3, b4⟩ := beforeChildren_rest conf env n w
  have hnext := hm.next
  rw [b2] at hnext
  have hold : ∀ k < w.nextNotification, w₁.notification k = w.notification k := by
    intro k hk
    rw [hm.old k (by rw [b2]; exact hk), b1]
  obtain ⟨c1, c2, c3, c4, c5⟩ := closeMaster_rest env n (l != []) { w₁ with actions := acts }
  obtain ⟨-, -, -, -, t5⟩ := takeNumber_rest (n := n) (l != []) { w₁ with actions := acts }
  have hcounts := fun j => c4 j
  simp only [AlertState.counts, Prod.mk.injEq] at hcounts
  have hother : i ≠ (w.notification n).ref ∨ (w.notification n).type ≠ .problem ∧ (w.notification n).type ≠ .recovery := by
    by_cases hi : i = (w.notification n).ref
    · exact Or.inr ⟨fun e => hof ⟨hi.symm, Or.inl e⟩, fun e => hof ⟨hi.symm, Or.inr e⟩⟩
    · exact Or.inl hi
  refine ⟨by rw [c1]; exact hnext, fun k hk _ hkof => ?_, fun k hk => ?_, ?_, ?_, hquiet, ?_, fun j => ?_⟩
  · have hne : k ≠ n := by
      rintro rfl
      refine hkof.elim hof fun hkof => hof ?_
      unfold Notification.Of at hkof
      rw [c5.1, c5.2] at hkof
      rw [← hold k hn]
      exact hkof
    rw [c3 k hne]
    exact hold k hk
  · obtain ⟨hle, hlt, hkof⟩ := hk
    rw [c1] at hlt
    obtain ⟨e1, e2, -⟩ := hm.child k ((hm.mem k).mpr ⟨by rw [b2]; exact hle, hlt⟩)
    rw [c3 k (by omega)] at hkof
    obtain ⟨hr, ht⟩ := hkof
    refine hof ⟨e2.symm.trans hr, ?_⟩
    rw [← e1]
    exact ht
  · have h4 := (t5 i).2.2.2
    rw [(hcounts i).1, h4]
    show (if i = (w₁.notification n).ref ∧ (w₁.notification n).type = .problem ∧ (l != []) = true then
      (w₁.notification n).notifNb else (w₁.alert i).currentNotificationNumber) = _
    rw [hold n hn, if_neg, hm.number i, (b4 i).1]
    rintro ⟨hi, hp, -⟩
    exact hof ⟨hi.symm, Or.inl hp⟩
  · rw [(hcounts i).2.1, (t5 i).2.1]
    show (w₁.alert i).notifiedContactsIds = _
    rw [hm.others i (hother.imp id And.left), (b4 i).2.2 (hother.imp id And.right)]
  · rw [c2]
    exact hm.ack.trans b3
  · rw [(hcounts j).2.2, (t5 j).2.2.1]
    exact (hm.flapping j).trans (b4 j).2.1

theorem Idle.refl : Idle i w w where
  next := Nat.le_refl _
  old := fun _ _ _ _ => rfl
  new := fun _ hk => absurd hk.1 (Nat.not_le_of_lt hk.2.1)
  number := rfl
  notified := rfl
  quiet := rfl
  ack := rfl
  flapping := fun _ => rfl

/-! ## The pass -/

theorem isBlockingNotifications_congr (hq : w'.quiet = w.quiet) (ha : w'.ack = w.ack)
    (hf : ∀ j, (w'.alert j).isFlapping = (w.alert j).isFlapping) :
    isBlockingNotifications conf env w' i = isBlockingNotifications conf env w i := by
  obtain ⟨h1, h2, h3, h4, -⟩ := World.quiet_eq hq
  have hb : businessRuleNotificationIsBlocked conf w' = businessRuleNotificationIsBlocked conf w := by
    funext j
    simp only [businessRuleNotificationIsBlocked, h1, h2, h3, h4, ha]
  unfold isBlockingNotifications
  cases conf.myType i
  · funext period t tWished
    simp only [Host.isBlockingNotifications, blockedByBusinessRule, hb, h1, h2, h4, ha, hf]
  · funext period t tWished
    simp only [Service.isBlockingNotifications, blockedByBusinessRule, hb, h1, h2, h4, ha, hf]

theorem Others.trans (h : Others i w w' p) (h' : Others i w' w'' p)
    (hle : w.nextNotification ≤ w'.nextNotification) : Others i w w'' p := by
  intro k hk hp hof
  have hmid : (w'.notification k).Of i := by
    rcases hof with hof | hof
    · rw [h k hk hp (Or.inl hof)]
      exact hof
    · rw [← h' k (Nat.lt_of_lt_of_le hk hle) hp (Or.inr hof)]
      exact hof
  rw [h' k (Nat.lt_of_lt_of_le hk hle) hp (Or.inl hmid), h k hk hp (Or.inr hmid)]

theorem Others.weaken {q : Nat → Prop} (h : Others i w w' p) (hq : ∀ k, q k → p k) : Others i w w' q :=
  fun k hk hqk => h k hk (hq k hqk)

/-- A new notification was new before the second step, or is new since. -/
theorem New.cases (h : New i w w'' k) (ho : Others i w' w'' p)
    (hp : k < w'.nextNotification → p k) : New i w w' k ∧ w''.notification k = w'.notification k ∨ New i w' w'' k := by
  by_cases hlt : k < w'.nextNotification
  · have he := ho k hlt (hp hlt) (Or.inr h.2.2)
    refine Or.inl ⟨⟨h.1, hlt, ?_⟩, he⟩
    rw [← he]
    exact h.2.2
  · exact Or.inr ⟨Nat.le_of_not_lt hlt, h.2⟩

theorem New.trans (h : New i w' w'' k) (hle : w.nextNotification ≤ w'.nextNotification) :
    New i w w'' k := ⟨Nat.le_trans hle h.1, h.2⟩

theorem New.old (h : New i w w' k) (ho : Others i w' w'' p) (hp : p k)
    (hle : w'.nextNotification ≤ w''.nextNotification) :
    New i w w'' k ∧ w''.notification k = w'.notification k := by
  have he := ho k h.2.1 hp (Or.inl h.2.2)
  refine ⟨⟨h.1, Nat.lt_of_lt_of_le h.2.1 hle, ?_⟩, he⟩
  rw [he]
  exact h.2.2

theorem Idle.trans (h : Idle i w w') (h' : Idle i w' w'') : Idle i w w'' where
  next := Nat.le_trans h.next h'.next
  old := h.old.trans h'.old h.next
  new := fun k hk => (hk.cases h'.old fun _ => trivial).elim (fun hk => h.new k hk.1) (h'.new k)
  number := h'.number.trans h.number
  notified := h'.notified.trans h.notified
  quiet := h'.quiet.trans h.quiet
  ack := h'.ack.trans h.ack
  flapping := fun j => (h'.flapping j).trans (h.flapping j)

theorem Scattered.after (h : Idle i w w') (hs : Scattered conf env i n w' w'') (hn : n < w.nextNotification)
    (hof : (w.notification n).Of i) : Scattered conf env i n w w'' := by
  have hx : w'.notification n = w.notification n := h.old n hn trivial (Or.inl hof)
  have hnew : ∀ k, New i w w'' k → New i w' w'' k := by
    intro k hk
    have hne : k ≠ n := fun e => absurd hk.1 (by omega)
    exact (hk.cases hs.old fun _ => hne).resolve_left fun hk => h.new k hk.1
  obtain ⟨hnext, a, c, t, r, d, e, f, g, b⟩ := hs
  rw [hx] at c t r d e f g b
  rw [h.notified] at d g b
  refine ⟨Nat.le_trans h.next hnext, (h.old.weaken fun _ _ => trivial).trans a h.next, c, t, r, fun k hk => d k (hnew k hk),
    fun hp hk => e hp (hk.imp hnew), fun hp => ?_, fun hp u hu => ?_, fun hr => ?_⟩
  · rw [f (hp.imp id fun hp k hk => hp k (hk.trans h.next)), h.number]
  · exact (g hp u hu).imp id fun ⟨k, hk, hkc⟩ => ⟨k, hk.trans h.next, hkc⟩
  · rw [b hr, isBlockingNotifications_congr h.quiet h.ack h.flapping, (World.quiet_eq h.quiet).1]

theorem Scattered.before (hs : Scattered conf env i n w w') (h : Idle i w' w'') (hn : n < w.nextNotification)
    (hof : (w.notification n).Of i) : Scattered conf env i n w w'' := by
  have hn' : n < w'.nextNotification := Nat.lt_of_lt_of_le hn hs.next
  have hx : w''.notification n = w'.notification n := by
    refine h.old n hn' trivial (Or.inl ⟨?_, ?_⟩)
    · rw [hs.ref]
      exact hof.1
    · rw [hs.type]
      exact hof.2
  have hnew : ∀ k, New i w w'' k → New i w w' k ∧ w''.notification k = w'.notification k := fun k hk =>
    (hk.cases h.old fun _ => trivial).resolve_right (h.new k)
  have hback : ∀ k, New i w w' k → New i w w'' k ∧ w''.notification k = w'.notification k := fun k hk =>
    hk.old h.old trivial h.next
  obtain ⟨hnext, a, c, t, r, d, e, f, g, b⟩ := hs
  refine ⟨Nat.le_trans hnext h.next, a.trans (h.old.weaken fun _ _ => trivial) hnext, ?_, ?_, ?_, fun k hk => ?_,
    fun hp hk => ?_, fun hp => ?_, fun hp u hu => ?_, fun hr => ?_⟩
  · rw [hx, h.number]
    exact c
  · rw [hx]
    exact t
  · rw [hx]
    exact r
  · rw [(hnew k hk).2]
    exact d k (hnew k hk).1
  · rw [h.number]
    exact e hp (hk.imp fun k hk => (hnew k hk).1)
  · rw [h.number]
    exact f (hp.imp id fun hp k hk => hp k (hback k hk).1)
  · rw [h.notified] at hu
    refine (g hp u hu).imp id fun ⟨k, hk, hkc⟩ => ⟨k, (hback k hk).1, ?_⟩
    rw [(hback k hk).2]
    exact hkc
  · rw [h.notified]
    exact b hr

inductive Passed (conf : Conf) (env : Env) (i : Nat) (w w' : World) : Prop
  | idle (h : Idle i w w')
  | scattered (n : Nat) (hn : n < w.nextNotification) (hlive : (w.notification n).Live) (href : (w.notification n).ref = i)
      (hdue : isLaunchable (w.notification n) env.now = true) (hs : Scattered conf env i n w w')

theorem scatterMasterNotification_frame (conf : Conf) (env : Env) (hn : n < w.nextNotification) (hc : (w.notification n).contact = none) :
    w.nextNotification ≤ (scatterMasterNotification conf env w n).nextNotification ∧
    ∀ k < w.nextNotification, k ≠ n → (scatterMasterNotification conf env w n).notification k = w.notification k := by
  obtain ⟨acts, he⟩ := scatterMasterNotification_eq conf env hn hc
  have hm := scatterAllowed_made conf env hn hc
  obtain ⟨b1, b2, -⟩ := beforeChildren_rest conf env n w
  have hnext := hm.next
  rw [b2] at hnext
  obtain ⟨c1, -, c3, -⟩ := closeMaster_rest env n ((scatterAllowed conf env n w).1 != [])
    { (scatterAllowed conf env n w).2 with actions := acts }
  rw [he]
  refine ⟨by rw [c1]; exact hnext, fun k hk hne => ?_⟩
  rw [c3 k hne]
  show (scatterAllowed conf env n w).2.notification k = _
  rw [hm.old k (by rw [b2]; exact hk), b1]

def Due (env : Env) (w : World) (n : Nat) : Prop :=
  n < w.nextNotification ∧ (w.notification n).status = .scheduled ∧ (w.notification n).contact = none ∧
    isLaunchable (w.notification n) env.now = true

theorem Due.next (h : Due env w n) (hm : Due env w m) (hne : n ≠ m) :
    Due env (scatterMasterNotification conf env w m) n := by
  obtain ⟨hnext, hold⟩ := scatterMasterNotification_frame conf env hm.1 hm.2.2.1
  have he := hold n h.1 hne
  unfold Due
  rw [he]
  exact ⟨Nat.lt_of_lt_of_le h.1 hnext, h.2⟩

theorem idle_foldl : ∀ (l : List Nat) (w : World), l.Nodup → (∀ n ∈ l, Due env w n ∧ ¬ (w.notification n).Of i) →
    Idle i w (l.foldl (scatterMasterNotification conf env) w)
  | [], _, _, _ => Idle.refl
  | m :: l, w, hd, h => by
    obtain ⟨hm, hd⟩ := List.nodup_cons.mp hd
    obtain ⟨hdue, hof⟩ := h m List.mem_cons_self
    have hstep : Idle i w (scatterMasterNotification conf env w m) := scatterMasterNotification_idle conf env hdue.1 hdue.2.2.1 hof
    refine hstep.trans (idle_foldl l _ hd fun n hn => ?_)
    obtain ⟨hndue, hnof⟩ := h n (List.mem_cons_of_mem _ hn)
    have hne : n ≠ m := by
      rintro rfl
      exact hm hn
    refine ⟨hndue.next hdue hne, ?_⟩
    rw [(scatterMasterNotification_frame conf env hdue.1 hdue.2.2.1).2 n hndue.1 hne]
    exact hnof

theorem Held.due_eq (h : Held none w) (hn : Due env w n) (hm : Due env w m) (hni : (w.notification n).Of i)
    (hmi : (w.notification m).Of i) : n = m := by
  have hlive : ∀ k, Due env w k → (w.notification k).Of i →
      (w.notification k).Live ∧ k ∈ (w.alert i).notificationsInProgress := by
    intro k hk hki
    have hl : (w.notification k).Live := ⟨hki.2, hk.2.2.1, by rw [hk.2.1]; decide⟩
    have ht := h.1.tracked k hk.1 hl
    rw [hki.1] at ht
    exact ⟨hl, ht⟩
  exact h.1.unique i n (hlive n hn hni).2 m (hlive m hm hmi).2 (hlive n hn hni).1 (hlive m hm hmi).1

theorem passed_foldl : ∀ (l : List Nat) (w : World), Held none w → l.Nodup → (∀ n ∈ l, Due env w n) →
    Passed conf env i w (l.foldl (scatterMasterNotification conf env) w)
  | [], _, _, _, _ => .idle Idle.refl
  | m :: l, w, hw, hd, h => by
    obtain ⟨hm, hd⟩ := List.nodup_cons.mp hd
    have hdue := h m List.mem_cons_self
    have hrest : ∀ n ∈ l, n ≠ m ∧ Due env w n := by
      intro n hn
      refine ⟨?_, h n (List.mem_cons_of_mem _ hn)⟩
      rintro rfl
      exact hm hn
    by_cases hof : (w.notification m).Of i
    · have hlive : (w.notification m).Live := ⟨hof.2, hdue.2.2.1, by rw [hdue.2.1]; decide⟩
      have hs := scatterMasterNotification_scattered conf env hw hdue.1 hlive
      rw [hof.1] at hs
      refine .scattered m hdue.1 hlive hof.1 hdue.2.2.2 (hs.before (idle_foldl l _ hd fun n hn => ?_) hdue.1 hof)
      obtain ⟨hne, hndue⟩ := hrest n hn
      refine ⟨hndue.next hdue hne, fun hnof => hne ?_⟩
      rw [(scatterMasterNotification_frame conf env hdue.1 hdue.2.2.1).2 n hndue.1 hne] at hnof
      exact hw.due_eq hndue hdue hnof hof
    · have hstep : Idle i w (scatterMasterNotification conf env w m) := scatterMasterNotification_idle conf env hdue.1 hdue.2.2.1 hof
      have hw' : Held none (scatterMasterNotification conf env w m) := hw.scatterMaster
      have hpass := passed_foldl l _ hw' hd
        fun n hn => (hrest n hn).2.next hdue (hrest n hn).1
      cases hpass with
      | idle hi => exact .idle (hstep.trans hi)
      | scattered n hn hlive href hlaunch hs =>
        have hnof : ((scatterMasterNotification conf env w m).notification n).Of i := ⟨href, hlive.1⟩
        have hlt : n < w.nextNotification := by
          refine Nat.lt_of_not_le fun hle => hstep.new n ⟨hle, hn, hnof⟩
        have he := hstep.old n hlt trivial (Or.inr hnof)
        rw [he] at hlive href hlaunch hnof
        exact .scattered n hlt hlive href hlaunch (hs.after hstep hlt hnof)

theorem Held.passed (h : Held none w) : Passed conf env i w (scatterMasterNotifications conf env w) := by
  refine passed_foldl _ w h (h.1.nodup.filter _) fun n hn => ?_
  obtain ⟨hmem, hc⟩ := List.mem_filter.mp hn
  simp only [Bool.and_eq_true, beq_iff_eq, Option.isNone_iff_eq_none] at hc
  exact ⟨h.1.picked n hmem, hc.1.1, hc.1.2, hc.2⟩

theorem Held.live_eq (h : Held none w) (hn : n < w.nextNotification) (hm : m < w.nextNotification)
    (hnl : (w.notification n).Live) (hml : (w.notification m).Live) (hni : (w.notification n).ref = i)
    (hmi : (w.notification m).ref = i) : m = n := by
  have hnt := h.1.tracked n hn hnl
  have hmt := h.1.tracked m hm hml
  rw [hni] at hnt
  rw [hmi] at hmt
  exact h.1.unique i m hmt n hnt hml hnl

theorem Scattered.live_eq (hs : Scattered conf env i n w w') (h : Held none w)
    (hn : n < w.nextNotification) (hlive : (w.notification n).Live) (href : (w.notification n).ref = i)
    (hm : m < w'.nextNotification) (hml : (w'.notification m).Live) (hmi : (w'.notification m).ref = i) : m = n := by
  have hof : (w'.notification m).Of i := ⟨hmi, hml.1⟩
  by_contra hne
  by_cases hlt : m < w.nextNotification
  · have he := hs.old m hlt hne (Or.inr hof)
    rw [he] at hml hmi
    exact hne (h.live_eq hn hlt hlive hml href hmi)
  · obtain ⟨-, -, u, hu, -⟩ := hs.new m ⟨Nat.le_of_not_lt hlt, hm, hof⟩
    rw [hml.2.1] at hu
    cases hu

end

end Alignak.Scheduling
