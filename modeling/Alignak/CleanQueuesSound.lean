import Alignak.CleanQueues

/-!
# Cleaned queues

The checks are dropped one after the other; what has been dropped is told to
the checks that wait for it, and the rest of the references stays as it was.
-/

namespace Alignak.Cleaning

open Scheduling

/-! ## Exceptions -/

section
variable {x : Except Exn Queues} {e : Exn} {P : Prop} {Q : Queues → Prop}

theorem raised_not (h : (∃ s, x = .ok s) ↔ P) (hx : x = .error e) : ¬ P := by
  intro hp
  obtain ⟨s, hs⟩ := h.mpr hp
  rw [hx] at hs
  cases hs

/-- A step that raises returns just where `P` holds, if that is nowhere, and
leaves nothing to be said of its result. -/
theorem raised_spec (hx : x = .error e) (hp : ¬ P) : ((∃ s, x = .ok s) ↔ P) ∧ ∀ s, x = .ok s → Q s := by
  subst hx
  refine ⟨⟨?_, fun h => absurd h hp⟩, ?_⟩
  · rintro ⟨s, hs⟩
    cases hs
  · rintro s hs
    cases hs

end

/-! ## The oldest elements -/

section
variable {α : Type} {creationTime : α → Rat} {limit : Nat} {l : List α}

theorem byCreationTime_perm : (byCreationTime creationTime l).Perm l := List.perm_insertionSort _ _

theorem byCreationTime_sorted : (byCreationTime creationTime l).Pairwise fun a b => creationTime a ≤ creationTime b := by
  have : Std.Total fun a b : α => creationTime a ≤ creationTime b := ⟨fun a b => le_total _ _⟩
  have : IsTrans α fun a b : α => creationTime a ≤ creationTime b := ⟨fun a b c => le_trans⟩
  exact List.pairwise_insertionSort _ l

theorem toDel_eq (h : limit ≠ 0 ∧ limit < l.length) : toDel creationTime limit l = (byCreationTime creationTime l).take (l.length - limit) :=
  if_pos h

theorem toDel_nil (h : ¬ (limit ≠ 0 ∧ limit < l.length)) : toDel creationTime limit l = [] := if_neg h

theorem toDel_sub {a : α} (h : a ∈ toDel creationTime limit l) : a ∈ l := by
  unfold toDel at h
  split at h
  · exact byCreationTime_perm.mem_iff.mp (List.mem_of_mem_take h)
  · cases h

theorem toDel_nodup (hl : l.Nodup) : (toDel creationTime limit l).Nodup := by
  unfold toDel
  split
  · exact (byCreationTime_perm.nodup_iff.mpr hl).sublist (List.take_sublist _ _)
  · exact List.nodup_nil

theorem filter_notMem_left [DecidableEq α] {s t : List α} (h : (s ++ t).Nodup) : (s ++ t).filter (· ∉ s) = t := by
  have hdisj := List.disjoint_of_nodup_append h
  rw [List.filter_append, List.filter_eq_nil_iff.mpr fun a ha => by simpa using ha, List.nil_append]
  exact List.filter_eq_self.mpr fun a ha => by simpa using fun h' => hdisj h' ha

theorem trimmed_filter [DecidableEq α] (hl : l.Nodup) : Trimmed creationTime limit l (l.filter (· ∉ toDel creationTime limit l)) := by
  constructor
  · intro h
    let s := byCreationTime creationTime l
    have hs : s.take (l.length - limit) ++ s.drop (l.length - limit) = s := List.take_append_drop _ _
    have hnodup : s.Nodup := byCreationTime_perm.nodup_iff.mpr hl
    rw [toDel_eq h]
    have hfilter : s.filter (· ∉ s.take (l.length - limit)) = s.drop (l.length - limit) := by
      have hsplit := filter_notMem_left (hs.symm ▸ hnodup)
      rwa [hs] at hsplit
    have hperm : (l.filter (· ∉ s.take (l.length - limit))).Perm (s.drop (l.length - limit)) := by
      rw [← hfilter]
      exact (byCreationTime_perm.filter _).symm
    refine ⟨s.take (l.length - limit), ?_, ?_, ?_⟩
    · refine (hperm.append_right _).trans (List.perm_append_comm.trans ?_)
      rw [hs]
      exact byCreationTime_perm
    · rw [hperm.length_eq, List.length_drop, byCreationTime_perm.length_eq]
      omega
    · intro d hd k hk
      have hsorted : s.Pairwise fun a b => creationTime a ≤ creationTime b := byCreationTime_sorted
      rw [← hs] at hsorted
      exact (List.pairwise_append.mp hsorted).2.2 d hd k (hperm.mem_iff.mp hk)
  · intro h
    rw [toDel_nil h]
    exact List.filter_eq_self.mpr fun a _ => by simp

theorem cleanBroks_trimmed_iff {broks : List Brok} : Trimmed Brok.creationTime limit broks (cleanBroks limit broks) ↔
    (limit ≠ 0 ∧ limit < broks.length → ∀ a ∈ broks, ∀ b ∈ broks, a.creationTime = b.creationTime) := by
  let s := byCreationTime Brok.creationTime broks
  have hs : s.take limit ++ s.drop limit = s := List.take_append_drop _ _
  have hperm : s.Perm broks := byCreationTime_perm
  have hsorted : s.Pairwise fun a b => a.creationTime ≤ b.creationTime := byCreationTime_sorted
  rw [← hs] at hsorted
  obtain ⟨-, -, hcross⟩ := List.pairwise_append.mp hsorted
  constructor
  · intro ht h a ha b hb
    obtain ⟨dropped, hp, hlen, hle⟩ := ht.1 h
    rw [cleanBroks, if_pos h] at hp hlen hle
    have hdropped : dropped.Perm (s.drop limit) := by
      refine (List.perm_append_left_iff (s.take limit)).mp ?_
      rw [hs]
      exact hp.trans hperm.symm
    obtain ⟨k, hk⟩ := List.exists_mem_of_length_pos (l := s.take limit) (by rw [hlen]; exact Nat.pos_of_ne_zero h.1)
    obtain ⟨d, hd⟩ := List.exists_mem_of_length_pos (l := s.drop limit) (by
      rw [List.length_drop, hperm.length_eq]
      omega)
    have heq : ∀ x ∈ s, x.creationTime = k.creationTime := by
      have hdrop : ∀ x ∈ s.drop limit, ∀ y ∈ s.take limit, x.creationTime = y.creationTime := fun x hx y hy =>
        le_antisymm (hle x (hdropped.mem_iff.mpr hx) y hy) (hcross y hy x hx)
      intro x hx
      rw [← hs] at hx
      rcases List.mem_append.mp hx with hx | hx
      · rw [← hdrop d hd x hx, hdrop d hd k hk]
      · exact hdrop x hx k hk
    rw [heq a (hperm.mem_iff.mpr ha), heq b (hperm.mem_iff.mpr hb)]
  · intro hall
    refine ⟨fun h => ?_, fun h => if_neg h⟩
    rw [cleanBroks, if_pos h]
    refine ⟨s.drop limit, ?_, ?_, fun d hd k hk => ?_⟩
    · rw [hs]
      exact hperm
    · rw [List.length_take, byCreationTime_perm.length_eq]
      omega
    · exact le_of_eq (hall h d (hperm.mem_iff.mp (List.mem_of_mem_drop hd)) k (hperm.mem_iff.mp (List.mem_of_mem_take hk)))

end

/-! ## The checks -/

section
variable {w s s' : Queues} {c : Nat} {done l : List Nat}

/-- The checks of `l` no more depend on `c`. -/
structure Forgotten (c : Nat) (l : List Nat) (s s' : Queues) : Prop where
  rest : s' = { s with check := s'.check }
  kept : ∀ a, s'.check a = { s.check a with dependOn := (s'.check a).dependOn }
  count : ∀ a b, (s'.check a).dependOn.count b = (s.check a).dependOn.count b - if b = c then l.count a else 0

theorem forget_forgotten {a : Nat} : Forgotten c [a] s (s.modifyCheck a fun chk => { chk with dependOn := chk.dependOn.erase c }) where
  rest := rfl
  kept b := by
    unfold Queues.modifyCheck
    by_cases hb : b = a
    · rw [hb]
      simp only [Function.update_self]
    · simp only [Function.update_of_ne hb]
  count b d := by
    unfold Queues.modifyCheck
    by_cases hb : b = a
    · rw [hb]
      simp only [Function.update_self, List.count_singleton_self]
      by_cases hd : d = c
      · rw [hd, if_pos rfl, List.count_erase_self]
      · rw [if_neg hd, List.count_erase_of_ne hd, Nat.sub_zero]
    · simp only [Function.update_of_ne hb]
      have hzero : List.count b [a] = 0 := List.count_eq_zero_of_not_mem (by simpa using hb)
      rw [hzero, ite_self, Nat.sub_zero]

theorem Forgotten.trans {l' : List Nat} {s₁ : Queues} (h : Forgotten c l s s₁) (h' : Forgotten c l' s₁ s') : Forgotten c (l ++ l') s s' where
  rest := by rw [h'.rest, h.rest]
  kept a := by rw [h'.kept a, h.kept a]
  count a b := by
    rw [h'.count, h.count, List.count_append]
    split <;> omega

theorem forgetAll (c : Nat) (l : List Nat) : ∀ s, ((∃ s', l.foldlM (forget c) s = .ok s') ↔ ∀ a, l.count a ≤ (s.check a).dependOn.count c) ∧
    ∀ s', l.foldlM (forget c) s = .ok s' → Forgotten c l s s' := by
  induction l with
  | nil =>
    refine fun s => ⟨⟨fun _ a => Nat.zero_le _, fun _ => ⟨s, rfl⟩⟩, fun s' h => ?_⟩
    cases h
    exact ⟨rfl, fun _ => rfl, fun a b => by simp⟩
  | cons a l ih =>
    intro s
    rw [List.foldlM_cons]
    by_cases hc : c ∈ (s.check a).dependOn
    · have hf : Forgotten c [a] s (s.modifyCheck a fun chk => { chk with dependOn := chk.dependOn.erase c }) := forget_forgotten
      rw [forget, if_pos hc]
      obtain ⟨hiff, hrun⟩ := ih (s.modifyCheck a fun chk => { chk with dependOn := chk.dependOn.erase c })
      refine ⟨hiff.trans (forall_congr' fun x => ?_), fun s' hs' => hf.trans (hrun s' hs')⟩
      have hx := hf.count x c
      rw [if_pos rfl, List.count_singleton] at hx
      rw [hx, List.count_cons]
      by_cases ha : a = x
      · subst ha
        have hpos := List.count_pos_iff.mpr hc
        simp only [beq_self_eq_true, if_true]
        omega
      · simp only [beq_false_of_ne ha, Bool.false_eq_true, if_false]
        omega
    · rw [forget, if_neg hc]
      refine raised_spec rfl fun h => ?_
      have ha := h a
      rw [List.count_eq_zero_of_not_mem hc, List.count_cons_self] at ha
      omega

structure DroppedOne (c : Nat) (s s' : Queues) : Prop where
  rest : s' = { s with item := s'.item, check := s'.check, checks := s.checks.erase c }
  kept : ∀ a, s'.check a = { s.check a with dependOn := (s'.check a).dependOn }
  count : ∀ a b, (s'.check a).dependOn.count b = (s.check a).dependOn.count b - if b = c then (s.check c).dependOnMe.count a else 0
  item : ∀ i, (s'.item i).checksInProgress = (s.item i).checksInProgress ∧
    (s'.item i).notificationsInProgress = (s.item i).notificationsInProgress

theorem removeInProgressCheck_item (i j : Nat) : ((removeInProgressCheck i s).item j).checksInProgress = (s.item j).checksInProgress ∧
    ((removeInProgressCheck i s).item j).notificationsInProgress = (s.item j).notificationsInProgress := by
  unfold removeInProgressCheck Queues.modifyItem
  by_cases hj : j = i
  · rw [hj]
    simp only [Function.update_self, and_self]
  · simp only [Function.update_of_ne hj, and_self]

theorem dropCheck_spec (s : Queues) (c : Nat) :
    ((∃ s', dropCheck s c = .ok s') ↔ (s.check c).ref ∈ s.itemsOf (s.check c).refType ∧
      (∀ a, (s.check c).dependOnMe.count a ≤ (s.check a).dependOn.count c) ∧
      ∀ b, (s.check c).dependOn.count b ≤ if b = c then (s.check c).dependOnMe.count c else 0) ∧
    ∀ s', dropCheck s c = .ok s' → DroppedOne c s s' := by
  unfold dropCheck
  by_cases hk : (s.check c).ref ∈ s.itemsOf (s.check c).refType
  · simp only [hk, not_true_eq_false, if_false, true_and]
    obtain ⟨htold, hforgot⟩ := forgetAll c (s.check c).dependOnMe (removeInProgressCheck (s.check c).ref s)
    cases hf : (s.check c).dependOnMe.foldlM (forget c) (removeInProgressCheck (s.check c).ref s) with
    | error e =>
      have hnot : ¬ ∀ a, (s.check c).dependOnMe.count a ≤ (s.check a).dependOn.count c := raised_not htold hf
      exact raised_spec rfl fun h => hnot h.1
    | ok s₁ =>
      have htold' : ∀ a, (s.check c).dependOnMe.count a ≤ (s.check a).dependOn.count c := htold.mp ⟨s₁, hf⟩
      have hone := hforgot s₁ hf
      have hempty : (s₁.check c).dependOn = [] ↔ ∀ b, (s.check c).dependOn.count b ≤ if b = c then (s.check c).dependOnMe.count c else 0 := by
        rw [List.eq_nil_iff_forall_not_mem]
        refine forall_congr' fun b => ?_
        rw [← List.count_eq_zero, hone.count c b]
        exact Nat.sub_eq_zero_iff_le
      have hdropped : DroppedOne c s { s₁ with checks := s₁.checks.erase c } := by
        refine ⟨?_, hone.kept, hone.count, fun i => ?_⟩
        · rw [hone.rest]
          rfl
        · rw [hone.rest]
          exact removeInProgressCheck_item _ i
      by_cases hnil : (s₁.check c).dependOn = []
      · refine ⟨⟨fun _ => ⟨htold', hempty.mp hnil⟩, fun _ => ⟨_, if_neg (not_not.mpr hnil)⟩⟩, fun s' hs' => ?_⟩
        have heq : { s₁ with checks := s₁.checks.erase c } = s' := Except.ok.inj ((if_neg (not_not.mpr hnil)).symm.trans hs')
        exact heq ▸ hdropped
      · have herr : (if (s₁.check c).dependOn ≠ [] then Except.error Exn.attributeError
            else Except.ok { s₁ with checks := s₁.checks.erase c }) = .error .attributeError := if_pos hnil
        exact raised_spec herr fun h => hnil (hempty.mpr h.2)
  · exact raised_spec (if_pos hk) fun h => hk h.1

theorem filter_erase {keys : Keys} {l : List Nat} (h : keys.list = l.filter (· ∉ done)) :
    (keys.erase n).list = l.filter (· ∉ done ++ [n]) := by
  simp only [Keys.erase]
  rw [keys.nodup.erase_eq_filter, h, List.filter_filter]
  refine List.filter_congr fun a _ => ?_
  simp only [List.mem_append, List.mem_singleton, not_or, decide_not, Bool.decide_and]
  rw [Bool.and_comm]
  rfl

/-- What dropping the checks of `done` has done. -/
structure Dropped (w : Queues) (done : List Nat) (s : Queues) : Prop where
  rest : s = { w with item := s.item, check := s.check, checks := s.checks, nbChecksDropped := s.nbChecksDropped }
  checks : s.checks.list = w.checks.list.filter (· ∉ done)
  kept : ∀ a, s.check a = { w.check a with dependOn := (s.check a).dependOn }
  count : ∀ a b, (s.check a).dependOn.count b = (w.check a).dependOn.count b - if b ∈ done then (w.check b).dependOnMe.count a else 0
  item : ∀ i, (s.item i).checksInProgress = (w.item i).checksInProgress ∧
    (s.item i).notificationsInProgress = (w.item i).notificationsInProgress

theorem Dropped.start (n : Nat) : Dropped w [] { w with nbChecksDropped := n } where
  rest := rfl
  checks := (List.filter_eq_self.mpr fun _ _ => by simp).symm
  kept _ := rfl
  count a b := by simp
  item _ := ⟨rfl, rfl⟩

theorem Dropped.step (h : Dropped w done s) (hone : DroppedOne c s s') (hc : c ∉ done) : Dropped w (done ++ [c]) s' where
  rest := by
    rw [hone.rest, h.rest]
  checks := by
    rw [hone.rest]
    exact filter_erase h.checks
  kept a := by rw [hone.kept a, h.kept a]
  count a b := by
    have hme : (s.check c).dependOnMe = (w.check c).dependOnMe := by rw [h.kept c]
    rw [hone.count, h.count, hme]
    by_cases hb : b = c
    · subst hb
      rw [if_pos rfl, if_neg hc, if_pos (List.mem_append_right _ (List.mem_singleton_self _)), Nat.sub_zero]
    · have hmem : b ∈ done ++ [c] ↔ b ∈ done := by simp [hb]
      rw [if_neg hb, Nat.sub_zero]
      simp only [hmem]
  item i := ⟨(hone.item i).1.trans (h.item i).1, (hone.item i).2.trans (h.item i).2⟩

theorem Dropped.droppable_iff (h : Dropped w done s) (hc : c ∉ done) : (∃ s', dropCheck s c = .ok s') ↔ Droppable w done c := by
  have hchk := h.kept c
  have hme : ∀ a, (s.check a).dependOnMe = (w.check a).dependOnMe := fun a => by rw [h.kept a]
  have hitems : s.itemsOf (s.check c).refType = w.itemsOf (w.check c).refType := by
    rw [hchk, h.rest]
    rfl
  have href : (s.check c).ref = (w.check c).ref := by rw [hchk]
  rw [(dropCheck_spec s c).1, hitems, href]
  have htold : (∀ a, (s.check c).dependOnMe.count a ≤ (s.check a).dependOn.count c) ↔
      ∀ a, (w.check c).dependOnMe.count a ≤ (w.check a).dependOn.count c := by
    refine forall_congr' fun a => ?_
    rw [hme c, h.count a c, if_neg hc, Nat.sub_zero]
  have hfree : (∀ b, (s.check c).dependOn.count b ≤ if b = c then (s.check c).dependOnMe.count c else 0) ↔
      ∀ b, (w.check c).dependOn.count b ≤ if b ∈ done ++ [c] then (w.check b).dependOnMe.count c else 0 := by
    refine forall_congr' fun b => ?_
    rw [h.count c b, hme c]
    by_cases hb : b = c
    · subst hb
      rw [if_pos rfl, if_neg hc, if_pos (List.mem_append_right _ (List.mem_singleton_self _)), Nat.sub_zero]
    · have hmem : b ∈ done ++ [c] ↔ b ∈ done := by simp [hb]
      rw [if_neg hb]
      simp only [hmem]
      split <;> omega
  rw [htold, hfree]
  exact ⟨fun ⟨h1, h2, h3⟩ => ⟨h1, h2, h3⟩, fun h => ⟨h.known, h.told, h.free⟩⟩

theorem dropChecks_run (w : Queues) (l : List Nat) : ∀ done s, Dropped w done s → (done ++ l).Nodup →
    ((∃ s', l.foldlM dropCheck s = .ok s') ↔ ∀ before c after, l = before ++ c :: after → Droppable w (done ++ before) c) ∧
      ∀ s', l.foldlM dropCheck s = .ok s' → Dropped w (done ++ l) s' := by
  induction l with
  | nil =>
    intro done s h _
    refine ⟨⟨fun _ before c after he => ?_, fun _ => ⟨s, rfl⟩⟩, fun s' hs' => ?_⟩
    · cases before <;> cases he
    · cases hs'
      rwa [List.append_nil]
  | cons c l ih =>
    intro done s h hn
    have hc : c ∉ done := fun hmem => (List.nodup_append.mp hn).2.2 c hmem c List.mem_cons_self rfl
    have hn' : ((done ++ [c]) ++ l).Nodup := by rwa [List.append_assoc, List.singleton_append]
    rw [List.foldlM_cons]
    have hdrop := h.droppable_iff hc
    cases hr : dropCheck s c with
    | error e =>
      have hnot : ¬ Droppable w done c := raised_not hdrop hr
      refine raised_spec rfl fun hall => ?_
      have hfirst := hall [] c l rfl
      rw [List.append_nil] at hfirst
      exact hnot hfirst
    | ok s₁ =>
      have h1 := h.step ((dropCheck_spec s c).2 s₁ hr) hc
      obtain ⟨hiff, hrun⟩ := ih (done ++ [c]) s₁ h1 hn'
      have hfirst : Droppable w done c := hdrop.mp ⟨s₁, hr⟩
      refine ⟨hiff.trans ⟨fun hall before d after he => ?_, fun hall before d after he => ?_⟩, fun s' hs' => ?_⟩
      · cases before with
        | nil =>
          cases he
          rwa [List.append_nil]
        | cons b before =>
          cases he
          have hd := hall before d after rfl
          rwa [List.append_assoc, List.singleton_append] at hd
      · have hd := hall (c :: before) d after (by rw [he]; rfl)
        rwa [List.append_assoc, List.singleton_append]
      · have hd := hrun s' hs'
        rwa [List.append_assoc, List.singleton_append] at hd

end

/-! ## The actions -/

section
variable {w s s' : Queues} {n : Nat} {done l : List Nat}

def Findable (w : Queues) (n : Nat) : Prop :=
  (w.action n).isA = .notification → (w.action n).ref ∈ w.hosts ∨ (w.action n).ref ∈ w.services

/-- What dropping the actions of `done` has done. -/
structure ActionsDropped (w : Queues) (done : List Nat) (s : Queues) : Prop where
  rest : s = { w with item := s.item, action := s.action, actions := s.actions, nbActionsDropped := s.nbActionsDropped }
  actions : s.actions.list = w.actions.list.filter (· ∉ done)
  kept : ∀ a, s.action a = { w.action a with status := (s.action a).status }
  checksInProgress : ∀ i, (s.item i).checksInProgress = (w.item i).checksInProgress
  notifications : ∀ i a, a ∈ (s.item i).notificationsInProgress.list ↔
    a ∈ (w.item i).notificationsInProgress.list ∧ ¬ (a ∈ done ∧ (w.action a).isA = .notification ∧ (w.action a).ref = i)

theorem ActionsDropped.start (m : Nat) : ActionsDropped w [] { w with nbActionsDropped := m } where
  rest := rfl
  actions := (List.filter_eq_self.mpr fun _ _ => by simp).symm
  kept _ := rfl
  checksInProgress _ := rfl
  notifications i a := by simp

theorem removeNotification_rest (i : Nat) : removeInProgressNotification i n s =
    { s with item := (removeInProgressNotification i n s).item, action := (removeInProgressNotification i n s).action } := by
  unfold removeInProgressNotification
  split <;> rfl

theorem removeNotification_action (i a : Nat) : (removeInProgressNotification i n s).action a =
    { s.action a with status := ((removeInProgressNotification i n s).action a).status } := by
  unfold removeInProgressNotification
  split
  · unfold Queues.modifyItem Queues.modifyAction
    by_cases ha : a = n
    · rw [ha]
      simp only [Function.update_self]
    · simp only [Function.update_of_ne ha]
  · rfl

theorem removeNotification_item (i j : Nat) : ((removeInProgressNotification i n s).item j).checksInProgress = (s.item j).checksInProgress ∧
    ∀ a, a ∈ ((removeInProgressNotification i n s).item j).notificationsInProgress.list ↔
      a ∈ (s.item j).notificationsInProgress.list ∧ ¬ (a = n ∧ i = j) := by
  unfold removeInProgressNotification
  split
  · unfold Queues.modifyItem Queues.modifyAction
    by_cases hj : j = i
    · rw [hj]
      simp only [Function.update_self, Keys.erase, and_true, true_and]
      intro a
      rw [(s.item i).notificationsInProgress.nodup.mem_erase_iff, and_comm]
    · simp only [Function.update_of_ne hj, true_and]
      exact fun a => ⟨fun h => ⟨h, fun e => hj e.2.symm⟩, fun h => h.1⟩
  · rename_i hnot
    refine ⟨rfl, fun a => ⟨fun h => ⟨h, ?_⟩, fun h => h.1⟩⟩
    rintro ⟨rfl, rfl⟩
    exact hnot h

theorem ActionsDropped.step (h : ActionsDropped w done s) : (∀ s', dropAction s n = .ok s' → ActionsDropped w (done ++ [n]) s') ∧
    ((∃ s', dropAction s n = .ok s') ↔ Findable w n) := by
  have hact := h.kept n
  have hisA : (s.action n).isA = (w.action n).isA := by rw [hact]
  have href : (s.action n).ref = (w.action n).ref := by rw [hact]
  have hhosts : s.hosts = w.hosts := by rw [h.rest]
  have hservices : s.services = w.services := by rw [h.rest]
  have hor : ∀ a, a ∈ done ++ [n] ↔ a ∈ done ∨ a = n := fun a => by simp
  unfold dropAction
  rw [hisA, href, hhosts, hservices]
  cases hkind : (w.action n).isA with
  | eventhandler =>
    refine ⟨fun s' hs' => ?_, ⟨fun _ hn => ?_, fun _ => ⟨_, rfl⟩⟩⟩
    · cases hs'
      refine ⟨?_, filter_erase h.actions, h.kept, h.checksInProgress, fun i a => ?_⟩
      · conv_lhs => rw [h.rest]
      · rw [h.notifications, hor]
        refine and_congr_right fun _ => not_congr ⟨fun hd => ⟨Or.inl hd.1, hd.2⟩, fun hd => ?_⟩
        refine ⟨hd.1.resolve_right fun e => ?_, hd.2⟩
        rw [e, hkind] at hd
        cases hd.2.1
    · rw [hkind] at hn
      cases hn
  | notification =>
    by_cases hknown : (w.action n).ref ∈ w.hosts ∨ (w.action n).ref ∈ w.services
    · simp only [if_pos hknown]
      refine ⟨fun s' hs' => ?_, ⟨fun _ _ => hknown, fun _ => ⟨_, rfl⟩⟩⟩
      cases hs'
      have hrest := removeNotification_rest (s := s) (n := n) (w.action n).ref
      refine ⟨?_, ?_, fun a => ?_, fun i => ?_, fun i a => ?_⟩
      · generalize removeInProgressNotification (w.action n).ref n s = r at hrest
        have hnb : r.nbActionsDropped = s.nbActionsDropped := by rw [hrest]
        have hkeys : r.actions = s.actions := by rw [hrest]
        simp only [hnb, hkeys]
        conv_lhs => rw [hrest, h.rest]
      · rw [hrest]
        exact filter_erase h.actions
      · simp only
        rw [removeNotification_action, h.kept a]
      · exact (removeNotification_item _ i).1.trans (h.checksInProgress i)
      · simp only
        rw [(removeNotification_item _ i).2, h.notifications, hor, and_assoc]
        refine and_congr_right fun _ => ?_
        rw [← not_or]
        refine not_congr ⟨?_, ?_⟩
        · rintro (⟨hd, hk⟩ | ⟨rfl, hi⟩)
          · exact ⟨Or.inl hd, hk⟩
          · exact ⟨Or.inr rfl, hkind, hi⟩
        · rintro ⟨hd | rfl, hk, hi⟩
          · exact Or.inl ⟨hd, hk, hi⟩
          · exact Or.inr ⟨rfl, hi⟩
    · simp only [if_neg hknown]
      exact (raised_spec rfl fun hf : Findable w n => hknown (hf hkind)).symm

theorem dropActions_run (w : Queues) (l : List Nat) : ∀ done s, ActionsDropped w done s →
    (∀ s', l.foldlM dropAction s = .ok s' → ActionsDropped w (done ++ l) s') ∧
      ((∃ s', l.foldlM dropAction s = .ok s') ↔ ∀ n ∈ l, Findable w n) := by
  induction l with
  | nil =>
    intro done s h
    refine ⟨fun s' hs' => ?_, fun _ n hn => absurd hn List.not_mem_nil, fun _ => ⟨s, rfl⟩⟩
    cases hs'
    rwa [List.append_nil]
  | cons n l ih =>
    intro done s h
    obtain ⟨hstep, hiff⟩ := h.step (n := n)
    rw [List.foldlM_cons]
    cases hr : dropAction s n with
    | error e =>
      have hnot : ¬ Findable w n := raised_not hiff hr
      exact And.symm (raised_spec rfl fun hall => hnot (hall n List.mem_cons_self))
    | ok s₁ =>
      obtain ⟨hrun, hiff'⟩ := ih (done ++ [n]) s₁ (hstep s₁ hr)
      refine ⟨fun s' hs' => ?_, hiff'.trans ⟨fun hall m hm => ?_, fun hall m hm => hall m (List.mem_cons_of_mem _ hm)⟩⟩
      · have hd := hrun s' hs'
        rwa [List.append_assoc, List.singleton_append] at hd
      · rcases List.mem_cons.mp hm with rfl | hm
        · exact hiff.mp ⟨s₁, hr⟩
        · exact hall m hm

end

/-! ## The queues -/

section
variable {w w₁ w' : Queues}

theorem mem_filter_del {c : Nat} {l d : List Nat} (hc : c ∈ l) : c ∉ l.filter (· ∉ d) ↔ c ∈ d := by
  rw [List.mem_filter, decide_eq_true_eq]
  exact ⟨fun h => by_contra fun hn => h ⟨hc, hn⟩, fun h hn => hn.2 h⟩

theorem cleanQueues_run (ht : w.tickCleanQueues ≠ 0) {r : Queues}
    (hr : (toDelChecks w).foldlM dropCheck { w with nbChecksDropped := (toDelChecks w).length } = .ok r) :
    cleanQueues w = (toDelActions w).foldlM dropAction
      { r with nbBroksDropped := 0, brokers := w.brokers.map (cleanBroks w.maxBroks), nbActionsDropped := (toDelActions w).length } := by
  have hd : Dropped w (toDelChecks w) r := (dropChecks_run w _ [] _ (.start _) (toDel_nodup w.checks.nodup)).2 r hr
  have hbroks : r.brokers.map (cleanBroks r.maxBroks) = w.brokers.map (cleanBroks w.maxBroks) := by
    rw [hd.rest]
    rfl
  have hactions : toDelActions { r with nbBroksDropped := 0, brokers := w.brokers.map (cleanBroks w.maxBroks) } = toDelActions w := by
    rw [hd.rest]
    rfl
  rw [cleanQueues, if_neg ht, hr]
  simp only [bind, Except.bind]
  rw [hbroks, hactions]

theorem cleaned_iff {r : Queues} (hd : Dropped w (toDelChecks w) r)
    (ha : ActionsDropped { r with nbBroksDropped := 0, brokers := w.brokers.map (cleanBroks w.maxBroks) } (toDelActions w) w') :
    Cleaned w w' ↔ (∀ c ∈ toDelChecks w, Unlinked w c) ∧
      (∀ broks ∈ w.brokers, w.maxBroks ≠ 0 ∧ w.maxBroks < broks.length → ∀ a ∈ broks, ∀ b ∈ broks, a.creationTime = b.creationTime) ∧
      ∀ n ∈ toDelActions w, (w.action n).isA = .eventhandler → n ∉ (w.item (w.action n).ref).notificationsInProgress.list := by
  have hchecks : w'.checks.list = w.checks.list.filter (· ∉ toDelChecks w) := by
    rw [ha.rest]
    exact hd.checks
  have hcheck : w'.check = r.check := by rw [ha.rest]
  have hactions : w'.actions.list = w.actions.list.filter (· ∉ toDelActions w) := by
    rw [ha.actions, hd.rest]
  have hbrokers : w'.brokers = w.brokers.map (cleanBroks w.maxBroks) := by rw [ha.rest]
  have hinProgress : ∀ i, (w'.item i).checksInProgress = (w.item i).checksInProgress := fun i =>
    (ha.checksInProgress i).trans (hd.item i).1
  have haction : r.action = w.action := by rw [hd.rest]
  have hnotifications : ∀ i n, n ∈ (w'.item i).notificationsInProgress.list ↔ n ∈ (w.item i).notificationsInProgress.list ∧
      ¬ (n ∈ toDelActions w ∧ (w.action n).isA = .notification ∧ (w.action n).ref = i) := by
    intro i n
    rw [ha.notifications i n, (hd.item i).2, haction]
  have hme : ∀ a, (w'.check a).dependOnMe = (w.check a).dependOnMe := fun a => by rw [hcheck, hd.kept a]
  constructor
  · intro h
    refine ⟨fun c hc => ?_, fun broks hb hlimit => ?_, fun n hn hkind hmem => ?_⟩
    · have hin : c ∈ w.checks.list := toDel_sub hc
      have hout : c ∉ w'.checks.list := by rwa [hchecks, mem_filter_del hin]
      have hstay : ∀ a ∈ w.checks.list, a ∉ toDelChecks w → a ∈ w'.checks.list := fun a hal had => by
        rw [hchecks]
        exact List.mem_filter.mpr ⟨hal, by simpa using had⟩
      refine ⟨?_, fun a hal had => ?_, fun a hal had => ?_⟩
      · have hidle := h.inProgress c hin hout
        rwa [hinProgress] at hidle
      · have hnot := (h.unlinked c hin hout a (hstay a hal had)).1
        rw [hcheck, ← List.count_eq_zero, hd.count a c, if_pos hc] at hnot
        omega
      · have hnot := (h.unlinked c hin hout a (hstay a hal had)).2
        rwa [hme] at hnot
    · have hall := h.broks
      rw [hbrokers] at hall
      exact cleanBroks_trimmed_iff.mp (List.forall₂_same.mp (List.forall₂_map_right_iff.mp hall) broks hb) hlimit
    · have hin : n ∈ w.actions.list := toDel_sub hn
      have hout : n ∉ w'.actions.list := by rwa [hactions, mem_filter_del hin]
      refine h.notifications n hin hout ((hnotifications _ n).mpr ⟨hmem, fun hd => ?_⟩)
      rw [hkind] at hd
      cases hd.2.1
  · rintro ⟨hunlinked, hbroks, hhandlers⟩
    refine ⟨?_, ?_, ?_, fun c hin hout => ?_, fun c hin hout a hal => ?_, fun n hin hout => ?_⟩
    · rw [hchecks]
      exact trimmed_filter w.checks.nodup
    · rw [hbrokers]
      exact List.forall₂_map_right_iff.mpr (List.forall₂_same.mpr fun broks hb => cleanBroks_trimmed_iff.mpr (hbroks broks hb))
    · rw [hactions]
      exact trimmed_filter w.actions.nodup
    · rw [hchecks, mem_filter_del hin] at hout
      rw [hinProgress]
      exact (hunlinked c hout).idle
    · rw [hchecks, mem_filter_del hin] at hout
      rw [hchecks] at hal
      obtain ⟨hal, had⟩ := List.mem_filter.mp hal
      have had : a ∉ toDelChecks w := by simpa using had
      refine ⟨?_, ?_⟩
      · have hle := (hunlinked c hout).dependOn a hal had
        rw [hcheck, ← List.count_eq_zero, hd.count a c, if_pos hout]
        omega
      · rw [hme]
        exact (hunlinked c hout).dependOnMe a hal had
    · rw [hactions, mem_filter_del hin] at hout
      intro hmem
      obtain ⟨hw, hnot⟩ := (hnotifications _ n).mp hmem
      cases hkind : (w.action n).isA with
      | notification => exact hnot ⟨hout, hkind, rfl⟩
      | eventhandler => exact hhandlers n hout hkind hw

/-- The cleaning returns, keeps what is most recent and leaves no reference to
what it drops, just where the queues are cleanable. -/
theorem cleanQueues_iff (w : Queues) : (∃ w', cleanQueues w = .ok w' ∧ (w.tickCleanQueues ≠ 0 → Cleaned w w')) ↔
    (w.tickCleanQueues ≠ 0 → Cleanable w) := by
  by_cases ht : w.tickCleanQueues = 0
  · exact ⟨fun _ h => absurd ht h, fun _ => ⟨w, if_pos ht, fun h => absurd ht h⟩⟩
  · have hnodup : ([] ++ toDelChecks w).Nodup := toDel_nodup w.checks.nodup
    obtain ⟨hdrop, hdropped⟩ := dropChecks_run w (toDelChecks w) [] { w with nbChecksDropped := (toDelChecks w).length } (.start _) hnodup
    have hdrop' : (∃ r, (toDelChecks w).foldlM dropCheck { w with nbChecksDropped := (toDelChecks w).length } = .ok r) ↔
        ∀ before c after, toDelChecks w = before ++ c :: after → Droppable w before c := hdrop
    cases hr : (toDelChecks w).foldlM dropCheck { w with nbChecksDropped := (toDelChecks w).length } with
    | error e =>
      have herr : cleanQueues w = .error e := by
        rw [cleanQueues, if_neg ht, hr]
        rfl
      refine ⟨?_, fun h => ?_⟩
      · rintro ⟨w', hw', -⟩
        rw [herr] at hw'
        cases hw'
      · obtain ⟨r, hr'⟩ := hdrop'.mpr (h ht).droppable
        rw [hr] at hr'
        cases hr'
    | ok r =>
      have hd : Dropped w (toDelChecks w) r := hdropped r hr
      have hrun := cleanQueues_run ht hr
      obtain ⟨hactions, hfindable⟩ := dropActions_run
        { r with nbBroksDropped := 0, brokers := w.brokers.map (cleanBroks w.maxBroks) } (toDelActions w) [] _
        (.start (toDelActions w).length)
      have hfind : ∀ n, Findable { r with nbBroksDropped := 0, brokers := w.brokers.map (cleanBroks w.maxBroks) } n ↔ Findable w n := by
        intro n
        unfold Findable
        rw [hd.rest]
      simp only [hfind] at hfindable
      constructor
      · rintro ⟨w', hw', hclean⟩ -
        rw [hrun] at hw'
        have hf := hfindable.mp ⟨w', hw'⟩
        obtain ⟨hunlinked, hbroks, hhandlers⟩ := (cleaned_iff hd (hactions w' hw')).mp (hclean ht)
        exact ⟨hdrop'.mp ⟨r, hr⟩, hunlinked, hbroks, hf, hhandlers⟩
      · intro h
        obtain ⟨w', hw'⟩ := hfindable.mpr (h ht).notifications
        have hclean := (cleaned_iff hd (hactions w' hw')).mpr ⟨(h ht).unlinked, (h ht).broks, (h ht).eventhandlers⟩
        exact ⟨w', hrun.trans hw', fun _ => hclean⟩

end

/-! ## A check that stays in progress -/

def sixChecks : Queues where
  hosts := [0]
  services := []
  contacts := []
  tickCleanQueues := 10
  item _ := ⟨[1, 2, 3, 4, 5, 6], true, ⟨[], List.nodup_nil⟩⟩
  checks := ⟨[1, 2, 3, 4, 5, 6], (by decide)⟩
  check c := ⟨c, .host, 0, [], []⟩
  brokers := []
  actions := ⟨[], List.nodup_nil⟩
  action _ := ⟨0, .eventhandler, 0, .scheduled⟩
  nbChecksDropped := 0
  nbBroksDropped := 0
  nbActionsDropped := 0

theorem sixChecks_dangling : ¬ ∃ w', cleanQueues sixChecks = .ok w' ∧ (sixChecks.tickCleanQueues ≠ 0 → Cleaned sixChecks w') := by
  rintro ⟨w', hw', hclean⟩
  have hrun : ∃ w', cleanQueues sixChecks = .ok w' ∧ 1 ∉ w'.checks.list ∧ 1 ∈ (w'.item 0).checksInProgress := by
    refine ⟨_, rfl, ?_, ?_⟩ <;> decide
  obtain ⟨w₁, hw1, hdropped, hin⟩ := hrun
  rw [hw'] at hw1
  cases hw1
  exact (hclean (by decide)).inProgress 1 (by decide) hdropped hin

end Alignak.Cleaning
