import Alignak.Dispatcher

/-!
# What the calls on a link leave alone

`OnLink i π m`: the computation `m` changes the link `i` only, and not its part
`π`.
-/

namespace Alignak.Dispatching

section
variable {α β γ : Type} {i : Nat} {π : SatelliteLink → γ}

def OnLink (i : Nat) (π : SatelliteLink → γ) (m : Dispatch α) : Prop :=
  ∀ w, ∃ x, π x = π (w.link i) ∧ stateAfter (m w) = { w with link := Function.update w.link i x }

theorem World.update_self (w : World) (i : Nat) : { w with link := Function.update w.link i (w.link i) } = w := by
  rw [Function.update_eq_self]

theorem OnLink.same {m : Dispatch α} (h : ∀ w, stateAfter (m w) = w) : OnLink i π m :=
  fun w => ⟨w.link i, rfl, (h w).trans (w.update_self i).symm⟩

theorem OnLink.pure (a : α) : OnLink i π (pure a) := OnLink.same fun _ => rfl

theorem OnLink.throw (e : Raised) : OnLink i π (throw e : Dispatch α) := OnLink.same fun _ => rfl

theorem OnLink.get : OnLink i π (get : Dispatch World) := OnLink.same fun _ => rfl

theorem OnLink.modifyLink {f : SatelliteLink → SatelliteLink} (h : ∀ x, π (f x) = π x) :
    OnLink i π (modify fun w => w.modifyLink i f) := fun w => ⟨f (w.link i), h _, rfl⟩

theorem OnLink.bind {m : Dispatch α} {k : α → Dispatch β} (hm : OnLink i π m) (hk : ∀ a, OnLink i π (k a)) :
    OnLink i π (m >>= k) := by
  intro w
  obtain ⟨x, hx, hw⟩ := hm w
  rw [bind_eq]
  cases hr : m w with
  | ok a w' =>
    rw [hr] at hw
    change w' = _ at hw
    obtain ⟨y, hy, hw'⟩ := hk a w'
    refine ⟨y, ?_, ?_⟩
    · rw [hy, hw]
      simp [hx]
    · show stateAfter (k a w') = _
      rw [hw', hw]
      simp
  | error e w' =>
    rw [hr] at hw
    exact ⟨x, hx, hw⟩

theorem OnLink.ite {c : Prop} [Decidable c] {m₁ m₂ : Dispatch α} (h1 : OnLink i π m₁) (h2 : OnLink i π m₂) :
    OnLink i π (if c then m₁ else m₂) := by
  by_cases h : c
  · rw [if_pos h]; exact h1
  · rw [if_neg h]; exact h2

theorem OnLink.mono {δ : Type} {ρ : SatelliteLink → δ} {m : Dispatch α} (h : OnLink i π m)
    (hρ : ∀ x y, π x = π y → ρ x = ρ y) : OnLink i ρ m := by
  intro w
  obtain ⟨x, hx, hw⟩ := h w
  exact ⟨x, hρ _ _ hx, hw⟩

end

def SatelliteLink.duty (x : SatelliteLink) :=
  (x.needConf, x.configurationSent, x.cfgToManage, x.schedulers, x.putConfDone)

def SatelliteLink.assigned (x : SatelliteLink) := (x.needConf, x.cfgToManage, x.schedulers)

theorem duty_assigned (x y : SatelliteLink) (h : x.duty = y.duty) : x.assigned = y.assigned := by
  simp only [SatelliteLink.duty, SatelliteLink.assigned, Prod.mk.injEq] at h ⊢
  exact ⟨h.1, h.2.2.1, h.2.2.2.1⟩

section
variable {α : Type} {conf : Conf} {env : Env} {i : Nat}

theorem addFailedCheckAttempt_duty (m : Int) (x : SatelliteLink) : (x.addFailedCheckAttempt m).duty = x.duty := by
  unfold SatelliteLink.addFailedCheckAttempt
  simp only
  split <;> rfl

theorem validConnection_onLink {γ : Type} {π : SatelliteLink → γ} {call : Dispatch (Answer α)} (h : OnLink i π call) :
    OnLink i π (validConnection i call) :=
  OnLink.bind OnLink.get fun _ => OnLink.ite (OnLink.throw _) h

theorem answer_onLink (r : Except HTTPClientException (Answer α)) : OnLink i SatelliteLink.duty (answer conf i r) := by
  cases r with
  | ok a => exact OnLink.pure a
  | error e =>
    cases e with
    | connection => exact OnLink.bind (OnLink.modifyLink fun _ => rfl) fun _ => OnLink.pure _
    | timeout => exact OnLink.bind (OnLink.modifyLink (addFailedCheckAttempt_duty _)) fun _ => OnLink.pure _
    | data => exact OnLink.throw _
    | other => exact OnLink.bind (OnLink.modifyLink (addFailedCheckAttempt_duty _)) fun _ => OnLink.pure _

theorem communicate_onLink {γ : Type} {π : SatelliteLink → γ} {call : Dispatch (Except HTTPClientException (Answer α))}
    (h : OnLink i π call) (hπ : ∀ x y, SatelliteLink.duty x = y.duty → π x = π y) : OnLink i π (communicate conf i call) := by
  refine OnLink.bind OnLink.get fun w => OnLink.ite (OnLink.pure _) (OnLink.ite ?_ ?_)
  · exact OnLink.bind (OnLink.modifyLink fun x => hπ _ _ (addFailedCheckAttempt_duty _ x)) fun _ => OnLink.pure _
  · exact OnLink.bind h fun r => (answer_onLink r).mono hπ

theorem getConf_onLink : OnLink i SatelliteLink.duty (getConf conf env i) := by
  refine validConnection_onLink (communicate_onLink ?_ fun _ _ h => h)
  cases (env.managedConfigurations i).request with
  | ok managed => exact OnLink.bind (OnLink.modifyLink fun _ => rfl) fun _ => OnLink.pure _
  | error e => exact OnLink.pure _

theorem updateInfos_onLink (forced : Bool) : OnLink i SatelliteLink.duty (updateInfos conf env forced i) := by
  refine validConnection_onLink (communicate_onLink ?_ fun _ _ h => h)
  refine OnLink.bind OnLink.get fun w => OnLink.ite (OnLink.pure _) ?_
  refine OnLink.bind getConf_onLink fun _ => OnLink.bind (OnLink.modifyLink fun _ => rfl) fun _ => ?_
  refine OnLink.bind OnLink.get fun w => ?_
  cases (w.link i).cfgManaged with
  | none => exact OnLink.pure _
  | some managed => exact OnLink.pure _

theorem otherCall_onLink (response : Response Unit) : OnLink i SatelliteLink.duty (otherCall conf i response) :=
  validConnection_onLink (communicate_onLink (OnLink.pure _) fun _ _ h => h)

theorem putConf_onLink : OnLink i (fun x => (x.needConf, x.configurationSent, x.cfgToManage, x.schedulers)) (putConf conf env i) := by
  refine OnLink.bind (OnLink.modifyLink fun _ => rfl) fun _ => validConnection_onLink (communicate_onLink ?_ fun x y h => ?_)
  · cases (env.pushConfiguration i).request with
    | ok content => exact OnLink.bind (OnLink.modifyLink fun _ => rfl) fun _ => OnLink.pure _
    | error e => exact OnLink.pure _
  · simp only [SatelliteLink.duty, Prod.mk.injEq] at h ⊢
    exact ⟨h.1, h.2.1, h.2.2.1, h.2.2.2.1⟩

theorem doNotRun_onLink : OnLink i SatelliteLink.duty (doNotRun conf env i) := by
  refine OnLink.bind OnLink.get fun w => OnLink.ite (OnLink.throw _) ?_
  cases (env.doNotRun i).request with
  | ok _ => exact OnLink.pure _
  | error e =>
    cases e with
    | connection => exact OnLink.modifyLink (addFailedCheckAttempt_duty _)
    | timeout => exact OnLink.modifyLink (addFailedCheckAttempt_duty _)
    | data => exact OnLink.modifyLink (addFailedCheckAttempt_duty _)
    | other => exact OnLink.modifyLink (addFailedCheckAttempt_duty _)

theorem dispatchToLink_onLink : OnLink i SatelliteLink.assigned (dispatchToLink conf env i) := by
  refine OnLink.bind OnLink.get fun w => OnLink.ite (OnLink.pure _) (OnLink.bind (putConf_onLink.mono fun x y h => ?_) fun _ => ?_)
  · simp only [SatelliteLink.assigned, Prod.mk.injEq] at h ⊢
    exact ⟨h.1, h.2.2.1, h.2.2.2⟩
  · exact OnLink.modifyLink fun _ => rfl

theorem dispatchToArbiter_onLink : OnLink i SatelliteLink.assigned (dispatchToArbiter conf env i) := by
  refine OnLink.bind OnLink.get fun w => OnLink.ite (OnLink.pure _) (OnLink.bind (putConf_onLink.mono fun x y h => ?_) fun _ => ?_)
  · simp only [SatelliteLink.assigned, Prod.mk.injEq] at h ⊢
    exact ⟨h.1, h.2.2.1, h.2.2.2⟩
  · exact OnLink.bind (OnLink.modifyLink fun _ => rfl) fun _ => doNotRun_onLink.mono duty_assigned

theorem getRunningId_onLink (identity : Response Nat) : OnLink i SatelliteLink.duty (getRunningId conf i identity) := by
  refine communicate_onLink ?_ fun _ _ h => h
  cases identity.request with
  | ok runningId => exact OnLink.bind (OnLink.modifyLink fun _ => rfl) fun _ => OnLink.pure _
  | error e => exact OnLink.pure _

theorem tryConnection_onLink (waitNewConf : Response Unit) :
    ∀ identities, OnLink i SatelliteLink.duty (tryConnection conf i waitNewConf identities)
  | [] => OnLink.pure _
  | identity :: identities => by
    refine OnLink.bind (getRunningId_onLink identity) fun r => ?_
    cases r with
    | none => exact tryConnection_onLink waitNewConf identities
    | false => exact tryConnection_onLink waitNewConf identities
    | got a => exact OnLink.bind (otherCall_onLink _) fun _ => OnLink.pure _

theorem daemonConnectionInit_onLink (created : Bool) (identities : List (Response Nat)) (waitNewConf : Response Unit) :
    OnLink i SatelliteLink.duty (daemonConnectionInit conf i created identities waitNewConf) := by
  refine OnLink.ite (OnLink.pure _) (OnLink.ite ?_ ?_)
  · exact OnLink.bind (OnLink.modifyLink fun _ => rfl) fun _ => OnLink.throw _
  · exact OnLink.bind (OnLink.modifyLink fun _ => rfl) fun _ => tryConnection_onLink waitNewConf _

end

/-! ## Loops over links -/

section
variable {γ : Type} {π : SatelliteLink → γ} {f : Nat → Dispatch PUnit} {w₀ : World}

theorem OnLink.link_ne {m : Dispatch PUnit} {i j : Nat} (h : OnLink i π m) (hne : j ≠ i) (w : World) :
    (stateAfter (m w)).link j = w.link j := by
  obtain ⟨x, -, hw⟩ := h w
  rw [hw]
  exact Function.update_of_ne hne _ _

theorem forM_leads {J : World → Prop} {R : List Nat} : ∀ {l : List Nat}, (∀ i ∈ l, OnLink i π (f i)) → (l ++ R).Nodup →
    (∀ i ∈ l, Leads (fun w => J w ∧ w.link i = w₀.link i) (f i) J) →
    Leads (fun w => J w ∧ ∀ i ∈ l ++ R, w.link i = w₀.link i) (l.forM f) (fun w => J w ∧ ∀ i ∈ R, w.link i = w₀.link i)
  | [], _, _, _ => fun w h => ⟨h, fun _ _ _ => trivial⟩
  | i :: l, hf, hl, ht => by
    rw [List.cons_append, List.nodup_cons] at hl
    show Leads _ (f i >>= fun _ => l.forM f) _
    refine Leads.bind (K := fun w => J w ∧ ∀ j ∈ l ++ R, w.link j = w₀.link j) ?_ (fun _ => ?_) ?_
    · intro w hw
      refine ⟨⟨(ht i List.mem_cons_self w ⟨hw.1, hw.2 i List.mem_cons_self⟩).1, fun j hj => ?_⟩, fun _ _ _ => trivial⟩
      have hne : j ≠ i := fun e => hl.1 (e ▸ hj)
      rw [(hf i List.mem_cons_self).link_ne hne]
      exact hw.2 j (List.mem_cons_of_mem _ hj)
    · exact forM_leads (fun j hj => hf j (List.mem_cons_of_mem _ hj)) hl.2 fun j hj => ht j (List.mem_cons_of_mem _ hj)
    · exact fun w hw => ⟨hw.1, fun j hj => hw.2 j (List.mem_append_right _ hj)⟩

theorem forM_ensures {Q : Nat → SatelliteLink → Prop} {R : List Nat} : ∀ {l D : List Nat}, (∀ i ∈ l, OnLink i π (f i)) →
    (D ++ (l ++ R)).Nodup → (∀ i ∈ l, Ensures (fun w => w.link i = w₀.link i) (f i) fun _ w => Q i (w.link i)) →
    Ensures (fun w => (∀ i ∈ D, Q i (w.link i)) ∧ ∀ i ∈ l ++ R, w.link i = w₀.link i) (l.forM f)
      fun _ w => (∀ i ∈ D ++ l, Q i (w.link i)) ∧ ∀ i ∈ R, w.link i = w₀.link i
  | [], D, _, _, _ => by
    rw [List.append_nil]
    exact Ensures.pure fun w h => h
  | i :: l, D, hf, hl, ht => by
    have hD : i ∉ D := fun h => (List.nodup_append.mp hl).2.2 i h i List.mem_cons_self rfl
    have hn := (List.nodup_append.mp hl).2.1
    rw [List.cons_append, List.nodup_cons] at hn
    have hl' : ((D ++ [i]) ++ (l ++ R)).Nodup := by rw [List.append_assoc]; exact hl
    show Ensures _ (f i >>= fun _ => l.forM f) _
    have hrest := forM_ensures (Q := Q) (fun j hj => hf j (List.mem_cons_of_mem _ hj)) hl' fun j hj =>
      ht j (List.mem_cons_of_mem _ hj)
    rw [List.append_assoc] at hrest
    refine Ensures.bind (fun w hw _ w' hr => ?_) fun _ => hrest
    have hi := ht i List.mem_cons_self w (hw.2 i List.mem_cons_self) _ w' hr
    have hs : ∀ j, j ≠ i → w'.link j = w.link j := by
      intro j hne
      have h := (hf i List.mem_cons_self).link_ne hne w
      rw [hr] at h
      exact h
    refine ⟨fun j hj => ?_, fun j hj => ?_⟩
    · rcases List.mem_append.mp hj with h | h
      · rw [hs j fun e => hD (e ▸ h)]; exact hw.1 j h
      · rw [List.mem_singleton.mp h]; exact hi
    · rw [hs j fun e => hn.1 (e ▸ hj)]; exact hw.2 j (List.mem_cons_of_mem _ hj)

theorem OnLink.unchanged {α δ : Type} {p : World → δ} {m : Dispatch α} {i : Nat} (h : OnLink i π m)
    (hp : ∀ w x j, p { w with link := Function.update w.link j x } = p w) : Unchanged p m := by
  intro w
  obtain ⟨x, -, hw⟩ := h w
  rw [hw, hp]

end

/-! ## Preparation -/

theorem Conf.nodup' (conf : Conf) : (conf.arbiters ++ (conf.schedulers ++ (conf.allSatellites ++ []))).Nodup := by
  have hp : (conf.allSatellites ++ conf.schedulers ++ conf.arbiters).Perm
      (conf.arbiters ++ (conf.schedulers ++ conf.allSatellites)) :=
    List.perm_append_comm.trans (List.perm_append_comm.append_left _)
  rw [List.append_nil]
  exact hp.nodup_iff.mp conf.nodup

theorem mem_of_not_arbiter {conf : Conf} {i : Nat} (hi : i ∈ conf.schedulers ++ conf.allSatellites) : i ∉ conf.arbiters := by
  have h := (List.nodup_append.mp conf.nodup').2.2
  intro ha
  refine h i ha i ?_ rfl
  rw [List.append_nil]
  exact hi

theorem not_satellite {conf : Conf} {i : Nat} (hi : i ∈ conf.schedulers) : i ∉ conf.allSatellites := by
  have h := (List.nodup_append.mp conf.nodup').2.1
  rw [List.append_nil] at h
  exact fun hs => (List.nodup_append.mp h).2.2 i hi i hs rfl

/-- The ways that the turns of `prepare_dispatch` for some realms act on the world. -/
structure KeptByTurns (conf : Conf) (env : Env) (realms : List (Realm × Nat)) (I : World → Prop) : Prop where
  assign : ∀ realm k p s w, (realm, k) ∈ realms → p ∈ realm.parts → (w.part p).isAssigned = false →
    s ∈ realm.schedulerLinks conf → (w.link s).needConf = true → I w → I (assignTo env k p s w)
  table : ∀ realm k p w table, (realm, k) ∈ realms → p ∈ realm.parts →
    (∀ k' t q, k' ≠ k ∨ q ≠ p → table k' t q = w.toSatellites k' t q) → I w → I { w with toSatellites := table }
  give : ∀ realm k p t x i w, (realm, k) ∈ realms → p ∈ realm.parts → w.toSatellites k t p = some x → i ∈ conf.allSatellites →
    I w → I (giveToSatellite p x i w)

structure KeptByPreparation (conf : Conf) (env : Env) (I : World → Prop) : Prop where
  turns : KeptByTurns conf env conf.realms.zipIdx I
  arbiter : ∀ i ∈ conf.arbiters, ∀ w, I w →
    I (w.modifyLink i fun x => { x with cfgToManage := some .whole, needConf := false, configurationSent := false })
  close : ∀ s ∈ conf.schedulers, ∀ w, I w → I (w.modifyLink s fun x => { x with needConf := false })

variable {realm : Realm} {w : World} {k : Nat}

section
variable {conf : Conf} {env : Env} {I : World → Prop} {realms : List (Realm × Nat)}

theorem mem_potentialLinks {satellites own potential : List Nat} {i : Nat} (h : i ∈ potentialLinks satellites own potential) :
    i ∈ satellites := by
  unfold potentialLinks at h
  simp only at h
  split at h
  · exact (List.mem_filter.mp h).1
  · exact (List.mem_filter.mp h).1

theorem mem_masterThenSpare {links : List Nat} {i : Nat} : i ∈ masterThenSpare conf links ↔ i ∈ links := by
  unfold masterThenSpare
  rw [List.mem_append, List.mem_filter, List.mem_filter]
  cases conf.spare i <;> simp

theorem schedulerLinks_subset {s : Nat} (h : s ∈ realm.schedulerLinks conf) : s ∈ conf.schedulers :=
  mem_masterThenSpare.mp (mem_potentialLinks h)

theorem popScheduler_spec : ∀ {l : List Nat}, (∀ s ∈ (popScheduler w l).2, s ∈ l) ∧
    ∀ s, (popScheduler w l).1 = some s → s ∈ l ∧ (w.link s).needConf = true
  | [] => ⟨fun _ h => h, fun _ h => nomatch h⟩
  | s :: l => by
    obtain ⟨h1, h2⟩ := popScheduler_spec (l := l)
    unfold popScheduler
    split
    · rename_i hn
      refine ⟨fun x hx => List.mem_cons_of_mem _ hx, fun x hx => ?_⟩
      cases hx
      exact ⟨List.mem_cons_self, hn⟩
    · exact ⟨fun x hx => List.mem_cons_of_mem _ (h1 x hx), fun x hx => ⟨List.mem_cons_of_mem _ (h2 x hx).1, (h2 x hx).2⟩⟩

theorem assignTo_part (k p s : Nat) (w : World) {q : Nat} (h : q ≠ p) : (assignTo env k p s w).part q = w.part q :=
  Function.update_of_ne h _ _

theorem assignPart_keeps (h : KeptByTurns conf env realms I) (hk : (realm, k) ∈ realms)
    {p : Nat} (hp : p ∈ realm.parts) {assigned : List Nat × World} (hl : ∀ s ∈ assigned.1, s ∈ realm.schedulerLinks conf)
    (hf : (assigned.2.part p).isAssigned = false) (hw : I assigned.2) :
    I (assignPart env k assigned p).2 ∧ (∀ s ∈ (assignPart env k assigned p).1, s ∈ realm.schedulerLinks conf) ∧
      ∀ q, q ≠ p → (assignPart env k assigned p).2.part q = assigned.2.part q := by
  obtain ⟨h1, h2⟩ := popScheduler_spec (w := assigned.2) (l := assigned.1)
  unfold assignPart
  split
  · rename_i s rest he
    rw [he] at h1 h2
    obtain ⟨hs, hn⟩ := h2 s rfl
    exact ⟨h.assign realm k p s _ hk hp hf (hl s hs) hn hw, fun x hx => hl x (h1 x hx), fun q hq => assignTo_part k p s _ hq⟩
  · rename_i rest he
    rw [he] at h1
    refine ⟨h.table realm k p _ _ hk hp (fun k' t q hne => ?_) hw, fun x hx => hl x (h1 x hx), fun q _ => rfl⟩
    exact if_neg fun e => hne.elim (fun hn => hn e.1) fun hn => hn e.2

theorem assignParts_keeps (h : KeptByTurns conf env realms I) (hk : (realm, k) ∈ realms)
    (hw : I w) : I (assignParts conf env k realm w) := by
  have loop : ∀ (l : List Nat) (assigned : List Nat × World), l.Nodup → (∀ p ∈ l, p ∈ realm.parts) →
      (∀ s ∈ assigned.1, s ∈ realm.schedulerLinks conf) → (∀ p ∈ l, (assigned.2.part p).isAssigned = false) → I assigned.2 →
      I (l.foldl (assignPart env k) assigned).2 := by
    intro l
    induction l with
    | nil => exact fun _ _ _ _ _ h => h
    | cons p l ih =>
      intro assigned hn hp hl hf hI
      rw [List.nodup_cons] at hn
      obtain ⟨h1, h2, h3⟩ := assignPart_keeps h hk (hp p List.mem_cons_self) hl (hf p List.mem_cons_self) hI
      refine ih _ hn.2 (fun q hq => hp q (List.mem_cons_of_mem _ hq)) h2 (fun q hq => ?_) h1
      rw [h3 q fun e => hn.1 (e ▸ hq)]
      exact hf q (List.mem_cons_of_mem _ hq)
  refine loop _ _ (realm.nodup.filter _) (fun p hp => (List.mem_filter.mp hp).1) (fun s hs => List.mem_reverse.mp hs)
    (fun p hp => ?_) hw
  simpa using (List.mem_filter.mp hp).2

theorem prepareSatellites_keeps (h : KeptByTurns conf env realms I) (hk : (realm, k) ∈ realms)
    {w' : World} {job : Nat × SatType} (hp : job.1 ∈ realm.parts) (hr : prepareSatellites conf k realm w job = some w')
    (hw : I w) : I w' := by
  unfold prepareSatellites at hr
  split at hr
  · cases hr
  · split at hr
    · cases hr
    · cases hr
      refine List.foldlRecOn (motive := fun prepared : Nat × World => I prepared.2) _ _ hw fun prepared hI i hi => ?_
      unfold prepareSatellite
      split
      · exact hI
      · rename_i x he
        split
        · exact hI
        · refine h.table realm k job.1 _ _ hk hp (fun k' t q hne => ?_)
            (h.give realm k job.1 job.2 x i _ hk hp he (mem_potentialLinks hi) hI)
          exact if_neg fun e => hne.elim (fun hn => hn e.1) fun hn => hn e.2.2

theorem untilReturn_keeps {α : Type} {turn : World → α → Option World} : ∀ (l : List α),
    (∀ w w', ∀ a ∈ l, turn w a = some w' → I w → I w') → ∀ w, I w → I (untilReturn turn l w).2
  | [], _, _, h => h
  | a :: l, ht, w, h => by
    unfold untilReturn
    split
    · exact h
    · rename_i w' he
      exact untilReturn_keeps l (fun w w' b hb => ht w w' b (List.mem_cons_of_mem _ hb)) w' (ht w w' a List.mem_cons_self he h)

theorem mem_satelliteJobs {parts : List Nat} {job : Nat × SatType} : job ∈ satelliteJobs parts ↔ job.1 ∈ parts := by
  obtain ⟨p, t⟩ := job
  unfold satelliteJobs SatType.all
  cases t <;> simp

theorem prepareRealm_keeps (h : KeptByTurns conf env realms I) (hk : (realm, k) ∈ realms)
    (hw : I w) : I (prepareRealm conf env k realm w).2 := by
  unfold prepareRealm
  split
  · exact hw
  · split
    · exact hw
    · refine untilReturn_keeps _ (fun w w' job hj hr => ?_) _ (assignParts_keeps h hk hw)
      exact prepareSatellites_keeps h hk (mem_satelliteJobs.mp hj) hr

theorem prepareRealms_keeps (h : KeptByTurns conf env realms I) : ∀ (l : List (Realm × Nat)), (∀ e ∈ l, e ∈ realms) →
    ∀ w, I w → I (prepareRealms conf env l w).2
  | [], _, _, hw => hw
  | (realm, k) :: l, hl, w, hw => by
    have hI := prepareRealm_keeps h (hl _ List.mem_cons_self) hw
    unfold prepareRealms
    split
    · rename_i w' he
      rw [he] at hI
      exact hI
    · rename_i w' he
      rw [he] at hI
      exact prepareRealms_keeps h l (fun e he => hl e (List.mem_cons_of_mem _ he)) w' hI

theorem prepared_keeps (h : KeptByPreparation conf env I)
    (hw : I { w with newToDispatch := true, firstDispatchDone := false }) : I (prepared conf env w) := by
  have harb : I ((masterThenSpare conf conf.arbiters).foldl (prepareArbiter conf)
      { w with newToDispatch := true, firstDispatchDone := false }) := by
    refine List.foldlRecOn (motive := I) _ _ hw fun w hI i hi => ?_
    unfold prepareArbiter
    split
    · exact hI
    · exact h.arbiter i (mem_masterThenSpare.mp hi) w hI
  have hI := prepareRealms_keeps h.turns conf.realms.zipIdx (fun _ he => he) _ harb
  unfold prepared
  simp only
  split
  · rename_i w' he
    rw [he] at hI
    exact hI
  · rename_i w' he
    rw [he] at hI
    refine List.foldlRecOn (motive := I) _ _ hI fun w hI s hs => ?_
    split
    · exact h.close s hs w hI
    · exact hI

end

end Alignak.Dispatching
