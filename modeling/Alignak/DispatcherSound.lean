import Alignak.DispatcherFrame

/-!
# Deliveries and assignments

What `configuration_sent` and `first_dispatch_done` say of the calls to the
daemons, which scheduler a configuration part is assigned to, and what is left
of a mismatch that `check_dispatch` finds.
-/

namespace Alignak.Dispatching

/-! ## Deliveries -/

def SatelliteLink.Done (x : SatelliteLink) : Prop := x.configurationSent = true → x.putConfDone = true

def SatelliteLink.Sent (conf : Conf) (i : Nat) (x : SatelliteLink) : Prop :=
  conf.active i = true → x.cfgToManage ≠ none → x.configurationSent = true

structure Delivered (conf : Conf) (w : World) : Prop where
  done : ∀ i, (w.link i).Done
  first : w.firstDispatchDone = true → ∀ i ∈ conf.schedulers ++ conf.allSatellites, (w.link i).Sent conf i

def ToBeSent (conf : Conf) (w : World) (i : Nat) : Prop :=
  (w.link i).configurationSent = false ∧ conf.active i = true ∧
    (i ∈ conf.schedulers ++ conf.allSatellites ∨ i ∈ conf.arbiters ∧ conf.spare i = true ∧ i ≠ conf.arbiterLink)

def Deliverable (conf : Conf) (env : Env) (w : World) : Prop :=
  ∀ i, ToBeSent conf w i →
    (i ∉ conf.arbiters → (w.link i).cfgToManage ≠ none → (w.link i).reachable = true) ∧
    ((w.link i).reachable = true → (w.link i).con = true → (w.link i).runningId ≠ 0 →
      (w.link i).alive = true ∧ ∃ content, env.pushConfiguration i = .content content)

variable {w w' : World} {α : Type} {I : World → Prop}

section
variable {conf : Conf} {env : Env} {i : Nat} {w₀ : World}

theorem putConf_done {x : SatelliteLink} (hr : x.reachable = true)
    (hd : x.con = true → x.runningId ≠ 0 → x.alive = true ∧ ∃ content, env.pushConfiguration i = .content content) :
    Ensures (fun w => w.link i = x) (putConf conf env i) fun _ w => (w.link i).putConfDone = true := by
  refine Ensures.bind (R := fun _ w => w.link i = { x with putConfDone := false }) (Ensures.modify fun w hw => ?_) fun _ => ?_
  · simp [World.modifyLink, hw]
  refine Ensures.readAt fun w hw => Ensures.ite (fun _ => Ensures.throw) fun hc => ?_
  have hcon : x.con = true ∧ x.runningId ≠ 0 := by simpa [hw] using hc
  obtain ⟨ha, content, hp⟩ := hd hcon.1 hcon.2
  refine Ensures.readAt fun w' hw' => Ensures.ite (fun hn => ?_) fun _ => Ensures.ite (fun hn => ?_) fun _ => ?_
  · simp [hw', hw, ha] at hn
  · simp [hw', hw, hr] at hn
  rw [hp]
  refine Ensures.bind (R := fun r w => (∃ a, r = .ok a) ∧ (w.link i).putConfDone = true) ?_ fun r => ?_
  · refine Ensures.bind (R := fun _ w => (w.link i).putConfDone = true) (Ensures.modify fun w _ => ?_) fun _ => ?_
    · simp [World.modifyLink]
    · exact Ensures.pure fun w hw => ⟨⟨_, rfl⟩, hw⟩
  · rintro w ⟨⟨a, rfl⟩, hw⟩
    exact Ensures.pure (P := fun w => (w.link i).putConfDone = true) (fun _ h => h) w hw

theorem putConf_unsent (h : (w.link i).configurationSent = false) :
    Leads (· = w) (putConf conf env i) fun w => (w.link i).configurationSent = false := by
  rintro w' rfl
  have hput : OnLink i _ (putConf conf env i) := putConf_onLink
  obtain ⟨x, hx, he⟩ := hput w'
  simp only [Prod.mk.injEq] at hx
  refine ⟨?_, fun _ _ _ => trivial⟩
  rw [he]
  simp [hx.2.1, h]

theorem OnLink.keepsDone {m : Dispatch α} {j : Nat} (h : OnLink j SatelliteLink.duty m) :
    Keeps (fun w => (w.link i).Done) m := by
  intro w hw
  obtain ⟨x, hx, he⟩ := h w
  refine ⟨?_, fun _ _ _ => trivial⟩
  rw [he]
  by_cases hne : i = j
  · subst hne
    simp only [SatelliteLink.duty, Prod.mk.injEq] at hx
    simpa [SatelliteLink.Done, hx.2.1, hx.2.2.2.2] using hw
  · simpa [Function.update_of_ne hne] using hw

theorem sendConf_done {rest : Dispatch Unit} (hs : (w.link i).configurationSent = false)
    (hr : (w.link i).reachable = true)
    (hd : (w.link i).con = true → (w.link i).runningId ≠ 0 →
      (w.link i).alive = true ∧ ∃ content, env.pushConfiguration i = .content content)
    (hrest : Keeps (fun w => (w.link i).Done) rest) :
    Leads (· = w) (do
      let _ ← putConf conf env i
      modify fun w => w.modifyLink i fun x => { x with configurationSent := true }
      rest) fun w => (w.link i).Done := by
  have hdone : Ensures (fun v => v.link i = w.link i) (putConf conf env i) fun _ v => (v.link i).putConfDone = true :=
    putConf_done hr hd
  refine Leads.bindOk (K := fun w => (w.link i).configurationSent = false) (putConf_unsent hs)
    (hdone.pre fun _ e => by rw [e]) (fun _ => ?_) fun w h e => ?_
  · refine Leads.bind (K := fun w => (w.link i).Done) (Leads.modify fun w h _ => ?_) (fun _ => hrest) fun _ h => h
    simpa [World.modifyLink] using h.2
  · rw [h] at e
    cases e

/-- The deliveries of `Deliverable`, for one link. -/
def DeliveredOnce (conf : Conf) (env : Env) (w : World) (i : Nat) : Prop :=
  ToBeSent conf w i → (w.link i).reachable = true → (w.link i).con = true → (w.link i).runningId ≠ 0 →
    (w.link i).alive = true ∧ ∃ content, env.pushConfiguration i = .content content

theorem dispatchToLink_done (hd : DeliveredOnce conf env w₀ i) (hi : i ∈ conf.schedulers ++ conf.allSatellites) :
    Leads (fun w => (w.link i).Done ∧ w.link i = w₀.link i) (dispatchToLink conf env i) fun w => (w.link i).Done := by
  refine Leads.readAt fun w hw => ?_
  by_cases hc : (w.link i).configurationSent = true ∨ (!conf.active i) = true ∨ (!(w.link i).reachable) = true
  · rw [if_pos hc]
    rintro _ rfl
    exact ⟨hw.1, fun _ _ _ => trivial⟩
  rw [if_neg hc]
  simp only [Bool.not_eq_true', not_or, Bool.not_eq_true, Bool.not_eq_false] at hc
  obtain ⟨hs, ha, hr⟩ := hc
  refine sendConf_done hs hr (fun h1 h2 => ?_) (Keeps.pure ())
  rw [hw.2] at hs hr h1 h2 ⊢
  exact hd ⟨hs, ha, Or.inl hi⟩ hr h1 h2

theorem dispatchToArbiter_done (hd : DeliveredOnce conf env w₀ i) (hi : i ∈ conf.arbiters) :
    Leads (fun w => (w.link i).Done ∧ w.link i = w₀.link i) (dispatchToArbiter conf env i) fun w => (w.link i).Done := by
  refine Leads.readAt fun w hw => ?_
  by_cases hc : i = conf.arbiterLink ∨ (!conf.active i) = true ∨ (!conf.spare i) = true ∨
      (w.link i).configurationSent = true ∨ (!(w.link i).reachable) = true
  · rw [if_pos hc]
    rintro _ rfl
    exact ⟨hw.1, fun _ _ _ => trivial⟩
  rw [if_neg hc]
  simp only [Bool.not_eq_true', not_or, Bool.not_eq_true, Bool.not_eq_false] at hc
  obtain ⟨hne, ha, hsp, hs, hr⟩ := hc
  refine sendConf_done hs hr (fun h1 h2 => ?_) doNotRun_onLink.keepsDone
  rw [hw.2] at hs hr h1 h2 ⊢
  exact hd ⟨hs, ha, Or.inr ⟨hi, hsp, hne⟩⟩ hr h1 h2

theorem dispatchToLink_sent (hr : (w₀.link i).configurationSent = false → conf.active i = true →
    (w₀.link i).cfgToManage ≠ none → (w₀.link i).reachable = true) :
    Ensures (fun w => w.link i = w₀.link i) (dispatchToLink conf env i) fun _ w => (w.link i).Sent conf i := by
  refine Ensures.readAt fun w hw => Ensures.ite (fun hc => Ensures.pure ?_) fun _ => ?_
  · rintro _ rfl ha hcfg
    rw [hw] at hc hcfg ⊢
    cases hs : (w₀.link i).configurationSent with
    | true => rfl
    | false => simp [hs, ha, hr hs ha hcfg] at hc
  · refine Ensures.bind (R := fun _ _ => True) (fun _ _ _ _ _ => trivial) fun _ => Ensures.modify fun w _ _ _ => ?_
    simp [World.modifyLink]

def Sending (w : World) : Prop := (∀ i, (w.link i).Done) ∧ w.firstDispatchDone = false

theorem OnLink.sending {γ : Type} {π : SatelliteLink → γ} {m : Dispatch Unit} (h : OnLink i π m) {x : SatelliteLink}
    (hd : Leads (fun w => (w.link i).Done ∧ w.link i = x) m fun w => (w.link i).Done) :
    Leads (fun w => Sending w ∧ w.link i = x) m Sending := by
  intro w hw
  obtain ⟨y, -, he⟩ := h w
  refine ⟨⟨fun j => ?_, ?_⟩, fun _ _ _ => trivial⟩
  · by_cases hne : j = i
    · subst hne
      exact (hd w ⟨hw.1.1 j, hw.2⟩).1
    · rw [h.link_ne hne]
      exact hw.1.1 j
  · rw [he]
    exact hw.1.2

theorem Sending.delivered (h : Sending w) : Delivered conf w :=
  ⟨h.1, fun hf => by rw [h.2] at hf; cases hf⟩

theorem Deliverable.once (h : Deliverable conf env w₀) (i : Nat) : DeliveredOnce conf env w₀ i :=
  fun ht hr => (h i ht).2 hr

theorem sendAll_delivered (hd : Deliverable conf env w₀) :
    Leads (fun w => Sending w ∧ w.link = w₀.link) (do
      conf.arbiters.forM (dispatchToArbiter conf env)
      conf.schedulers.forM (dispatchToLink conf env)
      conf.allSatellites.forM (dispatchToLink conf env)
      modify fun w => if w.dispatchOk then { w with newToDispatch := false, firstDispatchDone := true } else w)
    (Delivered conf) := by
  have hn := conf.nodup'
  have hn2 := (List.nodup_append.mp hn).2.1
  have hn3 := (List.nodup_append.mp hn2).2.1
  have hmem : ∀ i ∈ conf.allSatellites, i ∈ conf.schedulers ++ conf.allSatellites := fun i => List.mem_append_right _
  have hmem' : ∀ i ∈ conf.schedulers, i ∈ conf.schedulers ++ conf.allSatellites := fun i => List.mem_append_left _
  have hturn : ∀ i ∈ conf.schedulers ++ conf.allSatellites,
      Leads (fun w => Sending w ∧ w.link i = w₀.link i) (dispatchToLink conf env i) Sending :=
    fun i hi => dispatchToLink_onLink.sending (dispatchToLink_done (hd.once i) hi)
  have hsent : ∀ i ∈ conf.schedulers ++ conf.allSatellites, Ensures (fun w => w.link i = w₀.link i)
      (dispatchToLink conf env i) fun _ w => (w.link i).Sent conf i :=
    fun i hi => dispatchToLink_sent fun hs ha hc => (hd i ⟨hs, ha, Or.inl hi⟩).1 (mem_of_not_arbiter hi) hc
  have hS : Ensures (fun w => ∀ i ∈ conf.schedulers ++ (conf.allSatellites ++ []), w.link i = w₀.link i)
      (conf.schedulers.forM (dispatchToLink conf env))
      fun _ w => (∀ i ∈ conf.schedulers, (w.link i).Sent conf i) ∧ ∀ i ∈ conf.allSatellites ++ [], w.link i = w₀.link i :=
    (forM_ensures (Q := fun i x => x.Sent conf i) (D := []) (fun i _ => dispatchToLink_onLink) hn2
      fun i hi => hsent i (hmem' i hi)).pre fun w h => ⟨fun i hi => absurd hi List.not_mem_nil, h⟩
  have hT : Ensures (fun w => (∀ i ∈ conf.schedulers, (w.link i).Sent conf i) ∧ ∀ i ∈ conf.allSatellites ++ [], w.link i = w₀.link i)
      (conf.allSatellites.forM (dispatchToLink conf env))
      fun _ w => (∀ i ∈ conf.schedulers ++ conf.allSatellites, (w.link i).Sent conf i) ∧ ∀ i ∈ [], w.link i = w₀.link i :=
    forM_ensures (Q := fun i x => x.Sent conf i) (fun i _ => dispatchToLink_onLink) hn2 fun i hi => hsent i (hmem i hi)
  refine Leads.bind (K := fun w => Sending w ∧ ∀ i ∈ conf.schedulers ++ (conf.allSatellites ++ []), w.link i = w₀.link i)
    ?_ (fun _ => ?_) fun _ h => h.1.delivered
  · refine (forM_leads (fun i _ => dispatchToArbiter_onLink) hn fun i hi => ?_).pre fun w h => ⟨h.1, fun i _ => by rw [h.2]⟩
    exact dispatchToArbiter_onLink.sending (dispatchToArbiter_done (hd.once i) hi)
  refine Leads.bindOk (K := fun w => Sending w ∧ ∀ i ∈ conf.allSatellites ++ [], w.link i = w₀.link i)
    (forM_leads (fun i _ => dispatchToLink_onLink) hn2 fun i hi => hturn i (hmem' i hi)) (hS.pre fun w h => h.2)
    (fun _ => ?_) fun _ h => h.1.delivered
  refine Leads.bindOk (K := fun w => Sending w ∧ ∀ i ∈ [], w.link i = w₀.link i)
    ((forM_leads (fun i _ => dispatchToLink_onLink) hn3 fun i hi => hturn i (hmem i hi)).pre fun w h => h.1)
    (hT.pre fun w h => h.2) (fun _ => ?_) fun _ h => h.1.delivered
  refine Leads.modify fun w h => ?_
  split
  · exact ⟨h.1.1.1, fun _ => h.2.1⟩
  · exact h.1.1.delivered

theorem dispatch_delivered (h : Delivered conf w) (hd : w.newToDispatch = true → w.firstDispatchDone = false →
    w.dispatchOk = false → Deliverable conf env w) : Leads (· = w) (dispatch conf env) (Delivered conf) := by
  have hkeep : Leads (· = w) (pure () : Dispatch Unit) (Delivered conf) := by
    rintro _ rfl
    exact ⟨h, fun _ _ _ => trivial⟩
  have hthrow : Leads (· = w) (throw Raised.dispatcherError : Dispatch Unit) (Delivered conf) := by
    rintro _ rfl
    exact ⟨h, fun _ _ _ => trivial⟩
  refine Leads.readAt fun w' e => ?_
  subst e
  cases hn : w'.newToDispatch with
  | false => exact hthrow
  | true =>
    cases hf : w'.firstDispatchDone with
    | true => exact hthrow
    | false =>
      cases ho : w'.dispatchOk with
      | true => exact hkeep
      | false =>
        refine Leads.bind (K := fun v => Sending v ∧ v.link = w'.link) (Leads.modify ?_)
          (fun _ => sendAll_delivered (hd hn hf ho)) fun _ h => h.1.delivered
        rintro _ rfl
        exact ⟨⟨h.done, hf⟩, rfl⟩

/-! ## Polling -/

structure Polling (conf : Conf) (w : World) : Prop where
  done : ∀ i, (w.link i).Done
  first : w.firstDispatchDone = true → w.notConfigured = [] → ∀ i ∈ conf.schedulers ++ conf.allSatellites,
    (w.link i).Sent conf i

theorem OnLink.polling {m : Dispatch α} (h : OnLink i SatelliteLink.duty m) : Keeps (Polling conf) m := by
  intro w hw
  obtain ⟨x, hx, he⟩ := h w
  simp only [SatelliteLink.duty, Prod.mk.injEq] at hx
  refine ⟨⟨fun j => ?_, fun hf hn j hj => ?_⟩, fun _ _ _ => trivial⟩
  · exact (h.keepsDone w (hw.done j)).1
  · rw [he] at hf hn ⊢
    have hs := hw.first hf hn j hj
    by_cases hne : j = i
    · subst hne
      simpa [SatelliteLink.Sent, hx.2.1, hx.2.2.1] using hs
    · simpa [Function.update_of_ne hne] using hs

theorem request_ne_data (r : Response α) : r.request ≠ .error .data := by
  cases r <;> simp [Response.request]

theorem communicate_raises {E : Raised → Prop} {call : Dispatch (Except HTTPClientException (Answer α))}
    (h : Keeps (fun _ => True) call E) (hr : Ensures (fun _ => True) call fun r _ => r ≠ .error .data) :
    Keeps (fun _ => True) (communicate conf i call) E := by
  refine Keeps.read fun w => Keeps.ite (fun _ => Keeps.pure _) fun _ => Keeps.ite (fun _ => ?_) fun _ => ?_
  · exact Keeps.bind (Keeps.modify fun _ _ => trivial) fun _ => Keeps.pure _
  refine Leads.bindOk h hr (fun r => ?_) fun _ h => h
  rintro w ⟨-, hne⟩
  refine ⟨trivial, fun e w' he => ?_⟩
  cases r with
  | ok a => cases he
  | error x =>
    cases x with
    | connection => cases he
    | timeout => cases he
    | data => exact absurd rfl hne
    | other => cases he

theorem validConnection_raises {call : Dispatch (Answer α)} (h : Keeps (fun _ => True) call (· = .linkError)) :
    Keeps (fun _ => True) (validConnection i call) (· = .linkError) :=
  Keeps.read fun _ => Keeps.ite (fun _ => Keeps.throw rfl) fun _ => h

theorem getConf_raises : Keeps (fun _ => True) (getConf conf env i) (· = .linkError) := by
  have hne := request_ne_data (env.managedConfigurations i)
  refine validConnection_raises (communicate_raises ?_ ?_)
  · cases (env.managedConfigurations i).request with
    | ok managed => exact Keeps.bind (Keeps.modify fun _ _ => trivial) fun _ => Keeps.pure _
    | error e => exact Keeps.pure _
  · cases he : (env.managedConfigurations i).request with
    | ok managed => exact Ensures.bind (fun _ _ _ _ _ => trivial) fun _ => Ensures.pure fun _ _ e => nomatch e
    | error e => exact Ensures.pure fun _ _ e' => hne (he.trans (by cases e'; rfl))

theorem updateInfos_raises (forced : Bool) : Keeps (fun _ => True) (updateInfos conf env forced i) (· = .linkError) := by
  refine validConnection_raises (communicate_raises (Keeps.read fun w => Keeps.ite (fun _ => Keeps.pure _) fun _ => ?_)
    (Ensures.readAt fun w _ => Ensures.ite (fun _ => Ensures.pure fun _ _ e => nomatch e) fun _ => ?_))
  · refine Keeps.bind getConf_raises fun _ => Keeps.bind (Keeps.modify fun _ _ => trivial) fun _ => Keeps.read fun w => ?_
    cases (w.link i).cfgManaged with
    | none => exact Keeps.pure _
    | some managed => exact Keeps.pure _
  · refine Ensures.bind (R := fun _ _ => True) (fun _ _ _ _ _ => trivial) fun _ => ?_
    refine Ensures.bind (R := fun _ _ => True) (fun _ _ _ _ _ => trivial) fun _ => Ensures.readAt fun w _ => ?_
    cases (w.link i).cfgManaged with
    | none => exact Ensures.pure fun _ _ e => nomatch e
    | some managed => exact Ensures.pure fun _ _ e => nomatch e

/-- The handler of `check_reachable` catches all that a poll raises. -/
theorem orFalse_keeps {call : Dispatch (Answer α)} (h : Keeps I call)
    (hr : Keeps (fun _ => True) call (· = .linkError)) : Keeps I (orFalse call) fun _ => False := by
  intro w hw
  have h1 := (h w hw).1
  have h2 := (hr w trivial).2
  unfold orFalse
  cases hc : call w with
  | ok a w' =>
    rw [hc] at h1
    exact ⟨h1, fun _ _ e => nomatch e⟩
  | error e w' =>
    rw [hc] at h1
    cases h2 e w' hc
    exact ⟨h1, fun _ _ e => nomatch e⟩

theorem notePolled_polling (r : Answer (List Managed)) (h : Polling conf w) :
    Polling conf (notePolled i r w) := by
  have hset : Polling conf (setNotConfigured i w) := ⟨h.done, fun _ hn => absurd hn (by simp [setNotConfigured])⟩
  cases r with
  | none => exact h
  | false => exact hset
  | got managed =>
    simp only [notePolled]
    split
    · refine ⟨fun j => ?_, fun _ hn => absurd hn (by simp [setNotConfigured, World.modifyLink])⟩
      by_cases hne : j = i
      · subst hne
        simp [World.modifyLink, SatelliteLink.Done]
      · simpa [World.modifyLink, Function.update_of_ne hne] using hset.done j
    · split
      · exact hset
      · exact h

theorem pollLinks_polling (forced : Bool) : Leads (Delivered conf) (pollLinks conf env forced) (Polling conf) fun _ => False := by
  refine Leads.bind (K := Polling conf) (Leads.modify fun w h => ⟨h.done, fun hf _ => h.first hf⟩) (fun _ => ?_) fun _ h => h
  refine Keeps.forM fun i _ => Keeps.ite (fun _ => Keeps.pure _) fun _ => Keeps.read fun w => ?_
  refine Keeps.bind (orFalse_keeps (updateInfos_onLink _).polling (updateInfos_raises _)) fun r => ?_
  exact Keeps.modify fun w h => notePolled_polling r h

def NeedsDispatch (w : World) : Prop := w.notConfigured ≠ [] ∧ (w.newToDispatch = true ∨ w.firstDispatchDone = true)

theorem dispatchIfNotConfigured_delivered (h : Polling conf w) (hd : NeedsDispatch w → Deliverable conf env w) :
    Leads (· = w) (dispatchIfNotConfigured conf env) (Delivered conf) := by
  refine Leads.readAt fun w' e => ?_
  subst e
  by_cases h1 : w'.notConfigured ≠ [] ∧ w'.newToDispatch = true ∧ (!w'.firstDispatchDone) = true
  · rw [if_pos h1]
    simp only [Bool.not_eq_true'] at h1
    have hs : Delivered conf { w' with dispatchOk := false } := ⟨h.done, fun hf => absurd (h1.2.2.symm.trans hf) (by decide)⟩
    refine Leads.bind (K := (· = { w' with dispatchOk := false })) (Leads.modify fun _ e => by rw [e])
      (fun _ => dispatch_delivered hs fun _ _ _ => hd ⟨h1.1, Or.inl h1.2.1⟩) ?_
    rintro _ rfl
    exact hs
  rw [if_neg h1]
  by_cases h2 : w'.notConfigured ≠ [] ∧ w'.firstDispatchDone = true
  · rw [if_pos h2]
    have hs : Delivered conf { w' with dispatchOk := false, newToDispatch := true, firstDispatchDone := false } :=
      ⟨h.done, fun hf => nomatch hf⟩
    refine Leads.bind (K := (· = { w' with dispatchOk := false, newToDispatch := true, firstDispatchDone := false }))
      (Leads.modify fun _ e => by rw [e]) (fun _ => dispatch_delivered hs fun _ _ _ => hd ⟨h2.1, Or.inr h2.2⟩) ?_
    rintro _ rfl
    exact hs
  · rw [if_neg h2]
    rintro _ rfl
    refine ⟨⟨h.done, fun hf => h.first hf ?_⟩, fun _ _ _ => trivial⟩
    exact Classical.byContradiction fun hn => h2 ⟨hn, hf⟩

/-! ## The checks of the parts -/

theorem redispatch_rest (k : Nat) (t : SatType) (p : Nat) (w : World) : (redispatch k t p w).link = w.link ∧
    (redispatch k t p w).part = w.part ∧ (redispatch k t p w).firstDispatchDone = w.firstDispatchDone ∧
    (redispatch k t p w).newToDispatch = w.newToDispatch ∧ (redispatch k t p w).notConfigured = w.notConfigured := by
  unfold redispatch
  split <;> exact ⟨rfl, rfl, rfl, rfl, rfl⟩

theorem checkRealm_keeps (hr : ∀ s p w, (w.part p).schedulerLink = some s → I w → I (resetScheduler s p w))
    (hd : ∀ k t p w, I w → I (redispatch k t p w)) (ho : ∀ w, I w → I { w with dispatchOk := false }) (realm : Realm × Nat) :
    Keeps I (checkRealm realm) := by
  refine Keeps.forM fun p _ => Leads.readAt fun w hw => ?_
  cases hs : (w.part p).schedulerLink with
  | none => exact Leads.modify fun _ e => ho _ (e ▸ hw)
  | some s =>
    refine Leads.bind (K := I) (Leads.modify fun _ e => hr s p _ (e ▸ hs) (e ▸ hw)) (fun _ => ?_) fun _ h => h
    refine Keeps.forM fun t _ => Keeps.read fun w => ?_
    cases w.toSatellites realm.2 t p with
    | none => exact Keeps.throw trivial
    | some x =>
      refine Keeps.bind (Keeps.guarded fun _ => Keeps.modify fun w h => hd _ _ _ _ h) fun _ => Keeps.modify fun w h => ?_
      refine List.foldlRecOn (motive := I) _ _ h fun w hw i _ => ?_
      unfold checkSatellite
      split
      · exact hw
      · split
        · exact hd _ _ _ _ hw
        · exact hw

theorem resetScheduler_delivered (s p : Nat) (h : Delivered conf w) : Delivered conf (resetScheduler s p w) := by
  unfold resetScheduler
  split
  · refine ⟨fun i => ?_, fun hf i hi ha hc => ?_⟩
    · by_cases hne : i = s
      · subst hne
        simpa [World.modifyLink, SatelliteLink.Done] using h.done i
      · simpa [World.modifyLink, Function.update_of_ne hne] using h.done i
    · by_cases hne : i = s
      · subst hne
        simp [World.modifyLink] at hc
      · simp only [World.modifyLink, Function.update_of_ne hne] at hc ⊢
        exact h.first hf i hi ha hc
  · exact h

theorem Delivered.of_eq (h : Delivered conf w) (hl : w'.link = w.link)
    (hf : w'.firstDispatchDone = w.firstDispatchDone) : Delivered conf w' := by
  refine ⟨fun i => ?_, fun hd => ?_⟩
  · rw [hl]; exact h.done i
  · rw [hl]; exact h.first (hf ▸ hd)

theorem checkReachable_delivered (forced : Bool) (h : Delivered conf w)
    (hd : let w' := stateAfter (pollLinks conf env forced w); NeedsDispatch w' → Deliverable conf env w') :
    Leads (· = w) (checkReachable conf env forced) (Delivered conf) := by
  have hp : Polling conf (stateAfter (pollLinks conf env forced w)) ∧ _ := pollLinks_polling forced w h
  rintro w' rfl
  unfold checkReachable
  rw [bind_eq]
  cases hr : pollLinks conf env forced w' with
  | error e v => exact (hp.2 e v hr).elim
  | ok a v =>
    rw [hr] at hp hd
    refine Leads.bind (dispatchIfNotConfigured_delivered hp.1 hd) (fun _ => ?_) (fun _ h => h) v rfl
    exact fun w h => ⟨h, fun _ _ _ => trivial⟩

def Turn.Delivers (conf : Conf) (t : Turn) : Prop :=
  match t.call with
  | .dispatch => t.world.newToDispatch = true → t.world.firstDispatchDone = false → t.world.dispatchOk = false →
      Deliverable conf t.env t.world
  | .checkReachable forced =>
    let w := stateAfter (pollLinks conf t.env forced t.world)
    NeedsDispatch w → Deliverable conf t.env w
  | .checkDispatch =>
    let w := stateAfter (pollLinks conf t.env true { t.world with dispatchOk := true })
    t.world.firstDispatchDone = true → NeedsDispatch w → Deliverable conf t.env w
  | _ => True

theorem discard_leads {J : World → Prop} {m : Dispatch α} (h : Leads I m J) : Leads I (discard m) J := by
  intro w hw
  have h1 := (h w hw).1
  refine ⟨?_, fun _ _ _ => trivial⟩
  show J (stateAfter ((m >>= fun _ => pure ()) w))
  rw [bind_eq]
  cases hr : m w with
  | ok a w' => rw [hr] at h1; exact h1
  | error e w' => rw [hr] at h1; exact h1

theorem OnLink.delivered {m : Dispatch α} (h : OnLink i SatelliteLink.duty m) : Keeps (Delivered conf) m := by
  intro w hw
  obtain ⟨x, hx, he⟩ := h w
  simp only [SatelliteLink.duty, Prod.mk.injEq] at hx
  refine ⟨⟨fun j => (h.keepsDone w (hw.done j)).1, fun hf j hj => ?_⟩, fun _ _ _ => trivial⟩
  rw [he] at hf ⊢
  have hs := hw.first hf j hj
  by_cases hne : j = i
  · subst hne
    simpa [SatelliteLink.Sent, hx.2.1, hx.2.2.1] using hs
  · simpa [Function.update_of_ne hne] using hs

theorem sending_kept : KeptByPreparation conf env Sending := by
  have hlink : ∀ (f : SatelliteLink → SatelliteLink) (i : Nat) (w : World), (∀ x, x.Done → (f x).Done) → Sending w →
      Sending (w.modifyLink i f) := by
    intro f i w hf hw
    refine ⟨fun j => ?_, hw.2⟩
    by_cases hne : j = i
    · subst hne
      simpa [World.modifyLink] using hf _ (hw.1 j)
    · simpa [World.modifyLink, Function.update_of_ne hne] using hw.1 j
  have hunsent : ∀ x : SatelliteLink, x.configurationSent = false → x.Done := fun x h e => absurd (h.symm.trans e) (by decide)
  refine ⟨⟨?_, fun _ _ _ w table _ _ _ hw => hw, fun _ _ p _ x i w _ _ _ _ => hlink _ i w fun _ _ => hunsent _ rfl⟩,
    fun i _ w => hlink _ i w fun _ _ => hunsent _ rfl, fun s _ w => hlink _ s w fun _ h => h⟩
  intro realm k p s w _ _ _ _ _ hw
  unfold assignTo
  exact hlink _ s _ (fun _ _ => hunsent _ rfl) hw

theorem Delivered.step {call : Call} (h : Delivered conf w) (hd : Turn.Delivers conf ⟨w, env, call⟩)
    (hs : Step conf env call w w') : Delivered conf w' := by
  have lead : ∀ {m : Dispatch Unit}, Leads (· = w) m (Delivered conf) → Delivered conf (stateAfter (m w)) :=
    fun hm => (hm w rfl).1
  rw [← hs]
  cases call with
  | prepareDispatch =>
    refine lead (Leads.readAt fun w' e => ?_)
    subst e
    by_cases hn : w'.newToDispatch = true
    · rw [if_pos hn]
      exact fun v e => ⟨e ▸ h, fun _ _ _ => trivial⟩
    · rw [if_neg hn]
      refine Leads.modify ?_
      rintro _ rfl
      exact (prepared_keeps sending_kept ⟨h.done, rfl⟩).delivered
  | dispatch => exact lead (dispatch_delivered h hd)
  | checkReachable forced => exact lead (discard_leads (checkReachable_delivered forced h hd))
  | checkDispatch =>
    refine lead (discard_leads (Leads.readAt fun w' e => ?_))
    subst e
    by_cases hf : (!w'.firstDispatchDone) = true
    · rw [if_pos hf]
      exact fun v e => ⟨e ▸ h, fun _ _ _ => trivial⟩
    rw [if_neg hf]
    rw [Bool.not_eq_true', Bool.not_eq_false] at hf
    refine Leads.bind (K := (· = { w' with dispatchOk := true })) (Leads.modify fun _ e => by rw [e]) (fun _ => ?_) ?_
    · refine Leads.bind (checkReachable_delivered true (h.of_eq rfl rfl) (hd hf)) (fun _ => ?_) fun _ h => h
      refine Keeps.bind (Keeps.forM fun realm _ => ?_) fun _ => Keeps.read fun _ => Keeps.pure _
      refine checkRealm_keeps (fun s p w _ h => resetScheduler_delivered s p h) (fun k t p w h => ?_) (fun w h => h.of_eq rfl rfl)
        realm
      obtain ⟨h1, -, h2, -⟩ := redispatch_rest k t p w
      exact h.of_eq h1 h2
    · rintro _ rfl
      exact h.of_eq rfl rfl
  | daemonConnectionInit i created identities waitNewConf =>
    exact lead ((daemonConnectionInit_onLink _ _ _).delivered.pre fun _ e => e ▸ h)
  | otherCall i response =>
    exact lead (discard_leads ((otherCall_onLink response).delivered.pre fun _ e => e ▸ h))

/-- While each dispatch reaches its links and no call that returns has failed,
what is said to be sent has been sent by the last `put_conf` of the link. -/
theorem configuration_sent_delivered {w₀ w : World} {trace : List Turn} (hi : Initial conf w₀) (h : Run conf w₀ trace w)
    (hd : ∀ t ∈ trace, t.Delivers conf) :
    (∀ i, (w.link i).configurationSent = true → (w.link i).putConfDone = true) ∧
    (w.firstDispatchDone = true → ∀ i ∈ conf.schedulers ++ conf.allSatellites, conf.active i = true →
      (w.link i).cfgToManage ≠ none → (w.link i).configurationSent = true) := by
  have h0 : Delivered conf w₀ :=
    ⟨fun i e => absurd ((hi.configurationSent i).symm.trans e) (by decide),
      fun e => absurd (hi.firstDispatchDone.symm.trans e) (by decide)⟩
  have hw := h.invariant conf hd h0 fun w env call w' hI hP hs => hI.step hP hs
  exact ⟨hw.done, hw.first⟩

end

theorem part_nodup : [0].Nodup ∧ [1].Nodup ∧ [2].Nodup := by decide

theorem part0_nodup : [0].Nodup := part_nodup.1

theorem part1_nodup : [1].Nodup := part_nodup.2.1

theorem part2_nodup : [2].Nodup := part_nodup.2.2

theorem oneScheduler_nodup : ([] ++ [] ++ [] ++ [] ++ [1] ++ [0] : List Nat).Nodup := by decide

def oneScheduler : Conf where
  arbiterLink := 0
  arbiters := [0]
  schedulers := [1]
  reactionners := []
  pollers := []
  brokers := []
  receivers := []
  realms := [⟨[0], part0_nodup, [1], [], fun _ => [], fun _ => [], fun _ => 0⟩]
  active := fun _ => true
  spare := fun _ => false
  maxCheckAttempts := fun _ => 3
  pollingInterval := fun _ => 5
  nodup := oneScheduler_nodup
  disjoint := by decide

def connectedWorld : World where
  link := fun _ => { con := true, runningId := 1, alive := true, reachable := true }
  part := fun _ => {}
  toSatellites := fun _ _ _ => none
  notConfigured := []
  dispatchOk := false
  newToDispatch := false
  firstDispatchDone := false

theorem connectedWorld_initial (conf : Conf) : Initial conf connectedWorld where
  needConf := fun _ _ => rfl
  configurationSent := fun _ => rfl
  cfgToManage := fun _ => rfl
  cfgManaged := fun _ => rfl
  schedulers := fun _ => rfl
  part := fun _ => rfl
  toSatellites := fun _ _ _ => rfl
  dispatchOk := rfl
  newToDispatch := rfl
  firstDispatchDone := rfl

def daemons (managed : List Managed) : Env where
  now := 100
  flavor := fun _ => 7
  managedConfigurations := fun _ => .content managed
  pushConfiguration := fun _ => .content ()
  doNotRun := fun _ => .content ()

def slowDaemons : Env := { daemons [] with pushConfiguration := fun _ => .timeout }

def afterCall (conf : Conf) (env : Env) (call : Call) (w : World) : World := stateAfter (runCall conf env call w)

/-- The only delivery of the run succeeds. -/
theorem configuration_sent_delivered_oneScheduler :
    ((afterCall oneScheduler (daemons []) .dispatch
      (afterCall oneScheduler (daemons []) .prepareDispatch connectedWorld)).link 1).configurationSent = true ∧
    ∀ i, ((afterCall oneScheduler (daemons []) .dispatch
      (afterCall oneScheduler (daemons []) .prepareDispatch connectedWorld)).link i).configurationSent = true →
      ((afterCall oneScheduler (daemons []) .dispatch
        (afterCall oneScheduler (daemons []) .prepareDispatch connectedWorld)).link i).putConfDone = true := by
  refine ⟨by decide, (configuration_sent_delivered (connectedWorld_initial oneScheduler)
    ((Run.nil.snoc rfl).snoc rfl) fun t ht => ?_).1⟩
  rcases List.mem_append.mp ht with ht | ht
  · cases List.mem_singleton.mp ht
    trivial
  · cases List.mem_singleton.mp ht
    intro _ _ _ i hi
    have h1 : i = 1 := by
      rcases hi.2.2 with h | h
      · simpa [oneScheduler, Conf.allSatellites] using h
      · simp [oneScheduler] at h
    subst h1
    exact ⟨fun _ _ => by decide, fun _ _ _ => ⟨by decide, (), rfl⟩⟩

/-- The daemon of the scheduler does not answer, and all is said to be sent. -/
theorem configuration_sent_lost : ¬ ∀ (conf : Conf) (w₀ w : World) (trace : List Turn), Initial conf w₀ → Run conf w₀ trace w →
    (∀ i, (w.link i).configurationSent = true → (w.link i).putConfDone = true) ∧
    (w.firstDispatchDone = true → ∀ i ∈ conf.schedulers ++ conf.allSatellites, conf.active i = true →
      (w.link i).cfgToManage ≠ none → (w.link i).configurationSent = true) := by
  intro h
  have hrun : Run oneScheduler connectedWorld [⟨_, slowDaemons, .prepareDispatch⟩, ⟨_, slowDaemons, .dispatch⟩]
      (afterCall oneScheduler slowDaemons .dispatch (afterCall oneScheduler slowDaemons .prepareDispatch connectedWorld)) :=
    (Run.nil.snoc rfl).snoc rfl
  have hsent := (h oneScheduler _ _ _ (connectedWorld_initial oneScheduler) hrun).1 1 (by decide)
  exact absurd hsent (by decide)

/-! ## A mismatch that is found -/

/-- `check_dispatch` returns `False`, and this link does not manage what it was given. -/
structure FindsMismatch (conf : Conf) (env : Env) (w w' : World) (i : Nat) : Prop where
  reachable : Reachable conf w
  returned : checkDispatch conf env w = .ok false w'
  link : (w'.link i).reachable = true
  mismatch : ∃ p, ((w.part p).schedulerLink = some i ∨ ∃ k t x, w.toSatellites k t p = some x ∧ i ∈ x.managedBy) ∧
    (w'.link i).manages p (w'.part p) = false

def SentAgain (w : World) (i : Nat) : Prop :=
  (w.link i).configurationSent = false ∧ w.newToDispatch = true ∧ w.firstDispatchDone = false

section
variable {conf : Conf} {env : Env} {i : Nat}

theorem dispatch_ends : Ensures (fun w => w.newToDispatch = true ∧ w.firstDispatchDone = false ∧ w.dispatchOk = false)
    (dispatch conf env) fun _ w => w.firstDispatchDone = true := by
  refine Ensures.readAt fun w hw => ?_
  rw [hw.1, hw.2.1, hw.2.2]
  have keep : ∀ {m : Dispatch PUnit}, Unchanged World.dispatchOk m →
      Ensures (fun w => w.dispatchOk = true) m fun _ w => w.dispatchOk = true :=
    fun hm => (hm.keeps (J := (· = true))).ensures
  refine Ensures.bind (R := fun _ w => w.dispatchOk = true) (Ensures.modify fun _ _ => rfl) fun _ => ?_
  refine Ensures.bind (keep (Unchanged.forM fun i _ => dispatchToArbiter_onLink.unchanged fun _ _ _ => rfl)) fun _ => ?_
  refine Ensures.bind (keep (Unchanged.forM fun i _ => dispatchToLink_onLink.unchanged fun _ _ _ => rfl)) fun _ => ?_
  refine Ensures.bind (keep (Unchanged.forM fun i _ => dispatchToLink_onLink.unchanged fun _ _ _ => rfl)) fun _ => ?_
  refine Ensures.modify fun w h => ?_
  rw [if_pos h]

theorem orFalse_unchanged {γ : Type} {p : World → γ} {call : Dispatch (Answer α)} (h : Unchanged p call) :
    Unchanged p (orFalse call) := by
  intro w
  have hw := h w
  unfold orFalse
  cases hc : call w with
  | ok a w' => rw [hc] at hw; exact hw
  | error e w' =>
    rw [hc] at hw
    cases e <;> exact hw

theorem notePolled_first (r : Answer (List Managed)) (w : World) : (notePolled i r w).firstDispatchDone = w.firstDispatchDone := by
  unfold notePolled setNotConfigured
  split
  · rfl
  · rfl
  · split
    · rfl
    · split <;> rfl

theorem pollLinks_first (forced : Bool) : Unchanged World.firstDispatchDone (pollLinks conf env forced) := by
  refine Unchanged.bind (Unchanged.modify fun _ => rfl) fun _ => Unchanged.forM fun i _ => ?_
  refine Unchanged.ite (Unchanged.pure _) (Unchanged.bind Unchanged.get fun w => ?_)
  refine Unchanged.bind (orFalse_unchanged ((updateInfos_onLink _).unchanged fun _ _ _ => rfl)) fun r => ?_
  exact Unchanged.modify (notePolled_first r)

theorem checkReachable_ends (forced : Bool) : Ensures (fun w => w.firstDispatchDone = true) (checkReachable conf env forced)
    fun _ w => w.firstDispatchDone = true := by
  have hpoll : Ensures (fun w => w.firstDispatchDone = true) (pollLinks conf env forced) fun _ w => w.firstDispatchDone = true :=
    ((pollLinks_first forced).keeps (J := (· = true))).ensures
  refine Ensures.bind hpoll fun _ => Ensures.bind (R := fun _ w => w.firstDispatchDone = true) ?_ fun _ => Ensures.pure fun _ h => h
  refine Ensures.readAt fun w hw => Ensures.ite (fun hc => ?_) fun _ => Ensures.ite (fun _ => ?_) fun _ => ?_
  · simp [hw] at hc
  · exact Ensures.bind (Ensures.modify fun _ _ => ⟨rfl, rfl, rfl⟩) fun _ => dispatch_ends
  · exact Ensures.pure fun _ e => e ▸ hw

theorem checkDispatch_ends : Ensures (fun _ => True) (checkDispatch conf env) fun _ w => w.firstDispatchDone = true := by
  refine Ensures.readAt fun w _ => Ensures.ite (fun _ => Ensures.throw) fun hf => ?_
  rw [Bool.not_eq_true', Bool.not_eq_false] at hf
  refine Ensures.bind (R := fun _ w => w.firstDispatchDone = true) (Ensures.modify fun _ e => e ▸ hf) fun _ => ?_
  refine Ensures.bind (checkReachable_ends true) fun _ => Ensures.bind (R := fun _ w => w.firstDispatchDone = true) ?_ fun _ =>
    Ensures.readAt fun w hw => Ensures.pure fun _ e => e ▸ hw
  refine Keeps.ensures (Keeps.forM fun realm _ => checkRealm_keeps (fun s p w _ h => ?_) (fun k t p w h => ?_) (fun w h => h) realm)
  · unfold resetScheduler
    split <;> exact h
  · rw [(redispatch_rest k t p w).2.2.1]
    exact h

/-- After a check that has returned the dispatcher never accepts a dispatch. -/
theorem mismatch_never_sent_again {w w' : World} (h : FindsMismatch conf env w w' i) :
    ¬ SentAgain w' i ∧ ∀ env', dispatch conf env' w' = .error .dispatcherError w' := by
  have hf := checkDispatch_ends w trivial false w' h.returned
  refine ⟨fun hs => absurd (hs.2.2.symm.trans hf) (by decide), fun env' => ?_⟩
  cases hn : w'.newToDispatch with
  | false =>
    unfold dispatch
    rw [get_bind, if_pos (by rw [hn]; rfl)]
    rfl
  | true =>
    unfold dispatch
    rw [get_bind, if_neg (by rw [hn]; decide), if_pos hf]
    rfl

end

/-- The state after the first dispatch of `oneScheduler`. -/
def dispatchedWorld : World :=
  afterCall oneScheduler (daemons []) .dispatch (afterCall oneScheduler (daemons []) .prepareDispatch connectedWorld)

theorem dispatchedWorld_reachable : Reachable oneScheduler dispatchedWorld :=
  ⟨connectedWorld, [⟨_, daemons [], .prepareDispatch⟩, ⟨_, daemons [], .dispatch⟩], connectedWorld_initial _,
    (Run.nil.snoc rfl).snoc rfl⟩

theorem oneScheduler_findsMismatch : FindsMismatch oneScheduler (daemons [⟨0, 8⟩]) dispatchedWorld
    (stateAfter (checkDispatch oneScheduler (daemons [⟨0, 8⟩]) dispatchedWorld)) 1 where
  reachable := dispatchedWorld_reachable
  returned := by rfl
  link := by decide
  mismatch := ⟨0, Or.inl (by decide), by decide⟩

theorem mismatch_not_sent : ¬ ∀ (conf : Conf) (env : Env) (w w' : World) (i : Nat), FindsMismatch conf env w w' i → SentAgain w' i :=
  fun h => absurd (h _ _ _ _ _ oneScheduler_findsMismatch).2.1 (by decide)

theorem mismatch_never_sent_again_oneScheduler :
    ¬ SentAgain (stateAfter (checkDispatch oneScheduler (daemons [⟨0, 8⟩]) dispatchedWorld)) 1 :=
  (mismatch_never_sent_again oneScheduler_findsMismatch).1

/-! ## Assignments -/

def AssignedTo (conf : Conf) (w : World) (p s : Nat) : Prop :=
  s ∈ conf.schedulers ∧ ((w.part p).schedulerLink = some s ∨ (w.link s).cfgToManage = some (.part p))

structure Assigned (conf : Conf) (w : World) : Prop where
  assigned : ∀ p, (w.part p).isAssigned = false → (w.part p).schedulerLink = none
  unique : ∀ p q s, (w.part p).schedulerLink = some s → (w.part q).schedulerLink = some s → p = q
  managed : ∀ p s, s ∈ conf.schedulers → (w.link s).cfgToManage = some (.part p) → (w.part p).schedulerLink = some s

def KeepsItsPart (conf : Conf) (w : World) : Prop :=
  ∀ realm ∈ conf.realms, ∀ p ∈ realm.parts, (w.part p).isAssigned = false → ∀ s ∈ realm.schedulerLinks conf,
    ∀ q, (w.part q).schedulerLink = some s → (w.link s).needConf = false

section
variable {conf : Conf} {env : Env} {i : Nat}

def World.assignments (w : World) := (fun i => ((w.link i).needConf, (w.link i).cfgToManage), w.part)

theorem Assigned.of_eq (h : Assigned conf w) (he : w'.assignments = w.assignments) : Assigned conf w' := by
  simp only [World.assignments, Prod.mk.injEq] at he
  have hl : ∀ i, (w'.link i).cfgToManage = (w.link i).cfgToManage := fun i => (Prod.mk.inj (congrFun he.1 i)).2
  refine ⟨?_, ?_, ?_⟩
  · rw [he.2]; exact h.assigned
  · rw [he.2]; exact h.unique
  · intro p s hs hc
    rw [he.2]
    exact h.managed p s hs ((hl s).symm.trans hc)

theorem OnLink.assignments {m : Dispatch α} (h : OnLink i SatelliteLink.assigned m) : Unchanged World.assignments m := by
  intro w
  obtain ⟨x, hx, he⟩ := h w
  simp only [SatelliteLink.assigned, Prod.mk.injEq] at hx
  rw [he]
  simp only [World.assignments, Prod.mk.injEq, and_true]
  funext j
  by_cases hne : j = i
  · subst hne
    simp [hx.1, hx.2.1]
  · simp [Function.update_of_ne hne]

structure Preparing (conf : Conf) (w : World) : Prop where
  assigned : Assigned conf w
  keeps : KeepsItsPart conf w

theorem Preparing.modifyLink {f : SatelliteLink → SatelliteLink} (h : Preparing conf w)
    (hf : ∀ x, (f x).needConf = false) (hc : i ∈ conf.schedulers → ∀ x, (f x).cfgToManage = x.cfgToManage) :
    Preparing conf (w.modifyLink i f) := by
  refine ⟨⟨h.assigned.assigned, h.assigned.unique, fun p s hs he => ?_⟩, fun realm hr p hp hu s hs q hq => ?_⟩
  · by_cases hne : s = i
    · subst hne
      refine h.assigned.managed p s hs ((hc hs _).symm.trans ?_)
      simpa [World.modifyLink] using he
    · exact h.assigned.managed p s hs (by simpa [World.modifyLink, Function.update_of_ne hne] using he)
  · by_cases hne : s = i
    · subst hne
      simpa [World.modifyLink] using hf _
    · simpa [World.modifyLink, Function.update_of_ne hne] using h.keeps realm hr p hp hu s hs q hq

theorem Preparing.assignTo {realm : Realm} {k p s : Nat} (h : Preparing conf w) (hk : (realm, k) ∈ conf.realms.zipIdx)
    (hp : p ∈ realm.parts) (hu : (w.part p).isAssigned = false) (hs : s ∈ realm.schedulerLinks conf)
    (hn : (w.link s).needConf = true) : Preparing conf (assignTo env k p s w) := by
  have hfree : ∀ q, (w.part q).schedulerLink ≠ some s := by
    intro q hq
    have := h.keeps realm (List.fst_mem_of_mem_zipIdx hk) p hp hu s hs q hq
    rw [hn] at this
    cases this
  have hnone := h.assigned.assigned p hu
  have hself : (Dispatching.assignTo env k p s w).part p = ⟨true, some s, env.flavor p⟩ := Function.update_self _ _ _
  have hpart : ∀ q, q ≠ p → (Dispatching.assignTo env k p s w).part q = w.part q := fun q hq => assignTo_part k p s w hq
  have hlink : ∀ j, j ≠ s → (Dispatching.assignTo env k p s w).link j = w.link j := fun j hj => Function.update_of_ne hj _ _
  have hlinked : ((Dispatching.assignTo env k p s w).link s).cfgToManage = some (.part p) ∧
      ((Dispatching.assignTo env k p s w).link s).needConf = false := by
    unfold Dispatching.assignTo World.modifyLink
    simp
  -- what the parts are assigned to, before or by this turn
  have hcases : ∀ q t, ((Dispatching.assignTo env k p s w).part q).schedulerLink = some t →
      q = p ∧ t = s ∨ q ≠ p ∧ t ≠ s ∧ (w.part q).schedulerLink = some t := by
    intro q t hq
    by_cases hqp : q = p
    · subst hqp
      rw [hself] at hq
      exact Or.inl ⟨rfl, (Option.some.inj hq).symm⟩
    · rw [hpart q hqp] at hq
      exact Or.inr ⟨hqp, fun e => hfree q (e ▸ hq), hq⟩
  refine ⟨⟨fun q hq => ?_, fun q r t hq hr => ?_, fun q t ht hc => ?_⟩, fun realm' hr' q hq hqu t ht r hr => ?_⟩
  · by_cases hqp : q = p
    · subst hqp
      rw [hself] at hq
      cases hq
    · rw [hpart q hqp] at hq ⊢
      exact h.assigned.assigned q hq
  · rcases hcases q t hq with ⟨e, e'⟩ | ⟨-, hne, h1⟩ <;> rcases hcases r t hr with ⟨e₁, e₁'⟩ | ⟨-, hne', h2⟩
    · rw [e, e₁]
    · exact absurd e' hne'
    · exact absurd e₁' hne
    · exact h.assigned.unique q r t h1 h2
  · by_cases hts : t = s
    · subst hts
      rw [hlinked.1] at hc
      cases hc
      rw [hself]
    · rw [hlink t hts] at hc
      have hq := h.assigned.managed q t ht hc
      rw [hpart q]
      · exact hq
      · rintro rfl
        rw [hnone] at hq
        cases hq
  · rcases hcases r t hr with ⟨-, rfl⟩ | ⟨hrp, hts, hold⟩
    · exact hlinked.2
    · rw [hlink t hts]
      have hqp : q ≠ p := by
        rintro rfl
        rw [hself] at hqu
        cases hqu
      rw [hpart q hqp] at hqu
      exact h.keeps realm' hr' q hq hqu t ht r hold

theorem preparing_kept : KeptByPreparation conf env (Preparing conf) := by
  refine ⟨⟨fun _ _ _ _ _ hk hp hu hs hn h => h.assignTo hk hp hu hs hn, fun _ _ _ w table _ _ _ h => ?_,
    fun _ _ p _ x i w _ _ _ hi h => ?_⟩, fun i hi w h => ?_, fun s _ w h => h.modifyLink (fun _ => rfl) fun _ _ => rfl⟩
  · exact ⟨h.assigned.of_eq rfl, h.keeps⟩
  · exact h.modifyLink (fun _ => rfl) fun hs => absurd hi (not_satellite hs)
  · exact h.modifyLink (fun _ => rfl) fun hs => absurd hi (mem_of_not_arbiter (List.mem_append_left _ hs))

theorem resetScheduler_assigned {s p : Nat} (h : Assigned conf w) : Assigned conf (resetScheduler s p w) := by
  unfold resetScheduler
  split
  · refine ⟨h.assigned, h.unique, fun q t ht hc => ?_⟩
    by_cases hne : t = s
    · subst hne
      simp [World.modifyLink] at hc
    · exact h.managed q t ht (by simpa [World.modifyLink, Function.update_of_ne hne] using hc)
  · exact h

theorem notePolled_assignments (r : Answer (List Managed)) (w : World) : (notePolled i r w).assignments = w.assignments := by
  have hlink : ∀ w : World, (w.modifyLink i fun x => { x with configurationSent := false }).assignments = w.assignments := by
    intro w
    simp only [World.assignments, World.modifyLink, Prod.mk.injEq, and_true]
    funext j
    by_cases hne : j = i
    · subst hne
      simp
    · simp [Function.update_of_ne hne]
  unfold notePolled
  split
  · rfl
  · rfl
  · split
    · rw [hlink]; rfl
    · split <;> rfl

theorem dispatch_assignments : Unchanged World.assignments (dispatch conf env) := by
  refine Unchanged.bind Unchanged.get fun w => Unchanged.ite (Unchanged.throw _) (Unchanged.ite (Unchanged.throw _)
    (Unchanged.ite (Unchanged.pure _) ?_))
  refine Unchanged.bind (Unchanged.modify fun _ => rfl) fun _ => ?_
  refine Unchanged.bind (Unchanged.forM fun i _ => dispatchToArbiter_onLink.assignments) fun _ => ?_
  refine Unchanged.bind (Unchanged.forM fun i _ => dispatchToLink_onLink.assignments) fun _ => ?_
  refine Unchanged.bind (Unchanged.forM fun i _ => dispatchToLink_onLink.assignments) fun _ => Unchanged.modify fun w => ?_
  split <;> rfl

theorem checkReachable_assignments (forced : Bool) : Unchanged World.assignments (checkReachable conf env forced) := by
  refine Unchanged.bind (Unchanged.bind (Unchanged.modify fun _ => rfl) fun _ => Unchanged.forM fun i _ => ?_) fun _ =>
    Unchanged.bind (Unchanged.bind Unchanged.get fun w => Unchanged.ite ?_ (Unchanged.ite ?_ (Unchanged.pure _))) fun _ =>
      Unchanged.pure _
  · refine Unchanged.ite (Unchanged.pure _) (Unchanged.bind Unchanged.get fun w => ?_)
    refine Unchanged.bind (orFalse_unchanged ((updateInfos_onLink _).mono duty_assigned).assignments) fun r => ?_
    exact Unchanged.modify (notePolled_assignments r)
  · exact Unchanged.bind (Unchanged.modify fun _ => rfl) fun _ => dispatch_assignments
  · exact Unchanged.bind (Unchanged.modify fun _ => rfl) fun _ => dispatch_assignments

def Turn.KeepsParts (conf : Conf) (t : Turn) : Prop :=
  match t.call with
  | .prepareDispatch => t.world.newToDispatch = false → KeepsItsPart conf t.world
  | _ => True

theorem keepsAssigned {m : Dispatch α} (h : Unchanged World.assignments m) : Keeps (Assigned conf) m :=
  fun w hw => ⟨hw.of_eq (h w), fun _ _ _ => trivial⟩

theorem checkDispatch_assigned : Keeps (Assigned conf) (checkDispatch conf env) := by
  refine Keeps.read fun w => Keeps.ite (fun _ => Keeps.throw trivial) fun _ => ?_
  refine Keeps.bind (Keeps.modify fun w h => h.of_eq rfl) fun _ => ?_
  refine Keeps.bind (keepsAssigned (checkReachable_assignments true)) fun _ => ?_
  refine Keeps.bind (Keeps.forM fun realm _ => ?_) fun _ => Keeps.read fun _ => Keeps.pure _
  refine checkRealm_keeps (fun s p w _ h => resetScheduler_assigned h) (fun k t p w h => h.of_eq ?_) (fun w h => h.of_eq rfl) realm
  obtain ⟨h1, h2, -⟩ := redispatch_rest k t p w
  unfold World.assignments
  rw [h1, h2]

theorem prepareDispatch_assigned (h : Assigned conf w) (hk : w.newToDispatch = false → KeepsItsPart conf w) :
    Leads (· = w) (prepareDispatch conf env) (Assigned conf) := by
  refine Leads.readAt fun w' e => ?_
  subst e
  by_cases hn : w'.newToDispatch = true
  · rw [if_pos hn]
    exact fun v e => ⟨e ▸ h, fun _ _ _ => trivial⟩
  · rw [if_neg hn]
    rw [Bool.not_eq_true] at hn
    refine Leads.modify ?_
    rintro _ rfl
    exact (prepared_keeps preparing_kept ⟨h.of_eq rfl, hk hn⟩).assigned

theorem Assigned.step {call : Call} (h : Assigned conf w) (hk : Turn.KeepsParts conf ⟨w, env, call⟩)
    (hs : Step conf env call w w') : Assigned conf w' := by
  rw [← hs]
  cases call with
  | prepareDispatch => exact (prepareDispatch_assigned h hk w rfl).1
  | dispatch => exact h.of_eq (dispatch_assignments w)
  | checkReachable forced => exact (discard_leads (keepsAssigned (checkReachable_assignments forced)) w h).1
  | checkDispatch => exact (discard_leads checkDispatch_assigned w h).1
  | daemonConnectionInit i created identities waitNewConf =>
    exact h.of_eq (((daemonConnectionInit_onLink _ _ _).mono duty_assigned).assignments w)
  | otherCall i response =>
    exact (discard_leads (keepsAssigned ((otherCall_onLink response).mono duty_assigned).assignments) w h).1

/-- While no scheduler with a part is asked to take another one, no part has two
schedulers and no scheduler has two parts. -/
theorem one_scheduler_for_each_part {w₀ w : World} {trace : List Turn} (hi : Initial conf w₀) (h : Run conf w₀ trace w)
    (hk : ∀ t ∈ trace, t.KeepsParts conf) :
    (∀ p s s', AssignedTo conf w p s → AssignedTo conf w p s' → s = s') ∧
    ∀ p q s, (w.part p).schedulerLink = some s → (w.part q).schedulerLink = some s → p = q := by
  have h0 : Assigned conf w₀ := by
    refine ⟨fun p _ => by rw [hi.part], fun p q s hp => ?_, fun p s _ hp => ?_⟩
    · rw [hi.part] at hp
      cases hp
    · rw [hi.cfgToManage] at hp
      cases hp
  have hw := h.invariant conf hk h0 fun w env call w' hI hP hs => hI.step hP hs
  have hlink : ∀ p s, AssignedTo conf w p s → (w.part p).schedulerLink = some s := by
    rintro p s ⟨hs, h | h⟩
    · exact h
    · exact hw.managed p s hs h
  refine ⟨fun p s s' h1 h2 => ?_, hw.unique⟩
  exact Option.some.inj ((hlink p s h1).symm.trans (hlink p s' h2))

end

def oneSchedulerForTwo : Conf where
  arbiterLink := 0
  arbiters := [0]
  schedulers := [1]
  reactionners := []
  pollers := []
  brokers := []
  receivers := []
  realms := [⟨[0], part0_nodup, [1], [], fun _ => [], fun _ => [], fun _ => 0⟩,
    ⟨[1], part1_nodup, [], [1], fun _ => [], fun _ => [], fun _ => 0⟩]
  active := fun _ => true
  spare := fun _ => false
  maxCheckAttempts := fun _ => 3
  pollingInterval := fun _ => 5
  nodup := oneScheduler_nodup
  disjoint := by decide

theorem one_scheduler_for_each_part_oneScheduler :
    (∀ p s s', AssignedTo oneScheduler dispatchedWorld p s → AssignedTo oneScheduler dispatchedWorld p s' → s = s') ∧
    ∀ p q s, (dispatchedWorld.part p).schedulerLink = some s → (dispatchedWorld.part q).schedulerLink = some s → p = q := by
  have hrun : Run oneScheduler connectedWorld [⟨_, daemons [], .prepareDispatch⟩, ⟨_, daemons [], .dispatch⟩] dispatchedWorld :=
    (Run.nil.snoc rfl).snoc rfl
  refine one_scheduler_for_each_part (connectedWorld_initial oneScheduler) hrun fun t ht => ?_
  rcases List.mem_cons.mp ht with rfl | ht
  · intro _ realm hr p hp hu s hs q hq
    cases hq
  · cases List.mem_singleton.mp ht
    trivial

/-- The scheduler comes back without a configuration, and takes the part of the
second realm while it has the one of the first. -/
theorem two_parts_for_a_scheduler : ¬ ∀ (conf : Conf) (w₀ w : World) (trace : List Turn), Initial conf w₀ → Run conf w₀ trace w →
    (∀ p s s', AssignedTo conf w p s → AssignedTo conf w p s' → s = s') ∧
    ∀ p q s, (w.part p).schedulerLink = some s → (w.part q).schedulerLink = some s → p = q := by
  intro h
  have hrun : Run oneSchedulerForTwo connectedWorld
      [⟨_, daemons [⟨0, 7⟩], .prepareDispatch⟩, ⟨_, daemons [⟨0, 7⟩], .dispatch⟩, ⟨_, daemons [⟨0, 8⟩], .checkDispatch⟩,
        ⟨_, daemons [⟨0, 7⟩], .prepareDispatch⟩] _ := (((Run.nil.snoc rfl).snoc rfl).snoc rfl).snoc rfl
  exact absurd ((h _ _ _ _ (connectedWorld_initial _) hrun).2 0 1 1 (by decide) (by decide)) (by decide)

end Alignak.Dispatching
