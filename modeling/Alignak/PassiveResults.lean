import Alignak.CheckRunsSound

/-!
# Passive results

A passive result is written to the check that `launch_check` returns, and the
pass of the results hands it to the item.
-/

namespace Alignak.Checking

open Scheduling

def PassiveResult.ofOutcome (o : Outcome) : PassiveResult := ⟨o.exitStatus, o.output, o.longOutput, o.perfData, o.checkTime⟩

def World.waits (w : World) (c : Nat) : Prop := (w.check c).status = .waitConsume ∨ (w.check c).status = .waitDepend

def World.over (w : World) (c : Nat) : Prop := (w.check c).status = .zombie ∨ (w.check c).status = .waitingMe

def World.holds (w : World) (i : Nat) : List Nat := (w.item i).checksInProgress.filter fun c => (w.data c).passiveCheck

def World.pendingResults (w : World) (i : Nat) : List PassiveResult := (w.holds i).map fun c => .ofOutcome (w.outcome c)

section
variable (conf : Conf)

def World.accepts (env : Env) (w : World) (i : Nat) (r : PassiveResult) : Bool :=
  !(!env.acceptPassiveChecks (conf.myType i) || !(w.item i).passiveChecksEnabled ||
    decide (r.timestamp < (w.items.checkState i).lastChk))

def Turn.accepted (i : Nat) (t : Turn) : List PassiveResult :=
  match t.event with
  | .processCheckResult j r => if j = i ∧ t.world.accepts conf t.env j r = true then [r] else []
  | _ => []

/-- A check of item `i` that carries a passive result, consumed or not. -/
def World.carries (w : World) (i c : Nat) : Bool :=
  decide (c < w.nextCheck) && (w.data c).passiveCheck && (w.check c).ref == i

/-- The passive results that item `i` takes while the world goes to `v`; each is
in its check when the pass begins. -/
def Turn.consumedBy (i : Nat) (t : Turn) (v : World) : List PassiveResult :=
  ((v.consumed.drop t.world.consumed.length).filter (t.world.carries i)).map fun c => .ofOutcome (t.world.outcome c)

def acceptedResults (i : Nat) (trace : List Turn) : List PassiveResult := trace.flatMap (Turn.accepted conf i)

def consumedResults (i : Nat) : List Turn → World → List PassiveResult
  | [], _ => []
  | [t], w => t.consumedBy i w
  | t :: u :: trace, w => t.consumedBy i u.world ++ consumedResults i (u :: trace) w

/-- No other passive result of the item waits, and the check that is launched
exists. -/
def Turn.SparesResults (t : Turn) : Prop :=
  match t.event with
  | .processCheckResult i r => t.world.accepts conf t.env i r = true → t.world.holds i = [] ∧
      (forcedCheck (updateInChecking i t.world) i true = none → isNotLaunched conf t.world i false = false)
  | .disableActiveChecks i => (t.world.item i).activeChecksEnabled = true → t.world.holds i = []
  | .manageResults action => action.uuid ∈ t.world.checks → (t.world.data action.uuid).passiveCheck = false
  | .cleanQueues => conf.tickCleanQueues ≠ 0 → ∀ c ∈ toDelChecks conf t.world, (t.world.data c).passiveCheck = true →
      ¬ t.world.waits c
  | _ => True

end

/-! ## The queues of the items -/

structure Placed (w : World) : Prop where
  nodup : ∀ i, (w.item i).checksInProgress.Nodup
  known : ∀ i, ∀ c ∈ (w.item i).checksInProgress, c < w.nextCheck ∧ (w.check c).ref = i
  passive : ∀ c < w.nextCheck, (w.data c).passiveCheck = true →
    (w.waits c ∧ c ∈ (w.item (w.check c).ref).checksInProgress ∧ c ∈ w.checks) ∨
      (w.over c ∧ c ∉ (w.item (w.check c).ref).checksInProgress)
  single : ∀ i, (w.holds i).length ≤ 1

structure Spared (w v : World) : Prop where
  nextCheck : w.nextCheck ≤ v.nextCheck
  consumed : v.consumed = w.consumed
  flag : ∀ c < w.nextCheck, (v.data c).passiveCheck = (w.data c).passiveCheck
  fresh : ∀ c < v.nextCheck, w.nextCheck ≤ c → (v.data c).passiveCheck = false
  ref : ∀ c < w.nextCheck, (v.check c).ref = (w.check c).ref
  waits : ∀ c < w.nextCheck, (w.data c).passiveCheck = true → w.waits c → v.waits c ∧ v.outcome c = w.outcome c ∧
    ((v.check c).status = .waitConsume → (w.check c).status = .waitConsume) ∧ (c ∈ w.checks → c ∈ v.checks)
  ended : ∀ c < w.nextCheck, (w.data c).passiveCheck = true → w.over c → v.over c
  progress : ∀ i, ∃ l, (v.item i).checksInProgress = (w.item i).checksInProgress ++ l ∧ l.Nodup ∧
    ∀ c ∈ l, w.nextCheck ≤ c ∧ c < v.nextCheck ∧ (v.check c).ref = i

variable {t : Int} {r : Option Nat} {b b' : Bool}

section
variable {conf : Conf} {env : Env} {u w v : World} {c i : Nat}

theorem Spared.refl (w : World) : Spared w w :=
  ⟨le_rfl, rfl, fun _ _ => rfl, fun _ hc hn => absurd hc (Nat.not_lt.mpr hn), fun _ _ => rfl,
    fun _ _ _ hw => ⟨hw, rfl, id, id⟩, fun _ _ _ ho => ho, fun _ => ⟨[], (List.append_nil _).symm, List.nodup_nil, nofun⟩⟩

theorem Spared.trans (h : Spared u w) (h' : Spared w v) : Spared u v where
  nextCheck := h.nextCheck.trans h'.nextCheck
  consumed := h'.consumed.trans h.consumed
  flag c hc := (h'.flag c (hc.trans_le h.nextCheck)).trans (h.flag c hc)
  fresh c hc hn := by
    by_cases hw : c < w.nextCheck
    · rw [h'.flag c hw]
      exact h.fresh c hw hn
    · exact h'.fresh c hc (Nat.not_lt.mp hw)
  ref c hc := (h'.ref c (hc.trans_le h.nextCheck)).trans (h.ref c hc)
  waits c hc hp hw := by
    have hc' := hc.trans_le h.nextCheck
    obtain ⟨h1, h2, h3, h4⟩ := h.waits c hc hp hw
    obtain ⟨g1, g2, g3, g4⟩ := h'.waits c hc' ((h.flag c hc).trans hp) h1
    exact ⟨g1, g2.trans h2, fun hs => h3 (g3 hs), fun hm => g4 (h4 hm)⟩
  ended c hc hp ho := h'.ended c (hc.trans_le h.nextCheck) ((h.flag c hc).trans hp) (h.ended c hc hp ho)
  progress i := by
    obtain ⟨l, hl, hn, hk⟩ := h.progress i
    obtain ⟨m, hm, hn', hk'⟩ := h'.progress i
    refine ⟨l ++ m, by rw [hm, hl, List.append_assoc], List.nodup_append.mpr ⟨hn, hn', fun c hc d hd he => ?_⟩, fun c hc => ?_⟩
    · have h1 := (hk c hc).2.1
      have h2 := (hk' d hd).1
      omega
    · rcases List.mem_append.mp hc with hc | hc
      · obtain ⟨h1, h2, h3⟩ := hk c hc
        exact ⟨h1, h2.trans_le h'.nextCheck, (h'.ref c h2).trans h3⟩
      · obtain ⟨h1, h2, h3⟩ := hk' c hc
        exact ⟨h.nextCheck.trans h1, h2, h3⟩

theorem Placed.passive_of_mem (h : Placed w) (hc : c ∈ w.holds i) : c < w.nextCheck ∧ (w.check c).ref = i ∧
    (w.data c).passiveCheck = true ∧ w.waits c ∧ c ∈ w.checks := by
  obtain ⟨hm, hp⟩ := List.mem_filter.mp hc
  obtain ⟨hk, hr⟩ := h.known i c hm
  rcases h.passive c hk hp with ⟨h1, -, h3⟩ | ⟨-, h2⟩
  · exact ⟨hk, hr, hp, h1, h3⟩
  · exact absurd (hr ▸ hm) h2

theorem Spared.holds (h : Spared w v) (hw : Placed w) (i : Nat) : v.holds i = w.holds i := by
  obtain ⟨l, hl, -, hk⟩ := h.progress i
  unfold World.holds
  rw [hl, List.filter_append]
  have hnew : l.filter (fun c => (v.data c).passiveCheck) = [] := by
    refine List.filter_eq_nil_iff.mpr fun c hc => ?_
    obtain ⟨h1, h2, -⟩ := hk c hc
    rw [h.fresh c h2 h1]
    decide
  rw [hnew, List.append_nil]
  exact List.filter_congr fun c hc => h.flag c (hw.known i c hc).1

theorem Spared.placed (h : Spared w v) (hw : Placed w) : Placed v where
  nodup i := by
    obtain ⟨l, hl, hn, hk⟩ := h.progress i
    rw [hl]
    refine List.nodup_append.mpr ⟨hw.nodup i, hn, fun c hc d hd he => ?_⟩
    have h1 := (hw.known i c hc).1
    have h2 := (hk d hd).1
    omega
  known i c hc := by
    obtain ⟨l, hl, -, hk⟩ := h.progress i
    rw [hl] at hc
    rcases List.mem_append.mp hc with hc | hc
    · obtain ⟨h1, h2⟩ := hw.known i c hc
      exact ⟨h1.trans_le h.nextCheck, (h.ref c h1).trans h2⟩
    · exact (hk c hc).2
  passive c hc hp := by
    have hold : c < w.nextCheck := by
      by_contra hn
      rw [h.fresh c hc (Nat.not_lt.mp hn)] at hp
      cases hp
    rw [h.flag c hold] at hp
    obtain ⟨l, hl, -, hk⟩ := h.progress (w.check c).ref
    rw [h.ref c hold, hl]
    rcases hw.passive c hold hp with ⟨h1, h2, h3⟩ | ⟨h1, h2⟩
    · obtain ⟨g1, -, -, g4⟩ := h.waits c hold hp h1
      exact Or.inl ⟨g1, List.mem_append_left _ h2, g4 h3⟩
    · refine Or.inr ⟨h.ended c hold hp h1, fun hm => (List.mem_append.mp hm).elim h2 fun hm => ?_⟩
      have hnew := (hk c hm).1
      omega
  single i := by
    rw [h.holds hw]
    exact hw.single i

theorem Spared.pendingResults (h : Spared w v) (hw : Placed w) (i : Nat) : v.pendingResults i = w.pendingResults i := by
  unfold World.pendingResults
  rw [h.holds hw]
  refine List.map_congr_left fun c hc => ?_
  obtain ⟨hk, -, hp, hwaits, -⟩ := hw.passive_of_mem hc
  rw [(h.waits c hk hp hwaits).2.1]

/-! ## Steps of one check or one item -/

theorem Spared.of_same (hn : v.nextCheck = w.nextCheck) (hm : v.consumed = w.consumed)
    (hi : ∀ i, (v.item i).checksInProgress = (w.item i).checksInProgress)
    (hr : ∀ c, (v.check c).ref = (w.check c).ref)
    (hf : ∀ c < w.nextCheck, (v.data c).passiveCheck = (w.data c).passiveCheck)
    (hw : ∀ c < w.nextCheck, (w.data c).passiveCheck = true → w.waits c → v.waits c ∧ v.outcome c = w.outcome c ∧
      ((v.check c).status = .waitConsume → (w.check c).status = .waitConsume) ∧ (c ∈ w.checks → c ∈ v.checks))
    (ho : ∀ c < w.nextCheck, (w.data c).passiveCheck = true → w.over c → v.over c) : Spared w v where
  nextCheck := hn.ge
  consumed := hm
  flag := hf
  fresh c hc hn' := by omega
  ref c _ := hr c
  waits := hw
  ended := ho
  progress i := ⟨[], by rw [hi, List.append_nil], List.nodup_nil, nofun⟩

theorem spared_modifyItem {f : ItemChecks → ItemChecks} (hf : ∀ x, (f x).checksInProgress = x.checksInProgress) :
    Spared w (w.modifyItem i f) := by
  refine Spared.of_same rfl rfl (fun j => ?_) (fun _ => rfl) (fun _ _ => rfl) (fun _ _ _ hw => ⟨hw, rfl, id, id⟩) fun _ _ _ ho => ho
  by_cases hj : j = i
  · subst hj
    rw [modifyItem_self, hf]
  · rw [modifyItem_ne _ hj]

theorem spared_addCheck : Spared w (addCheck c w) := by
  unfold addCheck
  split
  · exact Spared.refl w
  · exact Spared.of_same rfl rfl (fun _ => rfl) (fun _ => rfl) (fun _ _ => rfl)
      (fun _ _ _ hw => ⟨hw, rfl, id, fun hm => List.mem_append_left _ hm⟩) fun _ _ _ ho => ho

theorem spared_addChecks (l : List Nat) : Spared w (l.foldl (fun w d => addCheck d w) w) :=
  List.foldlRecOn (motive := Spared w) l _ (Spared.refl w) fun _ h _ _ => h.trans spared_addCheck

theorem spared_modifyCheck {f : Scheduling.Check → Scheduling.Check} (hp : c < w.nextCheck → (w.data c).passiveCheck = false)
    (hr : (f (w.check c)).ref = (w.check c).ref) : Spared w (w.modifyCheck c f) := by
  have hne : ∀ d < w.nextCheck, (w.data d).passiveCheck = true → (w.modifyCheck c f).check d = w.check d := fun d hk hd =>
    modifyCheck_ne f fun e => by rw [e, hp (e ▸ hk)] at hd; cases hd
  refine Spared.of_same rfl rfl (fun _ => rfl) (fun d => ?_) (fun _ _ => rfl) (fun d hk hd hw => ?_) fun d hk hd ho => ?_
  · by_cases he : d = c
    · rw [he, modifyCheck_self, hr]
    · rw [modifyCheck_ne f he]
  · unfold World.waits World.outcome
    rw [hne d hk hd]
    exact ⟨hw, rfl, id, id⟩
  · unfold World.over
    rw [hne d hk hd]
    exact ho

theorem spared_modifyData {f : CheckData → CheckData} (hp : c < w.nextCheck → (w.data c).passiveCheck = false)
    (hf : ∀ x, (f x).passiveCheck = x.passiveCheck) : Spared w (w.modifyData c f) := by
  have hne : ∀ d, d ≠ c → (w.modifyData c f).data d = w.data d := fun d hd => Function.update_of_ne hd ..
  refine Spared.of_same rfl rfl (fun _ => rfl) (fun _ => rfl) (fun d hk => ?_) (fun d hk hd hw => ⟨hw, ?_, id, id⟩) fun _ _ _ ho => ho
  · by_cases he : d = c
    · subst he
      show (Function.update w.data d _ d).passiveCheck = _
      rw [Function.update_self, hf]
    · rw [hne d he]
  · have he : d ≠ c := fun e => by rw [e, hp (e ▸ hk)] at hd; cases hd
    unfold World.outcome
    rw [hne d he]
    rfl

def CheckData.result (x : CheckData) := (x.passiveCheck, x.output, x.longOutput, x.perfData, x.executionTime, x.uTime, x.sTime)

theorem spared_data (hd : ∀ c, (v.data c).result = (w.data c).result)
    (h : v.items = w.items ∧ v.checks = w.checks ∧ v.item = w.item ∧ v.nextCheck = w.nextCheck ∧ v.consumed = w.consumed) :
    Spared w v := by
  obtain ⟨h1, h2, h3, h4, h5⟩ := h
  have hcheck : v.check = w.check := by
    unfold World.check
    rw [h1]
  have hdata : ∀ c, (v.data c).passiveCheck = (w.data c).passiveCheck ∧ v.outcome c = w.outcome c := fun c => by
    have hc := hd c
    simp only [CheckData.result, Prod.mk.injEq] at hc
    obtain ⟨g1, g2, g3, g4, g5, g6, g7⟩ := hc
    refine ⟨g1, ?_⟩
    unfold World.outcome
    rw [hcheck, g2, g3, g4, g5, g6, g7]
  refine Spared.of_same h4 h5 (fun _ => by rw [h3]) (fun _ => by rw [hcheck]) (fun c _ => (hdata c).1) (fun c _ _ hw => ?_)
    fun c _ _ ho => ?_
  · unfold World.waits
    rw [hcheck]
    exact ⟨hw, (hdata c).2, id, fun hm => h2 ▸ hm⟩
  · unfold World.over
    rw [hcheck]
    exact ho

theorem spared_modifyResult {f : CheckData → CheckData} (hf : ∀ x, (f x).result = x.result) : Spared w (w.modifyData c f) := by
  refine spared_data (fun d => ?_) ⟨rfl, rfl, rfl, rfl, rfl⟩
  show (Function.update w.data c _ d).result = _
  by_cases hd : d = c
  · subst hd
    rw [Function.update_self, hf]
  · rw [Function.update_of_ne hd]

theorem spared_items {s : Scheduling.World} (h : s.check = w.items.check) : Spared w { w with items := s } := by
  have hcheck : World.check { w with items := s } = w.check := h
  refine Spared.of_same rfl rfl (fun _ => rfl) (fun c => by rw [hcheck]) (fun _ _ => rfl) (fun c _ _ hw => ?_) fun c _ _ ho => ?_
  · unfold World.waits World.outcome
    rw [hcheck]
    exact ⟨hw, rfl, id, id⟩
  · unfold World.over
    rw [hcheck]
    exact ho

theorem spared_status {f : Scheduling.Check → Scheduling.Check} (hr : (f (w.check c)).ref = (w.check c).ref)
    (ho : (f (w.check c)).exitStatus = (w.check c).exitStatus ∧ (f (w.check c)).checkTime = (w.check c).checkTime)
    (hw : w.waits c → (w.modifyCheck c f).waits c ∧
      ((f (w.check c)).status = .waitConsume → (w.check c).status = .waitConsume))
    (hover : w.over c → (w.modifyCheck c f).over c) : Spared w (w.modifyCheck c f) := by
  have hother : ∀ {d}, d ≠ c → (w.modifyCheck c f).check d = w.check d := fun hd => modifyCheck_ne f hd
  refine Spared.of_same rfl rfl (fun _ => rfl) (fun d => ?_) (fun _ _ => rfl) (fun d _ _ hd => ?_) fun d _ _ hd => ?_
  · by_cases he : d = c
    · rw [he, modifyCheck_self, hr]
    · rw [hother he]
  · by_cases he : d = c
    · subst he
      obtain ⟨h1, h2⟩ := hw hd
      refine ⟨h1, ?_, fun hs => h2 (by rw [modifyCheck_self] at hs; exact hs), id⟩
      unfold World.outcome
      rw [modifyCheck_self, ho.1, ho.2]
      rfl
    · have hc := hother he
      unfold World.waits World.outcome
      rw [hc]
      exact ⟨hd, rfl, id, id⟩
  · by_cases he : d = c
    · subst he
      exact hover hd
    · unfold World.over
      rw [hother he]
      exact hd

/-! ## Launching -/

theorem newCheck_old (t : Int) (r : Option Nat) (b b' : Bool) {d : Nat} (hd : d < w.nextCheck) :
    (newCheck env i t r b b' w).check d = w.check d ∧ (newCheck env i t r b b' w).data d = w.data d :=
  ⟨newCheck_check i t r b b' (Nat.ne_of_lt hd), Function.update_of_ne (Nat.ne_of_lt hd) ..⟩

theorem newCheck_flag (t : Int) (r : Option Nat) (b b' : Bool) :
    ((newCheck env i t r b b' w).data w.nextCheck).passiveCheck = false := by
  show (Function.update w.data w.nextCheck _ w.nextCheck).passiveCheck = false
  rw [Function.update_self]

theorem Spared.of_newCheck (hd : v.data = (newCheck env i t r b b' w).data)
    (hc : v.items = (newCheck env i t r b b' w).items ∧ v.checks = w.checks ∧ v.nextCheck = w.nextCheck + 1 ∧
      v.consumed = w.consumed)
    (hp : ∀ j, (v.item j).checksInProgress = (w.item j).checksInProgress ∨
      j = i ∧ (v.item j).checksInProgress = (w.item j).checksInProgress ++ [w.nextCheck]) : Spared w v := by
  obtain ⟨h1, h2, h3, h4⟩ := hc
  have hcheck : v.check = (newCheck env i t r b b' w).check := by
    unfold World.check
    rw [h1]
  have hold : ∀ c < w.nextCheck, v.check c = w.check c ∧ v.data c = w.data c := fun c hc => by
    rw [hcheck, hd]
    exact newCheck_old t r b b' hc
  refine ⟨h3 ▸ Nat.le_succ _, h4, fun c hc => ?_, fun c hc hn => ?_, fun c hc => ?_, fun c hc _ hw => ?_, fun c hc _ ho => ?_,
    fun j => ?_⟩
  · rw [(hold c hc).2]
  · have he : c = w.nextCheck := by omega
    rw [hd, he]
    exact newCheck_flag t r b b'
  · rw [(hold c hc).1]
  · unfold World.waits World.outcome
    rw [(hold c hc).1, (hold c hc).2]
    exact ⟨hw, rfl, id, fun hm => h2 ▸ hm⟩
  · unfold World.over
    rw [(hold c hc).1]
    exact ho
  · rcases hp j with hj | ⟨rfl, hj⟩
    · exact ⟨[], by rw [hj, List.append_nil], List.nodup_nil, nofun⟩
    · refine ⟨[w.nextCheck], hj, List.nodup_singleton _, fun c hc => ?_⟩
      rw [List.mem_singleton.mp hc, hcheck, newCheck_new]
      exact ⟨le_rfl, by omega, rfl⟩

theorem spared_newCheck : Spared w (newCheck env i t r b b' w) :=
  Spared.of_newCheck rfl ⟨rfl, rfl, rfl, rfl⟩ fun j => Or.inl (newCheck_item j t r b b').1

theorem spared_launched : Spared w
    (updateInChecking i ((newCheck env i t r b b' w).modifyItem i fun x =>
      { x with checksInProgress := x.checksInProgress ++ [w.nextCheck] })) := by
  refine @Spared.of_newCheck t r b b' env w _ i rfl ⟨rfl, rfl, rfl, rfl⟩ fun j => ?_
  unfold updateInChecking
  rw [modifyItem_modifyItem]
  by_cases hj : j = i
  · subst hj
    rw [modifyItem_self]
    refine Or.inr ⟨rfl, ?_⟩
    rw [← (@newCheck_item env w j j t r b b').1]
  · rw [modifyItem_ne _ hj]
    exact Or.inl (newCheck_item j t r b b').1

/-- Steps that spare the passive results, whatever they raise. -/
abbrev Spares {α : Type} (m : Sched α) : Prop := ∀ u, Keeps (Spared u) m

theorem Spares.modify {f : World → World} (h : ∀ w, Spared w (f w)) : Spares (modify f : Sched Unit) := fun _ =>
  Keeps.modify fun s hs => hs.trans (h s)

theorem updateInChecking_spares : Spares (modify (updateInChecking i) : Sched Unit) :=
  Spares.modify fun _ => spared_modifyItem fun _ => rfl

theorem launchNewCheck_spares (t : Int) (r : Option Nat) (b : Bool) : Spares (launchNewCheck conf env i t r b) := by
  refine fun u => Leads.readAt fun w hw => ?_
  by_cases hn : isNotLaunched conf w i b = true
  · rw [if_pos hn]
    exact fun s hs => ⟨hs ▸ hw, fun _ _ _ => trivial⟩
  · rw [if_neg hn]
    rintro _ rfl
    exact ⟨hw.trans spared_launched, fun _ _ _ => trivial⟩

theorem launchDependencyCheck_spares (t : Int) (r : Option Nat) : Spares (launchDependencyCheck env i t r) := by
  refine fun u => Keeps.read fun w => ?_
  split
  · exact Keeps.throw trivial
  · refine Keeps.ite (fun _ => ?_) fun _ => Keeps.throw trivial
    exact Keeps.bind (Spares.modify (fun _ => spared_newCheck) u) fun _ => Keeps.pure _

theorem launchCheck_spares (t : Int) (r : Option Nat) (force b : Bool) : Spares (launchCheck conf env i t r force b) := by
  refine fun u => Keeps.bind (updateInChecking_spares u) fun _ => Keeps.read fun w => ?_
  split
  · refine Keeps.bind (Keeps.modify fun s hs => ?_) fun _ => Keeps.pure _
    exact hs.trans (spared_modifyResult fun _ => rfl)
  · refine Keeps.ite (fun _ => launchDependencyCheck_spares t r u) fun _ =>
      Keeps.ite (fun _ => launchNewCheck_spares t r b u) fun _ => ?_
    split
    · exact Keeps.throw trivial
    · exact Keeps.pure _
    · exact launchNewCheck_spares t r b u

theorem schedule_spares (force : Bool) (forceTime : Option Int) : Spares (schedule conf env i force forceTime) := by
  refine fun u => Keeps.read fun w => Keeps.ite (fun _ => Keeps.pure _) fun _ => Keeps.ite (fun _ => Keeps.pure _) fun _ => ?_
  refine Keeps.ite (fun _ => Keeps.pure _) fun _ => ?_
  split
  · exact Keeps.pure _
  · exact launchCheck_spares _ _ _ _ u

theorem launchCheck_new (t : Int) (b : Bool) : Ensures (fun _ => True) (launchCheck conf env i t none false b) fun o s =>
    ∀ c ∈ o, (s.data c).passiveCheck = false := by
  refine Ensures.bind (R := fun _ _ => True) (fun _ _ _ _ _ => trivial) fun _ => Ensures.readAt fun w _ => ?_
  have hf : forcedCheck w i false = none := rfl
  rw [hf]
  refine Ensures.ite (fun h => ?_) fun _ => Ensures.ite (fun h => absurd h (by decide)) fun _ => ?_
  · rw [Option.isSome_none, Bool.and_false] at h
    cases h
  split
  · exact Ensures.throw
  · exact Ensures.pure fun _ _ => nofun
  · refine Ensures.readAt fun w _ => Ensures.ite (fun _ => Ensures.pure fun _ _ => nofun) fun _ => ?_
    rintro _ rfl o v hr
    cases hr
    intro c hc
    cases hc
    exact newCheck_flag t none false _

theorem raiseDependency_spares (c i : Nat) (raised : Raised) (dep : Dependency) :
    Spares (raiseDependency conf env c i raised dep) := by
  refine fun u => Keeps.read fun w => Keeps.ite (fun _ => Keeps.pure _) fun _ => Keeps.ite (fun _ => ?_) fun _ => ?_
  · refine Keeps.bind (launchCheck_spares _ _ _ _ u) fun o => ?_
    split <;> exact Keeps.pure _
  · split
    · exact Keeps.pure _
    · rename_i d _ _
      refine Keeps.ite (fun _ => ?_) fun _ => Keeps.throw trivial
      refine Keeps.bind (Keeps.modify fun s hs => hs.trans ?_) fun _ => Keeps.pure _
      refine spared_status rfl ⟨rfl, rfl⟩ (fun hd => ⟨?_, id⟩) fun hd => ?_
      · unfold World.waits
        rw [modifyCheck_self]
        exact hd
      · unfold World.over
        rw [modifyCheck_self]
        exact hd

theorem raiseDependenciesCheck_spares (c i : Nat) : Spares (raiseDependenciesCheck conf env c i) := fun u =>
  Keeps.foldlM fun raised dep _ => raiseDependency_spares c i raised dep u

/-! ## The passes and the commands -/

theorem spared_idle {s : ActStatus} (h : (w.check c).status = .scheduled ∨ (w.check c).status = .polled) :
    Spared w (w.setStatus c s) := by
  refine spared_status rfl ⟨rfl, rfl⟩ (fun hw => ?_) fun ho => ?_
  · rcases h with h | h <;> rcases hw with hw | hw <;> rw [h] at hw <;> cases hw
  · rcases h with h | h <;> rcases ho with ho | ho <;> rw [h] at ho <;> cases ho

theorem Placed.idle (h : Placed w) (hs : (w.check c).status = .scheduled) : c < w.nextCheck → (w.data c).passiveCheck = false := by
  intro hk
  by_contra hp
  rw [Bool.not_eq_false] at hp
  obtain ⟨hw, -⟩ | ⟨ho, -⟩ := h.passive c hk hp
  · rcases hw with hw | hw <;> rw [hs] at hw <;> cases hw
  · rcases ho with ho | ho <;> rw [hs] at ho <;> cases ho

theorem spared_getReturnFrom {o : Outcome} (hp : c < w.nextCheck → (w.data c).passiveCheck = false) :
    Spared w (getReturnFrom c o w) := by
  have hcheck : Spared w (w.modifyCheck c fun x => { x with exitStatus := o.exitStatus, checkTime := o.checkTime }) :=
    spared_modifyCheck hp rfl
  exact hcheck.trans (spared_modifyData hp fun _ => rfl)

theorem spared_setStatus {s : ActStatus} (hp : c < w.nextCheck → (w.data c).passiveCheck = false) : Spared w (w.setStatus c s) :=
  spared_modifyCheck hp rfl

theorem spared_manageResults {action : Action}
    (hp : action.uuid ∈ w.checks → (w.data action.uuid).passiveCheck = false) : Spared w (manageResults conf action w).2 := by
  unfold manageResults
  simp only
  split
  · rename_i hm
    split
    · exact spared_setStatus fun _ => hp hm
    · split
      · exact spared_setStatus fun _ => hp hm
      · have hr : Spared w (getReturnFrom action.uuid action.outcome w) := spared_getReturnFrom fun _ => hp hm
        exact hr.trans (spared_setStatus fun hk => (hr.flag _ hk).trans (hp hm))
  · exact Spared.refl w

theorem scheduleItem_spares (i : Nat) : Spares (scheduleItem conf env i) := fun u =>
  Keeps.bind (schedule_spares false none u) fun o => Keeps.modify fun s hs => by
    cases o with
    | none => exact hs
    | some c => exact hs.trans spared_addCheck

theorem spared_getNewActions : Spared w (getNewActions conf w) := by
  refine List.foldlRecOn (motive := Spared w) _ _ (Spared.refl w) fun v hv i _ => ?_
  exact (hv.trans (spared_addChecks _)).trans (spared_modifyItem fun _ => rfl)

theorem spared_getToRunChecks (tagged : Nat → Bool) : Spared w (getToRunChecks env tagged w) := by
  refine List.foldlRecOn (motive := Spared w) _ _ (Spared.refl w) fun v hv c _ => ?_
  split
  · rename_i hc
    rw [Bool.and_eq_true, Bool.and_eq_true, beq_iff_eq] at hc
    exact hv.trans (spared_idle (Or.inl hc.1.2))
  · exact hv

theorem spared_checkOrphaned (late : Nat → Bool) : Spared w (checkOrphaned late w) := by
  refine List.foldlRecOn (motive := Spared w) _ _ (Spared.refl w) fun v hv c _ => ?_
  split
  · rename_i hc
    rw [Bool.and_eq_true, beq_iff_eq] at hc
    exact hv.trans (spared_idle (Or.inr hc.1))
  · exact hv

theorem spared_manageInternalChecks (h : Placed w) : Spared w (manageInternalChecks env w) := by
  refine List.foldlRecOn (motive := Spared w) _ _ (Spared.refl w) fun v hv c _ => ?_
  refine hv.trans ?_
  unfold manageInternalCheck
  split
  · rename_i hready
    unfold World.internalReady at hready
    rw [Bool.and_eq_true, beq_iff_eq] at hready
    have hidle := (hv.placed h).idle hready.2
    split
    · have hr : Spared v (getReturnFrom c (env.manageInternalCheck c) v) := spared_getReturnFrom hidle
      exact hr.trans (spared_setStatus fun hk => (hr.flag _ hk).trans (hidle hk))
    · exact spared_setStatus hidle
  · exact Spared.refl v

theorem spared_deleteZombieChecks : Spared w (deleteZombieChecks w) := by
  refine Spared.of_same rfl rfl (fun _ => rfl) (fun _ => rfl) (fun _ _ => rfl) (fun c _ _ hw => ⟨hw, rfl, id, fun hm => ?_⟩)
    fun _ _ _ ho => ho
  refine List.mem_filter.mpr ⟨hm, ?_⟩
  rcases hw with hw | hw <;> rw [hw] <;> decide

theorem spared_erase (hc : c < w.nextCheck → (w.data c).passiveCheck = true → ¬ w.waits c) :
    Spared w { w with checks := w.checks.erase c } := by
  refine Spared.of_same rfl rfl (fun _ => rfl) (fun _ => rfl) (fun _ _ => rfl) (fun d hk hp hw => ⟨hw, rfl, id, fun hm => ?_⟩)
    fun _ _ _ ho => ho
  by_cases hd : d = c
  · subst hd
    exact absurd hw (hc hk hp)
  · exact (List.mem_erase_of_ne hd).mpr hm

theorem tellDependants_spares (c : Nat) : Spares (tellDependants c) := fun _ =>
  Keeps.read fun _ => Keeps.forM fun _ _ => Keeps.read fun _ => Keeps.ite
    (fun _ => Keeps.modify fun _ hs => hs.trans (spared_modifyResult fun _ => rfl)) fun _ => Keeps.throw trivial

theorem Placed.not_waits (h : Placed w) (hk : c < w.nextCheck) (hp : (w.data c).passiveCheck = true) (hn : ¬ w.waits c) :
    w.over c := by
  obtain ⟨hw, -⟩ | ⟨ho, -⟩ := h.passive c hk hp
  · exact absurd hw hn
  · exact ho

theorem over_not_waits (h : w.over c) : ¬ w.waits c := by
  rcases h with h | h <;> rintro (hw | hw) <;> rw [h] at hw <;> cases hw

theorem dropCheck_spares (h : Placed w) (hc : (w.data c).passiveCheck = true → ¬ w.waits c) :
    Keeps (Spared w) (dropCheck c) := by
  refine Keeps.read fun _ => Keeps.bind (updateInChecking_spares w) fun _ => Keeps.bind (tellDependants_spares c w) fun _ => ?_
  refine Keeps.read fun _ => Keeps.ite (fun _ => Keeps.modify fun s hs => hs.trans (spared_erase fun hk hp => ?_)) fun _ =>
    Keeps.throw trivial
  by_cases hw : c < w.nextCheck
  · rw [hs.flag c hw] at hp
    exact over_not_waits (hs.ended c hw hp (h.not_waits hw hp (hc hp)))
  · rw [hs.fresh c hk (Nat.not_lt.mp hw)] at hp
    cases hp

theorem cleanQueues_spares (h : Placed w)
    (hc : conf.tickCleanQueues ≠ 0 → ∀ c ∈ toDelChecks conf w, (w.data c).passiveCheck = true → ¬ w.waits c) :
    Leads (· = w) (cleanQueues conf) (Spared w) := by
  refine Leads.readAt fun s hs => ?_
  subst hs
  refine Leads.pre (I := Spared s) (Keeps.guarded fun ht => Keeps.forM fun c hm => ?_) fun v hv => hv ▸ Spared.refl s
  exact dropCheck_spares h (hc ht c hm)

theorem checkItemFreshness_spares (i : Nat) : Spares (checkItemFreshness conf env i) := by
  refine fun u => Keeps.read fun w => Keeps.guarded fun _ => ?_
  refine Leads.bindOk (launchCheck_spares _ _ _ _ u) ((launchCheck_new _ _).pre fun _ _ => trivial) (fun o => ?_) fun _ hs => hs
  cases o with
  | none => exact fun s hs => ⟨hs.1, fun _ _ _ => trivial⟩
  | some c =>
    refine Leads.bind (K := fun s => Spared u s) (Leads.modify fun s hs => ?_) (fun _ => Keeps.modify fun s hs => hs.trans spared_addCheck)
      fun _ hs => hs
    have hp : (s.data c).passiveCheck = false := hs.2 c rfl
    have hcheck : Spared s (s.modifyCheck c fun x => { x with
        freshnessExpiryCheck := true, checkTime := (env.freshnessOutcome i).checkTime
        exitStatus := (env.freshnessOutcome i).exitStatus }) := spared_modifyCheck (fun _ => hp) rfl
    exact (hs.1.trans hcheck).trans (spared_modifyData (fun _ => hp) fun _ => rfl)

theorem Placed.flag_of_holds (h : w.holds i = []) : ∀ c ∈ (w.item i).checksInProgress, (w.data c).passiveCheck = false := by
  intro c hc
  have hn := List.filter_eq_nil_iff.mp h c hc
  rw [Bool.not_eq_true] at hn
  exact hn

theorem endInProgress_spares (h : Placed w) (hc : c ∈ (w.item i).checksInProgress) (hp : (w.data c).passiveCheck = false) :
    Keeps (Spared w) (endInProgress env i c) := by
  refine Keeps.read fun u => Keeps.ite (fun _ => Keeps.modify fun s hs => hs.trans ?_) fun _ => Keeps.throw trivial
  have hflag : (s.data c).passiveCheck = false := (hs.flag c (h.known i c hc).1).trans hp
  have hcheck : Spared s (s.modifyCheck c fun x => { x with
      status := .waitConsume, exitStatus := (u.items.checkState i).stateId, checkTime := env.now }) :=
    spared_modifyCheck (fun _ => hflag) rfl
  exact hcheck.trans (spared_modifyData (fun _ => hflag) fun _ => rfl)

theorem disableActiveChecks_spares (h : Placed w) (hc : (w.item i).activeChecksEnabled = true → w.holds i = []) :
    Leads (· = w) (disableActiveChecks env i) (Spared w) := by
  refine Leads.readAt fun s hs => ?_
  subst hs
  refine Leads.pre (I := fun v => v = s) ?_ fun _ hv => hv
  by_cases ha : (s.item i).activeChecksEnabled = true
  · rw [if_pos ha]
    have hitem : Spared s (s.modifyItem i fun x => { x with activeChecksEnabled := false }) := spared_modifyItem fun _ => rfl
    refine leads_step (Leads.readAt fun v hv => ?_)
    subst hv
    refine Leads.pre (I := Spared s) (Keeps.forM fun c hm => ?_) fun v hv => hv ▸ hitem
    rw [modifyItem_self] at hm
    exact endInProgress_spares h hm (Placed.flag_of_holds (hc ha) c hm)
  · rw [if_neg ha]
    exact fun v hv => ⟨hv ▸ Spared.refl s, fun _ _ _ => trivial⟩

theorem onItems_spares {m : Scheduling.Sched Unit} (h : Unchanged Scheduling.World.check m) : Spares (onItems m) := by
  refine fun u s hs => ⟨?_, fun _ _ _ => trivial⟩
  have hm := h s.items
  unfold onItems
  cases hr : m s.items with
  | ok a t =>
    rw [hr] at hm
    exact hs.trans (spared_items hm)
  | error e t =>
    rw [hr] at hm
    exact hs.trans (spared_items hm)

def Event.isResult : Event → Bool
  | .processCheckResult _ _ | .consumeResults => true
  | _ => false

theorem Step.spared {ev : Event} (hs : Step conf env w ev v) (h : Placed w) (hc : Turn.SparesResults conf ⟨w, env, ev⟩)
    (hev : ev.isResult = false) : Spared w v := by
  have hl : ∀ {m : Sched Unit}, runEvent conf env ev = m → Leads (· = w) m (Spared w) → Spared w v := by
    rintro m rfl hm
    rw [hs.after]
    exact (hm w rfl).1
  have hk : ∀ {m : Sched Unit}, runEvent conf env ev = m → Keeps (Spared w) m → Spared w v := fun e hm =>
    hl e (hm.pre fun s e => e ▸ Spared.refl w)
  cases ev with
  | getNewActions => exact hk rfl (Keeps.modify fun _ hs => hs.trans spared_getNewActions)
  | schedule => exact hk rfl (Keeps.forM fun i _ => scheduleItem_spares i w)
  | scheduleCheck i force t => exact hk rfl (Keeps.bind (schedule_spares force _ w) fun _ => Keeps.pure _)
  | processCheckResult i r => cases hev
  | disableActiveChecks i => exact hl rfl (disableActiveChecks_spares h hc)
  | enableActiveChecks i => exact hk rfl (Keeps.modify fun _ hs => hs.trans (spared_modifyItem fun _ => rfl))
  | changePassiveChecks i b => exact hk rfl (Keeps.modify fun _ hs => hs.trans (spared_modifyItem fun _ => rfl))
  | getToRunChecks tagged => exact hk rfl (Keeps.modify fun _ hs => hs.trans (spared_getToRunChecks tagged))
  | manageResults action =>
    exact hl rfl (Leads.modify fun s hs => by
      subst hs
      exact spared_manageResults hc)
  | checkFreshness => exact hk rfl (Keeps.forM fun i _ => checkItemFreshness_spares i w)
  | manageInternalChecks =>
    exact hl rfl (Leads.modify fun s hs => by
      subst hs
      exact spared_manageInternalChecks h)
  | consumeResults => cases hev
  | deleteZombieChecks => exact hk rfl (Keeps.modify fun _ hs => hs.trans spared_deleteZombieChecks)
  | cleanQueues => exact hl rfl (cleanQueues_spares h hc)
  | checkOrphaned late => exact hk rfl (Keeps.modify fun _ hs => hs.trans (spared_checkOrphaned late))
  | items e =>
    refine hk rfl (onItems_spares (runEvent_check e ?_) w)
    have he := hs.enabled
    cases e <;> first | exact he | trivial

end

end Alignak.Checking
