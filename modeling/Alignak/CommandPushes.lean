import Alignak.Receiver

/-!
# The commands that reach a scheduler

The commands that are put in the list of a link are those that its scheduler has
got, then those that wait there, as long as no push of the list fails.
-/

namespace Alignak.Receiving

/-! ## One link -/

section
variable {link : SchedulerLink} {response : Dispatching.Response Unit}

namespace SchedulerLink

def Conserved (link : SchedulerLink) : Prop := link.resolved = link.delivered ++ link.pushedCommands

def Lossy (link : SchedulerLink) : Prop := link.delivered.length + link.pushedCommands.length < link.resolved.length

def Accepts (link : SchedulerLink) (response : Dispatching.Response Unit) : Prop :=
  link.con = true ∧ link.runningId ≠ 0 ∧ link.alive = true ∧ link.reachable = true ∧ response = .content ()

def appendAll (link : SchedulerLink) (cmds : List Command) : SchedulerLink :=
  { link with pushedCommands := link.pushedCommands ++ cmds, resolved := link.resolved ++ cmds }

theorem appendAll_append (cmds : List Command) (extCmd : Command) :
    (link.append extCmd).appendAll cmds = link.appendAll (extCmd :: cmds) := by
  unfold append appendAll
  simp

theorem appendAll_nil : link.appendAll [] = link := by
  unfold appendAll
  simp

theorem Conserved.appendAll (h : link.Conserved) (cmds : List Command) : (link.appendAll cmds).Conserved := by
  unfold Conserved at h ⊢
  show link.resolved ++ cmds = link.delivered ++ (link.pushedCommands ++ cmds)
  rw [h, List.append_assoc]

theorem Lossy.appendAll (h : link.Lossy) (cmds : List Command) : (link.appendAll cmds).Lossy := by
  unfold Lossy SchedulerLink.appendAll at *
  simp only [List.length_append]
  omega

theorem Conserved.not_lossy (h : link.Conserved) : ¬ link.Lossy := by
  unfold Conserved at h
  unfold Lossy
  rw [h, List.length_append]
  omega

end SchedulerLink

inductive Pushed (response : Dispatching.Response Unit) (link : SchedulerLink) : SchedulerLink → Prop
  | kept (h : link.active = false ∨ link.pushedCommands = []) : Pushed response link link
  | delivered {x : Dispatching.SatelliteLink} (hp : link.active = true ∧ link.pushedCommands ≠ []) (ha : link.Accepts response) :
      Pushed response link
        { link with toSatelliteLink := x, pushedCommands := [], delivered := link.delivered ++ link.pushedCommands }
  | dropped {x : Dispatching.SatelliteLink} (hp : link.active = true ∧ link.pushedCommands ≠ []) (ha : ¬ link.Accepts response) :
      Pushed response link { link with toSatelliteLink := x, pushedCommands := [] }

theorem Pushed.lossy {link' : SchedulerLink} (hp : Pushed response link link') (h : link.Lossy) : link'.Lossy := by
  cases hp with
  | kept _ => exact h
  | delivered _ _ =>
    unfold SchedulerLink.Lossy at *
    simp only [List.length_append, List.length_nil]
    omega
  | dropped _ _ =>
    unfold SchedulerLink.Lossy at *
    simp only [List.length_nil]
    omega

theorem Pushed.conserved_iff {link' : SchedulerLink} (hp : Pushed response link link') (h : link.Conserved) :
    (link'.Conserved ↔ (link.active = true → link.pushedCommands ≠ [] → link.Accepts response)) ∧
    (link'.Conserved ∨ link'.Lossy) := by
  unfold SchedulerLink.Conserved at h
  cases hp with
  | kept hk =>
    refine ⟨⟨fun _ ha hne => ?_, fun _ => h⟩, Or.inl h⟩
    rcases hk with hk | hk
    · rw [hk] at ha
      cases ha
    · exact absurd hk hne
  | @delivered x hp ha =>
    have hc : SchedulerLink.Conserved { link with
        toSatelliteLink := x, pushedCommands := [], delivered := link.delivered ++ link.pushedCommands } := by
      unfold SchedulerLink.Conserved
      rw [List.append_nil]
      exact h
    exact ⟨⟨fun _ _ _ => ha, fun _ => hc⟩, Or.inl hc⟩
  | @dropped x hp ha =>
    have hl : SchedulerLink.Lossy { link with toSatelliteLink := x, pushedCommands := [] } := by
      unfold SchedulerLink.Lossy
      have hpos := List.length_pos_iff.mpr hp.2
      simp only [h, List.length_append, List.length_nil]
      omega
    exact ⟨⟨fun hc => absurd hl hc.not_lossy, fun hall => absurd (hall hp.1 hp.2) ha⟩, Or.inr hl⟩

end

/-! ## Resolution -/

section
variable {ν W : Type} {manager : ExternalCommandManager ν W} {s s' s₀ : Receiver} {u v : Nat} {link : SchedulerLink} {trace : List Turn}

def goesTo (manager : ExternalCommandManager ν W) (hostsSchedulers : Dict (List Char) Nat) (u : Nat) (extCmd : Command) : Bool :=
  match resolveCommand manager extCmd with
  | .ok .global => true
  | .ok (.forHost hostName) => hostsSchedulers.get? hostName == some u
  | _ => false

theorem get?_setScheduler : (s.setScheduler u link).schedulers.get? v = if v = u then some link else s.schedulers.get? v := Dict.get?_set

theorem dispatch_spec {extCmd : Command} {resolution : Resolution} (hr : resolveCommand manager extCmd = .ok resolution) :
    (dispatch extCmd resolution s).hostsSchedulers = s.hostsSchedulers ∧
    ∀ v, (dispatch extCmd resolution s).schedulers.get? v =
      (s.schedulers.get? v).map fun link => if goesTo manager s.hostsSchedulers v extCmd then link.append extCmd else link := by
  unfold goesTo
  rw [hr]
  cases resolution with
  | nothing => exact ⟨rfl, fun v => by simp [dispatch]⟩
  | global => exact ⟨rfl, fun v => by simp [dispatch, Dict.get?_mapValues]⟩
  | forHost hostName =>
    cases hh : s.hostsSchedulers.get? hostName with
    | none =>
      have hf : getSchedulerFromHostname s hostName = none := by simp [getSchedulerFromHostname, hh]
      simp [dispatch, hf, hh]
    | some u =>
      cases hl : s.schedulers.get? u with
      | none =>
        have hf : getSchedulerFromHostname s hostName = none := by simp [getSchedulerFromHostname, hh, hl]
        have hsame : dispatch extCmd (.forHost hostName) s = s := by simp [dispatch, hf]
        rw [hsame]
        refine ⟨rfl, fun v => ?_⟩
        by_cases hv : u = v
        · subst hv
          simp [hl]
        · simp [hh, hv]
      | some link =>
        have hf : getSchedulerFromHostname s hostName = some (u, link) := by simp [getSchedulerFromHostname, hh, hl]
        have hset : dispatch extCmd (.forHost hostName) s = s.setScheduler u (link.append extCmd) := by simp [dispatch, hf]
        rw [hset]
        refine ⟨rfl, fun v => ?_⟩
        rw [get?_setScheduler]
        by_cases hv : v = u
        · subst hv
          simp [hl, hh]
        · have hne : ¬ u = v := fun e => hv e.symm
          simp [hh, hne, hv]

/-- The loop over the commands, when none of them raises. -/
theorem processCommands_ok {cmds : List Command} (hr : ∀ extCmd ∈ cmds, ∃ resolution, resolveCommand manager extCmd = .ok resolution) :
    ∃ s', (cmds.forM (processCommand manager)) s = .ok ⟨⟩ s' ∧ s'.hostsSchedulers = s.hostsSchedulers ∧
      ∀ v, s'.schedulers.get? v = (s.schedulers.get? v).map fun link =>
        link.appendAll (cmds.filter (goesTo manager s.hostsSchedulers v)) := by
  induction cmds generalizing s with
  | nil =>
    refine ⟨s, rfl, rfl, fun v => ?_⟩
    simp [SchedulerLink.appendAll_nil]
  | cons extCmd cmds ih =>
    obtain ⟨resolution, he⟩ := hr extCmd List.mem_cons_self
    obtain ⟨hh, hget⟩ := dispatch_spec (s := s) he
    obtain ⟨s', hrun, hh', hget'⟩ := ih (s := dispatch extCmd resolution s) fun c hc => hr c (List.mem_cons_of_mem _ hc)
    have hstep : processCommand manager extCmd s = .ok ⟨⟩ (dispatch extCmd resolution s) := by
      unfold processCommand
      rw [he]
      rfl
    refine ⟨s', ?_, hh'.trans hh, fun v => ?_⟩
    · show (processCommand manager extCmd >>= fun _ => cmds.forM (processCommand manager)) s = _
      rw [bind_ok hstep]
      exact hrun
    · rw [hget', hget, hh, Option.map_map]
      congr 1
      funext link
      by_cases hg : goesTo manager s.hostsSchedulers v extCmd = true
      · simp [hg, SchedulerLink.appendAll_append]
      · simp [hg]

theorem processCommand_keeps {Q : Option SchedulerLink → Prop} (hQ : ∀ {o} cmds, Q o → Q (o.map (·.appendAll cmds))) (v : Nat)
    (extCmd : Command) : Keeps (fun s => Q (s.schedulers.get? v)) (processCommand manager extCmd) := by
  unfold processCommand
  cases hr : resolveCommand manager extCmd with
  | error e => exact Keeps.throw trivial
  | ok resolution =>
    refine Keeps.modify fun s h => ?_
    rw [(dispatch_spec hr).2 v]
    by_cases hg : goesTo manager s.hostsSchedulers v extCmd = true
    · have happ := hQ [extCmd] h
      simp only [← SchedulerLink.appendAll_append, SchedulerLink.appendAll_nil] at happ
      simpa [hg] using happ
    · simpa [hg] using h

theorem processCommands_raise {cmds : List Command} (hr : ¬ ∀ extCmd ∈ cmds, ∃ resolution, resolveCommand manager extCmd = .ok resolution) :
    ∃ e s', (cmds.forM (processCommand manager)) s = .error e s' := by
  induction cmds generalizing s with
  | nil => exact absurd (List.forall_mem_nil _) hr
  | cons extCmd cmds ih =>
    have hforM : (extCmd :: cmds).forM (processCommand manager) s =
        (processCommand manager extCmd >>= fun _ => cmds.forM (processCommand manager)) s := rfl
    rw [hforM, bind_eq]
    unfold processCommand
    cases he : resolveCommand manager extCmd with
    | error e => exact ⟨_, _, rfl⟩
    | ok resolution =>
      refine ih fun hall => hr fun c hc => ?_
      rcases List.mem_cons.mp hc with rfl | hc
      · exact ⟨resolution, he⟩
      · exact hall c hc

/-! ## Pushes -/

theorem call_accepts {n : Int} {x : Dispatching.SatelliteLink} {response : Dispatching.Response Unit}
    (h : x.con = true ∧ x.runningId ≠ 0 ∧ x.alive = true ∧ x.reachable = true ∧ response = .content ()) :
    Satellites.call n x response = (x, .ok (.got ())) := by
  obtain ⟨hc, hr, ha, hre, rfl⟩ := h
  unfold Satellites.call
  simp [hc, hr, ha, hre, Dispatching.Response.request]

theorem call_fails {n : Int} {x : Dispatching.SatelliteLink} {response : Dispatching.Response Unit}
    (h : ¬ (x.con = true ∧ x.runningId ≠ 0 ∧ x.alive = true ∧ x.reachable = true ∧ response = .content ())) :
    ∃ y, Satellites.call n x response = (y, .error .linkError) ∨ Satellites.call n x response = (y, .ok .none) ∨
      Satellites.call n x response = (y, .ok .false) := by
  unfold Satellites.call
  by_cases hc : (!x.con || x.runningId == 0) = true
  · exact ⟨x, Or.inl (if_pos hc)⟩
  · rw [if_neg hc]
    by_cases ha : x.alive = true
    · by_cases hr : x.reachable = true
      · simp only [ha, hr, Bool.not_true, Bool.false_eq_true, if_false]
        cases response with
        | content a =>
          refine absurd ⟨?_, ?_, ha, hr, rfl⟩ h
          · by_contra e
            exact hc (by simp [e])
          · intro e
            exact hc (by simp [e])
        | refused status => exact ⟨_, Or.inr (Or.inl rfl)⟩
        | timeout => exact ⟨_, Or.inr (Or.inr rfl)⟩
        | connectionError => exact ⟨_, Or.inr (Or.inl rfl)⟩
        | otherError => exact ⟨_, Or.inr (Or.inl rfl)⟩
      · exact ⟨x.addFailedCheckAttempt n, Or.inr (Or.inr (by simp [ha, hr]))⟩
    · exact ⟨x, Or.inr (Or.inl (by simp [ha]))⟩

theorem pushTo_ok (response : Dispatching.Response Unit) (hl : s.schedulers.get? u = some link) :
    ∃ s' link', pushTo response u s = .ok ⟨⟩ s' ∧ Pushed response link link' ∧
      ∀ v, s'.schedulers.get? v = if v = u then some link' else s.schedulers.get? v := by
  have hget : pushTo response u s = pushLink response u link s := by
    unfold pushTo
    rw [get_bind, hl]
  rw [hget]
  unfold pushLink
  by_cases hk : link.active = false ∨ link.pushedCommands = []
  · rw [if_pos hk]
    refine ⟨s, link, rfl, .kept hk, fun v => ?_⟩
    split
    · rename_i hv
      rw [hv, hl]
    · rfl
  · rw [if_neg hk]
    have hp : link.active = true ∧ link.pushedCommands ≠ [] := by simpa [not_or] using hk
    by_cases ha : link.Accepts response
    · rw [call_accepts ha]
      exact ⟨_, _, rfl, .delivered hp ha, fun v => get?_setScheduler⟩
    · obtain ⟨y, hy | hy | hy⟩ := call_fails (n := link.maxCheckAttempts) ha
      · rw [hy]
        exact ⟨_, _, rfl, .dropped hp ha, fun v => get?_setScheduler⟩
      · rw [hy]
        exact ⟨_, _, rfl, .dropped hp ha, fun v => get?_setScheduler⟩
      · rw [hy]
        exact ⟨_, _, rfl, .dropped hp ha, fun v => get?_setScheduler⟩

theorem pushLoop_ok (response : Nat → Dispatching.Response Unit) {us : List Nat} (hn : us.Nodup)
    (hus : ∀ u ∈ us, s.schedulers.get? u ≠ none) :
    ∃ s', us.forM (fun u => pushTo (response u) u) s = .ok ⟨⟩ s' ∧ (∀ v, s.schedulers.get? v = none → s'.schedulers.get? v = none) ∧
      ∀ v link, s.schedulers.get? v = some link → ∃ link', s'.schedulers.get? v = some link' ∧
        (v ∈ us → Pushed (response v) link link') ∧ (v ∉ us → link' = link) := by
  induction us generalizing s with
  | nil => exact ⟨s, rfl, fun v hv => hv, fun v link hl => ⟨link, hl, by simp⟩⟩
  | cons u us ih =>
    obtain ⟨hu, hn⟩ := List.nodup_cons.mp hn
    obtain ⟨link₀, hl0⟩ := Option.ne_none_iff_exists'.mp (hus u List.mem_cons_self)
    obtain ⟨s₁, link₁, he1, hp1, hget1⟩ := pushTo_ok (response u) hl0
    have hus1 : ∀ v ∈ us, s₁.schedulers.get? v ≠ none := by
      intro v hv
      have hne : v ≠ u := fun e => hu (e ▸ hv)
      rw [hget1, if_neg hne]
      exact hus v (List.mem_cons_of_mem _ hv)
    obtain ⟨s₂, he2, hnone2, h2⟩ := ih hn hus1
    refine ⟨s₂, ?_, fun v hv => hnone2 v ?_, fun v link hl => ?_⟩
    · show (pushTo (response u) u >>= fun _ => us.forM fun u => pushTo (response u) u) s = _
      rw [bind_ok he1]
      exact he2
    · have hne : v ≠ u := by
        rintro rfl
        cases hv.symm.trans hl0
      rw [hget1, if_neg hne]
      exact hv
    · by_cases hv : v = u
      · subst hv
        rw [hl] at hl0
        cases hl0
        obtain ⟨link₂, hl2, -, hsame⟩ := h2 v link₁ (by rw [hget1, if_pos rfl])
        cases hsame hu
        exact ⟨_, hl2, fun _ => hp1, fun h => absurd List.mem_cons_self h⟩
      · obtain ⟨link₂, hl2, hp2, hsame⟩ := h2 v link (by rw [hget1, if_neg hv]; exact hl)
        refine ⟨link₂, hl2, fun hm => hp2 (List.mem_of_ne_of_mem hv hm), fun hm => hsame fun h => hm (List.mem_cons_of_mem _ h)⟩

/-! ## Turns -/

/-- None of the commands that the turn processes raises. -/
def Resolves (manager : ExternalCommandManager ν W) (s : Receiver) : Prop :=
  ∀ extCmd ∈ s.unprocessedExternalCommands, ∃ resolution, resolveCommand manager extCmd = .ok resolution

def newCommands (manager : ExternalCommandManager ν W) (s : Receiver) (u : Nat) : List Command :=
  s.unprocessedExternalCommands.filter (goesTo manager s.hostsSchedulers u)

def Turn.Accepted (manager : ExternalCommandManager ν W) (t : Turn) : Prop :=
  ∀ response, t.event = .pushExternalCommandsToSchedulers response → t.state.unprocessedExternalCommands ≠ [] →
    Resolves manager t.state → ∀ u link, t.state.schedulers.get? u = some link → link.active = true →
    link.pushedCommands ++ newCommands manager t.state u ≠ [] → link.Accepts (response u)

/-- A turn that does not raise pushes what each link had and its new commands. -/
theorem turn_spec (response : Nat → Dispatching.Response Unit) (hu : s.unprocessedExternalCommands ≠ []) (hr : Resolves manager s) :
    ∃ s', pushExternalCommandsToSchedulers manager response s = .ok ⟨⟩ s' ∧
      (∀ v, s.schedulers.get? v = none → s'.schedulers.get? v = none) ∧ ∀ v link, s.schedulers.get? v = some link → ∃ link', s'.schedulers.get? v = some link' ∧
        Pushed (response v) (link.appendAll (newCommands manager s v)) link' := by
  obtain ⟨s₁, he1, -, hget1⟩ := processCommands_ok (s := { s with unprocessedExternalCommands := [] }) hr
  obtain ⟨s₂, he2, hnone2, h2⟩ := pushLoop_ok response s₁.schedulers.nodup fun v hv => Dict.mem_keys.mp hv
  have hturn : pushExternalCommandsToSchedulers manager response s = .ok ⟨⟩ s₂ := by
    unfold pushExternalCommandsToSchedulers
    show ((if s.unprocessedExternalCommands = [] then _ else _ : Rec Unit) s) = _
    rw [if_neg hu]
    show ((s.unprocessedExternalCommands.forM (processCommand manager) >>= fun _ => _ : Rec Unit)
      { s with unprocessedExternalCommands := [] }) = _
    rw [bind_ok he1]
    exact he2
  refine ⟨s₂, hturn, fun v hv => hnone2 v ?_, fun v link hl => ?_⟩
  · rw [hget1 v]
    show (s.schedulers.get? v).map _ = none
    rw [hv]
    rfl
  have hl1 : s₁.schedulers.get? v = some (link.appendAll (newCommands manager s v)) := by
    rw [hget1 v]
    show (s.schedulers.get? v).map _ = _
    rw [hl]
    rfl
  obtain ⟨link', hl', hp, -⟩ := h2 v _ hl1
  exact ⟨link', hl', hp (Dict.mem_keys.mpr (by rw [hl1]; exact Option.some_ne_none _))⟩

theorem turn_raises (response : Nat → Dispatching.Response Unit) (hu : s.unprocessedExternalCommands ≠ []) (hr : ¬ Resolves manager s) :
    stateAfter (pushExternalCommandsToSchedulers manager response s) =
      stateAfter (s.unprocessedExternalCommands.forM (processCommand manager) { s with unprocessedExternalCommands := [] }) := by
  obtain ⟨e, s', he⟩ := processCommands_raise (s := { s with unprocessedExternalCommands := [] }) hr
  unfold pushExternalCommandsToSchedulers
  show stateAfter ((if s.unprocessedExternalCommands = [] then _ else _ : Rec Unit) s) = _
  rw [if_neg hu]
  show stateAfter ((s.unprocessedExternalCommands.forM (processCommand manager) >>= fun _ => _ : Rec Unit)
    { s with unprocessedExternalCommands := [] }) = _
  rw [bind_eq, he]

theorem turn_idle (response : Nat → Dispatching.Response Unit) (hu : s.unprocessedExternalCommands = []) :
    pushExternalCommandsToSchedulers manager response s = .ok ⟨⟩ s := by
  unfold pushExternalCommandsToSchedulers
  show ((if s.unprocessedExternalCommands = [] then _ else _ : Rec Unit) s) = _
  rw [if_pos hu]
  rfl

/-! ## Events -/

def Conserved (s : Receiver) : Prop := ∀ u link, s.schedulers.get? u = some link → link.Conserved

def LossyAt (u : Nat) (s : Receiver) : Prop := ∃ link, s.schedulers.get? u = some link ∧ link.Lossy

theorem Conserved.not_lossyAt (h : Conserved s) : ¬ LossyAt u s := fun ⟨link, hl, hlossy⟩ => (h u link hl).not_lossy hlossy

theorem linkChanges_get (v : Nat) (x : Dispatching.SatelliteLink) (active : Bool) (hl : (linkChanges v x active s).schedulers.get? u = some link) :
    ∃ link₀, s.schedulers.get? u = some link₀ ∧ link.pushedCommands = link₀.pushedCommands ∧ link.resolved = link₀.resolved ∧
      link.delivered = link₀.delivered := by
  unfold linkChanges at hl
  cases hv : s.schedulers.get? v with
  | none =>
    rw [hv] at hl
    exact ⟨link, hl, rfl, rfl, rfl⟩
  | some old =>
    rw [hv] at hl
    simp only [get?_setScheduler] at hl
    split at hl
    · rename_i he
      cases hl
      exact ⟨old, he ▸ hv, rfl, rfl, rfl⟩
    · exact ⟨link, hl, rfl, rfl, rfl⟩

theorem processCommands_conserved {cmds : List Command} (h : Conserved s) :
    Conserved (stateAfter (cmds.forM (processCommand manager) s)) := by
  intro u
  have hQ : ∀ {o : Option SchedulerLink} (cmds : List Command), (∀ link, o = some link → link.Conserved) →
      ∀ link, o.map (·.appendAll cmds) = some link → link.Conserved := by
    intro o cmds ho link hl
    obtain ⟨link₀, hl0, rfl⟩ := Option.map_eq_some_iff.mp hl
    exact (ho link₀ hl0).appendAll cmds
  exact (Keeps.forM (fun extCmd _ => processCommand_keeps (Q := fun o => ∀ link, o = some link → link.Conserved) hQ u extCmd) s (h u)).1

theorem push_lossy (response : Nat → Dispatching.Response Unit) (u : Nat) :
    Keeps (LossyAt u) (pushExternalCommandsToSchedulers manager response) := by
  have hQ : ∀ {o : Option SchedulerLink} (cmds : List Command), (∃ link, o = some link ∧ link.Lossy) →
      ∃ link, o.map (·.appendAll cmds) = some link ∧ link.Lossy := by
    rintro o cmds ⟨link, rfl, hl⟩
    exact ⟨_, rfl, hl.appendAll cmds⟩
  refine Keeps.read fun s => Keeps.ite (fun _ => Keeps.pure _) fun _ => ?_
  refine Keeps.bind (Keeps.modify fun s h => h) fun _ => Keeps.bind (Keeps.forM fun extCmd _ => ?_) fun _ => ?_
  · exact processCommand_keeps (Q := fun o => ∃ link, o = some link ∧ link.Lossy) hQ u extCmd
  refine Keeps.read fun s => Keeps.forM fun v _ => ?_
  rintro s ⟨link, hl, hlossy⟩
  refine ⟨?_, fun _ _ _ => trivial⟩
  by_cases hv : s.schedulers.get? v = none
  · have hraise : pushTo (response v) v s = .error (.python .keyError) s := by
      unfold pushTo
      rw [get_bind, hv]
      rfl
    rw [hraise]
    exact ⟨link, hl, hlossy⟩
  · obtain ⟨link₀, hl0⟩ := Option.ne_none_iff_exists'.mp hv
    obtain ⟨s', link', he, hp, hget⟩ := pushTo_ok (response v) hl0
    rw [he]
    by_cases hu : u = v
    · subst hu
      rw [hl] at hl0
      cases hl0
      exact ⟨link', (hget u).trans (if_pos rfl), hp.lossy hlossy⟩
    · exact ⟨link, ((hget u).trans (if_neg hu)).trans hl, hlossy⟩

theorem event_lossy (t : Turn) (h : LossyAt u t.state) : LossyAt u (t.after manager) := by
  obtain ⟨s, ev⟩ := t
  obtain ⟨link, hl, hlossy⟩ := id h
  cases ev with
  | add extCmd => exact h
  | pushExternalCommandsToSchedulers response => exact (push_lossy response u s h).1
  | getExternalCommands => exact h
  | linkChanges v x active =>
    show LossyAt u (linkChanges v x active s)
    unfold linkChanges
    cases hv : s.schedulers.get? v with
    | none => exact h
    | some old =>
      by_cases hu : u = v
      · subst hu
        rw [hl] at hv
        cases hv
        exact ⟨_, get?_setScheduler.trans (if_pos rfl), hlossy⟩
      · exact ⟨link, (get?_setScheduler.trans (if_neg hu)).trans hl, hlossy⟩

theorem event_conserved (t : Turn) (h : Conserved t.state) :
    (t.Accepted manager → Conserved (t.after manager)) ∧ (¬ t.Accepted manager → ∃ u, LossyAt u (t.after manager)) := by
  obtain ⟨s, ev⟩ := t
  by_cases hev : ∃ response, ev = .pushExternalCommandsToSchedulers response
  · obtain ⟨response, rfl⟩ := hev
    by_cases hu : s.unprocessedExternalCommands = []
    · have hidle : Turn.after manager ⟨s, .pushExternalCommandsToSchedulers response⟩ = s := by
        show stateAfter (pushExternalCommandsToSchedulers manager response s) = s
        rw [turn_idle response hu]
        rfl
      rw [hidle]
      exact ⟨fun _ => h, fun hn => absurd (fun _ _ hne => absurd hu hne) hn⟩
    by_cases hr : Resolves manager s
    · obtain ⟨s', he, hnone, hs'⟩ := turn_spec response hu hr
      have hafter : Turn.after manager ⟨s, .pushExternalCommandsToSchedulers response⟩ = s' := by
        show stateAfter (pushExternalCommandsToSchedulers manager response s) = s'
        rw [he]
        rfl
      rw [hafter]
      constructor
      · intro ha u link' hl'
        have hk : s.schedulers.get? u ≠ none := fun e => absurd (hl'.symm.trans (hnone u e)) (Option.some_ne_none link')
        obtain ⟨link, hl⟩ := Option.ne_none_iff_exists'.mp hk
        obtain ⟨link'', hl'', hp⟩ := hs' u link hl
        rw [hl'] at hl''
        cases hl''
        exact (hp.conserved_iff ((h u link hl).appendAll _)).1.mpr (ha response rfl hu hr u link hl)
      · intro hn
        unfold Turn.Accepted at hn
        push Not at hn
        obtain ⟨response', he', -, -, u, link, hl, hact, hne, hacc⟩ := hn
        cases he'
        obtain ⟨link', hl', hp⟩ := hs' u link hl
        have hiff := hp.conserved_iff ((h u link hl).appendAll _)
        exact ⟨u, link', hl', hiff.2.resolve_left fun hc => hacc (hiff.1.mp hc hact hne)⟩
    · have hafter : Conserved (Turn.after manager ⟨s, .pushExternalCommandsToSchedulers response⟩) := by
        show Conserved (stateAfter (pushExternalCommandsToSchedulers manager response s))
        rw [turn_raises response hu hr]
        exact processCommands_conserved h
      exact ⟨fun _ => hafter, fun hn => absurd (fun _ _ _ hres => absurd hres hr) hn⟩
  · have hafter : Conserved (Turn.after manager ⟨s, ev⟩) := by
      cases ev with
      | add extCmd => exact h
      | pushExternalCommandsToSchedulers response => exact absurd ⟨response, rfl⟩ hev
      | getExternalCommands => exact h
      | linkChanges v x active =>
        intro u link hl
        obtain ⟨link₀, hl0, h1, h2, h3⟩ := linkChanges_get v x active hl
        have hc := h u link₀ hl0
        unfold SchedulerLink.Conserved at hc ⊢
        rw [h1, h2, h3]
        exact hc
    exact ⟨fun _ => hafter, fun hn => absurd (fun response e => absurd ⟨response, e⟩ hev) hn⟩

/-! ## Runs -/

structure Starts (s : Receiver) : Prop where
  empty : ∀ {u link}, s.schedulers.get? u = some link → link.pushedCommands = [] ∧ link.resolved = [] ∧ link.delivered = []

theorem Starts.conserved (h : Starts s) : Conserved s := by
  intro u link hl
  obtain ⟨h1, h2, h3⟩ := h.empty hl
  unfold SchedulerLink.Conserved
  rw [h1, h2, h3]
  rfl

theorem run_lossy (h : Run manager s₀ trace s) (h0 : LossyAt u s₀) : LossyAt u s := by
  induction h with
  | nil => exact h0
  | snoc h ev ih => exact event_lossy _ ih

theorem run_conserved_iff (h : Run manager s₀ trace s) (h0 : Conserved s₀) :
    (Conserved s ↔ ∀ t ∈ trace, t.Accepted manager) ∧ (Conserved s ∨ ∃ u, LossyAt u s) := by
  induction h with
  | nil => exact ⟨⟨fun _ _ ht => (nomatch ht), fun _ => h0⟩, Or.inl h0⟩
  | @snoc trace s h ev ih =>
    obtain ⟨hiff, hcase⟩ := ih
    have hall : (∀ t ∈ trace ++ [(⟨s, ev⟩ : Turn)], t.Accepted manager) ↔
        (∀ t ∈ trace, t.Accepted manager) ∧ Turn.Accepted manager ⟨s, ev⟩ := by
      rw [List.forall_mem_append, List.forall_mem_singleton]
    rw [hall]
    rcases hcase with hc | ⟨u, hlossy⟩
    · have hstep : (Turn.Accepted manager ⟨s, ev⟩ → Conserved (Turn.after manager ⟨s, ev⟩)) ∧
          (¬ Turn.Accepted manager ⟨s, ev⟩ → ∃ u, LossyAt u (Turn.after manager ⟨s, ev⟩)) := event_conserved ⟨s, ev⟩ hc
      by_cases ha : Turn.Accepted manager ⟨s, ev⟩
      · exact ⟨⟨fun _ => ⟨hiff.mp hc, ha⟩, fun _ => hstep.1 ha⟩, Or.inl (hstep.1 ha)⟩
      · obtain ⟨u, hlossy⟩ := hstep.2 ha
        exact ⟨⟨fun hc' => absurd hlossy hc'.not_lossyAt, fun hall => absurd hall.2 ha⟩, Or.inr ⟨u, hlossy⟩⟩
    · have hafter : LossyAt u (Turn.after manager ⟨s, ev⟩) := event_lossy _ hlossy
      exact ⟨⟨fun hc' => absurd hafter hc'.not_lossyAt, fun hall => absurd hlossy (hiff.mpr hall.1).not_lossyAt⟩, Or.inr ⟨u, hafter⟩⟩

theorem turn_delivers (response : Nat → Dispatching.Response Unit) (h : Conserved s) (hu : s.unprocessedExternalCommands ≠ [])
    (hr : Resolves manager s) (hl : s.schedulers.get? u = some link) (ha : link.active = true) (hacc : link.Accepts (response u)) :
    ∃ link', (Turn.after manager ⟨s, .pushExternalCommandsToSchedulers response⟩).schedulers.get? u = some link' ∧
      link'.delivered = link.resolved ++ newCommands manager s u := by
  obtain ⟨s', he, -, hs'⟩ := turn_spec response hu hr
  have hafter : Turn.after manager ⟨s, .pushExternalCommandsToSchedulers response⟩ = s' := by
    show stateAfter (pushExternalCommandsToSchedulers manager response s) = s'
    rw [he]
    rfl
  obtain ⟨link', hl', hp⟩ := hs' u link hl
  rw [hafter]
  refine ⟨link', hl', ?_⟩
  have hc : link.resolved ++ newCommands manager s u = link.delivered ++ (link.pushedCommands ++ newCommands manager s u) :=
    (h u link hl).appendAll (newCommands manager s u)
  rw [hc]
  cases hp with
  | kept hk =>
    have hnil : link.pushedCommands ++ newCommands manager s u = [] :=
      hk.resolve_left fun e => absurd (ha.symm.trans e) (by decide)
    rw [hnil, List.append_nil]
    rfl
  | delivered _ _ => rfl
  | dropped _ hn => exact absurd hacc hn

theorem commands_conserved_iff (h₀ : Starts s₀) (h : Run manager s₀ trace s) :
    (Conserved s ↔ ∀ t ∈ trace, t.Accepted manager) ∧
    (Conserved s → ∀ response u link, s.unprocessedExternalCommands ≠ [] → Resolves manager s → s.schedulers.get? u = some link →
      link.active = true → link.Accepts (response u) →
      ∃ link', (Turn.after manager ⟨s, .pushExternalCommandsToSchedulers response⟩).schedulers.get? u = some link' ∧
        link'.delivered = link.resolved ++ newCommands manager s u) :=
  ⟨(run_conserved_iff h h₀.conserved).1, fun hc response _ _ hu hr hl ha hacc => turn_delivers response hc hu hr hl ha hacc⟩

end

/-! ## Runs of one link -/

def noObjects : ExternalCommandManager Nat Unit where
  directory := ⟨fun _ => none, fun _ _ => none, fun _ => none, fun _ => none, fun _ => none, fun _ => none, fun _ => none, fun _ => false⟩
  now := 0
  perform := fun _ w => (w, none)

def receiving : Receiver where
  schedulers := Dict.empty.set 0 { con := true, runningId := 1, alive := true, reachable := true, active := true, maxCheckAttempts := 3 }
  hostsSchedulers := Dict.empty
  unprocessedExternalCommands := ["[1] ENABLE_NOTIFICATIONS".toList]
  externalCommands := []

theorem receiving_link {u : Nat} {link : SchedulerLink} (h : receiving.schedulers.get? u = some link) :
    u = 0 ∧ link = { con := true, runningId := 1, alive := true, reachable := true, active := true, maxCheckAttempts := 3 } := by
  unfold receiving at h
  rw [Dict.get?_set] at h
  split at h
  · cases h
    exact ⟨by assumption, rfl⟩
  · cases h

theorem receiving_starts : Starts receiving := ⟨fun h => by rw [(receiving_link h).2]; exact ⟨rfl, rfl, rfl⟩⟩

theorem receiving_resolves : Resolves noObjects receiving ∧ newCommands noObjects receiving 0 = receiving.unprocessedExternalCommands := by
  have hr : resolveCommand noObjects "[1] ENABLE_NOTIFICATIONS".toList = .ok .global := by decide
  refine ⟨fun extCmd hm => ⟨.global, ?_⟩, ?_⟩
  · rw [List.mem_singleton.mp hm]
    exact hr
  · have hg : goesTo noObjects receiving.hostsSchedulers 0 "[1] ENABLE_NOTIFICATIONS".toList = true := by
      unfold goesTo
      rw [hr]
    exact List.filter_eq_self.mpr fun extCmd hm => by rw [List.mem_singleton.mp hm]; exact hg

theorem receiving_conserved : Conserved (Turn.after noObjects ⟨receiving, .pushExternalCommandsToSchedulers fun _ => .content ()⟩) := by
  refine (commands_conserved_iff receiving_starts (Run.nil.snoc _)).1.mpr fun t ht => ?_
  rw [List.mem_singleton.mp ht]
  intro response he _ _ u link hl _ _
  cases he
  rw [(receiving_link hl).2]
  exact ⟨rfl, by decide, rfl, rfl, rfl⟩

/-- After a push that times out, no later turn has the command delivered. -/
theorem timeout_loses : ∃ s, Starts receiving ∧ Run noObjects receiving [⟨receiving, .pushExternalCommandsToSchedulers fun _ => .timeout⟩] s ∧
    ∀ rest s', Run noObjects s rest s' → ¬ Conserved s' := by
  refine ⟨_, receiving_starts, Run.nil.snoc _, fun rest s' h hc => ?_⟩
  have hn : ¬ Turn.Accepted noObjects ⟨receiving, .pushExternalCommandsToSchedulers fun _ => .timeout⟩ := by
    intro ha
    obtain ⟨-, -, -, -, hr⟩ := ha _ rfl (by decide) receiving_resolves.1 0 _ rfl rfl (by rw [receiving_resolves.2]; decide)
    cases hr
  obtain ⟨u, hlossy⟩ := (event_conserved _ receiving_starts.conserved).2 hn
  exact hc.not_lossyAt (run_lossy h hlossy)

end Alignak.Receiving
