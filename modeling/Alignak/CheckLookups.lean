import Alignak.CheckRunsSound
import Alignak.DowntimeLinks

/-!
# The checks that are looked up

A check is in progress at its item as soon as it is launched, and a key of the
scheduler's table only when it is added.
-/

namespace Alignak

/-! ## No key is missing for a change of state -/

namespace Scheduling

section
variable {conf : Conf} {env : Env}

theorem enter_raises : ∀ fuel i d, Raises (fun w => (w.downtime? i d).isSome) (Downtime.enter conf env fuel i d) (· ≠ .keyError)
  | 0, _, _ => Raises.throw (by decide)
  | fuel + 1, i, d => by
    unfold Downtime.enter
    refine Raises.readAt fun w hw => ?_
    cases hx : w.downtime? i d with
    | none =>
      rw [hx] at hw
      cases hw
    | some x =>
      have htrue : ∀ {α : Type} {P : World → Prop} {m : Sched α}, Ensures P m fun _ _ => True := fun _ _ _ _ _ => trivial
      refine Raises.bind Raises.modify htrue fun _ => Raises.bind Raises.modify htrue fun _ =>
        Raises.bind Raises.modify htrue fun _ => ?_
      refine Raises.forM fun c _ => ⟨Raises.forM fun j _ => ⟨?_, htrue⟩, htrue⟩
      refine Raises.readAt fun s _ => Raises.ite (fun hs => ?_) fun _ => Raises.pure _
      exact (enter_raises fuel j c).pre fun s' e => by rw [e]; exact hs

theorem checkForFlexibleDowntime_raises (i : Nat) :
    Keeps (fun _ => True) (checkForFlexibleDowntime conf env i) (· ≠ .keyError) := by
  refine fun w _ => ⟨trivial, ?_⟩
  have hraises : Raises (· = w) (checkForFlexibleDowntime conf env i) (· ≠ .keyError) := by
    refine Raises.readAt fun w' hw' => ?_
    subst hw'
    refine Raises.pre (P := fun s => s.links = w'.links) (Raises.forM fun d hd => ⟨?_, ?_⟩) fun s e => by rw [e]
    · refine Raises.readAt fun s hs => ?_
      have hsome : s.downtime? i d ≠ none := fun hnone => by
        have hlink : (s.downtime? i d).map Downtime.link = (w'.downtime? i d).map Downtime.link :=
          congrFun (congrFun (congrArg Prod.fst hs) i) d
        rw [hnone, Option.map_none, eq_comm, Option.map_eq_none_iff] at hlink
        exact Dict.mem_keys.mp hd hlink
      cases hx : s.downtime? i d with
      | none => exact absurd hx hsome
      | some x =>
        refine Raises.ite (fun _ => Raises.readAt fun s' hs' => ?_) fun _ => Raises.pure _
        exact (enter_raises _ i d).pre fun t ht => by rw [ht, hs', hx]; rfl
    · refine Keeps.ensures (E := fun _ => True) (Keeps.read fun s => ?_)
      split
      · exact Keeps.throw trivial
      · exact Keeps.ite (fun _ => enterDowntime_links i d) fun _ => Keeps.pure _
  exact hraises w rfl

theorem consumeResult_raises (c : Nat) : Keeps (fun _ => True) (consumeResult conf env c) (· ≠ .keyError) := by
  have hkept : KeptByImpacts conf fun _ => True := ⟨fun _ _ _ _ => trivial, fun _ _ _ _ => trivial, fun _ _ _ => trivial⟩
  have hchange : ∀ i chk b, Keeps (fun _ => True) (changeState conf env i chk b) (· ≠ .keyError) := fun i chk b =>
    KeptByParts.changeState ⟨fun _ _ _ _ => trivial, fun _ _ _ _ => trivial, checkForFlexibleDowntime_raises i,
      hkept.noMore i (by decide), hkept.setMyself i (by decide) (by decide)⟩
  refine Keeps.read fun w => Keeps.ite (fun _ => Keeps.modify fun _ _ => trivial) fun _ => ?_
  refine Keeps.bind (Keeps.modify fun _ _ => trivial) fun _ => Keeps.read fun w => ?_
  refine Keeps.bind (Keeps.modify fun _ _ => trivial) fun _ => ?_
  exact Keeps.bind (hchange _ _ _) fun _ => Keeps.modify fun _ _ => trivial

end

end Scheduling

namespace Checking

open Scheduling

/-! ## Checks in progress that the scheduler holds -/

def Held (w : World) : Prop := ∀ i, ∀ c ∈ (w.item i).checksInProgress, c ∈ w.checks

/-- While a check raises those it depends on, the checks that it has launched
for the items `done` are not in the table. -/
structure HeldBut (done new : List Nat) (w : World) : Prop where
  busy : Busy w
  held : ∀ i, ∀ c ∈ (w.item i).checksInProgress, c ∈ w.checks ∨ c ∈ new ∧ i ∈ done

section
variable {conf : Conf} {env : Env} {w v : World} {c i : Nat} {t : Int} {r : Option Nat} {b : Bool} {done new : List Nat}

theorem HeldBut.launched {b' : Bool} (h : HeldBut done new w) : HeldBut (done ++ [i]) (new ++ [w.nextCheck])
    (updateInChecking i ((newCheck env i t r b b' w).modifyItem i fun x =>
      { x with checksInProgress := x.checksInProgress ++ [w.nextCheck] })) := by
  refine ⟨h.busy.launched, fun j d hd => ?_⟩
  have hold : d ∈ (w.item j).checksInProgress → d ∈ w.checks ∨ d ∈ new ++ [w.nextCheck] ∧ j ∈ done ++ [i] := fun hd =>
    (h.held j d hd).imp id fun hn => ⟨List.mem_append_left _ hn.1, List.mem_append_left _ hn.2⟩
  have hitem := (@newCheck_item env w i j t r b b').1
  unfold updateInChecking at hd
  rw [modifyItem_modifyItem] at hd
  by_cases hj : j = i
  · subst hj
    rw [modifyItem_self] at hd
    rcases List.mem_append.mp hd with hd | hd
    · rw [hitem] at hd
      exact hold hd
    · exact Or.inr ⟨List.mem_append_right _ hd, List.mem_append_right _ List.mem_cons_self⟩
  · rw [modifyItem_ne _ hj, hitem] at hd
    exact hold hd

theorem HeldBut.more (h : HeldBut done new w) (j : Nat) : HeldBut (done ++ [j]) new w :=
  ⟨h.busy, fun k d hd => (h.held k d hd).imp id fun hn => ⟨hn.1, List.mem_append_left _ hn.2⟩⟩

theorem launchNewCheck_held : Ensures (HeldBut done new) (launchNewCheck conf env i t r b)
    fun o => HeldBut (done ++ [i]) (new ++ o.toList) := by
  refine Ensures.readAt fun w hw => Ensures.ite (fun _ => Ensures.pure ?_) fun _ => ?_
  · rintro _ rfl
    rw [Option.toList_none, List.append_nil]
    exact hw.more i
  · rintro _ rfl o v hr
    cases hr
    exact hw.launched

theorem launchCheck_held (hi : (w.item i).inChecking = false) (hw : HeldBut done new w) :
    Ensures (· = w) (launchCheck conf env i t r false b) fun o => HeldBut (done ++ [i]) (new ++ o.toList) := by
  have hflag : updateInChecking i w = w := hw.busy.updateInChecking i
  refine Ensures.bind (R := fun _ v => v = w) (Ensures.modify ?_) fun _ => Ensures.readAt fun v hv => ?_
  · rintro _ rfl
    exact hflag
  subst hv
  have hf : forcedCheck v i false = none := rfl
  rw [hf]
  refine Ensures.ite (fun h => ?_) fun _ => Ensures.ite (fun h => absurd h (by decide)) fun _ => ?_
  · rw [hi] at h
    cases h
  split
  · exact Ensures.throw
  · refine Ensures.pure fun s hs => ?_
    rw [hs, Option.toList_none, List.append_nil]
    exact hw.more i
  · exact launchNewCheck_held.pre fun s hs => hs ▸ hw

theorem launchNewCheck_raises : Raises (fun _ => True) (launchNewCheck conf env i t r b) (· ≠ .keyError) := by
  have htrue : ∀ {α : Type} {P : World → Prop} {m : Sched α}, Ensures P m fun _ _ => True := fun _ _ _ _ _ => trivial
  refine Raises.readAt fun w _ => Raises.ite (fun _ => Raises.pure _) fun _ => ?_
  refine Raises.bind Raises.modify htrue fun _ => Raises.bind Raises.modify htrue fun _ => ?_
  exact Raises.bind Raises.modify htrue fun _ => Raises.pure _

theorem launchCheck_raises (hi : (w.item i).inChecking = false) (hw : Busy w) :
    Raises (· = w) (launchCheck conf env i t r false b) (· ≠ .keyError) := by
  have hflag : updateInChecking i w = w := hw.updateInChecking i
  refine Raises.bind (R := fun _ v => v = w) Raises.modify (Ensures.modify ?_) fun _ => Raises.readAt fun v hv => ?_
  · rintro _ rfl
    exact hflag
  subst hv
  have hf : forcedCheck v i false = none := rfl
  rw [hf]
  refine Raises.ite (fun h => ?_) fun _ => Raises.ite (fun h => absurd h (by decide)) fun _ => ?_
  · rw [hi] at h
    cases h
  split
  · exact Raises.throw (by decide)
  · exact Raises.pure _
  · exact launchNewCheck_raises.pre fun _ _ => trivial

/-! ## Raising the dependencies -/

theorem raiseDependency_held (raised : Raised) (dep : Dependency) :
    Ensures (HeldBut done raised.new) (raiseDependency conf env c i raised dep) fun o => HeldBut (done ++ [dep.item]) o.new := by
  refine Ensures.readAt fun w hw => Ensures.ite (fun _ => Ensures.pure fun s hs => hs ▸ hw.more _) fun _ => ?_
  refine Ensures.ite (fun hi => ?_) fun _ => ?_
  · rw [Bool.not_eq_true'] at hi
    refine Ensures.bind (launchCheck_held hi hw) fun o => ?_
    split
    · refine Ensures.pure fun s hs => ?_
      rw [Option.toList_none, List.append_nil] at hs
      exact hs
    · exact Ensures.pure fun s hs => hs
  · split
    · exact Ensures.pure fun s hs => hs ▸ hw.more _
    · rename_i u l hl
      refine Ensures.ite (fun _ => ?_) fun _ => Ensures.throw
      refine Ensures.bind (R := fun _ => HeldBut (done ++ [dep.item]) raised.new) (Ensures.modify ?_) fun _ => Ensures.pure fun s hs => hs
      rintro _ rfl
      have hb := hw.more dep.item
      exact ⟨hb.busy.modifyCheck rfl fun j hj => (hb.busy j).live _ hj, hb.held⟩

theorem raiseDependency_raises (raised : Raised) (dep : Dependency) (hd : dep.item ∉ done) :
    Raises (HeldBut done raised.new) (raiseDependency conf env c i raised dep) (· ≠ .keyError) := by
  refine Raises.readAt fun w hw => Raises.ite (fun _ => Raises.pure _) fun _ => ?_
  refine Raises.ite (fun hi => ?_) fun _ => ?_
  · rw [Bool.not_eq_true'] at hi
    refine Raises.bind (launchCheck_raises hi hw.busy) (launchCheck_held hi hw) fun o => ?_
    split <;> exact Raises.pure _
  · split
    · exact Raises.pure _
    · rename_i u l hl
      have hu : u ∈ w.checks := by
        have hprogress : u ∈ (w.item dep.item).checksInProgress := by
          rw [hl]
          exact List.mem_cons_self
        exact (hw.held _ u hprogress).resolve_right fun hn => hd hn.2
      refine Raises.ite (fun _ => ?_) fun hn => absurd hu hn
      exact Raises.bind Raises.modify (R := fun _ _ => True) (fun _ _ _ _ _ => trivial) fun _ => Raises.pure _

theorem raiseDependencies_spec : ∀ {deps : List Dependency} {done : List Nat} {raised : Raised},
    (deps.map Dependency.item).Nodup → (∀ dep ∈ deps, dep.item ∉ done) →
    Raises (HeldBut done raised.new) (deps.foldlM (raiseDependency conf env c i) raised) (· ≠ .keyError) ∧
    Ensures (HeldBut done raised.new) (deps.foldlM (raiseDependency conf env c i) raised) fun o =>
      HeldBut (done ++ deps.map Dependency.item) o.new
  | [], done, raised, _, _ => by
    refine ⟨Raises.pure _, Ensures.pure fun s hs => ?_⟩
    rw [List.map_nil, List.append_nil]
    exact hs
  | dep :: deps, done, raised, hn, hd => by
    rw [List.map_cons, List.nodup_cons] at hn
    have hrec : ∀ o : Raised, _ := fun o => @raiseDependencies_spec deps (done ++ [dep.item]) o hn.2 fun dep' hdep' hm => by
      rcases List.mem_append.mp hm with hm | hm
      · exact hd dep' (List.mem_cons_of_mem _ hdep') hm
      · refine hn.1 ?_
        rw [← List.mem_singleton.mp hm]
        exact List.mem_map_of_mem hdep'
    have hheld := @raiseDependency_held conf env c i done raised dep
    refine ⟨Raises.bind (raiseDependency_raises raised dep (hd dep List.mem_cons_self)) hheld fun o => (hrec o).1, ?_⟩
    refine Ensures.bind hheld fun o => (hrec o).2.post fun o' s hs => ?_
    rw [List.map_cons, List.append_cons]
    exact hs

end

/-! ## Consuming the results -/

section
variable {conf : Conf} {env : Env} {w v : World} {c i : Nat}

def Conf.distinctDependencies (conf : Conf) : Prop := ∀ i, ((conf.actDependOf i).map Dependency.item).Nodup

def AllHeld (w : World) : Prop := Busy w ∧ Held w

theorem onItems_raises {α : Type} {P : World → Prop} {E : Exn → Prop} {m : Scheduling.Sched α} (h : Raises (fun _ => True) m E) :
    Raises P (onItems m) E := by
  intro w _ e v hr
  unfold onItems at hr
  cases hm : m w.items with
  | ok a s =>
    rw [hm] at hr
    cases hr
  | error e' s =>
    rw [hm] at hr
    cases hr
    exact h w.items trivial e s hm

theorem consumeResult_waits (hc : conf.distinctDependencies) (h : AllHeld w)
    (hs : (w.check c).status = .waitConsume ∨ (w.check c).status = .waitDepend) (hm : mustWait conf.toConf w.items c = true) :
    Raises (· = w) (consumeResult conf env c) (· ≠ .keyError) ∧
    Ensures (· = w) (consumeResult conf env c) fun new => HeldBut ((conf.actDependOf (w.check c).ref).map Dependency.item) new := by
  have hwaits := @waits_busy conf env w c h.1 hs hm
  have hstart : Ensures (· = w) (onItems (Scheduling.consumeResult conf.toConf env.toEnv c)) fun _ => HeldBut [] [] :=
    hwaits.post fun _ v hv => ⟨hv.1, fun j d hd => Or.inl (by rw [hv.2] at hd ⊢; exact h.2 j d hd)⟩
  obtain ⟨hraises, hheld⟩ := @raiseDependencies_spec conf env c (w.check c).ref (conf.actDependOf (w.check c).ref) [] ⟨[], []⟩ (hc _)
    fun _ _ => List.not_mem_nil
  rw [List.nil_append] at hheld
  constructor
  · refine Raises.readAt fun v hv => ?_
    subst hv
    rw [if_pos hm]
    refine Raises.bind (onItems_raises (consumeResult_raises c).raises) hstart fun _ => Raises.bind hraises hheld fun o => ?_
    exact Raises.bind Raises.modify (R := fun _ _ => True) (fun _ _ _ _ _ => trivial) fun _ => Raises.pure _
  · refine Ensures.readAt fun v hv => ?_
    subst hv
    rw [if_pos hm]
    refine Ensures.bind hstart fun _ => Ensures.bind hheld fun o => ?_
    refine Ensures.bind (R := fun _ => HeldBut ((conf.actDependOf (v.check c).ref).map Dependency.item) o.new)
      (Ensures.modify fun s hs => ⟨hs.busy.modifyData, hs.held⟩) fun _ => Ensures.pure fun s hs => hs

theorem consumeAndAdd_held (hc : conf.distinctDependencies) (h : AllHeld w)
    (hs : (w.check c).status = .waitConsume ∨ (w.check c).status = .waitDepend) :
    Raises (· = w) (consumeAndAdd conf env c) (· ≠ .keyError) ∧ Ensures (· = w) (consumeAndAdd conf env c) fun _ => AllHeld := by
  by_cases hm : mustWait conf.toConf w.items c = true
  · obtain ⟨hraises, hheld⟩ := @consumeResult_waits conf env w c hc h hs hm
    refine ⟨Raises.bind hraises hheld fun l => Raises.modify, Ensures.bind hheld fun l => Ensures.modify fun v hv => ?_⟩
    obtain ⟨h1, h2, h3⟩ := addChecks_spec l v
    refine ⟨hv.busy.addChecks, fun j d hd => ?_⟩
    rw [h1] at hd
    exact (hv.held j d hd).elim (fun hd => h2 hd) fun hd => h3 d hd.1
  · rw [Bool.not_eq_true] at hm
    constructor
    · refine Raises.bind (R := fun _ _ => True) (Raises.readAt fun v hv => ?_) (fun _ _ _ _ _ => trivial) fun l => Raises.modify
      subst hv
      rw [if_neg (by rw [hm]; decide)]
      refine Raises.bind (R := fun _ _ => True) Raises.modify (fun _ _ _ _ _ => trivial) fun _ => ?_
      exact Raises.bind (R := fun _ _ => True) (onItems_raises (consumeResult_raises c).raises) (fun _ _ _ _ _ => trivial)
        fun _ => Raises.pure _
    · refine (consumeAndAdd_finished hs hm).post fun _ v hv => ⟨hv.busy h.1, fun j d hd => ?_⟩
      rw [hv.checks]
      rw [hv.item, takeCheck_inProgress] at hd
      refine h.2 j d ?_
      split at hd
      · exact List.mem_of_mem_erase hd
      · exact hd

theorem consumeIf_held {p : World → Prop} [DecidablePred p] (hc : conf.distinctDependencies)
    (hp : ∀ w, p w → (w.check c).status = .waitConsume ∨ (w.check c).status = .waitDepend) :
    Raises AllHeld (do guarded (p (← get)) (consumeAndAdd conf env c)) (· ≠ .keyError) ∧
    Ensures AllHeld (do guarded (p (← get)) (consumeAndAdd conf env c)) fun _ => AllHeld := by
  constructor
  · refine Raises.readAt fun w h => Raises.guarded fun hw => ?_
    exact (consumeAndAdd_held hc h (hp w hw)).1
  · refine Ensures.readAt fun w h => Ensures.ite (fun hw => ?_) fun _ => Ensures.pure fun s hs => hs ▸ h
    exact (consumeAndAdd_held hc h (hp w hw)).2

theorem consumeWaiting_held (hc : conf.distinctDependencies) (c : Nat) :
    Raises AllHeld (consumeWaiting conf env c) (· ≠ .keyError) ∧ Ensures AllHeld (consumeWaiting conf env c) fun _ => AllHeld :=
  consumeIf_held (p := fun w => (w.check c).status = .waitConsume) hc fun _ => Or.inl

theorem consumeIfReady_held (hc : conf.distinctDependencies) (c : Nat) :
    Raises AllHeld (consumeIfReady conf env c) (· ≠ .keyError) ∧ Ensures AllHeld (consumeIfReady conf env c) fun _ => AllHeld :=
  consumeIf_held (p := fun w => w.ready c = true) hc fun w hw => by
    unfold World.ready at hw
    rw [Bool.and_eq_true, beq_iff_eq] at hw
    exact Or.inr hw.1

theorem forM_held {f : Nat → Sched Unit} (h : ∀ c, Raises AllHeld (f c) (· ≠ .keyError) ∧ Ensures AllHeld (f c) fun _ => AllHeld)
    (l : List Nat) : Raises AllHeld (l.forM f) (· ≠ .keyError) ∧ Ensures AllHeld (l.forM f) fun _ => AllHeld :=
  ⟨Raises.forM fun c _ => h c, Ensures.forM (I := fun _ => AllHeld) (d := []) fun _ c _ => (h c).2⟩

theorem resolveWaitingMe_held : Raises AllHeld resolveWaitingMe (· ≠ .keyError) ∧
    Ensures AllHeld resolveWaitingMe fun _ => AllHeld := by
  constructor
  · have htell : ∀ c, Keeps (fun _ => True) (tellDependants c) (· ≠ .keyError) := fun c =>
      Keeps.read fun w => Keeps.forM fun d _ => Keeps.read fun w =>
        Keeps.ite (fun _ => Keeps.modify fun _ _ => trivial) fun _ => Keeps.throw (by decide)
    have hkeeps : Keeps (fun _ => True) resolveWaitingMe (· ≠ .keyError) := by
      refine Keeps.read fun w => Keeps.foldlM fun r c _ => Keeps.read fun w => Keeps.ite (fun _ => ?_) fun _ => Keeps.pure _
      exact Keeps.bind (htell c) fun _ => Keeps.bind (Keeps.modify fun _ _ => trivial) fun _ => Keeps.pure _
    exact hkeeps.raises.pre fun _ _ => trivial
  · have hbusy : Ensures Busy resolveWaitingMe fun _ => Busy := by
      refine Ensures.readAt fun w h => ?_
      exact (Ensures.foldlM (I := fun _ _ => Busy) (d := []) fun _ r c _ => resolveCheck_busy r c).pre fun s hs => hs ▸ h
    have hrest : Unchanged (fun w : World => (w.checks, w.item)) resolveWaitingMe := by
      refine Unchanged.bind Unchanged.get fun w => Unchanged.foldlM fun r c _ => Unchanged.bind Unchanged.get fun w => ?_
      refine Unchanged.ite (Unchanged.bind ?_ fun _ => Unchanged.bind (Unchanged.modify fun _ => rfl) fun _ => Unchanged.pure _)
        (Unchanged.pure _)
      refine Unchanged.bind Unchanged.get fun w => Unchanged.forM fun d _ => Unchanged.bind Unchanged.get fun w => ?_
      exact Unchanged.ite (Unchanged.modify fun _ => rfl) (Unchanged.throw _)
    have hheld : Keeps Held resolveWaitingMe :=
      hrest.keeps (J := fun p : List Nat × (Nat → ItemChecks) => ∀ i, ∀ c ∈ (p.2 i).checksInProgress, c ∈ p.1)
    exact (hbusy.pre fun _ h => h.1).and (hheld.ensures.pre fun _ h => h.2)

theorem resolveLoop_held (hc : conf.distinctDependencies) : ∀ fuel,
    Raises AllHeld (resolveLoop conf env fuel) (· ≠ .keyError) ∧ Ensures AllHeld (resolveLoop conf env fuel) fun _ => AllHeld
  | 0 => ⟨Raises.throw (by decide), Ensures.throw⟩
  | fuel + 1 => by
    unfold resolveLoop
    have hready : Raises AllHeld (consumeReady conf env) (· ≠ .keyError) ∧ Ensures AllHeld (consumeReady conf env) fun _ => AllHeld := by
      have hall : ∀ l : List Nat, Raises AllHeld (l.forM (consumeIfReady conf env)) (· ≠ .keyError) ∧
        Ensures AllHeld (l.forM (consumeIfReady conf env)) fun _ => AllHeld := forM_held (consumeIfReady_held hc)
      exact ⟨Raises.readAt fun w hw => (hall _).1.pre fun s hs => hs ▸ hw,
        Ensures.readAt fun w hw => (hall _).2.pre fun s hs => hs ▸ hw⟩
    obtain ⟨h1, h2⟩ := resolveLoop_held hc fuel
    obtain ⟨g1, g2⟩ := resolveWaitingMe_held
    constructor
    · exact Raises.bind g1 g2 fun r => Raises.bind hready.1 hready.2 fun _ => Raises.guarded fun _ => h1
    · refine Ensures.bind g2 fun r => Ensures.bind hready.2 fun _ => ?_
      exact Ensures.ite (fun _ => h2) fun _ => Ensures.pure fun _ h => h

theorem consumeResults_held (hc : conf.distinctDependencies) : Raises AllHeld (consumeResults conf env) (· ≠ .keyError) := by
  have hall : ∀ l : List Nat, Raises AllHeld (l.forM (consumeWaiting conf env)) (· ≠ .keyError) ∧
    Ensures AllHeld (l.forM (consumeWaiting conf env)) fun _ => AllHeld := forM_held (consumeWaiting_held hc)
  refine Raises.bind (R := fun _ => AllHeld) ?_ ?_ fun _ => Raises.readAt fun w hw => ?_
  · exact Raises.readAt fun w hw => (hall _).1.pre fun s hs => hs ▸ hw
  · exact Ensures.readAt fun w hw => (hall _).2.pre fun s hs => hs ▸ hw
  · exact (resolveLoop_held hc _).1.pre fun s hs => hs ▸ hw

end

/-! ## Runs -/

section
variable {conf : Conf}

/-- The scheduler has taken what the commands have launched, for the items whose
checks are looked up. -/
def Turn.Taken (t : Turn) : Prop :=
  match t.event with
  | .consumeResults => ∀ c < t.world.nextCheck, c ∈ (t.world.item (t.world.check c).ref).actions → c ∈ t.world.checks
  | .scheduleCheck i _ _ | .processCheckResult i _ => ∀ c ∈ (t.world.item i).actions, c ∈ t.world.checks
  | _ => True

/-- A key that is missing for `raise_dependencies_check`, or for a dependency
check, is raised by the pass of the results; for a forced check it is caught. -/
def LookupsHeld (conf : Conf) (t : Turn) : Prop :=
  match t.event with
  | .consumeResults => ∀ v, consumeResults conf t.env t.world ≠ .error .keyError v
  | .scheduleCheck i _ _ | .processCheckResult i _ => ∀ c ∈ (t.world.item i).checksInProgress.head?, c ∈ t.world.checks
  | _ => True

theorem lookups_held {w₀ : World} {trace : List Turn} {t : Turn} (h₀ : Initial w₀) (hc : conf.distinctDependencies)
    (hr : Run conf w₀ trace t.world) (ho : ∀ u ∈ trace, u.Orderly conf) (ht : t.Taken) : LookupsHeld conf t := by
  have hlive : Busy t.world := run_busy h₀ hr ho
  obtain ⟨w, env, ev⟩ := t
  have hforced : ∀ i, (∀ c ∈ (w.item i).actions, c ∈ w.checks) → ∀ c ∈ (w.item i).checksInProgress.head?, c ∈ w.checks :=
    fun i hi c hc => ((hlive i).present c (List.mem_of_mem_head? hc)).elim id (hi c)
  cases ev with
  | consumeResults =>
    intro v hv
    have hheld : Held w := fun i c hc => ((hlive i).present c hc).elim id fun ha =>
      ht c ((hlive i).known c hc) (by rw [(hlive i).ref c hc]; exact ha)
    exact consumeResults_held hc w ⟨hlive, hheld⟩ _ v hv rfl
  | scheduleCheck i force t => exact hforced i ht
  | processCheckResult i r => exact hforced i ht
  | _ => trivial

end

/-! ## A forced check before the results -/

def quietWorld : World := { idleWorld with item := fun _ => {} }

theorem quietWorld_initial : Initial quietWorld := ⟨startWorld_initial, rfl, fun _ => ⟨rfl, rfl, rfl⟩, rfl⟩

def oneScheduled : Env := { checkingEnv 8 with nextChk := fun i => if i = 1 then some 8 else none }

def untilResult : List Event :=
  [.schedule, .consumeResults, .getNewActions, .deleteZombieChecks, .manageInternalChecks, .cleanQueues,
    .getToRunChecks fun _ => true, .scheduleCheck 0 true 8]

def untilConsumption : List Event := untilResult ++ [.schedule, .manageResults ⟨0, .done, ⟨2, "", "", "", 8, 1, 0, 0⟩, false⟩]

def inEnv (l : List Event) : List (Env × Event) := l.map fun ev => (oneScheduled, ev)

def chainConf : Conf where
  toConf := { oneHost with
    hosts := [0, 1, 2]
    nodup := by decide
    actDependOf := fun i => if i = 1 then [⟨0, [.letter 'd'], none⟩] else if i = 2 then [⟨1, [.letter 'd'], none⟩] else [] }
  chkDependOf := fun _ => []
  hasCheckCommand := fun _ => true
  fullName := fun _ => "web"
  processPerfData := fun _ => true
  timeoutExitStatus := 2
  tickCleanQueues := 10

theorem chainConf_distinct : chainConf.distinctDependencies := by
  intro i
  show ((if i = 1 then _ else if i = 2 then _ else [] : List Dependency).map _).Nodup
  split
  · exact List.nodup_singleton _
  · split
    · exact List.nodup_singleton _
    · exact List.nodup_nil

def takenInTime : List Event :=
  [.schedule, .consumeResults, .scheduleCheck 0 true 8, .getNewActions, .deleteZombieChecks, .manageInternalChecks, .cleanQueues,
    .getToRunChecks fun _ => true, .schedule, .manageResults ⟨0, .done, ⟨2, "", "", "", 8, 1, 0, 0⟩, false⟩]

theorem lookups_held_taken :
    LookupsHeld chainConf ⟨worldAfter chainConf quietWorld (inEnv takenInTime), oneScheduled, .consumeResults⟩ := by
  refine lookups_held quietWorld_initial chainConf_distinct (run_of_executes chainConf (l := inEnv takenInTime) ?_) ?_ ?_
  · decide
  · decide
  · show ∀ c < (worldAfter chainConf quietWorld (inEnv takenInTime)).nextCheck, _
    decide

/-- The host of a service is forced between two ticks, and its check is no key of
the table when the results are consumed. -/
theorem forcedCheck_missing : Initial quietWorld ∧ chainConf.distinctDependencies ∧
    Run chainConf quietWorld (turns chainConf quietWorld (inEnv untilConsumption))
      (worldAfter chainConf quietWorld (inEnv untilConsumption)) ∧
    ¬ LookupsHeld chainConf ⟨worldAfter chainConf quietWorld (inEnv untilConsumption), oneScheduled, .consumeResults⟩ := by
  refine ⟨quietWorld_initial, chainConf_distinct, run_of_executes chainConf (by decide), fun h => ?_⟩
  exact h _ rfl

end Checking

end Alignak
