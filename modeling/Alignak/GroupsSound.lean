import Alignak.GroupCommands
import Alignak.Loops
import Alignak.ManageResults

/-!
# A command on a group as commands of one item

A loop that returns has run the command of one item, once, on each item that is
concerned.
-/

namespace Alignak.Groups

inductive Scope
  | hostgroupHosts (hostgroup : Group)
  | hostgroupServices (hostgroup : Group)
  | hostServices (host : Nat)
  | servicegroupHosts (servicegroup : Group)
  | servicegroupServices (servicegroup : Group)

section
variable (conf : Conf) (env : Checking.Env)

def Scope.Concerns (i : Nat) : Scope → Prop
  | .hostgroupHosts hostgroup => i ∈ hostgroup.members ∧ i ∈ conf.hosts
  | .hostgroupServices hostgroup => ∃ h ∈ hostgroup.members, h ∈ conf.hosts ∧ i ∈ conf.hostServices h ∧ i ∈ conf.services
  | .hostServices host => i ∈ conf.hostServices host ∧ i ∈ conf.services
  | .servicegroupHosts servicegroup => i ∈ conf.hosts ∧ ∃ s ∈ servicegroup.members, s ∈ conf.services ∧ conf.host s = i
  | .servicegroupServices servicegroup => i ∈ servicegroup.members ∧ i ∈ conf.services

def Scope.items : Scope → List Nat
  | .hostgroupHosts hostgroup => hostgroup.members.filter (· ∈ conf.hosts)
  | .hostgroupServices hostgroup =>
    (hostgroup.members.filter (· ∈ conf.hosts)).flatMap fun h => (conf.hostServices h).filter (· ∈ conf.services)
  | .hostServices host => (conf.hostServices host).filter (· ∈ conf.services)
  | .servicegroupHosts servicegroup =>
    once (((servicegroup.members.filter (· ∈ conf.services)).map conf.host).filter (· ∈ conf.hosts))
  | .servicegroupServices servicegroup => servicegroup.members.filter (· ∈ conf.services)

namespace GroupCommand

def scope : GroupCommand → Scope
  | .disableHostgroupHostChecks hostgroup => .hostgroupHosts hostgroup
  | .disableHostgroupHostNotifications hostgroup => .hostgroupHosts hostgroup
  | .disableHostgroupPassiveHostChecks hostgroup => .hostgroupHosts hostgroup
  | .disableHostgroupPassiveSvcChecks hostgroup => .hostgroupServices hostgroup
  | .disableHostgroupSvcChecks hostgroup => .hostgroupServices hostgroup
  | .disableHostgroupSvcNotifications hostgroup => .hostgroupServices hostgroup
  | .disableHostSvcChecks host => .hostServices host
  | .disableHostSvcNotifications host => .hostServices host
  | .disableServicegroupHostChecks servicegroup => .servicegroupHosts servicegroup
  | .disableServicegroupHostNotifications servicegroup => .servicegroupHosts servicegroup
  | .disableServicegroupPassiveHostChecks servicegroup => .servicegroupHosts servicegroup
  | .disableServicegroupPassiveSvcChecks servicegroup => .servicegroupServices servicegroup
  | .disableServicegroupSvcChecks servicegroup => .servicegroupServices servicegroup
  | .disableServicegroupSvcNotifications servicegroup => .servicegroupServices servicegroup
  | .enableHostgroupHostChecks hostgroup => .hostgroupHosts hostgroup
  | .enableHostgroupHostNotifications hostgroup => .hostgroupHosts hostgroup
  | .enableHostgroupPassiveHostChecks hostgroup => .hostgroupHosts hostgroup
  | .enableHostgroupPassiveSvcChecks hostgroup => .hostgroupServices hostgroup
  | .enableHostgroupSvcChecks hostgroup => .hostgroupServices hostgroup
  | .enableHostgroupSvcNotifications hostgroup => .hostgroupServices hostgroup
  | .enableHostSvcChecks host => .hostServices host
  | .enableHostSvcNotifications host => .hostServices host
  | .enableServicegroupHostChecks servicegroup => .servicegroupHosts servicegroup
  | .enableServicegroupHostNotifications servicegroup => .servicegroupHosts servicegroup
  | .enableServicegroupPassiveHostChecks servicegroup => .servicegroupHosts servicegroup
  | .enableServicegroupPassiveSvcChecks servicegroup => .servicegroupServices servicegroup
  | .enableServicegroupSvcChecks servicegroup => .servicegroupServices servicegroup
  | .enableServicegroupSvcNotifications servicegroup => .servicegroupServices servicegroup
  | .scheduleForcedHostSvcChecks host _ => .hostServices host
  | .scheduleHostSvcChecks host _ => .hostServices host
  | .scheduleHostgroupHostDowntime hostgroup _ => .hostgroupHosts hostgroup
  | .scheduleHostgroupSvcDowntime hostgroup _ => .hostgroupServices hostgroup
  | .scheduleHostSvcDowntime host _ => .hostServices host
  | .scheduleServicegroupHostDowntime servicegroup _ => .servicegroupHosts servicegroup
  | .scheduleServicegroupSvcDowntime servicegroup _ => .servicegroupServices servicegroup

def single : GroupCommand → Nat → Sched Unit
  | .disableHostgroupHostChecks _ => disableHostCheck env
  | .disableHostgroupHostNotifications _ => disableHostNotifications
  | .disableHostgroupPassiveHostChecks _ => disablePassiveHostChecks
  | .disableHostgroupPassiveSvcChecks _ => disablePassiveSvcChecks
  | .disableHostgroupSvcChecks _ => disableSvcCheck env
  | .disableHostgroupSvcNotifications _ => disableSvcNotifications
  | .disableHostSvcChecks _ => disableSvcCheck env
  | .disableHostSvcNotifications _ => disableSvcNotifications
  | .disableServicegroupHostChecks _ => disableHostCheck env
  | .disableServicegroupHostNotifications _ => disableHostNotifications
  | .disableServicegroupPassiveHostChecks _ => disablePassiveHostChecks
  | .disableServicegroupPassiveSvcChecks _ => disablePassiveSvcChecks
  | .disableServicegroupSvcChecks _ => disableSvcCheck env
  | .disableServicegroupSvcNotifications _ => disableSvcNotifications
  | .enableHostgroupHostChecks _ => enableHostCheck
  | .enableHostgroupHostNotifications _ => enableHostNotifications
  | .enableHostgroupPassiveHostChecks _ => enablePassiveHostChecks
  | .enableHostgroupPassiveSvcChecks _ => enablePassiveSvcChecks
  | .enableHostgroupSvcChecks _ => enableSvcCheck
  | .enableHostgroupSvcNotifications _ => enableSvcNotifications
  | .enableHostSvcChecks _ => enableSvcCheck
  | .enableHostSvcNotifications _ => enableSvcNotifications
  | .enableServicegroupHostChecks _ => enableHostCheck
  | .enableServicegroupHostNotifications _ => enableHostNotifications
  | .enableServicegroupPassiveHostChecks _ => enablePassiveHostChecks
  | .enableServicegroupPassiveSvcChecks _ => enablePassiveSvcChecks
  | .enableServicegroupSvcChecks _ => enableSvcCheck
  | .enableServicegroupSvcNotifications _ => enableSvcNotifications
  | .scheduleForcedHostSvcChecks _ checkTime => scheduleForcedSvcCheck conf env checkTime
  | .scheduleHostSvcChecks _ checkTime => scheduleSvcCheck conf env checkTime
  | .scheduleHostgroupHostDowntime _ args => scheduleHostDowntime conf args
  | .scheduleHostgroupSvcDowntime _ args => scheduleSvcDowntime conf args
  | .scheduleHostSvcDowntime _ args => scheduleSvcDowntime conf args
  | .scheduleServicegroupHostDowntime _ args => scheduleHostDowntime conf args
  | .scheduleServicegroupSvcDowntime _ args => scheduleSvcDowntime conf args

/-- The identifiers that the loop looks up are known, none is taken for an object,
and no loop sends a brok of its own. -/
def Resolved : GroupCommand → Prop
  | .scheduleHostgroupSvcDowntime hostgroup _ =>
    ∀ h ∈ hostgroup.members, h ∈ conf.hosts → ∀ s ∈ conf.hostServices h, s ∈ conf.services
  | .disableHostSvcChecks host | .disableHostSvcNotifications host | .enableHostSvcChecks host
  | .enableHostSvcNotifications host => ∀ s ∈ conf.hostServices host, s ∉ conf.services
  | .scheduleForcedHostSvcChecks host _ | .scheduleHostSvcChecks host _ | .scheduleHostSvcDowntime host _ =>
    conf.hostServices host = []
  | .scheduleServicegroupHostDowntime servicegroup _ | .scheduleServicegroupSvcDowntime servicegroup _ =>
    servicegroup.members = []
  | .disableServicegroupHostChecks servicegroup | .disableServicegroupHostNotifications servicegroup
  | .disableServicegroupPassiveHostChecks servicegroup | .enableServicegroupHostChecks servicegroup
  | .enableServicegroupHostNotifications servicegroup | .enableServicegroupPassiveHostChecks servicegroup =>
    ∀ s ∈ servicegroup.members, s ∈ conf.services → conf.host s ∈ conf.hosts
  | .disableServicegroupPassiveSvcChecks servicegroup | .disableServicegroupSvcChecks servicegroup
  | .disableServicegroupSvcNotifications servicegroup | .enableServicegroupPassiveSvcChecks servicegroup
  | .enableServicegroupSvcChecks servicegroup | .enableServicegroupSvcNotifications servicegroup =>
    ∀ s ∈ servicegroup.members, s ∈ conf.services
  | _ => True

end GroupCommand

end

variable {i : Nat} {servicegroup : Group}

section
variable {conf : Conf} {env : Checking.Env} {f : Nat → Sched Unit} {w w' : World}

/-! ## The items that are concerned -/

theorem Scope.items_nodup (scope : Scope) : (scope.items conf).Nodup := by
  cases scope with
  | hostgroupHosts hostgroup => exact hostgroup.nodup.filter _
  | hostServices host => exact (conf.hostServices_nodup host).filter _
  | servicegroupHosts servicegroup => exact once_nodup _
  | servicegroupServices servicegroup => exact servicegroup.nodup.filter _
  | hostgroupServices hostgroup =>
    refine List.nodup_flatMap.mpr ⟨fun h _ => (conf.hostServices_nodup h).filter _, ?_⟩
    -- a service is linked to one host
    refine (hostgroup.nodup.filter _).imp fun {g h} hne s hg hh => hne ?_
    rw [← conf.host_of_mem g s (List.mem_filter.mp hg).1, ← conf.host_of_mem h s (List.mem_filter.mp hh).1]

theorem Scope.mem_items {scope : Scope} : i ∈ scope.items conf ↔ scope.Concerns conf i := by
  cases scope with
  | hostgroupHosts hostgroup => simp [items, Concerns]
  | hostServices host => simp [items, Concerns]
  | servicegroupServices servicegroup => simp [items, Concerns]
  | hostgroupServices hostgroup => simp [items, Concerns, and_assoc]
  | servicegroupHosts servicegroup =>
    simp only [items, Concerns, mem_once, List.mem_filter, List.mem_map, decide_eq_true_eq, and_assoc]
    exact and_comm

/-! ## What a host is told twice -/

theorem onChecking_ok {m : Checking.Sched Unit} (h : onChecking m w = .ok ⟨⟩ w') : m w.checking = .ok ⟨⟩ w'.checking ∧
    w'.modifiedAttributes = w.modifiedAttributes ∧ w'.broks = w.broks := by
  unfold onChecking at h
  cases hm : m w.checking with
  | ok u s =>
    rw [hm] at h
    cases h
    exact ⟨rfl, rfl, rfl⟩
  | error e s =>
    rw [hm] at h
    cases h

theorem endInProgress_item (i c : Nat) : Unchanged Checking.World.item (Checking.endInProgress env i c) := by
  intro w
  unfold Checking.endInProgress
  show (stateAfter ((if c ∈ w.checks then _ else _ : Checking.Sched Unit) w)).item = w.item
  split <;> rfl

theorem disableActiveChecks_item (env : Checking.Env) (i j : Nat) (s : Checking.World) :
    ((stateAfter (Checking.disableActiveChecks env i s)).item j).activeChecksEnabled =
      ((s.item j).activeChecksEnabled && decide (j ≠ i)) := by
  by_cases ha : (s.item i).activeChecksEnabled
  · let t := s.modifyItem i fun x => { x with activeChecksEnabled := false }
    have hrun : Checking.disableActiveChecks env i s = (t.item i).checksInProgress.forM (Checking.endInProgress env i) t := by
      unfold Checking.disableActiveChecks
      show (if (s.item i).activeChecksEnabled = true then _ else _ : Checking.Sched Unit) s = _
      rw [if_pos ha]
      rfl
    have hloop : Unchanged Checking.World.item ((t.item i).checksInProgress.forM (Checking.endInProgress env i)) :=
      Unchanged.forM fun c _ => endInProgress_item i c
    rw [hrun, congrFun (hloop t) j]
    by_cases hj : j = i
    · subst hj
      simp [t, Checking.World.modifyItem]
    · simp [t, Checking.World.modifyItem, hj]
  · have hrun : Checking.disableActiveChecks env i s = .ok ⟨⟩ s := by
      unfold Checking.disableActiveChecks
      show (if (s.item i).activeChecksEnabled = true then _ else _ : Checking.Sched Unit) s = _
      rw [if_neg ha]
      rfl
    rw [hrun]
    by_cases hj : j = i
    · subst hj
      simpa [stateAfter] using ha
    · simp [stateAfter, hj]

theorem guarded_ok {p : Prop} [Decidable p] {m : Sched Unit} (h : guarded p m w = .ok ⟨⟩ w') :
    p ∧ m w = .ok ⟨⟩ w' ∨ ¬ p ∧ w' = w := by
  unfold guarded at h
  split at h
  · rename_i hp
    exact Or.inl ⟨hp, h⟩
  · rename_i hp
    cases h
    exact Or.inr ⟨hp, rfl⟩

theorem bind_returned {m k : Sched Unit} (h : (do m; k) w = .ok ⟨⟩ w') : ∃ u, m w = .ok ⟨⟩ u ∧ k u = .ok ⟨⟩ w' := by
  rw [bind_eq] at h
  cases hm : m w with
  | ok a u =>
    rw [hm] at h
    exact ⟨u, rfl, h⟩
  | error e u =>
    rw [hm] at h
    cases h

theorem disableHostCheck_ok (h : disableHostCheck env i w = .ok ⟨⟩ w') (j : Nat) :
    w'.activeChecksEnabled j = (w.activeChecksEnabled j && decide (j ≠ i)) := by
  change guarded (w.activeChecksEnabled i = true) _ w = _ at h
  rcases guarded_ok h with ⟨-, h⟩ | ⟨ha, rfl⟩
  · obtain ⟨u, hu, hsent⟩ := bind_returned h
    obtain ⟨t, ht, hw⟩ := bind_returned hsent
    cases hu
    cases hw
    have hitem := disableActiveChecks_item env i j (w.markModified i 1).checking
    rw [(onChecking_ok ht).1] at hitem
    exact hitem
  · by_cases hj : j = i
    · subst hj
      simpa using ha
    · simp [hj]

theorem disableHostCheck_lasting : Lasting (fun i w => w.activeChecksEnabled i = false) (disableHostCheck env) where
  self := fun {i w w'} h => by
    rw [disableHostCheck_ok h]
    simp
  keep := fun {i j w w'} h hi => by
    rw [disableHostCheck_ok h, hi]
    rfl
  again := fun {i w} hi => by
    unfold disableHostCheck
    show guarded (w.activeChecksEnabled i = true) _ w = _
    unfold guarded
    rw [if_neg (by simp [hi])]
    rfl

/-- A command that sets what it does not find set. -/
theorem lasting_ite {done : Nat → World → Prop} {_ : ∀ i w, Decidable (done i w)} {g : Nat → World → World}
    (hself : ∀ i w, done i (g i w)) (hkeep : ∀ i j w, i ≠ j → done i w → done i (g j w)) :
    Lasting done fun i => (modify fun w => if done i w then w else g i w : Sched Unit) where
  self := fun {i w w'} h => by
    cases h
    show done i (if done i w then w else g i w)
    split
    next hi => exact hi
    next => exact hself i w
  keep := fun {i j w w'} h hi => by
    cases h
    show done i (if done j w then w else g j w)
    split
    next => exact hi
    next hj => exact hkeep i j w (fun e => hj (e ▸ hi)) hi
  again := fun {i w} hi => by
    show (EStateM.Result.ok PUnit.unit (if done i w then w else g i w) : EStateM.Result Exn World PUnit) = _
    rw [if_pos hi]

theorem enableHostCheck_lasting : Lasting (fun i w => w.activeChecksEnabled i = true) enableHostCheck := by
  refine lasting_ite (fun i w => ?_) fun i j w hne hi => ?_
  · simp [World.activeChecksEnabled, World.setActiveChecks, Checking.World.modifyItem]
  · simpa [World.activeChecksEnabled, World.setActiveChecks, Checking.World.modifyItem, hne] using hi

theorem changePassiveChecks_lasting (enabled : Bool) :
    Lasting (fun i w => w.passiveChecksEnabled i = enabled) (changePassiveChecks enabled) := by
  refine lasting_ite (fun i w => ?_) fun i j w hne hi => ?_
  · simp [World.passiveChecksEnabled, World.setPassiveChecks, Checking.World.modifyItem]
  · simpa [World.passiveChecksEnabled, World.setPassiveChecks, Checking.World.modifyItem, hne] using hi

theorem changeNotifications_lasting (enabled : Bool) :
    Lasting (fun i w => w.notificationsEnabled i = enabled) (changeNotifications enabled) := by
  refine lasting_ite (fun i w => ?_) fun i j w hne hi => ?_
  · simp [World.notificationsEnabled, World.setNotifications, Scheduling.World.modifySettings]
  · simpa [World.notificationsEnabled, World.setNotifications, Scheduling.World.modifySettings, hne]
      using hi

/-! ## Broks that are sent twice -/

/-- The worlds differ in their broks alone. -/
structure Like (u v : World) : Prop where
  checking : u.checking = v.checking
  modifiedAttributes : u.modifiedAttributes = v.modifiedAttributes

/-- The broks that `m` sends, and all else that it does, do not depend on those sent before. -/
def Blind (m : Sched Unit) : Prop := ∀ u v u' v', Like u v → m u = .ok ⟨⟩ u' → m v = .ok ⟨⟩ v' →
  Like u' v' ∧ ∃ sent, u'.broks = u.broks ++ sent ∧ v'.broks = v.broks ++ sent

theorem blind_bind {m k : Sched Unit} (hm : Blind m) (hk : Blind k) : Blind (do m; k) := by
  intro u v u' v' hl hu hv
  obtain ⟨s, hms, hks⟩ := bind_returned hu
  obtain ⟨t, hmt, hkt⟩ := bind_returned hv
  obtain ⟨hst, first, hs, ht⟩ := hm u v s t hl hms hmt
  obtain ⟨hl', second, hu', hv'⟩ := hk s t u' v' hst hks hkt
  refine ⟨hl', first ++ second, ?_, ?_⟩
  · rw [hu', hs, List.append_assoc]
  · rw [hv', ht, List.append_assoc]

theorem blind_onChecking (m : Checking.Sched Unit) : Blind (onChecking m) := by
  intro u v u' v' hl hu hv
  obtain ⟨hmu, hau, hbu⟩ := onChecking_ok hu
  obtain ⟨hmv, hav, hbv⟩ := onChecking_ok hv
  rw [hl.checking, hmv] at hmu
  refine ⟨⟨?_, ?_⟩, [], ?_, ?_⟩
  · injection hmu with _ he
    exact he.symm
  · rw [hau, hav, hl.modifiedAttributes]
  · rw [hbu, List.append_nil]
  · rw [hbv, List.append_nil]

/-- What is changed is told. -/
theorem blind_tell (g : World → World) (hl : ∀ u v, Like u v → Like (g u) (g v)) (hg : ∀ u, (g u).broks = u.broks) (i : Nat) :
    Blind (modify fun w => (g w).sendStatusBrok i) := by
  intro u v u' v' h hu hv
  cases hu
  cases hv
  have hgl := hl u v h
  refine ⟨⟨hgl.1, hgl.2⟩, [i], ?_, ?_⟩
  · exact congrArg (· ++ [i]) (hg u)
  · exact congrArg (· ++ [i]) (hg v)

theorem blind_ite {p : World → Prop} {_ : DecidablePred p} {m : Sched Unit} (hp : ∀ u v, Like u v → (p u ↔ p v))
    (hm : Blind m) : Blind fun w => if p w then .ok ⟨⟩ w else m w := by
  intro u v u' v' hl hu hv
  dsimp only at hu hv
  by_cases h : p u
  · rw [if_pos h] at hu
    rw [if_pos ((hp u v hl).mp h)] at hv
    cases hu
    cases hv
    exact ⟨hl, [], (List.append_nil _).symm, (List.append_nil _).symm⟩
  · rw [if_neg h] at hu
    rw [if_neg fun h' => h ((hp u v hl).mpr h')] at hv
    exact hm u v u' v' hl hu hv

theorem like_activeChecksEnabled {u v : World} (h : Like u v) (i : Nat) : u.activeChecksEnabled i = v.activeChecksEnabled i := by
  unfold World.activeChecksEnabled
  rw [h.checking]

theorem like_notificationsEnabled {u v : World} (h : Like u v) (i : Nat) :
    u.notificationsEnabled i = v.notificationsEnabled i := by
  unfold World.notificationsEnabled
  rw [h.checking]

theorem Like.markModified {u v : World} (h : Like u v) (i bit : Nat) : Like (u.markModified i bit) (v.markModified i bit) := by
  refine ⟨h.checking, ?_⟩
  unfold World.markModified
  rw [h.modifiedAttributes]

theorem disableSvcCheck_blind (i : Nat) : Blind (disableSvcCheck env i) := by
  have hrun : disableSvcCheck env i = fun w => if w.activeChecksEnabled i = false then .ok ⟨⟩ w else
      (do onChecking (Checking.disableActiveChecks env i)
          modify fun w => (w.markModified i 1).sendStatusBrok i : Sched Unit) w := by
    funext w
    change guarded (w.activeChecksEnabled i = true) _ w = _
    unfold guarded
    cases w.activeChecksEnabled i <;> rfl
  rw [hrun]
  refine blind_ite (fun u v h => by rw [like_activeChecksEnabled h]) (blind_bind (blind_onChecking _) ?_)
  exact blind_tell _ (fun u v h => h.markModified i 1) (fun _ => rfl) i

theorem enableSvcCheck_blind (i : Nat) : Blind (enableSvcCheck i) := by
  have hrun : enableSvcCheck i = fun w => if w.activeChecksEnabled i = true then .ok ⟨⟩ w else
      (modify fun w => ((w.setActiveChecks i true).markModified i 1).sendStatusBrok i : Sched Unit) w := by
    funext w
    change EStateM.Result.ok PUnit.unit (if w.activeChecksEnabled i = true then _ else _) = _
    split <;> rfl
  rw [hrun]
  refine blind_ite (fun u v h => by rw [like_activeChecksEnabled h]) (blind_tell (fun w =>
    (w.setActiveChecks i true).markModified i 1) (fun u v h => ?_) (fun _ => rfl) i)
  have hset : Like (u.setActiveChecks i true) (v.setActiveChecks i true) := by
    refine ⟨?_, h.modifiedAttributes⟩
    unfold World.setActiveChecks
    rw [h.checking]
  exact hset.markModified i 1

theorem changeNotifications_blind (enabled : Bool) (i : Nat) : Blind (changeNotifications enabled i) := by
  have hrun : changeNotifications enabled i = fun w => if w.notificationsEnabled i = enabled then .ok ⟨⟩ w else
      (modify fun w => ((w.markModified i 0).setNotifications i enabled).sendStatusBrok i : Sched Unit) w := by
    funext w
    change EStateM.Result.ok PUnit.unit (if w.notificationsEnabled i = enabled then _ else _) = _
    split <;> rfl
  rw [hrun]
  refine blind_ite (fun u v h => by rw [like_notificationsEnabled h]) (blind_tell (fun w =>
    (w.markModified i 0).setNotifications i enabled) (fun u v h => ?_) (fun _ => rfl) i)
  refine ⟨?_, (h.markModified i 0).modifiedAttributes⟩
  unfold World.setNotifications
  dsimp only
  rw [(h.markModified i 0).checking]

theorem schedule_blind (conf : Conf) (force : Bool) (checkTime : Int) (i : Nat) : Blind (schedule conf env force checkTime i) :=
  blind_bind (blind_onChecking _) (blind_tell id (fun _ _ h => h) (fun _ => rfl) i)

/-- A loop that sends the status of each item itself sends one more brok for each. -/
theorem forM_thenBrok (hf : ∀ i, Blind (f i)) (l : List Nat) {u v u' v' : World} (hl : Like u v)
    (hu : l.forM (thenBrok f) u = .ok ⟨⟩ u') (hv : l.forM f v = .ok ⟨⟩ v') :
    u'.broks.length + v.broks.length = v'.broks.length + u.broks.length + l.length := by
  induction l generalizing u v with
  | nil =>
    cases hu
    cases hv
    exact Nat.add_comm _ _
  | cons i l ih =>
    obtain ⟨s, hs, hsl⟩ := bind_returned hu
    obtain ⟨t, ht, htl⟩ := bind_returned hv
    obtain ⟨r, hr, hrs⟩ := bind_returned hs
    cases hrs
    obtain ⟨hrt, sent, hsent, hsent'⟩ := hf i u v r t hl hr ht
    have hrest := @ih (r.sendStatusBrok i) t ⟨hrt.1, hrt.2⟩ hsl htl
    simp only [World.sendStatusBrok, List.length_append, List.length_cons, List.length_nil, hsent, hsent'] at hrest ⊢
    omega

theorem nil_of_thenBrok (hf : ∀ i, Blind (f i)) {l : List Nat} (hu : l.forM (thenBrok f) w = .ok ⟨⟩ w')
    (hv : l.forM f w = .ok ⟨⟩ w') : l = [] := by
  have hlength := forM_thenBrok hf l ⟨rfl, rfl⟩ hu hv
  rw [← List.length_eq_zero_iff]
  omega

end

section
variable {conf : Conf} {env : Checking.Env} {f : Nat → Sched Unit} {w w' : World}

/-! ## The loops -/

theorem eachHost_eq (hostgroup : Group) :
    eachHost conf f hostgroup = (Scope.items conf (.hostgroupHosts hostgroup)).forM f := forM_guarded _

theorem eachService_eq (host : Nat) : eachService conf f host = (Scope.items conf (.hostServices host)).forM f := forM_guarded _

theorem eachHostService_eq (hostgroup : Group) :
    eachHostService conf f hostgroup = (Scope.items conf (.hostgroupServices hostgroup)).forM f := by
  unfold eachHostService
  rw [eachHost_eq, forM_congr fun h _ => eachService_eq h]
  exact forM_flatMap _

theorem lookUp_of_mem {known : List Nat} (h : i ∈ known) : (do f (← lookUp known i)) = f i := by
  unfold lookUp
  rw [if_pos h, pure_bind]

theorem mem_of_lookUp {known : List Nat} (h : (do f (← lookUp known i)) w = .ok ⟨⟩ w') : i ∈ known := by
  by_contra hi
  unfold lookUp at h
  rw [if_neg hi] at h
  cases h

theorem eachLinkedService_eq {host : Nat} (h : ∀ s ∈ conf.hostServices host, s ∈ conf.services) :
    eachLinkedService conf f host = (Scope.items conf (.hostServices host)).forM f := by
  unfold eachLinkedService
  rw [forM_congr fun s hs => lookUp_of_mem (h s hs)]
  refine congrArg (fun l => List.forM l f) ?_
  exact (List.filter_eq_self.mpr fun s hs => decide_eq_true (h s hs)).symm

theorem eachHostLinked_eq {hostgroup : Group}
    (h : ∀ h ∈ hostgroup.members, h ∈ conf.hosts → ∀ s ∈ conf.hostServices h, s ∈ conf.services) :
    eachHost conf (eachLinkedService conf f) hostgroup = (Scope.items conf (.hostgroupServices hostgroup)).forM f := by
  rw [eachHost_eq]
  refine (forM_congr fun i hi => ?_).trans (forM_flatMap _)
  have hin := Scope.mem_items.mp hi
  exact eachLinkedService_eq (h i hin.1 hin.2)

theorem eachMember_eq (h : ∀ s ∈ servicegroup.members, s ∈ conf.services) :
    eachMember conf f servicegroup = (Scope.items conf (.servicegroupServices servicegroup)).forM f := by
  unfold eachMember
  rw [forM_congr fun s hs => lookUp_of_mem (h s hs)]
  refine congrArg (fun l => List.forM l f) ?_
  exact (List.filter_eq_self.mpr fun s hs => decide_eq_true (h s hs)).symm

theorem eachServiceHost_eq {done : Nat → World → Prop} (hf : Lasting done f)
    (h : ∀ s ∈ servicegroup.members, s ∈ conf.services → conf.host s ∈ conf.hosts) :
    eachServiceHost conf f servicegroup = (Scope.items conf (.servicegroupHosts servicegroup)).forM f := by
  unfold eachServiceHost
  rw [forM_guarded]
  have hin : ∀ s ∈ servicegroup.members.filter (· ∈ conf.services), conf.host s ∈ conf.hosts := fun s hs => by
    rw [List.mem_filter, decide_eq_true_eq] at hs
    exact h s hs.1 hs.2
  rw [forM_congr fun s hs => lookUp_of_mem (hin s hs), forM_map_eq, forM_once hf]
  refine congrArg (fun l => List.forM (once l) f) ?_
  refine (List.filter_eq_self.mpr fun i hi => ?_).symm
  obtain ⟨s, hs, rfl⟩ := List.mem_map.mp hi
  exact decide_eq_true (hin s hs)

theorem linked_of_returned {host : Nat} (h : eachLinkedService conf f host w = .ok ⟨⟩ w') :
    ∀ s ∈ conf.hostServices host, s ∈ conf.services := by
  intro s hs
  obtain ⟨t, t', ht⟩ := returned_of_mem h hs
  exact mem_of_lookUp ht

theorem members_of_returned (h : eachMember conf f servicegroup w = .ok ⟨⟩ w') :
    ∀ s ∈ servicegroup.members, s ∈ conf.services := by
  intro s hs
  obtain ⟨t, t', ht⟩ := returned_of_mem h hs
  exact mem_of_lookUp ht

theorem hosts_of_returned (h : eachServiceHost conf f servicegroup w = .ok ⟨⟩ w') :
    ∀ s ∈ servicegroup.members, s ∈ conf.services → conf.host s ∈ conf.hosts := by
  intro s hs hmem
  obtain ⟨t, t', ht⟩ := returned_of_mem h hs
  unfold guarded at ht
  rw [if_pos hmem] at ht
  exact mem_of_lookUp ht

theorem hostLinked_of_returned {hostgroup : Group} (h : eachHost conf (eachLinkedService conf f) hostgroup w = .ok ⟨⟩ w') :
    ∀ h ∈ hostgroup.members, h ∈ conf.hosts → ∀ s ∈ conf.hostServices h, s ∈ conf.services := by
  intro i hi hmem
  obtain ⟨t, t', ht⟩ := returned_of_mem h hi
  unfold guarded at ht
  rw [if_pos hmem] at ht
  exact linked_of_returned ht

theorem nil_of_returned {l : List Nat} (h : (l.forM fun i => do f (← attributeOf i)) w = .ok ⟨⟩ w') : l = [] := by
  refine List.eq_nil_iff_forall_not_mem.mpr fun i hi => ?_
  obtain ⟨t, t', ht⟩ := returned_of_mem h hi
  exact (fun h => nomatch h) ht

theorem nil_of_mapM {l : List Nat} (h : (do let hosts ← l.mapM attributeOf; hosts.forM f) w = .ok ⟨⟩ w') : l = [] := by
  cases l with
  | nil => rfl
  | cons i l =>
    rw [List.mapM_cons] at h
    cases h

theorem eachService_none {host : Nat} (h : ∀ s ∈ conf.hostServices host, s ∉ conf.services) :
    Scope.items conf (.hostServices host) = [] := by
  refine List.filter_eq_nil_iff.mpr fun s hs => ?_
  simpa using h s hs

theorem thenBrok_eachService (hf : ∀ i, Blind (f i)) {host : Nat} (hm : eachService conf (thenBrok f) host w = .ok ⟨⟩ w')
    (he : (Scope.items conf (.hostServices host)).forM f w = .ok ⟨⟩ w') : ∀ s ∈ conf.hostServices host, s ∉ conf.services := by
  rw [eachService_eq] at hm
  intro s hs hmem
  have hin : s ∈ Scope.items conf (.hostServices host) := List.mem_filter.mpr ⟨hs, decide_eq_true hmem⟩
  rw [nil_of_thenBrok hf hm he] at hin
  cases hin

theorem thenBrok_eachLinked (hf : ∀ i, Blind (f i)) {host : Nat} (hm : eachLinkedService conf (thenBrok f) host w = .ok ⟨⟩ w')
    (he : (Scope.items conf (.hostServices host)).forM f w = .ok ⟨⟩ w') : conf.hostServices host = [] := by
  have hlinked := linked_of_returned hm
  rw [eachLinkedService_eq hlinked] at hm
  have hnone := nil_of_thenBrok hf hm he
  refine List.eq_nil_iff_forall_not_mem.mpr fun s hs => ?_
  have hin : s ∈ Scope.items conf (.hostServices host) := List.mem_filter.mpr ⟨hs, decide_eq_true (hlinked s hs)⟩
  rw [hnone] at hin
  cases hin

/-- With the condition the loop `m` is the loop `each`, and it does the same only with the condition. -/
structure Same (condition : Prop) (m each : Sched Unit) : Prop where
  eq : condition → m = each
  of_both : ∀ {w w'}, m w = .ok ⟨⟩ w' → each w = .ok ⟨⟩ w' → condition

theorem Same.of_eq {m each : Sched Unit} (h : m = each) : Same True m each := ⟨fun _ => h, fun _ _ => trivial⟩

theorem Same.of_returned {condition : Prop} {m each : Sched Unit} (h : condition → m = each)
    (hr : ∀ {w w'}, m w = .ok ⟨⟩ w' → condition) : Same condition m each := ⟨h, fun hm _ => hr hm⟩

theorem Same.iff {condition : Prop} {m each : Sched Unit} (h : Same condition m each) :
    (∃ w', m w = .ok ⟨⟩ w' ∧ each w = .ok ⟨⟩ w') ↔ condition ∧ ∃ w', each w = .ok ⟨⟩ w' := by
  constructor
  · rintro ⟨w', hm, he⟩
    exact ⟨h.of_both hm he, w', he⟩
  · rintro ⟨hc, w', he⟩
    exact ⟨w', h.eq hc ▸ he, he⟩

theorem Same.thenBrok_eachService (hf : ∀ i, Blind (f i)) (host : Nat) :
    Same (∀ s ∈ conf.hostServices host, s ∉ conf.services) (eachService conf (thenBrok f) host)
      ((Scope.items conf (.hostServices host)).forM f) := by
  refine ⟨fun h => ?_, Groups.thenBrok_eachService hf⟩
  rw [eachService_eq, eachService_none h]
  rfl

theorem Same.thenBrok_eachLinked (hf : ∀ i, Blind (f i)) (host : Nat) :
    Same (conf.hostServices host = []) (eachLinkedService conf (thenBrok f) host)
      ((Scope.items conf (.hostServices host)).forM f) := by
  refine ⟨fun h => ?_, Groups.thenBrok_eachLinked hf⟩
  simp only [eachLinkedService, Scope.items, h]
  rfl

theorem runGroup_same (cmd : GroupCommand) :
    Same (cmd.Resolved conf) (runGroup conf env cmd) ((cmd.scope.items conf).forM (cmd.single conf env)) := by
  cases cmd with
  | disableHostgroupHostChecks g | disableHostgroupHostNotifications g | disableHostgroupPassiveHostChecks g
  | enableHostgroupHostChecks g | enableHostgroupHostNotifications g | enableHostgroupPassiveHostChecks g
  | scheduleHostgroupHostDowntime g _ => exact .of_eq (eachHost_eq g)
  | disableHostgroupPassiveSvcChecks g | disableHostgroupSvcChecks g | disableHostgroupSvcNotifications g
  | enableHostgroupPassiveSvcChecks g | enableHostgroupSvcChecks g | enableHostgroupSvcNotifications g =>
    exact .of_eq (eachHostService_eq g)
  | disableHostSvcChecks h => exact .thenBrok_eachService disableSvcCheck_blind h
  | enableHostSvcChecks h => exact .thenBrok_eachService enableSvcCheck_blind h
  | disableHostSvcNotifications h | enableHostSvcNotifications h =>
    exact .thenBrok_eachService (changeNotifications_blind _) h
  | disableServicegroupHostChecks g => exact .of_returned (eachServiceHost_eq disableHostCheck_lasting) hosts_of_returned
  | enableServicegroupHostChecks g => exact .of_returned (eachServiceHost_eq enableHostCheck_lasting) hosts_of_returned
  | disableServicegroupHostNotifications g | enableServicegroupHostNotifications g =>
    exact .of_returned (eachServiceHost_eq (changeNotifications_lasting _)) hosts_of_returned
  | disableServicegroupPassiveHostChecks g | enableServicegroupPassiveHostChecks g =>
    exact .of_returned (eachServiceHost_eq (changePassiveChecks_lasting _)) hosts_of_returned
  | disableServicegroupPassiveSvcChecks g | disableServicegroupSvcChecks g | disableServicegroupSvcNotifications g
  | enableServicegroupPassiveSvcChecks g | enableServicegroupSvcChecks g | enableServicegroupSvcNotifications g =>
    exact .of_returned eachMember_eq members_of_returned
  | scheduleForcedHostSvcChecks h _ | scheduleHostSvcChecks h _ =>
    exact .thenBrok_eachLinked (schedule_blind conf _ _) h
  | scheduleHostgroupSvcDowntime g args => exact .of_returned eachHostLinked_eq hostLinked_of_returned
  | scheduleHostSvcDowntime h args =>
    refine .of_returned (fun e => ?_) nil_of_returned
    change conf.hostServices h = [] at e
    simp only [runGroup, scheduleHostSvcDowntime, GroupCommand.scope, Scope.items, e]
    rfl
  | scheduleServicegroupHostDowntime g args =>
    refine .of_returned (fun e => ?_) nil_of_mapM
    change g.members = [] at e
    simp only [runGroup, scheduleServicegroupHostDowntime, GroupCommand.scope, Scope.items, e]
    rfl
  | scheduleServicegroupSvcDowntime g args =>
    refine .of_returned (fun e => ?_) nil_of_returned
    change g.members = [] at e
    simp only [runGroup, scheduleServicegroupSvcDowntime, GroupCommand.scope, Scope.items, e]
    rfl

/-- A command on a group is its command of one item on each item that it concerns, once, exactly when it resolves
the identifiers and this command does not fail on the items. -/
theorem groupCommand_iff (cmd : GroupCommand) (w : World) :
    (cmd.scope.items conf).Nodup ∧ (∀ i, i ∈ cmd.scope.items conf ↔ cmd.scope.Concerns conf i) ∧
    (cmd.Resolved conf → runGroup conf env cmd w = (cmd.scope.items conf).forM (cmd.single conf env) w) ∧
    ((∃ w', runGroup conf env cmd w = .ok ⟨⟩ w' ∧ (cmd.scope.items conf).forM (cmd.single conf env) w = .ok ⟨⟩ w') ↔
      cmd.Resolved conf ∧ ∃ w', (cmd.scope.items conf).forM (cmd.single conf env) w = .ok ⟨⟩ w') :=
  ⟨cmd.scope.items_nodup, fun _ => Scope.mem_items, fun h => congrFun ((runGroup_same cmd).eq h) w, (runGroup_same cmd).iff⟩

end

def servedHost : Conf where
  hosts := [0]
  services := [1]
  nodup := by decide
  host := fun _ => 0
  hostServices := fun h => if h = 0 then [1] else []
  actDependOf := fun _ => []
  actDependOfMe := fun _ => []
  isVolatile := fun _ => false
  resultmodulations := fun _ => []
  enableProblemImpactsStatesChange := false
  chkDependOf := fun _ => []
  hasCheckCommand := fun _ => true
  fullName := fun _ => "web"
  processPerfData := fun _ => true
  timeoutExitStatus := 2
  tickCleanQueues := 10
  hostServices_nodup := fun h => by split <;> simp
  host_of_mem := fun h s hs => by
    split at hs
    next e => exact e.symm
    next => cases hs

def startWorld : World := ⟨Checking.polledWorld, fun _ => 0, []⟩

def anHour : DowntimeArgs := ⟨100, 3700, true, none, 3600⟩

/-- The downtime of the service is scheduled by its own command, and not by the one of its host. -/
theorem hostSvcDowntime_fails :
    (∃ w', (Scope.items servedHost (.hostServices 0)).forM (scheduleSvcDowntime servedHost anHour) startWorld = .ok ⟨⟩ w') ∧
    runGroup servedHost (Checking.checkingEnv 0) (.scheduleHostSvcDowntime 0 anHour) startWorld =
      .error .attributeError startWorld := ⟨⟨_, rfl⟩, rfl⟩

end Alignak.Groups
