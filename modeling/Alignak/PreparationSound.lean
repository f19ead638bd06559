import Alignak.DispatcherSound

/-!
# What a preparation serves

The realms share their schedulers: each realm in turn takes, for its unassigned
parts, the schedulers that still need a configuration.
-/

namespace Alignak.Dispatching

/-! ## The shares of the realms -/

section
variable (conf : Conf) (w : World)

def available (realm : Realm) (needs : Nat → Bool) : List Nat := (realm.schedulerLinks conf).reverse.filter needs

def HasEnough (realm : Realm) (needs : Nat → Bool) : Prop := (partsToDispatch realm w).length ≤ (available conf realm needs).length

def leftOver (realm : Realm) (needs : Nat → Bool) : Nat → Bool :=
  fun s => needs s && !((available conf realm needs).take (partsToDispatch realm w).length).contains s

def needsAfter : List (Realm × Nat) → (Nat → Bool) → Nat → Bool
  | [], needs => needs
  | (realm, _) :: realms, needs => needsAfter realms (leftOver conf w realm needs)

def Stale (k p : Nat) : Prop :=
  (w.part p).isAssigned = true ∧ ∃ t, ∀ x, w.toSatellites k t p = some x → x.needDispatch = false

/-- The turn of the realm makes `prepare_dispatch` return. -/
def StopsAt (k : Nat) (realm : Realm) (needs : Nat → Bool) : Prop :=
  partsToDispatch realm w ≠ [] ∧ realm.schedulerLinks conf ≠ [] ∧
    (¬ HasEnough conf w realm needs ∨ ∃ p ∈ realm.parts, Stale w k p)

def StopsIn : List (Realm × Nat) → (Nat → Bool) → Prop
  | [], _ => False
  | (realm, k) :: realms, needs => StopsAt conf w k realm needs ∨ StopsIn realms (leftOver conf w realm needs)

def Realm.activeLinks (realm : Realm) (t : SatType) : List Nat := (realm.satelliteLinks conf t).filter conf.active

def Obstructed (k : Nat) (realm : Realm) (p : Nat) : Prop :=
  (∃ earlier q later, realm.parts = earlier ++ q :: later ∧ p ∈ later ∧ Stale w k q) ∧ ∃ t, realm.activeLinks conf t ≠ []

end

structure PreparedWith (conf : Conf) (env : Env) (k : Nat) (realm : Realm) (p s : Nat) (w : World) : Prop where
  scheduler : s ∈ realm.schedulerLinks conf
  part : w.part p = ⟨true, some s, env.flavor p⟩
  link : (w.link s).cfgToManage = some (.part p) ∧ (w.link s).needConf = false ∧ (w.link s).configurationSent = false
  satellites : ∀ t, ∃ needDispatch, w.toSatellites k t p =
    some ⟨some ⟨s, p, env.flavor p⟩, needDispatch, realm.activeLinks conf t⟩
  given : ∀ t, ∀ i ∈ realm.activeLinks conf t, (w.link i).schedulers.get? p = some (some ⟨s, p, env.flavor p⟩) ∧
    (w.link i).configurationSent = false

def Prepared (conf : Conf) (env : Env) (k : Nat) (realm : Realm) (p : Nat) (w : World) : Prop :=
  ∃ s, PreparedWith conf env k realm p s w

/-! ## The assignment of the parts -/

variable {p s : Nat} {l : List Nat} {r : World} {t : SatType} {cfg : Option SatSchedulerCfg}
  {realms : List (Realm × Nat)}

section
variable {conf : Conf} {env : Env} {k : Nat} {realm : Realm}

def World.needing (w : World) (l : List Nat) : List Nat := l.filter fun s => (w.link s).needConf

theorem popScheduler_eq (w : World) : ∀ l : List Nat, (popScheduler w l).1 = (w.needing l).head? ∧
    w.needing (popScheduler w l).2 = (w.needing l).tail ∧ (popScheduler w l).2.Sublist l ∧
    ∀ s, (popScheduler w l).1 = some s → (s :: (popScheduler w l).2).Sublist l
  | [] => ⟨rfl, rfl, List.Sublist.slnil, fun _ h => nomatch h⟩
  | s :: l => by
    obtain ⟨h1, h2, h3, h4⟩ := popScheduler_eq w l
    unfold popScheduler
    cases hn : (w.link s).needConf with
    | true =>
      have hf : w.needing (s :: l) = s :: w.needing l := List.filter_cons_of_pos hn
      rw [hf]
      refine ⟨rfl, rfl, List.sublist_cons_self _ _, fun x hx => ?_⟩
      cases hx
      exact List.Sublist.refl _
    | false =>
      have hf : w.needing (s :: l) = w.needing l := List.filter_cons_of_neg (by rw [hn]; decide)
      rw [hf]
      exact ⟨h1, h2, h3.cons _, fun x hx => (h4 x hx).cons _⟩

theorem assignTo_needConf (p s : Nat) (w : World) (x : Nat) :
    ((assignTo env k p s w).link x).needConf = ((w.link x).needConf && x != s) := by
  unfold assignTo World.modifyLink
  by_cases hne : x = s
  · subst hne
    simp
  · simp [World.modifyPart, World.setAllToSatellites, hne]

structure AssignedAll (env : Env) (k : Nat) (l schedulers : List Nat) (v r : World) : Prop where
  needConf : ∀ s, (r.link s).needConf =
    ((v.link s).needConf && !((v.needing schedulers).take l.length).contains s)
  otherLinks : ∀ i, i ∉ schedulers → r.link i = v.link i
  otherParts : ∀ p, p ∉ l → r.part p = v.part p
  otherTables : ∀ k' t p, k' ≠ k ∨ p ∉ l → r.toSatellites k' t p = v.toSatellites k' t p
  enough : l.length ≤ (v.needing schedulers).length → ∀ p ∈ l, ∃ s ∈ schedulers,
    r.part p = ⟨true, some s, env.flavor p⟩ ∧
    ((r.link s).cfgToManage = some (.part p) ∧ (r.link s).needConf = false ∧ (r.link s).configurationSent = false) ∧
    ∀ t, r.toSatellites k t p = some ⟨some ⟨s, p, env.flavor p⟩, true, []⟩
  missing : (v.needing schedulers).length < l.length →
    ∃ p ∈ l, ∀ t, r.toSatellites k t p = some ⟨none, false, []⟩

theorem AssignedAll.nil (schedulers : List Nat) (v : World) : AssignedAll env k [] schedulers v v := by
  refine ⟨fun s => ?_, fun _ _ => rfl, fun _ _ => rfl, fun _ _ _ _ => rfl, fun _ p hp => absurd hp List.not_mem_nil, fun h => ?_⟩
  · simp
  · simp at h

theorem needing_assignTo {v : World} (h : s ∉ l) : (assignTo env k p s v).needing l = v.needing l := by
  refine List.filter_congr fun x hx => ?_
  rw [assignTo_needConf]
  have : x ≠ s := fun e => h (e ▸ hx)
  simp [this]

theorem AssignedAll.found {rest schedulers : List Nat} {v : World} (hp : p ∉ l) (hs : s ∉ rest)
    (hsub : (s :: rest).Sublist schedulers) (hneed : v.needing schedulers = s :: v.needing rest)
    (h : AssignedAll env k l rest (assignTo env k p s v) r) : AssignedAll env k (p :: l) schedulers v r := by
  have hn : (assignTo env k p s v).needing rest = v.needing rest := needing_assignTo hs
  have hmem : s ∈ schedulers := hsub.subset List.mem_cons_self
  have hrest : ∀ x ∈ rest, x ∈ schedulers := fun x hx => hsub.subset (List.mem_cons_of_mem _ hx)
  have hlink : ∀ i, i ≠ s → (assignTo env k p s v).link i = v.link i := fun i hi => Function.update_of_ne hi _ _
  have htable : ∀ k' t q, (assignTo env k p s v).toSatellites k' t q =
      if k' = k ∧ q = p then some ⟨some ⟨s, p, env.flavor p⟩, true, []⟩ else v.toSatellites k' t q := fun _ _ _ => rfl
  refine ⟨fun x => ?_, fun i hi => ?_, fun q hq => ?_, fun k' t q hq => ?_, fun hle q hq => ?_, fun hlt => ?_⟩
  · rw [h.needConf, hn, assignTo_needConf, hneed, List.length_cons, List.take_succ_cons, List.contains_cons]
    cases (v.link x).needConf <;> cases hx : x == s <;> simp [bne, hx]
  · rw [h.otherLinks i fun hr => hi (hrest i hr), hlink i fun e => hi (e ▸ hmem)]
  · rw [List.mem_cons, not_or] at hq
    rw [h.otherParts q hq.2, assignTo_part k p s v hq.1]
  · rw [List.mem_cons, not_or] at hq
    rw [h.otherTables k' t q (hq.imp_right fun h => h.2), htable, if_neg]
    exact fun e => hq.elim (fun hk => hk e.1) fun hne => hne.1 e.2
  · rw [hneed, List.length_cons, List.length_cons, Nat.add_le_add_iff_right] at hle
    rcases List.mem_cons.mp hq with rfl | hq
    · refine ⟨s, hmem, ?_, ?_, fun t => ?_⟩
      · rw [h.otherParts q hp]
        exact Function.update_self _ _ _
      · rw [h.otherLinks s hs]
        unfold assignTo World.modifyLink
        simp
      · rw [h.otherTables k t q (Or.inr hp), htable, if_pos ⟨rfl, rfl⟩]
    · rw [← hn] at hle
      obtain ⟨x, hx, hrest'⟩ := h.enough hle q hq
      exact ⟨x, hrest x hx, hrest'⟩
  · rw [hneed, List.length_cons, List.length_cons, Nat.add_lt_add_iff_right, ← hn] at hlt
    obtain ⟨q, hq, ht⟩ := h.missing hlt
    exact ⟨q, List.mem_cons_of_mem _ hq, ht⟩

theorem AssignedAll.none {rest schedulers : List Nat} {v : World} (hp : p ∉ l)
    (hsub : rest.Sublist schedulers) (hneed : v.needing schedulers = []) (hneed' : v.needing rest = [])
    (h : AssignedAll env k l rest (noScheduler k p v) r) : AssignedAll env k (p :: l) schedulers v r := by
  have hn : (noScheduler k p v).needing rest = [] := hneed'
  have htable : ∀ k' t q, (noScheduler k p v).toSatellites k' t q =
      if k' = k ∧ q = p then some ⟨Option.none, false, []⟩ else v.toSatellites k' t q := fun _ _ _ => rfl
  refine ⟨fun x => ?_, fun i hi => ?_, fun q hq => ?_, fun k' t q hq => ?_, fun hle => ?_, fun _ => ?_⟩
  · rw [h.needConf, hn, hneed]
    simp [noScheduler, World.setAllToSatellites]
  · exact h.otherLinks i fun hr => hi (hsub.subset hr)
  · rw [List.mem_cons, not_or] at hq
    exact h.otherParts q hq.2
  · rw [List.mem_cons, not_or] at hq
    rw [h.otherTables k' t q (hq.imp_right fun h => h.2), htable, if_neg]
    exact fun e => hq.elim (fun hk => hk e.1) fun hne => hne.1 e.2
  · rw [hneed] at hle
    cases hle
  · refine ⟨p, List.mem_cons_self, fun t => ?_⟩
    rw [h.otherTables k t p (Or.inr hp), htable, if_pos ⟨rfl, rfl⟩]

theorem assignAll_spec : ∀ (l schedulers : List Nat) (v : World), l.Nodup → schedulers.Nodup →
    AssignedAll env k l schedulers v (l.foldl (assignPart env k) (schedulers, v)).2
  | [], schedulers, v, _, _ => AssignedAll.nil schedulers v
  | p :: l, schedulers, v, hl, hs => by
    rw [List.nodup_cons] at hl
    obtain ⟨h1, h2, h3, h4⟩ := popScheduler_eq v schedulers
    rw [List.foldl_cons]
    unfold assignPart
    cases hpop : popScheduler v schedulers with
    | mk found rest =>
      rw [hpop] at h1 h2 h3 h4
      cases found with
      | none =>
        have hneed : v.needing schedulers = [] := List.head?_eq_none_iff.mp h1.symm
        rw [hneed] at h2
        exact AssignedAll.none hl.1 h3 hneed h2 (assignAll_spec l rest _ hl.2 (hs.sublist h3))
      | some s =>
        have hsub := h4 s rfl
        have hnd := List.nodup_cons.mp (hs.sublist hsub)
        have hneed : v.needing schedulers = s :: v.needing rest := by
          rw [h2]
          exact List.eq_cons_of_mem_head? h1.symm
        exact AssignedAll.found hl.1 hnd.1 hsub hneed (assignAll_spec l rest _ hl.2 hnd.2)

/-! ## The satellites of a part -/

structure GivenAll (conf : Conf) (k : Nat) (p : Nat) (t : SatType) (cfg : Option SatSchedulerCfg) (managedBy l : List Nat)
    (v r : World) : Prop where
  part : r.part = v.part
  otherTables : ∀ k' t' q, (k', t', q) ≠ (k, t, p) → r.toSatellites k' t' q = v.toSatellites k' t' q
  table : ∃ needDispatch, r.toSatellites k t p = some ⟨cfg, needDispatch, managedBy ++ l.filter conf.active⟩
  otherLinks : ∀ i, i ∉ l.filter conf.active → r.link i = v.link i
  given : ∀ i ∈ l.filter conf.active, (r.link i).schedulers.get? p = some cfg ∧ (r.link i).configurationSent = false
  otherKeys : ∀ i q, q ≠ p → (r.link i).schedulers.get? q = (v.link i).schedulers.get? q

theorem GivenAll.unsent {managedBy : List Nat} {v : World}
    (h : GivenAll conf k p t cfg managedBy l v r) (i : Nat) (hv : (v.link i).configurationSent = false) :
    (r.link i).configurationSent = false := by
  by_cases hi : i ∈ l.filter conf.active
  · exact (h.given i hi).2
  · rw [h.otherLinks i hi]
    exact hv

theorem setToSatellites_other {w : World} {x : ToSatellites} {k' : Nat} {t' : SatType} {q : Nat}
    (h : (k', t', q) ≠ (k, t, p)) : (w.setToSatellites k t p x).toSatellites k' t' q = w.toSatellites k' t' q :=
  if_neg fun e => h (by rw [e.1, e.2.1, e.2.2])

theorem giveAll_spec (p : Nat) (t : SatType) (cfg : Option SatSchedulerCfg) : ∀ (l : List Nat) (n : Nat) (v : World)
    (needDispatch : Bool) (managedBy : List Nat), v.toSatellites k t p = some ⟨cfg, needDispatch, managedBy⟩ →
    GivenAll conf k p t cfg managedBy l v (l.foldl (prepareSatellite conf k realm p t) (n, v)).2
  | [], n, v, needDispatch, managedBy, h =>
    ⟨rfl, fun _ _ _ _ => rfl, ⟨needDispatch, by rw [List.filter_nil, List.append_nil]; exact h⟩, fun _ _ => rfl,
      fun i hi => absurd hi List.not_mem_nil, fun _ _ _ => rfl⟩
  | i :: l, n, v, needDispatch, managedBy, h => by
    cases ha : conf.active i with
    | false =>
      have hstep : prepareSatellite conf k realm p t (n, v) i = (n, v) := by
        unfold prepareSatellite
        simp [h, ha]
      rw [List.foldl_cons, hstep]
      obtain ⟨h1, h2, h3, h4, h5, h6⟩ := giveAll_spec p t cfg l n v needDispatch managedBy h
      refine ⟨h1, h2, ?_, ?_, ?_, h6⟩ <;> rw [List.filter_cons_of_neg (by rw [ha]; decide)]
      · exact h3
      · exact h4
      · exact h5
    | true =>
      have hstep : prepareSatellite conf k realm p t (n, v) i =
          (n + 1, (giveToSatellite p ⟨cfg, needDispatch, managedBy⟩ i v).setToSatellites k t p
            ⟨cfg, needDispatch && n + 1 != realm.nbOfMustHave t, managedBy ++ [i]⟩) := by
        unfold prepareSatellite
        simp [h, ha]
      rw [List.foldl_cons, hstep]
      have hset : ((giveToSatellite p ⟨cfg, needDispatch, managedBy⟩ i v).setToSatellites k t p
          ⟨cfg, needDispatch && n + 1 != realm.nbOfMustHave t, managedBy ++ [i]⟩).toSatellites k t p =
            some ⟨cfg, needDispatch && n + 1 != realm.nbOfMustHave t, managedBy ++ [i]⟩ := if_pos ⟨rfl, rfl, rfl⟩
      obtain ⟨h1, h2, ⟨b, h3⟩, h4, h5, h6⟩ := giveAll_spec p t cfg l (n + 1) _ _ _ hset
      have hcons : (i :: l).filter conf.active = i :: l.filter conf.active := List.filter_cons_of_pos ha
      refine ⟨h1, fun k' t' q hne => ?_, ⟨b, ?_⟩, fun j hj => ?_, fun j hj => ?_, fun j q hq => ?_⟩
      · rw [h2 k' t' q hne, setToSatellites_other hne]
        rfl
      · rw [h3, hcons, List.append_assoc, List.singleton_append]
      · rw [hcons, List.mem_cons, not_or] at hj
        rw [h4 j hj.2]
        exact Function.update_of_ne hj.1 _ _
      · by_cases hm : j ∈ l.filter conf.active
        · exact h5 j hm
        · rw [hcons] at hj
          have hji : j = i := (List.mem_cons.mp hj).resolve_right hm
          subst hji
          rw [h4 j hm]
          simp [giveToSatellite, World.modifyLink, World.setToSatellites]
      · rw [h6 j q hq]
        by_cases hji : j = i
        · subst hji
          simp [giveToSatellite, World.modifyLink, World.setToSatellites, Dict.get?_set_ne hq]
        · simp [giveToSatellite, World.modifyLink, World.setToSatellites, hji]

def OpenJob (w : World) (k : Nat) (job : Nat × SatType) : Prop :=
  ∃ x, w.toSatellites k job.2 job.1 = some x ∧ x.needDispatch = true

theorem prepareSatellites_open (conf : Conf) (realm : Realm) {v : World} {job : Nat × SatType} (h : OpenJob v k job) :
    ∃ x r, v.toSatellites k job.2 job.1 = some x ∧ prepareSatellites conf k realm v job = some r ∧
      GivenAll conf k job.1 job.2 x.toSatellite x.managedBy (realm.satelliteLinks conf job.2) v r := by
  obtain ⟨x, hx, hn⟩ := h
  refine ⟨x, ((realm.satelliteLinks conf job.2).foldl (prepareSatellite conf k realm job.1 job.2) (0, v)).2, hx, ?_, ?_⟩
  · unfold prepareSatellites
    rw [hx]
    simp [hn]
  · exact giveAll_spec job.1 job.2 x.toSatellite _ 0 v x.needDispatch x.managedBy hx

theorem prepareSatellites_closed {v : World} {job : Nat × SatType} (h : ¬ OpenJob v k job) :
    prepareSatellites conf k realm v job = none := by
  unfold prepareSatellites
  split
  · rfl
  · rename_i x hx
    rw [if_pos]
    cases hn : x.needDispatch with
    | false => rfl
    | true => exact absurd ⟨x, hx, hn⟩ h

theorem untilReturn_append {α : Type} {turn : World → α → Option World} : ∀ (l l' : List α) (v : World),
    untilReturn turn (l ++ l') v =
      if (untilReturn turn l v).1 then untilReturn turn l v else untilReturn turn l' (untilReturn turn l v).2
  | [], l', v => rfl
  | a :: l, l', v => by
    cases hr : turn v a with
    | none => simp [untilReturn, hr]
    | some r =>
      simp only [List.cons_append, untilReturn, hr]
      exact untilReturn_append l l' r

theorem jobs_table {l : List (Nat × SatType)} {v : World} {k' : Nat} (h : k' ≠ k ∨ (p, t) ∉ l) :
    (untilReturn (prepareSatellites conf k realm) l v).2.toSatellites k' t p = v.toSatellites k' t p := by
  refine untilReturn_keeps (I := fun w => w.toSatellites k' t p = v.toSatellites k' t p) l (fun w w' job hj hr hw => ?_) v rfl
  by_cases ho : OpenJob w k job
  · obtain ⟨x, r, -, hr', hg⟩ := prepareSatellites_open conf realm ho
    rw [hr] at hr'
    cases hr'
    rw [hg.otherTables, hw]
    rintro ⟨rfl, rfl, rfl⟩
    exact h.elim (fun hk => hk rfl) fun hn => hn hj
  · rw [prepareSatellites_closed ho] at hr
    cases hr

theorem jobs_return : ∀ (l : List (Nat × SatType)) (v : World), l.Nodup →
    ((untilReturn (prepareSatellites conf k realm) l v).1 = true ↔ ∃ job ∈ l, ¬ OpenJob v k job)
  | [], v, _ => by simp [untilReturn]
  | job :: l, v, hl => by
    rw [List.nodup_cons] at hl
    unfold untilReturn
    by_cases ho : OpenJob v k job
    · obtain ⟨x, r, -, hr, hg⟩ := prepareSatellites_open conf realm ho
      rw [hr]
      have hsame : ∀ j ∈ l, (OpenJob r k j ↔ OpenJob v k j) := by
        intro j hj
        unfold OpenJob
        rw [hg.otherTables]
        intro e
        simp only [Prod.mk.injEq, true_and] at e
        exact hl.1 (Prod.ext e.2 e.1 ▸ hj)
      refine (jobs_return l r hl.2).trans ⟨fun ⟨j, hj, hn⟩ => ?_, fun ⟨j, hj, hn⟩ => ?_⟩
      · exact ⟨j, List.mem_cons_of_mem _ hj, fun h => hn ((hsame j hj).mpr h)⟩
      · rcases List.mem_cons.mp hj with rfl | hj
        · exact absurd ho hn
        · exact ⟨j, hj, fun h => hn ((hsame j hj).mp h)⟩
    · rw [prepareSatellites_closed ho]
      exact ⟨fun _ => ⟨job, List.mem_cons_self, ho⟩, fun _ => rfl⟩

def JobDone (conf : Conf) (k : Nat) (realm : Realm) (p : Nat) (t : SatType) (cfg : Option SatSchedulerCfg) (w : World) : Prop :=
  (∃ needDispatch, w.toSatellites k t p = some ⟨cfg, needDispatch, realm.activeLinks conf t⟩) ∧
    ∀ i ∈ realm.activeLinks conf t, (w.link i).schedulers.get? p = some cfg ∧ (w.link i).configurationSent = false

def OneCfg (k p : Nat) (cfg : Option SatSchedulerCfg) (w : World) : Prop :=
  ∀ t x, w.toSatellites k t p = some x → x.toSatellite = cfg

theorem OneCfg.job {w w' : World} {job : Nat × SatType} (h : OneCfg k p cfg w)
    (hr : prepareSatellites conf k realm w job = some w') : OneCfg k p cfg w' := by
  by_cases ho : OpenJob w k job
  · obtain ⟨x, r, hx, hr', hg⟩ := prepareSatellites_open conf realm ho
    rw [hr] at hr'
    cases hr'
    intro t y hy
    by_cases he : (k, t, p) = (k, job.2, job.1)
    · simp only [Prod.mk.injEq, true_and] at he
      obtain ⟨rfl, rfl⟩ := he
      obtain ⟨b, hb⟩ := hg.table
      rw [hb] at hy
      cases hy
      exact h _ x hx
    · rw [hg.otherTables k t p he] at hy
      exact h t y hy
  · rw [prepareSatellites_closed ho] at hr
    cases hr

theorem JobDone.job {w w' : World} {job : Nat × SatType}
    (h : JobDone conf k realm p t cfg w) (hc : OneCfg k p cfg w) (hne : (p, t) ≠ job)
    (hr : prepareSatellites conf k realm w job = some w') : JobDone conf k realm p t cfg w' := by
  by_cases ho : OpenJob w k job
  · obtain ⟨x, r, hx, hr', hg⟩ := prepareSatellites_open conf realm ho
    rw [hr] at hr'
    cases hr'
    obtain ⟨⟨b, hb⟩, hi⟩ := h
    refine ⟨⟨b, ?_⟩, fun i hmem => ⟨?_, hg.unsent i (hi i hmem).2⟩⟩
    · rw [hg.otherTables, hb]
      intro e
      simp only [Prod.mk.injEq, true_and] at e
      exact hne (Prod.ext e.2 e.1)
    · by_cases hp : p = job.1
      · subst hp
        by_cases hi' : i ∈ (realm.satelliteLinks conf job.2).filter conf.active
        · rw [(hg.given i hi').1, hc _ x hx]
        · rw [hg.otherLinks i hi']
          exact (hi i hmem).1
      · rw [hg.otherKeys i p hp]
        exact (hi i hmem).1
  · rw [prepareSatellites_closed ho] at hr
    cases hr

theorem jobs_done {m₁ m₂ : List (Nat × SatType)} {v : World}
    (hl : (m₁ ++ (p, t) :: m₂).Nodup) (ho : ∀ job ∈ m₁, OpenJob v k job) (hc : OneCfg k p cfg v)
    (ht : v.toSatellites k t p = some ⟨cfg, true, []⟩) :
    JobDone conf k realm p t cfg (untilReturn (prepareSatellites conf k realm) (m₁ ++ (p, t) :: m₂) v).2 := by
  obtain ⟨hl1, hl2, hl3⟩ := List.nodup_append.mp hl
  rw [List.nodup_cons] at hl2
  have hreturn : ¬ (untilReturn (prepareSatellites conf k realm) m₁ v).1 = true := by
    rw [jobs_return m₁ v hl1]
    rintro ⟨job, hj, hn⟩
    exact hn (ho job hj)
  rw [untilReturn_append, if_neg hreturn]
  have hc1 : OneCfg k p cfg (untilReturn (prepareSatellites conf k realm) m₁ v).2 :=
    untilReturn_keeps m₁ (fun w w' job _ hr h => h.job hr) v hc
  have ht1 : (untilReturn (prepareSatellites conf k realm) m₁ v).2.toSatellites k t p = some ⟨cfg, true, []⟩ := by
    rw [jobs_table (Or.inr fun hm => hl3 _ hm _ List.mem_cons_self rfl), ht]
  generalize (untilReturn (prepareSatellites conf k realm) m₁ v).2 = v₁ at hc1 ht1
  have hopen : OpenJob v₁ k (p, t) := ⟨_, ht1, rfl⟩
  obtain ⟨x, r, hx, hr, hg⟩ := prepareSatellites_open conf realm hopen
  have hxe : x = ⟨cfg, true, []⟩ := Option.some.inj (hx.symm.trans ht1)
  subst hxe
  unfold untilReturn
  rw [hr]
  refine (untilReturn_keeps (I := fun w => OneCfg k p cfg w ∧ JobDone conf k realm p t cfg w) m₂ (fun w w' job hj hr h => ?_) r
    ⟨hc1.job hr, hg.table, hg.given⟩).2
  exact ⟨h.1.job hr, h.2.job h.1 (fun e => hl2.1 (e ▸ hj)) hr⟩

/-! ## The turn of a realm -/

structure AtTurn (conf : Conf) (w : World) (realms : List (Realm × Nat)) (needs : Nat → Bool) (v : World) : Prop where
  part : ∀ e ∈ realms, ∀ p ∈ e.1.parts, v.part p = w.part p
  table : ∀ e ∈ realms, ∀ p ∈ e.1.parts, ∀ t, v.toSatellites e.2 t p = w.toSatellites e.2 t p
  needs : ∀ s ∈ conf.schedulers, (v.link s).needConf = needs s

theorem schedulerLinks_nodup (conf : Conf) (realm : Realm) : (realm.schedulerLinks conf).Nodup := by
  have hn := (List.nodup_append.mp (List.nodup_append.mp conf.nodup').2.1).1
  have hm : (masterThenSpare conf conf.schedulers).Nodup := by
    refine (List.Perm.nodup_iff ?_).mpr hn
    unfold masterThenSpare
    refine List.perm_append_comm.trans ?_
    exact List.filter_append_perm conf.spare conf.schedulers
  unfold Realm.schedulerLinks potentialLinks
  simp only
  split
  · exact hm.filter _
  · exact hm.filter _

theorem satelliteJobs_append (a b : List Nat) : satelliteJobs (a ++ b) = satelliteJobs a ++ satelliteJobs b := List.flatMap_append

theorem satelliteJobs_nodup : ∀ {l : List Nat}, l.Nodup → (satelliteJobs l).Nodup
  | [], _ => List.nodup_nil
  | p :: l, h => by
    rw [List.nodup_cons] at h
    refine List.nodup_append.mpr ⟨?_, satelliteJobs_nodup h.2, ?_⟩
    · simp [SatType.all]
    · rintro ⟨q, t⟩ hq job hjob rfl
      obtain ⟨u, -, hu⟩ := List.mem_map.mp hq
      have hp : q = p := (Prod.mk.inj hu).1.symm
      exact h.1 (hp ▸ mem_satelliteJobs.mp hjob)

variable {w v : World} {needs : Nat → Bool}

theorem AtTurn.partsToDispatch (h : AtTurn conf w ((realm, k) :: realms) needs v) :
    partsToDispatch realm v = partsToDispatch realm w :=
  List.filter_congr fun p hp => by rw [h.part _ List.mem_cons_self p hp]

theorem AtTurn.available (h : AtTurn conf w ((realm, k) :: realms) needs v) :
    v.needing (realm.schedulerLinks conf).reverse = available conf realm needs :=
  List.filter_congr fun s hs => h.needs s (schedulerLinks_subset (List.mem_reverse.mp hs))

theorem AtTurn.assigned (h : AtTurn conf w ((realm, k) :: realms) needs v) :
    AssignedAll env k (Dispatching.partsToDispatch realm w) (realm.schedulerLinks conf).reverse v (assignParts conf env k realm v) := by
  unfold assignParts
  rw [h.partsToDispatch]
  exact assignAll_spec _ _ v (realm.nodup.filter _) (List.nodup_reverse.mpr (schedulerLinks_nodup conf realm))

theorem mem_partsToDispatch : p ∈ partsToDispatch realm w ↔ p ∈ realm.parts ∧ (w.part p).isAssigned = false := by
  unfold partsToDispatch
  rw [List.mem_filter, Bool.not_eq_true']

theorem stale_iff : Stale w k p ↔ (w.part p).isAssigned = true ∧ ∃ t, ¬ OpenJob w k (p, t) := by
  refine and_congr_right fun _ => exists_congr fun t => ⟨fun h ⟨x, hx, hn⟩ => ?_, fun h x hx => ?_⟩
  · rw [h x hx] at hn
    cases hn
  · cases hn : x.needDispatch with
    | false => rfl
    | true => exact absurd ⟨x, hx, hn⟩ h

theorem AtTurn.open_iff (h : AtTurn conf w ((realm, k) :: realms) needs v)
    (he : HasEnough conf w realm needs) (hp : p ∈ realm.parts) :
    (∃ t, ¬ OpenJob (assignParts conf env k realm v) k (p, t)) ↔ Stale w k p := by
  have ha : AssignedAll env k _ _ v _ := h.assigned
  rw [stale_iff]
  by_cases hu : p ∈ Dispatching.partsToDispatch realm w
  · have hun := (mem_partsToDispatch.mp hu).2
    unfold HasEnough at he
    rw [← h.available] at he
    obtain ⟨s, -, -, -, ht⟩ := ha.enough he p hu
    refine ⟨fun ⟨t, hn⟩ => absurd ⟨_, ht t, rfl⟩ hn, fun h1 => ?_⟩
    rw [hun] at h1
    cases h1.1
  · have hassigned : (w.part p).isAssigned = true := by
      cases hb : (w.part p).isAssigned with
      | true => rfl
      | false => exact absurd (mem_partsToDispatch.mpr ⟨hp, hb⟩) hu
    have hsame : ∀ t, OpenJob (assignParts conf env k realm v) k (p, t) ↔ OpenJob w k (p, t) := by
      intro t
      unfold OpenJob
      rw [ha.otherTables k t p (Or.inr hu), h.table _ List.mem_cons_self p hp]
    exact ⟨fun ⟨t, hn⟩ => ⟨hassigned, t, fun ho => hn ((hsame t).mpr ho)⟩,
      fun ⟨_, t, hn⟩ => ⟨t, fun ho => hn ((hsame t).mp ho)⟩⟩

theorem prepareRealm_stops (h : AtTurn conf w ((realm, k) :: realms) needs v) :
    (prepareRealm conf env k realm v).1 = true ↔ StopsAt conf w k realm needs := by
  have ha : AssignedAll env k _ _ v _ := h.assigned
  unfold prepareRealm
  rw [h.partsToDispatch]
  by_cases hu : Dispatching.partsToDispatch realm w = []
  · rw [if_pos hu]
    exact iff_of_false (by simp) fun hs => hs.1 hu
  rw [if_neg hu]
  by_cases hl : realm.schedulerLinks conf = []
  · rw [if_pos hl]
    exact iff_of_false (by simp) fun hs => hs.2.1 hl
  rw [if_neg hl, jobs_return _ _ (satelliteJobs_nodup realm.nodup)]
  by_cases he : HasEnough conf w realm needs
  · refine ⟨fun ⟨job, hj, hn⟩ => ⟨hu, hl, Or.inr ⟨job.1, mem_satelliteJobs.mp hj, ?_⟩⟩, fun ⟨_, _, hs⟩ => ?_⟩
    · exact (h.open_iff he (mem_satelliteJobs.mp hj)).mp ⟨job.2, hn⟩
    · obtain ⟨p, hp, hst⟩ := hs.resolve_left fun hn => hn he
      obtain ⟨t, hn⟩ := (h.open_iff he hp).mpr hst
      exact ⟨(p, t), mem_satelliteJobs.mpr hp, hn⟩
  · refine ⟨fun _ => ⟨hu, hl, Or.inl he⟩, fun _ => ?_⟩
    unfold HasEnough at he
    rw [← h.available, Nat.not_le] at he
    obtain ⟨p, hp, ht⟩ := ha.missing he
    refine ⟨(p, .poller), mem_satelliteJobs.mpr (mem_partsToDispatch.mp hp).1, fun ⟨x, hx, hn⟩ => ?_⟩
    rw [ht .poller] at hx
    cases hx
    cases hn

theorem jobs_rest (conf : Conf) (k : Nat) (realm : Realm) (l : List (Nat × SatType)) (r : World) :
    (untilReturn (prepareSatellites conf k realm) l r).2.part = r.part ∧
    ∀ s ∈ conf.schedulers, (untilReturn (prepareSatellites conf k realm) l r).2.link s = r.link s := by
  refine untilReturn_keeps (I := fun v => v.part = r.part ∧ ∀ s ∈ conf.schedulers, v.link s = r.link s) l
    (fun v v' job _ hr hv => ?_) r ⟨rfl, fun _ _ => rfl⟩
  by_cases ho : OpenJob v k job
  · obtain ⟨x, r, -, hr', hg⟩ := prepareSatellites_open conf realm ho
    rw [hr] at hr'
    cases hr'
    refine ⟨hg.part.trans hv.1, fun s hs => ?_⟩
    rw [hg.otherLinks s fun hm => not_satellite hs (mem_potentialLinks (List.mem_filter.mp hm).1)]
    exact hv.2 s hs
  · rw [prepareSatellites_closed ho] at hr
    cases hr

theorem prepareRealm_needs (h : AtTurn conf w ((realm, k) :: realms) needs v) :
    ∀ s ∈ conf.schedulers, ((prepareRealm conf env k realm v).2.link s).needConf = leftOver conf w realm needs s := by
  intro s hs
  have ha : AssignedAll env k _ _ v _ := h.assigned
  unfold prepareRealm leftOver
  rw [h.partsToDispatch]
  split
  · rename_i hu
    rw [hu, h.needs s hs]
    simp
  split
  · rename_i hl
    unfold Dispatching.available
    rw [hl, h.needs s hs]
    simp
  · rw [(jobs_rest _ _ _ _ _).2 s hs, ha.needConf, h.available, h.needs s hs]

def Untouched (w : World) (realms : List (Realm × Nat)) (v : World) : Prop :=
  ∀ e ∈ realms, ∀ p ∈ e.1.parts, v.part p = w.part p ∧ ∀ t, v.toSatellites e.2 t p = w.toSatellites e.2 t p

def Apart (e e' : Realm × Nat) : Prop := ∀ p ∈ e.1.parts, p ∉ e'.1.parts

theorem untouched_kept {others : List (Realm × Nat)} (h : ∀ e ∈ realms, ∀ e' ∈ others, Apart e e') :
    KeptByTurns conf env realms (Untouched w others) := by
  have hne : ∀ realm k p e q, (realm, k) ∈ realms → p ∈ realm.parts → e ∈ others → q ∈ e.1.parts → q ≠ p := by
    rintro realm k p e q hk hp he hq rfl
    exact h _ hk e he q hp hq
  refine ⟨fun realm k p s v hk hp _ _ _ hv e he q hq => ?_, fun realm k p v table hk hp ht hv e he q hq => ?_,
    fun realm k p t x i v hk hp _ _ hv => hv⟩
  · have hqp := hne realm k p e q hk hp he hq
    rw [assignTo_part k p s v hqp]
    refine ⟨(hv e he q hq).1, fun t => ?_⟩
    rw [← (hv e he q hq).2 t]
    exact if_neg fun e => hqp e.2
  · refine ⟨(hv e he q hq).1, fun t => ?_⟩
    rw [← (hv e he q hq).2 t]
    exact ht _ _ _ (Or.inr (hne realm k p e q hk hp he hq))

theorem AtTurn.next (h : AtTurn conf w ((realm, k) :: realms) needs v)
    (hd : ∀ e ∈ realms, Apart (realm, k) e) :
    AtTurn conf w realms (leftOver conf w realm needs) (prepareRealm conf env k realm v).2 := by
  have hturn : KeptByTurns conf env [(realm, k)] (Untouched w realms) :=
    untouched_kept fun e he e' he' => by rw [List.mem_singleton.mp he]; exact hd e' he'
  have hkept := prepareRealm_keeps hturn List.mem_cons_self
    fun e he p hp => ⟨h.part e (List.mem_cons_of_mem _ he) p hp, h.table e (List.mem_cons_of_mem _ he) p hp⟩
  exact ⟨fun e he p hp => (hkept e he p hp).1, fun e he p hp => (hkept e he p hp).2, prepareRealm_needs h⟩

theorem prepareRealms_append : ∀ (l l' : List (Realm × Nat)) (v : World), prepareRealms conf env (l ++ l') v =
    if (prepareRealms conf env l v).1 then prepareRealms conf env l v
    else prepareRealms conf env l' (prepareRealms conf env l v).2
  | [], l', v => rfl
  | (realm, k) :: l, l', v => by
    cases hr : prepareRealm conf env k realm v with
    | mk stops r =>
      cases stops with
      | true => simp [prepareRealms, hr]
      | false =>
        simp only [List.cons_append, prepareRealms, hr]
        exact prepareRealms_append l l' r

theorem prepareRealms_stops : ∀ (l l' : List (Realm × Nat)) (v : World) (needs : Nat → Bool), (l ++ l').Pairwise Apart →
    AtTurn conf w (l ++ l') needs v → ((prepareRealms conf env l v).1 = true ↔ StopsIn conf w l needs) ∧
      ((prepareRealms conf env l v).1 = false → AtTurn conf w l' (needsAfter conf w l needs) (prepareRealms conf env l v).2)
  | [], l', v, needs, _, h => ⟨iff_of_false (by simp [prepareRealms]) id, fun _ => h⟩
  | (realm, k) :: l, l', v, needs, hd, h => by
    rw [List.cons_append, List.pairwise_cons] at hd
    have hstop : (prepareRealm conf env k realm v).1 = true ↔ StopsAt conf w k realm needs := prepareRealm_stops h
    have hnext : AtTurn conf w (l ++ l') (leftOver conf w realm needs) (prepareRealm conf env k realm v).2 := h.next hd.1
    unfold prepareRealms StopsIn needsAfter
    cases hr : prepareRealm conf env k realm v with
    | mk stops r =>
      rw [hr] at hstop hnext
      cases stops with
      | true => exact ⟨iff_of_true rfl (Or.inl (hstop.mp rfl)), fun e => nomatch e⟩
      | false =>
        obtain ⟨h1, h2⟩ := prepareRealms_stops l l' r _ hd.2 hnext
        exact ⟨h1.trans (or_iff_right fun hs => absurd (hstop.mpr hs) (by simp)).symm, h2⟩

theorem HasEnough.links (h : HasEnough conf w realm needs) (hp : p ∈ partsToDispatch realm w) :
    realm.schedulerLinks conf ≠ [] := by
  intro hl
  unfold HasEnough available at h
  rw [hl] at h
  exact absurd (List.length_pos_of_mem hp) (by simpa using h)

theorem jobs_nobody {l : List (Nat × SatType)}
    (hn : ∀ t, realm.activeLinks conf t = []) (hr : ∀ t, ∃ b, r.toSatellites k t p = some ⟨cfg, b, []⟩) :
    ∀ t, ∃ b, (untilReturn (prepareSatellites conf k realm) l r).2.toSatellites k t p = some ⟨cfg, b, []⟩ := by
  refine untilReturn_keeps (I := fun v => ∀ t, ∃ b, v.toSatellites k t p = some ⟨cfg, b, []⟩) l (fun v v' job _ hr hv t => ?_) r hr
  by_cases ho : OpenJob v k job
  · obtain ⟨x, r, hx, hr', hg⟩ := prepareSatellites_open conf realm ho
    rw [hr] at hr'
    cases hr'
    by_cases he : (k, t, p) = (k, job.2, job.1)
    · simp only [Prod.mk.injEq, true_and] at he
      obtain ⟨rfl, rfl⟩ := he
      obtain ⟨b, hb⟩ := hv job.2
      rw [hx] at hb
      cases hb
      obtain ⟨b', hb'⟩ := hg.table
      refine ⟨b', hb'.trans ?_⟩
      have := hn job.2
      unfold Realm.activeLinks at this
      rw [this]
      rfl
    · rw [hg.otherTables k t p he]
      exact hv t
  · rw [prepareSatellites_closed ho] at hr
    cases hr

theorem jobs_served {cfg : SatSchedulerCfg} (hp : p ∈ realm.parts)
    (hstale : ∀ q ∈ realm.parts, (∃ t, ¬ OpenJob r k (q, t)) ↔ Stale w k q) (hu : (w.part p).isAssigned = false)
    (hr : ∀ t, r.toSatellites k t p = some ⟨some cfg, true, []⟩) (ho : ¬ Obstructed conf w k realm p) (t : SatType) :
    JobDone conf k realm p t (some cfg) (untilReturn (prepareSatellites conf k realm) (satelliteJobs realm.parts) r).2 := by
  have hc : OneCfg k p (some cfg) r := by
    intro t x hx
    rw [hr t] at hx
    cases hx
    rfl
  by_cases hn : ∀ t, realm.activeLinks conf t = []
  · have ht : ∀ t, ∃ b, (untilReturn (prepareSatellites conf k realm) (satelliteJobs realm.parts) r).2.toSatellites k t p =
        some ⟨some cfg, b, []⟩ := jobs_nobody hn fun t => ⟨true, hr t⟩
    refine ⟨?_, fun i hi => ?_⟩
    · rw [hn t]
      exact ht t
    · rw [hn t] at hi
      cases hi
  · obtain ⟨earlier, later, hparts⟩ := List.append_of_mem hp
    have hopen : ∀ q ∈ earlier ++ [p], ∀ t, OpenJob r k (q, t) := by
      intro q hq t
      refine Classical.byContradiction fun hcl => ?_
      have hqp : q ∈ realm.parts := by
        rw [hparts, List.append_cons]
        exact List.mem_append_left _ hq
      have hs := (hstale q hqp).mp ⟨t, hcl⟩
      rcases List.mem_append.mp hq with hq | hq
      · obtain ⟨a, b, hab⟩ := List.append_of_mem hq
        refine ho ⟨⟨a, q, b ++ p :: later, ?_, List.mem_append_right _ List.mem_cons_self, hs⟩, not_forall.mp hn⟩
        rw [hparts, hab, List.append_assoc, List.cons_append]
      · rw [List.mem_singleton.mp hq] at hs
        exact absurd (hu.symm.trans hs.1) (by decide)
    have hjobs : satelliteJobs realm.parts = satelliteJobs (earlier ++ [p]) ++ satelliteJobs later := by
      rw [← satelliteJobs_append, hparts, List.append_cons]
    have hmem : (p, t) ∈ satelliteJobs (earlier ++ [p]) := mem_satelliteJobs.mpr (List.mem_append_right _ List.mem_cons_self)
    obtain ⟨m₁, m₂, hm⟩ := List.append_of_mem hmem
    rw [hm, List.append_assoc, List.cons_append] at hjobs
    have hnd := satelliteJobs_nodup realm.nodup
    rw [hjobs] at hnd ⊢
    refine jobs_done hnd (fun job hj => ?_) hc (hr t)
    refine hopen job.1 (mem_satelliteJobs.mp ?_) job.2
    rw [hm]
    exact List.mem_append_left _ hj

theorem jobs_obstructed {cfg : SatSchedulerCfg}
    (hstale : ∀ q ∈ realm.parts, (∃ t, ¬ OpenJob r k (q, t)) ↔ Stale w k q)
    (hr : ∀ t, r.toSatellites k t p = some ⟨some cfg, true, []⟩) (ho : Obstructed conf w k realm p) :
    (untilReturn (prepareSatellites conf k realm) (satelliteJobs realm.parts) r).1 = true ∧
      ∃ t, realm.activeLinks conf t ≠ [] ∧
        (untilReturn (prepareSatellites conf k realm) (satelliteJobs realm.parts) r).2.toSatellites k t p = some ⟨some cfg, true, []⟩ := by
  obtain ⟨⟨earlier, q, later, hparts, hp, hs⟩, t, ht⟩ := ho
  have hnd := realm.nodup
  have hjobs : satelliteJobs realm.parts = satelliteJobs (earlier ++ [q]) ++ satelliteJobs later := by
    rw [← satelliteJobs_append, hparts, List.append_cons]
  have hnd' : (earlier ++ [q] ++ later).Nodup := by rw [← List.append_cons, ← hparts]; exact hnd
  obtain ⟨hn1, -, hn3⟩ := List.nodup_append.mp hnd'
  have hreturn : (untilReturn (prepareSatellites conf k realm) (satelliteJobs (earlier ++ [q])) r).1 = true := by
    rw [jobs_return _ _ (satelliteJobs_nodup hn1)]
    have hq : q ∈ realm.parts := by rw [hparts]; exact List.mem_append_right _ List.mem_cons_self
    obtain ⟨u, hu⟩ := (hstale q hq).mpr hs
    exact ⟨(q, u), mem_satelliteJobs.mpr (List.mem_append_right _ List.mem_cons_self), hu⟩
  rw [hjobs, untilReturn_append, if_pos hreturn]
  refine ⟨hreturn, t, ht, ?_⟩
  rw [jobs_table (Or.inr fun hm => hn3 p (mem_satelliteJobs.mp hm) p hp rfl)]
  exact hr t

theorem prepareRealm_served (h : AtTurn conf w ((realm, k) :: realms) needs v)
    (he : HasEnough conf w realm needs) (hp : p ∈ partsToDispatch realm w) :
    (¬ Obstructed conf w k realm p → Prepared conf env k realm p (prepareRealm conf env k realm v).2) ∧
    (Obstructed conf w k realm p → (prepareRealm conf env k realm v).1 = true ∧
      ¬ Prepared conf env k realm p (prepareRealm conf env k realm v).2) := by
  have ha : AssignedAll env k _ _ v _ := h.assigned
  obtain ⟨hpr, hun⟩ := mem_partsToDispatch.mp hp
  have henough := he
  unfold HasEnough at he
  rw [← h.available] at he
  obtain ⟨s, hs, hpart, hlink, ht⟩ := ha.enough he p hp
  have hstale : ∀ q ∈ realm.parts, (∃ t, ¬ OpenJob (assignParts conf env k realm v) k (q, t)) ↔ Stale w k q :=
    fun q hq => h.open_iff henough hq
  have hne : Dispatching.partsToDispatch realm w ≠ [] := List.ne_nil_of_mem hp
  have hrest := jobs_rest conf k realm (satelliteJobs realm.parts) (assignParts conf env k realm v)
  have hsl := List.mem_reverse.mp hs
  unfold prepareRealm
  rw [h.partsToDispatch, if_neg hne, if_neg (henough.links hp)]
  refine ⟨fun ho => ⟨s, ?_⟩, fun ho => ?_⟩
  · have hdone := jobs_served hpr hstale hun ht ho
    refine ⟨hsl, ?_, ?_, fun t => (hdone t).1, fun t => (hdone t).2⟩
    · rw [hrest.1]
      exact hpart
    · rw [hrest.2 s (schedulerLinks_subset hsl)]
      exact hlink
  · obtain ⟨h1, t, htn, h2⟩ := jobs_obstructed hstale ht ho
    refine ⟨h1, fun ⟨s', hs'⟩ => ?_⟩
    obtain ⟨b, hb⟩ := hs'.satellites t
    rw [h2] at hb
    exact htn (congrArg ToSatellites.managedBy (Option.some.inj hb)).symm

/-! ## The whole preparation -/

theorem PreparedWith.modifyLink {i : Nat} {f : SatelliteLink → SatelliteLink} (h : PreparedWith conf env k realm p s v)
    (hs : i = s → (f (v.link i)).cfgToManage = some (.part p) ∧ (f (v.link i)).needConf = false ∧
      (f (v.link i)).configurationSent = false)
    (hg : ∀ t, i ∈ realm.activeLinks conf t →
      (f (v.link i)).schedulers.get? p = (v.link i).schedulers.get? p ∧ (f (v.link i)).configurationSent = false) :
    PreparedWith conf env k realm p s (v.modifyLink i f) := by
  refine ⟨h.scheduler, h.part, ?_, h.satellites, fun t j hj => ?_⟩
  · by_cases hne : s = i
    · subst hne
      simpa [World.modifyLink] using hs rfl
    · simpa [World.modifyLink, Function.update_of_ne hne] using h.link
  · by_cases hne : j = i
    · subst hne
      simp only [World.modifyLink, Function.update_self]
      rw [(hg t hj).1]
      exact ⟨(h.given t j hj).1, (hg t hj).2⟩
    · simpa [World.modifyLink, Function.update_of_ne hne] using h.given t j hj

theorem activeLinks_subset {i : Nat} (h : i ∈ realm.activeLinks conf t) : i ∈ conf.allSatellites :=
  mem_potentialLinks (List.mem_filter.mp h).1

theorem preparedWith_kept (hp : p ∈ realm.parts)
    (hd : ∀ e ∈ realms, Apart (realm, k) e) : KeptByTurns conf env realms (PreparedWith conf env k realm p s) := by
  have hne : ∀ {realm' : Realm} {k' q : Nat}, (realm', k') ∈ realms → q ∈ realm'.parts → p ≠ q := by
    rintro realm' k' q hk hq rfl
    exact hd _ hk p hp hq
  refine ⟨fun realm' k' q s' v hk hq _ hs' hn h => ?_, fun realm' k' q v table hk hq ht h => ?_,
    fun realm' k' q t x i v hk hq _ hi h => ?_⟩
  · have hpq := hne hk hq
    have hbase : PreparedWith conf env k realm p s ((v.modifyPart q fun _ => ⟨true, some s', env.flavor q⟩).setAllToSatellites k' q
        ⟨some ⟨s', q, env.flavor q⟩, true, []⟩) := by
      refine ⟨h.scheduler, ?_, h.link, fun t => ?_, h.given⟩
      · rw [← h.part]
        exact Function.update_of_ne hpq _ _
      · obtain ⟨b, hb⟩ := h.satellites t
        exact ⟨b, (if_neg fun e => hpq e.2).trans hb⟩
    unfold assignTo
    refine hbase.modifyLink (fun e => ?_) fun t hi => absurd (activeLinks_subset hi) (not_satellite (schedulerLinks_subset hs'))
    rw [e, h.link.2.1] at hn
    cases hn
  · refine ⟨h.scheduler, h.part, h.link, fun t => ?_, h.given⟩
    obtain ⟨b, hb⟩ := h.satellites t
    exact ⟨b, (ht k t p (Or.inr (hne hk hq))).trans hb⟩
  · refine h.modifyLink (fun e => ?_) fun t _ => ⟨Dict.get?_set_ne (hne hk hq), rfl⟩
    rw [e] at hi
    exact absurd hi (not_satellite (schedulerLinks_subset h.scheduler))

theorem closePreparation_prepared (h : PreparedWith conf env k realm p s v) :
    PreparedWith conf env k realm p s (closePreparation conf v) := by
  unfold closePreparation
  refine List.foldlRecOn (motive := PreparedWith conf env k realm p s) _ _ h fun v hv i _ => ?_
  split
  · exact hv.modifyLink (fun e => e ▸ ⟨hv.link.1, rfl, hv.link.2.2⟩) fun t hi => ⟨rfl, (hv.given t i hi).2⟩
  · exact hv

theorem atTurn_start (conf : Conf) (w : World) : AtTurn conf w conf.realms.zipIdx (fun s => (w.link s).needConf)
    ((masterThenSpare conf conf.arbiters).foldl (prepareArbiter conf) { w with newToDispatch := true, firstDispatchDone := false }) := by
  have hfold : ∀ v : World, v = (masterThenSpare conf conf.arbiters).foldl (prepareArbiter conf)
      { w with newToDispatch := true, firstDispatchDone := false } →
      v.part = w.part ∧ v.toSatellites = w.toSatellites ∧ ∀ s ∈ conf.schedulers, v.link s = w.link s := by
    rintro _ rfl
    refine List.foldlRecOn (motive := fun v : World => v.part = w.part ∧ v.toSatellites = w.toSatellites ∧
      ∀ s ∈ conf.schedulers, v.link s = w.link s) _ _ ⟨rfl, rfl, fun _ _ => rfl⟩ fun v hv i hi => ?_
    unfold prepareArbiter
    split
    · exact hv
    · refine ⟨hv.1, hv.2.1, fun s hs => ?_⟩
      rw [← hv.2.2 s hs]
      refine Function.update_of_ne (fun e => ?_) _ _
      subst e
      exact mem_of_not_arbiter (List.mem_append_left _ hs) (mem_masterThenSpare.mp hi)
  obtain ⟨h1, h2, h3⟩ := hfold _ rfl
  exact ⟨fun e _ p _ => by rw [h1], fun e _ p _ t => by rw [h2], fun s hs => by rw [h3 s hs]⟩

theorem realms_apart (conf : Conf) : conf.realms.zipIdx.Pairwise Apart := by
  have h : (conf.realms.zipIdx.map Prod.fst).Pairwise fun realm realm' => ∀ p ∈ realm.parts, p ∉ realm'.parts := by
    rw [List.zipIdx_map_fst]
    exact conf.disjoint
  exact (List.pairwise_map.mp h).imp fun h => h

theorem prepared_served {before after : List (Realm × Nat)} (hr : conf.realms.zipIdx = before ++ (realm, k) :: after)
    (he : HasEnough conf w realm (needsAfter conf w before fun s => (w.link s).needConf)) (hp : p ∈ partsToDispatch realm w) :
    Prepared conf env k realm p (prepared conf env w) ↔
      ¬ StopsIn conf w before (fun s => (w.link s).needConf) ∧ ¬ Obstructed conf w k realm p := by
  have hstart := atTurn_start conf w
  have hapart := realms_apart conf
  have hpr := (mem_partsToDispatch.mp hp).1
  rw [hr] at hstart hapart
  unfold prepared
  rw [hr]
  generalize (masterThenSpare conf conf.arbiters).foldl (prepareArbiter conf)
    { w with newToDispatch := true, firstDispatchDone := false } = v at hstart
  obtain ⟨hstop, hturn⟩ := prepareRealms_stops before _ v _ hapart hstart
  have hcut := List.pairwise_append.mp hapart
  simp only
  rw [prepareRealms_append]
  cases hb : prepareRealms conf env before v with
  | mk stops r =>
    rw [hb] at hstop hturn
    cases stops with
    | true =>
      refine iff_of_false (fun ⟨s, hs⟩ => ?_) fun h => h.1 (hstop.mp rfl)
      have hkept : KeptByTurns conf env before (Untouched w ((realm, k) :: after)) :=
        untouched_kept fun e he e' he' => hcut.2.2 e he e' he'
      have hun := prepareRealms_keeps hkept before (fun _ h => h) v fun e he p hp =>
        ⟨hstart.part e (List.mem_append_right _ he) p hp, hstart.table e (List.mem_append_right _ he) p hp⟩
      rw [hb] at hun
      have hpart := hs.part
      simp only [if_true] at hpart
      rw [(hun _ List.mem_cons_self p hpr).1] at hpart
      have hfalse := (mem_partsToDispatch.mp hp).2
      rw [hpart] at hfalse
      cases hfalse
    | false =>
      have hnot : ¬ StopsIn conf w before fun s => (w.link s).needConf := fun h => nomatch hstop.mpr h
      obtain ⟨hgood, hbad⟩ := prepareRealm_served (hturn rfl) he hp
      simp only [Bool.false_eq_true, if_false, prepareRealms]
      cases hk : prepareRealm conf env k realm r with
      | mk stops r' =>
        rw [hk] at hgood hbad
        cases stops with
        | true =>
          by_cases ho : Obstructed conf w k realm p
          · exact iff_of_false (hbad ho).2 fun h => h.2 ho
          · exact iff_of_true (hgood ho) ⟨hnot, ho⟩
        | false =>
          have ho : ¬ Obstructed conf w k realm p := fun ho => nomatch (hbad ho).1
          obtain ⟨s, hs⟩ := hgood ho
          refine iff_of_true ⟨s, ?_⟩ ⟨hnot, ho⟩
          have hd : ∀ e ∈ after, Apart (realm, k) e := (List.pairwise_cons.mp hcut.2.1).1
          have hafter := prepareRealms_keeps (preparedWith_kept hpr hd) after (fun _ h => h) r' hs
          dsimp only
          cases ha : prepareRealms conf env after r' with
          | mk stops w' =>
            rw [ha] at hafter
            cases stops with
            | true => exact hafter
            | false => exact closePreparation_prepared hafter

/-- Each realm with enough schedulers left for it is served, whatever comes
before it, exactly when no realm before it makes the function return and none
of its parts waits behind a stale one. -/
theorem prepare_dispatch_serves_iff {w' : World} (h : prepareDispatch conf env w = .ok () w') :
    (∀ before realm k after, conf.realms.zipIdx = before ++ (realm, k) :: after →
      HasEnough conf w realm (needsAfter conf w before fun s => (w.link s).needConf) →
      ∀ p ∈ partsToDispatch realm w, Prepared conf env k realm p w') ↔
    ∀ before realm k after, conf.realms.zipIdx = before ++ (realm, k) :: after →
      HasEnough conf w realm (needsAfter conf w before fun s => (w.link s).needConf) →
      ∀ p ∈ partsToDispatch realm w,
        ¬ StopsIn conf w before (fun s => (w.link s).needConf) ∧ ¬ Obstructed conf w k realm p := by
  have hw' : w' = prepared conf env w := by
    unfold prepareDispatch at h
    rw [get_bind] at h
    cases hn : w.newToDispatch with
    | true =>
      rw [if_pos hn] at h
      cases h
    | false =>
      rw [if_neg (by rw [hn]; decide)] at h
      cases h
      rfl
  subst hw'
  refine forall_congr' fun before => forall_congr' fun realm => forall_congr' fun k => forall_congr' fun after =>
    forall_congr' fun hr => forall_congr' fun he => forall_congr' fun p => forall_congr' fun hp => prepared_served hr he hp

end

def threeRealms : Conf where
  arbiterLink := 0
  arbiters := [0]
  schedulers := [1, 2]
  reactionners := []
  pollers := [3]
  brokers := []
  receivers := []
  realms := [⟨[0], part0_nodup, [1], [], fun _ => [], fun _ => [3], fun _ => 1⟩,
    ⟨[1], part1_nodup, [], [1], fun _ => [], fun _ => [3], fun _ => 0⟩,
    ⟨[2], part2_nodup, [2], [], fun _ => [], fun _ => [3], fun _ => 0⟩]
  active := fun _ => true
  spare := fun _ => false
  maxCheckAttempts := fun _ => 3
  pollingInterval := fun _ => 5
  nodup := by decide
  disjoint := by decide

/-- The realm without a scheduler ends the preparation. -/
theorem last_realm_not_served : ¬ ∀ (conf : Conf) (env : Env) (w w' : World), prepareDispatch conf env w = .ok () w' →
    ∀ before realm k after, conf.realms.zipIdx = before ++ (realm, k) :: after →
      HasEnough conf w realm (needsAfter conf w before fun s => (w.link s).needConf) →
      ∀ p ∈ partsToDispatch realm w, Prepared conf env k realm p w' := by
  intro h
  obtain ⟨s, hs⟩ := h threeRealms (daemons []) connectedWorld (prepared threeRealms (daemons []) connectedWorld) rfl
    (threeRealms.realms.zipIdx.take 2) _ 2 [] rfl (by unfold HasEnough; decide) 2 (by decide)
  have hpart : _ = true := congrArg Part.isAssigned hs.part
  exact absurd hpart (by decide)

/-- A realm that is alone is served. -/
theorem prepare_dispatch_serves_oneScheduler :
    Prepared oneScheduler (daemons []) 0 (oneScheduler.realms.head (by decide)) 0 (prepared oneScheduler (daemons []) connectedWorld) := by
  have enough : HasEnough oneScheduler connectedWorld (oneScheduler.realms.head (by decide)) fun s => (connectedWorld.link s).needConf := by
    unfold HasEnough
    decide
  refine (prepare_dispatch_serves_iff rfl).mpr ?_ [] _ 0 [] rfl enough 0 (by decide)
  intro before realm k after hr _ p _
  cases before with
  | cons e l => cases l <;> simp [oneScheduler] at hr
  | nil =>
    refine ⟨id, ?_⟩
    rintro ⟨⟨earlier, q, later, hparts, hp, -⟩, -⟩
    simp only [oneScheduler, List.zipIdx_cons, List.zipIdx_nil, List.nil_append, List.cons.injEq, Prod.mk.injEq] at hr
    rw [← hr.1.1] at hparts
    cases earlier with
    | nil => cases (List.cons.inj hparts).2; cases hp
    | cons a l => exact absurd (congrArg List.length hparts) (by simp)

end Alignak.Dispatching
