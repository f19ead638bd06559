import Alignak.Broker
import Alignak.Loops
import Mathlib.Algebra.GroupWithZero.Nat

/-!
# The broks that a broker gets

Each brok that reaches the broker is collected by one turn, after those that
have come before it.
-/

namespace Alignak.Broker

structure Initial (w : World) : Prop where
  none : w.nextBrok = 0
  external : w.externalBroks = []
  internal : w.internalBroks = []
  arbiter : w.arbiterBroks = []
  fromQueues : w.fromQueues = []
  ended : w.ended = false
  put : ∀ m, w.put m = []
  handed : ∀ m, w.handed m = []
  collected : w.collected = []

section
variable {conf : Conf} {env : Env} {u v w : World} {b i k m : Nat} {l broks : List Nat}

/-! ## New broks -/

theorem newBroks_ids (data : List String) (instanceId : Option String) (w : World) :
    (w.newBroks data instanceId).1 = List.range' w.nextBrok data.length := by
  unfold World.newBroks
  rw [List.range'_eq_map_range]

theorem newBroks_brok_of_lt (data : List String) (instanceId : Option String) (h : b < w.nextBrok) :
    (w.newBroks data instanceId).2.brok b = w.brok b :=
  if_neg fun hb => Nat.not_le_of_lt h hb.1

theorem newBroks_toBeSent (data : List String) (instanceId : Option String) (h : w.nextBrok ≤ b)
    (hb : b < w.nextBrok + data.length) : ((w.newBroks data instanceId).2.brok b).toBeSent = none := by
  have hnew : (w.newBroks data instanceId).2.brok b = ⟨data.getD (b - w.nextBrok) "", instanceId, false, none⟩ :=
    if_pos ⟨h, hb⟩
  rw [hnew]

/-! ## Collection -/

structure Grown (w v : World) (k : Nat) : Prop where
  next : v.nextBrok = w.nextBrok + k
  external : v.externalBroks = w.externalBroks ++ List.range' w.nextBrok k
  internal : v.internalBroks = w.internalBroks
  arbiter : v.arbiterBroks = w.arbiterBroks
  put : v.put = w.put
  handed : v.handed = w.handed
  collected : v.collected = w.collected
  old : ∀ b < w.nextBrok, v.brok b = w.brok b
  fresh : ∀ b, w.nextBrok ≤ b → b < w.nextBrok + k → (v.brok b).toBeSent = none

theorem Grown.refl (w : World) : Grown w w 0 where
  next := rfl
  external := (List.append_nil _).symm
  internal := rfl
  arbiter := rfl
  put := rfl
  handed := rfl
  collected := rfl
  old _ _ := rfl
  fresh _ h hb := absurd h (Nat.not_le_of_lt hb)

theorem Grown.trans {k' : Nat} (h : Grown u w k) (h' : Grown w v k') : Grown u v (k + k') where
  next := by rw [h'.next, h.next, Nat.add_assoc]
  external := by
    rw [h'.external, h.external, h.next, List.append_assoc, List.range'_append_1]
  internal := h'.internal.trans h.internal
  arbiter := h'.arbiter.trans h.arbiter
  put := h'.put.trans h.put
  handed := h'.handed.trans h.handed
  collected := h'.collected.trans h.collected
  old b hb := (h'.old b (by rw [h.next]; omega)).trans (h.old b hb)
  fresh b h1 h2 := by
    by_cases hb : b < u.nextBrok + k
    · rw [h'.old b (by rw [h.next]; exact hb)]
      exact h.fresh b h1 hb
    · exact h'.fresh b (by rw [h.next]; omega) (by rw [h.next]; omega)

/-- How many broks a satellite answers with. -/
def Env.answered (env : Env) (i : Nat) : Nat :=
  match env.getBroks i with
  | .returned (some data) => data.length
  | _ => 0

def Conf.satellites (conf : Conf) : List (List Nat) := [conf.schedulers, conf.pollers, conf.reactionners, conf.receivers]

def Env.answers (conf : Conf) (env : Env) : Nat := (conf.satellites.map fun l => (l.map env.answered).sum).sum

theorem getBroksOf_grown (conf : Conf) (env : Env) (w : World) (i : Nat) : Grown w (getBroksOf conf env w i) (env.answered i) := by
  unfold getBroksOf Env.answered
  cases env.getBroks i with
  | linkError => exact Grown.refl w
  | returned value =>
    cases value with
    | none => exact Grown.refl w
    | some data =>
      refine ⟨rfl, ?_, rfl, rfl, rfl, rfl, rfl, fun b hb => newBroks_brok_of_lt data _ hb,
        fun b h1 h2 => newBroks_toBeSent data _ h1 h2⟩
      show w.externalBroks ++ (w.newBroks data (some (conf.instanceId i))).1 = _
      rw [newBroks_ids]

theorem foldl_grown {α : Type} {f : World → α → World} {g : α → Nat} (hf : ∀ w a, Grown w (f w a) (g a)) (l : List α) (w : World) :
    Grown w (l.foldl f w) (l.map g).sum := by
  induction l generalizing w with
  | nil => exact Grown.refl w
  | cons a l ih => exact (hf w a).trans (ih (f w a))

theorem getNewBroks_grown (conf : Conf) (env : Env) (w : World) : Grown w (getNewBroks conf env w) (env.answers conf) :=
  foldl_grown (fun w satellites => foldl_grown (fun w i => getBroksOf_grown conf env w i) satellites w) _ w

structure Collected (env : Env) (w v : World) (k : Nat) : Prop where
  next : v.nextBrok = w.nextBrok + k
  external : v.externalBroks = w.externalBroks ++ (w.internalBroks ++ w.arbiterBroks ++ List.range' w.nextBrok k)
  internal : v.internalBroks = []
  arbiter : v.arbiterBroks = []
  put : v.put = w.put
  handed : v.handed = w.handed
  collected : v.collected = w.collected ++
    [(w.internalBroks ++ w.arbiterBroks ++ List.range' w.nextBrok k, env.queueAccepts)]
  old : ∀ b < w.nextBrok, v.brok b = w.brok b
  fresh : ∀ b, w.nextBrok ≤ b → b < w.nextBrok + k → (v.brok b).toBeSent = none

theorem collect_spec (conf : Conf) (env : Env) (w : World) : Collected env w (collect conf env w) (env.answers conf) := by
  have h := getNewBroks_grown conf env (getArbiterBroks (getInternalBroks w))
  have hexternal : (getNewBroks conf env (getArbiterBroks (getInternalBroks w))).externalBroks =
      w.externalBroks ++ (w.internalBroks ++ w.arbiterBroks ++ List.range' w.nextBrok (env.answers conf)) := by
    rw [h.external]
    show w.externalBroks ++ w.internalBroks ++ w.arbiterBroks ++ _ = _
    rw [List.append_assoc, List.append_assoc, List.append_assoc]
    rfl
  refine ⟨h.next, hexternal, h.internal, h.arbiter, h.put, h.handed, ?_, h.old, h.fresh⟩
  unfold collect
  dsimp only
  rw [hexternal, List.drop_left]

/-! ## The external modules -/

theorem foldl_putTo (env : Env) (broks : List Nat) : ∀ (ms : List Nat) (w : World), ms.Nodup → ∃ put toRestart,
    ms.foldl (putTo env broks) w = { w with put := put, toRestart := toRestart } ∧
    ∀ m, put m = if m ∈ ms ∧ env.queueAccepts m = true then w.put m ++ [broks] else w.put m
  | [], w, _ => ⟨w.put, w.toRestart, rfl, fun _ => rfl⟩
  | a :: ms, w, hd => by
    rw [List.nodup_cons] at hd
    obtain ⟨put, toRestart, he, hput⟩ := foldl_putTo env broks ms (putTo env broks w a) hd.2
    have hhead : ∃ p r, putTo env broks w a = { w with put := p, toRestart := r } ∧
        ∀ m, p m = if m = a ∧ env.queueAccepts m = true then w.put m ++ [broks] else w.put m := by
      unfold putTo
      split
      · rename_i hq
        refine ⟨_, w.toRestart, rfl, fun m => ?_⟩
        by_cases hm : m = a
        · subst hm
          rw [Function.update_self, if_pos ⟨rfl, hq⟩]
        · rw [Function.update_of_ne hm, if_neg fun h => hm h.1]
      · rename_i hq
        refine ⟨w.put, _, rfl, fun m => (if_neg fun h => hq ?_).symm⟩
        rw [← h.1]
        exact h.2
    obtain ⟨p, r, ha, hp⟩ := hhead
    refine ⟨put, toRestart, ?_, fun m => ?_⟩
    · rw [List.foldl_cons, he, ha]
    · rw [hput, ha]
      show (if m ∈ ms ∧ env.queueAccepts m = true then p m ++ [broks] else p m) = _
      rw [hp]
      by_cases hm : m = a
      · subst hm
        simp only [hd.1, false_and, if_false, List.mem_cons, true_or, true_and]
      · simp only [hm, false_and, if_false, List.mem_cons, false_or]

theorem modifyBroks_spec {f : Brok → Brok} (hf : ∀ x, f (f x) = f x) (broks : List Nat) (w : World) : ∃ brok,
    broks.foldl (fun w b => w.modifyBrok b f) w = { w with brok := brok } ∧
    ∀ b, brok b = if b ∈ broks then f (w.brok b) else w.brok b := by
  induction broks generalizing w with
  | nil => exact ⟨w.brok, rfl, fun _ => rfl⟩
  | cons a broks ih =>
    obtain ⟨brok, he, hbrok⟩ := ih (w.modifyBrok a f)
    refine ⟨brok, ?_, fun b => ?_⟩
    · rw [List.foldl_cons, he]
      rfl
    · rw [hbrok]
      by_cases hb : b = a
      · subst hb
        have hself : (w.modifyBrok b f).brok b = f (w.brok b) := Function.update_self ..
        rw [hself, hf, ite_self, if_pos List.mem_cons_self]
      · have hother : (w.modifyBrok a f).brok b = w.brok b := Function.update_of_ne hb ..
        rw [hother]
        simp only [List.mem_cons, hb, false_or]

structure Sent (conf : Conf) (env : Env) (w v : World) : Prop where
  next : v.nextBrok = w.nextBrok
  external : v.externalBroks = w.externalBroks
  internal : v.internalBroks = w.internalBroks
  arbiter : v.arbiterBroks = w.arbiterBroks
  handed : v.handed = w.handed
  collected : v.collected = w.collected
  put : ∀ m ∈ conf.externalModules,
    v.put m = if env.queueAccepts m = true then w.put m ++ [w.broksToSend] else w.put m
  flag : ∀ b ∈ v.externalBroks, (v.brok b).toBeSent = some false
  old : ∀ b, b ∉ w.externalBroks → v.brok b = w.brok b

theorem sendBroks_spec (conf : Conf) (env : Env) (w : World) (hf : ∀ b ∈ w.externalBroks,
    (w.brok b).toBeSent = none ∨ (w.brok b).toBeSent = some false) : Sent conf env w (sendBroks conf env w) := by
  obtain ⟨put, toRestart, he, hput⟩ := foldl_putTo env w.broksToSend conf.externalModules w conf.external_nodup
  obtain ⟨brok, he', hbrok⟩ := modifyBroks_spec (f := fun x => { x with toBeSent := some false }) (fun _ => rfl)
    w.broksToSend (conf.externalModules.foldl (putTo env w.broksToSend) w)
  have hsend : sendBroks conf env w = { w with put := put, toRestart := toRestart, brok := brok } := by
    unfold sendBroks
    dsimp only
    rw [he', he]
  rw [he] at hbrok
  rw [hsend]
  refine ⟨rfl, rfl, rfl, rfl, rfl, rfl, fun m hm => ?_, fun b hb => ?_, fun b hb => ?_⟩
  · show put m = _
    rw [hput]
    simp only [hm, true_and]
  · show (brok b).toBeSent = some false
    rw [hbrok]
    split
    · rfl
    · rename_i hn
      rcases hf b hb with h | h
      · refine absurd (List.mem_filter.mpr ⟨hb, ?_⟩) hn
        rw [h]
        rfl
      · exact h
  · show brok b = w.brok b
    have hn : b ∉ w.broksToSend := fun h => hb (List.mem_filter.mp h).1
    rw [hbrok, if_neg hn]

/-! ## The internal modules -/

theorem foldl_handTo (env : Env) (b : Nat) : ∀ (ms : List Nat) (w : World), ms.Nodup → ∃ handed toRestart,
    ms.foldl (handTo env b) w = { w with handed := handed, toRestart := toRestart } ∧
    ∀ m, handed m = if m ∈ ms then w.handed m ++ [b] else w.handed m
  | [], w, _ => ⟨w.handed, w.toRestart, rfl, fun _ => rfl⟩
  | a :: ms, w, hd => by
    rw [List.nodup_cons] at hd
    obtain ⟨handed, toRestart, he, hhanded⟩ := foldl_handTo env b ms (handTo env b w a) hd.2
    have hhead : ∃ r, handTo env b w a =
        { w with handed := Function.update w.handed a (w.handed a ++ [b]), toRestart := r } := by
      unfold handTo
      dsimp only
      split
      · exact ⟨_, rfl⟩
      · exact ⟨w.toRestart, rfl⟩
    obtain ⟨r, ha⟩ := hhead
    refine ⟨handed, toRestart, ?_, fun m => ?_⟩
    · rw [List.foldl_cons, he, ha]
    · rw [hhanded, ha]
      dsimp only
      by_cases hm : m = a
      · subst hm
        rw [if_neg hd.1, if_pos List.mem_cons_self, Function.update_self]
      · rw [Function.update_of_ne hm]
        simp only [hm, List.mem_cons, false_or]

structure Managed (conf : Conf) (w v : World) (done : List Nat) : Prop where
  next : v.nextBrok = w.nextBrok
  external : w.externalBroks = done ++ v.externalBroks
  internal : v.internalBroks = w.internalBroks
  arbiter : v.arbiterBroks = w.arbiterBroks
  put : v.put = w.put
  collected : v.collected = w.collected
  handed : ∀ m ∈ conf.internalModules, v.handed m = w.handed m ++ done
  flag : ∀ b, (v.brok b).toBeSent = (w.brok b).toBeSent

theorem Managed.refl (w : World) : Managed conf w w [] where
  next := rfl
  external := rfl
  internal := rfl
  arbiter := rfl
  put := rfl
  collected := rfl
  handed _ _ := (List.append_nil _).symm
  flag _ := rfl

theorem Managed.trans {l' : List Nat} (h : Managed conf u w l) (h' : Managed conf w v l') : Managed conf u v (l ++ l') where
  next := h'.next.trans h.next
  external := by rw [h.external, h'.external, List.append_assoc]
  internal := h'.internal.trans h.internal
  arbiter := h'.arbiter.trans h.arbiter
  put := h'.put.trans h.put
  collected := h'.collected.trans h.collected
  handed m hm := by rw [h'.handed m hm, h.handed m hm, List.append_assoc]
  flag b := (h'.flag b).trans (h.flag b)

theorem manageBrok_managed (conf : Conf) (env : Env) (h : w.externalBroks = b :: broks) :
    Managed conf w (manageBrok conf env b { w with externalBroks := broks }) [b] := by
  obtain ⟨handed, toRestart, he, hhanded⟩ := foldl_handTo env b conf.internalModules
    (World.modifyBrok b (fun x => { x with prepared := true }) { w with externalBroks := broks }) conf.internal_nodup
  unfold manageBrok
  rw [he]
  refine ⟨rfl, h, rfl, rfl, rfl, rfl, fun m hm => ?_, fun b' => ?_⟩
  · show handed m = _
    rw [hhanded, if_pos hm]
    rfl
  · show (Function.update w.brok b _ b').toBeSent = _
    by_cases hb : b' = b
    · subst hb
      rw [Function.update_self]
    · rw [Function.update_of_ne hb]

theorem drop_managed (hn : conf.internalModules = []) (h : w.externalBroks = b :: broks) :
    Managed conf w { w with externalBroks := broks } [b] where
  next := rfl
  external := h
  internal := rfl
  arbiter := rfl
  put := rfl
  collected := rfl
  handed m hm := by rw [hn] at hm; cases hm
  flag _ := rfl

/-- The loop ends with an empty list or at the time limit: the fuel is enough. -/
theorem manageBroks_managed (conf : Conf) (env : Env) (fuel i : Nat) (w : World) (hl : w.externalBroks.length ≤ fuel)
    (hf : ∀ b ∈ w.externalBroks, (w.brok b).toBeSent = some false) :
    (∃ done, Managed conf w (manageBroks conf env fuel i w) done) ∧
      ((manageBroks conf env fuel i w).externalBroks = [] ∨ ∃ j, 4 / 5 < env.now j - env.now 0) := by
  induction fuel generalizing i w with
  | zero =>
    exact ⟨⟨[], Managed.refl w⟩, Or.inl (List.length_eq_zero_iff.mp (Nat.le_zero.mp hl))⟩
  | succ fuel ih =>
    unfold manageBroks
    cases he : w.externalBroks with
    | nil => exact ⟨⟨[], Managed.refl w⟩, Or.inl he⟩
    | cons b broks =>
      dsimp only
      rw [he] at hl hf
      have hlength : broks.length ≤ fuel := Nat.le_of_succ_le_succ hl
      by_cases ht : 4 / 5 < env.now i - env.now 0
      · rw [if_pos ht]
        exact ⟨⟨[], Managed.refl w⟩, Or.inr ⟨i, ht⟩⟩
      · rw [if_neg ht]
        by_cases hn : conf.internalModules = []
        · have hflag : (w.brok b).toBeSent.getD false = false := by rw [hf b List.mem_cons_self]; rfl
          rw [if_neg (not_not_intro hn), if_neg (by rw [hflag]; decide)]
          obtain ⟨⟨done, hd⟩, hend⟩ := ih (i + 1) { w with externalBroks := broks } hlength
            fun a ha => hf a (List.mem_cons_of_mem _ ha)
          exact ⟨⟨[b] ++ done, (drop_managed hn he).trans hd⟩, hend⟩
        · rw [if_pos hn]
          have hone := manageBrok_managed conf env he
          have hrest : (manageBrok conf env b { w with externalBroks := broks }).externalBroks = broks := by
            have happend := hone.external
            rw [he] at happend
            exact (List.cons_inj_right b).mp happend.symm
          obtain ⟨⟨done, hd⟩, hend⟩ := ih (i + 1) (manageBrok conf env b { w with externalBroks := broks })
            (by rw [hrest]; exact hlength) fun a ha => by
              rw [hrest] at ha
              rw [hone.flag]
              exact hf a (List.mem_cons_of_mem _ ha)
          exact ⟨⟨[b] ++ done, hone.trans hd⟩, hend⟩

/-! ## Conservation -/

/-- Each brok is in one place until a turn collects it; an internal module has
got what has been collected but the end of the list, an external module has all
of it in its queue, and only the time limit leaves broks for the next turn. -/
structure Conserved (conf : Conf) (w : World) : Prop where
  once : (w.arrived ++ w.internalBroks ++ w.arbiterBroks ++ w.fromQueues).Perm (List.range w.nextBrok)
  handed : ∀ m ∈ conf.internalModules, w.handed m ++ w.externalBroks = w.arrived
  put : ∀ m ∈ conf.externalModules, (w.put m).flatten = w.arrived
  drained : ∀ env, (Broker.manage conf env w).externalBroks = [] ∨ ∃ j, 4 / 5 < env.now j - env.now 0

structure Kept (conf : Conf) (w : World) : Prop where
  once : (w.arrived ++ w.internalBroks ++ w.arbiterBroks ++ w.fromQueues).Perm (List.range w.nextBrok)
  handed : ∀ m ∈ conf.internalModules, w.handed m ++ w.externalBroks = w.arrived
  put : ∀ m ∈ conf.externalModules, (w.put m).flatten = w.arrived
  listed : ∀ b ∈ w.externalBroks, b ∈ w.arrived
  sent : ∀ b ∈ w.externalBroks, (w.brok b).toBeSent = some false
  waiting : ∀ b ∈ w.internalBroks ++ w.arbiterBroks, (w.brok b).toBeSent = none
  ended : w.ended = false

theorem Initial.kept (h : Initial w) : Kept conf w where
  once := by
    unfold World.arrived
    rw [h.collected, h.internal, h.arbiter, h.fromQueues, h.none]
    exact List.Perm.refl _
  handed m _ := by
    unfold World.arrived
    rw [h.handed, h.external, h.collected]
    rfl
  put m _ := by
    unfold World.arrived
    rw [h.put, h.collected]
    rfl
  listed b hb := by rw [h.external] at hb; cases hb
  sent b hb := by rw [h.external] at hb; cases hb
  waiting b hb := by rw [h.internal, h.arbiter] at hb; cases hb
  ended := h.ended

theorem Kept.lt_of_arrived (h : Kept conf w) (hb : b ∈ w.arrived) : b < w.nextBrok := by
  refine List.mem_range.mp (h.once.mem_iff.mp ?_)
  rw [List.append_assoc, List.append_assoc]
  exact List.mem_append_left _ hb

theorem Kept.lt_of_waiting (h : Kept conf w) (hb : b ∈ w.internalBroks ++ w.arbiterBroks) : b < w.nextBrok := by
  refine List.mem_range.mp (h.once.mem_iff.mp (List.mem_append_left _ ?_))
  rw [List.append_assoc]
  exact List.mem_append_right _ hb

theorem Kept.newBroks (h : Kept conf w) (data : List String) (instanceId : Option String) {arbiter fromQueues : List Nat}
    (hp : (arbiter ++ fromQueues).Perm (w.arbiterBroks ++ w.fromQueues ++ (w.newBroks data instanceId).1))
    (ha : ∀ b ∈ arbiter, b ∈ w.arbiterBroks ∨ b ∈ (w.newBroks data instanceId).1) :
    Kept conf { (w.newBroks data instanceId).2 with arbiterBroks := arbiter, fromQueues := fromQueues } where
  once := by
    show (w.arrived ++ w.internalBroks ++ arbiter ++ fromQueues).Perm (List.range (w.nextBrok + data.length))
    have hrange : List.range (w.nextBrok + data.length) = List.range w.nextBrok ++ (w.newBroks data instanceId).1 :=
      List.range_add
    rw [hrange, List.append_assoc]
    refine (hp.append_left _).trans ?_
    rw [← List.append_assoc, ← List.append_assoc]
    exact h.once.append_right _
  handed := h.handed
  put := h.put
  listed := h.listed
  sent b hb := by
    show ((w.newBroks data instanceId).2.brok b).toBeSent = _
    rw [newBroks_brok_of_lt data instanceId (h.lt_of_arrived (h.listed b hb))]
    exact h.sent b hb
  waiting b hb := by
    show ((w.newBroks data instanceId).2.brok b).toBeSent = none
    have hb' : b ∈ w.internalBroks ++ w.arbiterBroks ∨ b ∈ (w.newBroks data instanceId).1 := by
      rcases List.mem_append.mp hb with hb | hb
      · exact Or.inl (List.mem_append_left _ hb)
      · exact (ha b hb).imp_left (List.mem_append_right _)
    rcases hb' with hb | hb
    · rw [newBroks_brok_of_lt data instanceId (h.lt_of_waiting hb)]
      exact h.waiting b hb
    · rw [newBroks_ids, List.mem_range'_1] at hb
      exact newBroks_toBeSent data instanceId hb.1 hb.2
  ended := h.ended

/-- What the turn collects when the satellites have `k` broks. -/
def World.batch (w : World) (k : Nat) : List Nat := w.internalBroks ++ w.arbiterBroks ++ List.range' w.nextBrok k

structure Turned (conf : Conf) (env : Env) (w v : World) (k : Nat) (done : List Nat) : Prop where
  next : v.nextBrok = w.nextBrok + k
  collected : v.collected = w.collected ++ [(w.batch k, env.queueAccepts)]
  external : done ++ v.externalBroks = w.externalBroks ++ w.batch k
  internal : v.internalBroks = []
  arbiter : v.arbiterBroks = []
  handed : ∀ m ∈ conf.internalModules, v.handed m = w.handed m ++ done
  put : ∀ m ∈ conf.externalModules, v.put m = if env.queueAccepts m = true then w.put m ++ [w.batch k] else w.put m
  flag : ∀ b ∈ v.externalBroks, (v.brok b).toBeSent = some false

theorem Kept.broksToSend (h : Kept conf w) (hc : Collected env w v k) :
    v.broksToSend = w.batch k ∧ ∀ b ∈ v.externalBroks, (v.brok b).toBeSent = none ∨ (v.brok b).toBeSent = some false := by
  have hold : ∀ b ∈ w.externalBroks, (v.brok b).toBeSent = some false := by
    intro b hb
    rw [hc.old b (h.lt_of_arrived (h.listed b hb))]
    exact h.sent b hb
  have hnew : ∀ b ∈ w.batch k, (v.brok b).toBeSent = none := by
    intro b hb
    rcases List.mem_append.mp hb with hb | hb
    · rw [hc.old b (h.lt_of_waiting hb)]
      exact h.waiting b hb
    · rw [List.mem_range'_1] at hb
      exact hc.fresh b hb.1 hb.2
  constructor
  · unfold World.broksToSend
    rw [hc.external, List.filter_append, List.filter_eq_nil_iff.mpr, List.nil_append, List.filter_eq_self.mpr]
    · rfl
    · intro b hb
      rw [hnew b hb]
      rfl
    · intro b hb
      rw [hold b hb]
      decide
  · intro b hb
    rw [hc.external] at hb
    rcases List.mem_append.mp hb with hb | hb
    · exact Or.inr (hold b hb)
    · exact Or.inl (hnew b hb)

theorem Kept.turned (h : Kept conf w) (env : Env) :
    (∃ done, Turned conf env w (manage conf env w) (env.answers conf) done) ∧
      ((manage conf env w).externalBroks = [] ∨ ∃ j, 4 / 5 < env.now j - env.now 0) := by
  have hc := collect_spec conf env w
  obtain ⟨hbatch, hflags⟩ := h.broksToSend hc
  have hs := sendBroks_spec conf env (collect conf env w) hflags
  obtain ⟨⟨done, hm⟩, hend⟩ := manageBroks_managed conf env _ 1 (sendBroks conf env (collect conf env w)) le_rfl hs.flag
  refine ⟨⟨done, ?_⟩, hend⟩
  constructor
  · exact hm.next.trans (hs.next.trans hc.next)
  · exact hm.collected.trans (hs.collected.trans hc.collected)
  · exact hm.external.symm.trans (hs.external.trans hc.external)
  · exact hm.internal.trans (hs.internal.trans hc.internal)
  · exact hm.arbiter.trans (hs.arbiter.trans hc.arbiter)
  · intro m hmod
    exact (hm.handed m hmod).trans (by rw [hs.handed, hc.handed])
  · intro m hmod
    exact (congrFun hm.put m).trans (by rw [hs.put m hmod, hc.put, hbatch])
  · intro b hb
    refine (hm.flag b).trans (hs.flag b ?_)
    rw [hm.external]
    exact List.mem_append_right _ hb

theorem Turned.arrived {done : List Nat} (ht : Turned conf env w v k done) : v.arrived = w.arrived ++ w.batch k := by
  unfold World.arrived
  rw [ht.collected, List.flatMap_append, List.flatMap_singleton]

theorem Turned.put_iff {done : List Nat} (h : Kept conf w) (ht : Turned conf env w v k done) :
    (∀ m ∈ conf.externalModules, (v.put m).flatten = v.arrived) ↔
      (∀ m ∈ conf.externalModules, env.queueAccepts m = true) ∨ w.batch k = [] := by
  have hone : ∀ m ∈ conf.externalModules, (v.put m).flatten = v.arrived ↔ env.queueAccepts m = true ∨ w.batch k = [] := by
    intro m hm
    rw [ht.put m hm, ht.arrived, ← h.put m hm]
    cases hq : env.queueAccepts m with
    | true => simp
    | false =>
      rw [if_neg Bool.false_ne_true, List.self_eq_append_right]
      exact (or_iff_right Bool.false_ne_true).symm
  constructor
  · intro hp
    by_cases hb : w.batch k = []
    · exact Or.inr hb
    · exact Or.inl fun m hm => ((hone m hm).mp (hp m hm)).resolve_right hb
  · rintro hor m hm
    exact (hone m hm).mpr (hor.imp_left fun hq => hq m hm)

/-- All but the broks that the external modules raise. -/
theorem Kept.turned_once {done fromQueues : List Nat} (h : Kept conf w) (ht : Turned conf env w v k done) :
    (v.arrived ++ v.internalBroks ++ v.arbiterBroks ++ fromQueues).Perm (List.range v.nextBrok) ↔ fromQueues.Perm w.fromQueues := by
  have hrange : (w.arrived ++ w.batch k ++ w.fromQueues).Perm (List.range v.nextBrok) := by
    rw [ht.next, List.range_add, ← List.range'_eq_map_range]
    refine List.Perm.trans ?_ (h.once.append_right _)
    unfold World.batch
    simp only [List.append_assoc]
    exact ((List.perm_append_comm.append_left _).append_left _).append_left _
  rw [ht.internal, ht.arbiter, List.append_nil, List.append_nil, ht.arrived]
  exact ⟨fun hp => (List.perm_append_left_iff _).mp (hp.trans hrange.symm), fun hp => (hp.append_left _).trans hrange⟩

theorem Kept.of_turned {done : List Nat} (h : Kept conf w) (ht : Turned conf env w v k done) (hq : v.fromQueues = w.fromQueues)
    (he : v.ended = w.ended) (hp : (∀ m ∈ conf.externalModules, env.queueAccepts m = true) ∨ w.batch k = []) : Kept conf v := by
  constructor
  · exact (h.turned_once ht).mpr (List.Perm.of_eq hq)
  · intro m hm
    rw [ht.handed m hm, List.append_assoc, ht.external, ← List.append_assoc, h.handed m hm, ht.arrived]
  · exact (ht.put_iff h).mpr hp
  · intro b hb
    have hmem : b ∈ w.externalBroks ++ w.batch k := ht.external ▸ List.mem_append_right done hb
    rw [ht.arrived]
    rcases List.mem_append.mp hmem with hb | hb
    · exact List.mem_append_left _ (h.listed b hb)
    · exact List.mem_append_right _ hb
  · exact ht.flag
  · intro b hb
    rw [ht.internal, ht.arbiter] at hb
    cases hb
  · exact he.trans h.ended

theorem Kept.conserved (h : Kept conf w) : Conserved conf w := ⟨h.once, h.handed, h.put, fun env => (h.turned env).2⟩

theorem askInitialBroks_eq {σ : Type} (ask : Nat → σ → Answer Nat × σ) : ∀ (is : List Nat) (w : World) (s : σ),
    (askInitialBroks ask is w s).1 = { w with gotInitialBroks := (askInitialBroks ask is w s).1.gotInitialBroks }
  | [], _, _ => rfl
  | i :: is, w, s => by
    unfold askInitialBroks
    split
    · exact askInitialBroks_eq ask is w _
    · split
      · rfl
      · rw [askInitialBroks_eq ask is]

/-- What a turn leaves aside until the end. -/
def World.aside (w : World) : Bool × List Nat × Bool := (w.gotInitialBroks, w.fromQueues, w.ended)

theorem foldl_aside {α : Type} {f : World → α → World} (hf : ∀ w a, (f w a).aside = w.aside)
    (l : List α) (w : World) : (l.foldl f w).aside = w.aside := by
  induction l generalizing w with
  | nil => rfl
  | cons a l ih => exact (ih (f w a)).trans (hf w a)

theorem getBroksOf_aside (conf : Conf) (env : Env) (w : World) (i : Nat) : (getBroksOf conf env w i).aside = w.aside := by
  unfold getBroksOf
  split <;> rfl

theorem putTo_aside (env : Env) (broks : List Nat) (w : World) (m : Nat) : (putTo env broks w m).aside = w.aside := by
  unfold putTo
  split <;> rfl

theorem handTo_aside (env : Env) (b : Nat) (w : World) (m : Nat) : (handTo env b w m).aside = w.aside := by
  unfold handTo
  dsimp only
  split <;> rfl

theorem manageBroks_aside (conf : Conf) (env : Env) (fuel i : Nat) (w : World) :
    (manageBroks conf env fuel i w).aside = w.aside := by
  induction fuel generalizing i w with
  | zero => rfl
  | succ fuel ih =>
    unfold manageBroks
    split
    · rfl
    · dsimp only
      split
      · rfl
      · split
        · exact (ih ..).trans (foldl_aside (handTo_aside env _) _ _)
        · split
          · exact ih ..
          · exact ih ..

theorem manage_aside (conf : Conf) (env : Env) (w : World) : (manage conf env w).aside = w.aside := by
  have hcollect : (collect conf env w).aside = w.aside :=
    foldl_aside (fun w satellites => foldl_aside (getBroksOf_aside conf env) satellites w) _ _
  have hsend : (sendBroks conf env (collect conf env w)).aside = (collect conf env w).aside :=
    (foldl_aside (f := fun w b => w.modifyBrok b fun x => { x with toBeSent := some false }) (fun _ _ => rfl) _ _).trans
      (foldl_aside (putTo_aside env _) _ _)
  exact (manageBroks_aside conf env _ 1 _).trans (hsend.trans hcollect)

theorem manage_got (conf : Conf) (env : Env) (w : World) : (manage conf env w).gotInitialBroks = w.gotInitialBroks :=
  congrArg Prod.fst (manage_aside conf env w)

theorem manage_fromQueues (conf : Conf) (env : Env) (w : World) : (manage conf env w).fromQueues = w.fromQueues :=
  congrArg (fun a => a.2.1) (manage_aside conf env w)

theorem getObjectsFromFromQueues_got (w : World) : (getObjectsFromFromQueues w).gotInitialBroks = w.gotInitialBroks := by
  unfold getObjectsFromFromQueues
  split <;> rfl

theorem Kept.withFlag (h : Kept conf w) (got : Bool) : Kept conf { w with gotInitialBroks := got } :=
  ⟨h.once, h.handed, h.put, h.listed, h.sent, h.waiting, h.ended⟩

/-! ## Turns -/

/-- The turn does not end with the initial broks: no scheduler is reached that has none. -/
def World.GoesOn (conf : Conf) (ask : Nat → Unit → Answer Nat × Unit) (w : World) : Prop :=
  w.gotInitialBroks = true ∨ ∀ i ∈ conf.schedulers, ∀ count, (ask i ()).1 = .returned count → count.getD 0 ≠ 0

/-- Nobody has a brok for the turn. -/
def World.Quiet (conf : Conf) (env : Env) (w : World) : Prop :=
  w.internalBroks = [] ∧ w.arbiterBroks = [] ∧
    ∀ l ∈ conf.satellites, ∀ i ∈ l, ∀ data, env.getBroks i = .returned (some data) → data = []

def Allowed (conf : Conf) (w : World) : Event → Prop
  | .raised _ | .pushed _ _ => True
  | .turn ask env => w.GoesOn conf ask →
    w.fromQueues = [] ∧ ((∀ m ∈ conf.externalModules, env.queueAccepts m = true) ∨ w.Quiet conf env)

theorem askInitialBroks_goesOn (ask : Nat → Unit → Answer Nat × Unit) : ∀ (is : List Nat) (w : World) (s : Unit),
    (askInitialBroks ask is w s).2.2 = true ↔ ∀ i ∈ is, ∀ count, (ask i ()).1 = .returned count → count.getD 0 ≠ 0
  | [], _, _ => by simp [askInitialBroks]
  | i :: is, w, s => by
    unfold askInitialBroks
    have hunit : ask i () = ask i s := rfl
    rw [List.forall_mem_cons, hunit]
    cases ask i s with | mk answer s' =>
    cases answer with
    | linkError =>
      rw [askInitialBroks_goesOn ask is w s']
      exact (and_iff_right fun count h => nomatch h).symm
    | returned count =>
      dsimp only
      by_cases hc : count.getD 0 = 0
      · rw [if_pos hc]
        exact iff_of_false Bool.false_ne_true fun h => h.1 count rfl hc
      · rw [if_neg hc, askInitialBroks_goesOn ask is _ s']
        refine (and_iff_right fun c h => ?_).symm
        cases h
        exact hc

theorem answered_eq_zero (env : Env) (i : Nat) :
    env.answered i = 0 ↔ ∀ data, env.getBroks i = .returned (some data) → data = [] := by
  unfold Env.answered
  cases env.getBroks i with
  | linkError => simp
  | returned value => cases value <;> simp

theorem batch_eq_nil (conf : Conf) (env : Env) (w : World) : w.batch (env.answers conf) = [] ↔ w.Quiet conf env := by
  unfold World.batch World.Quiet Env.answers
  rw [List.append_eq_nil_iff, List.append_eq_nil_iff, List.range'_eq_nil_iff, and_assoc]
  refine and_congr Iff.rfl (and_congr Iff.rfl ?_)
  simp only [List.sum_eq_zero_iff_forall_eq_nat, List.mem_map, forall_exists_index, and_imp, forall_apply_eq_imp_iff₂, answered_eq_zero]

/-- The turn once the initial broks are there. -/
theorem Kept.manage_iff (h : Kept conf w) (env : Env) : Conserved conf (getObjectsFromFromQueues (manage conf env w)) ↔
    w.fromQueues = [] ∧ ((∀ m ∈ conf.externalModules, env.queueAccepts m = true) ∨ w.Quiet conf env) := by
  obtain ⟨⟨done, ht⟩, -⟩ := h.turned env
  have hq := manage_fromQueues conf env w
  rw [← batch_eq_nil]
  unfold getObjectsFromFromQueues
  cases hw : w.fromQueues with
  | nil =>
    rw [hq, hw]
    constructor
    · exact fun hc => ⟨rfl, (ht.put_iff h).mp hc.put⟩
    · rintro ⟨-, hp⟩
      exact (h.of_turned ht hq (congrArg (fun a => a.2.2) (manage_aside conf env w)) hp).conserved
  | cons b broks =>
    rw [hq, hw]
    refine iff_of_false (fun hc => ?_) fun hn => absurd hn.1 (List.cons_ne_nil b broks)
    -- the brok that was taken is nowhere
    have hperm := ((h.turned_once ht).mp hc.once).length_eq
    rw [hw] at hperm
    exact absurd hperm (by simp)

theorem Kept.manage (h : Kept conf w) {env : Env} (hq : w.fromQueues = [])
    (hp : (∀ m ∈ conf.externalModules, env.queueAccepts m = true) ∨ w.Quiet conf env) :
    Kept conf (getObjectsFromFromQueues (manage conf env w)) := by
  obtain ⟨⟨done, ht⟩, -⟩ := h.turned env
  have hkept := h.of_turned ht (manage_fromQueues conf env w) (congrArg (fun a => a.2.2) (manage_aside conf env w))
    (hp.imp_right (batch_eq_nil conf env w).mpr)
  unfold getObjectsFromFromQueues
  rw [manage_fromQueues, hq]
  exact hkept

theorem Kept.turn (h : Kept conf w) (ask : Nat → Unit → Answer Nat × Unit) (env : Env) :
    (Conserved conf (doLoopTurn conf ask env w ()).1 ↔ Allowed conf w (.turn ask env)) ∧
      (Allowed conf w (.turn ask env) → Kept conf (doLoopTurn conf ask env w ()).1) := by
  have hasked : Kept conf (askInitialBroks ask conf.schedulers w ()).1 := by
    rw [askInitialBroks_eq]
    exact h.withFlag _
  have hsame : ∀ got, (World.Quiet conf env { w with gotInitialBroks := got } ↔ w.Quiet conf env) := fun _ => Iff.rfl
  unfold doLoopTurn Allowed World.GoesOn
  cases hg : w.gotInitialBroks with
  | true =>
    simp only [if_true, true_or, forall_const]
    exact ⟨h.manage_iff env, fun ha => h.manage ha.1 ha.2⟩
  | false =>
    simp only [Bool.false_eq_true, if_false, false_or, ← askInitialBroks_goesOn ask conf.schedulers w ()]
    by_cases hgo : (askInitialBroks ask conf.schedulers w ()).2.2 = true
    · simp only [hgo, if_true, forall_const]
      have hiff := hasked.manage_iff env
      have hkeep := @Kept.manage conf _ hasked env
      rw [askInitialBroks_eq] at hiff hkeep
      rw [askInitialBroks_eq]
      exact ⟨hiff, fun ha => hkeep ha.1 ha.2⟩
    · rw [if_neg hgo]
      exact ⟨iff_of_true hasked.conserved fun h => absurd h hgo, fun _ => hasked⟩

theorem Kept.step (h : Kept conf w) (e : Event) :
    (Conserved conf (w.step conf e) ↔ Allowed conf w e) ∧ (Allowed conf w e → Kept conf (w.step conf e)) := by
  unfold World.step
  rw [h.ended]
  simp only [Bool.false_eq_true, if_false]
  cases e with
  | raised data =>
    have hkept : Kept conf { (w.newBroks [data] none).2 with
        fromQueues := w.fromQueues ++ (w.newBroks [data] none).1 } := by
      refine @Kept.newBroks conf w h [data] none w.arbiterBroks _ ?_ fun b hb => Or.inl hb
      rw [List.append_assoc]
    exact ⟨iff_of_true hkept.conserved trivial, fun _ => hkept⟩
  | pushed data instanceId =>
    have hkept : Kept conf { (w.newBroks data instanceId).2 with
        arbiterBroks := w.arbiterBroks ++ (w.newBroks data instanceId).1 } := by
      refine @Kept.newBroks conf w h data instanceId _ w.fromQueues ?_ fun b hb => List.mem_append.mp hb
      rw [List.append_assoc, List.append_assoc]
      exact List.perm_append_comm.append_left _
    exact ⟨iff_of_true hkept.conserved trivial, fun _ => hkept⟩
  | turn ask env => exact h.turn ask env

/-- Broks are conserved by every event of a run as long as each turn finds no
brok of an external module and has its batch taken. -/
theorem broks_conserved_iff (h₀ : Initial w) (events : List Event) :
    (∀ l e, l ++ [e] <+: events → Conserved conf ((l.foldl (World.step conf) w).step conf e)) ↔
      ∀ l e, l ++ [e] <+: events → Allowed conf (l.foldl (World.step conf) w) e :=
  prefixes_iff (P := Kept conf) h₀.kept (fun _ e h => (h.step e).1) (fun _ e h hc => (h.step e).2 ((h.step e).1.mp hc)) events

end

/-! ## A queue that fails, and a module with a brok -/

def oneOfEach : Conf := ⟨[], [], [], [], fun _ => "", [0], [1], by decide, by decide⟩

def started : World := ⟨false, fun _ => ⟨"", none, false, none⟩, 0, [], [], [], [], fun _ => [], fun _ => [], [], [], false⟩

def turnWith (queueAccepts : Bool) : Event :=
  .turn (fun _ s => (.linkError, s)) ⟨fun _ => .returned none, fun _ => queueAccepts, fun _ _ => true, fun _ => 0⟩

theorem initial_started : Initial started := ⟨rfl, rfl, rfl, rfl, rfl, rfl, fun _ => rfl, fun _ => rfl, rfl⟩

theorem broks_conserved_two :
    Conserved oneOfEach ([.pushed ["update", "log"] none].foldl (World.step oneOfEach) started) ∧
      Conserved oneOfEach ([.pushed ["update", "log"] none, turnWith true].foldl (World.step oneOfEach) started) := by
  have hall : ∀ l e, l ++ [e] <+: [.pushed ["update", "log"] none, turnWith true] →
      Conserved oneOfEach ((l.foldl (World.step oneOfEach) started).step oneOfEach e) := by
    refine (broks_conserved_iff initial_started _).mpr fun l e hl => ?_
    rcases l with _ | ⟨a, _ | ⟨b, l⟩⟩
    · rw [(List.cons_prefix_cons.mp hl).1]
      trivial
    · obtain ⟨rfl, hrest⟩ := List.cons_prefix_cons.mp hl
      rw [(List.cons_prefix_cons.mp hrest).1]
      exact fun _ => ⟨rfl, Or.inl fun _ _ => rfl⟩
    · have hlength := hl.length_le
      simp at hlength
  exact ⟨hall [] _ ⟨_, rfl⟩, hall [_] _ ⟨[], rfl⟩⟩

/-- The batch is marked as sent all the same, and the brok of a module ends the daemon. -/
theorem broks_lost : Initial started ∧
    ¬ Conserved oneOfEach ([.pushed ["update", "log"] none, turnWith false].foldl (World.step oneOfEach) started) ∧
    ¬ Conserved oneOfEach ([.raised "log", turnWith true].foldl (World.step oneOfEach) started) := by
  refine ⟨initial_started, fun h => ?_, fun h => ?_⟩
  · exact absurd (h.put 0 List.mem_cons_self) (by decide +kernel)
  · exact absurd h.once.length_eq (by decide +kernel)

end Alignak.Broker
