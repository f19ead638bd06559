import Alignak.Broks

/-!
# A brok goes once to each broker

What becomes of one brok is said by two facts: a pass has been made since it was
added, and a broker has asked for its broks after that.
-/

namespace Alignak.Broks

structure Transit where
  sent : Bool
  given : String → Bool

def Transit.start : Transit := ⟨false, fun _ => false⟩

def Transit.step (t : Transit) : Event → Transit
  | .addBrok _ _ _ => t
  | .sendBroksToModules => { t with sent := true }
  | .giveBroks name => { t with given := Function.update t.given name (t.given name || t.sent) }

def transit (events : List Event) : Transit := events.foldl Transit.step .start

variable {l : BrokerLink}

section
variable {w : World} {b : Nat} {broks : List Nat} {f : Brok → Brok}

/-! ## The flags of a brok -/

theorem modifyBroks_eq (broks : List Nat) (f : Brok → Brok) (w : World) :
    w.modifyBroks broks f = { w with brok := (w.modifyBroks broks f).brok } := by
  induction broks generalizing w with
  | nil => rfl
  | cons b broks ih =>
    show (w.modifyBrok b f).modifyBroks broks f = _
    rw [ih]
    rfl

@[simp] theorem modifyBroks_brokers : (w.modifyBroks broks f).brokers = w.brokers := by rw [modifyBroks_eq]

@[simp] theorem modifyBroks_modules : (w.modifyBroks broks f).modules = w.modules := by rw [modifyBroks_eq]

@[simp] theorem modifyBroks_given : (w.modifyBroks broks f).given = w.given := by rw [modifyBroks_eq]

@[simp] theorem modifyBroks_nextBrok : (w.modifyBroks broks f).nextBrok = w.nextBrok := by rw [modifyBroks_eq]

theorem modifyBroks_brok (hf : ∀ x, f (f x) = f x) (broks : List Nat) (w : World) (b : Nat) :
    (w.modifyBroks broks f).brok b = if b ∈ broks then f (w.brok b) else w.brok b := by
  induction broks generalizing w with
  | nil => rfl
  | cons a broks ih =>
    show ((w.modifyBrok a f).modifyBroks broks f).brok b = _
    rw [ih]
    by_cases h : b = a
    · subst h
      have hself : (w.modifyBrok b f).brok b = f (w.brok b) := Function.update_self ..
      rw [hself, hf, ite_self, if_pos List.mem_cons_self]
    · have hother : (w.modifyBrok a f).brok b = w.brok b := Function.update_of_ne h ..
      rw [hother]
      simp only [List.mem_cons, h, false_or]

theorem setSent_setSent (x : Brok) : x.setSent.setSent = x.setSent := by
  unfold Brok.setSent
  split <;> simp_all

theorem setSent_content (x : Brok) : x.setSent.content = x.content := by
  unfold Brok.setSent
  split <;> rfl

theorem setSent_sent (x : Brok) : x.setSent.sentToExternals = true := by
  unfold Brok.setSent
  split
  · assumption
  · rfl

theorem setSent_got (x : Brok) : x.setSent.got = x.got := by
  unfold Brok.setSent
  split <;> rfl

/-! ## Additions -/

theorem addEvent_eq (b : Nat) (w : World) : w.addEvent b = { w with events := (w.addEvent b).events } := by
  unfold World.addEvent
  split <;> rfl

theorem addBrok_spec (b : Nat) (u : Option String) (w : World) : ∃ events nbBroks,
    addBrok b u w = { w.modifyBrok b fun x => { x with instanceId := some w.instanceId } with
      brokers := (addBrok b u w).brokers, events := events, nbBroks := nbBroks } := by
  unfold addBrok
  rw [addEvent_eq]
  cases u.filter (· ≠ "") with
  | none => exact ⟨_, _, rfl⟩
  | some uuid =>
    dsimp only
    unfold World.addFor
    split <;> exact ⟨_, _, rfl⟩

theorem addBrok_brokers (b : Nat) (u : Option String) (w : World) :
    (addBrok b u w).brokers = match u.filter (· ≠ "") with
      | some uuid => w.brokers.map fun l => if l.uuid = uuid then l.append b else l
      | none => w.brokers.map (BrokerLink.append b) := by
  unfold addBrok
  rw [addEvent_eq]
  cases u.filter (· ≠ "") with
  | none => rfl
  | some uuid =>
    dsimp only
    unfold World.addFor
    split
    · rfl
    · rename_i h
      have hnone : ∀ l ∈ w.brokers, (if l.uuid = uuid then l.append b else l) = l := by
        intro l hl
        have hne : l.uuid ≠ uuid := fun e => h (List.mem_map.mpr ⟨l, hl, e⟩)
        rw [if_neg hne]
      show w.brokers = _
      rw [List.map_congr_left hnone, List.map_id']

/-! ## Requests -/

section
variable {name : String} {got : Nat → Bool}

theorem mem_cleanLinks : ∀ {ls : List BrokerLink}, l ∈ cleanLinks name got ls →
    l ∈ ls ∨ ∃ k ∈ ls, k.name = name ∧ l = { k with broks := k.broks.filter fun b => !got b }
  | k :: ls, h => by
    unfold cleanLinks at h
    split at h
    · rename_i hn
      rcases List.mem_cons.mp h with rfl | h
      · exact Or.inr ⟨k, List.mem_cons_self, hn.symm, rfl⟩
      · exact Or.inl (List.mem_cons_of_mem _ h)
    · rcases List.mem_cons.mp h with rfl | h
      · exact Or.inl List.mem_cons_self
      · rcases mem_cleanLinks h with h | ⟨k, hk, he⟩
        · exact Or.inl (List.mem_cons_of_mem _ h)
        · exact Or.inr ⟨k, List.mem_cons_of_mem _ hk, he⟩

theorem cleanLinks_names (name : String) (got : Nat → Bool) : ∀ ls : List BrokerLink,
    (cleanLinks name got ls).map BrokerLink.name = ls.map BrokerLink.name
  | [] => rfl
  | l :: ls => by
    unfold cleanLinks
    split
    · rfl
    · rw [List.map_cons, List.map_cons, cleanLinks_names name got ls]

theorem clean_of_mem_cleanLinks : ∀ {ls : List BrokerLink}, (ls.map BrokerLink.name).Nodup →
    l ∈ cleanLinks name got ls → l.name = name →
    ∃ k ∈ ls, k.name = name ∧ l = { k with broks := k.broks.filter fun b => !got b }
  | k :: ls, hd, h, hn => by
    rw [List.map_cons, List.nodup_cons] at hd
    unfold cleanLinks at h
    split at h
    · rename_i hk
      rcases List.mem_cons.mp h with rfl | h
      · exact ⟨k, List.mem_cons_self, hk.symm, rfl⟩
      · exact absurd (List.mem_map.mpr ⟨l, h, hn.trans hk⟩) hd.1
    · rename_i hk
      rcases List.mem_cons.mp h with rfl | h
      · exact absurd hn.symm hk
      · obtain ⟨k', hk', he⟩ := clean_of_mem_cleanLinks hd.2 h hn
        exact ⟨k', List.mem_cons_of_mem _ hk', he⟩

end

theorem count_answer (l : BrokerLink) (w : World) (b : Nat) :
    (w.answer l).count b = if (w.brok b).sentToExternals then l.broks.count b else 0 := by
  unfold World.answer
  split
  · rename_i h
    rw [List.count_filter (p := fun b => (w.brok b).sentToExternals) h]
    exact (List.mergeSort_perm ..).count_eq b
  · rename_i h
    refine List.count_eq_zero.mpr fun hm => h ?_
    exact (List.mem_filter.mp hm).2

/-! ## One brok -/

structure Fresh (w : World) : Prop where
  links : ∀ l ∈ w.brokers, ∀ b ∈ l.broks, b < w.nextBrok
  queues : ∀ m ∈ w.modules, ∀ b ∈ m.broks, b < w.nextBrok
  given : ∀ name, ∀ b ∈ w.given name, b < w.nextBrok

structure Tracked (n b : Nat) (c : Content) (t : Transit) (w : World) : Prop where
  names : (w.brokers.map BrokerLink.name).Nodup
  named : ∀ l ∈ w.brokers, l.name ≠ ""
  size : w.brokers.length = n
  created : b < w.nextBrok
  content : (w.brok b).content = c
  sent : 0 < n → (w.brok b).sentToExternals = t.sent
  got : (w.brok b).got = true → t.sent = true
  asked : ∀ name, t.given name = true → t.sent = true
  held : ∀ l ∈ w.brokers, l.broks.count b = if t.given l.name then 0 else 1
  put : ∀ m ∈ w.modules, m.broks.count b = if t.sent ∧ m.toQ.isSome ∧ m.wantBrok c then n else 0
  taken : ∀ l ∈ w.brokers, (w.given l.name).count b = if t.given l.name then 1 else 0

theorem put_broks (m : ExternalModule) (l : List Nat) :
    (m.put l).broks = if m.toQ.isSome then m.broks ++ l else m.broks := by
  unfold ExternalModule.put ExternalModule.broks
  cases m.toQ with
  | none => rfl
  | some q =>
    show (q ++ [l]).flatten = _
    rw [List.flatten_append]
    simp

theorem put_isSome (m : ExternalModule) (l : List Nat) : (m.put l).toQ.isSome = m.toQ.isSome := by
  unfold ExternalModule.put
  cases m.toQ <;> rfl

/-! ## The initial state -/

theorem Initial.fresh (h : Initial w) : Fresh w where
  links l hl b hb := by rw [h.links l hl] at hb; cases hb
  queues m hm b hb := by rw [h.queues m hm] at hb; cases hb
  given name b hb := by rw [h.given name] at hb; cases hb

/-! ## Steps -/

theorem mem_addBrok_brokers {u : Option String} (h : l ∈ (addBrok b u w).brokers) :
    ∃ k ∈ w.brokers, l.name = k.name ∧ (l.broks = k.broks ∨ l.broks = k.broks ++ [b]) := by
  rw [addBrok_brokers] at h
  split at h
  · obtain ⟨k, hk, rfl⟩ := List.mem_map.mp h
    refine ⟨k, hk, ?_⟩
    split
    · exact ⟨rfl, Or.inr rfl⟩
    · exact ⟨rfl, Or.inl rfl⟩
  · obtain ⟨k, hk, rfl⟩ := List.mem_map.mp h
    exact ⟨k, hk, rfl, Or.inr rfl⟩

theorem addBrok_names (b : Nat) (u : Option String) (w : World) :
    (addBrok b u w).brokers.map BrokerLink.name = w.brokers.map BrokerLink.name := by
  rw [addBrok_brokers]
  split
  · rw [List.map_map]
    refine List.map_congr_left fun l _ => ?_
    show (if _ then l.append b else l).name = l.name
    split <;> rfl
  · rw [List.map_map]
    rfl

theorem step_add (c : Content) (time : Int) (u : Option String) (w : World) :
    (w.step (.addBrok c time u)).nextBrok = w.nextBrok + 1 ∧
    (w.step (.addBrok c time u)).modules = w.modules ∧
    (w.step (.addBrok c time u)).given = w.given ∧
    (∀ b ≠ w.nextBrok, (w.step (.addBrok c time u)).brok b = w.brok b) ∧
    (w.step (.addBrok c time u)).brok w.nextBrok = ⟨c, time, some w.instanceId, false, false, false⟩ := by
  obtain ⟨events, nbBroks, h⟩ := addBrok_spec w.nextBrok u (w.newBrok c time)
  have hstep : w.step (.addBrok c time u) = addBrok w.nextBrok u (w.newBrok c time) := rfl
  rw [hstep, h]
  refine ⟨rfl, rfl, rfl, fun b hb => ?_, ?_⟩
  · exact (Function.update_of_ne hb ..).trans (Function.update_of_ne hb ..)
  · refine (Function.update_self ..).trans ?_
    have hnew : (w.newBrok c time).brok w.nextBrok = ⟨c, time, none, false, false, false⟩ := Function.update_self ..
    rw [hnew]
    rfl

theorem unsent_lt (h : Fresh w) : ∀ b ∈ w.unsent, b < w.nextBrok := by
  intro b hb
  obtain ⟨l, hl, hb⟩ := List.mem_flatMap.mp hb
  exact h.links l hl b (List.mem_filter.mp hb).1

theorem step_send (w : World) :
    (w.step .sendBroksToModules).nextBrok = w.nextBrok ∧
    (w.step .sendBroksToModules).brokers = w.brokers ∧
    (w.step .sendBroksToModules).given = w.given ∧
    (w.step .sendBroksToModules).modules =
      (if w.unsent = [] then w.modules
       else w.modules.map fun m => m.put (w.unsent.filter fun b => m.wantBrok (w.brok b).content)) ∧
    ∀ b, ((w.step .sendBroksToModules).brok b).content = (w.brok b).content ∧
      ((w.step .sendBroksToModules).brok b).got = (w.brok b).got ∧
      ((w.step .sendBroksToModules).brok b).sentToExternals =
        ((w.brok b).sentToExternals || decide (b ∈ w.brokers.flatMap BrokerLink.broks)) := by
  have hflag : ∀ b, ((w.modifyBroks w.unsent Brok.setToSend).brok b).content = (w.brok b).content ∧
      ((w.modifyBroks w.unsent Brok.setToSend).brok b).got = (w.brok b).got ∧
      ((w.modifyBroks w.unsent Brok.setToSend).brok b).sentToExternals = (w.brok b).sentToExternals := by
    intro b
    rw [modifyBroks_brok (f := Brok.setToSend) fun _ => rfl]
    split <;> exact ⟨rfl, rfl, rfl⟩
  show (sendBroksToModules w).nextBrok = _ ∧ _
  unfold World.step sendBroksToModules
  dsimp only
  by_cases he : w.unsent = []
  · simp only [if_pos he, modifyBroks_nextBrok, modifyBroks_brokers, modifyBroks_given, modifyBroks_modules]
    refine ⟨trivial, trivial, trivial, trivial, fun b => ⟨(hflag b).1, (hflag b).2.1, ?_⟩⟩
    rw [(hflag b).2.2]
    by_cases hb : b ∈ w.brokers.flatMap BrokerLink.broks
    · obtain ⟨l, hl, hbl⟩ := List.mem_flatMap.mp hb
      have hsent : (w.brok b).sentToExternals = true := by
        cases hs : (w.brok b).sentToExternals with
        | true => rfl
        | false =>
          have hun : b ∈ w.unsent := List.mem_flatMap.mpr ⟨l, hl, List.mem_filter.mpr ⟨hbl, by rw [hs]; rfl⟩⟩
          rw [he] at hun
          cases hun
      rw [hsent, Bool.true_or]
    · rw [decide_eq_false hb, Bool.or_false]
  · simp only [if_neg he, modifyBroks_nextBrok, modifyBroks_brokers, modifyBroks_given, modifyBroks_modules]
    refine ⟨modifyBroks_nextBrok, modifyBroks_brokers, modifyBroks_given, ?_, fun b => ?_⟩
    · show ((w.modifyBroks w.unsent _).modules).map _ = _
      rw [modifyBroks_modules]
      refine List.map_congr_left fun m _ => ?_
      simp only [(hflag _).1]
    · rw [modifyBroks_brok setSent_setSent]
      have hput : ((w.modifyBroks w.unsent Brok.setToSend).putToModules w.unsent).brok b =
          (w.modifyBroks w.unsent Brok.setToSend).brok b := rfl
      rw [hput]
      split
      · rename_i hb
        rw [setSent_content, setSent_got, setSent_sent, decide_eq_true hb, Bool.or_true]
        exact ⟨(hflag b).1, (hflag b).2.1, rfl⟩
      · rename_i hb
        rw [decide_eq_false hb, Bool.or_false]
        exact hflag b

theorem step_give (name : String) (w : World) :
    (w.step (.giveBroks name) = w ∧ (name = "" ∨ ∀ l ∈ w.brokers, l.name ≠ name)) ∨
    ∃ l ∈ w.brokers, l.name = name ∧
      (w.step (.giveBroks name)).nextBrok = w.nextBrok ∧
      (w.step (.giveBroks name)).modules = w.modules ∧
      (w.step (.giveBroks name)).brokers =
        cleanLinks name (fun b => ((w.step (.giveBroks name)).brok b).got) w.brokers ∧
      (w.step (.giveBroks name)).given = Function.update w.given name (w.given name ++ w.answer l) ∧
      ∀ b, ((w.step (.giveBroks name)).brok b).content = (w.brok b).content ∧
        ((w.step (.giveBroks name)).brok b).sentToExternals = (w.brok b).sentToExternals ∧
        ((w.step (.giveBroks name)).brok b).got = ((w.brok b).got || decide (b ∈ w.answer l)) := by
  unfold World.step giveBroks
  by_cases hn : name = ""
  · simp only [if_pos hn, List.append_nil, Function.update_eq_self]
    exact Or.inl ⟨trivial, Or.inl hn⟩
  · simp only [if_neg hn]
    cases hf : w.brokers.find? fun l => decide (name = l.name) with
    | none =>
      simp only [List.append_nil, Function.update_eq_self]
      exact Or.inl ⟨trivial, Or.inr fun l hl he => List.find?_eq_none.mp hf l hl (decide_eq_true he.symm)⟩
    | some l =>
      have hname : name = l.name := of_decide_eq_true (List.find?_some (p := fun l : BrokerLink => decide (name = l.name)) hf)
      refine Or.inr ⟨l, List.mem_of_find?_eq_some hf, hname.symm, modifyBroks_nextBrok, modifyBroks_modules, ?_, ?_,
        fun b => ?_⟩
      · simp only [modifyBroks_brokers]
      · simp only [modifyBroks_given]
      · show ((w.modifyBroks (w.answer l) Brok.setGot).brok b).content = _ ∧ _
        rw [modifyBroks_brok (f := Brok.setGot) fun _ => rfl]
        by_cases hb : b ∈ w.answer l
        · rw [if_pos hb, decide_eq_true hb, Bool.or_true]
          exact ⟨rfl, rfl, rfl⟩
        · rw [if_neg hb, decide_eq_false hb, Bool.or_false]
          exact ⟨rfl, rfl, rfl⟩

end

section
variable {w : World} {b : Nat}

/-! ## What has not been created -/

theorem Fresh.step (h : Fresh w) (ev : Event) : Fresh (w.step ev) := by
  cases ev with
  | addBrok c time u =>
    obtain ⟨hnext, hmodules, hgiven, -, -⟩ := step_add c time u w
    constructor
    · intro l hl a ha
      rw [hnext]
      obtain ⟨k, hk, -, hb | hb⟩ := mem_addBrok_brokers (b := w.nextBrok) (w := w.newBrok c time) (u := u) hl
      · rw [hb] at ha
        exact Nat.lt_succ_of_lt (h.links k hk a ha)
      · rw [hb] at ha
        rcases List.mem_append.mp ha with ha | ha
        · exact Nat.lt_succ_of_lt (h.links k hk a ha)
        · rw [List.mem_singleton.mp ha]
          exact Nat.lt_succ_self _
    · intro m hm a ha
      rw [hmodules] at hm
      rw [hnext]
      exact Nat.lt_succ_of_lt (h.queues m hm a ha)
    · intro name a ha
      rw [hgiven] at ha
      rw [hnext]
      exact Nat.lt_succ_of_lt (h.given name a ha)
  | sendBroksToModules =>
    obtain ⟨hnext, hbrokers, hgiven, hmodules, -⟩ := step_send w
    constructor
    · intro l hl a ha
      rw [hbrokers] at hl
      rw [hnext]
      exact h.links l hl a ha
    · intro m hm a ha
      rw [hmodules] at hm
      rw [hnext]
      split at hm
      · exact h.queues m hm a ha
      · obtain ⟨m', hm', rfl⟩ := List.mem_map.mp hm
        rw [put_broks] at ha
        split at ha
        · rcases List.mem_append.mp ha with ha | ha
          · exact h.queues m' hm' a ha
          · exact unsent_lt h a (List.mem_filter.mp ha).1
        · exact h.queues m' hm' a ha
    · intro name a ha
      rw [hgiven] at ha
      rw [hnext]
      exact h.given name a ha
  | giveBroks name =>
    rcases step_give name w with ⟨he, -⟩ | ⟨l, hl, hn, hnext, hmodules, hbrokers, hgiven, -⟩
    · rw [he]
      exact h
    · constructor
      · intro l' hl' a ha
        rw [hnext]
        rw [hbrokers] at hl'
        rcases mem_cleanLinks hl' with hm | ⟨k, hk, -, rfl⟩
        · exact h.links l' hm a ha
        · exact h.links k hk a (List.mem_filter.mp ha).1
      · intro m hm a ha
        rw [hmodules] at hm
        rw [hnext]
        exact h.queues m hm a ha
      · intro name' a ha
        rw [hgiven] at ha
        rw [hnext]
        by_cases hname : name' = name
        · rw [hname, Function.update_self] at ha
          rcases List.mem_append.mp ha with ha | ha
          · exact h.given _ a ha
          · exact h.links l hl a ((List.mergeSort_perm ..).mem_iff.mp (List.mem_filter.mp ha).1)
        · rw [Function.update_of_ne hname] at ha
          exact h.given _ a ha

/-! ## One brok through the steps -/

variable {n : Nat} {c : Content} {t : Transit}

theorem tracked_addForAll (h : Fresh w) (hd : (w.brokers.map BrokerLink.name).Nodup)
    (hn : ∀ l ∈ w.brokers, l.name ≠ "") (c : Content) (time : Int) {u : Option String} (hu : u.filter (· ≠ "") = none) :
    Tracked w.brokers.length w.nextBrok c .start (w.step (.addBrok c time u)) := by
  obtain ⟨hnext, hmodules, hgiven, -, hbrok⟩ := step_add c time u w
  have hbrokers : (w.step (.addBrok c time u)).brokers = w.brokers.map (BrokerLink.append w.nextBrok) := by
    show (addBrok w.nextBrok u (w.newBrok c time)).brokers = _
    rw [addBrok_brokers, hu]
    rfl
  have hnot : ∀ l ∈ w.brokers, w.nextBrok ∉ l.broks := fun l hl hm => Nat.lt_irrefl _ (h.links l hl _ hm)
  constructor
  · rw [hbrokers, List.map_map]
    exact hd
  · intro l hl
    rw [hbrokers] at hl
    obtain ⟨k, hk, rfl⟩ := List.mem_map.mp hl
    exact hn k hk
  · rw [hbrokers, List.length_map]
  · rw [hnext]
    exact Nat.lt_succ_self _
  · rw [hbrok]
  · intro _
    rw [hbrok]
    rfl
  · rw [hbrok]
    intro hg
    cases hg
  · intro name hg
    cases hg
  · intro l hl
    rw [hbrokers] at hl
    obtain ⟨k, hk, rfl⟩ := List.mem_map.mp hl
    show (k.broks ++ [w.nextBrok]).count w.nextBrok = 1
    rw [List.count_append, List.count_eq_zero.mpr (hnot k hk), List.count_singleton_self]
  · intro m hm
    rw [hmodules] at hm
    rw [List.count_eq_zero.mpr fun hb => Nat.lt_irrefl _ (h.queues m hm _ hb), if_neg fun hs => nomatch hs.1]
  · intro l _
    rw [hgiven]
    exact List.count_eq_zero.mpr fun hb => Nat.lt_irrefl _ (h.given l.name _ hb)

theorem Tracked.step_add (h : Tracked n b c t w) (c' : Content) (time : Int) (u : Option String) :
    Tracked n b c t (w.step (.addBrok c' time u)) := by
  obtain ⟨hnext, hmodules, hgiven, hother, -⟩ := Broks.step_add c' time u w
  have hne : b ≠ w.nextBrok := Nat.ne_of_lt h.created
  have hnames : (w.step (.addBrok c' time u)).brokers.map BrokerLink.name = w.brokers.map BrokerLink.name :=
    addBrok_names w.nextBrok u (w.newBrok c' time)
  have hlink : ∀ l ∈ (w.step (.addBrok c' time u)).brokers, ∃ k ∈ w.brokers, l.name = k.name ∧
      l.broks.count b = k.broks.count b := by
    intro l hl
    obtain ⟨k, hk, hname, hb | hb⟩ := mem_addBrok_brokers (b := w.nextBrok) (w := w.newBrok c' time) (u := u) hl
    · exact ⟨k, hk, hname, by rw [hb]⟩
    · refine ⟨k, hk, hname, ?_⟩
      rw [hb, List.count_append, List.count_eq_zero.mpr (fun hm => hne (List.mem_singleton.mp hm)), Nat.add_zero]
  constructor
  · rw [hnames]
    exact h.names
  · intro l hl
    obtain ⟨k, hk, hname, -⟩ := hlink l hl
    rw [hname]
    exact h.named k hk
  · have hlength := congrArg List.length hnames
    rw [List.length_map, List.length_map] at hlength
    exact hlength.trans h.size
  · rw [hnext]
    exact Nat.lt_succ_of_lt h.created
  · rw [hother b hne]
    exact h.content
  · rw [hother b hne]
    exact h.sent
  · rw [hother b hne]
    exact h.got
  · exact h.asked
  · intro l hl
    obtain ⟨k, hk, hname, hcount⟩ := hlink l hl
    rw [hcount, hname]
    exact h.held k hk
  · rw [hmodules]
    exact h.put
  · intro l hl
    obtain ⟨k, hk, hname, -⟩ := hlink l hl
    rw [hgiven, hname]
    exact h.taken k hk

theorem count_unsent (h : Tracked n b c t w) (ht : t.sent = false) : w.unsent.count b = n := by
  have hcount : ∀ l ∈ w.brokers, (l.broks.filter fun b => !(w.brok b).sentToExternals).count b = 1 := by
    intro l hl
    have hpos : 0 < n := h.size ▸ List.length_pos_of_mem hl
    have hsent : (!(w.brok b).sentToExternals) = true := by rw [h.sent hpos, ht]; rfl
    rw [List.count_filter (p := fun b => !(w.brok b).sentToExternals) hsent, h.held l hl]
    cases hg : t.given l.name with
    | false => rfl
    | true => exact absurd (h.asked _ hg) (by rw [ht]; decide)
  unfold World.unsent
  rw [List.count_flatMap, ← h.size]
  have hones : w.brokers.map (List.count b ∘ fun l => l.broks.filter fun b => !(w.brok b).sentToExternals) =
      w.brokers.map fun _ => 1 := List.map_congr_left hcount
  rw [hones, List.map_const', List.sum_replicate_nat, Nat.mul_one]

theorem count_unsent_sent (h : Tracked n b c t w) (ht : t.sent = true) : w.unsent.count b = 0 := by
  refine List.count_eq_zero.mpr fun hm => ?_
  obtain ⟨l, hl, hb⟩ := List.mem_flatMap.mp hm
  have hpos : 0 < n := h.size ▸ List.length_pos_of_mem hl
  have hsent := (List.mem_filter.mp hb).2
  rw [h.sent hpos, ht] at hsent
  cases hsent

theorem Tracked.step_send (h : Tracked n b c t w) :
    Tracked n b c (t.step .sendBroksToModules) (w.step .sendBroksToModules) := by
  obtain ⟨hnext, hbrokers, hgiven, hmodules, hbrok⟩ := Broks.step_send w
  obtain ⟨hcontent, hgot, hsent⟩ := hbrok b
  constructor
  · rw [hbrokers]
    exact h.names
  · rw [hbrokers]
    exact h.named
  · rw [hbrokers]
    exact h.size
  · rw [hnext]
    exact h.created
  · rw [hcontent]
    exact h.content
  · intro hpos
    rw [hsent, h.sent hpos]
    show _ = true
    cases ht : t.sent with
    | true => rfl
    | false =>
      have hmem : b ∈ w.unsent := List.count_pos_iff.mp (by rw [count_unsent h ht]; exact hpos)
      obtain ⟨l, hl, hb⟩ := List.mem_flatMap.mp hmem
      rw [decide_eq_true (List.mem_flatMap.mpr ⟨l, hl, (List.mem_filter.mp hb).1⟩), Bool.or_true]
  · exact fun _ => rfl
  · exact fun _ _ => rfl
  · rw [hbrokers]
    exact h.held
  · intro m hm
    have hput : ∀ m ∈ w.modules, m.broks.count b + (if m.toQ.isSome ∧ m.wantBrok c then w.unsent.count b else 0) =
        if m.toQ.isSome ∧ m.wantBrok c then n else 0 := by
      intro m hm
      rw [h.put m hm]
      cases ht : t.sent with
      | true => simp only [count_unsent_sent h ht, true_and, ite_self, Nat.add_zero]
      | false => simp only [count_unsent h ht, Bool.false_eq_true, false_and, if_false, Nat.zero_add]
    rw [hmodules] at hm
    show _ = if true = true ∧ m.toQ.isSome ∧ m.wantBrok c then n else 0
    simp only [true_and]
    split at hm
    · rename_i he
      have hzero := hput m hm
      rw [he, List.count_nil, ite_self, Nat.add_zero] at hzero
      exact hzero
    · obtain ⟨m', hm', rfl⟩ := List.mem_map.mp hm
      rw [put_isSome]
      show _ = if m'.toQ.isSome ∧ m'.wantBrok c then n else 0
      rw [← hput m' hm', put_broks]
      cases hq : m'.toQ.isSome with
      | false => simp only [Bool.false_eq_true, if_false, false_and, Nat.add_zero]
      | true =>
        simp only [if_true, true_and]
        rw [List.count_append]
        congr 1
        cases hw : m'.wantBrok c with
        | true =>
          rw [if_pos rfl]
          exact List.count_filter (p := fun b => m'.wantBrok (w.brok b).content) (by rw [h.content]; exact hw)
        | false =>
          refine List.count_eq_zero.mpr fun hf => ?_
          have hwant := (List.mem_filter.mp hf).2
          rw [h.content, hw] at hwant
          cases hwant
  · rw [hbrokers, hgiven]
    exact h.taken

theorem Tracked.step_give (h : Tracked n b c t w) (name : String) :
    Tracked n b c (t.step (.giveBroks name)) (w.step (.giveBroks name)) := by
  rcases Broks.step_give name w with ⟨he, hnone⟩ | ⟨k, hk, hname, hnext, hmodules, hbrokers, hgiven, hbrok⟩
  · -- no broker has this name
    have hother : ∀ l ∈ w.brokers, (t.step (.giveBroks name)).given l.name = t.given l.name := by
      intro l hl
      refine Function.update_of_ne (fun e => ?_) ..
      rcases hnone with hnone | hnone
      · exact h.named l hl (e.trans hnone)
      · exact hnone l hl e
    rw [he]
    refine { h with asked := fun m hm => ?_, held := fun l hl => ?_, taken := fun l hl => ?_ }
    · by_cases hm' : m = name
      · subst hm'
        have hor : (t.given m || t.sent) = true := (Function.update_self ..).symm.trans hm
        rcases (Bool.or_eq_true ..).mp hor with hg | hs
        · exact h.asked m hg
        · exact hs
      · exact h.asked m ((Function.update_of_ne hm' ..).symm.trans hm)
    · rw [hother l hl]
      exact h.held l hl
    · rw [hother l hl]
      exact h.taken l hl
  · have hpos : 0 < n := h.size ▸ List.length_pos_of_mem hk
    obtain ⟨hcontent, hsent, hgot⟩ := hbrok b
    have hcount : (w.answer k).count b = if t.sent = true ∧ t.given name = false then 1 else 0 := by
      rw [count_answer, h.sent hpos, h.held k hk, hname]
      cases t.sent <;> cases t.given name <;> rfl
    have hself : (t.step (.giveBroks name)).given name = (t.given name || t.sent) := Function.update_self ..
    have hgot' : ((w.step (.giveBroks name)).brok b).got = true → t.sent = true := by
      rw [hgot, Bool.or_eq_true]
      rintro (hg | hm)
      · exact h.got hg
      · by_contra ht
        rw [if_neg fun hs => ht hs.1] at hcount
        exact List.count_eq_zero.mp hcount (of_decide_eq_true hm)
    constructor
    · rw [hbrokers, cleanLinks_names]
      exact h.names
    · intro l hl
      rw [hbrokers] at hl
      rcases mem_cleanLinks hl with hm | ⟨k', hk', -, rfl⟩
      · exact h.named l hm
      · exact h.named k' hk'
    · have hlength := congrArg List.length
        (cleanLinks_names name (fun b => ((w.step (.giveBroks name)).brok b).got) w.brokers)
      rw [List.length_map, List.length_map] at hlength
      rw [hbrokers, hlength]
      exact h.size
    · rw [hnext]
      exact h.created
    · rw [hcontent]
      exact h.content
    · rw [hsent]
      exact h.sent
    · exact hgot'
    · intro m hm
      by_cases hm' : m = name
      · subst hm'
        rw [hself, Bool.or_eq_true] at hm
        exact hm.elim (h.asked m) id
      · exact h.asked m ((Function.update_of_ne hm' ..).symm.trans hm)
    · intro l hl
      rw [hbrokers] at hl
      by_cases hl' : l.name = name
      · obtain ⟨k', hk', hn, rfl⟩ := clean_of_mem_cleanLinks h.names hl hl'
        show (k'.broks.filter _).count b = if (t.step (.giveBroks name)).given k'.name then 0 else 1
        have hheld := h.held k' hk'
        rw [hn] at hheld ⊢
        rw [hself]
        cases hg : t.given name with
        | true =>
          rw [hg, if_pos rfl] at hheld
          rw [Bool.true_or, if_pos rfl]
          exact Nat.le_zero.mp (hheld ▸ List.filter_sublist.count_le b)
        | false =>
          rw [hg, if_neg (by decide)] at hheld
          cases ht : t.sent with
          | true =>
            rw [ht, hg, if_pos ⟨rfl, rfl⟩] at hcount
            have hmem : b ∈ w.answer k := List.count_pos_iff.mp (by rw [hcount]; decide)
            refine List.count_eq_zero.mpr fun hf => ?_
            have hkeep := (List.mem_filter.mp hf).2
            rw [hgot, decide_eq_true hmem, Bool.or_true] at hkeep
            cases hkeep
          | false =>
            have hkeep : (!((w.step (.giveBroks name)).brok b).got) = true := by
              cases hg' : ((w.step (.giveBroks name)).brok b).got with
              | false => rfl
              | true => exact absurd (hgot' hg') (by rw [ht]; decide)
            rw [List.count_filter (p := fun b => !((w.step (.giveBroks name)).brok b).got) hkeep, hheld]
            rfl
      · have hother : (t.step (.giveBroks name)).given l.name = t.given l.name := Function.update_of_ne hl' ..
        rw [hother]
        rcases mem_cleanLinks hl with hm | ⟨k', -, hn, rfl⟩
        · exact h.held l hm
        · exact absurd hn hl'
    · rw [hmodules]
      exact h.put
    · intro l hl
      have hmem : l.name ∈ w.brokers.map BrokerLink.name := by
        rw [← cleanLinks_names name (fun b => ((w.step (.giveBroks name)).brok b).got) w.brokers,
          ← hbrokers]
        exact List.mem_map_of_mem hl
      obtain ⟨k', hk', hn⟩ := List.mem_map.mp hmem
      have htaken := h.taken k' hk'
      rw [hn] at htaken
      rw [hgiven]
      by_cases hl' : l.name = name
      · rw [hl'] at htaken ⊢
        rw [Function.update_self, hself, List.count_append, htaken, hcount]
        cases t.sent <;> cases t.given name <;> rfl
      · have hother : (t.step (.giveBroks name)).given l.name = t.given l.name := Function.update_of_ne hl' ..
        rw [Function.update_of_ne hl', hother]
        exact htaken

theorem Tracked.step (h : Tracked n b c t w) (ev : Event) : Tracked n b c (t.step ev) (w.step ev) := by
  cases ev with
  | addBrok c' time u => exact h.step_add c' time u
  | sendBroksToModules => exact h.step_send
  | giveBroks name => exact h.step_give name

/-! ## Runs -/

theorem World.run_append (w : World) (l l' : List Event) : w.run (l ++ l') = (w.run l).run l' := List.foldl_append

theorem Tracked.run (h : Tracked n b c t w) (events : List Event) :
    Tracked n b c (events.foldl Transit.step t) (w.run events) := by
  induction events generalizing t w with
  | nil => exact h
  | cons ev events ih => exact ih (h.step ev)

theorem Fresh.run (h : Fresh w) (events : List Event) : Fresh (w.run events) := by
  induction events generalizing w with
  | nil => exact h
  | cons ev events ih => exact ih (h.step ev)

theorem step_names (w : World) (ev : Event) :
    (w.step ev).brokers.map BrokerLink.name = w.brokers.map BrokerLink.name := by
  cases ev with
  | addBrok c time u => exact addBrok_names w.nextBrok u (w.newBrok c time)
  | sendBroksToModules => rw [(Broks.step_send w).2.1]
  | giveBroks name =>
    rcases Broks.step_give name w with ⟨he, -⟩ | ⟨-, -, -, -, -, hbrokers, -⟩
    · rw [he]
    · rw [hbrokers, cleanLinks_names]

theorem run_names (w : World) (events : List Event) :
    (w.run events).brokers.map BrokerLink.name = w.brokers.map BrokerLink.name := by
  induction events generalizing w with
  | nil => rfl
  | cons ev events ih => exact (ih (w.step ev)).trans (step_names w ev)

theorem Initial.tracked (h : Initial w) (events later : List Event) (c : Content) (time : Int) :
    Tracked w.brokers.length (w.run events).nextBrok c (transit later)
      (w.run (events ++ .addBrok c time none :: later)) := by
  have hnames := run_names w events
  have hlength := congrArg List.length hnames
  rw [List.length_map, List.length_map] at hlength
  rw [World.run_append, ← hlength]
  refine (tracked_addForAll (h.fresh.run events) (hnames ▸ h.names) (fun l hl => ?_) c time rfl).run later
  have hmem : l.name ∈ w.brokers.map BrokerLink.name := hnames ▸ List.mem_map_of_mem hl
  obtain ⟨k, hk, he⟩ := List.mem_map.mp hmem
  exact he ▸ h.named k hk

theorem step_wants (w : World) (ev : Event) :
    (w.step ev).modules.map (fun m => (m.toQ.isSome, m.wantBrok)) = w.modules.map fun m => (m.toQ.isSome, m.wantBrok) := by
  cases ev with
  | addBrok c time u => rw [(Broks.step_add c time u w).2.1]
  | sendBroksToModules =>
    rw [(Broks.step_send w).2.2.2.1]
    split
    · rfl
    · rw [List.map_map]
      exact List.map_congr_left fun m _ => Prod.ext (put_isSome m _) rfl
  | giveBroks name =>
    rcases Broks.step_give name w with ⟨he, -⟩ | ⟨-, -, -, -, hmodules, -⟩
    · rw [he]
    · rw [hmodules]

theorem run_wants (w : World) (events : List Event) :
    (w.run events).modules.map (fun m => (m.toQ.isSome, m.wantBrok)) =
      w.modules.map fun m => (m.toQ.isSome, m.wantBrok) := by
  induction events generalizing w with
  | nil => rfl
  | cons ev events ih => exact (ih (w.step ev)).trans (step_wants w ev)

theorem sent_foldl (t : Transit) (events : List Event) :
    (events.foldl Transit.step t).sent = true ↔ t.sent = true ∨ Event.sendBroksToModules ∈ events := by
  induction events generalizing t with
  | nil => simp
  | cons ev events ih =>
    rw [List.foldl_cons, ih]
    cases ev <;> simp [Transit.step]

theorem transit_sent (events : List Event) : (transit events).sent = true ↔ Event.sendBroksToModules ∈ events := by
  unfold transit
  rw [sent_foldl]
  exact or_iff_right (by decide)

/-! ## Exactly once -/

def World.Wants (w : World) (c : Content) (m : ExternalModule) : Prop :=
  m ∈ w.modules ∧ m.toQ.isSome = true ∧ m.wantBrok c = true

/-- The brok is once where the run says that it must have arrived, and no
broker has it before the modules. -/
structure ExactlyOnce (c : Content) (b : Nat) (t : Transit) (w : World) : Prop where
  put : ∀ m, w.Wants c m → m.broks.count b = if t.sent then 1 else 0
  given : ∀ l ∈ w.brokers, (w.given l.name).count b = if t.given l.name then 1 else 0
  ordered : ∀ l ∈ w.brokers, b ∈ w.given l.name → ∀ m, w.Wants c m → b ∈ m.broks

theorem run_wanted (w : World) (events : List Event) (c : Content) :
    (∃ m, (w.run events).Wants c m) ↔ ∃ m, w.Wants c m := by
  have hone : ∀ {u v : World}, u.modules.map (fun m => (m.toQ.isSome, m.wantBrok)) =
      v.modules.map (fun m => (m.toQ.isSome, m.wantBrok)) → (∃ m, u.Wants c m) → ∃ m, v.Wants c m := by
    rintro u v he ⟨m, hm, hq, hw⟩
    have hmem : (m.toQ.isSome, m.wantBrok) ∈ v.modules.map fun m => (m.toQ.isSome, m.wantBrok) :=
      he ▸ List.mem_map_of_mem hm
    obtain ⟨m', hm', hpair⟩ := List.mem_map.mp hmem
    obtain ⟨hq', hw'⟩ := Prod.mk.inj hpair
    exact ⟨m', hm', hq'.trans hq, (congrFun hw' c).trans hw⟩
  exact ⟨hone (run_wants w events), hone (run_wants w events).symm⟩

theorem exactlyOnce_iff (h : Initial w) (events later : List Event) (c : Content) (time : Int) :
    ExactlyOnce c (w.run events).nextBrok (transit later) (w.run (events ++ .addBrok c time none :: later)) ↔
      (Event.sendBroksToModules ∈ later → (∃ m, w.Wants c m) → w.brokers.length = 1) := by
  have ht := h.tracked events later c time
  have hput : ∀ m, (w.run (events ++ .addBrok c time none :: later)).Wants c m →
      m.broks.count (w.run events).nextBrok = if (transit later).sent then w.brokers.length else 0 := by
    rintro m ⟨hm, hq, hw⟩
    rw [ht.put m hm, hq, hw]
    simp only [and_self, and_true]
  rw [← transit_sent]
  constructor
  · intro hx hs hw
    obtain ⟨m, hm⟩ := (run_wanted w (events ++ .addBrok c time none :: later) c).mpr hw
    have hone := hx.put m hm
    rw [hput m hm, if_pos hs, if_pos hs] at hone
    exact hone
  · intro hone
    refine ⟨fun m hm => ?_, ht.taken, fun l hl hb m hm => ?_⟩
    · rw [hput m hm]
      split
      · rename_i hs
        exact hone hs ((run_wanted w _ c).mp ⟨m, hm⟩)
      · rfl
    · have hgiven : (transit later).given l.name = true := by
        by_contra hg
        exact List.count_eq_zero.mp ((ht.taken l hl).trans (if_neg hg)) hb
      refine List.count_pos_iff.mp ?_
      rw [hput m hm, if_pos (ht.asked _ hgiven), ← ht.size]
      exact List.length_pos_of_mem hl

end

/-! ## Two brokers -/

def brokerLink (name : String) : BrokerLink := ⟨name, name, [], false⟩

def logsModule : ExternalModule := ⟨fun c => c.type = "monitoring_log", some []⟩

def knowing (brokers : List BrokerLink) : World :=
  ⟨"scheduler-master", fun _ => ⟨⟨"", ""⟩, 0, none, false, false, false⟩, 0, brokers, [logsModule], [], 0, fun _ => []⟩

def logRaised : Content := ⟨"monitoring_log", "SERVICE ALERT"⟩

theorem initial_knowing {brokers : List BrokerLink} (hd : (brokers.map BrokerLink.name).Nodup)
    (hn : ∀ l ∈ brokers, l.name ≠ "" ∧ l.broks = []) : Initial (knowing brokers) where
  names := hd
  named l hl := (hn l hl).1
  links l hl := (hn l hl).2
  queues m hm := by rw [List.mem_singleton.mp hm]; rfl
  given _ := rfl

theorem exactlyOnce_iff_one : ExactlyOnce logRaised 0 (transit [.sendBroksToModules, .giveBroks "broker-1"])
    ((knowing [brokerLink "broker-1"]).run [.addBrok logRaised 7 none, .sendBroksToModules, .giveBroks "broker-1"]) := by
  have hinitial : Initial (knowing [brokerLink "broker-1"]) := initial_knowing (by decide) (by decide)
  exact (exactlyOnce_iff hinitial [] [.sendBroksToModules, .giveBroks "broker-1"] logRaised 7).mpr fun _ _ => rfl

/-- The brok is in the list of each of the two brokers. -/
theorem put_twice : Initial (knowing [brokerLink "broker-1", brokerLink "broker-2"]) ∧
    ¬ ExactlyOnce logRaised 0 (transit [.sendBroksToModules])
      ((knowing [brokerLink "broker-1", brokerLink "broker-2"]).run [.addBrok logRaised 7 none, .sendBroksToModules]) := by
  refine ⟨initial_knowing (by decide) (by decide), fun h => ?_⟩
  have hput := h.put ⟨logsModule.wantBrok, some [[0, 0]]⟩ ⟨List.mem_singleton.mpr rfl, rfl, rfl⟩
  exact absurd hput (by decide)

end Alignak.Broks
