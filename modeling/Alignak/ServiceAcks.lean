import Alignak.AckComments

/-!
# The acknowledgements of the services of a host

The acknowledgement of a host that is not up goes to its services that are not
OK, with its texts and its end.
-/

namespace Alignak.Scheduling

structure AckTexts where
  author : String
  comment : String
  deriving DecidableEq, Repr

structure Signed where
  world : World
  texts : Nat → AckTexts

section
variable (conf : Conf) (env : Env)

def signItem (i : Nat) (period : Option Nat) (sticky notify endTime : Int) (texts : AckTexts) (s : Signed) : Signed where
  world := acknowledgeItem conf env i period sticky notify endTime s.world
  texts := if (s.world.checkState i).state = okUp (conf.myType i) then s.texts else Function.update s.texts i texts

/-- `acknowledgeProblem`, with the texts. -/
def signProblem (i : Nat) (period : Option Nat) (sticky notify endTime : Int) (texts : AckTexts) (s : Signed) : Signed :=
  let stickyOfServices :=
    if (s.world.checkState i).state = okUp (conf.myType i) then sticky else if sticky = 2 then 1 else 0
  let s := signItem conf env i period sticky notify endTime texts s
  match conf.myType i with
  | .host => ((conf.hostServices i).filter (· ∈ conf.services)).foldl (fun s service =>
      signItem conf env service period stickyOfServices notify endTime texts s) s
  | .service => s

theorem signItems_world (period : Option Nat) (sticky notify endTime : Int) (texts : AckTexts) (l : List Nat) (s : Signed) :
    (l.foldl (fun s service => signItem conf env service period sticky notify endTime texts s) s).world =
      l.foldl (fun w service => acknowledgeItem conf env service period sticky notify endTime w) s.world := by
  induction l generalizing s with
  | nil => rfl
  | cons service l ih => exact ih _

theorem signProblem_world (i : Nat) (period : Option Nat) (sticky notify endTime : Int) (texts : AckTexts) (s : Signed) :
    (signProblem conf env i period sticky notify endTime texts s).world =
      acknowledgeProblem conf env i period sticky notify endTime s.world := by
  unfold signProblem acknowledgeProblem
  cases conf.myType i with
  | host => exact signItems_world conf env period _ notify endTime texts _ _
  | service => rfl

structure Alike (given : Signed) (i service : Nat) : Prop where
  acks : ∃ a b, (given.world.ack i).acknowledgement = some a ∧ (given.world.ack service).acknowledgement = some b ∧
    b.sticky = a.sticky ∧ b.endTime = a.endTime
  texts : given.texts service = given.texts i

def Turn.ChangesTrouble (t : Turn) (service : Nat) : Prop :=
  ∃ c, t.event = .consumeResult c ∧ (t.world.check c).ref = service ∧
    okLike .service (t.world.checkState service).state = false ∧
    okLike .service ((stateAfter (runEvent conf t.env t.event t.world)).checkState service).state = false ∧
    ((stateAfter (runEvent conf t.env t.event t.world)).checkState service).state ≠ (t.world.checkState service).state

/-- As long as the service has this acknowledgement, a change of its trouble
keeps a sticky one and drops another one. -/
def Follows (sticky : Int) (given : World) (trace : List Turn) (service : Nat) : Prop :=
  ∀ t ∈ trace, t.ChangesTrouble conf service → (t.world.ack service).acknowledgement = (given.ack service).acknowledgement →
    if sticky = 2 then
      ((stateAfter (runEvent conf t.env t.event t.world)).ack service).acknowledgement = (given.ack service).acknowledgement
    else ((stateAfter (runEvent conf t.env t.event t.world)).ack service).acknowledgement ≠ (given.ack service).acknowledgement

/-- The result finds a change that the source sees as one: no volatile service,
no state that an impact has hidden, no hard phase of unknown states. -/
def drops (w : World) (c : Nat) : Bool :=
  let i := (w.check c).ref
  let x := (resolved conf env c w).checkState i
  modulatedExitStatus conf env (w.check c) == 0 ||
    !isVolatile conf i && !okLike (conf.myType i) x.lastState && x.state != x.lastState &&
      (x.stateType == .soft || !x.updateHardUnknownPhaseState.inHardUnknownReachPhase &&
        !x.updateHardUnknownPhaseState.wasInHardUnknownReachPhase)

end

/-! ## What is given -/

theorem ack_of_still {w w' : World} (h : w'.still = w.still) : w'.ack = w.ack := by
  simp only [World.still, Prod.mk.injEq] at h
  exact h.2.2.2.2.1

section
variable (conf : Conf) (env : Env) (period : Option Nat) (sticky notify endTime : Int) (texts : AckTexts) {w : World} {i j : Nat}

theorem acknowledgeItem_ack (h : (w.checkState i).state ≠ okUp (conf.myType i)) :
    ∃ n, ((acknowledgeItem conf env i period sticky notify endTime w).ack i).acknowledgement = some ⟨sticky == 2, endTime, n⟩ := by
  unfold acknowledgeItem
  rw [if_neg h]
  simp only [World.modifyAck_self]
  exact ⟨_, rfl⟩

theorem acknowledgeItem_ack_ne (h : j ≠ i) : (acknowledgeItem conf env i period sticky notify endTime w).ack j = w.ack j := by
  unfold acknowledgeItem
  split
  · rfl
  · have hdel : (if (w.ack i).problemHasBeenAcknowledged then delAckComment i w else w).ack = w.ack := by
      unfold delAckComment
      split
      · split <;> rfl
      · rfl
    simp only
    rw [World.modifyAck_ne _ h]
    split
    · exact congrFun ((ack_of_still (createNotifications_still ..)).trans hdel) j
    · exact congrFun hdel j

theorem signItem_checkState (s : Signed) : (signItem conf env i period sticky notify endTime texts s).world.checkState = s.world.checkState :=
  (World.quiet_eq (acknowledgeItem_quiet i s.world period sticky notify endTime)).2.1

theorem signItem_other (h : j ≠ i) (s : Signed) :
    (signItem conf env i period sticky notify endTime texts s).world.ack j = s.world.ack j ∧
      (signItem conf env i period sticky notify endTime texts s).texts j = s.texts j := by
  refine ⟨acknowledgeItem_ack_ne conf env period sticky notify endTime h, ?_⟩
  unfold signItem
  simp only
  split
  · rfl
  · exact Function.update_of_ne h _ _

section
variable {l : List Nat}

theorem signItems_other (h : j ∉ l) (s : Signed) :
    let s' := l.foldl (fun s service => signItem conf env service period sticky notify endTime texts s) s
    s'.world.ack j = s.world.ack j ∧ s'.texts j = s.texts j := by
  induction l generalizing s with
  | nil => exact ⟨rfl, rfl⟩
  | cons service l ih =>
    obtain ⟨hne, hl⟩ := not_or.mp (h ∘ List.mem_cons.mpr)
    obtain ⟨hack, htexts⟩ := ih hl (signItem conf env service period sticky notify endTime texts s)
    obtain ⟨hack', htexts'⟩ := signItem_other conf env period sticky notify endTime texts hne s
    exact ⟨hack.trans hack', htexts.trans htexts'⟩

theorem signItems_ack (hj : j ∈ l) (s : Signed) (h : (s.world.checkState j).state ≠ okUp (conf.myType j)) :
    let s' := l.foldl (fun s service => signItem conf env service period sticky notify endTime texts s) s
    ∃ n, (s'.world.ack j).acknowledgement = some ⟨sticky == 2, endTime, n⟩ ∧ s'.texts j = texts := by
  induction l generalizing s with
  | nil => exact absurd hj List.not_mem_nil
  | cons service l ih =>
    by_cases hl : j ∈ l
    · exact ih hl _ (by rwa [signItem_checkState])
    · obtain rfl := (List.mem_cons.mp hj).resolve_right hl
      obtain ⟨hack, htexts⟩ := signItems_other conf env period sticky notify endTime texts hl
        (signItem conf env j period sticky notify endTime texts s)
      obtain ⟨n, hn⟩ := acknowledgeItem_ack conf env period sticky notify endTime h
      refine ⟨n, (congrArg AckState.acknowledgement hack).trans hn, htexts.trans ?_⟩
      unfold signItem
      simp only
      rw [if_neg h, Function.update_self]

end

theorem signProblem_acks (hi : i ∈ conf.hosts) (s : Signed) (h : (s.world.checkState i).state ≠ .up) :
    let given := signProblem conf env i period sticky notify endTime texts s
    (∃ n, (given.world.ack i).acknowledgement = some ⟨sticky == 2, endTime, n⟩ ∧ given.texts i = texts) ∧
    ∀ service ∈ conf.hostServices i, service ∈ conf.services → (s.world.checkState service).state ≠ .ok →
      ∃ n, (given.world.ack service).acknowledgement = some ⟨false, endTime, n⟩ ∧ given.texts service = texts := by
  have htype : conf.myType i = .host := if_pos hi
  have hservice : ∀ j ∈ conf.services, j ∉ conf.hosts := fun j hj hh =>
    (List.nodup_append.mp conf.nodup).2.2 j hh j hj rfl
  have hstate : (s.world.checkState i).state ≠ okUp (conf.myType i) := by rwa [htype]
  have hout : i ∉ (conf.hostServices i).filter (· ∈ conf.services) := fun hm =>
    hservice i (of_decide_eq_true (List.mem_filter.mp hm).2) hi
  have hstart : (signItem conf env i period sticky notify endTime texts s).texts i = texts := by
    unfold signItem
    simp only
    rw [if_neg hstate, Function.update_self]
  intro given
  have hgiven : given = ((conf.hostServices i).filter (· ∈ conf.services)).foldl (fun s service =>
      signItem conf env service period (if sticky = 2 then 1 else 0) notify endTime texts s)
      (signItem conf env i period sticky notify endTime texts s) := by
    have hsticky : (if (s.world.checkState i).state = okUp (conf.myType i) then sticky else if sticky = 2 then 1 else 0) =
        if sticky = 2 then 1 else 0 := if_neg hstate
    simp only [given, signProblem, htype] at hsticky ⊢
    rw [hsticky]
  refine ⟨?_, fun service hs hserv hok => ?_⟩
  · obtain ⟨n, hn⟩ := acknowledgeItem_ack conf env period sticky notify endTime hstate
    obtain ⟨hack, htexts⟩ := signItems_other conf env period (if sticky = 2 then 1 else 0) notify endTime texts hout
      (signItem conf env i period sticky notify endTime texts s)
    rw [hgiven]
    exact ⟨n, (congrArg AckState.acknowledgement hack).trans hn, htexts.trans hstart⟩
  · have hmem : service ∈ (conf.hostServices i).filter (· ∈ conf.services) := List.mem_filter.mpr ⟨hs, decide_eq_true hserv⟩
    have hservicetype : conf.myType service = .service := if_neg (hservice service hserv)
    obtain ⟨n, hn, htexts⟩ := signItems_ack conf env period (if sticky = 2 then 1 else 0) notify endTime texts hmem
      (signItem conf env i period sticky notify endTime texts s) (by rwa [signItem_checkState, hservicetype])
    have hfalse : ((if sticky = 2 then 1 else 0 : Int) == 2) = false := by
      split <;> rfl
    rw [hgiven]
    exact ⟨n, hfalse ▸ hn, htexts⟩

end

/-! ## What a result drops -/

section
variable {conf : Conf} {env : Env} {r u : World} {i k : Nat} {b : Acknowledge} {chk : Check} {enable : Bool}

theorem unacknowledge_moves (conf : Conf) (i : Nat) (r : World) :
    Ledger.Moves Acknowledge.commentId (Troubled conf r) False (fun _ _ => False) r.ledger (unacknowledgeProblem i r).ledger :=
  (unacknowledgeProblem_noted (.refl r)).moves

theorem attended_ne (hs : r.ledger.Sound Acknowledge.commentId) (ha : (r.ack i).acknowledgement = some b)
    (hu : Attended conf (unacknowledgeProblem i r) u) : (u.ack i).acknowledgement ≠ some b := by
  intro hb
  have hm := unacknowledge_moves conf i r
  have hnext := (Ledger.since_of_moves hs hm).next
  have hlt := hs.marked (i := i) (a := b) ha
  rcases (Ledger.since_of_moves (hs.moves hm) hu.moves).mark (i := i) (a := b) hb with h | ⟨h, -⟩
  · exact absurd ((unacknowledgeProblem_none hs).symm.trans h) (by simp)
  · omega

theorem attended_unacknowledged (hs : r.ledger.Sound Acknowledge.commentId) (hseen : ∀ j, j ≠ i → Seen conf r j) :
    Attended conf (unacknowledgeProblem i r) (unacknowledgeProblem i r) := by
  refine ⟨.refl, fun j => ?_⟩
  by_cases hj : j = i
  · subst hj
    exact fun ha => absurd (unacknowledgeProblem_none hs) ha
  · exact (hseen j hj).noted hs (unacknowledgeProblem_noted (.refl r) : Noted conf False (fun _ _ => False) r _)

theorem unacknowledgeIfNotSticky_eq (ha : (r.ack i).acknowledgement = some b) (hb : b.sticky = false) :
    unacknowledgeProblemIfNotSticky i r = unacknowledgeProblem i r := by
  unfold unacknowledgeProblemIfNotSticky
  rw [ha]
  simp only [hb, Bool.false_eq_true, if_false]

theorem kept_unacknowledged (conf : Conf) (env : Env) (i : Nat) (hs : r.ledger.Sound Acknowledge.commentId) :
    KeptByMoves conf env (Attended conf (unacknowledgeProblem i r)) (fun _ => True) i :=
  attended_kept (hs.moves (unacknowledge_moves conf i r)) i

section
variable (hs : r.ledger.Sound Acknowledge.commentId) (ha : (r.ack i).acknowledgement = some b)
  (hseen : ∀ j, j ≠ i → Seen conf r j)
include hs ha hseen

theorem changeState_ok (he : chk.exitStatus = 0) :
    ((stateAfter (changeState conf env i chk enable r)).ack i).acknowledgement ≠ some b := by
  have hleads : Leads (· = r) (changeState conf env i chk enable) (Attended conf (unacknowledgeProblem i r)) :=
    (kept_unacknowledged conf env i hs).changeStateFrom (fun _ u hu => by rw [hu]; exact attended_unacknowledged hs hseen)
      fun h => absurd he h
  exact attended_ne hs ha (hleads r rfl).1

variable (hb : b.sticky = false)
include hb

theorem fromSoftNonOk_drops (hne : (r.checkState i).state ≠ (r.checkState i).lastState) :
    ((stateAfter (fromSoftNonOk conf env i chk enable r)).ack i).acknowledgement ≠ some b := by
  have hattempt : (addAttempt i chk r).ledger = r.ledger ∧ (addAttempt i chk r).ack = r.ack ∧
      ((addAttempt i chk r).checkState i).state ≠ ((addAttempt i chk r).checkState i).lastState ∧
      ∀ j, ((addAttempt i chk r).checkState j).outcome = (r.checkState j).outcome := by
    unfold addAttempt
    split
    · exact ⟨rfl, rfl, hne, fun _ => rfl⟩
    · refine ⟨rfl, rfl, ?_, fun j => ?_⟩
      · rwa [World.modifyCheckState_self]
      · by_cases hj : j = i
        · subst hj
          rw [World.modifyCheckState_self]
          rfl
        · rw [World.modifyCheckState_ne _ hj]
  obtain ⟨hledger, hack, hchanged, houtcome⟩ := hattempt
  have hs' : (addAttempt i chk r).ledger.Sound Acknowledge.commentId := hledger ▸ hs
  have ha' : ((addAttempt i chk r).ack i).acknowledgement = some b := by rwa [hack]
  have hrun : fromSoftNonOk conf env i chk enable r =
      (get >>= fun w => if isMaxAttempts w i then enterHardProblem conf env i enable else pure ⟨⟩ : Sched Unit)
        (unacknowledgeProblem i (addAttempt i chk r)) := by
    unfold fromSoftNonOk
    rw [modify_bind, modify_bind, if_pos hchanged, unacknowledgeIfNotSticky_eq ha' hb]
  have hkeeps : Keeps (Attended conf (unacknowledgeProblem i (addAttempt i chk r)))
      (get >>= fun w => if isMaxAttempts w i then enterHardProblem conf env i enable else pure ⟨⟩ : Sched Unit) :=
    Keeps.read fun w => Keeps.ite (fun _ => (kept_unacknowledged conf env i hs').enterHard) fun _ => Keeps.pure _
  have hstart : Attended conf (unacknowledgeProblem i (addAttempt i chk r)) (unacknowledgeProblem i (addAttempt i chk r)) := by
    refine attended_unacknowledged hs' fun j hj => (hseen j hj).congr (fun h => ?_) (houtcome j)
    rwa [hack] at h
  rw [hrun]
  exact attended_ne hs' ha' (hkeeps _ hstart).1

theorem fromHardNonOk_drops (hne : (r.checkState i).state ≠ (r.checkState i).lastState)
    (hphase : (r.checkState i).updateHardUnknownPhaseState.inHardUnknownReachPhase = false ∧
      (r.checkState i).updateHardUnknownPhaseState.wasInHardUnknownReachPhase = false) :
    ((stateAfter (fromHardNonOk conf env i enable r)).ack i).acknowledgement ≠ some b := by
  generalize hr' : r.modifyCheckState i (fun x => x.updateHardUnknownPhaseState) = r'
  have hs' : r'.ledger.Sound Acknowledge.commentId := hr' ▸ hs
  have ha' : (r'.ack i).acknowledgement = some b := hr' ▸ ha
  have hseen' : ∀ j, j ≠ i → Seen conf r' j := by
    intro j hj
    subst hr'
    exact (hseen j hj).congr id (by rw [World.modifyCheckState_ne _ hj])
  have hnotify : notifyHardNonOk conf env i enable r = raiseAgain conf env i .problem enable (unacknowledgeProblem i r') := by
    unfold notifyHardNonOk
    rw [if_pos hne]
    simp only [hr']
    rw [if_pos, unacknowledgeIfNotSticky_eq ha' hb]
    subst hr'
    rw [World.modifyCheckState_self, hphase.1, hphase.2]
    exact ⟨rfl, rfl⟩
  have hk := kept_unacknowledged conf env i hs'
  have hstart : Attended conf (unacknowledgeProblem i r') (notifyHardNonOk conf env i enable r) := by
    rw [hnotify]
    exact hk.still _ _ (raiseAgain_still _ _ _) (attended_unacknowledged hs' hseen')
  have hkeeps : Keeps (Attended conf (unacknowledgeProblem i r')) (guarded enable (setMyselfAsProblem conf env i) >>= fun _ =>
      modify fun w => if enable ∧ (w.settings i).notificationsEnabled ∧ (w.alert i).currentNotificationNumber = 0 then
        raiseAgain conf env i .problem true w else w : Sched Unit) := by
    refine Keeps.bind (Keeps.guarded fun _ => hk.problem) fun _ => hk.modifyStill fun u => ?_
    split
    · exact raiseAgain_still _ _ u
    · rfl
  unfold fromHardNonOk
  rw [modify_bind]
  exact attended_ne hs' ha' (hkeeps _ hstart).1

theorem changeState_drops (h : chk.exitStatus = 0 ∨ isVolatile conf i = false ∧ wasOk conf r i = false ∧
    (r.checkState i).state ≠ (r.checkState i).lastState ∧ ((r.checkState i).stateType = .soft ∨
      (r.checkState i).updateHardUnknownPhaseState.inHardUnknownReachPhase = false ∧
      (r.checkState i).updateHardUnknownPhaseState.wasInHardUnknownReachPhase = false)) :
    ((stateAfter (changeState conf env i chk enable r)).ack i).acknowledgement ≠ some b := by
  by_cases he : chk.exitStatus = 0
  · exact changeState_ok hs ha hseen he
  · obtain ⟨hvolatile, hok, hne, htype⟩ := h.resolve_left he
    unfold changeState
    rw [get_bind, if_neg he, if_neg (by rw [hvolatile]; decide), if_neg (by rw [hok]; decide)]
    by_cases hsoft : (r.checkState i).stateType = .soft
    · rw [if_pos hsoft]
      exact fromSoftNonOk_drops hs ha hseen hb hne
    · rw [if_neg hsoft]
      exact fromHardNonOk_drops hs ha hseen hb hne (htype.resolve_left hsoft)

end

theorem drops_iff {w : World} : drops conf env w k = true ↔ modulatedExitStatus conf env (w.check k) = 0 ∨
    isVolatile conf (w.check k).ref = false ∧ wasOk conf (resolved conf env k w) (w.check k).ref = false ∧
      ((resolved conf env k w).checkState (w.check k).ref).state ≠ ((resolved conf env k w).checkState (w.check k).ref).lastState ∧
      (((resolved conf env k w).checkState (w.check k).ref).stateType = .soft ∨
        ((resolved conf env k w).checkState (w.check k).ref).updateHardUnknownPhaseState.inHardUnknownReachPhase = false ∧
        ((resolved conf env k w).checkState (w.check k).ref).updateHardUnknownPhaseState.wasInHardUnknownReachPhase = false) := by
  simp [drops, wasOk, and_assoc]

theorem consumeResult_drops {w : World} (hs : w.ledger.Sound Acknowledge.commentId) (hseen : ∀ j, Seen conf w j)
    (hm : mustWait conf w k = false) (hd : drops conf env w k = true) (hb : b.sticky = false)
    (ha : (w.ack (w.check k).ref).acknowledgement = some b) :
    ((stateAfter (consumeResult conf env k w)).ack (w.check k).ref).acknowledgement ≠ some b := by
  have hledger := resolved_ledger conf env k w
  have ha' : ((resolved conf env k w).ack (w.check k).ref).acknowledgement = some b :=
    (congrFun (congrArg Ledger.mark hledger) _).trans ha
  have hchange : ((stateAfter (changeState conf env (w.check k).ref (takenCheck conf env w k)
      (enableAction conf (updateItemInformation conf env k w) k) (resolved conf env k w))).ack (w.check k).ref).acknowledgement ≠ some b :=
    changeState_drops (hledger ▸ hs) ha' (fun j hj => (hseen j).resolvedOther hj) hb (drops_iff.mp hd)
  refine leads_consumption (I := (· = resolved conf env k w))
    (J := fun u => (u.ack (w.check k).ref).acknowledgement ≠ some b) hm (fun u hu => ?_) (fun u hu e => hu ?_) rfl
  · subst hu
    exact ⟨hchange, fun _ _ _ => trivial⟩
  · exact (congrFun (congrArg Ledger.mark (closeConsumption_ledger (w.check k).ref u)) _).symm.trans e

end

/-! ## Runs -/

section
variable {conf : Conf} {env : Env} {w w' w₀ : World} {ev : Event} {trace : List Turn}

structure Orderly (conf : Conf) (w : World) : Prop where
  sound : w.ledger.Sound Acknowledge.commentId
  seen : ∀ i, Seen conf w i

theorem Orderly.step (h : Orderly conf w) (hs : Step conf env w ev w') : Orderly conf w' := by
  have hh := event_handled env ev h.sound h.seen
  rw [← hs.after] at hh
  exact ⟨h.sound.moves hh.moves, hh.seen⟩

theorem Reachable.orderly (h : Reachable conf w) : Orderly conf w := by
  obtain ⟨w₀, trace, h0, hr⟩ := h
  have hrec := hr.recorded h0
  exact ⟨hrec.sound, hrec.seen⟩

theorem Run.orderly (hr : Run conf w₀ trace w) (h0 : Orderly conf w₀) : Orderly conf w ∧ ∀ t ∈ trace, Orderly conf t.world := by
  induction hr with
  | nil => exact ⟨h0, fun t ht => absurd ht List.not_mem_nil⟩
  | snoc _ hs ih =>
    refine ⟨ih.1.step hs, fun t ht => ?_⟩
    rcases List.mem_append.mp ht with ht | ht
    · exact ih.2 t ht
    · rw [List.mem_singleton.mp ht]
      exact ih.1

/-- Every later change of the trouble of the service is one that the source sees. -/
def Found (conf : Conf) (trace : List Turn) (service : Nat) : Prop :=
  ∀ t ∈ trace, t.ChangesTrouble conf service → ∀ c, t.event = .consumeResult c → drops conf t.env t.world c = true

theorem ChangesTrouble.taken {t : Turn} {service c : Nat} (h : t.ChangesTrouble conf service) (hc : t.event = .consumeResult c) :
    (t.world.check c).ref = service ∧ mustWait conf t.world c = false := by
  obtain ⟨c', hc', href, -, -, hne⟩ := h
  cases hc.symm.trans hc'
  refine ⟨href, ?_⟩
  by_contra hm
  apply hne
  have hwait : consumeResult conf t.env c t.world = .ok ⟨⟩ (t.world.setCheck c { t.world.check c with status := .waitDepend }) := by
    unfold consumeResult
    rw [get_bind, if_pos (by simpa using hm)]
    rfl
  rw [hc]
  show ((stateAfter (consumeResult conf t.env c t.world)).checkState service).state = _
  rw [hwait]
  rfl

theorem follows_of_found {given : World} {service : Nat} {sticky : Int} {b : Acknowledge} (hr : Run conf given trace w)
    (h0 : Orderly conf given) (ha : (given.ack service).acknowledgement = some b) (hb : b.sticky = false) (hsticky : sticky ≠ 2)
    (hfound : Found conf trace service) : Follows conf sticky given trace service := by
  intro t ht hchange hgiven
  rw [if_neg hsticky]
  obtain ⟨c, hc, -⟩ := id hchange
  obtain ⟨href, hm⟩ := ChangesTrouble.taken hchange hc
  have horderly := (hr.orderly h0).2 t ht
  subst href
  rw [ha] at hgiven ⊢
  rw [hc]
  exact consumeResult_drops horderly.sound horderly.seen hm (hfound t ht hchange c hc) hb hgiven

/-- The services that are in trouble have the acknowledgement of their host, and it
follows their changes, exactly where it is not asked as sticky, as far as the
source finds these changes; and where no service is in trouble. -/
theorem services_acknowledged_alike {i : Nat} {sticky notify endTime : Int} {texts : AckTexts} {old : Nat → AckTexts}
    (hw : Reachable conf w) (hi : i ∈ conf.hosts) (hdown : (w.checkState i).state ≠ .up)
    (hr : Run conf (signProblem conf env i (w.settings i).notificationPeriod sticky notify endTime texts ⟨w, old⟩).world trace w') :
    let given := signProblem conf env i (w.settings i).notificationPeriod sticky notify endTime texts ⟨w, old⟩
    let InTrouble := fun service => service ∈ conf.hostServices i ∧ service ∈ conf.services ∧ (w.checkState service).state ≠ .ok
    ((∀ service, InTrouble service → Alike given i service) ↔ (sticky ≠ 2 ∨ ∀ service, ¬ InTrouble service)) ∧
    ((sticky ≠ 2 ∧ ∀ service, InTrouble service → Found conf trace service) ∨ (∀ service, ¬ InTrouble service) →
      ∀ service, InTrouble service → Alike given i service ∧ Follows conf sticky given.world trace service) := by
  intro given InTrouble
  obtain ⟨⟨n, hhost, hhosttexts⟩, hservices⟩ := signProblem_acks conf env (w.settings i).notificationPeriod sticky notify endTime texts hi
    ⟨w, old⟩ hdown
  have halike : sticky ≠ 2 → ∀ service, InTrouble service → Alike given i service := by
    rintro hsticky service ⟨hs, hserv, hok⟩
    obtain ⟨m, hack, htexts⟩ := hservices service hs hserv hok
    refine ⟨⟨_, _, hhost, hack, ?_, rfl⟩, htexts.trans hhosttexts.symm⟩
    exact (beq_eq_false_iff_ne.mpr hsticky).symm
  have horderly : Orderly conf given.world := by
    have hstep : Step conf env w (.command (.acknowledgeProblem i sticky notify endTime)) given.world := by
      refine .returned trivial ?_
      rw [signProblem_world]
      rfl
    exact hw.orderly.step hstep
  refine ⟨⟨fun h => ?_, fun h => ?_⟩, fun h => ?_⟩
  · by_contra hne
    simp only [not_or, not_not, not_forall] at hne
    obtain ⟨hsticky, service, htrouble⟩ := hne
    obtain ⟨⟨a, b, ha, hb, hsame, -⟩, -⟩ := h service htrouble
    obtain ⟨m, hack, -⟩ := hservices service htrouble.1 htrouble.2.1 htrouble.2.2
    cases hhost.symm.trans ha
    cases hack.symm.trans hb
    rw [hsticky] at hsame
    cases hsame
  · rcases h with hsticky | hnone
    · exact halike hsticky
    · exact fun service htrouble => absurd htrouble (hnone service)
  · rcases h with ⟨hsticky, hfound⟩ | hnone
    · rintro service ⟨hs, hserv, hok⟩
      obtain ⟨m, hack, -⟩ := hservices service hs hserv hok
      exact ⟨halike hsticky service ⟨hs, hserv, hok⟩,
        follows_of_found hr horderly hack rfl hsticky (hfound service ⟨hs, hserv, hok⟩)⟩
    · exact fun service htrouble => absurd htrouble (hnone service)

end

theorem hostAndService_nodup : ([0] ++ [1] : List Nat).Nodup := by decide

def hostAndService : Conf where
  hosts := [0]
  services := [1]
  nodup := hostAndService_nodup
  host := fun _ => 0
  hostServices := fun _ => [1]
  actDependOf := fun _ => []
  actDependOfMe := fun _ => []
  isVolatile := fun _ => false
  resultmodulations := fun _ => []
  enableProblemImpactsStatesChange := false

def pendingWorld : World := { startWorld with checkState := fun _ => {} }

theorem pendingWorld_initial : Initial pendingWorld := { startWorld_initial with checkState := fun _ => ⟨.pending, 0, rfl⟩ }

def bothInTrouble : List (Env × Event) :=
  [(plainEnv 10, .receiveResult 0 ⟨0, .scheduled, 2, 10, false, false, []⟩), (plainEnv 10, .consumeResult 0),
    (plainEnv 11, .receiveResult 1 ⟨1, .scheduled, 1, 11, false, false, []⟩), (plainEnv 11, .consumeResult 1)]

def troubledWorld : World := worldAfter hostAndService pendingWorld bothInTrouble

theorem troubledWorld_reachable : Reachable hostAndService troubledWorld :=
  ⟨pendingWorld, _, pendingWorld_initial,
    run_of_executes hostAndService (show executes hostAndService pendingWorld bothInTrouble = true by decide)⟩

def acknowledged (sticky : Int) : Signed :=
  signProblem hostAndService (plainEnv 20) 0 (troubledWorld.settings 0).notificationPeriod sticky 0 0 ⟨"admin", "seen"⟩
    ⟨troubledWorld, fun _ => ⟨"", ""⟩⟩

def gettingWorse : List (Env × Event) :=
  [(plainEnv 30, .receiveResult 1 ⟨1, .scheduled, 2, 30, false, false, []⟩), (plainEnv 30, .consumeResult 1)]

/-- The acknowledgement of the service is not sticky where the one of the host is, and
goes when the warning becomes critical. -/
theorem service_not_sticky : Reachable hostAndService troubledWorld ∧ (troubledWorld.checkState 0).state = .down ∧
    (troubledWorld.checkState 1).state = .warning ∧ ¬ Alike (acknowledged 2) 0 1 ∧
    Run hostAndService (acknowledged 2).world (turns hostAndService (acknowledged 2).world gettingWorse)
      (worldAfter hostAndService (acknowledged 2).world gettingWorse) ∧
    ((acknowledged 2).world.ack 1).acknowledgement ≠ none ∧
    ((worldAfter hostAndService (acknowledged 2).world gettingWorse).checkState 1).state = .critical ∧
    ((worldAfter hostAndService (acknowledged 2).world gettingWorse).ack 1).acknowledgement = none := by
  refine ⟨troubledWorld_reachable, by decide, by decide, ?_,
    run_of_executes hostAndService (show executes hostAndService (acknowledged 2).world gettingWorse = true by decide),
    by decide, by decide, by decide⟩
  rintro ⟨⟨a, b, ha, hb, hsame, -⟩, -⟩
  have hhost : ((acknowledged 2).world.ack 0).acknowledgement = some ⟨true, 0, 0⟩ := by decide
  have hservice : ((acknowledged 2).world.ack 1).acknowledgement = some ⟨false, 0, 1⟩ := by decide
  cases hhost.symm.trans ha
  cases hservice.symm.trans hb
  cases hsame

/-- Not asked as sticky, it is the same, and goes at the change. -/
theorem service_acknowledged : Alike (acknowledged 1) 0 1 ∧
    Follows hostAndService 1 (acknowledged 1).world (turns hostAndService (acknowledged 1).world gettingWorse) 1 := by
  have hrun : Run hostAndService (acknowledged 1).world (turns hostAndService (acknowledged 1).world gettingWorse)
      (worldAfter hostAndService (acknowledged 1).world gettingWorse) :=
    run_of_executes hostAndService (show executes hostAndService (acknowledged 1).world gettingWorse = true by decide)
  have htrouble : (troubledWorld.checkState 1).state ≠ .ok := by decide
  have hall := services_acknowledged_alike troubledWorld_reachable (by decide) (by decide) hrun
  refine hall.2 (Or.inl ⟨by decide, fun service htrouble => ?_⟩) 1 ⟨List.mem_singleton.mpr rfl, List.mem_singleton.mpr rfl, htrouble⟩
  intro t ht hchange c hc
  rcases List.mem_cons.mp ht with rfl | ht
  · cases hc
  · obtain rfl := List.mem_singleton.mp ht
    cases hc
    show drops hostAndService (plainEnv 30) _ 1 = true
    decide

end Alignak.Scheduling
