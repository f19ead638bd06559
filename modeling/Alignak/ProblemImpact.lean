import Alignak.Effect
import Alignak.SchedulingItem

/-!
# Problems and their impacts

An item in a hard non-OK state registers as a problem in each item that depends
on it, through the dependencies that match, and unregisters when it recovers.
-/

namespace Alignak.Scheduling

structure ImpactLink where
  item : Nat
  status : Criterion
  period : Option Nat

def Conf.impactLinks (conf : Conf) (i : Nat) : List ImpactLink :=
  (conf.actDependOfMe i).flatMap fun dep => dep.status.map fun stat => ⟨dep.item, stat, dep.period⟩

section
variable (conf : Conf) (env : Env)

def impacts (w : World) (i : Nat) (l : ImpactLink) : Bool :=
  isState (conf.myType i) (w.checkState i).state l.status && env.periodValid l.period env.now

def unregisterAProblem (prob i : Nat) : Sched Unit := do
  let p := (← get).problem i
  if prob ∈ p.sourceProblems then
    let sourceProblems := p.sourceProblems.erase prob
    modify fun w => w.modifyProblem i fun p => { p with sourceProblems := sourceProblems }
    if sourceProblems = [] then
      modify fun w => (w.modifyProblem i fun p => { p with isImpact := false }).modifyCheckState i fun c => c.unsetImpactState conf
  else throw .valueError

def noMoreAProblem (i : Nat) : Sched Unit := do
  let p := (← get).problem i
  if p.isProblem then
    modify fun w => w.modifyProblem i fun p => { p with isProblem := false }
    p.impacts.forM fun j => unregisterAProblem conf i j
    modify fun w => w.modifyProblem i fun p => { p with impacts := [] }

def becomeImpact (prob i : Nat) : Sched Unit := do
  let p := (← get).problem i
  modify fun w => w.modifyProblem i fun p => { p with isImpact := true }
  guarded p.isProblem (noMoreAProblem conf i)
  guarded (!p.isImpact) (modify fun w => w.modifyCheckState i fun c => c.setImpactState conf env.now)
  modify fun w => w.modifyProblem i fun p =>
    if prob ∈ p.sourceProblems then p else { p with sourceProblems := p.sourceProblems ++ [prob] }

/-- The items that `prob` impacts through this one. -/
def registerAProblem (prob : Nat) : Nat → Nat → Sched (List Nat)
  | 0, _ => throw .diverges
  | fuel + 1, i => do
    if prob ∈ ((← get).problem i).sourceProblems then return []
    becomeImpact conf env prob i
    (conf.impactLinks i).foldlM (fun found l => do
      if impacts conf env (← get) i l then
        return found ++ (← registerAProblem prob fuel l.item)
      else return found) [i]

def Conf.recursionLimit (conf : Conf) : Nat := conf.allMyHostsAndServices.length + 1

def setMyselfAsProblem (i : Nat) : Sched Unit := do
  modify fun w => w.modifyProblem i fun p => { p with isProblem := true }
  let before := ((← get).problem i).impacts
  let found ← (conf.impactLinks i).foldlM (fun found l => do
    if impacts conf env (← get) i l then
      return found ++ (← registerAProblem conf env i conf.recursionLimit l.item)
    else return found) before
  modify fun w => w.modifyProblem i fun p =>
    if found ⊆ p.impacts ∧ p.impacts ⊆ found then p else { p with impacts := found.dedup }

end

/-! ## What they keep -/

section
variable {conf : Conf} {env : Env} {I : World → Prop}

variable {E : Exn → Prop}

structure KeptByImpacts (conf : Conf) (I : World → Prop) : Prop where
  problem : ∀ s j f, I s → I (s.modifyProblem j f)
  set : ∀ s j now, I s → I (s.modifyCheckState j fun c => c.setImpactState conf now)
  unset : ∀ s j, I s → I (s.modifyCheckState j fun c => c.unsetImpactState conf)

namespace KeptByImpacts

theorem unregister (h : KeptByImpacts conf I) (prob i : Nat) (hv : E .valueError := by trivial) :
    Keeps I (unregisterAProblem conf prob i) E := by
  refine Keeps.read fun w => Keeps.ite (fun _ => ?_) fun _ => Keeps.throw hv
  refine Keeps.bind (Keeps.modify fun s hs => h.problem s i _ hs) fun _ => ?_
  exact Keeps.ite (fun _ => Keeps.modify fun s hs => h.unset _ i (h.problem s i _ hs)) fun _ => Keeps.pure _

theorem noMore (h : KeptByImpacts conf I) (i : Nat) (hv : E .valueError := by trivial) : Keeps I (noMoreAProblem conf i) E := by
  refine Keeps.read fun w => Keeps.ite (fun _ => ?_) fun _ => Keeps.pure _
  refine Keeps.bind (Keeps.modify fun s hs => h.problem s i _ hs) fun _ => ?_
  refine Keeps.bind (Keeps.forM fun j _ => h.unregister i j hv) fun _ => ?_
  exact Keeps.modify fun s hs => h.problem s i _ hs

theorem become (h : KeptByImpacts conf I) (prob i : Nat) (hv : E .valueError := by trivial) :
    Keeps I (becomeImpact conf env prob i) E := by
  refine Keeps.read fun w => Keeps.bind (Keeps.modify fun s hs => h.problem s i _ hs) fun _ => ?_
  refine Keeps.bind (Keeps.guarded fun _ => h.noMore i hv) fun _ => ?_
  refine Keeps.bind (Keeps.guarded fun _ => Keeps.modify fun s hs => h.set s i env.now hs) fun _ => ?_
  exact Keeps.modify fun s hs => h.problem s i _ hs

theorem register (h : KeptByImpacts conf I) (hv : E .valueError) (hd : E .diverges) (prob : Nat) :
    ∀ fuel i, Keeps I (registerAProblem conf env prob fuel i) E
  | 0, _ => Keeps.throw hd
  | fuel + 1, i => by
    unfold registerAProblem
    refine Keeps.read fun w => Keeps.ite (fun _ => Keeps.pure _) fun _ => Keeps.bind (h.become prob i hv) fun _ => ?_
    refine Keeps.foldlM fun found l _ => Keeps.read fun w => Keeps.ite (fun _ => ?_) fun _ => Keeps.pure _
    exact Keeps.bind (h.register hv hd prob fuel l.item) fun _ => Keeps.pure _

theorem setMyself (h : KeptByImpacts conf I) (i : Nat) (hv : E .valueError := by trivial) (hd : E .diverges := by trivial) :
    Keeps I (setMyselfAsProblem conf env i) E := by
  refine Keeps.bind (Keeps.modify fun s hs => h.problem s i _ hs) fun _ => Keeps.read fun w => ?_
  refine Keeps.bind (Keeps.foldlM fun found l _ => Keeps.read fun w => Keeps.ite (fun _ => ?_) fun _ => Keeps.pure _)
    fun found => Keeps.modify fun s hs => h.problem s i _ hs
  exact Keeps.bind (h.register hv hd i _ l.item) fun _ => Keeps.pure _

end KeptByImpacts

def World.aside (w : World) :=
  (w.settings, w.downtime, w.ack, w.alert, w.notification, w.check, w.actions, w.nextNotification, w.nextDowntime, w.comments,
    w.nextComment)

theorem aside_kept {J : World → Prop} (h : ∀ s s', s'.aside = s.aside → J s → J s') : KeptByImpacts conf J where
  problem := fun s _ _ => h s _ rfl
  set := fun s _ _ => h s _ rfl
  unset := fun s _ => h s _ rfl

theorem noMoreAProblem_aside (i : Nat) : Unchanged World.aside (noMoreAProblem conf i) := fun s =>
  ((aside_kept (J := fun t => t.aside = s.aside) fun _ _ e h => e.trans h).noMore i (E := fun _ => True) trivial s rfl).1

theorem setMyselfAsProblem_aside (i : Nat) : Unchanged World.aside (setMyselfAsProblem conf env i) := fun s =>
  ((aside_kept (J := fun t => t.aside = s.aside) fun _ _ e h => e.trans h).setMyself i (E := fun _ => True) trivial trivial s rfl).1

end

end Alignak.Scheduling
