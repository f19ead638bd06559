import Alignak.Exn
import Alignak.Loops
import Mathlib.Algebra.Order.Ring.Rat

/-!
# The downtimes of the contacts

A contact in downtime gets no notifications. Each tick computes which downtimes
are in effect, and drops those that are marked.
-/

namespace Alignak.ContactDowntimes

/-! ## The notification ways -/

structure Request where
  timestamp : Int
  state : String
  type : String
  businessImpact : Int
  command : Option Nat

structure NotificationWay where
  minBusinessImpact : Int
  hostNotificationCommands : List Nat
  serviceNotificationCommands : List Nat
  hostNotificationPeriod : Nat
  serviceNotificationPeriod : Nat
  hostNotificationOptions : List Char
  serviceNotificationOptions : List Char

def hostShortStates : List (String × Char) :=
  [("DOWN", 'd'), ("UNREACHABLE", 'u'), ("RECOVERY", 'r'), ("FLAPPING", 'f'), ("DOWNTIME", 's')]

def serviceShortStates : List (String × Char) :=
  [("WARNING", 'w'), ("UNKNOWN", 'u'), ("CRITICAL", 'c'), ("UNREACHABLE", 'x'), ("RECOVERY", 'r'), ("FLAPPING", 'f'),
    ("DOWNTIME", 's')]

section
variable (isTimeValid : Nat → Int → Bool)

def wantNotification (commands : List Nat) (period : Nat) (shortStates : List (String × Char)) (options downtimeOptions : List Char)
    (minBusinessImpact : Int) (r : Request) : Bool :=
  if options.contains 'n' then false
  else if r.command.any fun c => !commands.contains c then false
  else if r.businessImpact < minBusinessImpact then false
  else if !isTimeValid period r.timestamp then false
  else if r.type == "PROBLEM" && (shortStates.lookup r.state).isSome then (shortStates.lookup r.state).any fun c => options.contains c
  else if r.type == "RECOVERY" then (shortStates.lookup r.type).any fun c => options.contains c
  else if r.type == "ACKNOWLEDGEMENT" then true
  else if ["FLAPPINGSTART", "FLAPPINGSTOP", "FLAPPINGDISABLED"].contains r.type then options.contains 'f'
  else if ["DOWNTIMESTART", "DOWNTIMEEND", "DOWNTIMECANCELLED"].contains r.type then downtimeOptions.contains 's'
  else false

def NotificationWay.wantServiceNotification (way : NotificationWay) (r : Request) : Bool :=
  wantNotification isTimeValid way.serviceNotificationCommands way.serviceNotificationPeriod serviceShortStates
    way.serviceNotificationOptions way.hostNotificationOptions way.minBusinessImpact r

def NotificationWay.wantHostNotification (way : NotificationWay) (r : Request) : Bool :=
  wantNotification isTimeValid way.hostNotificationCommands way.hostNotificationPeriod hostShortStates
    way.hostNotificationOptions way.hostNotificationOptions way.minBusinessImpact r

end

/-! ## The contacts and their downtimes -/

structure ContactDowntime where
  ref : Nat
  startTime : Int
  endTime : Int
  isInEffect : Bool := false
  canBeDeleted : Bool := false

inductive DowntimeAlert
  | started
  | stopped
  | cancelled
  deriving DecidableEq, Repr

structure Contact where
  hostNotificationsEnabled : Bool := true
  serviceNotificationsEnabled : Bool := true
  inScheduledDowntime : Bool := false
  downtimes : List Nat := []
  notificationways : List Nat := []

structure Conf where
  contacts : List Nat
  notificationway : Nat → NotificationWay
  isTimeValid : Nat → Int → Bool

/-- `cancelled` and `seen` are no data of the source: they keep the downtimes that
have been cancelled, and the clock at the last tick that has looked at each. -/
structure World where
  contact : Nat → Contact
  downtime : Nat → ContactDowntime
  nextDowntime : Nat
  log : List (Nat × DowntimeAlert)
  cancelled : List Nat
  seen : Nat → Option Rat

abbrev Sched := EStateM Exn World

def ContactDowntime.covers (x : ContactDowntime) (now : Rat) : Prop := (x.startTime : Rat) ≤ now ∧ now ≤ x.endTime

instance (x : ContactDowntime) (now : Rat) : Decidable (x.covers now) := inferInstanceAs (Decidable (_ ∧ _))

namespace World

variable (w : World)

def modifyContact (k : Nat) (f : Contact → Contact) : World := { w with contact := Function.update w.contact k (f (w.contact k)) }

def modifyDowntime (d : Nat) (f : ContactDowntime → ContactDowntime) : World :=
  { w with downtime := Function.update w.downtime d (f (w.downtime d)) }

def raiseAlert (d : Nat) (a : DowntimeAlert) : World := { w with log := w.log ++ [((w.downtime d).ref, a)] }

end World

def enter (d : Nat) (w : World) : World := w.raiseAlert d .started

def exit (d : Nat) (w : World) : World := (w.raiseAlert d .stopped).modifyDowntime d fun x => { x with canBeDeleted := true }

def cancel (d : Nat) (w : World) : World :=
  let w := w.modifyDowntime d fun x => { x with isInEffect := false }
  let w := w.raiseAlert d .cancelled
  { w.modifyDowntime d fun x => { x with canBeDeleted := true } with cancelled := w.cancelled ++ [d] }

def checkActivation (now : Rat) (d : Nat) (w : World) : World :=
  let wasInEffect := (w.downtime d).isInEffect
  let inEffect := decide ((w.downtime d).covers now)
  let w := { w.modifyDowntime d fun x => { x with isInEffect := inEffect } with seen := Function.update w.seen d (some now) }
  let w := if !wasInEffect && inEffect then enter d w else w
  if wasInEffect && !inEffect then exit d w else w

def delDowntime (k d : Nat) (w : World) : World :=
  if d ∈ (w.contact k).downtimes then
    (w.modifyDowntime d fun x => { x with canBeDeleted := true }).modifyContact k fun c =>
      { c with downtimes := c.downtimes.filter (· != d) }
  else w

/-! ## The filters -/

section
variable (conf : Conf)

def wantServiceNotification (k : Nat) (r : Request) : Sched Bool := do
  let w ← get
  let c := w.contact k
  if !c.serviceNotificationsEnabled then return false
  else if c.downtimes.any fun d => (w.downtime d).isInEffect then
    modify fun w => w.modifyContact k fun c => { c with inScheduledDowntime := true }
    return false
  else
    modify fun w => w.modifyContact k fun c => { c with inScheduledDowntime := false }
    return c.notificationways.any fun n => (conf.notificationway n).wantServiceNotification conf.isTimeValid r

def wantHostNotification (k : Nat) (r : Request) : Sched Bool := do
  let w ← get
  let c := w.contact k
  if !c.hostNotificationsEnabled then return false
  else if c.downtimes != [] then throw .attributeError
  else
    modify fun w => w.modifyContact k fun c => { c with inScheduledDowntime := false }
    return c.notificationways.any fun n => (conf.notificationway n).wantHostNotification conf.isTimeValid r

/-! ## Commands and ticks -/

def scheduleContactDowntime (k : Nat) (startTime endTime : Int) (w : World) : World :=
  if k ∈ conf.contacts then
    { w.modifyDowntime w.nextDowntime fun _ => { ref := k, startTime := startTime, endTime := endTime } with
      nextDowntime := w.nextDowntime + 1 }.modifyContact k fun c => { c with downtimes := c.downtimes ++ [w.nextDowntime] }
  else w

def delContactDowntime (d : Nat) (w : World) : World :=
  if conf.contacts.any fun k => (w.contact k).downtimes.contains d then cancel d w else w

def delAllContactDowntimes (k : Nat) (w : World) : World :=
  (w.contact k).downtimes.foldl (fun w d => delContactDowntime conf d w) w

def checkActivations (now : Nat → Rat) (w : World) : World :=
  conf.contacts.foldl (fun w k => (w.contact k).downtimes.foldl (fun w d => checkActivation (now d) d w) w) w

def delMarked (k : Nat) (w : World) : World :=
  (w.contact k).downtimes.foldl (fun w d => if (w.downtime d).canBeDeleted then delDowntime k d w else w) w

def updateDowntimes (now : Nat → Rat) (w : World) : World :=
  conf.contacts.foldl (fun w k => delMarked k w) (checkActivations conf now w)

inductive Event
  | scheduleContactDowntime (k : Nat) (startTime endTime : Int)
  | delContactDowntime (d : Nat)
  | delAllContactDowntimes (k : Nat)
  | updateDowntimes (now : Nat → Rat)
  | wantServiceNotification (k : Nat) (r : Request)
  | wantHostNotification (k : Nat) (r : Request)
  | enableServiceNotifications (k : Nat) (enabled : Bool)
  | enableHostNotifications (k : Nat) (enabled : Bool)

def World.after (w : World) : Event → World
  | .scheduleContactDowntime k startTime endTime => Alignak.ContactDowntimes.scheduleContactDowntime conf k startTime endTime w
  | .delContactDowntime d => Alignak.ContactDowntimes.delContactDowntime conf d w
  | .delAllContactDowntimes k => Alignak.ContactDowntimes.delAllContactDowntimes conf k w
  | .updateDowntimes now => Alignak.ContactDowntimes.updateDowntimes conf now w
  | .wantServiceNotification k r => stateAfter (Alignak.ContactDowntimes.wantServiceNotification conf k r w)
  | .wantHostNotification k r => stateAfter (Alignak.ContactDowntimes.wantHostNotification conf k r w)
  | .enableServiceNotifications k b => w.modifyContact k fun c => { c with serviceNotificationsEnabled := b }
  | .enableHostNotifications k b => w.modifyContact k fun c => { c with hostNotificationsEnabled := b }

structure Turn where
  world : World
  event : Event

def turns (w : World) : List Event → List Turn
  | [] => []
  | ev :: l => ⟨w, ev⟩ :: turns (w.after conf ev) l

/-! ## What the downtimes are for -/

def World.effective (w : World) (d : Nat) : Prop := d ∉ w.cancelled ∧ ∃ t, w.seen d = some t ∧ (w.downtime d).covers t

/-- No notification while a downtime of the contact is in effect, and no failure
outside of any. -/
def World.filters (w : World) (k : Nat) (answer : EStateM.Result Exn World Bool) : Prop :=
  ((∃ d ∈ (w.contact k).downtimes, w.effective d) → ∀ w', answer ≠ .ok true w') ∧
  ((¬ ∃ d ∈ (w.contact k).downtimes, w.effective d) → returns answer = true)

def Turn.Right (t : Turn) : Prop :=
  match t.event with
  | .updateDowntimes now => ∀ k ∈ conf.contacts, ∀ d ∈ (t.world.contact k).downtimes,
    (((updateDowntimes conf now t.world).downtime d).isInEffect = true ↔ d ∉ t.world.cancelled ∧ (t.world.downtime d).covers (now d)) ∧
    (((t.world.downtime d).endTime : Rat) < now d → ((updateDowntimes conf now t.world).downtime d).canBeDeleted = true)
  | .wantServiceNotification k r => t.world.filters k (wantServiceNotification conf k r t.world)
  | .wantHostNotification k r => t.world.filters k (wantHostNotification conf k r t.world)
  | _ => True

/-- The window of a cancelled downtime is closed at the next tick; one that has
ended has been seen in effect, or has been cancelled; and a contact with a
downtime that is still to come is not asked for a host. -/
def Turn.Harmless (t : Turn) : Prop :=
  match t.event with
  | .updateDowntimes now => ∀ k ∈ conf.contacts, ∀ d ∈ (t.world.contact k).downtimes,
    (d ∈ t.world.cancelled → ¬ (t.world.downtime d).covers (now d)) ∧
    (((t.world.downtime d).endTime : Rat) < now d → d ∈ t.world.cancelled ∨ t.world.effective d)
  | .wantHostNotification k _ => (t.world.contact k).hostNotificationsEnabled = true → (t.world.contact k).downtimes ≠ [] →
    ∃ d ∈ (t.world.contact k).downtimes, t.world.effective d
  | _ => True

end

/-! ## One tick -/

def ContactDowntime.activated (x : ContactDowntime) (now : Rat) : ContactDowntime :=
  { x with isInEffect := decide (x.covers now), canBeDeleted := x.canBeDeleted || (x.isInEffect && !decide (x.covers now)) }

theorem ContactDowntime.activated_activated (x : ContactDowntime) (now : Rat) : (x.activated now).activated now = x.activated now := by
  have hc : (x.activated now).covers now = x.covers now := rfl
  unfold activated at hc ⊢
  simp only [hc, Bool.and_not_self, Bool.or_false]

section
variable {conf : Conf} {w v : World} {now : Nat → Rat} {k d : Nat}

theorem checkActivation_eq (t : Rat) (d : Nat) (w : World) : (checkActivation t d w).contact = w.contact ∧
    (checkActivation t d w).nextDowntime = w.nextDowntime ∧ (checkActivation t d w).cancelled = w.cancelled ∧
    (checkActivation t d w).downtime = Function.update w.downtime d ((w.downtime d).activated t) ∧
    (checkActivation t d w).seen = Function.update w.seen d (some t) := by
  unfold checkActivation ContactDowntime.activated
  by_cases hc : (w.downtime d).covers t
  · cases (w.downtime d).isInEffect <;> simp [hc, enter, World.raiseAlert, World.modifyDowntime]
  · cases (w.downtime d).isInEffect <;> simp [hc, exit, World.raiseAlert, World.modifyDowntime]

/-- What the activation of the downtimes of `l` leaves, and what it writes. -/
structure Activated (now : Nat → Rat) (l : List Nat) (w v : World) : Prop where
  contact : v.contact = w.contact
  nextDowntime : v.nextDowntime = w.nextDowntime
  cancelled : v.cancelled = w.cancelled
  downtime : v.downtime = l.foldl (fun g d => Function.update g d ((g d).activated (now d))) w.downtime
  seen : v.seen = l.foldl (fun g d => Function.update g d (some (now d))) w.seen

theorem Activated.refl (w : World) : Activated now [] w w := ⟨rfl, rfl, rfl, rfl, rfl⟩

theorem Activated.snoc {l : List Nat} (h : Activated now l w v) : Activated now (l ++ [d]) w (checkActivation (now d) d v) := by
  obtain ⟨h1, h2, h3, h4, h5⟩ := checkActivation_eq (now d) d v
  refine ⟨h1.trans h.contact, h2.trans h.nextDowntime, h3.trans h.cancelled, ?_, ?_⟩
  · rw [h4, h.downtime, List.foldl_append]
    rfl
  · rw [h5, h.seen, List.foldl_append]
    rfl

theorem Activated.append {m : List Nat} (l : List Nat) : ∀ {v}, Activated now m w v →
    Activated now (m ++ l) w (l.foldl (fun w d => checkActivation (now d) d w) v) := by
  induction l generalizing m with
  | nil =>
    intro v h
    rw [List.append_nil]
    exact h
  | cons d l ih =>
    intro v h
    have hl := ih h.snoc (m := m ++ [d])
    rw [List.append_assoc] at hl
    exact hl

theorem checkActivations_activated (now : Nat → Rat) (w : World) :
    Activated now (conf.contacts.flatMap fun k => (w.contact k).downtimes) w (checkActivations conf now w) := by
  have hloop : ∀ (ks : List Nat) (m : List Nat) (v : World), Activated now m w v →
      Activated now (m ++ ks.flatMap fun k => (w.contact k).downtimes) w
        (ks.foldl (fun w k => (w.contact k).downtimes.foldl (fun w d => checkActivation (now d) d w) w) v) := by
    intro ks
    induction ks with
    | nil =>
      intro m v h
      rw [List.flatMap_nil, List.append_nil]
      exact h
    | cons k ks ih =>
      intro m v h
      have hk := ih _ _ (h.append (v.contact k).downtimes)
      rw [List.append_assoc, h.contact] at hk
      rw [List.flatMap_cons, List.foldl_cons, h.contact]
      exact hk
  exact hloop conf.contacts [] w (.refl w)

theorem Activated.entries {l : List Nat} (h : Activated now l w v) (d : Nat) :
    v.downtime d = (if d ∈ l then (w.downtime d).activated (now d) else w.downtime d) ∧
    v.seen d = if d ∈ l then some (now d) else w.seen d := by
  refine ⟨(congrFun h.downtime d).trans ?_, (congrFun h.seen d).trans ?_⟩
  · exact foldl_update (f := fun d (x : ContactDowntime) => x.activated (now d)) (fun d x => x.activated_activated (now d)) l _ d
  · exact foldl_update (f := fun d _ => some (now d)) (fun _ _ => rfl) l _ d

/-! ## Deletion -/

/-- The marked downtimes of the contacts of `ks` have gone. -/
structure Swept (ks : List Nat) (w v : World) : Prop where
  downtime : v.downtime = w.downtime
  nextDowntime : v.nextDowntime = w.nextDowntime
  cancelled : v.cancelled = w.cancelled
  seen : v.seen = w.seen
  kept : ∀ k, ∀ d, d ∈ (v.contact k).downtimes → d ∈ (w.contact k).downtimes
  gone : ∀ k ∈ ks, ∀ d ∈ (v.contact k).downtimes, (w.downtime d).canBeDeleted = false

theorem delDowntime_swept (hd : (w.downtime d).canBeDeleted = true) : Swept [] w (delDowntime k d w) ∧
    d ∉ ((delDowntime k d w).contact k).downtimes := by
  unfold delDowntime
  by_cases hm : d ∈ (w.contact k).downtimes
  · rw [if_pos hm]
    have hx : { w.downtime d with canBeDeleted := true } = w.downtime d := by rw [← hd]
    refine ⟨⟨?_, rfl, rfl, rfl, fun j e he => ?_, nofun⟩, ?_⟩
    · change Function.update w.downtime d { w.downtime d with canBeDeleted := true } = w.downtime
      rw [hx, Function.update_eq_self]
    · unfold World.modifyContact at he
      by_cases hj : j = k
      · subst hj
        simp only [Function.update_self] at he
        exact (List.mem_filter.mp he).1
      · simp only [Function.update_of_ne hj] at he
        exact he
    · unfold World.modifyContact
      simp only [Function.update_self]
      intro he
      simpa using (List.mem_filter.mp he).2
  · rw [if_neg hm]
    exact ⟨⟨rfl, rfl, rfl, rfl, fun _ _ => id, nofun⟩, hm⟩

theorem Swept.refl (w : World) : Swept [] w w := ⟨rfl, rfl, rfl, rfl, fun _ _ => id, nofun⟩

theorem Swept.trans {u : World} {ks ls : List Nat} (h : Swept ks w u) (h' : Swept ls u v) : Swept (ks ++ ls) w v where
  downtime := h'.downtime.trans h.downtime
  nextDowntime := h'.nextDowntime.trans h.nextDowntime
  cancelled := h'.cancelled.trans h.cancelled
  seen := h'.seen.trans h.seen
  kept k d hd := h.kept k d (h'.kept k d hd)
  gone k hk d hd := by
    rcases List.mem_append.mp hk with hk | hk
    · exact h.gone k hk d (h'.kept k d hd)
    · rw [← h.downtime]
      exact h'.gone k hk d hd

theorem delMarked_swept (k : Nat) (w : World) : Swept [k] w (delMarked k w) := by
  have hloop : ∀ (l : List Nat) (w : World),
      Swept [] w (l.foldl (fun w d => if (w.downtime d).canBeDeleted then delDowntime k d w else w) w) ∧
      ∀ d ∈ l, (w.downtime d).canBeDeleted = true →
        d ∉ ((l.foldl (fun w d => if (w.downtime d).canBeDeleted then delDowntime k d w else w) w).contact k).downtimes := by
    intro l
    induction l with
    | nil => exact fun w => ⟨.refl w, fun _ hd => nomatch hd⟩
    | cons a l ih =>
      intro w
      rw [List.foldl_cons]
      by_cases ha : (w.downtime a).canBeDeleted = true
      · rw [if_pos ha]
        obtain ⟨h1, h2⟩ := delDowntime_swept (k := k) ha
        obtain ⟨g1, g2⟩ := ih (delDowntime k a w)
        refine ⟨h1.trans g1, fun d hd hm hin => ?_⟩
        rcases List.mem_cons.mp hd with rfl | hd
        · exact h2 (g1.kept k _ hin)
        · exact g2 d hd (by rw [h1.downtime]; exact hm) hin
      · rw [if_neg ha]
        obtain ⟨g1, g2⟩ := ih w
        refine ⟨g1, fun d hd hm => ?_⟩
        rcases List.mem_cons.mp hd with rfl | hd
        · exact absurd hm ha
        · exact g2 d hd hm
  obtain ⟨h1, h2⟩ := hloop (w.contact k).downtimes w
  refine ⟨h1.downtime, h1.nextDowntime, h1.cancelled, h1.seen, h1.kept, fun j hj d hd => ?_⟩
  rw [List.mem_singleton.mp hj] at hd
  exact Bool.eq_false_iff.mpr fun hm => h2 d (h1.kept k d hd) hm hd

theorem sweep (ks : List Nat) (w : World) : Swept ks w (ks.foldl (fun w k => delMarked k w) w) := by
  induction ks generalizing w with
  | nil => exact .refl w
  | cons k ks ih => exact (delMarked_swept k w).trans (ih _)

theorem updateDowntimes_spec (hk : k ∈ conf.contacts) (hd : d ∈ (w.contact k).downtimes) :
    (updateDowntimes conf now w).downtime d = (w.downtime d).activated (now d) ∧ (updateDowntimes conf now w).seen d = some (now d) := by
  have ha := (@checkActivations_activated conf now w).entries d
  have hs := sweep conf.contacts (checkActivations conf now w)
  have hm : d ∈ conf.contacts.flatMap fun k => (w.contact k).downtimes := List.mem_flatMap.mpr ⟨k, hk, hd⟩
  rw [if_pos hm, if_pos hm] at ha
  exact ⟨(congrFun hs.downtime d).trans ha.1, (congrFun hs.seen d).trans ha.2⟩

/-! ## Every reached state -/

variable (conf) in
structure Kept (w : World) : Prop where
  known : ∀ k, ∀ d ∈ (w.contact k).downtimes, d < w.nextDowntime
  fresh : ∀ d, w.nextDowntime ≤ d → w.seen d = none ∧ d ∉ w.cancelled
  effect : ∀ k, ∀ d ∈ (w.contact k).downtimes, (w.downtime d).isInEffect = true ↔ w.effective d
  mark : ∀ k, ∀ d ∈ (w.contact k).downtimes, (w.downtime d).canBeDeleted = true ↔ d ∈ w.cancelled
  held : ∀ k, k ∉ conf.contacts → (w.contact k).downtimes = []

theorem Kept.modifyContact {f : Contact → Contact} (h : Kept conf w) (hf : ∀ c, (f c).downtimes = c.downtimes) :
    Kept conf (w.modifyContact k f) := by
  have hsame : ∀ j, ((w.modifyContact k f).contact j).downtimes = (w.contact j).downtimes := by
    intro j
    unfold World.modifyContact
    by_cases hj : j = k
    · subst hj
      simp only [Function.update_self]
      exact hf _
    · simp only [Function.update_of_ne hj]
  refine ⟨fun j d hd => ?_, h.fresh, fun j d hd => ?_, fun j d hd => ?_, fun j hj => ?_⟩
  · rw [hsame] at hd
    exact h.known j d hd
  · rw [hsame] at hd
    exact h.effect j d hd
  · rw [hsame] at hd
    exact h.mark j d hd
  · rw [hsame]
    exact h.held j hj

theorem effective_congr (hx : v.downtime d = w.downtime d) (hs : v.seen d = w.seen d) (hc : d ∈ v.cancelled ↔ d ∈ w.cancelled) :
    v.effective d ↔ w.effective d := by
  unfold World.effective
  rw [hx, hs, hc]

theorem Kept.scheduleContactDowntime (h : Kept conf w) (k : Nat) (startTime endTime : Int) :
    Kept conf (scheduleContactDowntime conf k startTime endTime w) := by
  unfold ContactDowntimes.scheduleContactDowntime
  split
  case isFalse => exact h
  rename_i hk
  have hmem : ∀ j d, d ∈ (Function.update w.contact k { w.contact k with
      downtimes := (w.contact k).downtimes ++ [w.nextDowntime] } j).downtimes →
      d ∈ (w.contact j).downtimes ∨ d = w.nextDowntime := by
    intro j d hd
    by_cases hj : j = k
    · subst hj
      rw [Function.update_self] at hd
      exact (List.mem_append.mp hd).imp id List.mem_singleton.mp
    · rw [Function.update_of_ne hj] at hd
      exact Or.inl hd
  have hold : ∀ d < w.nextDowntime, Function.update w.downtime w.nextDowntime
      { ref := k, startTime := startTime, endTime := endTime } d = w.downtime d :=
    fun d hd => Function.update_of_ne (Nat.ne_of_lt hd) ..
  have hnew := h.fresh w.nextDowntime (Nat.le_refl _)
  refine ⟨fun j d hd => ?_, fun d hd => h.fresh d (Nat.le_of_succ_le hd), fun j d hd => ?_, fun j d hd => ?_, fun j hj => ?_⟩
  · rcases hmem j d hd with hd | rfl
    · exact Nat.lt_succ_of_lt (h.known j d hd)
    · exact Nat.lt_succ_self _
  · rcases hmem j d hd with hd | rfl
    · have hx := hold d (h.known j d hd)
      refine Iff.trans ?_ ((h.effect j d hd).trans (Iff.symm ?_))
      · exact iff_of_eq (congrArg (fun x => ContactDowntime.isInEffect x = true) hx)
      · exact effective_congr hx rfl Iff.rfl
    · refine iff_of_false ?_ ?_
      · change ¬ (Function.update w.downtime w.nextDowntime _ w.nextDowntime).isInEffect = true
        rw [Function.update_self]
        exact Bool.false_ne_true
      · rintro ⟨-, t, ht, -⟩
        exact nomatch hnew.1.symm.trans ht
  · rcases hmem j d hd with hd | rfl
    · refine Iff.trans ?_ (h.mark j d hd)
      exact iff_of_eq (congrArg (fun x => ContactDowntime.canBeDeleted x = true) (hold d (h.known j d hd)))
    · refine iff_of_false ?_ hnew.2
      change ¬ (Function.update w.downtime w.nextDowntime _ w.nextDowntime).canBeDeleted = true
      rw [Function.update_self]
      exact Bool.false_ne_true
  · have hne : j ≠ k := fun e => hj (e ▸ hk)
    change (Function.update w.contact k _ j).downtimes = []
    rw [Function.update_of_ne hne]
    exact h.held j hj

theorem cancel_self (d : Nat) (w : World) : ((cancel d w).downtime d).isInEffect = false ∧ ((cancel d w).downtime d).canBeDeleted = true := by
  unfold ContactDowntimes.cancel World.modifyDowntime
  simp [World.raiseAlert]

theorem cancel_ne {e : Nat} (h : e ≠ d) (w : World) : (cancel d w).downtime e = w.downtime e := by
  unfold ContactDowntimes.cancel World.modifyDowntime
  simp [World.raiseAlert, h]

theorem Kept.cancel (h : Kept conf w) (hd : d < w.nextDowntime) : Kept conf (cancel d w) := by
  have hc : (ContactDowntimes.cancel d w).cancelled = w.cancelled ++ [d] := rfl
  have hin : ∀ e, e ≠ d → (e ∈ (ContactDowntimes.cancel d w).cancelled ↔ e ∈ w.cancelled) := by
    intro e he
    rw [hc, List.mem_append, List.mem_singleton]
    exact or_iff_left he
  have hself : d ∈ (ContactDowntimes.cancel d w).cancelled := by
    rw [hc]
    exact List.mem_append_right _ List.mem_cons_self
  refine ⟨h.known, fun e he => ⟨(h.fresh e he).1, ?_⟩, fun k e he => ?_, fun k e he => ?_, h.held⟩
  · rw [hin e (Nat.ne_of_gt (Nat.lt_of_lt_of_le hd he))]
    exact (h.fresh e he).2
  · by_cases hed : e = d
    · subst hed
      refine iff_of_false ?_ fun hf => hf.1 hself
      rw [(cancel_self e w).1]
      exact Bool.false_ne_true
    · rw [cancel_ne hed, effective_congr (cancel_ne hed w) rfl (hin e hed)]
      exact h.effect k e he
  · by_cases hed : e = d
    · subst hed
      exact iff_of_true (cancel_self e w).2 hself
    · rw [cancel_ne hed, hin e hed]
      exact h.mark k e he

theorem Kept.delContactDowntime (h : Kept conf w) (d : Nat) : Kept conf (delContactDowntime conf d w) := by
  unfold ContactDowntimes.delContactDowntime
  split
  · rename_i ha
    obtain ⟨k, -, hk⟩ := List.any_eq_true.mp ha
    exact h.cancel (h.known k d (List.contains_iff_mem.mp hk))
  · exact h

theorem Kept.updateDowntimes (h : Kept conf w) (now : Nat → Rat) : Kept conf (updateDowntimes conf now w) := by
  have ha := @checkActivations_activated conf now w
  have hs := sweep conf.contacts (checkActivations conf now w)
  have hkept : ∀ k d, d ∈ ((ContactDowntimes.updateDowntimes conf now w).contact k).downtimes → d ∈ (w.contact k).downtimes := by
    intro k d hd
    rw [← ha.contact]
    exact hs.kept k d hd
  have hcancelled : (ContactDowntimes.updateDowntimes conf now w).cancelled = w.cancelled := hs.cancelled.trans ha.cancelled
  have hheld : ∀ k, k ∉ conf.contacts → ((ContactDowntimes.updateDowntimes conf now w).contact k).downtimes = [] := by
    intro k hk
    refine List.eq_nil_iff_forall_not_mem.mpr fun d hd => ?_
    have := hkept k d hd
    rw [h.held k hk] at this
    exact nomatch this
  have hleft : ∀ k d, d ∈ ((ContactDowntimes.updateDowntimes conf now w).contact k).downtimes →
      (ContactDowntimes.updateDowntimes conf now w).downtime d = (w.downtime d).activated (now d) ∧
      (ContactDowntimes.updateDowntimes conf now w).seen d = some (now d) ∧
      ((w.downtime d).activated (now d)).canBeDeleted = false ∧ d ∉ w.cancelled := by
    intro k d hd
    by_cases hk : k ∈ conf.contacts
    · obtain ⟨h1, h2⟩ := @updateDowntimes_spec _ _ now _ _ hk (hkept k d hd)
      have hg : ((w.downtime d).activated (now d)).canBeDeleted = false := by
        rw [← h1]
        exact (congrArg ContactDowntime.canBeDeleted (congrFun hs.downtime d)).trans (hs.gone k hk d hd)
      refine ⟨h1, h2, hg, fun hc => ?_⟩
      have hm := (h.mark k d (hkept k d hd)).mpr hc
      unfold ContactDowntime.activated at hg
      simp [hm] at hg
    · rw [hheld k hk] at hd
      exact nomatch hd
  refine ⟨fun k d hd => ?_, fun d hd => ?_, fun k d hd => ?_, fun k d hd => ?_, hheld⟩
  · rw [show (ContactDowntimes.updateDowntimes conf now w).nextDowntime = w.nextDowntime from hs.nextDowntime.trans ha.nextDowntime]
    exact h.known k d (hkept k d hd)
  · rw [show (ContactDowntimes.updateDowntimes conf now w).nextDowntime = w.nextDowntime from
      hs.nextDowntime.trans ha.nextDowntime] at hd
    rw [hcancelled]
    refine ⟨?_, (h.fresh d hd).2⟩
    have hout : d ∉ conf.contacts.flatMap fun k => (w.contact k).downtimes := by
      intro hm
      obtain ⟨k, -, hk⟩ := List.mem_flatMap.mp hm
      exact absurd (h.known k d hk) (Nat.not_lt.mpr hd)
    have hseen := (ha.entries d).2
    rw [if_neg hout] at hseen
    exact (congrFun hs.seen d).trans (hseen.trans (h.fresh d hd).1)
  · obtain ⟨h1, h2, -, h4⟩ := hleft k d hd
    unfold World.effective
    rw [h1, h2, hcancelled]
    simp only [Option.some.injEq, exists_eq_left', h4, not_false_eq_true, true_and]
    exact decide_eq_true_iff
  · obtain ⟨h1, -, h3, h4⟩ := hleft k d hd
    rw [h1, h3, hcancelled]
    exact iff_of_false Bool.false_ne_true h4

theorem wantServiceNotification_kept (k : Nat) (r : Request) : Keeps (Kept conf) (wantServiceNotification conf k r) := by
  refine Keeps.read fun w => Keeps.ite (fun _ => Keeps.pure _) fun _ => Keeps.ite (fun _ => ?_) fun _ => ?_
  · exact Keeps.bind (Keeps.modify fun s hs => hs.modifyContact (f := fun c => { c with inScheduledDowntime := true }) fun _ => rfl)
      fun _ => Keeps.pure _
  · exact Keeps.bind (Keeps.modify fun s hs => hs.modifyContact (f := fun c => { c with inScheduledDowntime := false }) fun _ => rfl)
      fun _ => Keeps.pure _

theorem wantHostNotification_kept (k : Nat) (r : Request) : Keeps (Kept conf) (wantHostNotification conf k r) := by
  refine Keeps.read fun w => Keeps.ite (fun _ => Keeps.pure _) fun _ => Keeps.ite (fun _ => Keeps.throw trivial) fun _ => ?_
  exact Keeps.bind (Keeps.modify fun s hs => hs.modifyContact (f := fun c => { c with inScheduledDowntime := false }) fun _ => rfl)
    fun _ => Keeps.pure _

theorem Kept.after (h : Kept conf w) (ev : Event) : Kept conf (w.after conf ev) := by
  cases ev with
  | scheduleContactDowntime k startTime endTime => exact h.scheduleContactDowntime k startTime endTime
  | delContactDowntime d => exact h.delContactDowntime d
  | delAllContactDowntimes k => exact List.foldlRecOn (motive := Kept conf) _ _ h fun v hv d _ => hv.delContactDowntime d
  | updateDowntimes now => exact h.updateDowntimes now
  | wantServiceNotification k r => exact (wantServiceNotification_kept k r w h).1
  | wantHostNotification k r => exact (wantHostNotification_kept k r w h).1
  | enableServiceNotifications k b => exact h.modifyContact (f := fun c => { c with serviceNotificationsEnabled := b }) fun _ => rfl
  | enableHostNotifications k b => exact h.modifyContact (f := fun c => { c with hostNotificationsEnabled := b }) fun _ => rfl

/-! ## The turns of a run -/

theorem Kept.any_inEffect (h : Kept conf w) (k : Nat) : ((w.contact k).downtimes.any fun d => (w.downtime d).isInEffect) = true ↔
    ∃ d ∈ (w.contact k).downtimes, w.effective d := by
  rw [List.any_eq_true]
  exact exists_congr fun d => and_congr_right fun hd => h.effect k d hd

theorem Kept.service_filters (h : Kept conf w) (k : Nat) (r : Request) : w.filters k (wantServiceNotification conf k r w) := by
  unfold wantServiceNotification
  rw [get_bind]
  by_cases he : (!(w.contact k).serviceNotificationsEnabled) = true
  · rw [run_pos he]
    exact ⟨(fun _ _ hf => nomatch hf), fun _ => rfl⟩
  · rw [run_neg he]
    by_cases ha : ((w.contact k).downtimes.any fun d => (w.downtime d).isInEffect) = true
    · rw [run_pos ha]
      exact ⟨(fun _ _ hf => nomatch hf), fun _ => rfl⟩
    · rw [run_neg ha]
      exact ⟨fun hx => absurd ((h.any_inEffect k).mpr hx) ha, fun _ => rfl⟩

theorem host_filters_iff (w : World) (k : Nat) (r : Request) : w.filters k (wantHostNotification conf k r w) ↔
    Turn.Harmless conf ⟨w, .wantHostNotification k r⟩ := by
  unfold wantHostNotification Turn.Harmless
  rw [get_bind]
  by_cases he : (!(w.contact k).hostNotificationsEnabled) = true
  · rw [run_pos he]
    refine iff_of_true ⟨(fun _ _ hf => nomatch hf), fun _ => rfl⟩ fun hn => ?_
    have hn' : (w.contact k).hostNotificationsEnabled = true := hn
    rw [hn'] at he
    exact nomatch he
  · rw [run_neg he]
    have hn : (w.contact k).hostNotificationsEnabled = true := by simpa using he
    by_cases hd : ((w.contact k).downtimes != []) = true
    · rw [run_pos hd]
      have hd' : (w.contact k).downtimes ≠ [] := by simpa using hd
      refine ⟨fun hf _ _ => ?_, fun hx => ⟨(fun _ _ hf => nomatch hf), fun hno => absurd (hx hn hd') hno⟩⟩
      by_contra hno
      exact nomatch hf.2 hno
    · rw [run_neg hd]
      have hd' : (w.contact k).downtimes = [] := by simpa using hd
      refine iff_of_true ⟨fun ⟨d, hd, _⟩ => ?_, fun _ => rfl⟩ fun _ hne => absurd hd' hne
      rw [hd'] at hd
      exact nomatch hd

theorem Kept.tick_iff (h : Kept conf w) (now : Nat → Rat) :
    Turn.Right conf ⟨w, .updateDowntimes now⟩ ↔ Turn.Harmless conf ⟨w, .updateDowntimes now⟩ := by
  refine forall_congr' fun k => forall_congr' fun hk => forall_congr' fun d => forall_congr' fun hd => ?_
  simp only [(@updateDowntimes_spec _ _ now _ _ hk hd).1]
  refine and_congr ?_ (forall_congr' fun hend => ?_)
  · rw [show ((w.downtime d).activated (now d)).isInEffect = decide ((w.downtime d).covers (now d)) from rfl, decide_eq_true_iff]
    constructor
    · exact fun hi hc hcov => (hi.mp hcov).1 hc
    · exact fun hi => ⟨fun hcov => ⟨fun hc => hi hc hcov, hcov⟩, And.right⟩
  · have hout : ¬ (w.downtime d).covers (now d) := fun hcov => absurd hcov.2 (not_le.mpr hend)
    rw [← h.mark k d hd, ← h.effect k d hd]
    unfold ContactDowntime.activated
    simp [hout]

theorem Kept.right_iff (h : Kept conf w) (ev : Event) : Turn.Right conf ⟨w, ev⟩ ↔ Turn.Harmless conf ⟨w, ev⟩ := by
  cases ev with
  | updateDowntimes now => exact h.tick_iff now
  | wantServiceNotification k r => exact iff_of_true (h.service_filters k r) trivial
  | wantHostNotification k r => exact host_filters_iff w k r
  | scheduleContactDowntime k startTime endTime => exact Iff.rfl
  | delContactDowntime d => exact Iff.rfl
  | delAllContactDowntimes k => exact Iff.rfl
  | enableServiceNotifications k b => exact Iff.rfl
  | enableHostNotifications k b => exact Iff.rfl

structure Initial (w : World) : Prop where
  downtimes : ∀ k, (w.contact k).downtimes = []
  cancelled : w.cancelled = []
  seen : ∀ d, w.seen d = none

theorem Initial.kept (h : Initial w) : Kept conf w where
  known k d hd := by
    rw [h.downtimes k] at hd
    exact nomatch hd
  fresh d _ := by
    rw [h.cancelled]
    exact ⟨h.seen d, nofun⟩
  effect k d hd := by
    rw [h.downtimes k] at hd
    exact nomatch hd
  mark k d hd := by
    rw [h.downtimes k] at hd
    exact nomatch hd
  held k _ := h.downtimes k

theorem Kept.turns_right_iff (h : Kept conf w) (events : List Event) :
    (∀ t ∈ turns conf w events, t.Right conf) ↔ ∀ t ∈ turns conf w events, t.Harmless conf := by
  induction events generalizing w with
  | nil => exact iff_of_true (fun _ ht => nomatch ht) fun _ ht => nomatch ht
  | cons ev l ih =>
    unfold turns
    rw [List.forall_mem_cons, List.forall_mem_cons]
    exact and_congr (h.right_iff ev) (ih (h.after ev))

/-- At every turn of a run the downtimes do what they are for exactly when no
turn meets one of the three cases. -/
theorem downtimes_right_iff (conf : Conf) {w₀ : World} (h₀ : Initial w₀) (events : List Event) :
    (∀ t ∈ turns conf w₀ events, t.Right conf) ↔ ∀ t ∈ turns conf w₀ events, t.Harmless conf := h₀.kept.turns_right_iff events

end

/-! ## A contact with one downtime -/

def mailOfAll : NotificationWay := ⟨0, [], [], 0, 0, ['d', 'r'], ['c', 'r']⟩

def oneContact : Conf := ⟨[0], fun _ => mailOfAll, fun _ _ => true⟩

def freeWorld : World := ⟨fun _ => { notificationways := [0] }, fun _ => { ref := 0, startTime := 0, endTime := 0 }, 0, [], [], fun _ => none⟩

theorem freeWorld_initial : Initial freeWorld := ⟨fun _ => rfl, rfl, fun _ => rfl⟩

def tickAt (t : Rat) : Event := .updateDowntimes fun _ => t

def cancelledInTime : List Event := [.scheduleContactDowntime 0 100 200, tickAt 150, .delContactDowntime 0, tickAt 250]

theorem cancelledInTime_right : Initial freeWorld ∧ ∀ t ∈ turns oneContact freeWorld cancelledInTime, t.Right oneContact :=
  ⟨freeWorld_initial, (downtimes_right_iff oneContact freeWorld_initial cancelledInTime).mpr fun t ht => by
    have hmem : t ∈ turns oneContact freeWorld [.scheduleContactDowntime 0 100 200, tickAt 150, .delContactDowntime 0, tickAt 250] := ht
    simp only [turns, List.mem_cons, List.not_mem_nil, or_false] at hmem
    rcases hmem with rfl | rfl | rfl | rfl
    · trivial
    · intro k hk d hd
      rw [List.mem_singleton.mp hk] at hd
      rw [show d = 0 from List.mem_singleton.mp hd]
      exact ⟨nofun, fun h => absurd h (by decide)⟩
    · trivial
    · intro k hk d hd
      rw [List.mem_singleton.mp hk] at hd
      rw [show d = 0 from List.mem_singleton.mp hd]
      exact ⟨fun _ => by decide, fun _ => Or.inl (by decide)⟩⟩

def hostDown : Request := ⟨160, "DOWN", "PROBLEM", 3, none⟩

/-- A cancelled downtime comes back in effect, one that has never been in effect
is never marked, and the filter of the hosts fails before a downtime begins. -/
theorem downtimes_not_right :
    (¬ ∀ t ∈ turns oneContact freeWorld [.scheduleContactDowntime 0 100 200, tickAt 150, .delContactDowntime 0, tickAt 160],
      t.Right oneContact) ∧
    (¬ ∀ t ∈ turns oneContact freeWorld [.scheduleContactDowntime 0 100 200, tickAt 300], t.Right oneContact) ∧
    ¬ ∀ t ∈ turns oneContact freeWorld [.scheduleContactDowntime 0 100 200, tickAt 50, .wantHostNotification 0 hostDown],
      t.Right oneContact := by
  refine ⟨fun h => ?_, fun h => ?_, fun h => ?_⟩
  · have ht := (h _ (List.mem_cons_of_mem _ (List.mem_cons_of_mem _ (List.mem_cons_of_mem _ List.mem_cons_self))) 0
      List.mem_cons_self 0 (by decide)).1
    exact (ht.mp (by decide)).1 (by decide)
  · have ht := (h _ (List.mem_cons_of_mem _ List.mem_cons_self) 0 List.mem_cons_self 0 (by decide)).2
    exact absurd (ht (by decide)) (by decide)
  · have ht := (h _ (List.mem_cons_of_mem _ (List.mem_cons_of_mem _ List.mem_cons_self))).2
    refine absurd (ht ?_) (by decide)
    rintro ⟨d, hd, -, t, hs, hc⟩
    rw [show d = 0 from List.mem_singleton.mp hd] at hs hc
    have h50 : t = 50 := (Option.some.inj hs).symm
    rw [h50] at hc
    exact absurd hc (by decide)

end Alignak.ContactDowntimes
