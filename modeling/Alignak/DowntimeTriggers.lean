import Alignak.DowntimeLinks

/-!
# The triggers of the downtimes that are scheduled

A downtime may name another one as its trigger. The commands look for it on all
items of a kind, and write to the item of the new downtime.
-/

namespace Alignak.Scheduling

/-- The command returns, and the new downtime stands once on the list of its
trigger `t`, which item `j` holds, behind the ones of before. -/
def RegistersTrigger (conf : Conf) (w : World) (i j t : Nat) (fixed : Bool) (startTime endTime duration : Int) : Prop :=
  ∃ w', scheduleDowntime conf i fixed startTime endTime duration (some t) w = .ok ⟨⟩ w' ∧
    ∃ x x', w.downtime? j t = some x ∧ w'.downtime? j t = some x' ∧
      x'.activateMe = x.activateMe ++ [w.nextDowntime] ∧ x'.activateMe.count w.nextDowntime = 1

section
variable {conf : Conf} {w w' : World} {i j t u : Nat} {x : Downtime} {fixed : Bool} {startTime endTime duration : Int}

theorem itemsOfType_nodup (k : ItemType) : (itemsOfType conf k).Nodup := by
  have h := List.nodup_append.mp conf.nodup
  cases k with
  | host => exact h.1
  | service => exact h.2.1

theorem mem_itemsOfType (h : i ∈ conf.allMyHostsAndServices) : i ∈ itemsOfType conf (conf.myType i) := by
  unfold Conf.myType
  by_cases hi : i ∈ conf.hosts
  · rw [if_pos hi]
    exact hi
  · rw [if_neg hi]
    exact (List.mem_append.mp h).resolve_left hi

theorem triggerTurns_once (hs : ∀ k, (w.downtime? k t).isSome → k = i) (hi : (w.downtime? i t).isSome) {l : List Nat}
    (hl : l.Nodup) (hm : i ∈ l) : l.forM (triggerTurn i t u) w = .ok ⟨⟩ (w.triggerMe i t u) := by
  have hself := triggerTurn_some (i := i) (u := u) hi
  rw [if_pos hi] at hself
  refine forM_once hself hl hm fun k hk hne => ⟨triggerTurn_none ?_, triggerTurn_none ?_⟩
  · by_contra hsome
    exact hne (hs k (Option.isSome_iff_ne_none.mpr hsome))
  · unfold World.triggerMe
    rw [downtime?_changeDowntime, if_neg fun h => hne h.1]
    by_contra hsome
    exact hne (hs k (Option.isSome_iff_ne_none.mpr hsome))

theorem scheduleDowntime_trigger : scheduleDowntime conf i fixed startTime endTime duration (some t) w =
    (itemsOfType conf (conf.myType i)).forM (triggerTurn i t w.nextDowntime)
      (newDowntime i (Downtime.create i fixed startTime endTime duration (some t)) w) := rfl

theorem downtime?_newDowntime_old (h : t < w.nextDowntime) (y : Downtime) (k : Nat) :
    (newDowntime i y w).downtime? k t = w.downtime? k t := by
  rw [downtime?_newDowntime, if_neg fun hk => h.ne hk.2]

theorem Linked.notListed (h : Linked conf w) (hx : w.downtime? j t = some x) : w.nextDowntime ∉ x.activateMe := fun hm =>
  absurd (h.link hx hm).2.2.1 (lt_irrefl _)

theorem Linked.registersTrigger (h : Linked conf w) (hi : i ∈ conf.allMyHostsAndServices) (hx : w.downtime? i t = some x) :
    RegistersTrigger conf w i i t fixed startTime endTime duration := by
  have hlt : t < w.nextDowntime := h.made hx
  let w₁ := Scheduling.newDowntime i (Downtime.create i fixed startTime endTime duration (some t)) w
  have hx1 : w₁.downtime? i t = some x := (downtime?_newDowntime_old hlt _ i).trans hx
  have honly : ∀ k, (w₁.downtime? k t).isSome → k = i := by
    intro k hk
    obtain ⟨y, hy⟩ := Option.isSome_iff_exists.mp hk
    exact h.single ((downtime?_newDowntime_old hlt _ k).symm.trans hy) hx
  have hrun := triggerTurns_once (u := w.nextDowntime) honly (by rw [hx1]; rfl) (itemsOfType_nodup (conf.myType i))
    (mem_itemsOfType hi)
  refine ⟨_, scheduleDowntime_trigger.trans hrun, x, { x with activateMe := x.activateMe ++ [w.nextDowntime] }, hx, ?_, rfl, ?_⟩
  · unfold World.triggerMe
    rw [downtime?_changeDowntime, if_pos ⟨rfl, rfl⟩, hx1]
    rfl
  · have hnot := h.notListed hx
    rw [List.count_append, List.count_eq_zero_of_not_mem hnot, List.count_singleton_self]

theorem Linked.trigger_kept (h : Linked conf w) (hx : w.downtime? j t = some x) (hne : j ≠ i)
    (hok : scheduleDowntime conf i fixed startTime endTime duration (some t) w = .ok ⟨⟩ w') : w'.downtime? j t = some x := by
  have hlt : t < w.nextDowntime := h.made hx
  let w₁ := Scheduling.newDowntime i (Downtime.create i fixed startTime endTime duration (some t)) w
  have hx1 : w₁.downtime? j t = some x := (downtime?_newDowntime_old hlt _ j).trans hx
  have hsame : ∀ k, (w₁.downtime? k t).isSome → (w₁.downtime? i t).isSome → k = i := by
    intro k _ hi
    obtain ⟨y, hy⟩ := Option.isSome_iff_exists.mp hi
    exact absurd (h.single hx ((downtime?_newDowntime_old hlt _ i).symm.trans hy)) hne
  have hstate : stateAfter ((itemsOfType conf (conf.myType i)).forM (triggerTurn i t w.nextDowntime) w₁) = w' := by
    rw [← scheduleDowntime_trigger, hok]
    rfl
  rcases triggerTurns_state (u := w.nextDowntime) hsame (itemsOfType_nodup (conf.myType i)) with e | ⟨-, e⟩
  · rw [← hstate, e]
    exact hx1
  · rw [← hstate, e]
    unfold World.triggerMe
    rw [downtime?_changeDowntime, if_neg fun hk => hne hk.1]
    exact hx1

/-- A downtime is registered at its trigger exactly when it is for the item of the trigger. -/
theorem registersTrigger_iff (hr : Reachable conf w) (hi : i ∈ conf.allMyHostsAndServices) (hx : w.downtime? j t = some x) :
    RegistersTrigger conf w i j t fixed startTime endTime duration ↔ j = i := by
  constructor
  · rintro ⟨w', hok, y, y', hy, hy', -, hcount⟩
    by_contra hne
    rw [hr.linked.trigger_kept hx hne hok] at hy'
    cases hy'
    rw [List.count_eq_zero_of_not_mem (hr.linked.notListed hx)] at hcount
    cases hcount
  · rintro rfl
    exact hr.linked.registersTrigger hi hx

end

theorem firstDowntime_reachable : Reachable hostPair firstDowntime :=
  ⟨startWorld, _, startWorld_initial, run_of_executes hostPair (show executes hostPair startWorld
    [(plainEnv 10, .command (.scheduleDowntime 0 true 100 200 100 none))] = true by decide)⟩

theorem firstDowntime_entry : ∃ x, firstDowntime.downtime? 0 0 = some x :=
  Option.isSome_iff_exists.mp (by decide)

/-- The second downtime of host 0 has the first one as its trigger. -/
theorem registersTrigger_same : RegistersTrigger hostPair firstDowntime 0 0 0 true 100 200 100 := by
  obtain ⟨x, hx⟩ := firstDowntime_entry
  exact (registersTrigger_iff firstDowntime_reachable (by decide) hx).mpr rfl

def triggeringHost : Conf := { oneHost with services := [1], nodup := by decide }

def hostDowntime : World := worldAfter triggeringHost startWorld [(plainEnv 10, .command (.scheduleDowntime 0 true 100 200 100 none))]

theorem hostDowntime_reachable : Reachable triggeringHost hostDowntime :=
  ⟨startWorld, _, startWorld_initial, run_of_executes triggeringHost (show executes triggeringHost startWorld
    [(plainEnv 10, .command (.scheduleDowntime 0 true 100 200 100 none))] = true by decide)⟩

/-- A downtime of host 1 with that of host 0 as its trigger raises; one of the service of host 0 returns, and the list of the
trigger stays empty. -/
theorem trigger_unregistered :
    (Reachable hostPair firstDowntime ∧ (firstDowntime.downtime? 0 0).isSome ∧
      ¬ RegistersTrigger hostPair firstDowntime 1 0 0 true 100 200 100) ∧
    (Reachable triggeringHost hostDowntime ∧ (hostDowntime.downtime? 0 0).isSome ∧
      ¬ RegistersTrigger triggeringHost hostDowntime 1 0 0 true 100 200 100) := by
  refine ⟨⟨firstDowntime_reachable, by decide, ?_⟩, hostDowntime_reachable, by decide, ?_⟩
  · rintro ⟨w', hok, -⟩
    have hraises : returns (scheduleDowntime hostPair 1 true 100 200 100 (some 0) firstDowntime) = false := by decide
    rw [hok] at hraises
    cases hraises
  · rintro ⟨w', hok, x, x', -, hx', -, hcount⟩
    have hempty : ((stateAfter (scheduleDowntime triggeringHost 1 true 100 200 100 (some 0) hostDowntime)).downtime? 0 0).map
        Downtime.activateMe = some [] := by decide
    rw [hok] at hempty
    have hlist : x'.activateMe = [] := by
      rw [show stateAfter (EStateM.Result.ok (ε := Exn) PUnit.unit w') = w' from rfl, hx', Option.map_some, Option.some.injEq] at hempty
      exact hempty
    rw [hlist] at hcount
    cases hcount

end Alignak.Scheduling
