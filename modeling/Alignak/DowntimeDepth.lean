import Alignak.DowntimeStarts
import Alignak.DowntimeTallies

/-!
# What stands of the downtimes

Besides the depths, the pass of each tick relies on the order of the downtimes
of an item, on what waits for its deletion, and on which downtime has started
another one.
-/

namespace Alignak.Scheduling

section
variable {conf : Conf} {env : Env} {w s s' : World} {i j d c k fuel : Nat} {x y : Downtime}

/-! ## What stands in every state -/

structure Standing (conf : Conf) (w : World) : Prop where
  linked : Linked conf w
  counted : ∀ i, (w.downtime i).Counted
  sorted : ∀ i, (w.downtime i).downtimes.keys.Pairwise (· < ·)
  rest : ∀ {i d x}, w.downtime? i d = some x → x.canBeDeleted = true → x.isInEffect = false
  root : ∀ {i d x}, w.downtime? i d = some x → x.fixed = true → x.triggerId = none
  trigger : ∀ {i d c x y}, w.downtime? i d = some x → c ∈ x.activateMe → w.downtime? i c = some y → y.isInEffect = true →
    x.isInEffect = true ∨ x.canBeDeleted = true

def World.Fresh (w : World) (d : Nat) : Prop := ∀ c, w.Hangs d c → ∀ i y, w.downtime? i c = some y → y.canBeDeleted = false

namespace Standing

section
variable (h : Standing conf w)
include h

theorem tallied : Tallied (fun i => (w.downtime i).downtimes.keys) w := fun i => ⟨h.counted i, rfl⟩

theorem of_downtime (hd : s.downtime = w.downtime) (hn : s.nextDowntime = w.nextDowntime) : Standing conf s := by
  have hget := downtime?_of_downtime hd
  refine ⟨h.linked.of_links (links_of_downtime hd hn), fun i => ?_, fun i => ?_, fun hx => ?_, fun hx => ?_, fun hx hc hy => ?_⟩
  · rw [hd]
    exact h.counted i
  · rw [hd]
    exact h.sorted i
  · exact h.rest (hget ▸ hx)
  · exact h.root (hget ▸ hx)
  · exact h.trigger (hget ▸ hx) hc (hget ▸ hy)

theorem ended (hx : w.downtime? i d = some x) (z : Downtime) (hz : z.link = x.link ∧ z.fixed = x.fixed ∧ z.isInEffect = false ∧
      z.canBeDeleted = true) (hget : ∀ j c, s.downtime? j c = if j = i ∧ c = d then some z else w.downtime? j c)
    (hlinks : s.links = w.links) (ht : Tallied (fun i => (w.downtime i).downtimes.keys) s) : Standing conf s := by
  have hold : ∀ {j c y}, s.downtime? j c = some y → j = i ∧ c = d ∧ y = z ∨ w.downtime? j c = some y := by
    intro j c y hy
    rw [hget] at hy
    split at hy
    · rename_i hjc
      exact .inl ⟨hjc.1, hjc.2, (Option.some.inj hy).symm⟩
    · exact .inr hy
  have hlink := hz.1
  simp only [Downtime.link, Prod.mk.injEq] at hlink
  refine ⟨h.linked.of_links hlinks, fun j => (ht j).1, fun j => ?_, fun hy hm => ?_, fun hy hf => ?_, fun hy hc hk hon => ?_⟩
  · rw [(ht j).2]
    exact h.sorted j
  · rcases hold hy with ⟨-, -, rfl⟩ | hy
    · exact hz.2.2.1
    · exact h.rest hy hm
  · rcases hold hy with ⟨rfl, rfl, rfl⟩ | hy
    · rw [hlink.2.1]
      exact h.root hx (hz.2.1 ▸ hf)
    · exact h.root hy hf
  · rcases hold hk with ⟨-, -, rfl⟩ | hk
    · rw [hz.2.2.1] at hon
      cases hon
    · rcases hold hy with ⟨-, -, rfl⟩ | hy
      · exact .inr hz.2.2.2
      · exact h.trigger hy hc hk hon

theorem exit (hx : w.downtime? i d = some x) : Standing conf (Downtime.exit conf env i d w) :=
  h.ended hx x.ended ⟨rfl, rfl, rfl, rfl⟩ (downtime?_exit h.linked hx) (exit_links i d w) (h.tallied.exit h.linked hx)

theorem cancel (hx : w.downtime? i d = some x) (hon : x.isInEffect = true) : Standing conf (w.cancelDowntime i d x) := by
  have hlinks : (w.cancelDowntime i d x).links = w.links := by
    have hkeep := cancel_links (l := w.links) i d w rfl
    rw [cancel_eq hx] at hkeep
    split at hkeep
    · exact hkeep.1
    · exact hkeep.1
  exact h.ended hx { x with commentId := none, isInEffect := false, canBeDeleted := true } ⟨rfl, rfl, rfl, rfl⟩
    (downtime?_cancelDowntime hx) hlinks (h.tallied.cancel h.linked hx hon)

theorem delete (hx : w.downtime? i d = some x) (hm : x.canBeDeleted = true) : Standing conf (w.delDowntime i d) := by
  have hold : ∀ {j c y}, (w.delDowntime i d).downtime? j c = some y → w.downtime? j c = some y := by
    intro j c y hy
    rw [downtime?_delDowntime] at hy
    split at hy
    · cases hy
    · exact hy
  refine ⟨h.linked.shrink rfl fun j c y hy => ⟨y, hold hy, rfl⟩, fun j => ?_, fun j => ?_, fun hy => h.rest (hold hy),
    fun hy => h.root (hold hy), fun hy hc hk => h.trigger (hold hy) hc (hold hk)⟩
  · by_cases hj : j = i
    · subst hj
      rw [World.delDowntime, World.modifyDowntime_self]
      exact (h.counted j).erase hx (h.rest hx hm)
    · rw [World.delDowntime, World.modifyDowntime_ne _ hj]
      exact h.counted j
  · by_cases hj : j = i
    · subst hj
      rw [World.delDowntime, World.modifyDowntime_self]
      exact (h.sorted j).sublist Dict.keys_erase_sublist
    · rw [World.delDowntime, World.modifyDowntime_ne _ hj]
      exact h.sorted j

end

end Standing

/-! ## New downtimes -/

section
variable (h : Standing conf w)
include h

theorem Standing.newDowntime (hr : x.ref = i) (ha : x.activateMe = []) (hoff : x.isInEffect = false)
    (hroot : x.fixed = true → x.triggerId = none) : Standing conf (newDowntime i x w) := by
  have hnew : (w.downtime i).downtimes.get? w.nextDowntime = none := by
    cases hz : (w.downtime i).downtimes.get? w.nextDowntime with
    | none => rfl
    | some z => exact absurd (h.linked.made hz) (lt_irrefl _)
  have hold : ∀ {j c y}, (Scheduling.newDowntime i x w).downtime? j c = some y →
      (j = i ∧ c = w.nextDowntime ∧ y = { x with commentId := some w.nextComment }) ∨ w.downtime? j c = some y := by
    intro j c y hy
    rw [downtime?_newDowntime] at hy
    split at hy
    · rename_i hjc
      exact .inl ⟨hjc.1, hjc.2, (Option.some.inj hy).symm⟩
    · exact .inr hy
  have hself : (Scheduling.newDowntime i x w).downtime i = { w.downtime i with
      downtimes := (w.downtime i).downtimes.set w.nextDowntime { x with commentId := some w.nextComment } } := by
    show ((w.addComment i ⟨i, 2⟩).addDowntime i w.nextDowntime _).downtime i = _
    rw [World.addDowntime, World.modifyDowntime_self]
    rfl
  have hother : ∀ j, j ≠ i → (Scheduling.newDowntime i x w).downtime j = w.downtime j := by
    intro j hj
    show ((w.addComment i ⟨i, 2⟩).addDowntime i w.nextDowntime _).downtime j = _
    rw [World.addDowntime, World.modifyDowntime_ne _ hj]
    rfl
  refine ⟨h.linked.newDowntime hr ha, fun j => ?_, fun j => ?_, fun hy hm' => ?_, fun hy => ?_, fun hy hc hk hon => ?_⟩
  · by_cases hj : j = i
    · subst hj
      rw [hself]
      exact (h.counted j).add hnew hoff
    · rw [hother j hj]
      exact h.counted j
  · by_cases hj : j = i
    · subst hj
      rw [hself]
      show ((w.downtime j).downtimes.set _ _).keys.Pairwise _
      rw [Dict.keys_set_new hnew, List.pairwise_append]
      refine ⟨h.sorted j, List.pairwise_singleton _ _, fun c hc b hb => ?_⟩
      rw [List.mem_singleton.mp hb]
      obtain ⟨y, hy⟩ := Option.ne_none_iff_exists'.mp (Dict.mem_keys.mp hc)
      exact h.linked.made hy
    · rw [hother j hj]
      exact h.sorted j
  · rcases hold hy with ⟨-, -, rfl⟩ | hy
    · exact hoff
    · exact h.rest hy hm'
  · rcases hold hy with ⟨-, -, rfl⟩ | hy
    · exact hroot
    · exact h.root hy
  · rcases hold hy with ⟨-, -, rfl⟩ | hy
    · rw [show ({ x with commentId := some w.nextComment } : Downtime).activateMe = [] from ha] at hc
      cases hc
    · rcases hold hk with ⟨-, rfl, rfl⟩ | hk
      · rw [show ({ x with commentId := some w.nextComment } : Downtime).isInEffect = false from hoff] at hon
        cases hon
      · exact h.trigger hy hc hk hon

theorem Standing.triggerMe {t u : Nat} (hl : Linked conf (w.triggerMe i t u)) (hy : w.downtime? i u = some y) (hoff : y.isInEffect = false) :
    Standing conf (w.triggerMe i t u) := by
  cases hx : w.downtime? i t with
  | none =>
    have hsame : w.triggerMe i t u = w := by
      unfold World.triggerMe World.changeDowntime
      rw [hx]
    rw [hsame]
    exact h
  | some x =>
    have ht := h.tallied.change (f := fun x => { x with activateMe := x.activateMe ++ [u] }) hx rfl
    have hold : ∀ {j c z}, (w.triggerMe i t u).downtime? j c = some z → ∃ z', w.downtime? j c = some z' ∧
        z.isInEffect = z'.isInEffect ∧ z.canBeDeleted = z'.canBeDeleted ∧ z.fixed = z'.fixed ∧ z.triggerId = z'.triggerId ∧
        ∀ c' ∈ z.activateMe, c' ∈ z'.activateMe ∨ j = i ∧ c' = u := by
      intro j c z hz
      rw [World.triggerMe, downtime?_changeDowntime, hx] at hz
      split at hz
      · rename_i hjc
        obtain ⟨rfl, rfl⟩ := hjc
        cases hz
        refine ⟨x, hx, rfl, rfl, rfl, rfl, fun c' hc' => ?_⟩
        rcases List.mem_append.mp hc' with hc' | hc'
        · exact .inl hc'
        · exact .inr ⟨rfl, List.mem_singleton.mp hc'⟩
      · exact ⟨z, hz, rfl, rfl, rfl, rfl, fun c' hc' => .inl hc'⟩
    refine ⟨hl, fun j => (ht j).1, fun j => ?_, fun hz hm => ?_, fun hz hf => ?_, fun hz hc hk hon => ?_⟩
    · rw [show ((w.triggerMe i t u).downtime j).downtimes.keys = (w.downtime j).downtimes.keys from (ht j).2]
      exact h.sorted j
    · obtain ⟨z', hz', he, hm', -⟩ := hold hz
      rw [he]
      exact h.rest hz' (hm' ▸ hm)
    · obtain ⟨z', hz', -, -, hf', htr, -⟩ := hold hz
      rw [htr]
      exact h.root hz' (hf' ▸ hf)
    · obtain ⟨z', hz', he, hm', -, -, hmem⟩ := hold hz
      obtain ⟨k', hk', hek, -⟩ := hold hk
      rw [he, hm']
      rcases hmem _ hc with hc | ⟨rfl, rfl⟩
      · exact h.trigger hz' hc hk' (hek ▸ hon)
      · rw [hk'] at hy
        cases hy
        rw [hek, hoff] at hon
        cases hon

theorem Standing.scheduleDowntime (fixed : Bool) (startTime endTime duration : Int) {triggerId : Option Nat}
    (hne : triggerId ≠ some w.nextDowntime) :
    Standing conf (stateAfter (scheduleDowntime conf i fixed startTime endTime duration triggerId w)) := by
  have hlinked := scheduleDowntime_linked (i := i) fixed startTime endTime duration h.linked hne
  have hroot : (Downtime.create i fixed startTime endTime duration triggerId).fixed = true →
      (Downtime.create i fixed startTime endTime duration triggerId).triggerId = none := by
    unfold Downtime.create
    cases triggerId <;> simp
  have hnew := h.newDowntime (i := i) (x := Downtime.create i fixed startTime endTime duration triggerId) rfl rfl rfl hroot
  cases triggerId with
  | none => exact hnew
  | some t =>
    have hnodup : (itemsOfType conf (conf.myType i)).Nodup := by
      have h2 := List.nodup_append.mp conf.nodup
      unfold itemsOfType
      split
      · exact h2.1
      · exact h2.2.1
    have hstate : stateAfter (Scheduling.scheduleDowntime conf i fixed startTime endTime duration (some t) w) =
        stateAfter ((itemsOfType conf (conf.myType i)).forM (triggerTurn i t w.nextDowntime) (Scheduling.newDowntime i
          (Downtime.create i fixed startTime endTime duration (some t)) w)) := rfl
    rw [hstate] at hlinked ⊢
    rcases triggerTurns_state (u := w.nextDowntime) hnew.linked.same hnodup with e | ⟨-, e⟩
    · rw [e]
      exact hnew
    · rw [e] at hlinked ⊢
      exact hnew.triggerMe hlinked ((downtime?_newDowntime w i _ i w.nextDowntime).trans (if_pos ⟨rfl, rfl⟩)) rfl

end

/-! ## Starts -/

theorem Linked.hangs_item (h : Linked conf w) (hx : w.downtime? i d = some x) (hd : w.Hangs d c) (hy : w.downtime? j c = some y) :
    j = i := by
  induction hd generalizing j y with
  | refl => exact h.single hy hx
  | tail _ hl ih =>
    obtain ⟨i', x', y', hx', hc, hy'⟩ := hl
    have hi := ih hx'
    subst hi
    exact h.single hy hy'

section
variable (h : Standing conf w) (hx : w.downtime? i d = some x)
include h hx

theorem Standing.idle (hoff : x.isInEffect = false) (hfresh : w.Fresh d) : w.Idle d := by
  intro c hc
  induction hc with
  | refl =>
    intro j y hy
    have hj := h.linked.single hy hx
    subst hj
    rw [hx] at hy
    cases hy
    exact hoff
  | @tail b c hb hl ih =>
    intro j y hy
    obtain ⟨i', x', y', hx', hc, hy'⟩ := hl
    have hj := h.linked.single hy hy'
    subst hj
    cases hon : y.isInEffect with
    | false => rfl
    | true =>
      rcases h.trigger hx' hc hy hon with hon' | hm
      · rw [ih j x' hx'] at hon'
        cases hon'
      · rw [hfresh b hb j x' hx'] at hm
        cases hm

theorem Standing.enter (env : Env) (hroot : x.triggerId = none) (hoff : x.isInEffect = false) (hfresh : w.Fresh d) :
    ∃ w', enterDowntime conf env i d w = .ok ⟨⟩ w' ∧ Standing conf w' ∧ Started (w.Hangs d) w w' ∧
      ∀ j c, (w'.downtime? j c).map Downtime.canBeDeleted = (w.downtime? j c).map Downtime.canBeDeleted := by
  let mark (y : Downtime) := (y.canBeDeleted, y.fixed)
  have hmark {s : World} {j c : Nat} {y : Downtime} (hy : s.downtime? j c = some y) (k b : Nat) :
      ((s.startDowntime conf env j c y).downtime? k b).map mark = (s.downtime? k b).map mark := by
    rw [downtime?_startDowntime]
    split
    · rename_i hkb
      rw [hkb.1, hkb.2, hy]
      rfl
    · rfl
  obtain ⟨w', hw', hst, ht, hmarks⟩ := enter_keeps env
    (P := fun s => Tallied (fun i => (w.downtime i).downtimes.keys) s ∧ ∀ j c, (s.downtime? j c).map mark = (w.downtime? j c).map mark)
    (fun hl hy hold hP => ⟨hP.1.start hl hy hold, fun k b => (hmark hy k b).trans (hP.2 k b)⟩)
    (w.nextDowntime + 1) h.linked hx (by omega) (h.idle hx hoff hfresh) ⟨h.tallied, fun _ _ => rfl⟩
  have hold : ∀ {j c y}, w'.downtime? j c = some y → ∃ z, w.downtime? j c = some z ∧ y.canBeDeleted = z.canBeDeleted ∧
      y.fixed = z.fixed ∧ y.link = z.link ∧ (y.isInEffect = true → w.Hangs d c ∨ z.isInEffect = true) := by
    intro j c y hy
    obtain ⟨z, hz, hlink⟩ := entry_of_links hst.links hy
    have hm := hmarks j c
    rw [hy, hz, Option.map_some, Option.map_some, Option.some.injEq, Prod.mk.injEq] at hm
    refine ⟨z, hz, hm.1, hm.2, hlink.symm, fun hon => ?_⟩
    by_cases hc : w.Hangs d c
    · exact .inl hc
    · have hsame := hst.outside hz hc
      rw [hy] at hsame
      cases hsame
      exact .inr hon
  refine ⟨w', hw', ⟨h.linked.of_links hst.links, fun j => (ht j).1, fun j => ?_, fun hy hm => ?_, fun hy hf => ?_,
    fun {j b c y k} hy hc hk hon => ?_⟩, hst, fun j c => ?_⟩
  · rw [(ht j).2]
    exact h.sorted j
  · obtain ⟨z, hz, hm', -, -, hon⟩ := hold hy
    have hzm := hm' ▸ hm
    cases hyon : Downtime.isInEffect _ with
    | false => rfl
    | true =>
      rcases hon hyon with hc | hzon
      · rw [hfresh _ hc _ _ hz] at hzm
        cases hzm
      · rw [h.rest hz hzm] at hzon
        cases hzon
  · obtain ⟨z, hz, -, hf', hlink, -⟩ := hold hy
    simp only [Downtime.link, Prod.mk.injEq] at hlink
    rw [hlink.2.1]
    exact h.root hz (hf' ▸ hf)
  · obtain ⟨z, hz, hm', -, hlink, -⟩ := hold hy
    simp only [Downtime.link, Prod.mk.injEq] at hlink
    rw [hlink.2.2] at hc
    obtain ⟨k, hk', -, -, -, hkon⟩ := hold hk
    have hlists : w.Lists b c := ⟨j, z, k, hz, hc, hk'⟩
    rcases hkon hon with hhangs | hkon
    · -- its trigger starts too: the downtime itself has none
      rcases Relation.ReflTransGen.cases_tail hhangs with heq | ⟨a, ha, hac⟩
      · subst heq
        have hj := h.linked.single hk' hx
        subst hj
        rw [hx] at hk'
        cases hk'
        have hnamed := ((h.linked.link hz hc).2.2.2 hx).2
        rw [hroot] at hnamed
        cases hnamed
      · have hsame := h.linked.lists_unique hac hlists
        subst hsame
        obtain ⟨y', hy', hon'⟩ := hst.inside hz ha
        rw [hy] at hy'
        cases hy'
        exact .inl hon'
    · rcases h.trigger hz hc hk' hkon with hzon | hzm
      · by_cases hd : w.Hangs d b
        · obtain ⟨y', hy', hon'⟩ := hst.inside hz hd
          rw [hy] at hy'
          cases hy'
          exact .inl hon'
        · have hsame := hst.outside hz hd
          rw [hy] at hsame
          cases hsame
          exact .inl hzon
      · exact .inr (hm'.trans hzm)
  · have hm := hmarks j c
    have hfst := congrArg (Option.map Prod.fst) hm
    rw [Option.map_map, Option.map_map] at hfst
    exact hfst

end

/-! ## The pass of each tick -/

def World.Cleared (w : World) (i : Nat) : Prop := ∀ c y, w.downtime? i c = some y → y.canBeDeleted = false

def World.Shrinks (w s : World) : Prop := ∀ j c y, s.downtime? j c = some y → w.downtime? j c = some y

def deleteTurn (i : Nat) (w : World) (d : Nat) : World :=
  match w.downtime? i d with
  | some x => if x.canBeDeleted then w.delDowntime i d else w
  | none => w

theorem deleteTurn_standing (h : Standing conf w) (i d : Nat) :
    Standing conf (deleteTurn i w d) ∧ w.Shrinks (deleteTurn i w d) ∧
      ∀ y, (deleteTurn i w d).downtime? i d = some y → y.canBeDeleted = false := by
  unfold deleteTurn
  cases hx : w.downtime? i d with
  | none =>
    refine ⟨h, fun _ _ _ hy => hy, fun y hy => ?_⟩
    rw [hx] at hy
    cases hy
  | some x =>
    by_cases hm : x.canBeDeleted = true
    · simp only [if_pos hm]
      refine ⟨h.delete hx hm, fun j c y hy => ?_, fun y hy => ?_⟩
      · rw [downtime?_delDowntime] at hy
        split at hy
        · cases hy
        · exact hy
      · rw [downtime?_delDowntime, if_pos ⟨rfl, rfl⟩] at hy
        cases hy
    · simp only [if_neg hm]
      refine ⟨h, fun _ _ _ hy => hy, fun y hy => ?_⟩
      rw [hx] at hy
      cases hy
      simpa using hm

theorem deleteTurns_standing : ∀ (l : List Nat) {w : World}, Standing conf w → Standing conf (l.foldl (deleteTurn i) w) ∧
    w.Shrinks (l.foldl (deleteTurn i) w) ∧ ∀ d ∈ l, ∀ y, (l.foldl (deleteTurn i) w).downtime? i d = some y → y.canBeDeleted = false
  | [], _, h => ⟨h, fun _ _ _ hy => hy, fun _ hd => absurd hd List.not_mem_nil⟩
  | d :: l, w, h => by
    obtain ⟨h1, hs1, hd1⟩ := deleteTurn_standing h i d
    obtain ⟨h2, hs2, hd2⟩ := deleteTurns_standing l h1
    refine ⟨h2, fun j c y hy => hs1 j c y (hs2 j c y hy), fun c hc y hy => ?_⟩
    rcases List.mem_cons.mp hc with rfl | hc
    · exact hd1 y (hs2 i c y hy)
    · exact hd2 c hc y hy

theorem Standing.deleteMarked (h : Standing conf w) (i : Nat) :
    Standing conf (deleteMarked i w) ∧ w.Shrinks (deleteMarked i w) ∧ (deleteMarked i w).Cleared i := by
  obtain ⟨h1, hs, hd⟩ := deleteTurns_standing (i := i) (w.downtime i).downtimes.keys h
  refine ⟨h1, hs, fun c y hy => hd c ?_ y hy⟩
  exact Dict.mem_keys.mpr (Option.ne_none_iff_exists'.mpr ⟨y, hs i c y hy⟩)

theorem deleteAll_standing : ∀ (l : List Nat) {w : World}, Standing conf w →
    Standing conf (l.foldl (fun w i => Scheduling.deleteMarked i w) w) ∧ w.Shrinks (l.foldl (fun w i => Scheduling.deleteMarked i w) w) ∧
      ∀ i ∈ l, (l.foldl (fun w i => Scheduling.deleteMarked i w) w).Cleared i
  | [], _, h => ⟨h, fun _ _ _ hy => hy, fun _ hi => absurd hi List.not_mem_nil⟩
  | i :: l, w, h => by
    obtain ⟨h1, hs1, hc1⟩ := h.deleteMarked i
    obtain ⟨h2, hs2, hc2⟩ := deleteAll_standing l h1
    refine ⟨h2, fun j c y hy => hs1 j c y (hs2 j c y hy), fun j hj c y hy => ?_⟩
    rcases List.mem_cons.mp hj with rfl | hj
    · exact hc1 c y (hs2 j c y hy)
    · exact hc2 j hj c y hy

theorem Standing.maintenance (h : Standing conf w) (m : Option Nat) :
    Standing conf (w.modifyDowntime i fun s => { s with inMaintenance := m }) := by
  have hget : (w.modifyDowntime i fun s => { s with inMaintenance := m }).downtime? = w.downtime? :=
    funext fun j => funext fun c => downtime?_modifyDowntime (f := fun s => { s with inMaintenance := m }) (fun _ => rfl) j c
  refine ⟨h.linked.of_links (links_of_same hget rfl), fun j => ?_, fun j => ?_, fun hx => ?_, fun hx => ?_, fun hx hc hy => ?_⟩
  · by_cases hj : j = i
    · subst hj
      rw [World.modifyDowntime_self]
      exact ⟨(h.counted j).depth, (h.counted j).flag⟩
    · rw [World.modifyDowntime_ne _ hj]
      exact h.counted j
  · by_cases hj : j = i
    · subst hj
      rw [World.modifyDowntime_self]
      exact h.sorted j
    · rw [World.modifyDowntime_ne _ hj]
      exact h.sorted j
  · exact h.rest (hget ▸ hx)
  · exact h.root (hget ▸ hx)
  · exact h.trigger (hget ▸ hx) hc (hget ▸ hy)

theorem checkMaintenance_standing (i : Nat) : Keeps (Standing conf) (checkMaintenance env i) := by
  refine Keeps.read fun w => ?_
  split
  · exact Keeps.pure _
  · refine Keeps.ite (fun _ => ?_) fun _ => Keeps.pure _
    split
    · exact Keeps.throw trivial
    · split
      · exact Keeps.throw trivial
      · exact Keeps.bind (Keeps.modify fun s h => h.newDowntime rfl rfl rfl fun _ => rfl) fun _ => Keeps.modify fun s h => h.maintenance _
  · exact Keeps.ite (fun _ => Keeps.modify fun s h => h.maintenance _) fun _ => Keeps.pure _

theorem checkStartStop_standing (env : Env) (h : Standing conf w) (hfresh : ∀ c y, d ≤ c → w.downtime? i c = some y → y.canBeDeleted = false) :
    Standing conf (stateAfter (checkStartStop conf env i d w)) ∧
      ∀ j c y, (stateAfter (checkStartStop conf env i d w)).downtime? j c = some y → y.canBeDeleted = true →
        j = i ∧ c = d ∨ ∃ z, w.downtime? j c = some z ∧ z.canBeDeleted = true := by
  have hsame : Standing conf w ∧ ∀ j c y, w.downtime? j c = some y → y.canBeDeleted = true →
      j = i ∧ c = d ∨ ∃ z, w.downtime? j c = some z ∧ z.canBeDeleted = true := ⟨h, fun _ _ y hy hm => .inr ⟨y, hy, hm⟩⟩
  unfold checkStartStop
  rw [get_bind]
  cases hx : w.downtime? i d with
  | none => exact hsame
  | some x =>
    by_cases hend : x.realEndTime < env.now
    · simp only [if_pos hend]
      refine ⟨h.exit hx, fun j c y hy hm => ?_⟩
      have hy : (Downtime.exit conf env i d w).downtime? j c = some y := hy
      rw [downtime?_exit h.linked hx] at hy
      split at hy
      · rename_i hjc
        exact .inl hjc
      · exact .inr ⟨y, hy, hm⟩
    · simp only [if_neg hend]
      by_cases hstart : x.startTime ≤ env.now ∧ x.fixed ∧ !x.isInEffect
      · simp only [if_pos hstart]
        have hoff : x.isInEffect = false := by simpa using hstart.2.2
        have hall : w.Fresh d := by
          intro c hc j y hy
          have hj := h.linked.hangs_item hx hc hy
          subst hj
          exact hfresh c y (h.linked.le_of_hangs hc) hy
        obtain ⟨w', hw', h', -, hmarks⟩ := h.enter hx env (h.root hx hstart.2.1) hoff hall
        rw [hw']
        refine ⟨h', fun j c y hy hm => .inr ?_⟩
        have hmark := hmarks j c
        have hy : w'.downtime? j c = some y := hy
        rw [hy, Option.map_some] at hmark
        obtain ⟨z, hz, hzm⟩ := Option.map_eq_some_iff.mp hmark.symm
        exact ⟨z, hz, hzm.trans hm⟩
      · simp only [if_neg hstart]
        exact hsame

/-- The starts and ends of one item, in the order of its downtimes. -/
theorem startStops_standing (conf : Conf) (env : Env) (items : List Nat) (i : Nat) (hi : i ∉ items) (l : List Nat) :
    Leads (fun w => Standing conf w ∧ l.Pairwise (· < ·) ∧ (∀ d ∈ l, ∀ c y, d ≤ c → w.downtime? i c = some y → y.canBeDeleted = false) ∧
        ∀ j ∈ items, w.Cleared j)
      (l.forM (checkStartStop conf env i)) fun w => Standing conf w ∧ ∀ j ∈ items, w.Cleared j := by
  refine Leads.forM (I := fun l w => Standing conf w ∧ l.Pairwise (· < ·) ∧
    (∀ d ∈ l, ∀ c y, d ≤ c → w.downtime? i c = some y → y.canBeDeleted = false) ∧ ∀ j ∈ items, w.Cleared j)
    (fun d l w => ?_) (fun l w hw => ⟨hw.1, hw.2.2.2⟩) l
  rintro ⟨h, hsorted, hfresh, hclear⟩
  rw [List.pairwise_cons] at hsorted
  obtain ⟨h', hmarks⟩ := checkStartStop_standing env h (hfresh d List.mem_cons_self)
  refine ⟨⟨h', hsorted.2, fun c hc b y hcb hy => ?_, fun j hj c y hy => ?_⟩, fun _ _ _ => trivial⟩
  · by_contra hm
    rcases hmarks i b y hy (by simpa using hm) with ⟨-, hbd⟩ | ⟨z, hz, hzm⟩
    · have hlt := hsorted.1 c hc
      omega
    · rw [hfresh c (List.mem_cons_of_mem _ hc) b z hcb hz] at hzm
      cases hzm
  · by_contra hm
    rcases hmarks j c y hy (by simpa using hm) with ⟨hji, -⟩ | ⟨z, hz, hzm⟩
    · exact hi (hji ▸ hj)
    · rw [hclear j hj c z hz] at hzm
      cases hzm

theorem updateDowntimesAndComments_standing : Keeps (Standing conf) (updateDowntimesAndComments conf env) := by
  refine Leads.bind (Keeps.forM fun i _ => checkMaintenance_standing i) (fun _ => ?_) fun _ h => h
  refine Leads.bind (K := fun w => Standing conf w ∧ ∀ i ∈ conf.allMyHostsAndServices, w.Cleared i)
    (Leads.modify fun w h => ?_) (fun _ => ?_) fun _ h => h.1
  · obtain ⟨h', -, hc⟩ := deleteAll_standing conf.allMyHostsAndServices h
    exact ⟨h', hc⟩
  · have hloop := Leads.forM (ε := Exn) (E := fun _ => True)
      (f := fun i => do ((← get).downtime i).downtimes.keys.forM (checkStartStop conf env i))
      (I := fun l w => Standing conf w ∧ l.Nodup ∧ ∀ i ∈ l, w.Cleared i) (J := Standing conf) (fun i l => ?_) (fun l w hw => hw.1)
      conf.allMyHostsAndServices
    · exact hloop.pre fun w hw => ⟨hw.1, conf.nodup, hw.2⟩
    · refine Leads.readAt fun w hw => ?_
      have hn := List.nodup_cons.mp hw.2.1
      have hturns := startStops_standing conf env l i hn.1 (w.downtime i).downtimes.keys
      intro s e
      subst e
      obtain ⟨⟨h', hc'⟩, hE⟩ := hturns s ⟨hw.1, hw.1.sorted i, fun d _ c y _ hy => hw.2.2 i List.mem_cons_self c y hy,
        fun j hj => hw.2.2 j (List.mem_cons_of_mem _ hj)⟩
      exact ⟨⟨h', hn.2, hc'⟩, hE⟩

end

end Alignak.Scheduling
