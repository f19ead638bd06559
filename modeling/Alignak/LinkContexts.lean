import Alignak.SetupNewConf
import Mathlib.Logic.Function.Basic

/-!
# The contexts of the links in a new configuration

The tables are emptied before they are searched, so that no link is found there
and every new link starts with nothing. What a link held is kept only when it
held nothing.
-/

namespace Alignak.NewConf

section
variable {κ α β : Type} [DecidableEq κ] {newObjectId : Nat → κ} {conf : Conf κ} {d d' : Daemon κ α β}

structure Link.Idle (link : Link κ α β) : Prop where
  broks : link.broks = []
  actions : link.actions = Dict.empty
  waitHomerun : link.waitHomerun = Dict.empty

structure Link.Carries (link former : Link κ α β) : Prop where
  instanceId : link.instanceId = former.instanceId
  broks : link.broks = former.broks
  actions : link.actions = former.actions
  waitHomerun : link.waitHomerun = former.waitHomerun

def Daemon.Knows (d : Daemon κ α β) (conf : Conf κ) (type : LinkType) (former : Link κ α β) : Prop :=
  type ∈ setupTypes d.isScheduler ∧ former ∈ (d.links type).values ∧
    ∃ received, conf.links type = some received ∧ ∃ rs ∈ received.values, rs.instanceId = former.instanceId

def CarriedOver (conf : Conf κ) (d d' : Daemon κ α β) : Prop :=
  ∀ type former, d.Knows conf type former → ∃ link ∈ (d'.links type).values, link.Carries former

def Conf.FromArbiter (conf : Conf κ) : Prop :=
  ∀ type received, conf.links type = some received → ∀ rs ∈ received.values, rs.uuid = none

structure Fresh (newObjectId : Nat → κ) (conf : Conf κ) : Prop where
  injective : Function.Injective newObjectId
  notInstance : ∀ {type received rs}, conf.links type = some received → rs ∈ received.values → ∀ n, newObjectId n ≠ rs.instanceId

/-! ## One table -/

/-- The links of the table were created since `first`, and have nothing. -/
structure Blank (newObjectId : Nat → κ) (first created : Nat) (links : Dict κ (Link κ α β)) : Prop where
  idle : ∀ {k link}, links.get? k = some link → link.Idle
  key : ∀ {k}, k ∈ links.keys → ∃ n, first ≤ n ∧ n < created ∧ k = newObjectId n

theorem setupLink_ok {first created : Nat} {links : Dict κ (Link κ α β)} {rs : RsConf κ} (linkUuid : κ)
    (h : Blank newObjectId first created links) (hf : first ≤ created) (hi : Function.Injective newObjectId)
    (hn : ∀ n, newObjectId n ≠ rs.instanceId) (hu : rs.uuid = none) :
    ∃ links', setupLink newObjectId (created, links) linkUuid rs = .ok (created + 1, links') ∧
      Blank newObjectId first (created + 1) links' ∧ (∃ link ∈ links'.values, link.instanceId = rs.instanceId) ∧
      ∀ link ∈ links.values, link ∈ links'.values := by
  set newLink : Link κ α β := getASatelliteLink newObjectId created rs with hnew
  have hid : newLink.uuid = newObjectId created := by
    rw [hnew]
    unfold getASatelliteLink
    rw [hu]
    rfl
  have hnone : links.get? rs.instanceId = none := by
    rw [Dict.get?_eq_none]
    intro hk
    obtain ⟨n, -, -, he⟩ := h.key hk
    exact hn n he.symm
  have hfree : links.get? newLink.uuid = none := by
    rw [Dict.get?_eq_none, hid]
    intro hk
    obtain ⟨n, -, hlt, he⟩ := h.key hk
    exact absurd (hi he) (Nat.ne_of_gt hlt)
  refine ⟨links.set newLink.uuid newLink, ?_, ⟨fun {k link} hk => ?_, fun {k} hk => ?_⟩, ?_, fun link hl => ?_⟩
  · unfold setupLink Dict.contains
    simp only [hnone, Option.isSome_none]
    rfl
  · rw [Dict.get?_set] at hk
    split at hk
    · cases hk
      exact ⟨rfl, rfl, rfl⟩
    · exact h.idle hk
  · rcases Dict.mem_keys_set.mp hk with rfl | hk
    · exact ⟨created, hf, Nat.lt_succ_self _, hid⟩
    · obtain ⟨n, h1, h2, h3⟩ := h.key hk
      exact ⟨n, h1, Nat.lt_succ_of_lt h2, h3⟩
  · exact ⟨newLink, Dict.mem_values.mpr ⟨_, Dict.get?_set_self⟩, rfl⟩
  · obtain ⟨k, hk⟩ := Dict.mem_values.mp hl
    refine Dict.mem_values.mpr ⟨k, (Dict.get?_set_ne ?_).trans hk⟩
    rintro rfl
    cases hfree.symm.trans hk

theorem setupLoop_ok {first created : Nat} {links : Dict κ (Link κ α β)} {l : List (κ × RsConf κ)}
    (h : Blank newObjectId first created links) (hf : first ≤ created) (hi : Function.Injective newObjectId)
    (hn : ∀ e ∈ l, ∀ n, newObjectId n ≠ e.2.instanceId) (hu : ∀ e ∈ l, e.2.uuid = none) :
    ∃ created' links', l.foldlM (fun state e => setupLink newObjectId state e.1 e.2) (created, links) = .ok (created', links') ∧
      Blank newObjectId first created' links' ∧ (∀ e ∈ l, ∃ link ∈ links'.values, link.instanceId = e.2.instanceId) ∧
      ∀ link ∈ links.values, link ∈ links'.values := by
  induction l generalizing created links with
  | nil => exact ⟨created, links, rfl, h, fun e he => (nomatch he), fun _ hl => hl⟩
  | cons e l ih =>
    obtain ⟨links₁, he1, h1, hnew1, hold1⟩ := setupLink_ok e.1 h hf hi (hn e List.mem_cons_self) (hu e List.mem_cons_self)
    obtain ⟨created₂, links₂, he2, h2, hnew2, hold2⟩ := ih h1 (Nat.le_succ_of_le hf) (fun e he => hn e (List.mem_cons_of_mem _ he))
      fun e he => hu e (List.mem_cons_of_mem _ he)
    refine ⟨created₂, links₂, ?_, h2, fun e' he' => ?_, fun link hl => hold2 link (hold1 link hl)⟩
    · rw [List.foldlM_cons, he1]
      exact he2
    · rcases List.mem_cons.mp he' with rfl | he'
      · obtain ⟨link, hl, hid⟩ := hnew1
        exact ⟨link, hold2 link hl, hid⟩
      · exact hnew2 e' he'

/-! ## The tables -/

structure Renewed (conf : Conf κ) (d : Daemon κ α β) (type : LinkType) : Prop where
  idle : ∀ link ∈ (d.links type).values, link.Idle
  received : ∀ received, conf.links type = some received → ∀ rs ∈ received.values,
    ∃ link ∈ (d.links type).values, link.instanceId = rs.instanceId

theorem setupLinks_ok (hfresh : Fresh newObjectId conf) (hsent : conf.FromArbiter) {type : LinkType} (he : d.links type = Dict.empty) :
    ∃ d', setupLinks newObjectId conf d type = .ok d' ∧ Renewed conf d' type ∧ ∀ type', type' ≠ type → d'.links type' = d.links type' := by
  unfold setupLinks
  cases hc : conf.links type with
  | none =>
    refine ⟨d, rfl, ⟨fun link hl => ?_, fun received hr => ?_⟩, fun _ _ => rfl⟩
    · rw [he] at hl
      cases hl
    · rw [hc] at hr
      cases hr
  | some received =>
    have hblank : Blank newObjectId d.created d.created (d.links type) := by
      rw [he]
      exact ⟨fun hk => (nomatch hk), fun hk => (nomatch hk)⟩
    have hmem : ∀ e ∈ received.entries, e.2 ∈ received.values := fun e hm => List.mem_map.mpr ⟨e, hm, rfl⟩
    obtain ⟨created, links, hrun, hlinks, hnew, -⟩ := setupLoop_ok hblank (Nat.le_refl _) hfresh.injective
      (fun e hm => hfresh.notInstance hc (hmem e hm)) fun e hm => hsent type received hc e.2 (hmem e hm)
    have hself : Function.update d.links type links type = links := Function.update_self ..
    refine ⟨{ d with links := Function.update d.links type links, created := created }, ?_, ⟨fun link hl => ?_, fun r hr rs hrs => ?_⟩,
      fun type' hne => Function.update_of_ne hne _ _⟩
    · simp only [hrun]
      rfl
    · simp only [hself] at hl
      obtain ⟨k, hk⟩ := Dict.mem_values.mp hl
      exact hlinks.idle hk
    · rw [hc] at hr
      cases hr
      obtain ⟨e, hm, rfl⟩ := List.mem_map.mp hrs
      simp only [hself]
      exact hnew e hm

theorem setupTypes_ok (hfresh : Fresh newObjectId conf) (hsent : conf.FromArbiter) : ∀ {types : List LinkType} {d : Daemon κ α β},
    types.Nodup → (∀ type ∈ types, d.links type = Dict.empty) →
    ∃ d', types.foldlM (setupLinks newObjectId conf) d = .ok d' ∧ (∀ type ∈ types, Renewed conf d' type) ∧
      ∀ type, type ∉ types → d'.links type = d.links type
  | [], d, _, _ => ⟨d, rfl, fun _ h => (nomatch h), fun _ _ => rfl⟩
  | type :: types, d, hn, he => by
    obtain ⟨hnot, hn⟩ := List.nodup_cons.mp hn
    obtain ⟨d₁, hrun1, h1, hother1⟩ := setupLinks_ok hfresh hsent (he type List.mem_cons_self)
    have he1 : ∀ type' ∈ types, d₁.links type' = Dict.empty := by
      intro type' hm
      have hne : type' ≠ type := fun e => hnot (e ▸ hm)
      rw [hother1 type' hne]
      exact he type' (List.mem_cons_of_mem _ hm)
    obtain ⟨d₂, hrun2, h2, hother2⟩ := setupTypes_ok hfresh hsent hn he1
    refine ⟨d₂, ?_, fun type' hm => ?_, fun type' hm => ?_⟩
    · rw [List.foldlM_cons, hrun1]
      exact hrun2
    · rcases List.mem_cons.mp hm with rfl | hm
      · have hsame := hother2 type' hnot
        exact ⟨by rw [hsame]; exact h1.idle, by rw [hsame]; exact h1.received⟩
      · exact h2 type' hm
    · rw [List.mem_cons, not_or] at hm
      rw [hother2 type' hm.2, hother1 type' hm.1]

theorem setupTypes_cleaned {isScheduler : Bool} {type : LinkType} (h : type ∈ setupTypes isScheduler) : type ∈ cleanedTypes isScheduler := by
  cases isScheduler with
  | false => exact h
  | true => exact (by decide : ∀ type ∈ setupTypes true, type ∈ cleanedTypes true) type h

theorem setupNewConf_ok (hfresh : Fresh newObjectId conf) (hsent : conf.FromArbiter) (d : Daemon κ α β) :
    ∃ d', setupNewConf newObjectId conf d = .ok d' ∧ ∀ type ∈ setupTypes d.isScheduler, Renewed conf d' type := by
  have hn : (setupTypes d.isScheduler).Nodup := by cases d.isScheduler <;> decide
  obtain ⟨d', hrun, h, -⟩ := setupTypes_ok hfresh hsent hn (d := cleanPreviousRun d) fun type hm => if_pos (setupTypes_cleaned hm)
  exact ⟨d', hrun, h⟩

/-! ## What is carried over -/

theorem contexts_carried_iff (hfresh : Fresh newObjectId conf) (hsent : conf.FromArbiter) (d : Daemon κ α β) :
    ∃ d', setupNewConf newObjectId conf d = .ok d' ∧
      (CarriedOver conf d d' ↔ ∀ type former, d.Knows conf type former → former.Idle) := by
  obtain ⟨d', hrun, h⟩ := setupNewConf_ok hfresh hsent d
  refine ⟨d', hrun, fun hc type former hk => ?_, fun hidle type former hk => ?_⟩
  · obtain ⟨link, hl, hcarries⟩ := hc type former hk
    have hi := (h type hk.1).idle link hl
    exact ⟨hcarries.broks.symm.trans hi.broks, hcarries.actions.symm.trans hi.actions, hcarries.waitHomerun.symm.trans hi.waitHomerun⟩
  · obtain ⟨received, hc, rs, hrs, hid⟩ := hk.2.2
    obtain ⟨link, hl, hlink⟩ := (h type hk.1).received received hc rs hrs
    have hi := (h type hk.1).idle link hl
    have hf := hidle type former hk
    exact ⟨link, hl, hlink.trans hid, hi.broks.trans hf.broks.symm, hi.actions.trans hf.actions.symm,
      hi.waitHomerun.trans hf.waitHomerun.symm⟩

end

/-! ## A poller and its scheduler -/

def poller (waitHomerun : Dict Nat Bool) : Daemon Nat Bool Bool where
  isScheduler := false
  links
    | .schedulers => Dict.empty.set 5 { uuid := 5, instanceId := 1, waitHomerun := waitHomerun }
    | _ => Dict.empty
  created := 0

def sameScheduler : Conf Nat where
  links
    | .schedulers => some (Dict.empty.set 5 { instanceId := 1 })
    | _ => none

theorem sameScheduler_fresh : Fresh (· + 10) sameScheduler := by
  refine ⟨fun a b e => Nat.add_right_cancel e, fun {type received rs} hc hrs n => ?_⟩
  cases type with
  | schedulers =>
    cases hc
    rw [List.mem_singleton.mp hrs]
    simp
  | arbiters => cases hc
  | pollers => cases hc
  | reactionners => cases hc
  | brokers => cases hc

theorem sameScheduler_fromArbiter : sameScheduler.FromArbiter := by
  intro type received hc rs hrs
  cases type with
  | schedulers =>
    cases hc
    rw [List.mem_singleton.mp hrs]
  | arbiters => cases hc
  | pollers => cases hc
  | reactionners => cases hc
  | brokers => cases hc

theorem poller_knows (waitHomerun : Dict Nat Bool) :
    (poller waitHomerun).Knows sameScheduler .schedulers { uuid := 5, instanceId := 1, waitHomerun := waitHomerun } := by
  have htype : LinkType.schedulers ∈ setupTypes false := by decide
  refine ⟨htype, Dict.mem_values.mpr ⟨5, ?_⟩, _, rfl, _, List.mem_singleton.mpr rfl, rfl⟩
  exact Dict.get?_set_self

theorem idle_poller_carried : ∃ d', setupNewConf (· + 10) sameScheduler (poller Dict.empty) = .ok d' ∧
    CarriedOver sameScheduler (poller Dict.empty) d' := by
  obtain ⟨d', hrun, hiff⟩ := contexts_carried_iff sameScheduler_fresh sameScheduler_fromArbiter (poller Dict.empty)
  refine ⟨d', hrun, hiff.mpr fun type former hk => ?_⟩
  obtain ⟨-, hf, -⟩ := hk
  cases type with
  | schedulers =>
    rw [List.mem_singleton.mp hf]
    exact ⟨rfl, rfl, rfl⟩
  | arbiters => cases hf
  | pollers => cases hf
  | reactionners => cases hf
  | brokers => cases hf

/-- The result that waits is lost. -/
theorem waiting_result_lost : ∃ d', setupNewConf (· + 10) sameScheduler (poller (Dict.empty.set 7 true)) = .ok d' ∧
    ¬ CarriedOver sameScheduler (poller (Dict.empty.set 7 true)) d' := by
  obtain ⟨d', hrun, h⟩ := setupNewConf_ok sameScheduler_fresh sameScheduler_fromArbiter (poller (Dict.empty.set 7 true))
  refine ⟨d', hrun, fun hc => ?_⟩
  obtain ⟨link, hl, hcarries⟩ := hc _ _ (poller_knows _)
  have hempty := ((h .schedulers (by decide)).idle link hl).waitHomerun
  have hset : (Dict.empty.set 7 true : Dict Nat Bool) = Dict.empty := hcarries.waitHomerun.symm.trans hempty
  cases congrArg Dict.entries hset

end Alignak.NewConf
