import Alignak.AccessibilityPacks
import Mathlib.Data.List.Dedup
import Mathlib.Logic.Function.Basic

/-!
# The packs of the realms

`create_packs` puts each pack of hosts into the realm of its hosts, and tells
the realm whether it has hosts that are actively or passively checked.
-/

namespace Alignak.RealmPacks

/-! ## Hosts and realms -/

inductive Checks
  | active
  | passive
  deriving DecidableEq, Repr

structure PackHost where
  name : String
  realm : String
  activeChecksEnabled : Bool
  passiveChecksEnabled : Bool
  deriving DecidableEq, Repr

def PackHost.enabled (host : PackHost) : Checks → Bool
  | .active => host.activeChecksEnabled
  | .passive => host.passiveChecksEnabled

structure FlaggedRealm where
  name : String
  packs : List (List String)
  activelyCheckedHosts : Option Bool
  passivelyCheckedHosts : Option Bool
  deriving DecidableEq, Repr

def FlaggedRealm.flag (realm : FlaggedRealm) : Checks → Option Bool
  | .active => realm.activelyCheckedHosts
  | .passive => realm.passivelyCheckedHosts

structure PacksConf where
  hosts : String → Option PackHost
  packs : List (List String)
  realms : String → Option FlaggedRealm
  nameToRealm : String → Option String
  defaultRealm : Option String
  knownHosts : ∀ pack ∈ packs, ∀ x ∈ pack, hosts x ≠ none
  knownRealms : ∀ name u, nameToRealm name = some u → realms u ≠ none
  hasDefault : ∃ u, defaultRealm = some u ∧ realms u ≠ none

namespace PacksConf

variable (conf : PacksConf)

structure State where
  realms : String → Option FlaggedRealm
  errors : List String

def getHost (x : String) : Except Exn PackHost :=
  match conf.hosts x with
  | some host => .ok host
  | none => .error .keyError

def tmpRealms (members : List PackHost) : List String :=
  ((members.map PackHost.realm).filter fun realm => !realm.isEmpty).dedup

def findRealm (tmpRealm : String) : Option String :=
  if (conf.realms tmpRealm).isSome then some tmpRealm else conf.nameToRealm tmpRealm

def hostError (host : PackHost) : String :=
  if host.realm.isEmpty then " -> the host " ++ host.name ++ " do not have a realm"
  else
    match conf.realms host.realm with
    | none => " -> the host " ++ host.name ++ " is in the realm " ++ host.realm
    | some realm => " -> the host " ++ host.name ++ " is in the realm " ++ realm.name

def severalRealms : String :=
  "Error: the realm configuration of your hosts is not correct because there is more than one realm in one pack (host relations):"

def State.change (s : State) (u : String) (f : FlaggedRealm → FlaggedRealm) : State :=
  { s with realms := Function.update s.realms u ((s.realms u).map f) }

def appendPack (pack : List String) (members : List PackHost) (realm : FlaggedRealm) : FlaggedRealm :=
  { realm with
    packs := realm.packs ++ [pack]
    passivelyCheckedHosts := some (members.any (·.passiveChecksEnabled))
    activelyCheckedHosts := some (members.any (·.activeChecksEnabled)) }

def appendToDefault (pack : List String) (realm : FlaggedRealm) : FlaggedRealm := { realm with packs := realm.packs ++ [pack] }

/-- Without a default realm the error message asks an identifier for its name. -/
def placePack (s : State) (pack : List String) (members : List PackHost) : List String → Except Exn State
  | [] =>
    match conf.defaultRealm with
    | some u => .ok (s.change u (appendToDefault pack))
    | none => .error .attributeError
  | [tmpRealm] =>
    match conf.findRealm tmpRealm with
    | some u => .ok (s.change u (appendPack pack members))
    | none => .ok { s with errors := s.errors ++ [" -> some hosts are in an unknown realm " ++ tmpRealm ++ "!"] }
  | _ => .ok { s with errors := s.errors ++ severalRealms :: members.map conf.hostError }

def putPack (s : State) (pack : List String) : Except Exn State := do
  let members ← pack.mapM conf.getHost
  conf.placePack s pack members (tmpRealms members)

def createPacks : Except Exn State := conf.packs.foldlM conf.putPack ⟨conf.realms, []⟩

/-! ## Where the packs go -/

def members (pack : List String) : List PackHost := pack.filterMap conf.hosts

def soleRealm : List String → Option String
  | [tmpRealm] => conf.findRealm tmpRealm
  | _ => none

def named (pack : List String) : Option String := conf.soleRealm (tmpRealms (conf.members pack))

def chosen (pack : List String) : Option String :=
  if tmpRealms (conf.members pack) = [] then conf.defaultRealm else conf.named pack

def putIn (u : String) : List (List String) := conf.packs.filter fun pack => conf.chosen pack = some u

def Checked (checks : Checks) (pack : List String) : Prop :=
  ∃ x ∈ pack, ∃ host, conf.hosts x = some host ∧ host.enabled checks = true

def Decided (u : String) (realm : FlaggedRealm) (checks : Checks) : Prop :=
  match (conf.packs.filter fun pack => conf.named pack = some u).getLast? with
  | some last => (∃ pack ∈ conf.putIn u, conf.Checked checks pack) → conf.Checked checks last
  | none => realm.flag checks = some true ↔ ∃ pack ∈ conf.putIn u, conf.Checked checks pack

/-! ## One pack -/

section
variable {conf : PacksConf} {pack : List String} {u : String} {checks : Checks}

theorem mapM_getHost (h : ∀ x ∈ pack, conf.hosts x ≠ none) : pack.mapM conf.getHost = .ok (conf.members pack) := by
  unfold members
  induction pack with
  | nil => rfl
  | cons x pack ih =>
    obtain ⟨host, hhost⟩ := Option.ne_none_iff_exists'.mp (h x List.mem_cons_self)
    have hx : conf.getHost x = .ok host := by simp [getHost, hhost]
    rw [List.mapM_cons, hx, ih fun y hy => h y (List.mem_cons_of_mem x hy), List.filterMap_cons, hhost]
    rfl

theorem checked_iff_enabled : conf.Checked checks pack ↔ (conf.members pack).any (·.enabled checks) = true := by
  simp only [Checked, members, List.any_eq_true, List.mem_filterMap]
  constructor
  · rintro ⟨x, hx, host, hhost, he⟩
    exact ⟨host, ⟨x, hx, hhost⟩, he⟩
  · rintro ⟨host, ⟨x, hx, hhost⟩, he⟩
    exact ⟨x, hx, host, hhost, he⟩

def given (conf : PacksConf) (u : String) (realm : FlaggedRealm) (pack : List String) : FlaggedRealm :=
  if conf.named pack = some u then appendPack pack (conf.members pack) realm
  else if conf.chosen pack = some u then appendToDefault pack realm
  else realm

theorem change_realms (s : State) (u v : String) (f : FlaggedRealm → FlaggedRealm) :
    (s.change u f).realms v = (s.realms v).map fun realm => if u = v then f realm else realm := by
  unfold State.change
  dsimp only
  by_cases huv : v = u
  · subst huv
    simp
  · rw [Function.update_of_ne huv]
    simp [Ne.symm huv]

theorem placePack_ok (s : State) (members : List PackHost) (realms : List String) :
    ∃ s', conf.placePack s pack members realms = .ok s' ∧ ∀ u, s'.realms u = (s.realms u).map fun realm =>
      if conf.soleRealm realms = some u then appendPack pack members realm
      else if (if realms = [] then conf.defaultRealm else conf.soleRealm realms) = some u then appendToDefault pack realm
      else realm := by
  cases realms with
  | nil =>
    obtain ⟨d, hd, -⟩ := conf.hasDefault
    unfold placePack
    rw [hd]
    refine ⟨_, rfl, ?_⟩
    intro v
    rw [change_realms]
    simp [soleRealm]
  | cons tmpRealm realms =>
    cases realms with
    | nil =>
      obtain hfind | ⟨d, hfind⟩ := Option.eq_none_or_eq_some (conf.findRealm tmpRealm)
      · simp only [placePack, soleRealm, hfind]
        exact ⟨_, rfl, fun v => by simp⟩
      · simp only [placePack, soleRealm, hfind]
        refine ⟨_, rfl, ?_⟩
        intro v
        rw [change_realms]
        by_cases hd : d = v <;> simp [hd]
    | cons tmpRealm' realms =>
      simp only [placePack]
      exact ⟨_, rfl, fun v => by simp [soleRealm]⟩

theorem putPack_ok (s : State) (h : ∀ x ∈ pack, conf.hosts x ≠ none) :
    ∃ s', conf.putPack s pack = .ok s' ∧ ∀ u, s'.realms u = (s.realms u).map fun realm => conf.given u realm pack := by
  unfold putPack
  rw [mapM_getHost h]
  exact placePack_ok s (conf.members pack) (tmpRealms (conf.members pack))

theorem putPacks_ok (l : List (List String)) (s : State) (h : ∀ pack ∈ l, ∀ x ∈ pack, conf.hosts x ≠ none) :
    ∃ s', l.foldlM conf.putPack s = .ok s' ∧ ∀ u, s'.realms u = (s.realms u).map fun realm => l.foldl (conf.given u) realm := by
  induction l generalizing s with
  | nil => exact ⟨s, rfl, by simp⟩
  | cons pack l ih =>
    obtain ⟨s₁, hok, hr⟩ := putPack_ok s (h pack List.mem_cons_self)
    obtain ⟨s₂, hok2, hr2⟩ := ih s₁ fun p hp => h p (List.mem_cons_of_mem pack hp)
    refine ⟨s₂, ?_, ?_⟩
    · rw [List.foldlM_cons, hok]
      exact hok2
    · intro u
      rw [hr2, hr, Option.map_map]
      rfl

/-! ## All the packs -/

theorem given_flag (realm : FlaggedRealm) : (conf.given u realm pack).flag checks =
    if conf.named pack = some u then some ((conf.members pack).any (·.enabled checks)) else realm.flag checks := by
  unfold given
  split
  · cases checks <;> rfl
  · split
    · cases checks <;> rfl
    · rfl

theorem chosen_of_named (h : conf.named pack = some u) : conf.chosen pack = some u := by
  unfold chosen
  rw [if_neg]
  · exact h
  · intro hnil
    unfold named at h
    rw [hnil] at h
    cases h

theorem given_packs (realm : FlaggedRealm) : (conf.given u realm pack).packs =
    if conf.chosen pack = some u then realm.packs ++ [pack] else realm.packs := by
  unfold given
  by_cases hn : conf.named pack = some u
  · rw [if_pos hn, if_pos (chosen_of_named hn)]
    rfl
  · rw [if_neg hn]
    split <;> rfl

theorem packs_after (l : List (List String)) (realm : FlaggedRealm) : (l.foldl (conf.given u) realm).packs =
    realm.packs ++ l.filter fun pack => conf.chosen pack = some u := by
  induction l generalizing realm with
  | nil => simp
  | cons pack l ih =>
    rw [List.foldl_cons, ih, given_packs, List.filter_cons]
    by_cases hc : conf.chosen pack = some u
    · simp [hc]
    · simp [hc]

theorem flag_after (l : List (List String)) (realm : FlaggedRealm) : (l.foldl (conf.given u) realm).flag checks =
    ((l.filter fun pack => conf.named pack = some u).getLast?.map fun last =>
      some ((conf.members last).any (·.enabled checks))).getD (realm.flag checks) := by
  induction l using List.reverseRecOn with
  | nil => rfl
  | append_singleton l pack ih =>
    rw [List.foldl_append, List.foldl_cons, List.foldl_nil, given_flag, List.filter_append]
    by_cases hn : conf.named pack = some u
    · simp [hn]
    · rw [if_neg hn, ih]
      simp [hn]

end

end PacksConf

open PacksConf

/-- The flag of each realm says whether one of its packs has such checks if and
only if what decides it does. -/
theorem flags_right (conf : PacksConf) : ∃ s, conf.createPacks = .ok s ∧ ∀ u realm, conf.realms u = some realm →
    ∃ realm', s.realms u = some realm' ∧ realm'.packs = realm.packs ++ conf.putIn u ∧
      ∀ checks, (realm'.flag checks = some true ↔ ∃ pack ∈ conf.putIn u, conf.Checked checks pack) ↔
        conf.Decided u realm checks := by
  obtain ⟨s, hok, hr⟩ := putPacks_ok conf.packs ⟨conf.realms, []⟩ conf.knownHosts
  refine ⟨s, hok, ?_⟩
  intro u realm hrealm
  refine ⟨conf.packs.foldl (conf.given u) realm, ?_, packs_after conf.packs realm, ?_⟩
  · rw [hr]
    exact congrArg (Option.map _) hrealm
  intro checks
  rw [flag_after]
  unfold Decided
  cases hlast : (conf.packs.filter fun pack => conf.named pack = some u).getLast? with
  | none => rfl
  | some last =>
    rw [Option.map_some, Option.getD_some, Option.some.injEq, ← checked_iff_enabled]
    constructor
    · intro h
      exact h.mpr
    · intro h
      refine ⟨fun hc => ⟨last, ?_, hc⟩, h⟩
      obtain ⟨hmem, hn⟩ := List.mem_filter.mp (List.mem_of_getLast? hlast)
      exact List.mem_filter.mpr ⟨hmem, decide_eq_true (chosen_of_named (of_decide_eq_true hn))⟩

/-! ## A realm with two hosts -/

def activeHost : PackHost := ⟨"web", "All", true, true⟩

def passiveHost : PackHost := ⟨"probe", "All", false, true⟩

def allRealm : FlaggedRealm := ⟨"All", [], some true, some true⟩

def twoHosts : PacksConf where
  hosts x := if x = "h1" then some activeHost else if x = "h2" then some passiveHost else none
  packs := [["h1"], ["h2"]]
  realms u := if u = "r" then some allRealm else none
  nameToRealm name := if name = "All" then some "r" else none
  defaultRealm := some "r"
  knownHosts := by simp
  knownRealms name u h := by
    split at h
    · cases h
      simp
    · cases h
  hasDefault := ⟨"r", rfl, by simp⟩

def twoNodes : Graph String := (Graph.empty.addNode "h1").addNode "h2"

/-- The packs of two hosts that nothing links; the last one has no active checks. -/
theorem flag_overwritten : twoNodes.getAccessibilityPacks = .ok [{"h1"}, {"h2"}] ∧
    ∃ s realm', twoHosts.createPacks = .ok s ∧ s.realms "r" = some realm' ∧
      realm' = ⟨"All", [["h1"], ["h2"]], some false, some true⟩ ∧
      ¬ (realm'.flag .active = some true ↔ ∃ pack ∈ twoHosts.putIn "r", twoHosts.Checked .active pack) := by
  refine ⟨by decide, _, _, rfl, rfl, by decide, ?_⟩
  intro h
  have hflag := h.mpr ⟨["h1"], by decide, "h1", List.mem_singleton_self _, activeHost, rfl, rfl⟩
  exact absurd hflag (by decide)

end Alignak.RealmPacks
