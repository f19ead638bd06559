import Alignak.Dict
import Alignak.Loops
import Alignak.Exn
import Mathlib.Algebra.GroupWithZero.Nat

/-!
# The parts of a configuration

The packs of the realms are merged into the parts of the schedulers, and each
part is told about the hosts of the others: it is only told about its own.
-/

namespace Alignak

structure HostConf (κ : Type) where
  name : String
  services : List κ

structure ConfPart (κ : Type) [DecidableEq κ] where
  hosts : Dict κ (HostConf κ)
  services : List κ
  otherElements : Dict String Nat

structure PackedRealm (κ : Type) where
  schedulers : List κ
  potentialSchedulers : List κ
  packs : List (List κ)

namespace PackedRealm

variable {κ : Type}

def noSpareSchedulers (realm : PackedRealm κ) : List κ :=
  if realm.schedulers = [] then realm.potentialSchedulers.take 1 else realm.schedulers

end PackedRealm

structure PackedConf (κ : Type) [DecidableEq κ] where
  hosts : Dict κ (HostConf κ)
  services : List κ
  realms : List (PackedRealm κ)
  fits : ∀ realm ∈ realms, realm.packs.length ≤ realm.noSpareSchedulers.length
  known : ∀ realm ∈ realms, ∀ pack ∈ realm.packs, ∀ x ∈ pack, x ∈ hosts.keys

abbrev Parts (κ : Type) [DecidableEq κ] := Dict Nat (ConfPart κ)

section
variable {κ : Type} [DecidableEq κ]

namespace ConfPart

def new : ConfPart κ := ⟨Dict.empty, [], Dict.empty⟩

def addHost (part : ConfPart κ) (x : κ) (host : HostConf κ) : ConfPart κ := { part with hosts := part.hosts.set x host }

def addService (part : ConfPart κ) (service : κ) : ConfPart κ := { part with services := part.services ++ [service] }

end ConfPart

/-! ## Cutting -/

namespace PackedConf

def nbParts (conf : PackedConf κ) : Nat :=
  let nbParts := (conf.realms.map fun realm => realm.noSpareSchedulers.length).sum
  if nbParts = 0 then 1 else nbParts

def newParts (nbParts : Nat) : Parts κ := (List.range nbParts).foldl (fun parts i => parts.set i .new) Dict.empty

def mergeService (conf : PackedConf κ) (service : κ) : EStateM Exn (ConfPart κ) PUnit :=
  if service ∈ conf.services then modify fun part => part.addService service
  else throw .keyError

def mergeHost (conf : PackedConf κ) (x : κ) : EStateM Exn (ConfPart κ) PUnit :=
  match conf.hosts.get? x with
  | none => throw .keyError
  | some host => do
    modify fun part => part.addHost x host
    host.services.forM conf.mergeService

def mergePack (conf : PackedConf κ) (offset : Nat) (parts : Parts κ) (pack : List κ × Nat) : Parts κ :=
  match parts.get? (pack.2 + offset) with
  | none => parts
  | some part => parts.set (pack.2 + offset) (stateAfter (pack.1.forM conf.mergeHost part))

def mergeRealm (conf : PackedConf κ) (found : Parts κ × Nat) (realm : PackedRealm κ) : Parts κ × Nat :=
  (realm.packs.zipIdx.foldl (conf.mergePack found.2) found.1, found.2 + realm.packs.length)

def mergePacks (conf : PackedConf κ) : Parts κ := (conf.realms.foldl conf.mergeRealm (newParts conf.nbParts, 0)).1

end PackedConf

namespace Parts

def tagHost (parts : Parts κ) (partIndex : Nat) (otherElements : Dict String Nat) (host : HostConf κ) : Dict String Nat :=
  (parts.keys.filter (· ≠ partIndex)).foldl (fun otherElements _ => otherElements.set host.name partIndex) otherElements

def fillOtherElements (parts : Parts κ) : Parts κ :=
  parts.mapValues fun partIndex part =>
    { part with otherElements := part.hosts.values.foldl (parts.tagHost partIndex) part.otherElements }

/-- Each part knows which part has a host that is not its own. -/
structure OthersKnown (parts : Parts κ) : Prop where
  others : ∀ i part, parts.get? i = some part → ∀ j other, parts.get? j = some other → j ≠ i →
    ∀ host ∈ other.hosts.values, part.otherElements.get? host.name = some j
  own : ∀ i part, parts.get? i = some part → ∀ host ∈ part.hosts.values, host.name ∉ part.otherElements.keys

end Parts

def PackedConf.cutIntoParts (conf : PackedConf κ) : Parts κ := conf.mergePacks.fillOtherElements

/-! ## What a part is told -/

section
variable {parts : Parts κ} {i : Nat} {part : ConfPart κ}

theorem Parts.tagHost_get? (otherElements : Dict String Nat) (host : HostConf κ) (name : String) :
    (parts.tagHost i otherElements host).get? name =
      if name = host.name ∧ parts.keys.filter (· ≠ i) ≠ [] then some i else otherElements.get? name := by
  unfold tagHost
  generalize parts.keys.filter (· ≠ i) = l
  induction l generalizing otherElements with
  | nil => simp
  | cons j l ih =>
    rw [List.foldl_cons, ih, Dict.get?_set]
    by_cases hn : name = host.name <;> simp [hn]

theorem Parts.tagHosts_get? (l : List (HostConf κ)) (otherElements : Dict String Nat) (name : String) :
    (l.foldl (parts.tagHost i) otherElements).get? name =
      if name ∈ l.map HostConf.name ∧ parts.keys.filter (· ≠ i) ≠ [] then some i else otherElements.get? name := by
  induction l generalizing otherElements with
  | nil => simp
  | cons host l ih =>
    simp only [List.foldl_cons, ih, tagHost_get?, List.map_cons, List.mem_cons]
    by_cases hc : parts.keys.filter (· ≠ i) = []
    · simp only [hc, ne_eq, not_true_eq_false, and_false, if_false]
    · by_cases hl : name ∈ l.map HostConf.name
      · simp only [hc, hl, ne_eq, not_false_eq_true, and_self, or_true, if_true]
      · simp only [hc, hl, ne_eq, not_false_eq_true, and_true, or_false, if_false]

theorem Parts.fillOtherElements_eq_some {part' : ConfPart κ} (h : parts.fillOtherElements.get? i = some part') :
    ∃ part, parts.get? i = some part ∧ part'.hosts = part.hosts ∧ ∀ name, part'.otherElements.get? name =
      if name ∈ part.hosts.values.map HostConf.name ∧ parts.keys.filter (· ≠ i) ≠ [] then some i else part.otherElements.get? name := by
  unfold fillOtherElements at h
  rw [Dict.get?_mapValues] at h
  obtain ⟨part, hpart, rfl⟩ := Option.map_eq_some_iff.mp h
  exact ⟨part, hpart, rfl, tagHosts_get? _ _⟩

theorem Parts.fillOtherElements_get? (h : parts.get? i = some part) :
    ∃ part', parts.fillOtherElements.get? i = some part' ∧ part'.hosts = part.hosts := by
  unfold fillOtherElements
  rw [Dict.get?_mapValues, h]
  exact ⟨_, rfl, rfl⟩

end

/-! ## What merging leaves -/

structure ConfPart.Grows (part part' : ConfPart κ) : Prop where
  hosts : ∀ x ∈ part.hosts.keys, x ∈ part'.hosts.keys
  otherElements : part'.otherElements = part.otherElements

theorem ConfPart.Grows.refl (part : ConfPart κ) : part.Grows part := ⟨fun _ h => h, rfl⟩

theorem ConfPart.Grows.trans {part part' part'' : ConfPart κ} (h : part.Grows part') (h' : part'.Grows part'') : part.Grows part'' :=
  ⟨fun x hx => h'.hosts x (h.hosts x hx), h'.otherElements.trans h.otherElements⟩

structure Parts.Grows (parts parts' : Parts κ) : Prop where
  keys : ∀ i, i ∈ parts'.keys ↔ i ∈ parts.keys
  grown : ∀ i part part', parts.get? i = some part → parts'.get? i = some part' → part.Grows part'

theorem Parts.Grows.refl (parts : Parts κ) : parts.Grows parts := by
  refine ⟨fun _ => Iff.rfl, fun i part part' h h' => ?_⟩
  cases h.symm.trans h'
  exact .refl part

theorem Parts.Grows.trans {parts parts' parts'' : Parts κ} (h : parts.Grows parts') (h' : parts'.Grows parts'') : parts.Grows parts'' := by
  refine ⟨fun i => (h'.keys i).trans (h.keys i), fun i part part'' hp hp'' => ?_⟩
  have hk : i ∈ parts'.keys := (h.keys i).mpr (Dict.mem_keys.mpr (by rw [hp]; exact Option.some_ne_none _))
  obtain ⟨part', hp'⟩ := Option.ne_none_iff_exists'.mp (Dict.mem_keys.mp hk)
  exact (h.grown i part part' hp hp').trans (h'.grown i part' part'' hp' hp'')

theorem Parts.Grows.foldl {α : Type} {f : Parts κ → α → Parts κ} (hf : ∀ (parts : Parts κ) a, parts.Grows (f parts a)) (l : List α) (parts : Parts κ) :
    parts.Grows (l.foldl f parts) := by
  induction l generalizing parts with
  | nil => exact .refl parts
  | cons a l ih => exact (hf parts a).trans (ih (f parts a))

namespace PackedConf

variable {conf : PackedConf κ}

theorem mergeService_grows (service : κ) (part : ConfPart κ) : Keeps part.Grows (conf.mergeService service) := by
  unfold mergeService
  split
  · exact Keeps.modify fun p h => h.trans ⟨fun _ hx => hx, rfl⟩
  · exact Keeps.throw trivial

theorem mergeHost_grows (x : κ) (part : ConfPart κ) : Keeps part.Grows (conf.mergeHost x) := by
  unfold mergeHost
  split
  · exact Keeps.throw trivial
  next host _ =>
    apply Keeps.bind
    · exact Keeps.modify fun p h => h.trans (⟨fun _ hy => Dict.mem_keys_set.mpr (Or.inr hy), rfl⟩)
    · exact fun _ => Keeps.forM fun service _ => mergeService_grows service part

theorem mergeHosts_grows (l : List κ) (part : ConfPart κ) : part.Grows (stateAfter (l.forM conf.mergeHost part)) :=
  (Keeps.forM (fun x _ => mergeHost_grows x part) part (.refl part)).1

theorem mergeHosts_mem {x : κ} (hx : x ∈ conf.hosts.keys) (l : List κ) (part : ConfPart κ) :
    x ∈ (stateAfter ((x :: l).forM conf.mergeHost part)).hosts.keys := by
  obtain ⟨host, hhost⟩ := Option.ne_none_iff_exists'.mp (Dict.mem_keys.mp hx)
  have hservices : Keeps (part.addHost x host).Grows (host.services.forM conf.mergeService) :=
    Keeps.forM fun service _ => mergeService_grows service _
  have hrest : Keeps (part.addHost x host).Grows (l.forM conf.mergeHost) := Keeps.forM fun y _ => mergeHost_grows y _
  have hrun : (x :: l).forM conf.mergeHost part =
      (host.services.forM conf.mergeService >>= fun _ => l.forM conf.mergeHost) (part.addHost x host) := by
    rw [forM_cons_eq]
    unfold mergeHost
    rw [hhost]
    simp only [bind_assoc]
    rfl
  rw [hrun]
  have hgrown := (hservices.bind fun _ => hrest) _ (.refl _)
  exact hgrown.1.hosts x (Dict.mem_keys_set.mpr (Or.inl rfl))

theorem mergePack_grows (offset : Nat) (parts : Parts κ) (pack : List κ × Nat) : parts.Grows (conf.mergePack offset parts pack) := by
  unfold mergePack
  split
  · exact .refl parts
  next part hpart =>
    refine ⟨fun i => ?_, fun i p p' hp hp' => ?_⟩
    · rw [Dict.mem_keys_set]
      constructor
      · rintro (rfl | hi)
        · exact Dict.mem_keys.mpr (by rw [hpart]; exact Option.some_ne_none _)
        · exact hi
      · exact Or.inr
    · rw [Dict.get?_set] at hp'
      split at hp'
      next hi =>
        subst hi
        cases hpart.symm.trans hp
        cases hp'
        exact mergeHosts_grows _ _
      next =>
        cases hp.symm.trans hp'
        exact .refl p

theorem mergeRealm_grows (found : Parts κ × Nat) (realm : PackedRealm κ) : found.1.Grows (conf.mergeRealm found realm).1 :=
  Parts.Grows.foldl (fun parts pack => mergePack_grows _ parts pack) _ _

theorem mergeRealms_grows (conf : PackedConf κ) (realms : List (PackedRealm κ)) (found : Parts κ × Nat) : found.1.Grows (realms.foldl conf.mergeRealm found).1 := by
  induction realms generalizing found with
  | nil => exact .refl _
  | cons realm realms ih => exact (mergeRealm_grows found realm).trans (ih _)

/-! ## The hosts of a pack -/

theorem newParts_get? (n i : Nat) : (newParts (κ := κ) n).get? i = if i < n then some .new else none := by
  induction n with
  | zero => rfl
  | succ n ih =>
    have hstep : newParts (κ := κ) (n + 1) = (newParts n).set n .new := by
      unfold newParts
      rw [List.range_succ, List.foldl_append]
      rfl
    rw [hstep, Dict.get?_set, ih]
    by_cases hi : i = n
    · subst hi
      simp
    · rw [if_neg hi]
      by_cases hlt : i < n
      · rw [if_pos hlt, if_pos (by omega)]
      · rw [if_neg hlt, if_neg (by omega)]

def Manages (parts : Parts κ) (i : Nat) : Prop := ∃ part, parts.get? i = some part ∧ ∃ x, x ∈ part.hosts.keys

theorem Manages.grows {parts parts' : Parts κ} {i : Nat} (h : Manages parts i) (hg : parts.Grows parts') : Manages parts' i := by
  obtain ⟨part, hpart, x, hx⟩ := h
  have hk : i ∈ parts'.keys := (hg.keys i).mpr (Dict.mem_keys.mpr (by rw [hpart]; exact Option.some_ne_none _))
  obtain ⟨part', hpart'⟩ := Option.ne_none_iff_exists'.mp (Dict.mem_keys.mp hk)
  exact ⟨part', hpart', x, (hg.grown i part part' hpart hpart').hosts x hx⟩

theorem mergePack_manages {parts : Parts κ} {offset k : Nat} {x : κ} {l : List κ} (hx : x ∈ conf.hosts.keys) (hk : k + offset ∈ parts.keys) :
    Manages (conf.mergePack offset parts (x :: l, k)) (k + offset) := by
  obtain ⟨part, hpart⟩ := Option.ne_none_iff_exists'.mp (Dict.mem_keys.mp hk)
  refine ⟨stateAfter ((x :: l).forM conf.mergeHost part), ?_, x, mergeHosts_mem hx l part⟩
  unfold mergePack
  rw [hpart]
  exact Dict.get?_set_self

theorem mergePacks_manages {packs : List (List κ × Nat)} {offset k : Nat} {pack : List κ} (hpack : (pack, k) ∈ packs) (hne : pack ≠ [])
    (hx : ∀ x ∈ pack, x ∈ conf.hosts.keys) {parts : Parts κ} (hk : k + offset ∈ parts.keys) :
    Manages (packs.foldl (conf.mergePack offset) parts) (k + offset) := by
  induction packs generalizing parts with
  | nil => exact absurd hpack List.not_mem_nil
  | cons p packs ih =>
    rcases List.mem_cons.mp hpack with rfl | hpack
    · obtain ⟨x, l, rfl⟩ := List.exists_cons_of_ne_nil hne
      exact (mergePack_manages (hx x List.mem_cons_self) hk).grows (Parts.Grows.foldl (mergePack_grows offset) _ _)
    · exact ih hpack (((mergePack_grows offset parts p).keys _).mpr hk)

theorem mergeRealms_manages (conf : PackedConf κ) {realms : List (PackedRealm κ)} (found : Parts κ × Nat)
    (hfits : ∀ realm ∈ realms, realm.packs.length ≤ realm.noSpareSchedulers.length)
    (hknown : ∀ realm ∈ realms, ∀ pack ∈ realm.packs, ∀ x ∈ pack, x ∈ conf.hosts.keys)
    (hk : ∀ i, i < found.2 + (realms.map fun realm => realm.noSpareSchedulers.length).sum → i ∈ found.1.keys)
    {realm : PackedRealm κ} (hr : realm ∈ realms) {pack : List κ} (hpack : pack ∈ realm.packs) (hne : pack ≠ []) :
    ∃ i, Manages (realms.foldl conf.mergeRealm found).1 i := by
  induction realms generalizing found with
  | nil => exact absurd hr List.not_mem_nil
  | cons r realms ih =>
    have hlength := hfits r List.mem_cons_self
    rw [List.map_cons, List.sum_cons] at hk
    rcases List.mem_cons.mp hr with rfl | hr
    · obtain ⟨k, hlt, rfl⟩ := List.mem_iff_getElem.mp hpack
      refine ⟨k + found.2, ?_⟩
      have hmem : (realm.packs[k], k) ∈ realm.packs.zipIdx := by
        rw [List.mem_zipIdx_iff_getElem?]
        exact List.getElem?_eq_getElem hlt
      exact (mergePacks_manages hmem hne (hknown realm List.mem_cons_self _ hpack) (hk _ (by omega))).grows
        (mergeRealms_grows conf realms (conf.mergeRealm found realm))
    · refine ih _ (fun r' hr' => hfits r' (List.mem_cons_of_mem _ hr')) (fun r' hr' => hknown r' (List.mem_cons_of_mem _ hr'))
        (fun i hi => ((mergeRealm_grows found r).keys i).mpr (hk i ?_)) hr
      unfold mergeRealm at hi
      omega

theorem mergePacks_keys (i : Nat) : i ∈ conf.mergePacks.keys ↔ i < conf.nbParts := by
  have hg := mergeRealms_grows conf conf.realms (newParts conf.nbParts, 0)
  rw [mergePacks, hg.keys, Dict.mem_keys, newParts_get?]
  by_cases h : i < conf.nbParts <;> simp [h]

theorem mergePacks_otherElements {i : Nat} {part : ConfPart κ} (h : conf.mergePacks.get? i = some part) : part.otherElements = Dict.empty := by
  have hg := mergeRealms_grows conf conf.realms (newParts conf.nbParts, 0)
  have hi : i < conf.nbParts := (mergePacks_keys i).mp (Dict.mem_keys.mpr (by rw [h]; exact Option.some_ne_none _))
  exact (hg.grown i .new part (by rw [newParts_get?, if_pos hi]) h).otherElements

theorem mergePacks_empty {packs : List (List κ × Nat)} (h : ∀ p ∈ packs, p.1 = []) {offset : Nat} {parts : Parts κ} :
    ∀ i part, (packs.foldl (conf.mergePack offset) parts).get? i = some part → parts.get? i = some part := by
  induction packs generalizing parts with
  | nil => exact fun _ _ h => h
  | cons p packs ih =>
    intro i part hpart
    have hstep := ih (fun q hq => h q (List.mem_cons_of_mem _ hq)) i part hpart
    unfold mergePack at hstep
    split at hstep
    · exact hstep
    next old hold =>
      rw [h p List.mem_cons_self] at hstep
      by_cases hi : i = p.2 + offset
      · subst hi
        rw [Dict.get?_set_self] at hstep
        cases hstep
        exact hold
      · rwa [Dict.get?_set_ne hi] at hstep

theorem mergeRealms_empty (conf : PackedConf κ) {realms : List (PackedRealm κ)} (h : ∀ realm ∈ realms, ∀ pack ∈ realm.packs, pack = [])
    (found : Parts κ × Nat) :
    ∀ i part, (realms.foldl conf.mergeRealm found).1.get? i = some part → found.1.get? i = some part := by
  induction realms generalizing found with
  | nil => exact fun _ _ h => h
  | cons realm realms ih =>
    intro i part hpart
    have hstep := ih (fun r hr => h r (List.mem_cons_of_mem _ hr)) (conf.mergeRealm found realm) i part hpart
    exact mergePacks_empty (fun p hp => h realm List.mem_cons_self p.1 (List.fst_mem_of_mem_zipIdx hp)) i part hstep

/-! ## The others -/

theorem lt_nbParts {i : Nat} (h : i < 0 + (conf.realms.map fun realm => realm.noSpareSchedulers.length).sum) : i < conf.nbParts := by
  simp only [nbParts]
  split <;> omega

theorem others_ne_nil (h : 1 < conf.nbParts) (i : Nat) : conf.mergePacks.keys.filter (· ≠ i) ≠ [] := by
  have hmem : ∀ j, j < conf.nbParts → j ≠ i → j ∈ conf.mergePacks.keys.filter (· ≠ i) :=
    fun j hj hji => List.mem_filter.mpr ⟨(mergePacks_keys j).mpr hj, decide_eq_true hji⟩
  by_cases hi : i = 0
  · exact List.ne_nil_of_mem (hmem 1 h (by omega))
  · exact List.ne_nil_of_mem (hmem 0 (by omega) (by omega))

/-- The parts know about the hosts of the others exactly where there is nothing to
know: with one part, or without a host in the packs. -/
theorem others_known_iff (conf : PackedConf κ) :
    conf.cutIntoParts.OthersKnown ↔ conf.nbParts ≤ 1 ∨ ∀ realm ∈ conf.realms, ∀ pack ∈ realm.packs, pack = [] := by
  constructor
  · intro h
    by_contra hne
    simp only [not_or, not_le, not_forall] at hne
    obtain ⟨hparts, realm, hr, pack, hpack, hpackne⟩ := hne
    obtain ⟨i, part, hpart, x, hx⟩ := mergeRealms_manages conf (newParts conf.nbParts, 0) conf.fits conf.known
      (fun i hi => Dict.mem_keys.mpr (by rw [newParts_get?, if_pos (lt_nbParts hi)]; exact Option.some_ne_none _)) hr hpack hpackne
    obtain ⟨host, hhost⟩ := Option.ne_none_iff_exists'.mp (Dict.mem_keys.mp hx)
    have hvalue : host ∈ part.hosts.values := Dict.mem_values.mpr ⟨x, hhost⟩
    obtain ⟨part', hpart', hhosts⟩ := Parts.fillOtherElements_get? hpart
    obtain ⟨old, hold, -, htold⟩ := Parts.fillOtherElements_eq_some hpart'
    cases hpart.symm.trans hold
    apply h.own i part' hpart' host (hhosts ▸ hvalue)
    rw [Dict.mem_keys, htold, if_pos ⟨List.mem_map_of_mem hvalue, others_ne_nil hparts i⟩]
    exact Option.some_ne_none _
  · intro h
    -- a host is in a part only where a pack has one
    have hnone : (∀ realm ∈ conf.realms, ∀ pack ∈ realm.packs, pack = []) → ∀ i part, conf.mergePacks.get? i = some part →
        part.hosts.values = [] := by
      intro hpacks i part hpart
      have hstart := mergeRealms_empty conf hpacks (newParts conf.nbParts, 0) i part hpart
      rw [newParts_get?] at hstart
      split at hstart
      · cases hstart
        rfl
      · cases hstart
    refine ⟨fun i part' hpart' j other hother hji host hhost => ?_, fun i part' hpart' host hhost hin => ?_⟩
    · obtain ⟨part, hpart, -, -⟩ := Parts.fillOtherElements_eq_some hpart'
      obtain ⟨old, hold, hhosts, -⟩ := Parts.fillOtherElements_eq_some hother
      rcases h with h | h
      · have hi := (mergePacks_keys i).mp (Dict.mem_keys.mpr (by rw [hpart]; exact Option.some_ne_none _))
        have hj := (mergePacks_keys j).mp (Dict.mem_keys.mpr (by rw [hold]; exact Option.some_ne_none _))
        exact absurd (by omega) hji
      · rw [hhosts, hnone h j old hold] at hhost
        exact absurd hhost List.not_mem_nil
    · obtain ⟨part, hpart, hhosts, htold⟩ := Parts.fillOtherElements_eq_some hpart'
      rcases h with h | h
      · rw [Dict.mem_keys, htold, if_neg ?_, mergePacks_otherElements hpart] at hin
        · exact hin rfl
        · rintro ⟨-, hothers⟩
          obtain ⟨j, hj⟩ := List.exists_mem_of_ne_nil _ hothers
          obtain ⟨hj, hji⟩ := List.mem_filter.mp hj
          have hi := (mergePacks_keys i).mp (Dict.mem_keys.mpr (by rw [hpart]; exact Option.some_ne_none _))
          have hjlt := (mergePacks_keys j).mp hj
          exact of_decide_eq_true hji (by omega)
      · rw [hhosts, hnone h i part hpart] at hhost
        exact absurd hhost List.not_mem_nil

theorem twoSchedulers_nodup : ([(0, ⟨"web", []⟩), (1, ⟨"db", []⟩)].map (Prod.fst (α := Nat) (β := HostConf Nat))).Nodup := by decide

theorem twoSchedulers_fits : ∀ realm ∈ [(⟨[10, 11], [], [[0], [1]]⟩ : PackedRealm Nat)], realm.packs.length ≤ realm.noSpareSchedulers.length := by
  decide

theorem twoSchedulers_known : ∀ realm ∈ [(⟨[10, 11], [], [[0], [1]]⟩ : PackedRealm Nat)], ∀ pack ∈ realm.packs, ∀ x ∈ pack,
    x ∈ (⟨[(0, ⟨"web", []⟩), (1, ⟨"db", []⟩)], twoSchedulers_nodup⟩ : Dict Nat (HostConf Nat)).keys := by
  decide

def twoSchedulers : PackedConf Nat where
  hosts := ⟨[(0, ⟨"web", []⟩), (1, ⟨"db", []⟩)], twoSchedulers_nodup⟩
  services := []
  realms := [⟨[10, 11], [], [[0], [1]]⟩]
  fits := twoSchedulers_fits
  known := twoSchedulers_known

/-- Each of the two parts is told that it has its own host, and nothing about the
other one. -/
theorem own_host_told : ¬ twoSchedulers.cutIntoParts.OthersKnown := by
  intro h
  have hown : (twoSchedulers.cutIntoParts.get? 0).map (fun part => (part.hosts.values.map HostConf.name, part.otherElements.get? "web")) =
      some (["web"], some 0) := by decide +kernel
  obtain ⟨part, hpart, heq⟩ := Option.map_eq_some_iff.mp hown
  obtain ⟨hnames, htold⟩ := Prod.mk.inj heq
  obtain ⟨host, hhost, hname⟩ := List.mem_map.mp (hnames ▸ List.mem_singleton.mpr rfl : "web" ∈ part.hosts.values.map HostConf.name)
  apply h.own 0 part hpart host hhost
  rw [hname, Dict.mem_keys, htold]
  exact Option.some_ne_none _

end PackedConf

end

end Alignak
