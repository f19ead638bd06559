import Alignak.RealmsSound
import Mathlib.Tactic.Tauto

/-!
# Levels of the realms

The sub realms that `set_level` collects are below their realm, so over realms
without a loop it ends, and so does the collection of the satellites.
-/

namespace Alignak.Hierarchy

open Relation

section
variable {κ : Type} [LinearOrder κ] {w₀ w w' : Realms κ} {name child : κ} {fuel : Nat} {rank : κ → Nat}

/-- The members are those of `w₀`, and the sub realms are below their realm. -/
structure Leveled (w₀ w : Realms κ) : Prop where
  names : w.names = w₀.names
  members : ∀ a, (w.realm a).realmMembers = (w₀.realm a).realmMembers
  subs : ∀ a, ∀ x ∈ (w.realm a).allSubMembers, TransGen (Edge w₀.known) a x
  subNames : ∀ a, ∀ x ∈ (w.realm a).allSubMembersNames, TransGen (Edge w₀.known) a x

theorem Leveled.start (h : ∀ a, (w.realm a).Unlinked) : Leveled w w where
  names := rfl
  members _ := rfl
  subs a x hx := by rw [(h a).1] at hx; cases hx
  subNames a x hx := by rw [(h a).2] at hx; cases hx

theorem Leveled.modify {f : Realm κ → Realm κ} (h : Leveled w₀ w) (hm : (f (w.realm name)).realmMembers = (w.realm name).realmMembers)
    (hs : ∀ x ∈ (f (w.realm name)).allSubMembers, TransGen (Edge w₀.known) name x)
    (hn : ∀ x ∈ (f (w.realm name)).allSubMembersNames, TransGen (Edge w₀.known) name x) : Leveled w₀ (w.modify name f) where
  names := h.names
  members a := by
    by_cases ha : a = name
    · rw [ha, modify_self, hm, h.members]
    · rw [modify_ne f ha, h.members]
  subs a := by
    by_cases ha : a = name
    · rw [ha, modify_self]; exact hs
    · rw [modify_ne f ha]; exact h.subs a
  subNames a := by
    by_cases ha : a = name
    · rw [ha, modify_self]; exact hn
    · rw [modify_ne f ha]; exact h.subNames a

theorem Leveled.startLevel (h : Leveled w₀ w) (level : Int) : Leveled w₀ (startLevel level name w) :=
  h.modify rfl (fun _ hx => absurd hx List.not_mem_nil) fun _ hx => absurd hx List.not_mem_nil

theorem Leveled.addSubMember (h : Leveled w₀ w) (hc : TransGen (Edge w₀.known) name child) : Leveled w₀ (addSubMember name child w) := by
  refine h.modify rfl (fun x hx => ?_) fun x hx => ?_
  · rcases List.mem_append.mp hx with hx | hx
    · exact h.subs name x hx
    · rw [List.mem_singleton.mp hx]; exact hc
  · rcases List.mem_append.mp hx with hx | hx
    · exact h.subNames name x hx
    · rw [List.mem_singleton.mp hx]; exact hc

theorem Leveled.addGrandChild (h : Leveled w₀ w) (hc : TransGen (Edge w₀.known) name child) :
    Leveled w₀ (addGrandChild name w child) := by
  unfold Hierarchy.addGrandChild
  split
  · exact h
  · cases hf : w.findByName child with
    | none => exact h
    | some found =>
      rw [(found_iff.mp hf).2]
      exact h.addSubMember hc

theorem Leveled.addGrandChildren (grandChildren : List κ) : ∀ w, Leveled w₀ w → (∀ x ∈ grandChildren, TransGen (Edge w₀.known) name x) →
    Leveled w₀ (grandChildren.foldl (Hierarchy.addGrandChild name) w) := by
  induction grandChildren with
  | nil => exact fun w h _ => h
  | cons x l ih =>
    intro w h hall
    exact ih _ (h.addGrandChild (hall x List.mem_cons_self)) fun y hy => hall y (List.mem_cons_of_mem _ hy)

def LevelsRight (w₀ : Realms κ) (setLevel : Int → κ → Realms κ → Except Exn (List κ × Realms κ)) (name : κ) : Prop :=
  ∀ level w, Leveled w₀ w → ∃ l w', setLevel level name w = .ok (l, w') ∧ Leveled w₀ w' ∧ ∀ x ∈ l, TransGen (Edge w₀.known) name x

theorem setChildren_leveled {setLevel : Int → κ → Realms κ → Except Exn (List κ × Realms κ)}
    (hlevel : ∀ child, Edge w₀.known name child → LevelsRight w₀ setLevel child) (children : List κ) :
    ∀ w, (∀ child ∈ children, child ∈ w₀.names → Edge w₀.known name child) → Leveled w₀ w →
      ∃ w', setChildren setLevel name children w = .ok w' ∧ Leveled w₀ w' := by
  induction children with
  | nil => exact fun w _ h => ⟨w, rfl, h⟩
  | cons child children ih =>
    intro w hall h
    have hrest : ∀ c ∈ children, c ∈ w₀.names → Edge w₀.known name c := fun c hc => hall c (List.mem_cons_of_mem _ hc)
    rw [setChildren]
    cases hf : w.findByName child with
    | none => exact ih w hrest h
    | some found =>
      obtain ⟨hn, rfl⟩ := found_iff.mp hf
      have hedge := hall found List.mem_cons_self (h.names ▸ hn)
      obtain ⟨l, w₁, hr, h1, hl⟩ := hlevel found hedge ((w.realm name).level + 1) _ (h.addSubMember (.single hedge))
      simp only [hr]
      exact ih _ hrest (Leveled.addGrandChildren l w₁ h1 fun x hx => .head hedge (hl x hx))

theorem setLevel_leveled (hrank : ∀ a b, Edge w₀.known a b → rank b < rank a) (fuel : Nat) :
    ∀ name, name ∈ w₀.names → rank name < fuel → LevelsRight w₀ (setLevel fuel) name := by
  induction fuel with
  | zero => exact fun name _ h => absurd h (Nat.not_lt_zero _)
  | succ fuel ih =>
    intro name hn hfuel level w h
    have hlevel : ∀ child, Edge w₀.known name child → LevelsRight w₀ (setLevel fuel) child := fun child hc =>
      ih child (mem_known.mp hc).2.1 (lt_of_lt_of_le (hrank _ _ hc) (Nat.le_of_lt_succ hfuel))
    have hchildren : ∀ child ∈ (w.realm name).realmMembers.insertionSort (· ≤ ·), child ∈ w₀.names → Edge w₀.known name child :=
      fun child hc hcn => mem_known.mpr ⟨hn, hcn, by
        rw [← h.members]
        exact (List.perm_insertionSort _ _).mem_iff.mp hc⟩
    have hstart : Leveled w₀ (startLevel level name w) := h.startLevel level
    obtain ⟨w', hr, h'⟩ := setChildren_leveled hlevel _ _ hchildren hstart
    exact ⟨_, w', by rw [setLevel, hr]; rfl, h', h'.subNames name⟩

theorem linkifyRealm_leveled (hrank : ∀ a b, Edge w₀.known a b → rank b < rank a) (hbound : ∀ a, rank a ≤ w₀.names.length)
    (hn : name ∈ w₀.names) (h : Leveled w₀ w) : ∃ w', linkifyRealm w name = .ok w' ∧ Leveled w₀ w' := by
  unfold linkifyRealm
  split
  · exact ⟨w, rfl, h⟩
  · have h' : Leveled w₀ (w.modify name fun realm => { realm with level := 0 }) := h.modify rfl (h.subs name) (h.subNames name)
    rw [h.names]
    obtain ⟨l, w₁, hr, h1, -⟩ := setLevel_leveled hrank _ name hn (Nat.lt_succ_of_le (hbound name)) 0 _ h'
    exact ⟨w₁, by rw [hr]; rfl, h1⟩

theorem linkify_leveled (hrank : ∀ a b, Edge w₀.known a b → rank b < rank a) (hbound : ∀ a, rank a ≤ w₀.names.length)
    (h : Leveled w₀ w) : ∃ w', linkify w = .ok w' ∧ Leveled w₀ w' := by
  refine foldlM_ok w.names w (fun name hn v hv => ?_) h
  rw [h.names] at hn
  exact linkifyRealm_leveled hrank hbound hn hv

theorem getAllSubs_ends (hrank : ∀ a b, Edge w₀.known a b → rank b < rank a) (h : Leveled w₀ w) (satType : SatType) (fuel : Nat) :
    ∀ name, rank name < fuel → ∃ l, getAllSubsSatellitesByType satType fuel name w = .ok l := by
  have hpath : ∀ {a b}, TransGen (Edge w₀.known) a b → rank b < rank a ∧ b ∈ w₀.names := by
    intro a b hab
    induction hab with
    | single he => exact ⟨hrank _ _ he, (mem_known.mp he).2.1⟩
    | tail _ he ih => exact ⟨(hrank _ _ he).trans ih.1, (mem_known.mp he).2.1⟩
  induction fuel with
  | zero => exact fun name h => absurd h (Nat.not_lt_zero _)
  | succ fuel ih =>
    intro name hfuel
    rw [getAllSubsSatellitesByType]
    refine (foldlM_ok (I := fun _ => True) _ _ (fun member hm res _ => ?_) trivial).imp fun l hl => hl.1
    obtain ⟨hlt, hn⟩ := hpath (h.subs name member hm)
    obtain ⟨l, hl⟩ := ih member (lt_of_lt_of_le hlt (Nat.le_of_lt_succ hfuel))
    rw [found_iff.mpr ⟨h.names ▸ hn, rfl⟩]
    simp only [hl]
    exact ⟨_, rfl, trivial⟩

end

/-! ## The higher realms -/

section
variable {κ : Type} {w w₁ w' : Realms κ} {extra extra' : κ → List κ}

structure Adds (extra : κ → List κ) (w w' : Realms κ) : Prop where
  names : w'.names = w.names
  members : ∀ a ∈ w.names, (w'.realm a).realmMembers = (w.realm a).realmMembers ++ extra a
  higher : ∀ a, (w'.realm a).higherRealms = (w.realm a).higherRealms
  errors : ∀ a, (w'.realm a).configurationErrors = (w.realm a).configurationErrors
  unlinked : ∀ a, (w.realm a).Unlinked → (w'.realm a).Unlinked

theorem Adds.refl (w : Realms κ) : Adds (fun _ => []) w w :=
  ⟨rfl, fun _ _ => (List.append_nil _).symm, fun _ => rfl, fun _ => rfl, fun _ h => h⟩

theorem Adds.trans (h : Adds extra w w₁) (h' : Adds extra' w₁ w') : Adds (fun a => extra a ++ extra' a) w w' where
  names := h'.names.trans h.names
  members a ha := by rw [h'.members a (h.names ▸ ha), h.members a ha, List.append_assoc]
  higher a := (h'.higher a).trans (h.higher a)
  errors a := (h'.errors a).trans (h.errors a)
  unlinked a ha := h'.unlinked a (h.unlinked a ha)

end

section
variable {κ : Type} [LinearOrder κ]

theorem addHigherRealm_adds (name parent : κ) (w : Realms κ) :
    Adds (fun a => if parent = a then [name] else []) w (addHigherRealm name w parent) := by
  unfold addHigherRealm
  by_cases hp : parent ∈ w.names
  · rw [found_iff.mpr ⟨hp, rfl⟩]
    refine ⟨rfl, fun a _ => ?_, ?_, ?_, ?_⟩
    · by_cases ha : a = parent
      · rw [ha, modify_self, if_pos rfl]
      · rw [modify_ne _ ha, if_neg (Ne.symm ha), List.append_nil]
    · exact modify_all (P := fun realm realm' => realm'.higherRealms = realm.higherRealms) (fun _ => rfl) rfl
    · exact modify_all (P := fun realm realm' => realm'.configurationErrors = realm.configurationErrors) (fun _ => rfl) rfl
    · exact modify_all (P := fun realm realm' => realm.Unlinked → realm'.Unlinked) (fun _ h => h) fun h => h
  · have hnone : w.findByName parent = none := if_neg hp
    rw [hnone]
    refine ⟨rfl, fun a ha => ?_, fun _ => rfl, fun _ => rfl, fun _ h => h⟩
    have hne : parent ≠ a := fun e => hp (by rw [e]; exact ha)
    rw [if_neg hne, List.append_nil]

theorem addHigherRealms_adds (name : κ) (parents : List κ) : ∀ w : Realms κ,
    Adds (fun a => parents.filterMap fun parent => if parent = a then some name else none) w (parents.foldl (addHigherRealm name) w) := by
  induction parents with
  | nil => exact .refl
  | cons parent parents ih =>
    intro w
    have h := (addHigherRealm_adds name parent w).trans (ih (addHigherRealm name w parent))
    have heq : (fun a => (if parent = a then [name] else []) ++ parents.filterMap fun p => if p = a then some name else none) =
        fun a => (parent :: parents).filterMap fun p => if p = a then some name else none := by
      funext a
      by_cases ha : parent = a <;> simp [ha]
    rw [heq] at h
    exact h

theorem manageHigher_adds (names : List κ) : ∀ w : Realms κ,
    Adds (fun a => names.flatMap fun b => (w.realm b).higherRealms.filterMap fun parent => if parent = a then some b else none) w
      (names.foldl (fun w name => (w.realm name).higherRealms.foldl (addHigherRealm name) w) w) := by
  induction names with
  | nil => exact .refl
  | cons name names ih =>
    intro w
    have h1 := addHigherRealms_adds name (w.realm name).higherRealms w
    have h := h1.trans (ih _)
    simp only [h1.higher] at h
    exact h

theorem manageHigherRealms_adds (d : Declared κ) : Adds (fun a => d.names.flatMap fun b => (d.higherRealms b).filterMap fun parent =>
    if parent = a then some b else none) d.realms (manageHigherRealms d.realms) := by
  have h := manageHigher_adds (d.names.filter fun name => (d.realms.realm name).higherRealms ≠ []) d.realms
  have heq : ∀ (f : κ → List κ), (∀ b, d.higherRealms b = [] → f b = []) →
      (d.names.filter fun name => d.higherRealms name ≠ []).flatMap f = d.names.flatMap f := by
    intro f hf
    induction d.names with
    | nil => rfl
    | cons b l ih =>
      by_cases hb : d.higherRealms b = []
      · rw [List.filter_cons_of_neg (by simpa using hb), ih, List.flatMap_cons, hf b hb, List.nil_append]
      · rw [List.filter_cons_of_pos (by simpa using hb), List.flatMap_cons, ih, List.flatMap_cons]
  have hextra : (fun a => (d.names.filter fun name => d.higherRealms name ≠ []).flatMap fun b =>
      (d.higherRealms b).filterMap fun parent => if parent = a then some b else none) = fun a =>
        d.names.flatMap fun b => (d.higherRealms b).filterMap fun parent => if parent = a then some b else none :=
    funext fun a => heq _ fun b hb => by rw [hb]; rfl
  rw [← hextra]
  exact h

theorem known_declared (d : Declared κ) : (manageHigherRealms d.realms).known = d.known := by
  have h := manageHigherRealms_adds d
  have hnames : (manageHigherRealms d.realms).names = d.names := h.names
  funext a
  unfold Realms.known Declared.known
  rw [hnames]
  by_cases ha : a ∈ d.names
  · rw [if_pos ha, if_pos ha, h.members a ha]
    rfl
  · rw [if_neg ha, if_neg ha]

theorem edge_declared (d : Declared κ) : Edge d.known = d.Member := by
  funext a b
  refine propext ?_
  unfold Edge Declared.known Declared.Member
  by_cases ha : a ∈ d.names
  · rw [if_pos ha, List.mem_filter, decide_eq_true_eq, Declared.members, List.mem_append, List.mem_flatMap]
    constructor
    · rintro ⟨hm, hb⟩
      refine ⟨ha, hb, hm.imp id ?_⟩
      rintro ⟨c, -, hc⟩
      obtain ⟨parent, hp, he⟩ := List.mem_filterMap.mp hc
      by_cases hpa : parent = a
      · rw [if_pos hpa] at he
        cases he
        exact hpa ▸ hp
      · rw [if_neg hpa] at he
        cases he
    · rintro ⟨-, hb, hm⟩
      exact ⟨hm.imp id fun hp => ⟨b, hb, List.mem_filterMap.mpr ⟨a, hp, if_pos rfl⟩⟩, hb⟩
  · rw [if_neg ha]
    exact ⟨fun h => absurd h List.not_mem_nil, fun h => absurd h.1 ha⟩

theorem loop_iff (d : Declared κ) : d.Loop ↔ ¬ Acyclic (Edge d.known) := by
  unfold Declared.Loop Acyclic
  rw [edge_declared]
  exact not_forall_not.symm

/-! ## The explosion of what is declared -/

theorem explode_outcome (d : Declared κ) : ∃ w, explode d.realms = .ok w ∧
    (w.Reported ↔ ¬ (Acyclic (Edge d.known) ∧ OneWay d.known)) ∧ Acyclic (Edge w.known) ∧ w.names = d.names ∧
    ∀ a, (w.realm a).Unlinked := by
  have hadds := manageHigherRealms_adds d
  obtain ⟨w, hr, hsh, hcycle, hforest, hkept⟩ := explodeRealms_searched (manageHigherRealms d.realms).names (manageHigherRealms d.realms)
    fun a ha => ha
  have hclean : Kept w (cleanTags w) := cleanTags_kept
  have hsh' := hsh.trans hclean.shrinks
  rw [known_declared] at hforest hkept
  refine ⟨cleanTags w, ?_, ?_, ?_, hsh'.names.trans hadds.names, fun a => hsh'.unlinked a (hadds.unlinked a ⟨rfl, rfl⟩)⟩
  · rw [explode]
    simp only [hr]
    rfl
  · constructor
    · rintro ⟨a, ha⟩ htree
      rw [hclean.errors, (hkept htree).errors, hadds.errors] at ha
      exact ha rfl
    · intro htree
      by_contra hrep
      have hrep' : ¬ w.Reported := fun h => hrep (hclean.shrinks.reported h)
      refine htree (acyclic_oneWay_of_forests fun r => ?_)
      by_cases hr : r ∈ d.names
      · exact hforest hrep' r (by rw [hadds.names]; exact hr)
      · have hnil : d.known r = [] := if_neg hr
        exact ⟨_, Forest.branch (D := fun _ => False) (hnil ▸ Forest.nil) fun h => h⟩
  · intro a hc
    have hc' : TransGen (Edge w.known) a a := hclean.shrinks.path hc
    obtain ⟨b, hab, -⟩ := TransGen.head'_iff.mp hc'
    have ha := (mem_known.mp hab).1
    rw [hsh.names] at ha
    exact hcycle a ha hc'

/-- A loop is reported where there is one, and nowhere else: just where there is
one, or no realm is reached along two ways. -/
theorem explode_exploded_iff (d : Declared κ) : (∃ w, explode d.realms = .ok w ∧ d.Exploded w) ↔ d.Loop ∨ OneWay d.known := by
  obtain ⟨w, hr, hrep, hac, hnames, hunlinked⟩ := explode_outcome d
  have hloop := loop_iff d
  constructor
  · rintro ⟨w', hr', hexp⟩
    rw [hr] at hr'
    cases hr'
    have hreported := hexp.reported
    tauto
  · intro hcond
    obtain ⟨rank, hrank, hbound⟩ := exists_rank w.names (fun a b hab => (mem_known.mp hab).2.1) hac
    have hstart := Leveled.start hunlinked
    have hb : ∀ a, rank a < d.names.length + 1 := fun a => by
      rw [← hnames]
      exact Nat.lt_succ_of_le (hbound a)
    refine ⟨w, hr, ⟨by tauto, hac, fun level name hn => ?_, ?_⟩⟩
    · obtain ⟨l, w', hl, -⟩ := setLevel_leveled hrank _ name (hnames ▸ hn) (hb name) level w hstart
      exact ⟨_, hl⟩
    · obtain ⟨w', hl, hleveled⟩ := linkify_leveled hrank hbound hstart
      exact ⟨w', hl, fun satType name _ => getAllSubs_ends hrank hleveled satType _ name (hb name)⟩

/-! ## A realm that is reached along two ways -/

/-- `All` has `Europe` and `Paris`, and `Europe` has `Paris`. -/
def sharedRealm : Declared Nat where
  names := [0, 1, 2]
  realmMembers name := if name = 0 then [1, 2] else if name = 1 then [2] else []
  higherRealms _ := []
  satellites _ _ := []

theorem sharedRealm_no_loop : ¬ sharedRealm.Loop := by
  rw [loop_iff, not_not, edge_declared]
  refine acyclic_of_rank (fun a => 2 - a) fun a b hab => ?_
  obtain ⟨-, -, hm | hm⟩ := hab
  · unfold sharedRealm at hm
    simp only at hm
    split at hm
    · simp only [List.mem_cons, List.not_mem_nil, or_false] at hm
      omega
    · split at hm
      · simp only [List.mem_cons, List.not_mem_nil, or_false] at hm
        omega
      · cases hm
  · cases hm

theorem sharedRealm_reported : ¬ ∃ w, explode sharedRealm.realms = .ok w ∧ sharedRealm.Exploded w := by
  rintro ⟨w, hr, hexp⟩
  have hrep : ∃ w, explode sharedRealm.realms = .ok w ∧ (w.realm 2).configurationErrors ≠ [] := by
    refine ⟨_, rfl, ?_⟩
    decide
  obtain ⟨w', hr', herr⟩ := hrep
  rw [hr] at hr'
  cases hr'
  exact sharedRealm_no_loop (hexp.reported.mp ⟨2, herr⟩)

end

end Alignak.Hierarchy
