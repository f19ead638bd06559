import Alignak.Realms

/-!
# Loops between realms

A search that returns its members has visited a forest and kept the realms. One
that returns `None` has met a realm twice, and leaves the realm that it started
from without members.
-/

namespace Alignak.Hierarchy

open Relation

/-! ## Realms that differ -/

section
variable {κ : Type} {w w₁ w' : Realms κ} {a : κ}

def Tagged (w : Realms κ) (a : κ) : Prop := (w.realm a).recTag = true

def Realm.Unlinked (realm : Realm κ) : Prop := realm.allSubMembers = [] ∧ realm.allSubMembersNames = []

structure Kept (w w' : Realms κ) : Prop where
  names : w'.names = w.names
  members : ∀ a, (w'.realm a).realmMembers.Perm (w.realm a).realmMembers
  errors : ∀ a, (w'.realm a).configurationErrors = (w.realm a).configurationErrors
  unlinked : ∀ a, (w.realm a).Unlinked → (w'.realm a).Unlinked

/-- Some realms have lost their members, and no error is lost. -/
structure Shrinks (w w' : Realms κ) : Prop where
  names : w'.names = w.names
  members : ∀ a, (w'.realm a).realmMembers.Perm (w.realm a).realmMembers ∨ (w'.realm a).realmMembers = []
  errors : ∀ a, (w.realm a).configurationErrors ≠ [] → (w'.realm a).configurationErrors ≠ []
  unlinked : ∀ a, (w.realm a).Unlinked → (w'.realm a).Unlinked

theorem Kept.refl (w : Realms κ) : Kept w w := ⟨rfl, fun _ => .refl _, fun _ => rfl, fun _ h => h⟩

theorem Kept.trans (h : Kept w w₁) (h' : Kept w₁ w') : Kept w w' where
  names := h'.names.trans h.names
  members a := (h'.members a).trans (h.members a)
  errors a := (h'.errors a).trans (h.errors a)
  unlinked a ha := h'.unlinked a (h.unlinked a ha)

theorem Kept.shrinks (h : Kept w w') : Shrinks w w' where
  names := h.names
  members a := Or.inl (h.members a)
  errors a ha := by rwa [h.errors a]
  unlinked := h.unlinked

theorem Shrinks.trans (h : Shrinks w w₁) (h' : Shrinks w₁ w') : Shrinks w w' where
  names := h'.names.trans h.names
  members a := by
    rcases h'.members a with hp | hp
    · rcases h.members a with hq | hq
      · exact Or.inl (hp.trans hq)
      · exact Or.inr (List.perm_nil.mp (hq ▸ hp))
    · exact Or.inr hp
  errors a ha := h'.errors a (h.errors a ha)
  unlinked a ha := h'.unlinked a (h.unlinked a ha)

theorem Shrinks.reported (h : Shrinks w w') (hr : w.Reported) : w'.Reported := by
  obtain ⟨a, ha⟩ := hr
  exact ⟨a, h.errors a ha⟩

theorem Shrinks.emptied (h : Shrinks w w') (he : (w.realm a).realmMembers = []) : (w'.realm a).realmMembers = [] := by
  rcases h.members a with hp | hp
  · exact List.perm_nil.mp (he ▸ hp)
  · exact hp

theorem cleanTags_kept : Kept w (cleanTags w) := ⟨rfl, fun _ => .refl _, fun _ => rfl, fun _ h => h⟩

theorem cleanTags_tag : ¬ Tagged (cleanTags w) a := Bool.false_ne_true

def untagged (w : Realms κ) : Nat := w.names.countP fun a => !(w.realm a).recTag

theorem untagged_le (hn : w'.names = w.names) (ht : ∀ a, Tagged w a → Tagged w' a) : untagged w' ≤ untagged w := by
  unfold untagged
  rw [hn]
  refine List.countP_mono_left fun a _ ha => ?_
  cases h : (w.realm a).recTag with
  | false => rfl
  | true =>
    rw [show (w'.realm a).recTag = true from ht a h] at ha
    cases ha

end

section
variable {κ : Type} [LinearOrder κ] {w w₁ w' : Realms κ} {name a b : κ} {roots : List κ}

theorem modify_self (f : Realm κ → Realm κ) : (w.modify name f).realm name = f (w.realm name) := Function.update_self ..

theorem modify_ne (f : Realm κ → Realm κ) (h : a ≠ name) : (w.modify name f).realm a = w.realm a := Function.update_of_ne h ..

theorem modify_all {P : Realm κ → Realm κ → Prop} {f : Realm κ → Realm κ} (hrefl : ∀ realm, P realm realm)
    (hf : P (w.realm name) (f (w.realm name))) (a : κ) : P (w.realm a) ((w.modify name f).realm a) := by
  by_cases h : a = name
  · rw [h, modify_self]
    exact hf
  · rw [modify_ne f h]
    exact hrefl _

theorem Kept.known (h : Kept w w') (a : κ) : (w'.known a).Perm (w.known a) := by
  unfold Realms.known
  rw [h.names]
  split
  · exact (h.members a).filter _
  · exact .refl _

theorem Kept.known_symm (h : Kept w w') (a : κ) : (w.known a).Perm (w'.known a) := (h.known a).symm

theorem mem_known : b ∈ w.known a ↔ a ∈ w.names ∧ b ∈ w.names ∧ b ∈ (w.realm a).realmMembers := by
  unfold Realms.known
  split
  · rename_i ha
    rw [List.mem_filter, decide_eq_true_eq]
    exact ⟨fun h => ⟨ha, h.2, h.1⟩, fun h => ⟨h.2.2, h.2.1⟩⟩
  · rename_i ha
    exact ⟨fun h => absurd h List.not_mem_nil, fun h => absurd h.1 ha⟩

theorem Shrinks.edge (h : Shrinks w w') (he : Edge w'.known a b) : Edge w.known a b := by
  obtain ⟨ha, hb, hm⟩ := mem_known.mp he
  rw [h.names] at ha hb
  refine mem_known.mpr ⟨ha, hb, ?_⟩
  rcases h.members a with hp | hp
  · exact hp.mem_iff.mp hm
  · rw [hp] at hm
    cases hm

theorem Shrinks.path (h : Shrinks w w') (hp : TransGen (Edge w'.known) a b) : TransGen (Edge w.known) a b := by
  induction hp with
  | single he => exact .single (h.edge he)
  | tail _ he ih => exact ih.tail (h.edge he)

/-! ## One search -/

def Branches (succ : κ → List κ) (roots : List κ) : Prop :=
  roots.Pairwise fun m m' => ∀ x, Reaches succ m x → ¬ Reaches succ m' x

inductive Outcome (roots : List κ) (w w' : Realms κ) : Option (List κ) → Prop
  | found {l : List κ} (kept : Kept w w') (tags : ∀ a, Tagged w a → Tagged w' a)
      (forest : Forest w.known roots fun x => Tagged w' x ∧ ¬ Tagged w x) : Outcome roots w w' (some l)
  | cut (shrinks : Shrinks w w') (reported : w'.Reported)
      (clash : Acyclic (Edge w.known) → OneWay w.known → Branches w.known roots → ∃ m ∈ roots, ∃ x, Reaches w.known m x ∧ Tagged w x) :
      Outcome roots w w' none

/-- The order of the members does not matter to what is asked of them. -/
theorem Kept.acyclic (h : Kept w w') (hac : Acyclic (Edge w.known)) : Acyclic (Edge w'.known) :=
  fun a hc => hac a (h.shrinks.path hc)

theorem Kept.reaches (h : Kept w w') (hr : Reaches w'.known a b) : Reaches w.known a b := Forest.reaches_perm h.known_symm hr

theorem Kept.oneWay (h : Kept w w') (hw : OneWay w.known) : OneWay w'.known where
  nodup a := (h.known a).nodup_iff.mpr (hw.nodup a)
  unique r a b x ha hb hax hbx :=
    hw.unique r a b x (h.reaches ha) (h.reaches hb) (h.shrinks.edge hax) (h.shrinks.edge hbx)

theorem Kept.branches (h : Kept w w') (hb : Branches w.known roots) : Branches w'.known roots :=
  hb.imp fun hdisj x hx hx' => hdisj x (h.reaches hx) (h.reaches hx')

theorem Outcome.after {res : Option (List κ)} (h : Outcome roots w₁ w' res) (hk : Kept w w₁) (ht : ∀ a, Tagged w₁ a ↔ Tagged w a) :
    Outcome roots w w' res := by
  cases h with
  | found kept tags forest =>
    refine .found (hk.trans kept) (fun a ha => tags a ((ht a).mpr ha)) ?_
    exact (forest.perm hk.known_symm (.refl _)).congr fun x => by rw [ht x]
  | cut shrinks reported clash =>
    refine .cut (hk.shrinks.trans shrinks) reported fun hac hw hb => ?_
    obtain ⟨m, hm, x, hx, hxt⟩ := clash (hk.acyclic hac) (hk.oneWay hw) (hk.branches hb)
    exact ⟨m, hm, x, hk.reaches hx, (ht x).mp hxt⟩

theorem Outcome.append {l : List κ} {res : Option (List κ)} (h : Outcome [a] w w₁ (some l)) (h' : Outcome roots w₁ w' res) :
    Outcome (a :: roots) w w' res := by
  cases h with
  | found kept tags forest =>
    cases h' with
    | found kept' tags' forest' =>
      refine .found (kept.trans kept') (fun a ha => tags' a (tags a ha)) ?_
      have happ := forest.append (forest'.perm kept.known_symm (.refl _)) fun x hx hx' => hx'.2 hx.1
      refine happ.congr fun x => ?_
      constructor
      · rintro (⟨hx, hn⟩ | ⟨hx, hn⟩)
        · exact ⟨tags' x hx, hn⟩
        · exact ⟨hx, fun ht => hn (tags x ht)⟩
      · rintro ⟨hx, hn⟩
        by_cases ht : Tagged w₁ x
        · exact Or.inl ⟨ht, hn⟩
        · exact Or.inr ⟨hx, ht⟩
    | cut shrinks reported clash =>
      refine .cut (kept.shrinks.trans shrinks) reported fun hac hw hb => ?_
      obtain ⟨hdisj, hb⟩ := List.pairwise_cons.mp hb
      obtain ⟨m, hm, x, hx, hxt⟩ := clash (kept.acyclic hac) (kept.oneWay hw) (kept.branches hb)
      by_cases ht : Tagged w x
      · exact ⟨m, List.mem_cons_of_mem _ hm, x, kept.reaches hx, ht⟩
      · obtain ⟨r, hr, hrx⟩ := forest.below x ⟨hxt, ht⟩
        rw [List.mem_singleton.mp hr] at hrx
        exact absurd (kept.reaches hx) (hdisj m hm x hrx)

/-! ## The search -/

theorem found_iff : w.findByName a = some b ↔ a ∈ w.names ∧ b = a := by
  unfold Realms.findByName
  split
  · rename_i h
    exact ⟨fun he => ⟨h, (Option.some.inj he).symm⟩, fun he => by rw [he.2]⟩
  · rename_i h
    refine ⟨fun he => ?_, fun he => absurd he.1 h⟩
    cases he

theorem addUnknownMembers_kept (member : κ) : Kept w (addUnknownMembers name member w) where
  names := rfl
  members := modify_all (P := fun realm realm' => realm'.realmMembers.Perm realm.realmMembers) (fun _ => .refl _) (.refl _)
  errors := modify_all (P := fun realm realm' => realm'.configurationErrors = realm.configurationErrors) (fun _ => rfl) rfl
  unlinked := modify_all (P := fun realm realm' => realm.Unlinked → realm'.Unlinked) (fun _ h => h) fun h => h

theorem addUnknownMembers_tag (member a : κ) : Tagged (addUnknownMembers name member w) a ↔ Tagged w a :=
  modify_all (P := fun realm realm' => realm'.recTag = true ↔ realm.recTag = true) (fun _ => Iff.rfl) Iff.rfl a

theorem tagAndSort_kept : Kept w (tagAndSort name w) where
  names := rfl
  members := modify_all (P := fun realm realm' => realm'.realmMembers.Perm realm.realmMembers) (fun _ => .refl _)
    (List.perm_insertionSort _ _)
  errors := modify_all (P := fun realm realm' => realm'.configurationErrors = realm.configurationErrors) (fun _ => rfl) rfl
  unlinked := modify_all (P := fun realm realm' => realm.Unlinked → realm'.Unlinked) (fun _ h => h) fun h => h

theorem tagAndSort_tag (a : κ) : Tagged (tagAndSort name w) a ↔ a = name ∨ Tagged w a := by
  unfold Tagged tagAndSort
  by_cases h : a = name
  · rw [h, modify_self]
    simp
  · rw [modify_ne _ h]
    simp [h]

theorem untagged_tagAndSort (hn : name ∈ w.names) (ht : ¬ Tagged w name) : untagged (tagAndSort name w) < untagged w := by
  have hle : ∀ a ∈ w.names, (!((tagAndSort name w).realm a).recTag) = true → (!(w.realm a).recTag) = true := fun a _ ha => by
    cases h : (w.realm a).recTag with
    | false => rfl
    | true =>
      rw [show ((tagAndSort name w).realm a).recTag = true from (tagAndSort_tag a).mpr (Or.inr h)] at ha
      cases ha
  have hname : ((tagAndSort name w).realm name).recTag = true := (tagAndSort_tag name).mpr (Or.inl rfl)
  obtain ⟨s, t, hst⟩ := List.append_of_mem hn
  have hold : (w.realm name).recTag = false := Bool.eq_false_iff.mpr ht
  unfold untagged
  rw [show (tagAndSort name w).names = w.names from rfl]
  have hs := List.countP_mono_left (l := s) fun a ha => hle a (by rw [hst]; exact List.mem_append_left _ ha)
  have hend := List.countP_mono_left (l := t) fun a ha => hle a (by rw [hst]; exact List.mem_append_right _ (List.mem_cons_of_mem _ ha))
  rw [hst, List.countP_append, List.countP_append, List.countP_cons, List.countP_cons, hname, hold]
  simp only [Bool.not_true, Bool.false_eq_true, if_false, Bool.not_false, if_true]
  omega

theorem explodeMembers_outcome {explode : κ → Realms κ → Except Exn (Option (List κ) × Realms κ)} {fuel : Nat}
    (hex : ∀ found w, found ∈ w.names → untagged w < fuel → ∃ res w', explode found w = .ok (res, w') ∧ Outcome [found] w w' res)
    (name : κ) (members : List κ) : ∀ w, untagged w < fuel → ∃ res w', explodeMembers explode name members w = .ok (res, w') ∧
      Outcome (members.filter (· ∈ w.names)) w w' res ∧ (res = none → (w'.realm name).realmMembers = []) := by
  induction members with
  | nil =>
    intro w _
    refine ⟨_, w, rfl, ?_, fun h => by cases h⟩
    exact .found (.refl w) (fun _ h => h) (Forest.nil.congr fun x => ⟨False.elim, fun h => h.2 h.1⟩)
  | cons member members ih =>
    intro w hfuel
    by_cases hm : member ∈ w.names
    · rw [explodeMembers, found_iff.mpr ⟨hm, rfl⟩, List.filter_cons_of_pos (by simpa using hm)]
      obtain ⟨res, w₁, hr, hout⟩ := hex member w hm hfuel
      simp only [hr]
      cases hout with
      | @found l kept tags forest =>
        have hout : Outcome [member] w w₁ (some l) := .found kept tags forest
        obtain ⟨res, w', hr', hout', hnone⟩ := ih w₁ (lt_of_le_of_lt (untagged_le kept.names tags) hfuel)
        rw [kept.names] at hout'
        exact ⟨res, w', hr', hout.append hout', hnone⟩
      | cut shrinks reported clash =>
        refine ⟨none, _, rfl, .cut (shrinks.trans ⟨rfl, ?_, ?_, ?_⟩) ?_ fun hac hw hb => ?_, fun _ => ?_⟩
        · exact modify_all (P := fun realm realm' => realm'.realmMembers.Perm realm.realmMembers ∨ realm'.realmMembers = [])
            (fun _ => Or.inl (.refl _)) (Or.inr rfl)
        · exact modify_all (P := fun realm realm' => realm.configurationErrors ≠ [] → realm'.configurationErrors ≠ [])
            (fun _ h => h) fun h => h
        · exact modify_all (P := fun realm realm' => realm.Unlinked → realm'.Unlinked) (fun _ h => h) fun h => ⟨rfl, h.2⟩
        · obtain ⟨a, ha⟩ := reported
          exact ⟨a, modify_all (P := fun realm realm' => realm.configurationErrors ≠ [] → realm'.configurationErrors ≠ [])
            (fun _ h => h) (fun h => h) a ha⟩
        · obtain ⟨m, hm, hx⟩ := clash hac hw (List.pairwise_singleton _ _)
          exact ⟨m, List.mem_cons.mpr (Or.inl (List.mem_singleton.mp hm)), hx⟩
        · rw [modify_self]
    · have hnone : w.findByName member = none := if_neg hm
      rw [explodeMembers, hnone, List.filter_cons_of_neg (by simpa using hm)]
      have huntagged : untagged (addUnknownMembers name member w) ≤ untagged w :=
        untagged_le rfl fun a ha => (addUnknownMembers_tag member a).mpr ha
      obtain ⟨res, w', hr, hout, hcut⟩ := ih (addUnknownMembers name member w) (lt_of_le_of_lt huntagged hfuel)
      exact ⟨res, w', hr, hout.after (addUnknownMembers_kept member) (addUnknownMembers_tag member), hcut⟩

theorem successors_branches (hac : Acyclic (Edge w.known)) (hw : OneWay w.known) (a : κ) : Branches w.known (w.known a) := by
  refine List.Pairwise.imp_of_mem ?_ (hw.nodup a)
  intro m m' hm hm' hne x hx hx'
  exact hne (disjoint_successors hac hw hm hm' hx hx')

/-- Enough fuel is one more than the realms that are not tagged. -/
theorem getRealmsByExplosion_outcome (fuel : Nat) : ∀ (name : κ) (w : Realms κ), name ∈ w.names → untagged w < fuel →
    ∃ res w', getRealmsByExplosion fuel name w = .ok (res, w') ∧ Outcome [name] w w' res ∧
      (res = none → Tagged w name ∨ (w'.realm name).realmMembers = []) := by
  induction fuel with
  | zero => intro name w _ h; exact absurd h (Nat.not_lt_zero _)
  | succ fuel ih =>
    intro name w hn hfuel
    by_cases ht : Tagged w name
    · have htag : (w.realm name).recTag = true := ht
      rw [getRealmsByExplosion, if_pos htag]
      refine ⟨none, _, rfl, .cut ⟨rfl, fun a => Or.inl ?_, ?_, ?_⟩ ⟨name, ?_⟩ fun _ _ _ => ?_, fun _ => Or.inl ht⟩
      · exact modify_all (P := fun realm realm' => realm'.realmMembers.Perm realm.realmMembers) (fun _ => .refl _) (.refl _) a
      · exact modify_all (P := fun realm realm' => realm.configurationErrors ≠ [] → realm'.configurationErrors ≠ [])
          (fun _ h => h) fun _ => by simp
      · exact modify_all (P := fun realm realm' => realm.Unlinked → realm'.Unlinked) (fun _ h => h) fun h => h
      · rw [addError, modify_self]
        simp
      · exact ⟨name, List.mem_singleton_self _, name, .refl, ht⟩
    · have htag : ¬ (w.realm name).recTag = true := ht
      rw [getRealmsByExplosion, if_neg htag]
      have hkept : Kept w (tagAndSort name w) := tagAndSort_kept
      have huntagged := untagged_tagAndSort hn ht
      obtain ⟨res, w', hr, hout, hcut⟩ := explodeMembers_outcome
        (fun found w hf hlt => by
          obtain ⟨res, w', hr, hout, -⟩ := ih found w hf hlt
          exact ⟨res, w', hr, hout⟩)
        name ((tagAndSort name w).realm name).realmMembers (tagAndSort name w) (by omega)
      have hroots : ((tagAndSort name w).realm name).realmMembers.filter (· ∈ (tagAndSort name w).names) = (tagAndSort name w).known name :=
        (if_pos hn).symm
      rw [hroots] at hout
      refine ⟨res, w', hr, ?_, fun h => Or.inr (hcut h)⟩
      cases hout with
      | found kept tags forest =>
        refine .found (hkept.trans kept) (fun a ha => tags a ((tagAndSort_tag a).mpr (Or.inr ha))) ?_
        have hname : Tagged (tagAndSort name w) name := (tagAndSort_tag name).mpr (Or.inl rfl)
        refine ((forest.branch fun h => h.2 hname).perm hkept.known_symm (.refl _)).congr fun x => ?_
        constructor
        · rintro (rfl | ⟨hx, hnx⟩)
          · exact ⟨tags x hname, ht⟩
          · exact ⟨hx, fun h => hnx ((tagAndSort_tag x).mpr (Or.inr h))⟩
        · rintro ⟨hx, hnx⟩
          by_cases he : x = name
          · exact Or.inl he
          · exact Or.inr ⟨hx, fun h => ((tagAndSort_tag x).mp h).elim he hnx⟩
      | cut shrinks reported clash =>
        refine .cut (hkept.shrinks.trans shrinks) reported fun hac hw _ => ?_
        have hac' := hkept.acyclic hac
        have hw' := hkept.oneWay hw
        obtain ⟨m, hm, x, hx, hxt⟩ := clash hac' hw' (successors_branches hac' hw' name)
        have hpath : TransGen (Edge (tagAndSort name w).known) name x := .head' hm hx
        rcases (tagAndSort_tag x).mp hxt with rfl | hxt
        · exact absurd hpath (hac' _)
        · exact ⟨name, List.mem_singleton_self _, x, hkept.reaches hpath.to_reflTransGen, hxt⟩

inductive Searched (name : κ) (w w' : Realms κ) : Prop
  | found (kept : Kept w w') {D : κ → Prop} (forest : Forest w.known [name] D) : Searched name w w'
  | cut (shrinks : Shrinks w w') (reported : w'.Reported) (emptied : (w'.realm name).realmMembers = [])
      (clash : ¬ (Acyclic (Edge w.known) ∧ OneWay w.known)) : Searched name w w'

theorem explodeRealm_searched (hn : name ∈ w.names) : ∃ w', explodeRealm w name = .ok w' ∧ Searched name w w' := by
  have hfuel : untagged (cleanTags w) < w.names.length + 1 := Nat.lt_succ_of_le (List.countP_le_length)
  obtain ⟨res, w', hr, hout, hcut⟩ := getRealmsByExplosion_outcome _ name (cleanTags w) hn hfuel
  refine ⟨w', by rw [explodeRealm, hr]; rfl, ?_⟩
  cases hout with
  | found kept tags forest => exact .found (cleanTags_kept.trans kept) (forest.perm cleanTags_kept.known_symm (.refl _))
  | cut shrinks reported clash =>
    refine .cut (cleanTags_kept.shrinks.trans shrinks) reported ((hcut rfl).resolve_left cleanTags_tag) ?_
    rintro ⟨hac, hw⟩
    obtain ⟨m, -, x, -, hx⟩ := clash (cleanTags_kept.acyclic hac) (cleanTags_kept.oneWay hw) (List.pairwise_singleton _ _)
    exact cleanTags_tag hx

/-! ## All searches -/

theorem no_cycle_emptied (h : (w.realm a).realmMembers = []) : ¬ TransGen (Edge w.known) a a := by
  intro hc
  obtain ⟨b, hab, -⟩ := TransGen.head'_iff.mp hc
  rw [Edge, mem_known, h] at hab
  cases hab.2.2

theorem explodeRealms_searched (names : List κ) : ∀ w, (∀ a ∈ names, a ∈ w.names) → ∃ w', names.foldlM explodeRealm w = .ok w' ∧
    Shrinks w w' ∧ (∀ a ∈ names, ¬ TransGen (Edge w'.known) a a) ∧
    (¬ w'.Reported → ∀ a ∈ names, ∃ D, Forest w.known [a] D) ∧
    (Acyclic (Edge w.known) ∧ OneWay w.known → Kept w w') := by
  induction names with
  | nil => exact fun w _ => ⟨w, rfl, (Kept.refl w).shrinks, fun _ h => absurd h List.not_mem_nil,
      fun _ _ h => absurd h List.not_mem_nil, fun _ => .refl w⟩
  | cons name names ih =>
    intro w hall
    obtain ⟨w₁, hr, hs⟩ := explodeRealm_searched (hall name List.mem_cons_self)
    have hshrinks : Shrinks w w₁ := by
      cases hs with
      | found kept forest => exact kept.shrinks
      | cut shrinks reported emptied clash => exact shrinks
    obtain ⟨w', hr', hsh, hcycle, hforest, hkept⟩ := ih w₁ fun a ha => by
      rw [hshrinks.names]
      exact hall a (List.mem_cons_of_mem _ ha)
    refine ⟨w', by rw [List.foldlM_cons, hr]; exact hr', hshrinks.trans hsh, fun a ha => ?_, fun hrep a ha => ?_, fun htree => ?_⟩
    · rcases List.mem_cons.mp ha with rfl | ha
      · cases hs with
        | found kept forest => exact fun hc => forest.no_cycle ((hshrinks.trans hsh).path hc)
        | cut shrinks reported emptied clash => exact no_cycle_emptied (hsh.emptied emptied)
      · exact hcycle a ha
    · cases hs with
      | found kept forest =>
        rcases List.mem_cons.mp ha with rfl | ha
        · exact ⟨_, forest⟩
        · obtain ⟨D, hD⟩ := hforest hrep a ha
          exact ⟨D, hD.perm kept.known_symm (.refl _)⟩
      | cut shrinks reported emptied clash => exact absurd (hsh.reported reported) hrep
    · cases hs with
      | found kept forest => exact kept.trans (hkept ⟨kept.acyclic htree.1, kept.oneWay htree.2⟩)
      | cut shrinks reported emptied clash => exact absurd htree clash

end

end Alignak.Hierarchy
