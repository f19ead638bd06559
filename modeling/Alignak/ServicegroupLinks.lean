import Alignak.ServiceHosts
import Mathlib.Logic.Function.Basic

/-!
# The services of a service group

The members of a service group are names of hosts and descriptions of services
in turn. The linking takes them two by two, and writes the services into the
group and the group into the services.
-/

namespace Alignak.ServicegroupLinks

abbrev Text := List Char

/-! ## Two by two -/

section
variable {α : Type}

def pairUp : List α → List (α × α)
  | a :: b :: l => (a, b) :: pairUp l
  | _ => []

def unpaired : List α → Option α
  | [] => none
  | [a] => some a
  | _ :: _ :: l => unpaired l

theorem unpaired_eq_none (l : List α) : unpaired l = none ↔ l.length % 2 = 0 := by
  induction l using unpaired.induct with
  | case1 => simp [unpaired]
  | case2 a => simp [unpaired]
  | case3 a b l ih =>
    rw [unpaired, ih, List.length_cons, List.length_cons]
    omega

end

/-! ## Groups and services -/

structure Servicegroup where
  uuid : Text
  members : List Text
  unknownMembers : List Text
  deriving DecidableEq, Repr

structure Servicegroups where
  items : List Servicegroup
  nodup : (items.map Servicegroup.uuid).Nodup

def Indexed (nameToItem : Text × Text → Option Text) (table : Text → Option (List Text)) : Prop :=
  ∀ p u, nameToItem p = some u → u ≠ [] ∧ table u ≠ none

structure Services where
  nameToItem : Text × Text → Option Text
  servicegroups : Text → Option (List Text)
  indexed : Indexed nameToItem servicegroups

structure Warning where
  group : Text
  serviceDesc : Text
  hostName : Text
  deriving DecidableEq, Repr

section
variable (hosts : Text → Option HostServices) (nameToItem : Text × Text → Option Text)

/-! ## The members of a group -/

structure Walk where
  seek : Nat
  hostName : Text
  newMembers : List Text
  unknown : List Text
  warnings : List Warning

def isExcluded (p : Text × Text) : Bool := (hosts p.1).any fun host => host.isExcludedForSdesc (some p.2) false

def pairText (p : Text × Text) : Text := p.1 ++ ',' :: p.2

def walkPair (group : Text) (w : Walk) (p : Text × Text) : Walk :=
  match nameToItem p with
  | some uuid => { w with newMembers := w.newMembers ++ [uuid] }
  | none =>
    if isExcluded hosts p then { w with warnings := w.warnings ++ [⟨group, p.2, p.1⟩] }
    else { w with unknown := w.unknown ++ [pairText p] }

def walkMember (group : Text) (w : Walk) (member : Text) : Walk :=
  if member = [] then w
  else if w.seek % 2 = 0 then { w with hostName := strip member, seek := w.seek + 1 }
  else
    let w := walkPair hosts nameToItem group w (w.hostName, strip member)
    { w with seek := w.seek + 1 }

def soleMember : List Text → Option Text
  | [member] => if member = [] then none else some member
  | _ => none

def recordGroup (group : Text) (table : Text → Option (List Text)) (uuid : Text) :
    Except Exn (Text → Option (List Text)) :=
  if uuid = [] then .error .attributeError
  else
    match table uuid with
    | some groups => .ok (Function.update table uuid (some (groups ++ [group]).dedup))
    | none => .error .keyError

structure Linking where
  groups : List Servicegroup
  table : Text → Option (List Text)
  warnings : List Warning

def linkGroup (s : Linking) (g : Servicegroup) : Except Exn Linking :=
  match soleMember g.members with
  | some member => .ok { s with groups := s.groups ++ [{ g with unknownMembers := g.unknownMembers ++ [member] }] }
  | none => do
    let w := g.members.foldl (walkMember hosts nameToItem g.uuid) ⟨0, [], [], g.unknownMembers, s.warnings⟩
    let newMembers := w.newMembers.dedup
    let table ← newMembers.foldlM (recordGroup g.uuid) s.table
    .ok ⟨s.groups ++ [{ g with members := newMembers, unknownMembers := w.unknown }], table, w.warnings⟩

end

def linkifyServicegroupsServices (hosts : Text → Option HostServices) (services : Services) (groups : Servicegroups) :
    Except Exn Linking :=
  groups.items.foldlM (linkGroup hosts services.nameToItem) ⟨[], services.servicegroups, []⟩

/-- `is_correct` of a group, from what it is for any item: the group, its errors
and the answer. -/
def isCorrect (itemCorrect : Bool) (g : Servicegroup) : Servicegroup × List Text × Bool :=
  ({ g with members := g.members.dedup },
    g.unknownMembers.map fun member => "as servicegroup, got unknown member '".toList ++ member ++ ['\''],
    itemCorrect && g.unknownMembers.isEmpty)

/-! ## What the members name -/

def elements (members : List Text) : List Text := members.filter fun m => !m.isEmpty

def namedPairs (members : List Text) : List (Text × Text) :=
  (pairUp (elements members)).map fun p => (strip p.1, strip p.2)

def isUnknown (hosts : Text → Option HostServices) (nameToItem : Text × Text → Option Text) (p : Text × Text) : Bool :=
  (nameToItem p).isNone && !isExcluded hosts p

structure Linked (hosts : Text → Option HostServices) (services : Services) (g g' : Servicegroup)
    (table : Text → Option (List Text)) : Prop where
  members : ∀ u, u ∈ g'.members ↔ ∃ p ∈ namedPairs g.members, services.nameToItem p = some u
  unknown : g'.unknownMembers = g.unknownMembers ++
    ((namedPairs g.members).filter (isUnknown hosts services.nameToItem)).map pairText ++
    (unpaired (elements g.members)).toList
  refused : (∃ p ∈ namedPairs g.members, isUnknown hosts services.nameToItem p = true) ∨
    unpaired (elements g.members) ≠ none → ∀ itemCorrect, (isCorrect itemCorrect g').2.2 = false
  recorded : ∀ u groups, services.servicegroups u = some groups → ∃ groups', table u = some groups' ∧
    (g.uuid ∈ groups' ↔ g.uuid ∈ groups ∨ ∃ p ∈ namedPairs g.members, services.nameToItem p = some u)

/-! ## The walk -/

section
variable {hosts : Text → Option HostServices} {nameToItem : Text × Text → Option Text} {group : Text} {w : Walk}

structure Walked (hosts : Text → Option HostServices) (nameToItem : Text × Text → Option Text) (pairs : List (Text × Text))
    (w w' : Walk) : Prop where
  newMembers : w'.newMembers = w.newMembers ++ pairs.filterMap nameToItem
  unknown : w'.unknown = w.unknown ++ (pairs.filter (isUnknown hosts nameToItem)).map pairText

theorem walkPair_walked (group : Text) (w : Walk) (p : Text × Text) :
    Walked hosts nameToItem [p] w (walkPair hosts nameToItem group w p) ∧
      (walkPair hosts nameToItem group w p).seek = w.seek := by
  unfold walkPair
  cases hfind : nameToItem p with
  | some uuid => exact ⟨⟨by simp [hfind], by simp [isUnknown, hfind]⟩, rfl⟩
  | none =>
    cases hexcluded : isExcluded hosts p with
    | true => exact ⟨⟨by simp [hfind], by simp [isUnknown, hexcluded]⟩, rfl⟩
    | false => exact ⟨⟨by simp [hfind], by simp [isUnknown, hfind, hexcluded]⟩, rfl⟩

theorem walkMember_nil : walkMember hosts nameToItem group w [] = w := if_pos rfl

theorem walkMember_host {m : Text} (hm : m ≠ []) (hs : w.seek % 2 = 0) :
    walkMember hosts nameToItem group w m = { w with hostName := strip m, seek := w.seek + 1 } := by
  unfold walkMember
  rw [if_neg hm, if_pos hs]

theorem walkMember_service {m : Text} (hm : m ≠ []) (hs : w.seek % 2 = 1) :
    walkMember hosts nameToItem group w m =
      { walkPair hosts nameToItem group w (w.hostName, strip m) with seek := w.seek + 1 } := by
  unfold walkMember
  rw [if_neg hm, if_neg (by omega), ← (walkPair_walked group w (w.hostName, strip m)).2]

theorem walk_elements (members : List Text) (w : Walk) :
    members.foldl (walkMember hosts nameToItem group) w =
      (elements members).foldl (walkMember hosts nameToItem group) w := by
  unfold elements
  induction members generalizing w with
  | nil => rfl
  | cons m members ih =>
    rw [List.foldl_cons, ih]
    cases m with
    | nil => rw [walkMember_nil, List.filter_cons_of_neg (by simp)]
    | cons c m => rw [List.filter_cons_of_pos (by simp), List.foldl_cons]

theorem walk_walked (l : List Text) (hl : ∀ m ∈ l, m ≠ []) (w : Walk) (hs : w.seek % 2 = 0) :
    Walked hosts nameToItem ((pairUp l).map fun p => (strip p.1, strip p.2)) w
      (l.foldl (walkMember hosts nameToItem group) w) := by
  induction l using pairUp.induct generalizing w with
  | case1 a b l ih =>
    have ha := hl a (by simp)
    have hb := hl b (by simp)
    rw [List.foldl_cons, List.foldl_cons, walkMember_host ha hs, walkMember_service hb (by change (w.seek + 1) % 2 = 1; omega)]
    obtain ⟨hpair, -⟩ := @walkPair_walked hosts nameToItem group
      { w with hostName := strip a, seek := w.seek + 1 } (strip a, strip b)
    generalize walkPair hosts nameToItem group { w with hostName := strip a, seek := w.seek + 1 } (strip a, strip b) = w'
      at hpair
    have hrest := ih (fun m hm => hl m (by simp [hm])) { w' with seek := w.seek + 1 + 1 } (by change (w.seek + 1 + 1) % 2 = 0; omega)
    constructor
    · rw [hrest.newMembers, pairUp, List.map_cons, ← List.singleton_append, List.filterMap_append, ← List.append_assoc]
      exact congrArg (· ++ _) hpair.newMembers
    · rw [hrest.unknown, pairUp, List.map_cons, ← List.singleton_append, List.filter_append, List.map_append, ← List.append_assoc]
      exact congrArg (· ++ _) hpair.unknown
  | case2 l hl' =>
    cases l with
    | nil => exact ⟨by simp [pairUp], by simp [pairUp]⟩
    | cons a l =>
      cases l with
      | nil =>
        rw [List.foldl_cons, List.foldl_nil, walkMember_host (hl a (by simp)) hs]
        exact ⟨by simp [pairUp], by simp [pairUp]⟩
      | cons b l => exact absurd rfl (hl' a b l)

end

/-! ## One group -/

section
variable {hosts : Text → Option HostServices} {nameToItem : Text × Text → Option Text}
  {table table' : Text → Option (List Text)} {g : Servicegroup}

def namedServices (nameToItem : Text × Text → Option Text) (members : List Text) : List Text :=
  ((namedPairs members).filterMap nameToItem).dedup

theorem mem_namedServices {members : List Text} {u : Text} :
    u ∈ namedServices nameToItem members ↔ ∃ p ∈ namedPairs members, nameToItem p = some u := by
  simp [namedServices, List.mem_filterMap]

def recordedIn (nameToItem : Text × Text → Option Text) (members : List Text) : List Text :=
  if soleMember members = none then namedServices nameToItem members else []

def linkedGroup (hosts : Text → Option HostServices) (nameToItem : Text × Text → Option Text) (g : Servicegroup) : Servicegroup :=
  match soleMember g.members with
  | some member => { g with unknownMembers := g.unknownMembers ++ [member] }
  | none =>
    { g with
      members := namedServices nameToItem g.members
      unknownMembers := g.unknownMembers ++ ((namedPairs g.members).filter (isUnknown hosts nameToItem)).map pairText }

def Records (table table' : Text → Option (List Text)) (added : Text → Text → Prop) : Prop :=
  (∀ u, table u = none → table' u = none) ∧
    ∀ u groups, table u = some groups → ∃ groups', table' u = some groups' ∧ ∀ x, x ∈ groups' ↔ x ∈ groups ∨ added u x

theorem Indexed.records {added : Text → Text → Prop} (h : Indexed nameToItem table) (hr : Records table table' added) :
    Indexed nameToItem table' := by
  intro p u hp
  obtain ⟨hne, hsome⟩ := h p u hp
  refine ⟨hne, ?_⟩
  obtain ⟨groups, hgroups⟩ := Option.ne_none_iff_exists'.mp hsome
  obtain ⟨groups', hgroups', -⟩ := hr.2 u groups hgroups
  rw [hgroups']
  exact Option.some_ne_none _

theorem Records.trans {table'' : Text → Option (List Text)} {added added' : Text → Text → Prop}
    (h : Records table table' added) (h' : Records table' table'' added') :
    Records table table'' fun u x => added u x ∨ added' u x := by
  refine ⟨fun u hu => h'.1 u (h.1 u hu), ?_⟩
  intro u groups hu
  obtain ⟨groups', hu', hmem'⟩ := h.2 u groups hu
  obtain ⟨groups'', hu'', hmem''⟩ := h'.2 u groups' hu'
  refine ⟨groups'', hu'', ?_⟩
  intro x
  rw [hmem'', hmem', or_assoc]

theorem Records.refl (table : Text → Option (List Text)) : Records table table fun _ _ => False :=
  ⟨fun _ hu => hu, fun _ groups hu => ⟨groups, hu, fun _ => by simp⟩⟩

theorem Records.congr {added added' : Text → Text → Prop} (h : Records table table' added)
    (he : ∀ u x, added u x ↔ added' u x) : Records table table' added' := by
  refine ⟨h.1, ?_⟩
  intro u groups hu
  obtain ⟨groups', hu', hmem⟩ := h.2 u groups hu
  exact ⟨groups', hu', fun x => by rw [hmem, he]⟩

theorem recordGroup_ok (group : Text) {u : Text} (hne : u ≠ []) (hsome : table u ≠ none) :
    ∃ table', recordGroup group table u = .ok table' ∧ Records table table' fun v x => v = u ∧ x = group := by
  obtain ⟨groups, hgroups⟩ := Option.ne_none_iff_exists'.mp hsome
  unfold recordGroup
  rw [if_neg hne, hgroups]
  refine ⟨_, rfl, ?_, ?_⟩
  · intro v hv
    have hvu : v ≠ u := by
      intro e
      rw [e] at hv
      exact hsome hv
    rw [Function.update_of_ne hvu, hv]
  · intro v l hv
    by_cases hvu : v = u
    · subst hvu
      rw [hgroups] at hv
      cases hv
      exact ⟨_, Function.update_self .., fun x => by simp⟩
    · exact ⟨l, (Function.update_of_ne hvu ..).trans hv, fun x => by simp [hvu]⟩

theorem recordGroups_ok (group : Text) (l : List Text) (h : ∀ u ∈ l, u ≠ [] ∧ table u ≠ none) :
    ∃ table', l.foldlM (recordGroup group) table = .ok table' ∧ Records table table' fun v x => v ∈ l ∧ x = group := by
  induction l generalizing table with
  | nil => exact ⟨table, rfl, (Records.refl table).congr fun _ _ => by simp⟩
  | cons u l ih =>
    obtain ⟨table₁, hok, hr⟩ := recordGroup_ok group (h u List.mem_cons_self).1 (h u List.mem_cons_self).2
    have hl : ∀ v ∈ l, v ≠ [] ∧ table₁ v ≠ none := by
      intro v hv
      obtain ⟨hne, hsome⟩ := h v (List.mem_cons_of_mem u hv)
      obtain ⟨groups, hgroups⟩ := Option.ne_none_iff_exists'.mp hsome
      obtain ⟨groups', hgroups', -⟩ := hr.2 v groups hgroups
      exact ⟨hne, hgroups' ▸ Option.some_ne_none _⟩
    obtain ⟨table₂, hok2, hr2⟩ := ih hl
    refine ⟨table₂, ?_, (hr.trans hr2).congr ?_⟩
    · rw [List.foldlM_cons, hok]
      exact hok2
    · intro v x
      rw [List.mem_cons, or_and_right]

theorem linkGroup_ok (s : Linking) (hs : Indexed nameToItem s.table) (g : Servicegroup) :
    ∃ s', linkGroup hosts nameToItem s g = .ok s' ∧ s'.groups = s.groups ++ [linkedGroup hosts nameToItem g] ∧
      Records s.table s'.table fun u x => u ∈ recordedIn nameToItem g.members ∧ x = g.uuid := by
  unfold linkGroup linkedGroup recordedIn
  cases hsole : soleMember g.members with
  | some member => exact ⟨_, rfl, rfl, (Records.refl s.table).congr fun _ _ => by simp⟩
  | none =>
    have hwalk := @walk_walked hosts nameToItem g.uuid (elements g.members)
      (fun m hm => by simpa using (List.mem_filter.mp hm).2) ⟨0, [], [], g.unknownMembers, s.warnings⟩ rfl
    rw [← walk_elements] at hwalk
    dsimp only
    generalize g.members.foldl (walkMember hosts nameToItem g.uuid) ⟨0, [], [], g.unknownMembers, s.warnings⟩ = w at hwalk
    have hnew : w.newMembers.dedup = namedServices nameToItem g.members := congrArg List.dedup hwalk.newMembers
    have hunknown : w.unknown = _ := hwalk.unknown
    rw [hnew, hunknown]
    obtain ⟨table, hok, hr⟩ := @recordGroups_ok s.table g.uuid (namedServices nameToItem g.members) (by
      intro u hu
      obtain ⟨p, -, hp⟩ := mem_namedServices.mp hu
      exact hs p u hp)
    refine ⟨_, congrArg (· >>= _) hok, rfl, ?_⟩
    exact hr.congr fun _ _ => by simp

/-! ## All the groups -/

theorem linkGroups_ok (l : List Servicegroup) (s : Linking) (hs : Indexed nameToItem s.table) :
    ∃ s', l.foldlM (linkGroup hosts nameToItem) s = .ok s' ∧ s'.groups = s.groups ++ l.map (linkedGroup hosts nameToItem) ∧
      Records s.table s'.table fun u x => ∃ g ∈ l, u ∈ recordedIn nameToItem g.members ∧ x = g.uuid := by
  induction l generalizing s with
  | nil => exact ⟨s, rfl, by simp, (Records.refl s.table).congr fun _ _ => by simp⟩
  | cons g l ih =>
    obtain ⟨s₁, hok, hgroups, hr⟩ := linkGroup_ok s hs g
    obtain ⟨s₂, hok2, hgroups2, hr2⟩ := ih s₁ (hs.records hr)
    refine ⟨s₂, ?_, ?_, (hr.trans hr2).congr ?_⟩
    · rw [List.foldlM_cons, hok]
      exact hok2
    · rw [hgroups2, hgroups, List.map_cons, List.append_assoc, List.singleton_append]
    · intro u x
      simp only [List.mem_cons, exists_eq_or_imp]

theorem elements_of_sole {members : List Text} {m : Text} (h : soleMember members = some m) :
    members = [m] ∧ elements members = [m] := by
  unfold soleMember at h
  split at h
  · split at h
    · cases h
    · rename_i hne
      cases h
      exact ⟨rfl, by simp [elements, hne]⟩
  · cases h

theorem linked_iff (services : Services) (hr : ∀ u groups, services.servicegroups u = some groups →
      ∃ groups', table u = some groups' ∧ (g.uuid ∈ groups' ↔ g.uuid ∈ groups ∨ u ∈ recordedIn services.nameToItem g.members)) :
    Linked hosts services g (linkedGroup hosts services.nameToItem g) table ↔ (elements g.members).length % 2 = 0 := by
  cases hsole : soleMember g.members with
  | some m =>
    obtain ⟨hm, he⟩ := elements_of_sole hsole
    refine iff_of_false ?_ (by simp [he])
    intro h
    have hmembers : (linkedGroup hosts services.nameToItem g).members = g.members := by
      unfold linkedGroup
      rw [hsole]
    have hmem : m ∈ (linkedGroup hosts services.nameToItem g).members := by
      rw [hmembers, hm]
      exact List.mem_singleton_self m
    obtain ⟨p, hp, -⟩ := (h.members m).mp hmem
    simp [namedPairs, he, pairUp] at hp
  | none =>
    rw [← unpaired_eq_none]
    constructor
    · intro h
      have hunknown := h.unknown
      simp only [linkedGroup, hsole] at hunknown
      rw [List.self_eq_append_right, Option.toList_eq_nil_iff] at hunknown
      exact hunknown
    · intro heven
      constructor
      · intro u
        simp only [linkedGroup, hsole]
        exact mem_namedServices
      · simp [linkedGroup, hsole, heven]
      · rintro (⟨p, hp, hu⟩ | hne) itemCorrect
        · have hmem : pairText p ∈ (linkedGroup hosts services.nameToItem g).unknownMembers := by
            simp only [linkedGroup, hsole]
            exact List.mem_append_right _ (List.mem_map_of_mem (List.mem_filter.mpr ⟨hp, hu⟩))
          unfold isCorrect
          rw [Bool.and_eq_false_iff]
          right
          rw [List.isEmpty_eq_false_iff]
          exact List.ne_nil_of_mem hmem
        · exact absurd heven hne
      · intro u groups hu
        obtain ⟨groups', hu', hmem⟩ := hr u groups hu
        refine ⟨groups', hu', ?_⟩
        rw [hmem, recordedIn, if_pos hsole, mem_namedServices]

end

/-- Each group of a configuration is linked as it should if and only if its
non-empty members can be taken two by two. -/
theorem servicegroups_linked (hosts : Text → Option HostServices) (services : Services) (groups : Servicegroups) :
    ∃ s, linkifyServicegroupsServices hosts services groups = .ok s ∧
      s.groups.map Servicegroup.uuid = groups.items.map Servicegroup.uuid ∧
      ∀ g ∈ groups.items, ∀ g' ∈ s.groups, g'.uuid = g.uuid →
        (Linked hosts services g g' s.table ↔ (elements g.members).length % 2 = 0) := by
  obtain ⟨s, hok, hgroups, hr⟩ := @linkGroups_ok hosts services.nameToItem groups.items ⟨[], services.servicegroups, []⟩ services.indexed
  have huuid : ∀ g, (linkedGroup hosts services.nameToItem g).uuid = g.uuid := by
    intro g
    unfold linkedGroup
    cases soleMember g.members <;> rfl
  rw [List.nil_append] at hgroups
  refine ⟨s, hok, ?_, ?_⟩
  · rw [hgroups, List.map_map]
    exact List.map_congr_left fun g _ => huuid g
  · intro g hg g' hg' he
    rw [hgroups] at hg'
    obtain ⟨g₁, hg1, rfl⟩ := List.mem_map.mp hg'
    rw [huuid] at he
    have hsame := List.inj_on_of_nodup_map groups.nodup
    cases hsame hg1 hg he
    apply linked_iff services
    intro u l hu
    obtain ⟨l', hu', hmem⟩ := hr.2 u l hu
    refine ⟨l', hu', ?_⟩
    rw [hmem]
    apply or_congr_right
    constructor
    · rintro ⟨g₂, hg2, hrec, he2⟩
      rwa [hsame hg hg2 he2]
    · intro hrec
      exact ⟨g, hg, hrec, rfl⟩

/-! ## A host without a service -/

def web : HostServices := {}

def oneService : Services where
  nameToItem p := if p = ("web".toList, "http".toList) then some "s1".toList else none
  servicegroups u := if u = "s1".toList then some [] else none
  indexed p u h := by
    dsimp only at h
    split at h
    · cases h
      exact ⟨by decide, by simp⟩
    · cases h

def oddGroup : Servicegroup := ⟨"g1".toList, ["web".toList, "http".toList, "web".toList], []⟩

def loneGroup : Servicegroup := ⟨"g2".toList, ["web".toList], []⟩

def oddGroups : Servicegroups := ⟨[oddGroup, loneGroup], by decide⟩

/-- The last element of the first group is lost, and the configuration is not
refused for it; that of the second is left in the members. -/
theorem not_linked : ∃ s, linkifyServicegroupsServices (fun _ => some web) oneService oddGroups = .ok s ∧
    s.groups = [{ oddGroup with members := ["s1".toList] }, { loneGroup with unknownMembers := ["web".toList] }] ∧
    (isCorrect true { oddGroup with members := ["s1".toList] }).2 = ([], true) ∧
    ∀ table, ¬ Linked (fun _ => some web) oneService oddGroup { oddGroup with members := ["s1".toList] } table ∧
      ¬ Linked (fun _ => some web) oneService loneGroup { loneGroup with unknownMembers := ["web".toList] } table := by
  refine ⟨_, rfl, by decide, by decide, ?_⟩
  intro table
  constructor
  · intro h
    exact absurd h.unknown (by decide)
  · intro h
    obtain ⟨p, hp, -⟩ := (h.members "web".toList).mp (by decide)
    exact absurd hp (by simp [namedPairs, elements, loneGroup, pairUp])

end Alignak.ServicegroupLinks
