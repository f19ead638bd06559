import Alignak.LoopCheck
import Mathlib.Data.Finset.SDiff

/-!
# The packs of a graph

`get_accessibility_packs` puts each node in the pack of the first one that leads
to it.
-/

namespace Alignak.Graph

open Relation

variable {κ : Type} [DecidableEq κ]

/-! ## The search -/

def visitChild (search : κ → Finset κ → Except Exn (Finset κ × Finset κ)) (found : Finset κ × Finset κ) (child : κ) :
    Except Exn (Finset κ × Finset κ) :=
  if child ∈ found.2 then .ok found
  else do
    let (childs, checked) ← search child found.2
    return (found.1 ∪ childs, checked)

def dfsGetAllChilds (g : Graph κ) : Nat → κ → Finset κ → Except Exn (Finset κ × Finset κ)
  | 0, _, _ => .error .diverges
  | fuel + 1, root, checked =>
    (g.sons root).foldlM (visitChild (dfsGetAllChilds g fuel)) (insert root (g.sons root).toFinset, insert root checked)

def findPack (g : Graph κ) (found : List (Finset κ) × Finset κ) (node : κ) : Except Exn (List (Finset κ) × Finset κ) :=
  if node ∈ found.2 then .ok found
  else do
    let (pack, checked) ← g.dfsGetAllChilds g.nodes.keys.length node found.2
    return (found.1 ++ [pack], checked)

def getAccessibilityPacks (g : Graph κ) : Except Exn (List (Finset κ)) := do
  let found ← g.nodes.keys.foldlM g.findPack ([], ∅)
  return found.1

/-- As `create_packs` adds them: each link gives an edge in both directions. -/
def addLinks (links : List (κ × κ)) (g : Graph κ) : Graph κ :=
  links.foldl (fun g link => (g.addEdge link.1 link.2).addEdge link.2 link.1) g

structure PackedBy (g : Graph κ) (packs : List (Finset κ)) : Prop where
  nonempty : ∀ pack ∈ packs, pack.Nonempty
  nodes : ∀ pack ∈ packs, ∀ x ∈ pack, x ∈ g.nodes.keys
  disjoint : packs.Pairwise Disjoint
  covers : ∀ x ∈ g.nodes.keys, ∃ pack ∈ packs, x ∈ pack
  connected : ∀ pack ∈ packs, ∀ x ∈ pack, ∀ y, y ∈ pack ↔ ReflTransGen g.Son x y

section
variable {g : Graph κ} {fuel : Nat} {checked : Finset κ} {x : κ}

/-! ## What a search finds -/

def unvisited (g : Graph κ) (checked : Finset κ) : Finset κ := g.nodes.keys.toFinset \ checked

theorem unvisited_mono {checked' : Finset κ} (h : checked ⊆ checked') : (unvisited g checked').card ≤ (unvisited g checked).card :=
  Finset.card_le_card (Finset.sdiff_subset_sdiff (Finset.Subset.refl _) h)

theorem unvisited_insert (hk : x ∈ g.nodes.keys) (hx : x ∉ checked) :
    (unvisited g (insert x checked)).card < (unvisited g checked).card := by
  refine Finset.card_lt_card ((Finset.ssubset_iff_of_subset ?_).mpr ⟨x, ?_, ?_⟩)
  · exact Finset.sdiff_subset_sdiff (Finset.Subset.refl _) (Finset.subset_insert _ _)
  · exact Finset.mem_sdiff.mpr ⟨List.mem_toFinset.mpr hk, hx⟩
  · exact fun h => (Finset.mem_sdiff.mp h).2 (Finset.mem_insert_self _ _)

/-- The search of the nodes of `l`, with what it adds to a set. -/
structure Visits (g : Graph κ) (l : List κ) (ret checked ret' checked' : Finset κ) : Prop where
  sub : checked ⊆ checked'
  visited : ∀ x ∈ l, x ∈ checked'
  reached : ∀ y ∈ checked', y ∉ checked → ∃ x ∈ l, ReflTransGen g.Son x y
  closed : ∀ y ∈ checked', y ∉ checked → ∀ z ∈ g.sons y, z ∈ checked'
  childs : ret ⊆ ret'
  new : ∀ y ∈ checked', y ∉ checked → y ∈ ret'
  sound : ∀ y ∈ ret', y ∈ ret ∨ ∃ x ∈ l, ReflTransGen g.Son x y

theorem Visits.nil (ret checked : Finset κ) : Visits g [] ret checked ret checked where
  sub := Finset.Subset.refl _
  visited _ hx := absurd hx List.not_mem_nil
  reached _ hy hn := absurd hy hn
  closed _ hy hn := absurd hy hn
  childs := Finset.Subset.refl _
  new _ hy hn := absurd hy hn
  sound _ hy := Or.inl hy

theorem Visits.cons {l : List κ} {ret ret' ret'' checked checked' checked'' : Finset κ} (h : Visits g [x] ret checked ret' checked')
    (h' : Visits g l ret' checked' ret'' checked'') : Visits g (x :: l) ret checked ret'' checked'' where
  sub := h.sub.trans h'.sub
  visited := by
    intro y hy
    rcases List.mem_cons.mp hy with rfl | hy
    · exact h'.sub (h.visited y (List.mem_singleton.mpr rfl))
    · exact h'.visited y hy
  reached := by
    intro y hy hn
    by_cases hc : y ∈ checked'
    · obtain ⟨z, hz, hr⟩ := h.reached y hc hn
      exact ⟨z, List.mem_cons.mpr (Or.inl (List.mem_singleton.mp hz)), hr⟩
    · obtain ⟨z, hz, hr⟩ := h'.reached y hy hc
      exact ⟨z, List.mem_cons_of_mem _ hz, hr⟩
  closed := by
    intro y hy hn z hz
    by_cases hc : y ∈ checked'
    · exact h'.sub (h.closed y hc hn z hz)
    · exact h'.closed y hy hc z hz
  childs := h.childs.trans h'.childs
  new := by
    intro y hy hn
    by_cases hc : y ∈ checked'
    · exact h'.childs (h.new y hc hn)
    · exact h'.new y hy hc
  sound := by
    intro y hy
    rcases h'.sound y hy with hy | ⟨z, hz, hr⟩
    · rcases h.sound y hy with hy | ⟨z, hz, hr⟩
      · exact Or.inl hy
      · exact Or.inr ⟨z, List.mem_cons.mpr (Or.inl (List.mem_singleton.mp hz)), hr⟩
    · exact Or.inr ⟨z, List.mem_cons_of_mem _ hz, hr⟩

/-- With the fuel for the nodes that are not checked. -/
def VisitsAll (g : Graph κ) (fuel : Nat) (search : κ → Finset κ → Except Exn (Finset κ × Finset κ)) : Prop :=
  ∀ x checked, x ∈ g.nodes.keys → x ∉ checked → (unvisited g checked).card ≤ fuel →
    ∃ ret checked', search x checked = .ok (ret, checked') ∧ Visits g [x] ∅ checked ret checked'

theorem visitChild_visits {search : κ → Finset κ → Except Exn (Finset κ × Finset κ)} (hs : VisitsAll g fuel search)
    (hk : x ∈ g.nodes.keys) (hf : (unvisited g checked).card ≤ fuel) (ret : Finset κ) :
    ∃ ret' checked', visitChild search (ret, checked) x = .ok (ret', checked') ∧ Visits g [x] ret checked ret' checked' := by
  unfold visitChild
  by_cases hx : x ∈ checked
  · rw [if_pos hx]
    refine ⟨ret, checked, rfl, Finset.Subset.refl _, fun y hy => ?_, fun y hy hn => absurd hy hn, fun y hy hn => absurd hy hn,
      Finset.Subset.refl _, fun y hy hn => absurd hy hn, fun y hy => Or.inl hy⟩
    rwa [List.mem_singleton.mp hy]
  · rw [if_neg hx]
    obtain ⟨childs, checked', hrun, hv⟩ := hs x checked hk hx hf
    simp only [hrun]
    refine ⟨ret ∪ childs, checked', rfl, hv.sub, hv.visited, hv.reached, hv.closed, Finset.subset_union_left, fun y hy hn => ?_,
      fun y hy => ?_⟩
    · exact Finset.mem_union_right _ (hv.new y hy hn)
    · rcases Finset.mem_union.mp hy with hy | hy
      · exact Or.inl hy
      · exact Or.inr ((hv.sound y hy).resolve_left (Finset.notMem_empty y))

theorem visitChildren_visits {search : κ → Finset κ → Except Exn (Finset κ × Finset κ)} (hs : VisitsAll g fuel search) {l : List κ}
    (hk : ∀ x ∈ l, x ∈ g.nodes.keys) (hf : (unvisited g checked).card ≤ fuel) (ret : Finset κ) :
    ∃ ret' checked', l.foldlM (visitChild search) (ret, checked) = .ok (ret', checked') ∧ Visits g l ret checked ret' checked' := by
  induction l generalizing ret checked with
  | nil => exact ⟨ret, checked, rfl, .nil ret checked⟩
  | cons x l ih =>
    obtain ⟨next, checked', hrun, hnext⟩ := visitChild_visits hs (hk x List.mem_cons_self) hf ret
    obtain ⟨last, checked'', hrest, hlast⟩ := ih (fun y hy => hk y (List.mem_cons_of_mem _ hy))
      ((unvisited_mono hnext.sub).trans hf) next
    refine ⟨last, checked'', ?_, hnext.cons hlast⟩
    rw [List.foldlM_cons, hrun]
    exact hrest

theorem dfsGetAllChilds_visits (fuel : Nat) : VisitsAll g fuel (g.dfsGetAllChilds fuel) := by
  induction fuel with
  | zero =>
    intro x checked hk hx hf
    have hlt : 0 < (unvisited g checked).card :=
      Finset.card_pos.mpr ⟨x, Finset.mem_sdiff.mpr ⟨List.mem_toFinset.mpr hk, hx⟩⟩
    omega
  | succ fuel ih =>
    intro x checked hk hx hf
    have hcard : (unvisited g (insert x checked)).card ≤ fuel := by
      have hlt := unvisited_insert (g := g) hk hx
      omega
    obtain ⟨ret, checked', hrun, hv⟩ := visitChildren_visits ih (fun y hy => mem_sons_keys hy) hcard (insert x (g.sons x).toFinset)
    have hself : x ∈ checked' := hv.sub (Finset.mem_insert_self _ _)
    have hnew : ∀ {y}, y ∉ checked → y ≠ x → y ∉ insert x checked := by
      intro y hy hyx h
      exact (Finset.mem_insert.mp h).elim hyx hy
    refine ⟨ret, checked', hrun, (Finset.subset_insert _ _).trans hv.sub, fun y hy => ?_, fun y hy hn => ?_, fun y hy hn => ?_,
      Finset.empty_subset _, fun y hy hn => ?_, fun y hy => ?_⟩
    · rwa [List.mem_singleton.mp hy]
    · by_cases hyx : y = x
      · exact ⟨x, List.mem_singleton.mpr rfl, hyx ▸ .refl⟩
      · obtain ⟨z, hz, hr⟩ := hv.reached y hy (hnew hn hyx)
        exact ⟨x, List.mem_singleton.mpr rfl, .head hz hr⟩
    · by_cases hyx : y = x
      · exact fun z hz => hv.visited z (hyx ▸ hz)
      · exact hv.closed y hy (hnew hn hyx)
    · by_cases hyx : y = x
      · exact hv.childs (hyx ▸ Finset.mem_insert_self _ _)
      · exact hv.new y hy (hnew hn hyx)
    · refine Or.inr ⟨x, List.mem_singleton.mpr rfl, ?_⟩
      rcases hv.sound y hy with hy | ⟨z, hz, hr⟩
      · rcases Finset.mem_insert.mp hy with rfl | hy
        · exact .refl
        · exact .single (List.mem_toFinset.mp hy)
      · exact .head hz hr

/-! ## The packs -/

structure Packed (g : Graph κ) (packs : List (Finset κ)) (checked : Finset κ) : Prop where
  closed : ∀ y ∈ checked, ∀ z ∈ g.sons y, z ∈ checked
  nodes : ∀ y ∈ checked, y ∈ g.nodes.keys
  mem : ∀ y, y ∈ checked ↔ ∃ pack ∈ packs, y ∈ pack
  nonempty : ∀ pack ∈ packs, pack.Nonempty
  disjoint : packs.Pairwise Disjoint
  connected : ∀ pack ∈ packs, ∀ x ∈ pack, ∀ y, y ∈ pack ↔ ReflTransGen g.Son x y

theorem mem_of_closed (h : ∀ y ∈ checked, ∀ z ∈ g.sons y, z ∈ checked) {y : κ} (hx : x ∈ checked) (hxy : ReflTransGen g.Son x y) :
    y ∈ checked := by
  induction hxy with
  | refl => exact hx
  | tail _ hson ih => exact h _ ih _ hson

section
variable (hsym : ∀ x y, g.Son x y → g.Son y x)
include hsym

theorem path_back {y : κ} (h : ReflTransGen g.Son x y) : ReflTransGen g.Son y x := by
  induction h with
  | refl => exact .refl
  | tail _ hson ih => exact .head (hsym _ _ hson) ih

theorem findPack_packed {packs : List (Finset κ)} (h : Packed g packs checked) (hk : x ∈ g.nodes.keys) :
    ∃ packs' checked', g.findPack (packs, checked) x = .ok (packs', checked') ∧ Packed g packs' checked' ∧
      checked ⊆ checked' ∧ x ∈ checked' := by
  unfold findPack
  by_cases hx : x ∈ checked
  · rw [if_pos hx]
    exact ⟨packs, checked, rfl, h, Finset.Subset.refl _, hx⟩
  · rw [if_neg hx]
    have hfuel : (unvisited g checked).card ≤ g.nodes.keys.length :=
      (Finset.card_le_card Finset.sdiff_subset).trans (List.toFinset_card_le _)
    obtain ⟨pack, checked', hrun, hv⟩ := dfsGetAllChilds_visits _ x checked hk hx hfuel
    simp only [hrun]
    have hself : x ∈ checked' := hv.visited x (List.mem_singleton.mpr rfl)
    have hclosed : ∀ y ∈ checked', ∀ z ∈ g.sons y, z ∈ checked' := by
      intro y hy z hz
      by_cases hc : y ∈ checked
      · exact hv.sub (h.closed y hc z hz)
      · exact hv.closed y hy hc z hz
    -- a checked node that could be reached from `x` would lead back to it
    have hfresh : ∀ y, ReflTransGen g.Son x y → y ∉ checked := fun y hy hc => hx (mem_of_closed h.closed hc (path_back hsym hy))
    have hpack : ∀ y, y ∈ pack ↔ ReflTransGen g.Son x y := by
      intro y
      constructor
      · intro hy
        obtain ⟨z, hz, hr⟩ := (hv.sound y hy).resolve_left (Finset.notMem_empty y)
        rwa [List.mem_singleton.mp hz] at hr
      · exact fun hy => hv.new y (mem_of_closed hclosed hself hy) (hfresh y hy)
    have hmem : ∀ y, y ∈ checked' ↔ y ∈ checked ∨ y ∈ pack := by
      intro y
      constructor
      · intro hy
        by_cases hc : y ∈ checked
        · exact Or.inl hc
        · exact Or.inr (hv.new y hy hc)
      · exact fun hy => hy.elim (fun hy => hv.sub hy) fun hy => mem_of_closed hclosed hself ((hpack y).mp hy)
    refine ⟨packs ++ [pack], checked', rfl, ⟨hclosed, fun y hy => ?_, fun y => ?_, fun p hp => ?_, ?_, fun p hp => ?_⟩, hv.sub, hself⟩
    · rcases (hmem y).mp hy with hy | hy
      · exact h.nodes y hy
      · rcases ReflTransGen.cases_tail ((hpack y).mp hy) with rfl | ⟨z, -, hson⟩
        · exact hk
        · exact mem_sons_keys hson
    · rw [hmem, h.mem]
      simp only [List.mem_append, List.mem_singleton, or_and_right, exists_or, exists_eq_left]
    · rcases List.mem_append.mp hp with hp | hp
      · exact h.nonempty p hp
      · rw [List.mem_singleton.mp hp]
        exact ⟨x, (hpack x).mpr .refl⟩
    · refine List.pairwise_append.mpr ⟨h.disjoint, List.pairwise_singleton _ _, fun p hp q hq => ?_⟩
      rw [List.mem_singleton.mp hq]
      refine Finset.disjoint_left.mpr fun y hy hy' => ?_
      exact hfresh y ((hpack y).mp hy') ((h.mem y).mpr ⟨p, hp, hy⟩)
    · rcases List.mem_append.mp hp with hp | hp
      · exact h.connected p hp
      · rw [List.mem_singleton.mp hp]
        intro y hy z
        have hxy := (hpack y).mp hy
        exact (hpack z).trans ⟨fun hz => (path_back hsym hxy).trans hz, fun hz => hxy.trans hz⟩

theorem findPacks_packed {l : List κ} (hk : ∀ x ∈ l, x ∈ g.nodes.keys) {packs : List (Finset κ)} (h : Packed g packs checked) :
    ∃ packs' checked', l.foldlM g.findPack (packs, checked) = .ok (packs', checked') ∧ Packed g packs' checked' ∧
      checked ⊆ checked' ∧ ∀ x ∈ l, x ∈ checked' := by
  induction l generalizing packs checked with
  | nil => exact ⟨packs, checked, rfl, h, Finset.Subset.refl _, fun x hx => absurd hx List.not_mem_nil⟩
  | cons x l ih =>
    obtain ⟨next, checked', hrun, hnext, hsub, hx⟩ := findPack_packed hsym h (hk x List.mem_cons_self)
    obtain ⟨last, checked'', hrest, hlast, hsub', hl⟩ := ih (fun y hy => hk y (List.mem_cons_of_mem _ hy)) hnext
    refine ⟨last, checked'', ?_, hlast, hsub.trans hsub', fun y hy => ?_⟩
    · rw [List.foldlM_cons, hrun]
      exact hrest
    · rcases List.mem_cons.mp hy with rfl | hy
      · exact hsub' hx
      · exact hl y hy

theorem getAccessibilityPacks_packed : ∃ packs, g.getAccessibilityPacks = .ok packs ∧ PackedBy g packs := by
  have hstart : Packed g [] ∅ := by
    refine ⟨fun y hy => absurd hy (Finset.notMem_empty y), fun y hy => absurd hy (Finset.notMem_empty y), fun y => ?_,
      fun p hp => absurd hp List.not_mem_nil, List.Pairwise.nil, fun p hp => absurd hp List.not_mem_nil⟩
    simp
  obtain ⟨packs, checked, hrun, h, -, hall⟩ := findPacks_packed hsym (fun x hx => hx) hstart
  refine ⟨packs, ?_, h.nonempty, fun p hp x hx => h.nodes x ((h.mem x).mpr ⟨p, hp, hx⟩), h.disjoint,
    fun x hx => (h.mem x).mp (hall x hx), h.connected⟩
  unfold getAccessibilityPacks
  rw [hrun]
  rfl

/-- Where each edge goes both ways, the packs are a partition of the nodes, and two
nodes are in one pack exactly when a path connects them. -/
theorem accessibility_packs_partition : ∃ packs, g.getAccessibilityPacks = .ok packs ∧
    (∀ pack ∈ packs, pack.Nonempty ∧ ∀ x ∈ pack, x ∈ g.nodes.keys) ∧
    (∀ x ∈ g.nodes.keys, (∃ pack ∈ packs, x ∈ pack)) ∧ packs.Pairwise Disjoint ∧
    ∀ x ∈ g.nodes.keys, ∀ y, (∃ pack ∈ packs, x ∈ pack ∧ y ∈ pack) ↔ ReflTransGen g.Son x y := by
  obtain ⟨packs, hrun, h⟩ := getAccessibilityPacks_packed hsym
  refine ⟨packs, hrun, fun p hp => ⟨h.nonempty p hp, h.nodes p hp⟩, h.covers, h.disjoint, fun x hx y => ⟨fun hxy => ?_, fun hxy => ?_⟩⟩
  · obtain ⟨p, hp, hx, hy⟩ := hxy
    exact (h.connected p hp x hx y).mp hy
  · obtain ⟨p, hp, hx⟩ := h.covers x hx
    exact ⟨p, hp, hx, (h.connected p hp x hx y).mpr hxy⟩

end

/-! ## Links -/

theorem addLinks_symm {links : List (κ × κ)} (hsym : ∀ x y, g.Son x y → g.Son y x) :
    ∀ x y, (g.addLinks links).Son x y → (g.addLinks links).Son y x := by
  induction links generalizing g with
  | nil => exact hsym
  | cons link links ih =>
    apply ih
    intro x y h
    rcases mem_sons_addEdge.mp h with h | ⟨rfl, rfl⟩
    · rcases mem_sons_addEdge.mp h with h | ⟨rfl, rfl⟩
      · exact mem_sons_addEdge.mpr (Or.inl (mem_sons_addEdge.mpr (Or.inl (hsym x y h))))
      · exact mem_sons_addEdge.mpr (Or.inr ⟨rfl, rfl⟩)
    · exact mem_sons_addEdge.mpr (Or.inl (mem_sons_addEdge.mpr (Or.inr ⟨rfl, rfl⟩)))

def threeHosts : Graph Nat := ((empty.addNode 0).addNode 1).addNode 2

theorem threeHosts_symm : ∀ x y, threeHosts.Son x y → threeHosts.Son y x := by
  intro x y h
  have hnone : threeHosts.sons x = [] := by
    unfold threeHosts
    rw [sons_addNode_of_new (by decide), sons_addNode_of_new (by decide), sons_addNode_of_new (by decide)]
    rfl
  unfold Son at h
  rw [hnone] at h
  exact absurd h List.not_mem_nil

theorem accessibility_packs_of_link : ∃ packs, (threeHosts.addLinks [(0, 2)]).getAccessibilityPacks = .ok packs ∧
    (∃ pack ∈ packs, 2 ∈ pack ∧ 0 ∈ pack) ∧ packs.Pairwise Disjoint := by
  obtain ⟨packs, hrun, -, -, hdisjoint, hconnected⟩ :=
    accessibility_packs_partition (g := threeHosts.addLinks [(0, 2)]) (addLinks_symm threeHosts_symm)
  refine ⟨packs, hrun, (hconnected 2 (by decide) 0).mpr ?_, hdisjoint⟩
  exact .single (by decide)

end

end Alignak.Graph
