import Alignak.ExplosionSound

/-!
# The members after the explosion

After any additions in a good order each group has what its sub-groups give.
-/

namespace Alignak.Explosion

section
variable {kind : Kind} {groups : Groups} {h : Heap} {D T : List (Nat × Nat)} {g p c : Nat} {m : String}

/-! ## What is added -/

structure Reached (kind : Kind) (groups : Groups) (D : List (Nat × Nat)) (h : Heap) : Prop where
  wf : h.Wf
  edges : ∀ e ∈ D, e.2 ∈ groups.subs e.1
  ordered : ∀ e ∈ D, ∀ b ∈ (groups.subs e.1).takeWhile (fun b => b ≠ e.2), (e.1, b) ∈ D
  own : ∀ g, groups.own g ⊆ h.membersOf g
  added : ∀ p c, (p, c) ∈ D → ∀ m, groups.Gives kind c m → m ∈ h.membersOf p
  missing : ∀ g, h.members g = none ↔ groups.declared g = none ∧ ∀ c, (g, c) ∉ D

theorem isMember_own (hm : m ∈ groups.own g) : groups.IsMember g m := ⟨g, Relation.ReflTransGen.refl, hm⟩

theorem isMember_sub (hc : c ∈ groups.subs p) (hm : groups.IsMember c m) : groups.IsMember p m := by
  obtain ⟨a, ha, hm⟩ := hm
  exact ⟨a, Relation.ReflTransGen.head hc ha, hm⟩

theorem isMember_iff : groups.IsMember g m ↔ m ∈ groups.own g ∨ ∃ c ∈ groups.subs g, groups.IsMember c m := by
  constructor
  · rintro ⟨a, ha, hm⟩
    rcases Relation.ReflTransGen.cases_head ha with rfl | ⟨c, hc, ha⟩
    · exact Or.inl hm
    · exact Or.inr ⟨c, hc, a, ha, hm⟩
  · rintro (hm | ⟨c, hc, hm⟩)
    · exact isMember_own hm
    · exact isMember_sub hc hm

theorem Reached.members_complete (hr : Reached kind groups D h) (hc : Complete groups D g)
    (hm : groups.IsMember g m) : m ∈ h.membersOf g := by
  rcases isMember_iff.mp hm with hm | ⟨c, hsub, hm⟩
  · exact hr.own g hm
  · exact hr.added g c (hc g Relation.ReflTransGen.refl c hsub) m (Or.inl hm)

theorem Reached.missing_complete (hr : Reached kind groups D h) (hc : Complete groups D g) :
    h.members g = none ↔ groups.declared g = none ∧ groups.subs g = [] := by
  rw [hr.missing]
  constructor
  · rintro ⟨hd, hnone⟩
    refine ⟨hd, ?_⟩
    rw [List.eq_nil_iff_forall_not_mem]
    intro c hsub
    exact hnone c (hc g Relation.ReflTransGen.refl c hsub)
  · rintro ⟨hd, hsubs⟩
    refine ⟨hd, ?_⟩
    intro c hmem
    have hsub : c ∈ groups.subs g := hr.edges (g, c) hmem
    rw [hsubs] at hsub
    cases hsub

theorem not_isMember_of_bare (hd : groups.declared g = none) (hs : groups.subs g = []) : ¬ groups.IsMember g m := by
  rw [isMember_iff, hs, Groups.own, hd]
  simp

theorem Reached.given_of_gives (hr : Reached kind groups D h) (hc : Complete groups D c)
    (hm : groups.Gives kind c m) : m ∈ given kind h c := by
  cases hmembers : h.members c with
  | some ref =>
    rw [given_some hmembers, ← membersOf_some hmembers]
    rcases hm with hm | ⟨⟨-, hbare⟩, -⟩
    · exact hr.members_complete hc hm
    · rw [(hr.missing_complete hc).mpr hbare] at hmembers
      cases hmembers
  | none =>
    have hbare := (hr.missing_complete hc).mp hmembers
    rw [given_none hmembers]
    rcases hm with hm | ⟨⟨hkind, -⟩, hm⟩
    · exact absurd hm (not_isMember_of_bare hbare.1 hbare.2)
    · rw [if_neg hkind, hm]
      exact List.mem_singleton_self _

theorem Reached.gives_of_given (hr : Reached kind groups D h) (hc : Complete groups D c)
    (hupper : ∀ m ∈ h.membersOf c, groups.IsMember c m) (hm : m ∈ given kind h c) : groups.Gives kind c m := by
  cases hmembers : h.members c with
  | some ref =>
    rw [given_some hmembers, ← membersOf_some hmembers] at hm
    exact Or.inl (hupper m hm)
  | none =>
    rw [given_none hmembers] at hm
    split at hm
    · cases hm
    · rename_i hkind
      exact Or.inr ⟨⟨hkind, (hr.missing_complete hc).mp hmembers⟩, List.mem_singleton.mp hm⟩

theorem reached_start : Reached kind groups [] groups.heap where
  wf g n hg := by
    have hg : (groups.declared g).map (fun _ => Ref.declared g) = some (.new n) := hg
    cases hd : groups.declared g with
    | none =>
      rw [hd] at hg
      cases hg
    | some l =>
      rw [hd] at hg
      cases hg
  edges e he := by cases he
  ordered e he := by cases he
  own g m hm := by
    unfold Groups.own at hm
    unfold Heap.membersOf Groups.heap
    cases hd : groups.declared g with
    | none =>
      rw [hd] at hm
      cases hm
    | some l =>
      rw [hd] at hm
      simpa [hd] using hm
  added p c he := by cases he
  missing g := by simp [Groups.heap]

theorem Reached.step {e : Nat × Nat} (hr : Reached kind groups D h) (he : Ready groups D e) :
    Reached kind groups (D ++ [e]) (addSub kind h e) := by
  obtain ⟨q, d⟩ := e
  constructor
  case wf => exact (addSub_spec kind hr.wf q d).1
  case edges =>
    intro e hmem
    rcases List.mem_append.mp hmem with hmem | hmem
    · exact hr.edges e hmem
    · rw [List.mem_singleton.mp hmem]
      exact he.sub
  case ordered =>
    intro e hmem b hb
    rcases List.mem_append.mp hmem with hmem | hmem
    · exact List.mem_append_left _ (hr.ordered e hmem b hb)
    · rw [List.mem_singleton.mp hmem] at hb ⊢
      exact List.mem_append_left _ (he.before b hb)
  case own => exact fun g => List.Subset.trans (hr.own g) (membersOf_addSub hr.wf q d g)
  case added =>
    intro p c hmem m hm
    rcases List.mem_append.mp hmem with hmem | hmem
    · exact membersOf_addSub hr.wf q d p (hr.added p c hmem m hm)
    · cases List.mem_singleton.mp hmem
      exact given_addSub hr.wf q d (hr.given_of_gives he.complete hm)
  case missing =>
    intro g
    rw [members_addSub_none hr.wf, hr.missing]
    constructor
    · rintro ⟨⟨hd, hnone⟩, hne⟩
      refine ⟨hd, ?_⟩
      intro c hmem
      rcases List.mem_append.mp hmem with hmem | hmem
      · exact hnone c hmem
      · cases List.mem_singleton.mp hmem
        exact hne rfl
    · rintro ⟨hd, hnone⟩
      refine ⟨⟨hd, fun c hmem => hnone c (List.mem_append_left _ hmem)⟩, ?_⟩
      rintro rfl
      exact hnone d (List.mem_append_right _ (List.mem_singleton_self _))

theorem run_induction {P : List (Nat × Nat) → Heap → Prop}
    (hstep : ∀ D h e, Reached kind groups D h → Ready groups D e → P D h → P (D ++ [e]) (addSub kind h e))
    (hr : Reached kind groups D h) (hP : P D h) (hg : Good groups D T) :
    Reached kind groups (D ++ T) (T.foldl (addSub kind) h) ∧ P (D ++ T) (T.foldl (addSub kind) h) := by
  induction T generalizing D h with
  | nil =>
    rw [List.append_nil]
    exact ⟨hr, hP⟩
  | cons e T ih =>
    have hrest := ih (hr.step hg.1) (hstep D h e hr hg.1 hP) hg.2
    rw [List.append_assoc] at hrest
    exact hrest

/-! ## Where every group fits -/

structure Within (groups : Groups) (h : Heap) : Prop where
  upper : ∀ g, ∀ m ∈ h.membersOf g, groups.IsMember g m
  shared : ∀ g k ref, h.members g = some ref → h.members k = some ref → h.lists ref ≠ [] →
    ∀ m, groups.IsMember g m ↔ groups.IsMember k m

theorem within_start : Within groups groups.heap where
  upper g m hm := by
    unfold Heap.membersOf Groups.heap at hm
    apply isMember_own
    unfold Groups.own
    cases hd : groups.declared g with
    | none => simp [hd] at hm
    | some l => simpa [hd] using hm
  shared g k ref hg hk _ m := by
    simp only [Groups.heap, Option.map_eq_some_iff] at hg hk
    obtain ⟨-, -, rfl⟩ := hg
    obtain ⟨-, -, hk⟩ := hk
    cases hk
    exact Iff.rfl

theorem same_members (hr : Reached kind groups D h) (hw : Within groups h) (he : Ready groups D (p, c))
    (hfits : groups.Fits kind p) (hempty : h.membersOf p = []) {ref : Ref} (hc : h.members c = some ref)
    (hne : h.lists ref ≠ []) (m : String) : groups.IsMember p m ↔ groups.IsMember c m := by
  refine ⟨?_, isMember_sub he.sub⟩
  intro hm
  have hown : groups.own p = [] := List.subset_nil.mp (hempty ▸ hr.own p)
  obtain ⟨xs, ys, hsplit, hnotin⟩ := List.eq_append_cons_of_mem he.sub
  have hsplit : groups.subs p = xs ++ c :: ys := hsplit
  have hnone : ∀ b ∈ xs, ∀ m, ¬ groups.Gives kind b m := by
    intro b hb m hm
    have hdone : (p, b) ∈ D := by
      apply he.before b
      show b ∈ (groups.subs p).takeWhile (fun b => b ≠ c)
      rw [hsplit, List.takeWhile_append_of_pos]
      · exact List.mem_append_left _ hb
      · intro a ha
        rw [decide_eq_true_eq]
        rintro rfl
        exact hnotin ha
    have hin := hr.added p b hdone m hm
    rw [hempty] at hin
    cases hin
  obtain ⟨x, hx⟩ := List.exists_mem_of_ne_nil _ hne
  have hgives : groups.Gives kind c x := Or.inl (hw.upper c x (membersOf_some hc ▸ hx))
  have hvoid : ¬ groups.Void kind c := by
    intro hv
    rw [(hr.missing_complete he.complete).mpr hv.2] at hc
    cases hc
  rw [isMember_iff, hown] at hm
  rcases hm with hm | ⟨b, hb, hm⟩
  · cases hm
  · rw [hsplit] at hb
    rcases List.mem_append.mp hb with hb | hb
    · exact absurd (Or.inl hm) (hnone b hb m)
    · rcases List.mem_cons.mp hb with rfl | hb
      · exact hm
      · exact hfits.taken hown xs c ys hsplit hnone ⟨x, hgives⟩ hvoid b hb m (Or.inl hm)

theorem Within.step {e : Nat × Nat} (hfits : ∀ p ∈ groups.items, groups.Fits kind p) (hr : Reached kind groups D h)
    (he : Ready groups D e) (hw : Within groups h) : Within groups (addSub kind h e) := by
  obtain ⟨p, c⟩ := e
  have hgiven : ∀ m ∈ given kind h c, groups.IsMember p m := fun m hm =>
    (hfits p he.item).gives c he.sub m (hr.gives_of_given he.complete (hw.upper c) hm)
  rcases (addSub_spec kind hr.wf p c).2 with ht | hx
  · obtain ⟨ref, hmem, hlist, hheld⟩ := ht.taken
    -- the other groups that hold the list have the members of `p`
    have hother : ∀ k, k ≠ p → (addSub kind h (p, c)).members k = some ref → (addSub kind h (p, c)).lists ref ≠ [] →
        ∀ m, groups.IsMember p m ↔ groups.IsMember k m := by
      intro k hk hmk hne m
      rw [ht.others k hk] at hmk
      rcases hheld with hc | ⟨-, hfree⟩
      · rw [ht.lists c ref hc] at hne
        rw [same_members hr hw he (hfits p he.item) ht.empty hc hne m]
        exact hw.shared c k ref hc hmk hne m
      · exact absurd hmk (hfree k)
    constructor
    · intro g m hm
      by_cases hg : g = p
      · subst hg
        rw [ht.membersOf_self] at hm
        exact hgiven m hm
      · rw [ht.membersOf_of_ne hg] at hm
        exact hw.upper g m hm
    · intro g k r hmg hmk hne m
      by_cases hg : g = p
      · subst hg
        cases hmem.symm.trans hmg
        by_cases hk : k = g
        · rw [hk]
        · exact hother k hk hmk hne m
      · by_cases hk : k = p
        · subst hk
          cases hmem.symm.trans hmk
          exact (hother g hg hmg hne m).symm
        · rw [ht.others g hg] at hmg
          rw [ht.others k hk] at hmk
          rw [ht.lists g r hmg] at hne
          exact hw.shared g k r hmg hmk hne m
  · obtain ⟨own, hown, hne, hlist, hothers⟩ := hx.extended
    constructor
    · intro g m hm
      rcases hx.membersOf g with heq | ⟨hsame, -, heq⟩
      · rw [heq] at hm
        exact hw.upper g m hm
      · rw [heq] at hm
        rcases List.mem_append.mp hm with hm | hm
        · exact hw.upper g m hm
        · exact (hw.shared p g own hown (hsame.trans hown) hne m).mp (hgiven m hm)
    · intro g k r hmg hmk hrne m
      rw [hx.members] at hmg hmk
      apply hw.shared g k r hmg hmk
      by_cases hrown : r = own
      · exact hrown ▸ hne
      · rwa [hothers g r hmg hrown] at hrne

/-! ## Where the members are right -/

def Sound (groups : Groups) (h : Heap) : Prop := ∀ g ∈ groups.items, ∀ m ∈ h.membersOf g, groups.IsMember g m

theorem Sound.before (hwf : h.Wf) {e : Nat × Nat} (hs : Sound groups (addSub kind h e)) : Sound groups h :=
  fun g hg m hm => hs g hg m (membersOf_addSub hwf e.1 e.2 g hm)

structure Taken (kind : Kind) (groups : Groups) (D : List (Nat × Nat)) (h : Heap) : Prop where
  taken : ∀ p ∈ groups.items, groups.own p = [] → ∀ xs c ys, groups.subs p = xs ++ c :: ys →
    (∀ b ∈ xs, ∀ m, ¬ groups.Gives kind b m) → (∃ m, groups.Gives kind c m) → ¬ groups.Void kind c →
    (p, c) ∈ D → h.members p = h.members c
  filled : ∀ p ∈ groups.items, groups.own p = [] → h.membersOf p ≠ [] → ∃ b m, (p, b) ∈ D ∧ groups.Gives kind b m

theorem taken_start : Taken kind groups [] groups.heap where
  taken p _ _ xs c ys _ _ _ _ hmem := by cases hmem
  filled p _ hown hne := by
    refine absurd (List.subset_nil.mp ?_) hne
    rw [← hown]
    intro m hm
    unfold Heap.membersOf Groups.heap at hm
    unfold Groups.own
    cases hd : groups.declared p with
    | none => simp [hd] at hm
    | some l => simpa [hd] using hm

theorem filled_step (hr : Reached kind groups D h) (he : Ready groups D (p, c)) (hs : Sound groups h)
    (hc : c ∈ groups.items) (ht : Taken kind groups D h) (q : Nat) (hq : q ∈ groups.items) (hown : groups.own q = [])
    (hne : (addSub kind h (p, c)).membersOf q ≠ []) :
    ∃ b m, (q, b) ∈ D ++ [(p, c)] ∧ groups.Gives kind b m := by
  by_cases hempty : h.membersOf q = []
  · by_cases hqp : q = p
    · subst hqp
      rcases (addSub_spec kind hr.wf q c).2 with htakes | hx
      · rw [htakes.membersOf_self] at hne
        obtain ⟨m, hm⟩ := List.exists_mem_of_ne_nil _ hne
        exact ⟨c, m, by simp, hr.gives_of_given he.complete (hs c hc) hm⟩
      · obtain ⟨own, hmem, hfull, -⟩ := hx.extended
        exact absurd (membersOf_some hmem ▸ hempty) hfull
    · exact absurd (membersOf_addSub_empty hr.wf p c hqp hempty) hne
  · obtain ⟨b, m, hb, hm⟩ := ht.filled q hq hown hempty
    exact ⟨b, m, List.mem_append_left _ hb, hm⟩

theorem taken_step (hacyclic : groups.Acyclic) (hr : Reached kind groups D h) (he : Ready groups D (p, c))
    (ht : Taken kind groups D h) (q : Nat) (hq : q ∈ groups.items) (hown : groups.own q = [])
    {xs : List Nat} {d : Nat} {ys : List Nat} (hsplit : groups.subs q = xs ++ d :: ys)
    (hnone : ∀ b ∈ xs, ∀ m, ¬ groups.Gives kind b m) (hgives : ∃ m, groups.Gives kind d m)
    (hvoid : ¬ groups.Void kind d) (hmem : (q, d) ∈ D ++ [(p, c)]) :
    (addSub kind h (p, c)).members q = (addSub kind h (p, c)).members d := by
  by_cases hold : (q, d) ∈ D
  · -- both have members, so that they keep their list
    have hsame := ht.taken q hq hown xs d ys hsplit hnone hgives hvoid hold
    obtain ⟨m, hm⟩ := hgives
    have hin : m ∈ h.membersOf q := hr.added q d hold m hm
    have hneq : h.membersOf q ≠ [] := List.ne_nil_of_mem hin
    have hned : h.membersOf d ≠ [] := by
      unfold Heap.membersOf at hneq ⊢
      rwa [← hsame]
    rw [members_addSub hr.wf p c hneq, members_addSub hr.wf p c hned, hsame]
  · obtain ⟨rfl, rfl⟩ : q = p ∧ d = c := by
      rcases List.mem_append.mp hmem with hmem | hmem
      · exact absurd hmem hold
      · simpa using hmem
    have hdq : d ≠ q := by
      rintro rfl
      exact hacyclic d (Relation.TransGen.single he.sub)
    have hempty : h.membersOf q = [] := by
      by_contra hne
      obtain ⟨b, m, hb, hm⟩ := ht.filled q hq hown hne
      have hsub : b ∈ groups.subs q := hr.edges _ hb
      have hbd : b ≠ d := by
        rintro rfl
        exact hold hb
      have hbxs : b ∉ xs := fun hx => hnone b hx m hm
      -- `d` comes before `b`, it has been added before
      apply hold
      apply hr.ordered _ hb
      show d ∈ (groups.subs q).takeWhile (fun a => a ≠ b)
      rw [hsplit, List.takeWhile_append_of_pos]
      · apply List.mem_append_right
        rw [List.takeWhile_cons_of_pos (by simpa using hbd.symm)]
        exact List.mem_cons_self
      · intro a ha
        rw [decide_eq_true_eq]
        rintro rfl
        exact hbxs ha
    rcases (addSub_spec kind hr.wf q d).2 with htakes | hx
    · obtain ⟨ref, hmq, -, hheld⟩ := htakes.taken
      rw [hmq, htakes.others d hdq]
      rcases hheld with hd | ⟨hd, -⟩
      · exact hd.symm
      · obtain ⟨m, hm⟩ := hgives
        have hbare := (hr.missing_complete he.complete).mp hd
        rcases hm with hm | ⟨hv, -⟩
        · exact absurd hm (not_isMember_of_bare hbare.1 hbare.2)
        · exact absurd hv hvoid
    · obtain ⟨own, hmq, hfull, -⟩ := hx.extended
      exact absurd (membersOf_some hmq ▸ hempty) hfull

theorem mem_items_of_sub (hc : c ∈ groups.subs p) : c ∈ groups.items := by
  obtain ⟨name, -, hname⟩ := List.mem_filterMap.mp hc
  exact groups.indexed _ _ hname

/-! ## The explosion -/

/-- The explosion ends whatever the order of the groups. Each group has the members below
it if and only if every group fits. -/
theorem explode_members_iff (kind : Kind) (hacyclic : groups.Acyclic) : ∃ h, explode kind groups = .ok h ∧
    ((∀ g ∈ groups.items, ∀ m, m ∈ h.membersOf g ↔ groups.IsMember g m) ↔ ∀ p ∈ groups.items, groups.Fits kind p) := by
  obtain ⟨w, T, hrun, hheap, hgood, hcomplete⟩ := explodeItems kind (D := [])
    (w := ⟨groups.heap, fun _ => false, fun _ => false⟩) hacyclic groups.items (fun _ hg => hg) (fun _ hh => by cases hh)
  refine ⟨w.heap, ?_, ?_⟩
  · rw [explode, hrun]
    rfl
  have hr : Reached kind groups T w.heap := by
    rw [hheap]
    exact (run_induction (P := fun _ _ => True) (fun _ _ _ _ _ _ => trivial) reached_start trivial hgood).1
  rw [List.nil_append] at hcomplete
  constructor
  · intro hmembers
    have hsound : Sound groups w.heap := fun g hg m hm => (hmembers g hg m).mp hm
    have htaken : Sound groups w.heap → Taken kind groups T w.heap := by
      rw [hheap]
      refine (run_induction (P := fun D h => Sound groups h → Taken kind groups D h) ?_ reached_start
        (fun _ => taken_start) hgood).2
      intro D h e hr he ht hs
      obtain ⟨q, d⟩ := e
      have hbefore : Sound groups h := hs.before hr.wf
      exact ⟨fun p hp hown xs c ys hsplit hnone hgives hvoid hmem =>
          taken_step hacyclic hr he (ht hbefore) p hp hown hsplit hnone hgives hvoid hmem,
        fun p hp hown hne => filled_step hr he hbefore (mem_items_of_sub he.sub) (ht hbefore) p hp hown hne⟩
    intro p hp
    have hadded : ∀ c ∈ groups.subs p, ∀ m, groups.Gives kind c m → m ∈ w.heap.membersOf p := fun c hc m hm =>
      hr.added p c (hcomplete p hp p Relation.ReflTransGen.refl c hc) m hm
    constructor
    · intro c hc m hm
      exact hsound p hp m (hadded c hc m hm)
    · intro hown xs c ys hsplit hnone hgives hvoid b hb m hm
      have hc : c ∈ groups.subs p := by
        rw [hsplit]
        simp
      have hb : b ∈ groups.subs p := by
        rw [hsplit]
        simp [hb]
      have hsame := (htaken hsound).taken p hp hown xs c ys hsplit hnone hgives hvoid
        (hcomplete p hp p Relation.ReflTransGen.refl c hc)
      have hin := hadded b hb m hm
      have heq : w.heap.membersOf p = w.heap.membersOf c := by
        unfold Heap.membersOf
        rw [hsame]
      rw [heq] at hin
      exact hsound c (mem_items_of_sub hc) m hin
  · intro hfits
    have hwithin : Within groups w.heap := by
      rw [hheap]
      exact (run_induction (P := fun _ h => Within groups h) (fun D h e hr he hw => hw.step hfits hr he)
        reached_start within_start hgood).2
    intro g hg m
    exact ⟨hwithin.upper g m, hr.members_complete (hcomplete g hg)⟩

end

/-! ## Two sub-groups -/

/-- The groups `0`, `1` and `2`, under their names. -/
def namedItem (name : String) : Option Nat :=
  if name = "paris" then some 0 else if name = "lyon" then some 1 else if name = "france" then some 2 else none

/-- The group `2` has no members but those of the groups `0` and `1`. -/
def twoSubs (lyon : List String) : Groups where
  items := [2, 0, 1]
  declared g := if g = 0 then some ["host_a"] else if g = 1 then some lyon else none
  groupMembers g := if g = 2 then ["paris", "lyon"] else []
  nameToItem := namedItem
  indexed name g h := by
    unfold namedItem at h
    split at h
    · cases h
      decide
    · split at h
      · cases h
        decide
      · split at h
        · cases h
          decide
        · cases h

theorem subs_twoSubs (lyon : List String) (g : Nat) : (twoSubs lyon).subs g = if g = 2 then [0, 1] else [] := by
  unfold Groups.subs
  by_cases hg : g = 2
  · subst hg
    have hnames : (twoSubs lyon).groupMembers 2 = ["paris", "lyon"] := rfl
    have hitems : (twoSubs lyon).nameToItem = namedItem := rfl
    rw [hnames, hitems]
    decide
  · have hnames : (twoSubs lyon).groupMembers g = [] := if_neg hg
    rw [hnames, if_neg hg]
    rfl

theorem acyclic_twoSubs (lyon : List String) : (twoSubs lyon).Acyclic := by
  have hlt : ∀ g h, (twoSubs lyon).Sub g h → h < g := by
    intro g h hs
    have hs : h ∈ (twoSubs lyon).subs g := hs
    rw [subs_twoSubs] at hs
    split at hs
    · simp only [List.mem_cons, List.not_mem_nil, or_false] at hs
      omega
    · cases hs
  have htrans : ∀ g h, Relation.TransGen (twoSubs lyon).Sub g h → h < g := by
    intro g h ht
    induction ht with
    | single hs => exact hlt _ _ hs
    | tail _ hs ih => exact (hlt _ _ hs).trans ih
  exact fun g hg => Nat.lt_irrefl g (htrans g g hg)

theorem explode_members_iff_two : ∃ h, explode .hostgroup (twoSubs ["host_a"]) = .ok h ∧
    ((∀ g ∈ (twoSubs ["host_a"]).items, ∀ m, m ∈ h.membersOf g ↔ (twoSubs ["host_a"]).IsMember g m) ↔
      ∀ p ∈ (twoSubs ["host_a"]).items, (twoSubs ["host_a"]).Fits .hostgroup p) :=
  explode_members_iff .hostgroup (acyclic_twoSubs ["host_a"])

/-- The group `paris` gets the host of the group `lyon`. -/
theorem paris_gains : (twoSubs ["host_b"]).Acyclic ∧ ¬ ∀ h, explode .hostgroup (twoSubs ["host_b"]) = .ok h →
    ∀ g ∈ (twoSubs ["host_b"]).items, ∀ m, m ∈ h.membersOf g ↔ (twoSubs ["host_b"]).IsMember g m := by
  refine ⟨acyclic_twoSubs _, ?_⟩
  intro hright
  have hgains : (match explode .hostgroup (twoSubs ["host_b"]) with
      | .ok h => decide ("host_b" ∈ h.membersOf 0)
      | .error _ => false) = true := by
    decide +kernel
  cases hrun : explode .hostgroup (twoSubs ["host_b"]) with
  | error e =>
    rw [hrun] at hgains
    cases hgains
  | ok h =>
    rw [hrun] at hgains
    have hmember := (hright h hrun 0 (by decide) "host_b").mp (of_decide_eq_true hgains)
    rw [isMember_iff, subs_twoSubs] at hmember
    rcases hmember with hown | ⟨c, hc, -⟩
    · exact absurd hown (by decide)
    · cases hc

end Alignak.Explosion
