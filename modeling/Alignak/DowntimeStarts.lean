import Alignak.DowntimeLinks

/-!
# The start of a row of downtimes

No downtime hangs on two lists, so that each one that hangs on a downtime that
starts is started once. What each of these starts keeps, the whole start keeps.
-/

namespace Alignak.Scheduling

/-! ## What hangs on a downtime -/

section
variable {conf : Conf} {env : Env} {w s s' : World} {i j d c k fuel : Nat} {x y : Downtime}

namespace Linked

variable (h : Linked conf w)
include h

theorem lists_lt (hl : w.Lists d c) : d < c := by
  obtain ⟨i, x, y, hx, hc, hy⟩ := hl
  exact (h.link hx hc).2.1

theorem le_of_hangs (hd : w.Hangs d c) : d ≤ c := by
  induction hd with
  | refl => exact le_refl d
  | tail _ hl ih => exact ih.trans (Nat.le_of_lt (h.lists_lt hl))

theorem lists_unique (hd : w.Lists d k) (hc : w.Lists c k) : d = c := by
  obtain ⟨i, x, y, hx, hk, hy⟩ := hd
  obtain ⟨i', x', y', hx', hk', hy'⟩ := hc
  have h1 : y.triggerId = some d := ((h.link hx hk).2.2.2 hy).2
  have h2 : y.triggerId = some c := ((h.link hx' hk').2.2.2 hy).2
  rw [h1] at h2
  exact Option.some.inj h2

theorem hangs_total (hd : w.Hangs d k) (hc : w.Hangs c k) : w.Hangs d c ∨ w.Hangs c d := by
  have hunique : Relator.RightUnique (Function.swap w.Lists) := fun _ _ _ h1 h2 => h.lists_unique h1 h2
  rcases Relation.ReflTransGen.total_of_right_unique hunique (Relation.reflTransGen_swap.mpr hd) (Relation.reflTransGen_swap.mpr hc) with h' | h'
  · exact .inr (Relation.reflTransGen_swap.mp h')
  · exact .inl (Relation.reflTransGen_swap.mp h')

theorem hangs_apart (hx : w.downtime? i d = some x) {b : Nat} (hb : b ∈ x.activateMe) (hc : c ∈ x.activateMe) (hne : b ≠ c)
    (hbk : w.Hangs b k) (hck : w.Hangs c k) : False := by
  have hover {a e : Nat} (ha : a ∈ x.activateMe) (he : e ∈ x.activateMe) (hae : w.Hangs a e) : a = e := by
    rcases Relation.ReflTransGen.cases_tail hae with rfl | ⟨f, haf, hfe⟩
    · rfl
    · obtain ⟨i', x', y, hx', hy', hy⟩ := hfe
      have h1 : y.triggerId = some f := ((h.link hx' hy').2.2.2 hy).2
      have h2 : y.triggerId = some d := ((h.link hx he).2.2.2 hy).2
      rw [h1] at h2
      cases h2
      have hle := h.le_of_hangs haf
      have hlt := (h.link hx ha).2.1
      omega
  rcases h.hangs_total hbk hck with h' | h'
  · exact hne (hover hb hc h')
  · exact hne (hover hc hb h').symm

end Linked

def World.Idle (w : World) (d : Nat) : Prop := ∀ c, w.Hangs d c → ∀ i y, w.downtime? i c = some y → y.isInEffect = false

theorem enter_keeps (env : Env) {P : World → Prop}
    (hP : ∀ {w : World} {i d : Nat} {x : Downtime}, Linked conf w → w.downtime? i d = some x → x.isInEffect = false → P w →
      P (w.startDowntime conf env i d x)) :
    ∀ (fuel : Nat) {w : World} {i d : Nat} {x : Downtime}, Linked conf w → w.downtime? i d = some x → w.nextDowntime ≤ d + fuel →
      w.Idle d → P w → ∃ w', Downtime.enter conf env fuel i d w = .ok ⟨⟩ w' ∧ Started (w.Hangs d) w w' ∧ P w'
  | 0, w, i, d, x, h, hx, hf, _, _ => absurd (h.made hx) (by omega)
  | fuel + 1, w, i, d, x, h, hx, hf, hidle, hw => by
    obtain ⟨w', hw', hst⟩ := enter_started env (fuel + 1) h hx hf
    have hstart := startDowntime_started env h hx
    -- the turns of the list, from any world with the same links
    have turns : ∀ (l : List Nat) (s : World), l.Nodup → (∀ c ∈ l, c ∈ x.activateMe) → s.links = w.links → (∀ c ∈ l, s.Idle c) → P s →
        ∃ s', l.forM (enterTurn conf env fuel) s = .ok ⟨⟩ s' ∧ P s' := by
      intro l
      induction l with
      | nil => exact fun s _ _ _ _ hs => ⟨s, rfl, hs⟩
      | cons c l ih =>
        intro s hn hmem hl hidle hs
        have hLs := h.of_links hl
        obtain ⟨x', hx', hlink⟩ := entry_of_links hl.symm hx
        simp only [Downtime.link, Prod.mk.injEq] at hlink
        have hmem' : ∀ b ∈ c :: l, b ∈ x'.activateMe := fun b hb => hlink.2.2 ▸ hmem b hb
        have hrest := List.nodup_cons.mp hn
        obtain ⟨hi, -, -, hon⟩ := hLs.link hx' (hmem' c List.mem_cons_self)
        have hstep : ∃ s₁, enterTurn conf env fuel c s = .ok ⟨⟩ s₁ ∧ s₁.links = s.links ∧ P s₁ ∧ ∀ b ∈ l, s₁.Idle b := by
          cases hy : s.downtime? i c with
          | none =>
            refine ⟨s, enterTurn_none fun j => ?_, rfl, hs, fun b hb => hidle b (List.mem_cons_of_mem _ hb)⟩
            cases hz : s.downtime? j c with
            | none => rfl
            | some z =>
              have hj := (hon hz).1
              subst hj
              rw [hy] at hz
              cases hz
          | some y =>
            have hnext : s.nextDowntime = w.nextDowntime := congrArg Prod.snd hl
            have hlt := (hLs.link hx' (hmem' c List.mem_cons_self)).2.1
            obtain ⟨s₁, hs1, hst1, hP1⟩ := enter_keeps env hP fuel hLs hy (by omega) (hidle c List.mem_cons_self) hs
            refine ⟨s₁, enterTurn_run hLs hi hy hs1 hst1.links, hst1.links, hP1, fun b hb k hk j z hz => ?_⟩
            have hk' : s.Hangs b k := (hangs_iff_of_links hst1.links).mp hk
            obtain ⟨z', hz', -⟩ := entry_of_links hst1.links hz
            have hapart : ¬ s.Hangs c k := by
              intro hck
              refine hLs.hangs_apart hx' (hmem' b (List.mem_cons_of_mem _ hb)) (hmem' c List.mem_cons_self) ?_ hk' hck
              rintro rfl
              exact hrest.1 hb
            have hsame := hst1.outside hz' hapart
            rw [hsame] at hz
            cases hz
            exact hidle b (List.mem_cons_of_mem _ hb) k hk' j z hz'
        obtain ⟨s₁, hs1, hl1, hP1, hidle1⟩ := hstep
        obtain ⟨s', hs', hP'⟩ := ih s₁ hrest.2 (fun b hb => hmem b (List.mem_cons_of_mem _ hb)) (hl1.trans hl) hidle1 hP1
        refine ⟨s', ?_, hP'⟩
        show (enterTurn conf env fuel c >>= fun _ => l.forM (enterTurn conf env fuel)) s = _
        rw [bind_ok hs1, hs']
    have hself : x.isInEffect = false := hidle d Relation.ReflTransGen.refl i x hx
    obtain ⟨w'', hw'', hP''⟩ := turns x.activateMe (w.startDowntime conf env i d x) (h.nodup hx) (fun _ hc => hc) hstart.links
      (fun c hc k hk j y hy => by
        have hk' : w.Hangs c k := (hangs_iff_of_links hstart.links).mp hk
        have hle := h.le_of_hangs hk'
        have hlt := (h.link hx hc).2.1
        obtain ⟨y', hy', -⟩ := entry_of_links hstart.links hy
        have hsame := hstart.outside hy' (show k ≠ d by omega)
        rw [hsame] at hy
        cases hy
        have hchild : ∃ z, w.downtime? i c = some z := by
          rcases Relation.ReflTransGen.cases_head hk' with rfl | ⟨e, ⟨i', x', z, hx', -, -⟩, -⟩
          · have hj := ((h.link hx hc).2.2.2 hy').1
            subst hj
            exact ⟨y, hy'⟩
          · have hj := ((h.link hx hc).2.2.2 hx').1
            subst hj
            exact ⟨x', hx'⟩
        obtain ⟨z, hz⟩ := hchild
        exact hidle k (Relation.ReflTransGen.head ⟨i, x, z, hx, hc, hz⟩ hk') j y hy')
      (hP h hx hself hw)
    rw [enter_eq hx, hw''] at hw'
    cases hw'
    exact ⟨_, (enter_eq hx).trans hw'', hst, hP''⟩

end

end Alignak.Scheduling
