/-!
# Python exceptions

A function of the source that can raise returns `Except Exn α`. A recursion or
a loop without a bound of its own takes fuel, and `diverges` is its outcome
when the fuel is used up.
-/

namespace Alignak

inductive Exn
  | typeError
  | keyError
  | attributeError
  | valueError
  | indexError
  | zeroDivisionError
  | overflowError
  | notImplementedError
  | diverges
  deriving DecidableEq, Repr

instance {α : Type} [DecidableEq α] : DecidableEq (Except Exn α)
  | .ok a, .ok b => decidable_of_iff (a = b) (by simp)
  | .error e, .error e' => decidable_of_iff (e = e') (by simp)
  | .ok _, .error _ => isFalse (by simp)
  | .error _, .ok _ => isFalse (by simp)

section
variable {ε α β : Type} {f : β → α → Except ε β} {I : β → Prop}

theorem foldlM_ok : ∀ (l : List α) (b : β), (∀ a ∈ l, ∀ b, I b → ∃ b', f b a = .ok b' ∧ I b') → I b →
    ∃ b', l.foldlM f b = .ok b' ∧ I b'
  | [], b, _, hb => ⟨b, rfl, hb⟩
  | a :: l, b, h, hb => by
    obtain ⟨b₁, hr, hb1⟩ := h a List.mem_cons_self b hb
    obtain ⟨b₂, hr2, hb2⟩ := foldlM_ok l b₁ (fun a ha => h a (List.mem_cons_of_mem _ ha)) hb1
    refine ⟨b₂, ?_, hb2⟩
    rw [List.foldlM_cons, hr]; exact hr2

/-- Each element has its turn once, after those of `P`. -/
theorem foldlM_turns_ok {I : List α → β → Prop} {l : List α} {b : β} (hl : l.Nodup)
    (hstep : ∀ P a b, (∀ p ∈ P, p ∈ l) → a ∈ l → a ∉ P → I P b → ∃ b', f b a = .ok b' ∧ I (a :: P) b') (hb : I [] b) :
    ∃ b', l.foldlM f b = .ok b' ∧ I l.reverse b' := by
  suffices h : ∀ rest P b, P.reverse ++ rest = l → I P b → ∃ b', rest.foldlM f b = .ok b' ∧ I l.reverse b' from
    h l [] b rfl hb
  intro rest
  induction rest with
  | nil =>
    intro P b hP hb
    rw [List.append_nil] at hP
    exact ⟨b, rfl, by rw [← hP, List.reverse_reverse]; exact hb⟩
  | cons a rest ih =>
    intro P b hP hb
    have hdone : ∀ p ∈ P, p ∈ l := fun p hp => hP ▸ List.mem_append_left _ (List.mem_reverse.mpr hp)
    have hfresh : a ∉ P := by
      rw [← hP, List.nodup_append] at hl
      exact fun hp => hl.2.2 a (List.mem_reverse.mpr hp) a List.mem_cons_self rfl
    obtain ⟨b₁, hr, hb1⟩ := hstep P a b hdone (by rw [← hP]; simp) hfresh hb
    obtain ⟨b₂, hr2, hb2⟩ := ih (a :: P) b₁ (by rw [List.reverse_cons, List.append_assoc]; exact hP) hb1
    exact ⟨b₂, by rw [List.foldlM_cons, hr]; exact hr2, hb2⟩

theorem foldlM_eq_foldl {g : β → α → β} : ∀ (l : List α) (b : β), (∀ a ∈ l, ∀ b, f b a = .ok (g b a)) →
    l.foldlM f b = .ok (l.foldl g b)
  | [], _, _ => rfl
  | a :: l, b, h => by
    rw [List.foldlM_cons, h a List.mem_cons_self b, List.foldl_cons]
    exact foldlM_eq_foldl l (g b a) fun a ha => h a (List.mem_cons_of_mem _ ha)

theorem foldlM_of_ok : ∀ {l : List α} {b b' : β}, l.foldlM f b = .ok b' →
    (∀ a ∈ l, ∀ b b', f b a = .ok b' → I b → I b') → I b → I b'
  | [], b, b', hr, _, hb => by cases hr; exact hb
  | a :: l, b, b', hr, h, hb => by
    rw [List.foldlM_cons] at hr
    cases hf : f b a with
    | error e => rw [hf] at hr; cases hr
    | ok b₁ =>
      rw [hf] at hr
      exact foldlM_of_ok hr (fun a ha => h a (List.mem_cons_of_mem _ ha)) (h a List.mem_cons_self b b₁ hf hb)

theorem foldlM_turn : ∀ {l : List α} {b b' : β}, l.foldlM f b = .ok b' →
    (∀ a ∈ l, ∀ b b', f b a = .ok b' → I b → I b') → I b → ∀ a ∈ l, ∃ b₁ b₂, I b₁ ∧ f b₁ a = .ok b₂
  | [], _, _, _, _, _, a, ha => absurd ha List.not_mem_nil
  | c :: l, b, b', hr, h, hb, a, ha => by
    rw [List.foldlM_cons] at hr
    cases hf : f b c with
    | error e => rw [hf] at hr; cases hr
    | ok b₁ =>
      rw [hf] at hr
      rcases List.mem_cons.mp ha with e | ha
      · subst e; exact ⟨b, b₁, hb, hf⟩
      · exact foldlM_turn hr (fun a ha => h a (List.mem_cons_of_mem _ ha)) (h c List.mem_cons_self b b₁ hf hb) a ha

end

end Alignak
