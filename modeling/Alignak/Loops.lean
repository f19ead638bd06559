import Alignak.Effect
import Mathlib.Data.List.Nodup
import Mathlib.Data.List.Dedup
import Mathlib.Data.List.Induction

/-!
# Loops over lists

A loop that skips elements, or goes through lists of lists, is a loop over the
elements that are left.
-/

namespace Alignak

section
variable {ε σ α β : Type} {f : α → EStateM ε σ PUnit}

theorem forM_cons_eq (a : α) (l : List α) : (a :: l).forM f = (f a >>= fun _ => l.forM f) := rfl

theorem forM_append_eq (l l' : List α) : (l ++ l').forM f = (l.forM f >>= fun _ => l'.forM f) := by
  induction l with
  | nil => exact (pure_bind _ _).symm
  | cons a l ih => rw [List.cons_append, forM_cons_eq, forM_cons_eq, bind_assoc, ih]

theorem forM_guarded {p : α → Prop} [DecidablePred p] (l : List α) :
    (l.forM fun a => guarded (p a) (f a)) = (l.filter p).forM f := by
  induction l with
  | nil => rfl
  | cons a l ih =>
    rw [forM_cons_eq, ih, List.filter_cons]
    unfold guarded
    by_cases ha : p a
    · simp only [ha, if_true, decide_true, forM_cons_eq]
    · simp only [ha, if_false, decide_false, pure_bind, Bool.false_eq_true]

theorem forM_flatMap {g : β → List α} (l : List β) : (l.forM fun b => (g b).forM f) = (l.flatMap g).forM f := by
  induction l with
  | nil => rfl
  | cons b l ih => rw [forM_cons_eq, List.flatMap_cons, forM_append_eq, ih]

theorem forM_map_eq {g : β → α} (l : List β) : (l.forM fun b => f (g b)) = (l.map g).forM f := by
  induction l with
  | nil => rfl
  | cons b l ih => rw [forM_cons_eq, List.map_cons, forM_cons_eq, ih]

theorem forM_congr {g : α → EStateM ε σ PUnit} {l : List α} (h : ∀ a ∈ l, f a = g a) : l.forM f = l.forM g := by
  induction l with
  | nil => rfl
  | cons a l ih =>
    rw [forM_cons_eq, forM_cons_eq, h a List.mem_cons_self, ih fun b hb => h b (List.mem_cons_of_mem _ hb)]

theorem returned_of_mem {l : List α} {s s' : σ} (h : l.forM f s = .ok ⟨⟩ s') {a : α} (ha : a ∈ l) :
    ∃ t t', f a t = .ok ⟨⟩ t' := by
  induction l generalizing s with
  | nil => cases ha
  | cons b l ih =>
    rw [forM_cons_eq, bind_eq] at h
    cases hb : f b s with
    | error e t =>
      rw [hb] at h
      cases h
    | ok u t =>
      rw [hb] at h
      rcases List.mem_cons.mp ha with rfl | ha
      · exact ⟨s, t, hb⟩
      · exact ih h ha

/-! ## Elements that come again -/

def once [DecidableEq α] (l : List α) : List α := l.reverse.dedup.reverse

section
variable {l : List α}

section
variable [DecidableEq α]

theorem once_nodup (l : List α) : (once l).Nodup := List.nodup_reverse.mpr (List.nodup_dedup _)

@[simp] theorem mem_once {a : α} : a ∈ once l ↔ a ∈ l := by simp [once]

theorem once_concat_of_mem {a : α} (h : a ∈ l) : once (l ++ [a]) = once l := by
  unfold once
  rw [List.reverse_append, List.reverse_singleton, List.singleton_append, List.dedup_cons_of_mem (List.mem_reverse.mpr h)]

theorem once_concat_of_notMem {a : α} (h : a ∉ l) : once (l ++ [a]) = once l ++ [a] := by
  unfold once
  rw [List.reverse_append, List.reverse_singleton, List.singleton_append, List.dedup_cons_of_notMem (fun e => h (List.mem_reverse.mp e)),
    List.reverse_cons]

end

structure Lasting (done : α → σ → Prop) (f : α → EStateM ε σ PUnit) : Prop where
  self : ∀ {a s s'}, f a s = .ok ⟨⟩ s' → done a s'
  keep : ∀ {a b s s'}, f b s = .ok ⟨⟩ s' → done a s → done a s'
  again : ∀ {a s}, done a s → f a s = .ok ⟨⟩ s

theorem Lasting.forM {done : α → σ → Prop} (h : Lasting done f) {a : α} {s s' : σ} (hr : l.forM f s = .ok ⟨⟩ s')
    (ha : a ∈ l ∨ done a s) : done a s' := by
  induction l generalizing s with
  | nil =>
    cases hr
    exact ha.resolve_left fun e => nomatch e
  | cons b l ih =>
    rw [forM_cons_eq, bind_eq] at hr
    cases hb : f b s with
    | error e t =>
      rw [hb] at hr
      cases hr
    | ok u t =>
      rw [hb] at hr
      refine ih hr ?_
      rcases ha with ha | ha
      · rcases List.mem_cons.mp ha with rfl | ha
        · exact Or.inr (h.self hb)
        · exact Or.inl ha
      · exact Or.inr (h.keep hb ha)

theorem forM_once [DecidableEq α] {done : α → σ → Prop} (h : Lasting done f) (l : List α) : l.forM f = (once l).forM f := by
  induction l using List.reverseRecOn with
  | nil => rfl
  | append_singleton l a ih =>
    rw [forM_append_eq]
    by_cases ha : a ∈ l
    · rw [once_concat_of_mem ha, ← ih]
      funext s
      rw [bind_eq]
      cases hr : l.forM f s with
      | error e t => rfl
      | ok u t => exact bind_ok (h.again (h.forM hr (Or.inl ha)))
    · rw [once_concat_of_notMem ha, forM_append_eq, ih]

end

end

/-! ## Loops that may fail -/

theorem foldlM_nested {m : Type → Type} [Monad m] [LawfulMonad m] {σ α β : Type} (f : α → List β) (g : σ → β → m σ) (l : List α)
    (s : σ) : (l.foldlM (fun s a => (f a).foldlM g s) s) = (l.flatMap f).foldlM g s := by
  induction l generalizing s with
  | nil => rfl
  | cons a l ih =>
    rw [List.foldlM_cons, List.flatMap_cons, List.foldlM_append]
    exact bind_congr fun s => ih s

/-! ## Loops over a table -/

section
variable {κ ν : Type} [DecidableEq κ]

theorem foldl_update {f : κ → ν → ν} (hf : ∀ k a, f k (f k a) = f k a) (l : List κ) (g : κ → ν) (k : κ) :
    l.foldl (fun g a => Function.update g a (f a (g a))) g k = if k ∈ l then f k (g k) else g k := by
  induction l generalizing g with
  | nil => rfl
  | cons a l ih =>
    rw [List.foldl_cons, ih]
    by_cases ha : k = a
    · subst ha
      rw [Function.update_self, hf]
      simp
    · rw [Function.update_of_ne ha]
      simp [ha]

end

/-! ## Runs -/

section
variable {σ ε : Type} {step : σ → ε → σ} {P : σ → Prop} {Right Allowed : σ → ε → Prop} {s₀ : σ} {events : List ε}

theorem prefix_induction (h0 : P s₀) (hkeep : ∀ s e, P s → Right s e → P (step s e))
    (hright : ∀ l e, l ++ [e] <+: events → P (l.foldl step s₀) → Right (l.foldl step s₀) e) (l : List ε)
    (hl : l <+: events) : P (l.foldl step s₀) := by
  induction l using List.reverseRecOn with
  | nil => exact h0
  | append_singleton l e ih =>
    have hP := ih ((List.prefix_append l [e]).trans hl)
    rw [List.foldl_append]
    exact hkeep _ e hP (hright l e hl hP)

theorem prefixes_iff (h0 : P s₀) (hiff : ∀ s e, P s → (Right s e ↔ Allowed s e))
    (hkeep : ∀ s e, P s → Right s e → P (step s e)) (events : List ε) :
    (∀ l e, l ++ [e] <+: events → Right (l.foldl step s₀) e) ↔
      ∀ l e, l ++ [e] <+: events → Allowed (l.foldl step s₀) e := by
  constructor
  · intro h l e hl
    have hP := prefix_induction h0 hkeep (fun l e hl _ => h l e hl) l ((List.prefix_append l [e]).trans hl)
    exact (hiff _ e hP).mp (h l e hl)
  · intro h l e hl
    have hP := prefix_induction h0 hkeep (fun l e hl hP => (hiff _ e hP).mpr (h l e hl)) l
      ((List.prefix_append l [e]).trans hl)
    exact (hiff _ e hP).mpr (h l e hl)

end

/-! ## Overlays -/

section
variable {α β κ : Type}

/-- Each element of `more` comes behind the list, which loses those like it. -/
def overlay (like : β → α → Bool) (make : β → α) (l : List α) (more : List β) : List α :=
  more.foldl (fun l b => (l.filter fun a => !like b a) ++ [make b]) l

/-- What is left of the elements of `more` themselves. -/
def lastOnes (like : β → α → Bool) (make : β → α) : List β → List α
  | [] => []
  | b :: more => (if more.any fun b' => like b' (make b) then [] else [make b]) ++ lastOnes like make more

variable {like : β → α → Bool} {make : β → α} {l : List α} {more : List β}

theorem overlay_eq (l : List α) (more : List β) :
    overlay like make l more = (l.filter fun a => !more.any fun b => like b a) ++ lastOnes like make more := by
  induction more generalizing l with
  | nil => simp [overlay, lastOnes]
  | cons b more ih =>
    have hstep : overlay like make l (b :: more) = overlay like make ((l.filter fun a => !like b a) ++ [make b]) more := rfl
    have hboth : (fun a => (!more.any fun b' => like b' a) && !like b a) = fun a => !(b :: more).any fun b' => like b' a := by
      funext a
      rw [List.any_cons, Bool.not_or, Bool.and_comm]
    rw [hstep, ih, List.filter_append, List.filter_filter, hboth, List.append_assoc, lastOnes]
    cases h : more.any fun b' => like b' (make b) <;> simp [h]

theorem mem_lastOnes {a : α} (h : a ∈ lastOnes like make more) : ∃ b ∈ more, make b = a := by
  induction more with
  | nil => cases h
  | cons b more ih =>
    rcases List.mem_append.mp h with h | h
    · split at h
      · cases h
      · exact ⟨b, List.mem_cons_self, (List.mem_singleton.mp h).symm⟩
    · obtain ⟨b', hb', e⟩ := ih h
      exact ⟨b', List.mem_cons_of_mem _ hb', e⟩

theorem filter_lastOnes [DecidableEq κ] {key : α → κ} {k : κ}
    (hlike : ∀ b ∈ more, ∀ b' ∈ more, like b' (make b) = true ↔ key (make b) = key (make b'))
    (h : ∃ b ∈ more, key (make b) = k) :
    ∃ b ∈ more, key (make b) = k ∧ (lastOnes like make more).filter (fun a => key a = k) = [make b] := by
  induction more with
  | nil => simp at h
  | cons b more ih =>
    have hmore := ih fun b hb b' hb' => hlike b (List.mem_cons_of_mem _ hb) b' (List.mem_cons_of_mem _ hb')
    rw [lastOnes, List.filter_append]
    by_cases hlater : ∃ b' ∈ more, key (make b') = k
    · obtain ⟨b', hb', hk, hone⟩ := hmore hlater
      refine ⟨b', List.mem_cons_of_mem _ hb', hk, ?_⟩
      have hgone : List.filter (fun a => decide (key a = k))
          (if more.any fun b' => like b' (make b) then [] else [make b]) = [] := by
        split
        · rfl
        · rename_i hany
          refine List.filter_eq_nil_iff.mpr fun a ha hb => hany (List.any_eq_true.mpr ⟨b', hb', ?_⟩)
          rw [List.mem_singleton.mp ha] at hb
          exact (hlike b List.mem_cons_self b' (List.mem_cons_of_mem _ hb')).mpr ((of_decide_eq_true hb).trans hk.symm)
      rw [hgone, hone, List.nil_append]
    · have hb : key (make b) = k := by
        obtain ⟨b', hb', hk⟩ := h
        rcases List.mem_cons.mp hb' with rfl | hb'
        · exact hk
        · exact absurd ⟨b', hb', hk⟩ hlater
      have hnone : (lastOnes like make more).filter (fun a => decide (key a = k)) = [] := by
        rw [List.filter_eq_nil_iff]
        intro a ha hk
        obtain ⟨b', hb', rfl⟩ := mem_lastOnes ha
        exact hlater ⟨b', hb', of_decide_eq_true hk⟩
      have hany : ¬ (more.any fun b' => like b' (make b)) = true := by
        intro hany
        obtain ⟨b', hb', he⟩ := List.any_eq_true.mp hany
        exact hlater ⟨b', hb', ((hlike b List.mem_cons_self b' (List.mem_cons_of_mem _ hb')).mp he).symm.trans hb⟩
      refine ⟨b, List.mem_cons_self, hb, ?_⟩
      rw [if_neg hany, hnone, List.append_nil]
      simp [hb]

end
end Alignak
