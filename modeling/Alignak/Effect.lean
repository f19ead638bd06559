import Mathlib.Tactic.Common

/-!
# Computations with a state that can raise

An exception keeps the state that the computation has reached. `Leads I m J E`:
from a state with `I`, the one that `m` leaves, returning or raising, has `J`,
and what it raises has `E`; `Keeps` is the case of an invariant, `Raises` speaks
of the exceptions alone, and `Ensures` is partial correctness. `Unchanged p m`:
`m` leaves the part `p` of the state.
-/

namespace Alignak

variable {c : Prop}

section
variable {ε σ α β γ : Type}

def stateAfter : EStateM.Result ε σ α → σ
  | .ok _ s => s
  | .error _ s => s

def returns : EStateM.Result ε σ α → Bool
  | .ok _ _ => true
  | .error _ _ => false

theorem eq_ok_of_returns {r : EStateM.Result ε σ PUnit} (h : returns r = true) : r = .ok ⟨⟩ (stateAfter r) := by
  cases r with
  | ok _ _ => rfl
  | error _ _ => cases h

def Leads (I : σ → Prop) (m : EStateM ε σ α) (J : σ → Prop) (E : ε → Prop := fun _ => True) : Prop :=
  ∀ s, I s → J (stateAfter (m s)) ∧ ∀ e s', m s = .error e s' → E e

abbrev Keeps (I : σ → Prop) (m : EStateM ε σ α) (E : ε → Prop := fun _ => True) : Prop := Leads I m I E

def Unchanged (p : σ → γ) (m : EStateM ε σ α) : Prop := ∀ s, p (stateAfter (m s)) = p s

def Ensures (P : σ → Prop) (m : EStateM ε σ α) (Q : α → σ → Prop) : Prop := ∀ s, P s → ∀ a s', m s = .ok a s' → Q a s'

def Raises (P : σ → Prop) (m : EStateM ε σ α) (E : ε → Prop) : Prop := ∀ s, P s → ∀ e s', m s = .error e s' → E e

/-- The conditional statement of the source, without an else. -/
def guarded (c : Prop) [Decidable c] (m : EStateM ε σ PUnit) : EStateM ε σ PUnit := if c then m else pure ⟨⟩

theorem bind_eq (m : EStateM ε σ α) (k : α → EStateM ε σ β) (s : σ) :
    (m >>= k) s = match m s with
      | .ok a s' => k a s'
      | .error e s' => .error e s' := rfl

theorem bind_ok {m : EStateM ε σ α} {k : α → EStateM ε σ β} {s s' : σ} {a : α} (h : m s = .ok a s') :
    (m >>= k) s = k a s' := by rw [bind_eq, h]

theorem modify_bind (f : σ → σ) (k : PUnit → EStateM ε σ α) (s : σ) : (modify f >>= k) s = k ⟨⟩ (f s) := rfl

theorem get_bind (k : σ → EStateM ε σ α) (s : σ) : (get >>= k) s = k s s := rfl

theorem run_pos {_ : Decidable c} {m₁ m₂ : EStateM ε σ α} (h : c) (s : σ) : (if c then m₁ else m₂) s = m₁ s := by rw [if_pos h]

theorem run_neg {_ : Decidable c} {m₁ m₂ : EStateM ε σ α} (h : ¬ c) (s : σ) : (if c then m₁ else m₂) s = m₂ s := by rw [if_neg h]

/-! ## Invariants -/

section
variable {I : σ → Prop} {E : ε → Prop} {m : EStateM ε σ α} {k : α → EStateM ε σ β}

theorem Keeps.pure (a : α) : Keeps I (pure a : EStateM ε σ α) E := fun _ h => ⟨h, fun _ _ e => nomatch e⟩

theorem Keeps.throw {e : ε} (he : E e) : Keeps I (throw e : EStateM ε σ α) E := by
  intro s h
  refine ⟨h, fun e' s' heq => ?_⟩
  cases heq
  exact he

theorem Keeps.modify {f : σ → σ} (h : ∀ s, I s → I (f s)) : Keeps I (modify f : EStateM ε σ PUnit) E :=
  fun s hs => ⟨h s hs, fun _ _ e => nomatch e⟩

theorem Leads.bind {J K : σ → Prop} (hm : Leads I m K E) (hk : ∀ a, Leads K (k a) J E) (h : ∀ s, K s → J s) :
    Leads I (m >>= k) J E := by
  intro s hs
  have h1 := hm s hs
  rw [bind_eq]
  cases hr : m s with
  | ok a s' => rw [hr] at h1; exact hk a s' h1.1
  | error e s' =>
    rw [hr] at h1
    refine ⟨h s' h1.1, fun e' s'' heq => ?_⟩
    cases heq
    exact h1.2 e s' rfl

theorem Leads.modify {J : σ → Prop} {f : σ → σ} (h : ∀ s, I s → J (f s)) : Leads I (modify f : EStateM ε σ PUnit) J E :=
  fun s hs => ⟨h s hs, fun _ _ e => nomatch e⟩

theorem Leads.readAt {J : σ → Prop} {k : σ → EStateM ε σ α} (h : ∀ s, I s → Leads (· = s) (k s) J E) :
    Leads I (MonadState.get >>= k) J E := fun s hs => h s hs s rfl

/-- A step from a known state that cannot raise. -/
theorem leads_step {J : σ → Prop} {f : σ → σ} {s : σ} {k : PUnit → EStateM ε σ α} (h : Leads (· = f s) (k ⟨⟩) J E) :
    Leads (· = s) (modify f >>= k) J E := by
  intro s' e
  subst e
  exact h (f s') rfl

theorem Leads.pre {J I' : σ → Prop} (h : Leads I m J E) (hp : ∀ s, I' s → I s) : Leads I' m J E := fun s hs => h s (hp s hs)

theorem Keeps.bind (hm : Keeps I m E) (hk : ∀ a, Keeps I (k a) E) : Keeps I (m >>= k) E :=
  Leads.bind hm hk fun _ h => h

theorem Keeps.read {k : σ → EStateM ε σ α} (hk : ∀ s, Keeps I (k s) E) : Keeps I (MonadState.get >>= k) E :=
  Keeps.bind (fun _ h => ⟨h, fun _ _ e => nomatch e⟩) hk

theorem Keeps.ite [Decidable c] {m₁ m₂ : EStateM ε σ α} (h1 : c → Keeps I m₁ E) (h2 : ¬ c → Keeps I m₂ E) :
    Keeps I (if c then m₁ else m₂) E := by
  by_cases h : c
  · rw [if_pos h]; exact h1 h
  · rw [if_neg h]; exact h2 h

theorem Keeps.guarded [Decidable c] {m : EStateM ε σ PUnit} (h : c → Keeps I m E) : Keeps I (guarded c m) E :=
  Keeps.ite h fun _ => Keeps.pure _

theorem Keeps.forM {f : α → EStateM ε σ PUnit} : ∀ {l : List α}, (∀ a ∈ l, Keeps I (f a) E) → Keeps I (l.forM f) E
  | [], _ => Keeps.pure _
  | a :: l, h => by
    show Keeps I (f a >>= fun _ => l.forM f) E
    exact Keeps.bind (h a List.mem_cons_self) fun _ => Keeps.forM fun b hb => h b (List.mem_cons_of_mem _ hb)

theorem Leads.forM {J : σ → Prop} {f : α → EStateM ε σ PUnit} {I : List α → σ → Prop}
    (h : ∀ a l, Leads (I (a :: l)) (f a) (I l) E) (hJ : ∀ l s, I l s → J s) : ∀ l, Leads (I l) (l.forM f) J E
  | [] => fun s hs => ⟨hJ [] s hs, fun _ _ e => nomatch e⟩
  | a :: l => by
    show Leads (I (a :: l)) (f a >>= fun _ => l.forM f) J E
    exact Leads.bind (h a l) (fun _ => Leads.forM h hJ l) (hJ l)

theorem Keeps.foldlM {f : β → α → EStateM ε σ β} : ∀ {l : List α} {b : β}, (∀ b, ∀ a ∈ l, Keeps I (f b a) E) →
    Keeps I (l.foldlM f b) E
  | [], _, _ => Keeps.pure _
  | a :: l, b, h => by
    show Keeps I (f b a >>= fun b => l.foldlM f b) E
    exact Keeps.bind (h b a List.mem_cons_self) fun b => Keeps.foldlM fun b c hc => h b c (List.mem_cons_of_mem _ hc)

theorem Unchanged.keeps {p : σ → γ} {J : γ → Prop} (h : Unchanged p m) : Keeps (fun s => J (p s)) m := by
  intro s hs
  refine ⟨?_, fun _ _ _ => trivial⟩
  show J (p (stateAfter (m s)))
  rw [h s]
  exact hs

end

/-! ## Frames -/

section
variable {p : σ → γ} {m : EStateM ε σ α} {k : α → EStateM ε σ β}

theorem Unchanged.pure (a : α) : Unchanged p (pure a : EStateM ε σ α) := fun _ => rfl

theorem Unchanged.throw (e : ε) : Unchanged p (throw e : EStateM ε σ α) := fun _ => rfl

theorem Unchanged.get : Unchanged p (get : EStateM ε σ σ) := fun _ => rfl

theorem Unchanged.modify {f : σ → σ} (h : ∀ s, p (f s) = p s) : Unchanged p (modify f : EStateM ε σ PUnit) := h

theorem Unchanged.bind (hm : Unchanged p m) (hk : ∀ a, Unchanged p (k a)) : Unchanged p (m >>= k) := by
  intro s
  have h1 := hm s
  rw [bind_eq]
  cases hr : m s with
  | ok a s' => rw [hr] at h1; exact (hk a s').trans h1
  | error e s' => rw [hr] at h1; exact h1

theorem Unchanged.ite [Decidable c] {m₁ m₂ : EStateM ε σ α} (h1 : Unchanged p m₁) (h2 : Unchanged p m₂) :
    Unchanged p (if c then m₁ else m₂) := by
  by_cases h : c
  · rw [if_pos h]; exact h1
  · rw [if_neg h]; exact h2

theorem Unchanged.guarded [Decidable c] {m : EStateM ε σ PUnit} (h : Unchanged p m) :
    Unchanged p (guarded c m) := Unchanged.ite h (Unchanged.pure _)

theorem Unchanged.forM {f : α → EStateM ε σ PUnit} : ∀ {l : List α}, (∀ a ∈ l, Unchanged p (f a)) →
    Unchanged p (l.forM f)
  | [], _ => Unchanged.pure _
  | a :: l, h => by
    show Unchanged p (f a >>= fun _ => l.forM f)
    exact Unchanged.bind (h a List.mem_cons_self) fun _ => Unchanged.forM fun b hb => h b (List.mem_cons_of_mem _ hb)

theorem Unchanged.foldlM {f : β → α → EStateM ε σ β} : ∀ {l : List α} {b : β}, (∀ b, ∀ a ∈ l, Unchanged p (f b a)) →
    Unchanged p (l.foldlM f b)
  | [], _, _ => Unchanged.pure _
  | a :: l, b, h => by
    show Unchanged p (f b a >>= fun b => l.foldlM f b)
    exact Unchanged.bind (h b a List.mem_cons_self) fun b => Unchanged.foldlM fun b c hc =>
      h b c (List.mem_cons_of_mem _ hc)

end

/-! ## Correctness on return -/

section
variable {P P' : σ → Prop} {m : EStateM ε σ α} {k : α → EStateM ε σ β} {R : α → σ → Prop} {Q : β → σ → Prop}

theorem Ensures.bind (hm : Ensures P m R) (hk : ∀ a, Ensures (R a) (k a) Q) : Ensures P (m >>= k) Q := by
  intro s hs b s' hr
  rw [bind_eq] at hr
  cases hm' : m s with
  | ok a s₁ => rw [hm'] at hr; exact hk a s₁ (hm s hs a s₁ hm') b s' hr
  | error e s₁ => rw [hm'] at hr; cases hr

theorem Ensures.readAt {k : σ → EStateM ε σ β} (h : ∀ s, P s → Ensures (· = s) (k s) Q) :
    Ensures P (MonadState.get >>= k) Q := fun s hs => h s hs s rfl

theorem Ensures.pre (h : Ensures P m R) (hp : ∀ s, P' s → P s) : Ensures P' m R := fun s hs => h s (hp s hs)

theorem Ensures.post {R' : α → σ → Prop} (h : Ensures P m R) (hr : ∀ a s, R a s → R' a s) : Ensures P m R' :=
  fun s hs a s' e => hr a s' (h s hs a s' e)

theorem Ensures.pure {a : α} (h : ∀ s, P s → R a s) : Ensures P (pure a : EStateM ε σ α) R := by
  intro s hs b s' e
  cases e
  exact h s hs

theorem Ensures.throw {e : ε} : Ensures P (throw e : EStateM ε σ α) R := fun _ _ _ _ h => nomatch h

theorem Ensures.modify {f : σ → σ} {R : PUnit → σ → Prop} (h : ∀ s, P s → R ⟨⟩ (f s)) :
    Ensures P (modify f : EStateM ε σ PUnit) R := by
  intro s hs b s' e
  cases e
  exact h s hs

theorem Ensures.ite [Decidable c] {m₁ m₂ : EStateM ε σ α} (h1 : c → Ensures P m₁ R)
    (h2 : ¬ c → Ensures P m₂ R) : Ensures P (if c then m₁ else m₂) R := by
  by_cases h : c
  · rw [if_pos h]; exact h1 h
  · rw [if_neg h]; exact h2 h

theorem Ensures.forM {f : α → EStateM ε σ PUnit} {I : List α → σ → Prop} : ∀ {l d : List α},
    (∀ d, ∀ a ∈ l, Ensures (I d) (f a) fun _ => I (d ++ [a])) → Ensures (I d) (l.forM f) fun _ => I (d ++ l)
  | [], d, _ => by
    rw [List.append_nil]
    exact Ensures.pure fun _ h => h
  | a :: l, d, h => by
    show Ensures (I d) (f a >>= fun _ => l.forM f) _
    have hl := Ensures.forM (d := d ++ [a]) fun d b hb => h d b (List.mem_cons_of_mem _ hb)
    rw [List.append_assoc] at hl
    exact Ensures.bind (h d a List.mem_cons_self) fun _ => hl

theorem Ensures.foldlM {f : β → α → EStateM ε σ β} {I : List α → β → σ → Prop} : ∀ {l d : List α} {b : β},
    (∀ d b, ∀ a ∈ l, Ensures (I d b) (f b a) (I (d ++ [a]))) → Ensures (I d b) (l.foldlM f b) (I (d ++ l))
  | [], d, b, _ => by
    rw [List.append_nil]
    exact Ensures.pure fun _ h => h
  | a :: l, d, b, h => by
    show Ensures (I d b) (f b a >>= fun b => l.foldlM f b) _
    have hl := fun b => Ensures.foldlM (d := d ++ [a]) (b := b) fun d b c hc => h d b c (List.mem_cons_of_mem _ hc)
    rw [List.append_assoc] at hl
    exact Ensures.bind (h d b a List.mem_cons_self) hl

theorem Keeps.ensures {E : ε → Prop} (h : Keeps P m E) : Ensures P m fun _ => P := by
  intro s hs a s' e
  have := (h s hs).1
  rw [e] at this
  exact this

theorem Leads.bindOk {I J K : σ → Prop} {E : ε → Prop} (hm : Leads I m K E) (hq : Ensures I m R)
    (hk : ∀ a, Leads (fun s => K s ∧ R a s) (k a) J E) (h : ∀ s, K s → J s) : Leads I (m >>= k) J E := by
  intro s hs
  have h1 := hm s hs
  rw [bind_eq]
  cases hr : m s with
  | ok a s' => rw [hr] at h1; exact hk a s' ⟨h1.1, hq s hs a s' hr⟩
  | error e s' =>
    rw [hr] at h1
    refine ⟨h s' h1.1, fun e' s'' heq => ?_⟩
    cases heq
    exact h1.2 e s' rfl

end

/-! ## What is raised -/

section
variable {P P' : σ → Prop} {m : EStateM ε σ α} {k : α → EStateM ε σ β} {R R' : α → σ → Prop} {E : ε → Prop}

theorem Leads.raises {J : σ → Prop} (h : Leads P m J E) : Raises P m E := fun s hs => (h s hs).2

theorem Ensures.and (h : Ensures P m R) (h' : Ensures P m R') : Ensures P m fun a s => R a s ∧ R' a s :=
  fun s hs a s' e => ⟨h s hs a s' e, h' s hs a s' e⟩

theorem Raises.bind (hm : Raises P m E) (hq : Ensures P m R) (hk : ∀ a, Raises (R a) (k a) E) : Raises P (m >>= k) E := by
  intro s hs e s' hr
  rw [bind_eq] at hr
  cases hm' : m s with
  | ok a s₁ =>
    rw [hm'] at hr
    exact hk a s₁ (hq s hs a s₁ hm') e s' hr
  | error e' s₁ =>
    rw [hm'] at hr
    cases hr
    exact hm s hs e s' hm'

theorem Raises.readAt {k : σ → EStateM ε σ β} (h : ∀ s, P s → Raises (· = s) (k s) E) : Raises P (MonadState.get >>= k) E :=
  fun s hs => h s hs s rfl

theorem Raises.pre (h : Raises P m E) (hp : ∀ s, P' s → P s) : Raises P' m E := fun s hs => h s (hp s hs)

theorem Raises.pure (a : α) : Raises P (pure a : EStateM ε σ α) E := fun _ _ _ _ h => nomatch h

theorem Raises.modify {f : σ → σ} : Raises P (modify f : EStateM ε σ PUnit) E := fun _ _ _ _ h => nomatch h

theorem Raises.throw {e : ε} (h : E e) : Raises P (throw e : EStateM ε σ α) E := by
  intro s _ e' s' hr
  cases hr
  exact h

theorem Raises.ite [Decidable c] {m₁ m₂ : EStateM ε σ α} (h1 : c → Raises P m₁ E) (h2 : ¬ c → Raises P m₂ E) :
    Raises P (if c then m₁ else m₂) E := by
  by_cases h : c
  · rw [if_pos h]; exact h1 h
  · rw [if_neg h]; exact h2 h

theorem Raises.guarded [Decidable c] {m : EStateM ε σ PUnit} (h : c → Raises P m E) : Raises P (guarded c m) E :=
  Raises.ite h fun _ => Raises.pure _

theorem Raises.forM {f : α → EStateM ε σ PUnit} : ∀ {l : List α}, (∀ a ∈ l, Raises P (f a) E ∧ Ensures P (f a) fun _ => P) →
    Raises P (l.forM f) E
  | [], _ => Raises.pure _
  | a :: l, h => by
    show Raises P (f a >>= fun _ => l.forM f) E
    obtain ⟨h1, h2⟩ := h a List.mem_cons_self
    exact Raises.bind h1 h2 fun _ => Raises.forM fun b hb => h b (List.mem_cons_of_mem _ hb)

end

end

end Alignak
