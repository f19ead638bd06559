import Alignak.Effect

/-!
# Computations that query an object

A query may change the object that answers it. A computation has the result that
a function gives it when the object answers each query as that function does.
-/

namespace Alignak

inductive Queries (ι ο α : Type)
  | done (a : α)
  | ask (query : ι) (next : ο → Queries ι ο α)

/-- What a computation returns or raises, without the state that it leaves. -/
def outcome {ε σ α : Type} : EStateM.Result ε σ α → Except ε α
  | .ok a _ => .ok a
  | .error e _ => .error e

namespace Queries

section
variable {ι ο α β ε σ : Type}

def bind : Queries ι ο α → (α → Queries ι ο β) → Queries ι ο β
  | done a, k => k a
  | ask query next, k => ask query fun o => (next o).bind k

instance : Monad (Queries ι ο) where
  pure := done
  bind := bind

variable (object : ι → EStateM ε σ ο) (f : ι → Except ε ο)

def run : Queries ι ο α → EStateM ε σ α
  | done a => pure a
  | ask query next => object query >>= fun o => (next o).run

def answeredBy : Queries ι ο α → Except ε α
  | done a => .ok a
  | ask query next => f query >>= fun o => (next o).answeredBy

def Along (P : σ → ι → Prop) : Queries ι ο α → σ → Prop
  | done _, _ => True
  | ask query next, s => P s query ∧
    match object query s with
    | .ok o s' => (next o).Along P s'
    | .error _ _ => True

theorem along_ask (P : σ → ι → Prop) (query : ι) (next : ο → Queries ι ο α) (s : σ) :
    (ask query next).Along object P s ↔ P s query ∧
      match object query s with
      | .ok o s' => (next o).Along object P s'
      | .error _ _ => True := by rw [Along]

def decidableAlong (P : σ → ι → Prop) [∀ s query, Decidable (P s query)] :
    ∀ (c : Queries ι ο α) (s : σ), Decidable (c.Along object P s)
  | done _, _ => isTrue trivial
  | ask query next, s =>
    have : Decidable (match object query s with
        | .ok o s' => (next o).Along object P s'
        | .error _ _ => True) :=
      match object query s with
      | .ok o s' => decidableAlong P (next o) s'
      | .error _ _ => isTrue trivial
    decidable_of_iff' _ (along_ask object P query next s)

instance (P : σ → ι → Prop) [∀ s query, Decidable (P s query)] (c : Queries ι ο α) (s : σ) : Decidable (c.Along object P s) :=
  decidableAlong object P c s

def after (queries : List ι) (s : σ) : σ := queries.foldl (fun s query => stateAfter (object query s)) s

variable {object f} {I : σ → Prop} {P : σ → ι → Prop}

theorem after_keeps {queries : List ι} {s : σ} (hI : ∀ query ∈ queries, Keeps I (object query)) (h : I s) :
    I (after object queries s) := by
  induction queries generalizing s with
  | nil => exact h
  | cons query queries ih => exact ih (fun q hq => hI q (List.mem_cons_of_mem _ hq)) (hI query List.mem_cons_self s h).1

theorem outcome_run (hI : ∀ query, Keeps I (object query)) (hf : ∀ query s, I s → P s query → outcome (object query s) = f query) :
    ∀ (c : Queries ι ο α) {s : σ}, I s → c.Along object P s → outcome (c.run object s) = c.answeredBy f
  | done _, _, _, _ => rfl
  | ask query next, s, h, halong => by
    obtain ⟨hp, hnext⟩ := (along_ask object P query next s).mp halong
    have ho := hf query s h hp
    have hs := (hI query s h).1
    rw [run, bind_eq, answeredBy, ← ho]
    cases hr : object query s with
    | error e s' => rfl
    | ok o s' =>
      rw [hr] at hs hnext
      exact outcome_run hI hf (next o) hs hnext

end

end Queries

end Alignak
