import Alignak.Replace

/-!
# Replacements and the parts of a text

A replacement works on the parts of a text one by one where no occurrence that it
takes lies across their edges, and so does a list of replacements.
-/

namespace Alignak

section
variable {old new text a b : List Char}

/-- An occurrence that `replace` takes, from the left, starts in the one text and ends in the next. -/
def crossesAfter (p : List Char) : Nat → List Char → List Char → Bool
  | 0, [], _ => false
  | _ + 1, [], _ => true
  | covered + 1, _ :: a, b => crossesAfter p covered a b
  | 0, c :: a, b => if p.isPrefixOf (c :: (a ++ b)) then crossesAfter p (p.length - 1) a b else crossesAfter p 0 a b

def crosses (p a b : List Char) : Bool := crossesAfter p 0 a b

theorem isPrefixOf_cons_false {c : Char} (h : ¬ old <:+: c :: text) : old.isPrefixOf (c :: text) = false := by
  rw [← Bool.not_eq_true, List.isPrefixOf_iff_prefix]
  exact fun hp => h hp.isInfix

theorem replace_absent (h : ¬ old <:+: text) : replace old new text = text := by
  unfold replace
  induction text with
  | nil => rfl
  | cons c text ih =>
    unfold replaceAfter
    rw [isPrefixOf_cons_false h, if_neg Bool.false_ne_true, ih]
    exact fun hi => h (List.infix_cons hi)

theorem covered_le : ∀ {a : List Char} {k : Nat}, crossesAfter old k a b = false → k ≤ a.length
  | [], 0, _ => Nat.le_refl 0
  | _ :: _, 0, _ => Nat.zero_le _
  | _ :: _, _ + 1, hx => Nat.succ_le_succ (covered_le hx)

theorem replaceAfter_append (h : old ≠ []) : ∀ {a : List Char} {k : Nat}, crossesAfter old k a b = false →
    replaceAfter old new k (a ++ b) = replaceAfter old new k a ++ replaceAfter old new 0 b
  | [], 0, _ => by
    rw [List.nil_append]
    simp [replaceAfter]
  | c :: a, k + 1, hx => by
    rw [List.cons_append, replaceAfter, replaceAfter]
    exact replaceAfter_append h hx
  | c :: a, 0, hx => by
    rw [crossesAfter] at hx
    rw [List.cons_append, replaceAfter, replaceAfter]
    by_cases ho : old.isPrefixOf (c :: (a ++ b)) = true
    · rw [if_pos ho] at hx ⊢
      have hle := covered_le hx
      have hpos := List.length_pos_of_ne_nil h
      have hp : old <+: c :: a := List.prefix_of_prefix_length_le (List.isPrefixOf_iff_prefix.mp ho)
        (List.prefix_append (c :: a) b) (by rw [List.length_cons]; omega)
      rw [if_pos (List.isPrefixOf_iff_prefix.mpr hp), replaceAfter_append h hx, List.append_assoc]
    · rw [if_neg ho] at hx ⊢
      have ho' : ¬ old.isPrefixOf (c :: a) = true := fun hp =>
        ho (List.isPrefixOf_iff_prefix.mpr ((List.isPrefixOf_iff_prefix.mp hp).trans (List.prefix_append (c :: a) b)))
      rw [if_neg ho', replaceAfter_append h hx]
      rfl

theorem replace_append (h : old ≠ []) (hx : crosses old a b = false) :
    replace old new (a ++ b) = replace old new a ++ replace old new b :=
  replaceAfter_append h hx

/-! ## Parts -/

/-- No occurrence of `p` that is taken lies across the edges of the parts. -/
def LocalTo (p : List Char) : List (List Char) → Prop
  | [] => True
  | part :: parts => crosses p part parts.flatten = false ∧ LocalTo p parts

theorem replace_flatten (h : old ≠ []) : ∀ {parts : List (List Char)}, LocalTo old parts →
    replace old new parts.flatten = (parts.map (replace old new)).flatten
  | [], _ => rfl
  | part :: parts, hl => by
    rw [List.flatten_cons, replace_append h hl.1, replace_flatten h hl.2]
    rfl

def replaceAll (steps : List (List Char × List Char)) (text : List Char) : List Char :=
  steps.foldl (fun text step => replace step.1 step.2 text) text

def LocalRun : List (List Char × List Char) → List (List Char) → Prop
  | [], _ => True
  | step :: steps, parts => LocalTo step.1 parts ∧ LocalRun steps (parts.map (replace step.1 step.2))

theorem replaceAll_cons (step : List Char × List Char) (steps : List (List Char × List Char)) (text : List Char) :
    replaceAll (step :: steps) text = replaceAll steps (replace step.1 step.2 text) := rfl

theorem replaceAll_append (l l' : List (List Char × List Char)) (text : List Char) :
    replaceAll (l ++ l') text = replaceAll l' (replaceAll l text) := List.foldl_append

theorem replaceAll_flatten : ∀ {steps : List (List Char × List Char)} {parts : List (List Char)}, (∀ step ∈ steps, step.1 ≠ []) →
    LocalRun steps parts → replaceAll steps parts.flatten = (parts.map (replaceAll steps)).flatten
  | [], parts, _, _ => by
    have hid : parts.map (replaceAll []) = parts := List.map_id parts
    rw [hid]
    rfl
  | step :: steps, parts, h, hl => by
    rw [replaceAll_cons, replace_flatten (h step List.mem_cons_self) hl.1,
      replaceAll_flatten (fun s hs => h s (List.mem_cons_of_mem _ hs)) hl.2, List.map_map]
    rfl

theorem replaceAll_absent {steps : List (List Char × List Char)} (h : ∀ step ∈ steps, ¬ step.1 <:+: text) :
    replaceAll steps text = text := by
  induction steps with
  | nil => rfl
  | cons step steps ih =>
    rw [replaceAll_cons, replace_absent (h step List.mem_cons_self)]
    exact ih fun s hs => h s (List.mem_cons_of_mem _ hs)

theorem replaceAll_nil (steps : List (List Char × List Char)) : replaceAll steps [] = [] := by
  induction steps with
  | nil => rfl
  | cons step steps ih => exact ih

instance decidableLocalTo (p : List Char) : ∀ parts, Decidable (LocalTo p parts)
  | [] => isTrue trivial
  | part :: parts => by
    haveI := decidableLocalTo p parts
    exact inferInstanceAs (Decidable (crosses p part parts.flatten = false ∧ LocalTo p parts))

instance decidableLocalRun : ∀ steps parts, Decidable (LocalRun steps parts)
  | [], _ => isTrue trivial
  | step :: steps, parts => by
    haveI := decidableLocalRun steps (parts.map (replace step.1 step.2))
    exact inferInstanceAs (Decidable (LocalTo step.1 parts ∧ LocalRun steps (parts.map (replace step.1 step.2))))

/-! ## Lengths -/

theorem replaceAfter_length (hn : new.length ≤ old.length) : ∀ {text : List Char} {k : Nat}, k ≤ text.length →
    (replaceAfter old new k text).length + k ≤ text.length
  | [], k, hk => by
    rw [List.length_nil, Nat.le_zero] at hk
    subst hk
    simp [replaceAfter]
  | c :: text, k + 1, hk => by
    rw [List.length_cons] at hk ⊢
    have : (replaceAfter old new k text).length + k ≤ text.length := replaceAfter_length hn (by omega)
    rw [replaceAfter]
    omega
  | c :: text, 0, _ => by
    rw [replaceAfter, List.length_cons]
    by_cases ho : old.isPrefixOf (c :: text) = true
    · have hlen := (List.isPrefixOf_iff_prefix.mp ho).length_le
      rw [List.length_cons] at hlen
      have : (replaceAfter old new (old.length - 1) text).length + (old.length - 1) ≤ text.length :=
        replaceAfter_length hn (by omega)
      rw [if_pos ho, List.length_append]
      omega
    · have : (replaceAfter old new 0 text).length + 0 ≤ text.length := replaceAfter_length hn (Nat.zero_le _)
      rw [if_neg ho, List.length_cons]
      omega

theorem replace_length_le (hn : new.length ≤ old.length) : (replace old new text).length ≤ text.length :=
  replaceAfter_length hn (Nat.zero_le _)

theorem replace_length_lt (hn : new.length < old.length) (h : old <:+: text) : (replace old new text).length < text.length := by
  unfold replace
  induction text with
  | nil =>
    rw [List.infix_nil] at h
    subst h
    simp at hn
  | cons c text ih =>
    rw [replaceAfter, List.length_cons]
    by_cases ho : old.isPrefixOf (c :: text) = true
    · have hlen := (List.isPrefixOf_iff_prefix.mp ho).length_le
      rw [List.length_cons] at hlen
      have : (replaceAfter old new (old.length - 1) text).length + (old.length - 1) ≤ text.length :=
        replaceAfter_length hn.le (by omega)
      rw [if_pos ho, List.length_append]
      omega
    · rw [if_neg ho, List.length_cons]
      rcases List.infix_cons_iff.mp h with hp | hi
      · exact absurd (List.isPrefixOf_iff_prefix.mpr hp) ho
      · exact Nat.succ_lt_succ (ih hi)

/-! ## Characters -/

theorem mem_replaceAfter {c : Char} : ∀ {text : List Char} {k : Nat}, c ∈ replaceAfter old new k text → c ∈ text ∨ c ∈ new
  | [], k, h => by simp [replaceAfter] at h
  | d :: text, k + 1, h => by
    rw [replaceAfter] at h
    exact (mem_replaceAfter h).imp_left (List.mem_cons_of_mem d)
  | d :: text, 0, h => by
    rw [replaceAfter] at h
    by_cases ho : old.isPrefixOf (d :: text) = true
    · rw [if_pos ho, List.mem_append] at h
      rcases h with h | h
      · exact .inr h
      · exact (mem_replaceAfter h).imp_left (List.mem_cons_of_mem d)
    · rw [if_neg ho, List.mem_cons] at h
      rcases h with rfl | h
      · exact .inl List.mem_cons_self
      · exact (mem_replaceAfter h).imp_left (List.mem_cons_of_mem d)

theorem mem_replace {c : Char} (h : c ∈ replace old new text) : c ∈ text ∨ c ∈ new := mem_replaceAfter h

theorem mem_replace_present {c : Char} (hne : old ≠ []) (h : old <:+: text) (hc : c ∈ new) : c ∈ replace old new text := by
  unfold replace
  induction text with
  | nil => exact absurd (List.infix_nil.mp h) hne
  | cons d text ih =>
    rw [replaceAfter]
    by_cases ho : old.isPrefixOf (d :: text) = true
    · rw [if_pos ho]
      exact List.mem_append_left _ hc
    · rw [if_neg ho]
      rcases List.infix_cons_iff.mp h with hp | hi
      · exact absurd (List.isPrefixOf_iff_prefix.mpr hp) ho
      · exact List.mem_cons_of_mem _ (ih hi)

theorem replace_char (d : Char) (text : List Char) : replace [d] [] text = text.filter (· != d) := by
  unfold replace
  induction text with
  | nil => rfl
  | cons c text ih =>
    rw [replaceAfter, List.filter_cons]
    by_cases hc : c = d
    · subst hc
      simpa [List.isPrefixOf] using ih
    · have hd : ¬ d = c := fun e => hc e.symm
      simpa [List.isPrefixOf, hc, hd] using ih

end

end Alignak
