import Mathlib.Data.Set.Insert
import Mathlib.Logic.Function.Basic
import Mathlib.Logic.Relation

/-!
# Marks and notes

Each place holds numbered notes and one mark at most, which has a note of its
own there. Other notes are lent to things that are not of the ledger. A number
is used once.
-/

namespace Alignak

@[ext]
structure Ledger (ι α : Type) where
  flag : ι → Bool
  mark : ι → Option α
  notes : ι → Set Nat
  lent : Set Nat
  next : Nat

namespace Ledger

variable {ι α : Type} [DecidableEq ι] (note : α → Nat) (marks : ι → Prop) (frees : Prop) (deletes : ι → Nat → Prop)

def own (l : Ledger ι α) (i : ι) : Set Nat := {c | l.flag i = true ∧ ∃ a, l.mark i = some a ∧ note a = c}

def putMark (l : Ledger ι α) (i : ι) (a : α) : Ledger ι α :=
  { l with
    flag := Function.update l.flag i true
    mark := Function.update l.mark i (some a)
    notes := Function.update l.notes i (insert l.next (l.notes i \ l.own note i))
    next := l.next + 1 }

def dropMark (l : Ledger ι α) (i : ι) : Ledger ι α :=
  { l with
    flag := Function.update l.flag i false
    mark := Function.update l.mark i none
    notes := Function.update l.notes i (l.notes i \ l.own note i) }

def write (l : Ledger ι α) (i : ι) (lent : Set Nat) : Ledger ι α :=
  { l with notes := Function.update l.notes i (insert l.next (l.notes i)), lent := lent, next := l.next + 1 }

def removeNote (l : Ledger ι α) (i : ι) (c : Nat) : Ledger ι α :=
  { l with notes := Function.update l.notes i (l.notes i \ {c}) }

inductive Move (l : Ledger ι α) : Ledger ι α → Prop
  | mark {i : ι} {a : α} (hi : marks i) (h : note a = l.next) : Move l (l.putMark note i a)
  | unmark {i : ι} (h : l.flag i = true) : Move l (l.dropMark note i)
  | write {i : ι} {lent : Set Nat} (h : lent ⊆ insert l.next l.lent) : Move l (l.write i lent)
  | release {lent : Set Nat} (h : lent ⊆ l.lent) : Move l { l with lent := lent }
  | free {i : ι} {c : Nat} (hf : frees) (h : c ∈ l.lent) : Move l (l.removeNote i c)
  | delete {i : ι} {c : Nat} (h : deletes i c) : Move l (l.removeNote i c)

abbrev Moves : Ledger ι α → Ledger ι α → Prop := Relation.ReflTransGen (Move note marks frees deletes)

structure Sound (l : Ledger ι α) : Prop where
  flag : ∀ i, l.flag i = true ↔ l.mark i ≠ none
  marked : ∀ {i a}, l.mark i = some a → note a < l.next
  lent : ∀ {c}, c ∈ l.lent → c < l.next
  notes : ∀ {i c}, c ∈ l.notes i → c < l.next
  apart : ∀ {i a}, l.mark i = some a → note a ∉ l.lent

structure Since (l₀ l : Ledger ι α) : Prop where
  next : l₀.next ≤ l.next
  lent : ∀ {c}, c ∈ l.lent → c ∈ l₀.lent ∨ l₀.next ≤ c
  notes : ∀ {i c}, c ∈ l.notes i → c ∈ l₀.notes i ∨ l₀.next ≤ c
  mark : ∀ {i a}, l.mark i = some a → l₀.mark i = some a ∨ l₀.next ≤ note a ∧ marks i
  kept : ∀ {i a}, l.mark i = some a →
    note a ∈ l.notes i ∨ deletes i (note a) ∨ l₀.mark i = some a ∧ note a ∉ l₀.notes i
  gone : ∀ {i a}, l₀.mark i = some a → l.mark i ≠ some a → note a ∉ l.notes i
  only : ∀ {i c}, c ∈ l₀.notes i → c ∉ l.notes i →
    (∃ a, l₀.mark i = some a ∧ note a = c ∧ l.mark i ≠ some a) ∨ (frees ∧ c ∈ l₀.lent) ∨ deletes i c

section
variable {note marks frees deletes} {l l' l₀ : Ledger ι α} {i j : ι} {a b : α} {c : Nat}

omit [DecidableEq ι] in
theorem mem_own (h : l.Sound note) : c ∈ l.own note i ↔ ∃ a, l.mark i = some a ∧ note a = c := by
  refine ⟨fun hc => hc.2, fun ⟨a, ha, hc⟩ => ⟨(h.flag i).mpr ?_, a, ha, hc⟩⟩
  rw [ha]
  exact Option.some_ne_none a

theorem mem_removeNote {d : Nat} : c ∈ (l.removeNote i d).notes j ↔ c ∈ l.notes j ∧ ¬ (j = i ∧ c = d) := by
  unfold removeNote
  by_cases hj : j = i
  · subst hj
    simp
  · simp [hj]

theorem mem_write {lent : Set Nat} : c ∈ (l.write i lent).notes j ↔ c ∈ l.notes j ∨ j = i ∧ c = l.next := by
  unfold write
  by_cases hj : j = i
  · subst hj
    simp [or_comm]
  · simp [hj]

theorem mark_putMark : (l.putMark note i a).mark j = some b ↔ (j = i ∧ b = a) ∨ (j ≠ i ∧ l.mark j = some b) := by
  unfold putMark
  by_cases hj : j = i
  · subst hj
    simp [eq_comm]
  · simp [hj]

theorem mem_putMark : c ∈ (l.putMark note i a).notes j ↔
    (j = i ∧ c = l.next) ∨ (c ∈ l.notes j ∧ ¬ (j = i ∧ c ∈ l.own note i)) := by
  unfold putMark
  by_cases hj : j = i
  · subst hj
    simp
  · simp [hj]

theorem mark_dropMark : (l.dropMark note i).mark j = some b ↔ j ≠ i ∧ l.mark j = some b := by
  unfold dropMark
  by_cases hj : j = i
  · subst hj
    simp
  · simp [hj]

theorem mem_dropMark : c ∈ (l.dropMark note i).notes j ↔ c ∈ l.notes j ∧ ¬ (j = i ∧ c ∈ l.own note i) := by
  unfold dropMark
  by_cases hj : j = i
  · subst hj
    simp
  · simp [hj]

/-! ## What a move keeps -/

omit [DecidableEq ι] in
theorem Sound.shrink (h : l.Sound note) (hf : l'.flag = l.flag) (hm : l'.mark = l.mark) (hn : l'.next = l.next)
    (hl : l'.lent ⊆ l.lent) (hs : ∀ j, l'.notes j ⊆ l.notes j) : l'.Sound note where
  flag := by
    rw [hf, hm]
    exact h.flag
  marked := by
    rw [hm, hn]
    exact h.marked
  lent := fun hc => by
    rw [hn]
    exact h.lent (hl hc)
  notes := fun hc => by
    rw [hn]
    exact h.notes (hs _ hc)
  apart := fun ha hc => by
    rw [hm] at ha
    exact h.apart ha (hl hc)

theorem Sound.removeNote (h : l.Sound note) : (l.removeNote i c).Sound note :=
  h.shrink rfl rfl rfl subset_rfl fun _ _ hc => (mem_removeNote.mp hc).1

theorem Sound.putMark (h : l.Sound note) (ha : note a = l.next) : (l.putMark note i a).Sound note where
  flag := fun j => by
    unfold Ledger.putMark
    by_cases hj : j = i
    · subst hj
      simp
    · simp [hj, h.flag j]
  marked := fun {j b} hb => by
    show note b < l.next + 1
    rcases mark_putMark.mp hb with ⟨-, rfl⟩ | ⟨-, hb⟩
    · omega
    · exact Nat.lt_succ_of_lt (h.marked hb)
  lent := fun hc => Nat.lt_succ_of_lt (h.lent hc)
  notes := fun hc => by
    rcases mem_putMark.mp hc with ⟨-, rfl⟩ | ⟨hc, -⟩
    · exact Nat.lt_succ_self _
    · exact Nat.lt_succ_of_lt (h.notes hc)
  apart := fun {j b} hb hc => by
    rcases mark_putMark.mp hb with ⟨-, rfl⟩ | ⟨-, hb⟩
    · have hlt := h.lent hc
      omega
    · exact h.apart hb hc

theorem Sound.dropMark (h : l.Sound note) : (l.dropMark note i).Sound note where
  flag := fun j => by
    unfold Ledger.dropMark
    by_cases hj : j = i
    · subst hj
      simp
    · simp [hj, h.flag j]
  marked := fun hb => h.marked (mark_dropMark.mp hb).2
  lent := h.lent
  notes := fun hc => h.notes (mem_dropMark.mp hc).1
  apart := fun hb => h.apart (mark_dropMark.mp hb).2

theorem Sound.write {lent : Set Nat} (h : l.Sound note) (hl : lent ⊆ insert l.next l.lent) : (l.write i lent).Sound note where
  flag := h.flag
  marked := fun hb => Nat.lt_succ_of_lt (h.marked hb)
  lent := fun hc => by
    rcases hl hc with rfl | hc
    · exact Nat.lt_succ_self _
    · exact Nat.lt_succ_of_lt (h.lent hc)
  notes := fun hc => by
    rcases mem_write.mp hc with hc | ⟨-, rfl⟩
    · exact Nat.lt_succ_of_lt (h.notes hc)
    · exact Nat.lt_succ_self _
  apart := fun hb hc => by
    rcases hl hc with he | hc
    · exact absurd (h.marked hb) (he ▸ Nat.lt_irrefl _)
    · exact h.apart hb hc

theorem Sound.move (h : l.Sound note) (hm : Move note marks frees deletes l l') : l'.Sound note := by
  cases hm with
  | mark _ ha => exact h.putMark ha
  | unmark _ => exact h.dropMark
  | write hl => exact h.write hl
  | release hl => exact h.shrink rfl rfl rfl hl fun _ => subset_rfl
  | free _ _ => exact h.removeNote
  | delete _ => exact h.removeNote

theorem Sound.moves (h : l.Sound note) (hm : Moves note marks frees deletes l l') : l'.Sound note := by
  induction hm with
  | refl => exact h
  | tail _ hm ih => exact ih.move hm

omit [DecidableEq ι] in
theorem Since.refl (l : Ledger ι α) : Since note marks frees deletes l l where
  next := le_rfl
  lent := Or.inl
  notes := Or.inl
  mark := Or.inl
  kept := fun {i a} ha => by
    by_cases hc : note a ∈ l.notes i
    · exact Or.inl hc
    · exact Or.inr (Or.inr ⟨ha, hc⟩)
  gone := fun ha hne => absurd ha hne
  only := fun hc hn => absurd hc hn

section
variable (hs : Since note marks frees deletes l₀ l) (h₀ : l₀.Sound note) (h : l.Sound note)
include hs h₀

omit [DecidableEq ι] in
theorem Since.fresh (ha : l₀.mark i = some a) : note a ≠ l.next := by
  have h1 := h₀.marked ha
  have h2 := hs.next
  omega

omit [DecidableEq ι] in
theorem Since.old_mark (hc : note a ∈ l₀.notes i) (ha : l.mark i = some a) : l₀.mark i = some a := by
  rcases hs.mark ha with ha | ⟨hle, -⟩
  · exact ha
  · have hlt := h₀.notes hc
    omega

include h

theorem Since.removeNote (hp : (frees ∧ c ∈ l.lent) ∨ deletes i c) :
    Since note marks frees deletes l₀ (l.removeNote i c) where
  next := hs.next
  lent := hs.lent
  notes := fun hc => hs.notes (mem_removeNote.mp hc).1
  mark := hs.mark
  kept := fun {j a} ha => by
    rcases hs.kept ha with hn | hd
    · by_cases hc : j = i ∧ note a = c
      · obtain ⟨rfl, rfl⟩ := hc
        rcases hp with ⟨-, hl⟩ | hd
        · exact absurd hl (h.apart ha)
        · exact Or.inr (Or.inl hd)
      · exact Or.inl (mem_removeNote.mpr ⟨hn, hc⟩)
    · exact Or.inr hd
  gone := fun ha hne hc => hs.gone ha hne (mem_removeNote.mp hc).1
  only := fun {j d} hd hn => by
    by_cases hl : d ∈ l.notes j
    · have hc : j = i ∧ d = c := by
        by_contra hne
        exact hn (mem_removeNote.mpr ⟨hl, hne⟩)
      obtain ⟨rfl, rfl⟩ := hc
      rcases hp with ⟨hf, hl⟩ | hdel
      · rcases hs.lent hl with hl | hle
        · exact Or.inr (Or.inl ⟨hf, hl⟩)
        · have hlt := h₀.notes hd
          omega
      · exact Or.inr (Or.inr hdel)
    · exact hs.only hd hl

omit h in
theorem Since.write {lent : Set Nat} (hl : lent ⊆ insert l.next l.lent) :
    Since note marks frees deletes l₀ (l.write i lent) where
  next := Nat.le_succ_of_le hs.next
  lent := fun hc => by
    rcases hl hc with rfl | hc
    · exact Or.inr hs.next
    · exact hs.lent hc
  notes := fun hc => by
    rcases mem_write.mp hc with hc | ⟨-, rfl⟩
    · exact hs.notes hc
    · exact Or.inr hs.next
  mark := hs.mark
  kept := fun ha => (hs.kept ha).imp_left fun hc => mem_write.mpr (Or.inl hc)
  gone := fun ha hne hc => by
    rcases mem_write.mp hc with hc | ⟨-, he⟩
    · exact hs.gone ha hne hc
    · exact hs.fresh h₀ ha he
  only := fun hd hn => hs.only hd fun hl => hn (mem_write.mpr (Or.inl hl))

omit [DecidableEq ι] in
theorem Since.taken (hd : c ∈ l₀.notes i) (hc : c ∈ l.own note i) :
    ∃ a, l₀.mark i = some a ∧ l.mark i = some a ∧ note a = c := by
  obtain ⟨a, ha, rfl⟩ := (mem_own h).mp hc
  exact ⟨a, hs.old_mark h₀ hd ha, ha, rfl⟩

theorem Since.putMark (hi : marks i) (ha : note a = l.next) : Since note marks frees deletes l₀ (l.putMark note i a) where
  next := Nat.le_succ_of_le hs.next
  lent := hs.lent
  notes := fun hc => by
    rcases mem_putMark.mp hc with ⟨-, rfl⟩ | ⟨hc, -⟩
    · exact Or.inr hs.next
    · exact hs.notes hc
  mark := fun hb => by
    rcases mark_putMark.mp hb with ⟨rfl, rfl⟩ | ⟨-, hb⟩
    · exact Or.inr ⟨ha ▸ hs.next, hi⟩
    · exact hs.mark hb
  kept := fun {j b} hb => by
    rcases mark_putMark.mp hb with ⟨rfl, rfl⟩ | ⟨hne, hb⟩
    · exact Or.inl (mem_putMark.mpr (Or.inl ⟨rfl, ha⟩))
    · exact (hs.kept hb).imp_left fun hc => mem_putMark.mpr (Or.inr ⟨hc, fun e => hne e.1⟩)
  gone := fun {j b} hb hne hc => by
    rcases mem_putMark.mp hc with ⟨-, he⟩ | ⟨hc, hown⟩
    · exact hs.fresh h₀ hb he
    · by_cases hl : l.mark j = some b
      · by_cases hj : j = i
        · exact hown ⟨hj, by rw [← hj]; exact (mem_own h).mpr ⟨b, hl, rfl⟩⟩
        · exact hne (mark_putMark.mpr (Or.inr ⟨hj, hl⟩))
      · exact hs.gone hb hl hc
  only := fun {j d} hd hn => by
    by_cases hl : d ∈ l.notes j
    · have hc : j = i ∧ d ∈ l.own note i := by
        by_contra hne
        exact hn (mem_putMark.mpr (Or.inr ⟨hl, hne⟩))
      obtain ⟨rfl, hc⟩ := hc
      obtain ⟨b, hb0, hb, rfl⟩ := hs.taken h₀ h hd hc
      refine Or.inl ⟨b, hb0, rfl, fun e => ?_⟩
      rcases mark_putMark.mp e with ⟨-, rfl⟩ | ⟨hne, -⟩
      · exact hs.fresh h₀ hb0 ha
      · exact hne rfl
    · refine (hs.only hd hl).imp_left fun ⟨b, hb0, hb, hne⟩ => ⟨b, hb0, hb, fun e => ?_⟩
      rcases mark_putMark.mp e with ⟨-, rfl⟩ | ⟨-, e⟩
      · exact hs.fresh h₀ hb0 ha
      · exact hne e

theorem Since.dropMark : Since note marks frees deletes l₀ (l.dropMark note i) where
  next := hs.next
  lent := hs.lent
  notes := fun hc => hs.notes (mem_dropMark.mp hc).1
  mark := fun hb => hs.mark (mark_dropMark.mp hb).2
  kept := fun {j b} hb => by
    obtain ⟨hne, hb⟩ := mark_dropMark.mp hb
    exact (hs.kept hb).imp_left fun hc => mem_dropMark.mpr ⟨hc, fun e => hne e.1⟩
  gone := fun {j b} hb hne hc => by
    obtain ⟨hc, hown⟩ := mem_dropMark.mp hc
    by_cases hl : l.mark j = some b
    · by_cases hj : j = i
      · exact hown ⟨hj, by rw [← hj]; exact (mem_own h).mpr ⟨b, hl, rfl⟩⟩
      · exact hne (mark_dropMark.mpr ⟨hj, hl⟩)
    · exact hs.gone hb hl hc
  only := fun {j d} hd hn => by
    by_cases hl : d ∈ l.notes j
    · have hc : j = i ∧ d ∈ l.own note i := by
        by_contra hne
        exact hn (mem_dropMark.mpr ⟨hl, hne⟩)
      obtain ⟨rfl, hc⟩ := hc
      obtain ⟨b, hb0, -, rfl⟩ := hs.taken h₀ h hd hc
      exact Or.inl ⟨b, hb0, rfl, fun e => (mark_dropMark.mp e).1 rfl⟩
    · exact (hs.only hd hl).imp_left fun ⟨b, hb0, hb, hne⟩ => ⟨b, hb0, hb, fun e => hne (mark_dropMark.mp e).2⟩

theorem Since.move (hm : Move note marks frees deletes l l') : Since note marks frees deletes l₀ l' := by
  cases hm with
  | mark hi ha => exact hs.putMark h₀ h hi ha
  | unmark _ => exact hs.dropMark h₀ h
  | write hl => exact hs.write h₀ hl
  | release hl => exact ⟨hs.next, fun hc => hs.lent (hl hc), hs.notes, hs.mark, hs.kept, hs.gone, hs.only⟩
  | free hf hl => exact hs.removeNote h₀ h (Or.inl ⟨hf, hl⟩)
  | delete hd => exact hs.removeNote h₀ h (Or.inr hd)

end

theorem since_of_moves (h₀ : l₀.Sound note) (hm : Moves note marks frees deletes l₀ l) :
    Since note marks frees deletes l₀ l := by
  induction hm with
  | refl => exact Since.refl l₀
  | tail hm h ih => exact ih.move h₀ (h₀.moves hm) h

theorem Moves.mono {marks' : ι → Prop} (hm : Moves note marks frees deletes l l') (hi : ∀ i, marks i → marks' i) :
    Moves note marks' frees deletes l l' := by
  refine Relation.ReflTransGen.mono (fun l l' h => ?_) l l' hm
  cases h with
  | mark h ha => exact .mark (hi _ h) ha
  | unmark h => exact .unmark h
  | write h => exact .write h
  | release h => exact .release h
  | free hf h => exact .free hf h
  | delete h => exact .delete h

end

end Ledger

end Alignak
