import Alignak.Patterns
import Mathlib.Data.List.Forall2

/-!
# Patterns with spaces

A pattern whose texts are each followed by a space, where none of them takes a
space itself, is found in a text only where the parts of the text between its
spaces follow one another as in the pattern.
-/

namespace Alignak

namespace Pattern

def spaced (texts : List Pattern) : Pattern := texts.flatMap (· ++ [.char ' '])

theorem spaced_cons (t : Pattern) (ts : List Pattern) (ps : Pattern) :
    spaced (t :: ts) ++ ps = t ++ (Piece.char ' ' :: (spaced ts ++ ps)) := by
  simp [spaced]

def Accepts (t : Pattern) (x : List Char) : Prop := ∃ xs, Fits t xs ∧ x = xs.flatten

abbrev NoSpace (t : Pattern) : Prop := ∀ p ∈ t, p.cls ' ' = false

def accepts : Pattern → List Char → Bool
  | [p], x => x.all p.cls && decide (p.least ≤ x.length) && p.most.all fun m => decide (x.length ≤ m)
  | _, _ => true

def joined : List (List Char) → List Char → List Char
  | [], s => s
  | x :: xs, s => x ++ ' ' :: joined xs s

section
variable {t : Pattern} {ts : List Pattern} {p : Piece} {ps : Pattern} {x y s rest pre : List Char} {xs ys zs : List (List Char)}

theorem takes_char {c : Char} : (Piece.char c).Takes x ↔ x = [c] := by
  constructor
  · intro h
    obtain ⟨hmem, hleast, hmost⟩ := h
    obtain ⟨d, rfl⟩ := List.length_eq_one_iff.mp (le_antisymm (hmost 1 rfl) hleast)
    simpa [Piece.char] using hmem d List.mem_cons_self
  · rintro rfl
    exact ⟨by simp [Piece.char], le_refl 1, by simp [Piece.char]⟩

theorem accepts_of_Accepts (h : Accepts t x) : accepts t x = true := by
  obtain ⟨xs, hfits, rfl⟩ := h
  rcases t with _ | ⟨p, _ | ⟨p', t⟩⟩
  · rfl
  · obtain ⟨y, ys, hy, hys, rfl⟩ := List.forall₂_cons_left_iff.mp hfits
    obtain ⟨hmem, hleast, hmost⟩ := hy
    obtain rfl : ys = [] := by simpa using hys
    cases hm : p.most with
    | none => simpa [accepts, hm, hleast] using hmem
    | some m => simpa [accepts, hm, hleast, hmost m hm] using hmem
  · rfl

theorem fits_append (h : Fits (t ++ ps) xs) : ∃ ys zs, xs = ys ++ zs ∧ Fits t ys ∧ Fits ps zs := by
  induction t generalizing xs with
  | nil => exact ⟨[], xs, rfl, .nil, h⟩
  | cons p t ih =>
    obtain ⟨y, ys, hy, hys, rfl⟩ := List.forall₂_cons_left_iff.mp h
    obtain ⟨ys, zs, rfl, hys, hzs⟩ := ih hys
    exact ⟨y :: ys, zs, rfl, .cons hy hys, hzs⟩

theorem notMem_of_Accepts (hns : NoSpace t) (h : Accepts t x) : ' ' ∉ x := by
  obtain ⟨xs, hfits, rfl⟩ := h
  induction hfits with
  | nil => simp
  | cons hy _ ih =>
    rw [List.flatten_cons, List.mem_append, not_or]
    refine ⟨fun hmem => ?_, ih fun p hp => hns p (List.mem_cons_of_mem _ hp)⟩
    have hcls := hy.mem _ hmem
    rw [hns _ List.mem_cons_self] at hcls
    cases hcls

theorem joined_of_fits (h : Fits (spaced ts ++ ps) xs) :
    ∃ ys zs, List.Forall₂ Accepts ts ys ∧ Fits ps zs ∧ xs.flatten = joined ys zs.flatten := by
  induction ts generalizing xs with
  | nil => exact ⟨[], xs, .nil, h, rfl⟩
  | cons t ts ih =>
    rw [spaced_cons] at h
    obtain ⟨us, vs, rfl, hus, hvs⟩ := fits_append h
    obtain ⟨v, ws, hv, hws, rfl⟩ := List.forall₂_cons_left_iff.mp hvs
    obtain ⟨ys, zs, hys, hzs, hjoined⟩ := ih hws
    refine ⟨us.flatten :: ys, zs, .cons ⟨us, hus, rfl⟩ hys, hzs, ?_⟩
    rw [List.flatten_append, List.flatten_cons, takes_char.mp hv, hjoined]
    rfl

theorem splitOn_joined (h : ∀ y ∈ ys, ' ' ∉ y) : (joined ys s).splitOn ' ' = ys ++ s.splitOn ' ' := by
  induction ys with
  | nil => rfl
  | cons y ys ih =>
    rw [joined, List.splitOn_append_cons_self, List.splitOn_eq_singleton (h y List.mem_cons_self),
      ih fun z hz => h z (List.mem_cons_of_mem _ hz)]
    rfl

theorem joined_append (ys : List (List Char)) (s rest : List Char) : joined ys s ++ rest = joined ys (s ++ rest) := by
  induction ys with
  | nil => rfl
  | cons y ys ih =>
    rw [joined, joined, List.append_assoc, List.cons_append, ih]

end

/-! ## Runs of texts -/

section
variable {α β : Type}

def startsWith : List (α → Bool) → List α → Bool
  | [], _ => true
  | _ :: _, [] => false
  | q :: qs, t :: ts => q t && startsWith qs ts

def runsIn (qs : List (α → Bool)) : List α → Bool
  | [] => startsWith qs []
  | t :: ts => startsWith qs (t :: ts) || runsIn qs ts

variable {qs qs' : List (α → Bool)} {ts us : List α}

theorem runsIn_of_startsWith (h : startsWith qs ts = true) : runsIn qs ts = true := by
  cases ts with
  | nil => exact h
  | cons t ts => rw [runsIn, h, Bool.true_or]

theorem runsIn_append (h : runsIn qs ts = true) : runsIn qs (us ++ ts) = true := by
  induction us with
  | nil => exact h
  | cons u us ih => rw [List.cons_append, runsIn, ih, Bool.or_true]

theorem startsWith_of_append (h : startsWith (qs ++ qs') ts = true) : startsWith qs ts = true := by
  induction qs generalizing ts with
  | nil => rfl
  | cons q qs ih =>
    cases ts with
    | nil => cases h
    | cons t ts =>
      simp only [List.cons_append, startsWith, Bool.and_eq_true] at h ⊢
      exact ⟨h.1, ih h.2⟩

theorem runsIn_of_append (h : runsIn (qs ++ qs') ts = true) : runsIn qs ts = true := by
  induction ts with
  | nil => exact startsWith_of_append h
  | cons t ts ih =>
    simp only [runsIn, Bool.or_eq_true] at h ⊢
    exact h.imp startsWith_of_append ih

/-- The conditions on some values hold of what stands for the values. -/
abbrev Implied (R : β → α → Prop) (qs : List (α → Bool)) (qs' : List (β → Bool)) : Prop :=
  List.Forall₂ (fun q q' => ∀ {k x}, R k x → q x = true → q' k = true) qs qs'

theorem startsWith_implied {R : β → α → Prop} {qs' : List (β → Bool)} {ks : List β} (hqs : Implied R qs qs') (hts : List.Forall₂ R ks ts)
    (h : startsWith qs ts = true) : startsWith qs' ks = true := by
  induction hqs generalizing ts ks with
  | nil => rfl
  | cons hq _ ih =>
    cases hts with
    | nil => cases h
    | cons hk hts =>
      simp only [startsWith, Bool.and_eq_true] at h ⊢
      exact ⟨hq hk h.1, ih hts h.2⟩

theorem runsIn_implied {R : β → α → Prop} {qs' : List (β → Bool)} {ks : List β} (hqs : Implied R qs qs') (hts : List.Forall₂ R ks ts)
    (h : runsIn qs ts = true) : runsIn qs' ks = true := by
  induction hts with
  | nil => exact startsWith_implied hqs .nil h
  | cons hk hts ih =>
    simp only [runsIn, Bool.or_eq_true] at h ⊢
    exact h.imp (startsWith_implied hqs (.cons hk hts)) ih

theorem startsWith_pad (ts : List α) {a : α} (m : Nat) {n : Nat} (hn : qs.length ≤ n) (h : startsWith qs (ts ++ List.replicate m a) = true) :
    startsWith qs (ts ++ List.replicate n a) = true := by
  induction qs generalizing ts m n with
  | nil => rfl
  | cons q qs ih =>
    cases ts with
    | cons t ts =>
      simp only [List.cons_append, startsWith, Bool.and_eq_true] at h ⊢
      exact ⟨h.1, ih ts m (by simp at hn; omega) h.2⟩
    | nil =>
      cases m with
      | zero => cases h
      | succ m =>
        cases n with
        | zero => simp at hn
        | succ n =>
          simp only [List.nil_append, List.replicate_succ, startsWith, Bool.and_eq_true] at h ⊢
          exact ⟨h.1, ih [] m (by simpa using hn) h.2⟩

theorem runsIn_pad {a : α} {m n : Nat} (hn : qs.length ≤ n) (h : runsIn qs (ts ++ List.replicate m a) = true) :
    runsIn qs (ts ++ List.replicate n a) = true := by
  induction ts with
  | nil =>
    rw [List.nil_append] at h ⊢
    apply runsIn_of_startsWith
    induction m with
    | zero => exact startsWith_pad [] 0 hn h
    | succ m ih =>
      rw [List.replicate_succ, runsIn, Bool.or_eq_true] at h
      rcases h with h | h
      · exact startsWith_pad [] (m + 1) hn h
      · exact ih h
  | cons t ts ih =>
    simp only [List.cons_append, runsIn, Bool.or_eq_true] at h ⊢
    exact h.imp (startsWith_pad (t :: ts) m hn) ih

end

section
variable {t : Pattern} {ts : List Pattern} {ps : Pattern} {q : List Char → Bool} {s : List Char} {ys us : List (List Char)}

theorem startsWith_accepted (h : List.Forall₂ Accepts ts ys) (hq : startsWith [q] us = true) :
    startsWith (ts.map accepts ++ [q]) (ys ++ us) = true := by
  induction h with
  | nil => exact hq
  | cons hy _ ih => simp [startsWith, accepts_of_Accepts hy, ih]

theorem notMem_of_accepted (hns : ∀ t ∈ ts, NoSpace t) (h : List.Forall₂ Accepts ts ys) : ∀ y ∈ ys, ' ' ∉ y := by
  induction h with
  | nil => simp
  | cons hy _ ih =>
    rw [List.forall_mem_cons] at hns ⊢
    exact ⟨notMem_of_Accepts hns.1 hy, ih hns.2⟩

theorem runsIn_of_search (hns : ∀ u ∈ t :: ts, NoSpace u)
    (hq : ∀ zs rest, Fits ps zs → startsWith [q] ((zs.flatten ++ rest).splitOn ' ') = true)
    (h : search (spaced (t :: ts) ++ ps) s ≠ none) : runsIn (ts.map accepts ++ [q]) (s.splitOn ' ').tail = true := by
  obtain ⟨xs, hxs⟩ := Option.ne_none_iff_exists'.mp h
  obtain ⟨hfits, pre, rest, rfl⟩ := fits_of_search hxs
  obtain ⟨ys, zs, hys, hzs, hjoined⟩ := joined_of_fits hfits
  obtain ⟨y, us, hy, hus, rfl⟩ := List.forall₂_cons_left_iff.mp hys
  have hspace := notMem_of_accepted (fun u hu => hns u (List.mem_cons_of_mem _ hu)) hus
  have hsplit : (pre ++ xs.flatten ++ rest).splitOn ' ' = (pre ++ y).splitOn ' ' ++ (us ++ (zs.flatten ++ rest).splitOn ' ') := by
    rw [hjoined, List.append_assoc, joined_append, joined, ← List.append_assoc, List.splitOn_append_cons_self,
      splitOn_joined hspace]
  rw [hsplit, List.tail_append_of_ne_nil (List.splitOn_ne_nil _ _)]
  exact runsIn_append (runsIn_of_startsWith (startsWith_accepted hus (hq zs rest hzs)))

theorem search_eq_none (hns : ∀ u ∈ t :: ts, NoSpace u)
    (h : runsIn (ts.map accepts) (s.splitOn ' ').tail = false) : search (spaced (t :: ts) ++ ps) s = none := by
  by_contra hfound
  have hruns := runsIn_of_search (q := fun _ => true) hns (fun zs rest _ => ?_) hfound
  · rw [runsIn_of_append hruns] at h
    cases h
  · obtain ⟨x, xs, hx⟩ := List.exists_cons_of_ne_nil (List.splitOn_ne_nil ' ' (zs.flatten ++ rest))
    rw [hx]
    rfl

end

/-! ## Matches -/

section
variable {ts : List Pattern} {p : Piece} {ps : Pattern} {x s : List Char} {xs : List (List Char)}

theorem atStart_char {c : Char} (h : atStart ps s = some xs) : atStart (Piece.char c :: ps) (c :: s) = some ([c] :: xs) :=
  atStart_cons (takes_char.mpr rfl) (.inl rfl) h

theorem atStart_spaced (hns : p.cls ' ' = false) (hx : p.Takes x) (h : atStart (spaced ts ++ ps) s = some xs) :
    atStart (spaced ([p] :: ts) ++ ps) (x ++ ' ' :: s) = some (x :: [' '] :: xs) := by
  rw [spaced_cons]
  apply atStart_cons hx
  · right
    intro c hc
    cases hc
    exact hns
  · exact atStart_char h

end

end Pattern

end Alignak
