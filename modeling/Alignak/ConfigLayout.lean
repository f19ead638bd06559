import Alignak.CommandFields
import Alignak.LineCuts

/-!
# Layouts of a configuration buffer

A text of the configuration may be spread over several lines of the buffer, each
with white space around its part and a comment behind it.
-/

namespace Alignak.ConfigBuffer

open ExternalCommandManager

structure Blanks where
  text : Text
  blank : Blank text
  unbroken : '\n' ∉ text

def commentText (comment : Option Text) : Text := comment.elim [] fun c => ';' :: c

def continuation (more : Bool) : Text := if more then ['\\'] else []

structure Part (more : Bool) where
  before : Blanks
  text : Text
  after : Blanks
  comment : Option Text
  starts : EndsSpan isSpace text
  ends : more = false → ∀ c, text.getLast? = some c → isSpace c = false ∧ c ≠ '\\'
  apart : more = true → comment ≠ none → after.text ≠ []
  unbroken : '\n' ∉ text ∧ ∀ c ∈ comment, '\n' ∉ c

section
variable {more : Bool} (p : Part more)

def Part.body : Text := p.before.text ++ (p.text ++ continuation more) ++ p.after.text

def Part.raw : Text := escapeSemicolons p.body ++ commentText p.comment

end

structure Spread where
  parts : List (Part true)
  last : Part false
  unmarked : ∀ l ∈ parts.map Part.raw ++ [last.raw], fileMark.isPrefixOf l = false

def Spread.lines (s : Spread) : List Text := s.parts.map Part.raw ++ [s.last.raw]

def Spread.text (s : Spread) : Text := s.parts.flatMap Part.text ++ s.last.text

/-! ## One line -/

section
variable {more : Bool} (p : Part more)

theorem read_comment {body : Text} {comment : Option Text} (h : comment ≠ none → ¬ EndsEscaping body) :
    (splitSemicolon (escapeSemicolons body ++ commentText comment) none).headD [] = body := by
  rw [splitSemicolon_from, joinFrom_field, List.nil_append]
  cases comment with
  | none => simp [commentText, joinFrom_nil]
  | some c =>
    have hpos : ∀ l : Text, ¬ (l.splitOn ';').length ≤ 0 := fun l hl =>
      List.splitOn_ne_nil _ _ (List.length_eq_zero_iff.mp (Nat.le_zero.mp hl))
    simp only [commentText, Option.elim_some, Option.getD_none]
    rw [joinFrom_semicolon, if_neg (h (Option.some_ne_none c)), if_neg (hpos _)]
    rfl

theorem backslash_not_isSpace : isSpace '\\' = false := by decide

theorem Part.marked_starts : EndsSpan isSpace (p.text ++ continuation more) := by
  cases ht : p.text with
  | cons c text =>
    apply EndsSpan.cons
    apply p.starts
    rw [ht]
    rfl
  | nil =>
    cases more with
    | true => exact EndsSpan.cons backslash_not_isSpace _
    | false => exact EndsSpan.nil

theorem Part.marked_ends {c : Char} (h : (p.text ++ continuation more).getLast? = some c) : isSpace c = false := by
  cases more with
  | true =>
    simp only [continuation, if_pos, List.getLast?_append, List.getLast?_singleton, Option.some_or, Option.some.injEq] at h
    rw [← h]
    exact backslash_not_isSpace
  | false =>
    simp only [continuation, Bool.false_eq_true, if_false, List.append_nil] at h
    exact (p.ends rfl c h).1

theorem strip_body : strip p.body = p.text ++ continuation more := by
  unfold Part.body
  by_cases hnil : p.text ++ continuation more = []
  · rw [hnil, List.append_nil]
    apply strip_blank
    intro c hc
    rcases List.mem_append.mp hc with h | h
    · exact p.before.blank c h
    · exact p.after.blank c h
  · apply Stripped.strip_around _ p.before.blank p.after.blank
    exact ⟨hnil, fun h => p.marked_starts _ (List.head?_eq_some_head h),
      fun h => p.marked_ends (List.getLast?_eq_some_getLast h)⟩

theorem blank_not_escaping {w : Text} (hw : Blank w) : ¬ EndsEscaping w := by
  intro h
  have hs := hw _ (List.mem_of_getLast? h)
  rw [backslash_not_isSpace] at hs
  exact Bool.noConfusion hs

theorem body_not_escaping (h : p.comment ≠ none) : ¬ EndsEscaping p.body := by
  have hafter := blank_not_escaping p.after.blank
  have hbefore := blank_not_escaping p.before.blank
  cases more with
  | true =>
    intro hl
    unfold EndsEscaping Part.body at hl
    rw [List.getLast?_append_of_ne_nil _ (p.apart rfl h)] at hl
    exact hafter hl
  | false =>
    apply endsEscaping_append _ hafter
    apply endsEscaping_append hbefore
    intro hl
    rw [continuation, if_neg Bool.false_ne_true, List.append_nil] at hl
    exact (p.ends rfl _ hl).2 rfl

theorem Part.reads : strip ((splitSemicolon p.raw none).headD []) = p.text ++ continuation more := by
  unfold Part.raw
  rw [read_comment (body_not_escaping p), strip_body]

end

/-! ## The lines of a text -/

theorem isContinued_marked (text : Text) : isContinued (text ++ ['\\']) = true := by
  unfold isContinued
  rw [List.rdropWhile_concat_neg _ _ _ (by simp [backslash_not_isSpace])]
  simp

theorem continued_marked {text : Text} (h : EndsSpan isSpace text) : continued (text ++ ['\\']) = text := by
  unfold continued
  rw [List.rdropWhile_concat_neg _ _ _ (by simp [backslash_not_isSpace]), List.dropLast_concat]
  cases text with
  | nil => rfl
  | cons c text => simp [h c rfl]

theorem last_not_continued (p : Part false) : isContinued p.text = false := by
  unfold isContinued
  rw [List.rdropWhile_eq_self_iff.mpr]
  · rw [← Bool.not_eq_true, beq_iff_eq]
    exact fun hl => (p.ends rfl _ hl).2 rfl
  · intro hne
    rw [(p.ends rfl _ (List.getLast?_eq_some_getLast hne)).1]
    exact Bool.false_ne_true

section
variable {s : Reading}

theorem readLine_part (p : Part true) (hm : fileMark.isPrefixOf p.raw = false) :
    s.readLine p.raw = { s with lineNb := s.lineNb + 1, continuationLine := true, tmpLine := s.tmpLine ++ p.text } := by
  have hr : strip ((splitSemicolon p.raw none).headD []) = p.text ++ ['\\'] := p.reads
  unfold Reading.readLine
  rw [if_neg (by rw [hm]; exact Bool.false_ne_true)]
  simp only [hr, isContinued_marked, if_pos, continued_marked p.starts]

theorem readLine_last (p : Part false) (hm : fileMark.isPrefixOf p.raw = false)
    (h : s.continuationLine = false → s.tmpLine = []) : s.readLine p.raw = Reading.readComplete
      { s with lineNb := s.lineNb + 1, continuationLine := false, tmpLine := [] } (s.tmpLine ++ p.text) := by
  have hr : strip ((splitSemicolon p.raw none).headD []) = p.text := by
    rw [p.reads, continuation, if_neg Bool.false_ne_true, List.append_nil]
  unfold Reading.readLine
  rw [if_neg (by rw [hm]; exact Bool.false_ne_true)]
  simp only [hr, last_not_continued, Bool.false_eq_true, if_false]
  split
  · rw [dropWhile_of_endsSpan p.starts]
  · rename_i hc
    have hfalse : s.continuationLine = false := by simpa using hc
    simp only [h hfalse, hfalse, List.nil_append]

theorem readLines_parts {parts : List (Part true)} (hm : ∀ l ∈ parts.map Part.raw, fileMark.isPrefixOf l = false) :
    (parts.map Part.raw).foldl Reading.readLine s =
      { s with
        lineNb := s.lineNb + parts.length
        continuationLine := s.continuationLine || !parts.isEmpty
        tmpLine := s.tmpLine ++ parts.flatMap Part.text } := by
  induction parts generalizing s with
  | nil => simp
  | cons p parts ih =>
    rw [List.map_cons, List.foldl_cons, readLine_part p (hm _ List.mem_cons_self),
      ih fun l hl => hm l (List.mem_cons_of_mem _ hl)]
    simp only [List.length_cons, List.isEmpty_cons, List.flatMap_cons, List.append_assoc, Nat.add_assoc, Nat.add_comm 1,
      Bool.true_or, Bool.not_false, Bool.or_true]

theorem readLines_spread (t : Spread) (hc : s.continuationLine = false) (ht : s.tmpLine = []) :
    t.lines.foldl Reading.readLine s =
      Reading.readComplete { s with lineNb := s.lineNb + t.lines.length } t.text := by
  unfold Spread.lines
  rw [List.foldl_append, readLines_parts fun l hl => t.unmarked l (List.mem_append_left _ hl), List.foldl_cons,
    List.foldl_nil, readLine_last t.last (t.unmarked _ (by simp))]
  · simp [hc, ht, Spread.text, Nat.add_assoc]
  · intro h
    have hnil : t.parts = [] := by simpa [hc] using h
    rw [hnil, ht]
    rfl

end

/-! ## Blocks -/

inductive Idle
  | blank (line : Spread) (empty : line.text = [])
  | comment (line : Spread) (hash : line.text.head? = some '#')
  | file (path : Text) (spaceless : ∀ c ∈ path, isSpace c = false)

def Idle.lines : Idle → List Text
  | .blank line _ => line.lines
  | .comment line _ => line.lines
  | .file path _ => [fileMark ++ path]

inductive Chunk (α : Type)
  | idle (i : Idle)
  | item (a : α)

def Chunk.lines {α : Type} (f : α → List Text) : Chunk α → List Text
  | .idle i => i.lines
  | .item a => f a

def Chunk.content? {α : Type} : Chunk α → Option α
  | .idle _ => none
  | .item a => some a

def contents {α : Type} (chunks : List (Chunk α)) : List α := chunks.filterMap Chunk.content?

structure Entry where
  line : Spread
  name : Text
  sep : Text
  value : Text
  after : Blanks
  text_eq : line.text = name ++ (sep ++ (value ++ after.text))
  name_ne : name ≠ []
  name_word : ∀ c ∈ name, isSpace c = false
  sep_ne : sep ≠ []
  sep_gap : ∀ c ∈ sep, c = ' ' ∨ c = '\t'
  stripped : Stripped value

inductive Opening (type : Text)
  | brace (line : Spread) (gap gap' after : Blanks) (ne : gap.text ≠ [])
      (text_eq : line.text = defineText ++ (gap.text ++ (type ++ (gap'.text ++ '{' :: after.text))))
  | next (line : Spread) (gap after : Blanks) (ne : gap.text ≠ [])
      (text_eq : line.text = defineText ++ (gap.text ++ (type ++ after.text)))
      (idle : List Idle) (alone : Spread) (after' : Blanks) (alone_eq : alone.text = '{' :: after'.text)

def Opening.lines {type : Text} : Opening type → List Text
  | .brace line _ _ _ _ _ => line.lines
  | .next line _ _ _ _ idle alone _ _ => line.lines ++ (idle.flatMap Idle.lines ++ alone.lines)

structure Block where
  type : Text
  type_ne : type ≠ []
  type_word : ∀ c ∈ type, isSpace c = false ∧ c ≠ '{'
  opening : Opening type
  items : List (Chunk Entry)
  close : Spread
  after : Blanks
  close_eq : close.text = '}' :: after.text

def Block.entries (b : Block) : List Entry := contents b.items

def Entry.lines (e : Entry) : List Text := e.line.lines

def Block.lines (b : Block) : List Text := b.opening.lines ++ (b.items.flatMap (Chunk.lines Entry.lines) ++ b.close.lines)

def layoutLines (layout : List (Chunk Block)) : List Text := layout.flatMap (Chunk.lines Block.lines)

def buffer (layout : List (Chunk Block)) : Text := ['\n'].intercalate (layoutLines layout)

/-! ## The lines of the buffer -/

theorem mem_escapeSemicolons {c : Char} {text : Text} (hc : c ≠ '\\') (h : c ∈ escapeSemicolons text) : c ∈ text := by
  obtain ⟨d, hd, hm⟩ := List.mem_flatMap.mp h
  by_cases hs : d = ';'
  · rw [if_pos hs] at hm
    obtain rfl : c = ';' := by simpa [hc] using hm
    exact hs ▸ hd
  · rw [if_neg hs, List.mem_singleton] at hm
    exact hm ▸ hd

theorem Part.raw_unbroken {more : Bool} (p : Part more) : '\n' ∉ p.raw := by
  intro h
  rcases List.mem_append.mp h with h | h
  · rcases List.mem_append.mp (mem_escapeSemicolons (by decide) h) with h | h
    · rcases List.mem_append.mp h with h | h
      · exact p.before.unbroken h
      · rcases List.mem_append.mp h with h | h
        · exact p.unbroken.1 h
        · cases more <;> simp [continuation] at h
    · exact p.after.unbroken h
  · cases hc : p.comment with
    | none => simp [hc, commentText] at h
    | some c =>
      rw [hc] at h
      exact p.unbroken.2 c hc (by simpa [commentText] using h)

theorem Spread.lines_unbroken (s : Spread) : ∀ l ∈ s.lines, '\n' ∉ l := by
  intro l hl
  rcases List.mem_append.mp hl with hl | hl
  · obtain ⟨p, _, rfl⟩ := List.mem_map.mp hl
    exact p.raw_unbroken
  · rw [List.mem_singleton.mp hl]
    exact s.last.raw_unbroken

theorem Idle.lines_unbroken (i : Idle) : ∀ l ∈ i.lines, '\n' ∉ l := by
  cases i with
  | blank line empty => exact line.lines_unbroken
  | comment line hash => exact line.lines_unbroken
  | file path spaceless =>
    intro l hl hn
    rw [List.mem_singleton.mp hl] at hn
    rcases List.mem_append.mp hn with hn | hn
    · revert hn
      decide
    · exact absurd (spaceless _ hn) (by decide)

theorem chunks_unbroken {α : Type} {f : α → List Text} (hf : ∀ a, ∀ l ∈ f a, '\n' ∉ l) (chunks : List (Chunk α)) :
    ∀ l ∈ chunks.flatMap (Chunk.lines f), '\n' ∉ l := by
  intro l hl
  obtain ⟨chunk, _, hc⟩ := List.mem_flatMap.mp hl
  cases chunk with
  | idle i => exact i.lines_unbroken l hc
  | item a => exact hf a l hc

theorem Opening.lines_unbroken {type : Text} (o : Opening type) : ∀ l ∈ o.lines, '\n' ∉ l := by
  intro l hl
  cases o with
  | brace line => exact line.lines_unbroken l hl
  | next line _ _ _ _ idle alone =>
    rcases List.mem_append.mp hl with hl | hl
    · exact line.lines_unbroken l hl
    · rcases List.mem_append.mp hl with hl | hl
      · obtain ⟨i, _, hi⟩ := List.mem_flatMap.mp hl
        exact i.lines_unbroken l hi
      · exact alone.lines_unbroken l hl

theorem Block.lines_unbroken (b : Block) : ∀ l ∈ b.lines, '\n' ∉ l := by
  intro l hl
  rcases List.mem_append.mp hl with hl | hl
  · exact b.opening.lines_unbroken l hl
  · rcases List.mem_append.mp hl with hl | hl
    · exact chunks_unbroken (fun e => e.line.lines_unbroken) b.items l hl
    · exact b.close.lines_unbroken l hl

theorem splitOn_buffer {layout : List (Chunk Block)} (h : layoutLines layout ≠ []) :
    (buffer layout).splitOn '\n' = layoutLines layout :=
  List.splitOn_intercalate '\n' (chunks_unbroken Block.lines_unbroken layout) h

end Alignak.ConfigBuffer
