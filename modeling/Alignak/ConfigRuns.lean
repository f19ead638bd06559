import Alignak.ConfigLayout

/-!
# Reading the blocks of a buffer

From outside of any definition the lines of a block are read as its header, its
properties in order and its end. Idle lines only move the place in the file.
-/

namespace Alignak.ConfigBuffer

def Proper (name : Text) : Prop := ¬ defineText <+: name ∧ ∀ c ∈ name.head?, c ≠ '#' ∧ c ≠ '}'

/-! ## Complete lines -/

variable {w : Text} {s' : Reading}

section
variable {s : Reading} {c : Char} {l : Text}

theorem isPassed_cons (hs : isSpace c = false) (hc : c ≠ '#' ∧ c ≠ '}') : isPassed (c :: l) = false := by
  unfold isPassed
  rw [List.dropWhile_cons_of_neg (by simp [hs])]
  simp [hc.1, hc.2]

theorem readComplete_nil : s.readComplete [] = s := rfl

theorem readComplete_hash {line : Text} (h : line.head? = some '#') : s.readComplete line = s := by
  have hd : isSpace '#' = false := by decide
  cases line with
  | nil => exact nomatch h
  | cons c l =>
    obtain rfl : c = '#' := by simpa using h
    obtain ⟨l', hs, _⟩ := strip_cons hd l
    have hp : isPassed ('#' :: l) = true := by
      unfold isPassed
      rw [List.dropWhile_cons_of_neg (by simp [hd])]
      rfl
    unfold Reading.readComplete
    simp [hs, hp]

theorem readComplete_text {line : Text} (hclose : strip line ≠ ['}']) (hopen : strip line ≠ ['{'])
    (hp : isPassed line = false) :
    s.readComplete line = if defineText.isPrefixOf line then s.startDefine line else s.put line := by
  unfold Reading.readComplete
  simp only [if_neg hclose, if_neg fun h => hopen (And.left h), hp, Bool.false_eq_true, if_false]

theorem strip_single (hc : isSpace c = false) (hw : Blank w) : strip (c :: w) = [c] := by
  have hs : Stripped [c] := ⟨by simp, fun _ => hc, fun _ => hc⟩
  exact hs.strip_around blank_nil hw

theorem readComplete_close (hw : Blank w) : s.readComplete ('}' :: w) = { s with inDefine := false } := by
  have hs := strip_single (c := '}') (by decide) hw
  unfold Reading.readComplete
  simp only [hs, if_pos]
  rfl

theorem readComplete_open (hw : Blank w) (h : s.almostInDefine = true) :
    s.readComplete ('{' :: w) = { s with almostInDefine := false, inDefine := true } := by
  have hs := strip_single (c := '{') (by decide) hw
  unfold Reading.readComplete
  have hne : (['{'] : Text) ≠ ['}'] := by decide
  simp only [hs, if_neg hne, h, and_self, if_pos]

end

/-! ## The header -/

/-- `\s` as a space. -/
def spaced (l : Text) : Text := l.map fun c => if isSpace c then ' ' else c

theorem spaced_append (a b : Text) : spaced (a ++ b) = spaced a ++ spaced b := List.map_append

theorem spaced_cons {c : Char} (hc : isSpace c = false) (l : Text) : spaced (c :: l) = c :: spaced l := by
  unfold spaced
  rw [List.map_cons, hc, if_neg Bool.false_ne_true]

theorem blank_spaced (hw : Blank w) : Blank (spaced w) := by
  intro c hc
  obtain ⟨d, hd, rfl⟩ := List.mem_map.mp hc
  rw [if_pos (hw d hd)]
  rfl

theorem word_spaced (hw : ∀ c ∈ w, isSpace c = false) : spaced w = w := by
  induction w with
  | nil => rfl
  | cons c w ih => rw [spaced_cons (hw c List.mem_cons_self), ih fun d hd => hw d (List.mem_cons_of_mem _ hd)]

theorem typeOf_define {gap : Text} (hg : Blank gap) (hne : gap ≠ []) (rest : Text) :
    typeOf (defineText ++ (gap ++ rest)) = strip ((strip (spaced gap.tail ++ spaced rest)).takeWhile (· != '{')) := by
  obtain ⟨g, gap, rfl⟩ := List.exists_cons_of_ne_nil hne
  have hdefine : ∀ c ∈ defineText, (!isSpace c) = true := List.all_eq_true.mp (by decide)
  have hend : EndsSpan (fun c => !isSpace c) (g :: gap ++ rest) := EndsSpan.cons (by simp [hg g List.mem_cons_self]) _
  unfold typeOf
  rw [dropWhile_span hdefine hend, ← spaced_append]
  rfl

section
variable {type gap gap' after : Text} (ht : type ≠ []) (hw : ∀ c ∈ type, isSpace c = false ∧ c ≠ '{')
  (hg : Blank gap) (hne : gap ≠ []) (ha : Blank after)
include ht hw hg hne ha

theorem typeOf_next : typeOf (defineText ++ (gap ++ (type ++ after))) = type := by
  have hword : ∀ c ∈ type, isSpace c = false := fun c hc => (hw c hc).1
  have hs := word_stripped ht hword
  have htail : Blank gap.tail := fun c hc => hg c (List.mem_of_mem_tail hc)
  have htake := takeWhile_span (p := (· != '{')) (a := type) (b := []) (fun c hc => by simp [(hw c hc).2]) EndsSpan.nil
  rw [List.append_nil] at htake
  rw [typeOf_define hg hne, spaced_append, word_spaced hword, ← List.append_assoc,
    hs.strip_around (blank_spaced htail) (blank_spaced ha), htake]
  exact strip_of_ends (fun _ h => hword _ (List.mem_of_head? h)) fun _ h => hword _ (List.mem_of_getLast? h)

theorem typeOf_brace (hg' : Blank gap') :
    typeOf (defineText ++ (gap ++ (type ++ (gap' ++ '{' :: after)))) = type := by
  have hword : ∀ c ∈ type, isSpace c = false := fun c hc => (hw c hc).1
  have hs := word_stripped ht hword
  have htail : Blank gap.tail := fun c hc => hg c (List.mem_of_mem_tail hc)
  have hbrace : isSpace '{' = false := by decide
  have hlast : Stripped (type ++ spaced gap' ++ ['{']) := by
    obtain ⟨c, type, rfl⟩ := List.exists_cons_of_ne_nil ht
    exact ⟨by simp, fun _ => hword c List.mem_cons_self, fun h => by rw [List.getLast_concat]; exact hbrace⟩
  have hnot : ∀ c ∈ type ++ spaced gap', (c != '{') = true := by
    intro c hc
    rcases List.mem_append.mp hc with hc | hc
    · simpa using (hw c hc).2
    · rw [bne_iff_ne]
      rintro rfl
      rw [blank_spaced hg' _ hc] at hbrace
      exact Bool.noConfusion hbrace
  have htake := takeWhile_span hnot (EndsSpan.cons (c := '{') (by decide) [])
  have hstrip := hs.strip_around blank_nil (blank_spaced hg')
  rw [typeOf_define hg hne, spaced_append, word_spaced hword, spaced_append, spaced_cons hbrace]
  have hl := hlast.strip_around (blank_spaced htail) (blank_spaced ha)
  simp only [List.append_assoc, List.cons_append, List.nil_append] at hl htake hstrip ⊢
  rw [hl, htake, hstrip]

end

/-! ## The state between the lines -/

def Spaceless (path : Text) : Prop := ∀ c ∈ path, isSpace c = false

def Elsewhere (s s' : Reading) : Prop := ∃ n f, Spaceless f ∧ s' = { s with lineNb := n, fileFrom := f }

structure Ready (s : Reading) : Prop where
  single : s.continuationLine = false
  noLine : s.tmpLine = []
  path : Spaceless s.fileFrom

theorem Elsewhere.trans {s s'' : Reading} (h : Elsewhere s s') (h' : Elsewhere s' s'') : Elsewhere s s'' := by
  obtain ⟨n, f, _, rfl⟩ := h
  obtain ⟨n', f', hf', rfl⟩ := h'
  exact ⟨n', f', hf', rfl⟩

theorem mem_first_part {x c : Char} {l : Text} (h : c ∈ (l.splitOn x).headD []) : c ∈ l := by
  have hl : [x].intercalate (l.splitOn x) = l := List.intercalate_splitOn x
  cases hs : l.splitOn x with
  | nil => exact absurd hs (List.splitOn_ne_nil _ _)
  | cons part parts =>
    rw [hs] at hl h
    rw [← hl]
    cases parts with
    | nil => simpa [List.intercalate] using h
    | cons part' parts =>
      simp only [List.intercalate, List.intersperse, List.flatten_cons]
      exact List.mem_append_left _ h

theorem fileMark_splitOn (path : Text) : ((fileMark ++ path).splitOn '=').tail = path.splitOn '=' := by
  have hm : fileMark = "# imported_from".toList ++ ['='] := by decide
  rw [hm, List.append_assoc, List.singleton_append, List.splitOn_append_cons_self_of_not_mem (by decide), List.tail_cons]

theorem Elsewhere.inDefine {s : Reading} (h : Elsewhere s s') : s'.inDefine = s.inDefine := by
  obtain ⟨n, f, _, rfl⟩ := h
  rfl

theorem Elsewhere.put {s : Reading} (h : Elsewhere s s') (lines : List Text) :
    Elsewhere { s with tmp := s.tmp ++ lines } { s' with tmp := s'.tmp ++ lines } := by
  obtain ⟨n, f, hf, rfl⟩ := h
  exact ⟨n, f, hf, rfl⟩

section
variable {s : Reading} (hs : Ready s)
include hs

theorem Ready.here : Elsewhere s s := ⟨_, _, hs.path, rfl⟩

theorem Ready.elsewhere (h : Elsewhere s s') : Ready s' := by
  obtain ⟨n, f, hf, rfl⟩ := h
  exact ⟨hs.single, hs.noLine, hf⟩

theorem readLines_text (t : Spread) : t.lines.foldl Reading.readLine s =
    Reading.readComplete { s with lineNb := s.lineNb + t.lines.length } t.text := readLines_spread t hs.single hs.noLine

theorem readLines_idle (i : Idle) : Elsewhere s (i.lines.foldl Reading.readLine s) := by
  cases i with
  | blank line empty =>
    rw [Idle.lines, readLines_text hs, empty, readComplete_nil]
    exact ⟨_, _, hs.path, rfl⟩
  | comment line hash =>
    rw [Idle.lines, readLines_text hs, readComplete_hash hash]
    exact ⟨_, _, hs.path, rfl⟩
  | file path spaceless =>
    have hmark : fileMark.isPrefixOf (fileMark ++ path) = true := by
      rw [List.isPrefixOf_iff_prefix]
      exact List.prefix_append _ _
    rw [Idle.lines, List.foldl_cons, List.foldl_nil, Reading.readLine, if_pos hmark]
    refine ⟨_, _, fun c hc => ?_, rfl⟩
    rw [fileMark_splitOn] at hc
    exact spaceless c (mem_first_part hc)

end

theorem readLines_idles {s : Reading} (hs : Ready s) (idle : List Idle) :
    Elsewhere s ((idle.flatMap Idle.lines).foldl Reading.readLine s) := by
  induction idle generalizing s with
  | nil => exact hs.here
  | cons i idle ih =>
    rw [List.flatMap_cons, List.foldl_append]
    have h := readLines_idle hs i
    exact h.trans (ih (hs.elsewhere h))

/-! ## The properties of a block -/

section
variable (e : Entry)

theorem Entry.ends (e : Entry) : ∃ c name', e.name = c :: name' ∧ isSpace c = false := by
  obtain ⟨c, name', hn⟩ := List.exists_cons_of_ne_nil e.name_ne
  exact ⟨c, name', hn, e.name_word c (by rw [hn]; exact List.mem_cons_self)⟩

theorem Entry.strip_text : strip e.line.text = e.name ++ (e.sep ++ e.value) := by
  obtain ⟨c, name', hn, hc⟩ := e.ends
  have hs : Stripped (e.name ++ (e.sep ++ e.value)) := by
    refine ⟨by simp [hn], fun _ => ?_, fun _ => ?_⟩
    · simpa [hn] using hc
    · rw [List.getLast_append_of_ne_nil _ (by simp [e.stripped.ne]), List.getLast_append_of_ne_nil _ e.stripped.ne]
      exact e.stripped.last e.stripped.ne
  have h := hs.strip_around blank_nil e.after.blank
  rw [e.text_eq]
  simpa only [List.nil_append, List.append_assoc] using h

theorem Entry.strip_ne (c : Char) : strip e.line.text ≠ [c] := by
  intro h
  have hl := congrArg List.length h
  rw [e.strip_text, List.length_append, List.length_append, List.length_singleton] at hl
  have hn := List.length_pos_iff.mpr e.name_ne
  have hv := List.length_pos_iff.mpr e.stripped.ne
  have hs := List.length_pos_iff.mpr e.sep_ne
  omega

theorem Entry.not_define (h : Proper e.name) : defineText.isPrefixOf e.line.text = false := by
  rw [← Bool.not_eq_true, List.isPrefixOf_iff_prefix, e.text_eq]
  intro hp
  rcases le_or_gt defineText.length e.name.length with hl | hl
  · exact h.1 (List.prefix_of_prefix_length_le hp (List.prefix_append _ _) hl)
  · obtain ⟨c, sep', hs⟩ := List.exists_cons_of_ne_nil e.sep_ne
    have hgap := e.sep_gap c (by rw [hs]; exact List.mem_cons_self)
    rw [hs] at hp
    have hc : e.name ++ [c] <+: e.name ++ (c :: sep' ++ (e.value ++ e.after.text)) := by simp
    have hp' := List.prefix_of_prefix_length_le hc hp (by simpa [Nat.succ_le_iff] using hl)
    have hmem : c ∈ defineText := hp'.subset (by simp)
    rcases hgap with rfl | rfl
    · revert hmem
      decide
    · revert hmem
      decide

theorem Entry.not_passed (h : Proper e.name) : isPassed e.line.text = false := by
  obtain ⟨c, name', hn, hc⟩ := e.ends
  rw [e.text_eq, hn]
  exact isPassed_cons hc (h.2 c (by rw [hn]; rfl))

theorem readLines_entry {s : Reading} (hs : Ready s) (hd : s.inDefine = true) (h : Proper e.name) :
    Elsewhere { s with tmp := s.tmp ++ [e.line.text] } (e.lines.foldl Reading.readLine s) := by
  rw [Entry.lines, readLines_text hs, readComplete_text (e.strip_ne _) (e.strip_ne _) (e.not_passed h), e.not_define h,
    if_neg Bool.false_ne_true, Reading.put, if_pos hd]
  exact ⟨_, _, hs.path, rfl⟩

end

def texts (entries : List Entry) : List Text := entries.map fun e => e.line.text

theorem readLines_items {s : Reading} (hs : Ready s) (hd : s.inDefine = true) (items : List (Chunk Entry))
    (h : ∀ e ∈ contents items, Proper e.name) :
    Elsewhere { s with tmp := s.tmp ++ texts (contents items) }
      ((items.flatMap (Chunk.lines Entry.lines)).foldl Reading.readLine s) := by
  induction items generalizing s with
  | nil =>
    have hnil : { s with tmp := s.tmp ++ texts (contents []) } = s := by simp [contents, texts]
    rw [hnil]
    exact hs.here
  | cons chunk items ih =>
    rw [List.flatMap_cons, List.foldl_append]
    cases chunk with
    | idle i =>
      have hi := readLines_idle hs i
      exact (hi.put _).trans (ih (hs.elsewhere hi) (hi.inDefine.trans hd) h)
    | item e =>
      have he := readLines_entry e hs hd (h e List.mem_cons_self)
      have hready : Ready { s with tmp := s.tmp ++ [e.line.text] } := ⟨hs.single, hs.noLine, hs.path⟩
      have hrest := ih (hready.elsewhere he) (he.inDefine.trans hd) fun e' he' => h e' (List.mem_cons_of_mem _ he')
      have hall := (he.put (texts (contents items))).trans hrest
      rw [List.append_assoc] at hall
      exact hall

/-! ## A block -/

def importedText : Text := "imported_from ".toList

def blockLines (origin : Text) (b : Block) : List Text := (importedText ++ origin) :: texts b.entries

structure Origin (origin : Text) : Prop where
  ne : origin ≠ []
  spaceless : Spaceless origin

theorem importedFrom_origin {s : Reading} (hs : Ready s) :
    ∃ origin, Origin origin ∧ s.importedFrom = importedText ++ origin := by
  refine ⟨s.fileFrom ++ ':' :: Nat.toDigits 10 s.lineNb, ⟨by simp, ?_⟩, rfl⟩
  intro c hc
  rcases List.mem_append.mp hc with hc | hc
  · exact hs.path c hc
  · rcases List.mem_cons.mp hc with rfl | hc
    · decide
    · have hd := Nat.isDigit_of_mem_toDigits (by decide) (le_refl _) hc
      exact (Numerals.decimalChars_kept c (List.mem_append_left _ (Numerals.mem_digitChars hd))).2.1

structure Outside (s : Reading) : Prop where
  ready : Ready s
  closed : s.inDefine = false
  begun : s.almostInDefine = false

def Reading.opened (s : Reading) (type origin : Text) : Reading :=
  { s with inDefine := true, objectscfg := s.saved, tmp := [importedText ++ origin], tmpType := type }

theorem define_text (rest : Text) : ∃ l, defineText ++ rest = 'd' :: l := ⟨_, rfl⟩

theorem readComplete_define {s : Reading} (rest : Text) :
    s.readComplete (defineText ++ rest) = s.startDefine (defineText ++ rest) := by
  have hd : isSpace 'd' = false := by decide
  obtain ⟨l, hl⟩ := define_text rest
  obtain ⟨l', hs, _⟩ := strip_cons hd l
  have hp : defineText.isPrefixOf (defineText ++ rest) = true := by
    rw [List.isPrefixOf_iff_prefix]
    exact List.prefix_append _ _
  rw [readComplete_text, if_pos hp]
  · rw [hl, hs]
    simp
  · rw [hl, hs]
    simp
  · rw [hl]
    exact isPassed_cons hd (by decide)

theorem brace_notMem_blank (hw : Blank w) : '{' ∉ w := by
  intro h
  exact absurd (hw _ h) (by decide)

theorem readLines_opening {s : Reading} (hs : Outside s) (b : Block) :
    ∃ origin, Origin origin ∧ Elsewhere (s.opened b.type origin) (b.opening.lines.foldl Reading.readLine s) := by
  have hplace : ∀ n, Ready { s with lineNb := n } := fun _ => ⟨hs.ready.single, hs.ready.noLine, hs.ready.path⟩
  cases b.opening with
  | brace line gap gap' after ne text_eq =>
    obtain ⟨origin, ho, himported⟩ := importedFrom_origin (hplace (s.lineNb + line.lines.length))
    have hbrace : (defineText ++ (gap.text ++ (b.type ++ (gap'.text ++ '{' :: after.text)))).contains '{' = true := by
      simp
    have htype := typeOf_brace b.type_ne b.type_word gap.blank ne after.blank gap'.blank
    refine ⟨origin, ho, s.lineNb + line.lines.length, s.fileFrom, hs.ready.path, ?_⟩
    rw [Opening.lines, readLines_text hs.ready, text_eq, readComplete_define]
    unfold Reading.startDefine Reading.opened
    simp only [himported, htype, hbrace]
    simp only [hs.begun, Bool.or_true, Bool.not_true, Bool.or_false]
    rfl
  | next line gap after ne text_eq idle alone after' alone_eq =>
    obtain ⟨origin, ho, himported⟩ := importedFrom_origin (hplace (s.lineNb + line.lines.length))
    have hbrace : (defineText ++ (gap.text ++ (b.type ++ after.text))).contains '{' = false := by
      have hdefine : '{' ∉ defineText := by decide
      have htype : '{' ∉ b.type := fun h => (b.type_word _ h).2 rfl
      simp [hdefine, htype, brace_notMem_blank gap.blank, brace_notMem_blank after.blank]
    have htype := typeOf_next b.type_ne b.type_word gap.blank ne after.blank
    have hheader : Elsewhere { s.opened b.type origin with inDefine := false, almostInDefine := true }
        (line.lines.foldl Reading.readLine s) := by
      refine ⟨s.lineNb + line.lines.length, s.fileFrom, hs.ready.path, ?_⟩
      rw [readLines_text hs.ready, text_eq, readComplete_define]
      unfold Reading.startDefine Reading.opened
      simp only [himported, htype, hbrace]
      simp only [hs.closed, Bool.or_false, Bool.not_false, Bool.or_true]
      rfl
    have hready : Ready { s.opened b.type origin with inDefine := false, almostInDefine := true } :=
      ⟨hs.ready.single, hs.ready.noLine, hs.ready.path⟩
    have hidle := hheader.trans (readLines_idles (hready.elsewhere hheader) idle)
    have halone := readLines_text (hready.elsewhere hidle) alone
    obtain ⟨n, f, hf, heq⟩ := hidle
    rw [alone_eq, heq, readComplete_open after'.blank rfl] at halone
    refine ⟨origin, ho, n + alone.lines.length, f, hf, ?_⟩
    rw [Opening.lines, List.foldl_append, List.foldl_append, heq, halone]
    simp only [Reading.opened, hs.begun]

def Reading.after (s : Reading) (origin : Text) (b : Block) : Reading :=
  { s with objectscfg := s.saved, tmp := blockLines origin b, tmpType := b.type }

theorem readLines_block {s : Reading} (hs : Outside s) (b : Block) (h : ∀ e ∈ b.entries, Proper e.name) :
    ∃ origin, Origin origin ∧ Elsewhere (s.after origin b) (b.lines.foldl Reading.readLine s) := by
  obtain ⟨origin, ho, hopen⟩ := readLines_opening hs b
  have hready : Ready (s.opened b.type origin) := ⟨hs.ready.single, hs.ready.noLine, hs.ready.path⟩
  have hitems := readLines_items (hready.elsewhere hopen) hopen.inDefine b.items h
  have hall := (hopen.put (texts b.entries)).trans hitems
  have hput : Ready { s.opened b.type origin with tmp := (s.opened b.type origin).tmp ++ texts b.entries } :=
    ⟨hs.ready.single, hs.ready.noLine, hs.ready.path⟩
  have hclose := readLines_text (hput.elsewhere hall) b.close
  rw [b.close_eq, readComplete_close b.after.blank] at hclose
  obtain ⟨n, f, hf, heq⟩ := hall
  refine ⟨origin, ho, n + b.close.lines.length, f, hf, ?_⟩
  unfold Block.lines
  rw [List.foldl_append, List.foldl_append, hclose, heq]
  simp [Reading.after, Reading.opened, blockLines, hs.closed]

end Alignak.ConfigBuffer
