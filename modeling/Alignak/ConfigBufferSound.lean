import Alignak.ConfigObjects

/-!
# The objects of a configuration buffer

From the start no definition is open, and each block adds its object to those of
its type.
-/

namespace Alignak.ConfigBuffer

open ExternalCommandManager

/-! ## The objects of a run -/

def objectsAt (d : Dict Text (List (List Text))) (type : Text) : List Object :=
  (((d.get? type).getD []).map buildObject).filter fun tmpObj => !tmpObj.entries.isEmpty

theorem get?_objectsOf (d : Dict Text (List (List Text))) (type : Text) :
    ((objectsOf d).get? type).getD [] = objectsAt d type := by
  unfold objectsOf objectsAt
  rw [Dict.get?_mapValues]
  cases d.get? type <;> rfl

theorem objectsAt_after {s : Reading} {origin : Text} (ho : Origin origin) (b : Block) (type : Text) :
    objectsAt (s.after origin b).saved type =
      objectsAt s.saved type ++ if b.type = type then [buildObject (blockLines origin b)] else [] := by
  have hsaved : (s.after origin b).saved =
      s.saved.set b.type ((s.saved.get? b.type).getD [] ++ [blockLines origin b]) := rfl
  unfold objectsAt
  rw [hsaved, Dict.get?_set]
  by_cases h : b.type = type
  · subst h
    rw [if_pos rfl, if_pos rfl, Option.getD_some, List.map_append, List.filter_append]
    simp [built_nonempty ho b]
  · rw [if_neg (Ne.symm h), if_neg h, List.append_nil]

variable {s' : Reading} {line type : Text}

theorem Elsewhere.outside {s : Reading} (hs : Outside s) (h : Elsewhere s s') : Outside s' := by
  obtain ⟨n, f, hf, rfl⟩ := h
  exact ⟨⟨hs.ready.single, hs.ready.noLine, hf⟩, hs.closed, hs.begun⟩

theorem Elsewhere.saved {s : Reading} (h : Elsewhere s s') : s'.saved = s.saved := by
  obtain ⟨n, f, _, rfl⟩ := h
  rfl

theorem Elsewhere.params {s : Reading} (h : Elsewhere s s') : s'.params = s.params := by
  obtain ⟨n, f, _, rfl⟩ := h
  rfl

structure Added (s s' : Reading) (blocks : List Block) : Prop where
  outside : Outside s'
  params : s'.params = s.params
  objects : ∀ type, ∃ objects, objectsAt s'.saved type = objectsAt s.saved type ++ objects ∧
    List.Forall₂ Built (blocks.filter fun b => b.type = type) objects

theorem Added.block {s : Reading} (hs : Outside s) {b : Block} {origin : Text} (ho : Origin origin)
    (h : Elsewhere (s.after origin b) s') : Added s s' [b] := by
  have hafter : Outside (s.after origin b) := ⟨⟨hs.ready.single, hs.ready.noLine, hs.ready.path⟩, hs.closed, hs.begun⟩
  refine ⟨h.outside hafter, h.params, fun type => ?_⟩
  refine ⟨_, by rw [h.saved, objectsAt_after ho], ?_⟩
  by_cases hb : b.type = type
  · simpa [hb] using ⟨origin, ho, rfl⟩
  · simp [hb]

theorem Added.idle {s : Reading} (hs : Outside s) (h : Elsewhere s s') : Added s s' [] := by
  refine ⟨h.outside hs, h.params, fun type => ⟨[], ?_, List.Forall₂.nil⟩⟩
  rw [h.saved, List.append_nil]

theorem Added.trans {s s'' : Reading} {l l' : List Block} (h : Added s s' l) (h' : Added s' s'' l') :
    Added s s'' (l ++ l') := by
  refine ⟨h'.outside, h'.params.trans h.params, fun type => ?_⟩
  obtain ⟨objects, heq, hbuilt⟩ := h.objects type
  obtain ⟨objects', heq', hbuilt'⟩ := h'.objects type
  refine ⟨objects ++ objects', by rw [heq', heq, List.append_assoc], ?_⟩
  rw [List.filter_append]
  exact List.rel_append hbuilt hbuilt'

theorem readLines_layout {s : Reading} (hs : Outside s) (layout : List (Chunk Block))
    (h : ∀ b ∈ contents layout, ∀ e ∈ b.entries, Proper e.name) :
    Added s ((layoutLines layout).foldl Reading.readLine s) (contents layout) := by
  induction layout generalizing s with
  | nil => exact ⟨hs, rfl, fun type => ⟨[], by simp [layoutLines], List.Forall₂.nil⟩⟩
  | cons chunk layout ih =>
    rw [layoutLines, List.flatMap_cons, List.foldl_append]
    cases chunk with
    | idle i =>
      have hadded := Added.idle hs (readLines_idle hs.ready i)
      exact hadded.trans (ih hadded.outside h)
    | item b =>
      obtain ⟨origin, ho, hb⟩ := readLines_block hs b (h b List.mem_cons_self)
      have hadded := Added.block hs ho hb
      exact hadded.trans (ih hadded.outside fun b' hb' => h b' (List.mem_cons_of_mem _ hb'))

/-! ## The start of a run -/

section
variable (types : List Text)

theorem get?_start {lists : List (List Text)} (h : (startReading types).objectscfg.get? type = some lists) :
    lists = [] := by
  have hgeneral : ∀ (types : List Text) (d : Dict Text (List (List Text))),
      (∀ lists, d.get? type = some lists → lists = []) →
      ∀ lists, (types.foldl (fun d o_type => d.set o_type []) d).get? type = some lists → lists = [] := by
    intro types
    induction types with
    | nil => exact fun d hd => hd
    | cons o_type types ih =>
      intro d hd
      apply ih
      intro lists hl
      rw [Dict.get?_set] at hl
      by_cases ht : type = o_type
      · rw [if_pos ht] at hl
        exact (Option.some.inj hl).symm
      · rw [if_neg ht] at hl
        exact hd lists hl
  exact hgeneral types Dict.empty (fun _ hl => nomatch hl) lists h

theorem getD_start (type : Text) : ((startReading types).objectscfg.get? type).getD [] = [] := by
  cases h : (startReading types).objectscfg.get? type with
  | none => rfl
  | some lists => exact get?_start types h

theorem start_outside : Outside (startReading types) := ⟨⟨rfl, rfl, fun _ hc => absurd hc List.not_mem_nil⟩, rfl, rfl⟩

theorem objectsAt_start (type : Text) : objectsAt (startReading types).saved type = [] := by
  unfold objectsAt Reading.saved
  rw [Dict.get?_set]
  split
  · rw [Option.getD_some, getD_start]
    rfl
  · rw [getD_start]
    rfl

end

/-! ## The lines that are kept -/

structure Kept (line : Text) : Prop where
  ne : line ≠ []
  starts : EndsSpan isSpace line
  proper : Proper line

structure Keeps (s : Reading) : Prop where
  tmp : ∀ line ∈ s.tmp, Kept line
  saved : ∀ type lists, s.objectscfg.get? type = some lists → ∀ list ∈ lists, ∀ line ∈ list, Kept line
  tmpLine : EndsSpan isSpace s.tmpLine

theorem endsSpan_append {p : Char → Bool} {l l' : Text} (h : EndsSpan p l) (h' : EndsSpan p l') : EndsSpan p (l ++ l') := by
  cases l with
  | nil => exact h'
  | cons c l => exact EndsSpan.cons (h c rfl) _

theorem kept_of_not_passed (hs : EndsSpan isSpace line) (hp : isPassed line = false)
    (hd : defineText.isPrefixOf line = false) : Kept line := by
  cases line with
  | nil => exact Bool.noConfusion hp
  | cons c l =>
    unfold isPassed at hp
    rw [dropWhile_of_endsSpan hs] at hp
    simp only [Bool.or_eq_false_iff, beq_eq_false_iff_ne] at hp
    refine ⟨List.cons_ne_nil c l, hs, fun h => ?_, fun d hd => ?_⟩
    · rw [List.isPrefixOf_iff_prefix.mpr h] at hd
      exact Bool.noConfusion hd
    · obtain rfl : c = d := by simpa using hd
      exact hp

theorem importedFrom_kept (s : Reading) : Kept s.importedFrom := by
  obtain ⟨l, hl⟩ : ∃ l, s.importedFrom = 'i' :: l := ⟨_, rfl⟩
  rw [hl]
  refine ⟨List.cons_ne_nil _ _, EndsSpan.cons (by decide) l, fun h => ?_, fun d hd => ?_⟩
  · exact absurd (List.cons_prefix_cons.mp h).1 (by decide)
  · obtain rfl : 'i' = d := by simpa using hd
    decide

theorem endsSpan_start {p : Char → Bool} {l l' : Text} (h : EndsSpan p l) (hp : l' <+: l) : EndsSpan p l' := by
  intro c hc
  obtain ⟨rest, rfl⟩ := hp
  apply h
  rw [List.head?_append, hc]
  rfl

theorem continued_starts (h : EndsSpan isSpace line) : EndsSpan isSpace (continued line) := by
  have hp := endsSpan_start h ((List.dropLast_prefix _).trans (List.rdropWhile_prefix isSpace line))
  have hany : ((line.rdropWhile isSpace).dropLast.head?.any isSpace) = false := by
    cases hc : (line.rdropWhile isSpace).dropLast.head? with
    | none => rfl
    | some c => exact hp c hc
  unfold continued
  simp only [hany, Bool.false_eq_true, if_false]
  exact hp

section
variable {s : Reading} (hs : Keeps s)
include hs

theorem get?_saved_kept : ∀ type lists, s.saved.get? type = some lists → ∀ list ∈ lists, ∀ line ∈ list, Kept line := by
  intro type lists h list hl
  unfold Reading.saved at h
  rw [Dict.get?_set] at h
  split at h
  · cases h
    rcases List.mem_append.mp hl with hl | hl
    · cases hg : s.objectscfg.get? s.tmpType with
      | none => simp [hg] at hl
      | some lists =>
        rw [hg] at hl
        exact hs.saved _ _ hg list hl
    · rw [List.mem_singleton.mp hl]
      exact hs.tmp
  · exact hs.saved _ _ h list hl

theorem startDefine_keeps (line : Text) : Keeps (s.startDefine line) := by
  refine ⟨?_, get?_saved_kept hs, hs.tmpLine⟩
  intro l hl
  rw [List.mem_singleton.mp hl]
  exact importedFrom_kept s

theorem put_keeps (h : Kept line) : Keeps (s.put line) := by
  unfold Reading.put
  split
  · refine ⟨fun l hl => ?_, hs.saved, hs.tmpLine⟩
    rcases List.mem_append.mp hl with hl | hl
    · exact hs.tmp l hl
    · rw [List.mem_singleton.mp hl]
      exact h
  · exact ⟨hs.tmp, hs.saved, hs.tmpLine⟩

theorem readComplete_keeps (hl : EndsSpan isSpace line) : Keeps (s.readComplete line) := by
  have hclosed : Keeps (if strip line = ['}'] then { s with inDefine := false } else s) := by
    split
    · exact ⟨hs.tmp, hs.saved, hs.tmpLine⟩
    · exact hs
  unfold Reading.readComplete
  dsimp only
  generalize (if strip line = ['}'] then { s with inDefine := false } else s) = t at hclosed ⊢
  split
  · exact ⟨hclosed.tmp, hclosed.saved, hclosed.tmpLine⟩
  · split
    · exact hclosed
    · rename_i hp
      split
      · exact startDefine_keeps hclosed line
      · rename_i hd
        exact put_keeps hclosed (kept_of_not_passed hl (Bool.eq_false_of_not_eq_true hp) (Bool.eq_false_of_not_eq_true hd))

theorem readLine_keeps (raw : Text) : Keeps (s.readLine raw) := by
  have hl : EndsSpan isSpace (strip ((ExternalCommandManager.splitSemicolon raw none).headD [])) := fun _ hc => strip_head hc
  unfold Reading.readLine
  split
  · exact ⟨hs.tmp, hs.saved, hs.tmpLine⟩
  · dsimp only
    split
    · exact ⟨hs.tmp, hs.saved, endsSpan_append hs.tmpLine (continued_starts hl)⟩
    · have hmoved : ∀ n, Keeps { s with lineNb := n } := fun _ => ⟨hs.tmp, hs.saved, hs.tmpLine⟩
      split
      · have hdone : Keeps { s with lineNb := s.lineNb + 1, tmpLine := [], continuationLine := false } :=
          ⟨hs.tmp, hs.saved, EndsSpan.nil⟩
        exact readComplete_keeps hdone (endsSpan_append hs.tmpLine (endsSpan_dropWhile _ _))
      · exact readComplete_keeps (hmoved _) hl

theorem objectsAt_kept {o : Object} (ho : o ∈ objectsAt s.saved type) {name : Text} (hn : o.get? name ≠ none) :
    Kept name := by
  obtain ⟨hmem, _⟩ := List.mem_filter.mp ho
  obtain ⟨lines, hlines, rfl⟩ := List.mem_map.mp hmem
  rw [get?_buildObject] at hn
  obtain ⟨p, hp, rfl⟩ := mem_of_given hn
  obtain ⟨line, hline, hcut⟩ := List.mem_filterMap.mp hp
  have hkept : Kept line := by
    cases hg : s.saved.get? type with
    | none => simp [hg] at hlines
    | some lists =>
      rw [hg] at hlines
      exact get?_saved_kept hs type lists hg lines hlines line hline
  obtain ⟨c, l, rfl⟩ := List.exists_cons_of_ne_nil hkept.ne
  obtain ⟨a, rest, hhead, hpre⟩ := cutLine_head (hkept.starts c rfl) l
  unfold cutOf at hcut
  rw [hhead] at hcut
  cases hcut
  exact ⟨List.cons_ne_nil c a, EndsSpan.cons (hkept.starts c rfl) a, fun h => hkept.proper.1 (h.trans hpre), hkept.proper.2⟩

end

theorem readLines_keeps {s : Reading} (hs : Keeps s) (lines : List Text) : Keeps (lines.foldl Reading.readLine s) := by
  induction lines generalizing s with
  | nil => exact hs
  | cons line lines ih => exact ih (readLine_keeps hs line)

theorem start_keeps (types : List Text) : Keeps (startReading types) := by
  refine ⟨fun _ h => absurd h List.not_mem_nil, fun type lists h list hl => ?_, EndsSpan.nil⟩
  rw [get?_start types h] at hl
  exact absurd hl List.not_mem_nil

/-! ## The whole buffer -/

theorem Spread.lines_length (t : Spread) : 1 ≤ t.lines.length := by
  simp [Spread.lines]

theorem Block.lines_length (b : Block) : 2 ≤ b.lines.length := by
  have hopening : 1 ≤ b.opening.lines.length := by
    cases b.opening with
    | brace line => exact line.lines_length
    | next line =>
      rw [Opening.lines, List.length_append]
      exact le_trans line.lines_length (Nat.le_add_right _ _)
  have hclose := b.close.lines_length
  simp only [Block.lines, List.length_append]
  omega

theorem contents_of_short {layout : List (Chunk Block)} (h : (layoutLines layout).length ≤ 1) : contents layout = [] := by
  rw [contents, List.filterMap_eq_nil_iff]
  intro chunk hc
  cases chunk with
  | idle i => rfl
  | item b =>
    obtain ⟨l, l', rfl⟩ := List.append_of_mem hc
    have hb := b.lines_length
    simp only [layoutLines, List.flatMap_append, List.flatMap_cons, List.length_append, Chunk.lines] at h
    omega

theorem splitOn_length (layout : List (Chunk Block)) : (buffer layout).splitOn '\n' = layoutLines layout ∨
    (buffer layout).splitOn '\n' = [[]] ∧ layoutLines layout = [] := by
  by_cases h : layoutLines layout = []
  · right
    refine ⟨?_, h⟩
    rw [buffer, h]
    rfl
  · exact .inl (splitOn_buffer h)

theorem contents_of_empty {layout : List (Chunk Block)} (h : buffer layout = []) : contents layout = [] := by
  apply contents_of_short
  rcases splitOn_length layout with hs | ⟨_, hs⟩
  · rw [← hs, h]
    rfl
  · rw [hs]
    exact Nat.zero_le _

def lastReading (types : List Text) (layout : List (Chunk Block)) : Reading :=
  ((buffer layout).splitOn '\n').foldl Reading.readLine (startReading types)

theorem lastReading_added (types : List Text) {layout : List (Chunk Block)}
    (h : ∀ b ∈ contents layout, ∀ e ∈ b.entries, Proper e.name) :
    Added (startReading types) (lastReading types layout) (contents layout) := by
  unfold lastReading
  rcases splitOn_length layout with hs | ⟨hs, hnil⟩
  · rw [hs]
    exact readLines_layout (start_outside types) layout h
  · have hnone : contents layout = [] := contents_of_short (by rw [hnil]; exact Nat.zero_le _)
    have hmoved : Elsewhere (startReading types) ([[]].foldl Reading.readLine (startReading types)) :=
      ⟨1, [], fun _ hc => absurd hc List.not_mem_nil, rfl⟩
    rw [hs, hnone]
    exact Added.idle (start_outside types) hmoved

section
variable (types : List Text) (silent : Bool) (layout : List (Chunk Block))

theorem readConfigBuf_read (h : buffer layout ≠ [] ∨ silent = true) : readConfigBuf types silent (buffer layout) =
    ⟨objectsOf (lastReading types layout).saved, (lastReading types layout).params⟩ := by
  unfold readConfigBuf
  rw [if_neg]
  · rfl
  · rcases h with h | h
    · simp [h]
    · simp [h]

theorem readConfigBuf_empty (h : ¬ (buffer layout ≠ [] ∨ silent = true)) :
    readConfigBuf types silent (buffer layout) = ⟨Dict.empty, []⟩ ∧ contents layout = [] := by
  rw [not_or, not_not] at h
  refine ⟨?_, contents_of_empty h.1⟩
  unfold readConfigBuf
  rw [if_pos (by simp [h.1, h.2])]

theorem readConfigBuf_built (h : ∀ b ∈ contents layout, ∀ e ∈ b.entries, Proper e.name) :
    (readConfigBuf types silent (buffer layout)).params = [] ∧ ∀ type, List.Forall₂ Built
      ((contents layout).filter fun b => b.type = type)
      (((readConfigBuf types silent (buffer layout)).objects.get? type).getD []) := by
  by_cases he : buffer layout ≠ [] ∨ silent = true
  · have hadded := lastReading_added types h
    rw [readConfigBuf_read types silent layout he]
    refine ⟨hadded.params, fun type => ?_⟩
    obtain ⟨objects, heq, hbuilt⟩ := hadded.objects type
    rw [get?_objectsOf, heq, objectsAt_start, List.nil_append]
    exact hbuilt
  · obtain ⟨hr, hnone⟩ := readConfigBuf_empty types silent layout he
    rw [hr, hnone]
    exact ⟨rfl, fun _ => List.Forall₂.nil⟩

theorem readConfigBuf_kept {o : Object}
    (ho : o ∈ ((readConfigBuf types silent (buffer layout)).objects.get? type).getD []) {name : Text}
    (hn : o.get? name ≠ none) : Kept name := by
  by_cases he : buffer layout ≠ [] ∨ silent = true
  · rw [readConfigBuf_read types silent layout he, get?_objectsOf] at ho
    exact objectsAt_kept (readLines_keeps (start_keeps types) _) ho hn
  · rw [(readConfigBuf_empty types silent layout he).1] at ho
    exact absurd ho List.not_mem_nil

end

theorem exists_of_forall₂ {α β : Type} {R S : α → β → Prop} {a : α} {l : List α} {l' : List β} (hr : List.Forall₂ R l l')
    (hs : List.Forall₂ S l l') (ha : a ∈ l) : ∃ b ∈ l', R a b ∧ S a b := by
  induction hr with
  | nil => exact absurd ha List.not_mem_nil
  | cons hab _ ih =>
    cases hs with
    | cons hab' hs' =>
      rcases List.mem_cons.mp ha with rfl | ha
      · exact ⟨_, List.mem_cons_self, hab, hab'⟩
      · obtain ⟨b, hb, h⟩ := ih hs' ha
        exact ⟨b, List.mem_cons_of_mem _ hb, h⟩

/-! ## The blocks of a buffer -/

structure Right (layout : List (Chunk Block)) (r : Result) : Prop where
  params : r.params = []
  objects : ∀ type, List.Forall₂ IsObject ((contents layout).filter fun b => b.type = type) ((r.objects.get? type).getD [])

/-- Each block is read as one object with its properties, and nothing is read
as a parameter, when no name starts as a definition, a comment or an end does,
and no line is cut in its value. -/
theorem objects_of_blocks (types : List Text) (silent : Bool) (layout : List (Chunk Block)) :
    Right layout (readConfigBuf types silent (buffer layout)) ↔
      ∀ b ∈ contents layout, ∀ e ∈ b.entries, Proper e.name ∧ Uncut e := by
  have hmem : ∀ b ∈ contents layout, b ∈ (contents layout).filter fun b' => b'.type = b.type := fun b hb => by simp [hb]
  constructor
  · intro h b hb
    have hproper : ∀ b ∈ contents layout, ∀ e ∈ b.entries, Proper e.name := by
      intro b hb e he
      obtain ⟨o, ho, ⟨origin, hget⟩, _⟩ := exists_of_forall₂ (h.objects b.type) (h.objects b.type) (hmem b hb)
      have hsome : o.get? e.name ≠ none := by
        rw [hget]
        exact given_some (p := (e.name, e.value)) (List.mem_cons_of_mem _ (List.mem_map.mpr ⟨e, he, rfl⟩))
      exact (readConfigBuf_kept types silent layout ho hsome).proper
    have hbuilt := (readConfigBuf_built types silent layout hproper).2 b.type
    obtain ⟨o, _, hobject, hb'⟩ := exists_of_forall₂ (h.objects b.type) hbuilt (hmem b hb)
    exact fun e he => ⟨hproper b hb e he, hb'.isObject_iff.mp hobject e he⟩
  · intro h
    obtain ⟨hparams, hbuilt⟩ := readConfigBuf_built types silent layout fun b hb e he => (h b hb e he).1
    refine ⟨hparams, fun type => ?_⟩
    have huncut : ∀ b ∈ (contents layout).filter (fun b => b.type = type), ∀ e ∈ b.entries, Uncut e :=
      fun b hb e he => (h b (List.mem_of_mem_filter hb) e he).2
    exact ((List.forall₂_and_left _ _).mpr ⟨huncut, hbuilt type⟩).imp fun _ _ hb => hb.2.isObject_iff.mpr hb.1

/-! ## A value with three spaces -/

def isPlain (text : Text) : Bool :=
  text.head?.all (fun c => !isSpace c) && text.getLast?.all (fun c => !isSpace c && c != '\\') && !text.contains '\n' &&
    !fileMark.isPrefixOf (escapeSemicolons text)

def noBlanks : Blanks := ⟨[], blank_nil, List.not_mem_nil⟩

section
variable {text : Text} (h : isPlain text = true)
include h

theorem plain_starts : EndsSpan isSpace text := by
  intro c hc
  simp only [isPlain, Bool.and_eq_true] at h
  simpa [hc] using h.1.1.1

theorem plain_ends (_ : false = false) : ∀ c, text.getLast? = some c → isSpace c = false ∧ c ≠ '\\' := by
  intro c hc
  simp only [isPlain, Bool.and_eq_true] at h
  simpa [hc] using h.1.1.2

theorem plain_unbroken : '\n' ∉ text ∧ ∀ c ∈ (none : Option Text), '\n' ∉ c := by
  simp only [isPlain, Bool.and_eq_true] at h
  exact ⟨by simpa using h.1.2, fun _ hc => nomatch hc⟩

end

theorem plain_apart (h : false = true) : (none : Option Text) ≠ none → noBlanks.text ≠ [] := Bool.noConfusion h

def plainPart (text : Text) (h : isPlain text = true) : Part false :=
  ⟨noBlanks, text, noBlanks, none, plain_starts h, plain_ends h, plain_apart, plain_unbroken h⟩

theorem plain_unmarked {text : Text} (h : isPlain text = true) :
    ∀ l ∈ ([] : List (Part true)).map Part.raw ++ [(plainPart text h).raw], fileMark.isPrefixOf l = false := by
  intro l hl
  have hraw : (plainPart text h).raw = escapeSemicolons text := by
    simp [Part.raw, Part.body, plainPart, noBlanks, continuation, commentText]
  rw [List.map_nil, List.nil_append, List.mem_singleton, hraw] at hl
  rw [hl]
  simp only [isPlain, Bool.and_eq_true] at h
  simpa using h.2

def plainLine (text : Text) (h : isPlain text = true) : Spread := ⟨[], plainPart text h, plain_unmarked h⟩

theorem space_blank : Blank [' '] := Numerals.forall_of_all (by decide)

theorem space_unbroken : '\n' ∉ [' '] := by decide

def oneBlank : Blanks := ⟨[' '], space_blank, space_unbroken⟩

def defineHost : Text := "define host \x7b".toList

def aliasServer : Text := "alias web   server".toList

theorem defineHost_plain : isPlain defineHost = true := by decide

theorem aliasServer_plain : isPlain aliasServer = true := by decide

theorem brace_plain : isPlain ['}'] = true := by decide

theorem space_gap : ∀ c ∈ [' '], c = ' ' ∨ c = '\t' := Numerals.forall_of_all (by decide)

theorem server_stripped : Stripped "web   server".toList := ⟨by decide, by decide, by decide⟩

def aliasEntry : Entry :=
  ⟨plainLine aliasServer aliasServer_plain, "alias".toList, [' '], "web   server".toList, noBlanks, rfl,
    List.cons_ne_nil _ _, (Numerals.forall_of_all (by decide)), List.cons_ne_nil _ _, space_gap, server_stripped⟩

def hostBlock : Block :=
  ⟨"host".toList, List.cons_ne_nil _ _, (Numerals.forall_of_all (by decide)),
    .brace (plainLine defineHost defineHost_plain) oneBlank oneBlank noBlanks (List.cons_ne_nil _ _) rfl,
    [.item aliasEntry], plainLine ['}'] brace_plain, noBlanks, rfl⟩

/-- The property of the block is `alias`, and the one of the object `alias web`. -/
theorem alias_cut : buffer [.item hostBlock] = "define host \x7b\nalias web   server\n\x7d".toList ∧
    ¬ Right [.item hostBlock] (readConfigBuf ["host".toList] true (buffer [.item hostBlock])) := by
  refine ⟨by decide, fun h => ?_⟩
  obtain ⟨o, ho, ⟨origin, hget⟩, _⟩ := exists_of_forall₂ (h.objects "host".toList) (h.objects "host".toList)
    (List.mem_filter.mpr ⟨(List.mem_cons_self : hostBlock ∈ [hostBlock]), by decide⟩)
  have hnone : ∀ o ∈ ((readConfigBuf ["host".toList] true (buffer [.item hostBlock])).objects.get? "host".toList).getD [],
      o.get? "alias".toList = none := Numerals.forall_of_all (by decide)
  have hmem : ("alias".toList, "web   server".toList) ∈
      (importedName, origin) :: hostBlock.entries.map fun e => (e.name, e.value) := List.mem_cons_of_mem _ List.mem_cons_self
  have hsome := given_some hmem
  rw [← hget, hnone o ho] at hsome
  exact hsome rfl

end Alignak.ConfigBuffer
