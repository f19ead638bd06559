import Alignak.WorkerSound

/-!
# The bytes of a process

The outputs of a process come in pieces, at each look of its worker and at the
last one.
-/

namespace Alignak.ProcessReads

open WorkerLoop

/-! ## Looks at a process -/

/-- What a read that does not block gives: bytes, nothing yet, or a failure. -/
inductive Reading
  | bytes (b : ByteArray)
  | nothing
  | failed

namespace Reading

def read : Reading → Read
  | bytes b => ((String.fromUTF8? b).map .text).getD .undecodable
  | nothing => .nothing
  | failed => .failed

def chunk : Reading → ByteArray
  | bytes b => b
  | _ => ByteArray.empty

def isBytes : Reading → Bool
  | bytes _ => true
  | _ => false

end Reading

structure Look where
  polledAt : Rat
  now : Rat
  stdout : Reading
  stderr : Reading

/-- A process that is too late is killed. -/
def Look.running (l : Look) : Poll := ⟨l.polledAt, l.now, .running l.stdout.read l.stderr.read, .ok ()⟩

inductive Ending
  | exited (returncode : Int)
  | timeout
  deriving DecidableEq, Repr

structure Course where
  action : Action
  looks : List Look
  last : Look
  ending : Ending
  stdoutdata : action.stdoutdata = ""
  stderrdata : action.stderrdata = ""
  inTime : ∀ l ∈ looks, ¬ action.timeout < l.now - action.checkTime
  late : ending = .timeout → action.timeout < last.now - action.checkTime

/-- The text that the outputs are cut from stands for them. -/
def textConf : Conf := ⟨0, fun out => ⟨out.toList, [], []⟩⟩

def joined (l : List ByteArray) : ByteArray := l.foldr (· ++ ·) ByteArray.empty

namespace Course

variable (c : Course)

def lastPoll : Poll :=
  match c.ending with
  | .exited returncode => ⟨c.last.polledAt, c.last.now, .exited returncode c.last.stdout.read c.last.stderr.read, .ok ()⟩
  | .timeout => c.last.running

def lookAll (looks : List Look) (a : Action) : Except Raised Action :=
  looks.foldlM (fun a l => checkFinished textConf l.running a) a

def run : Except Raised Action := do
  let a ← lookAll c.looks c.action
  checkFinished textConf c.lastPoll a

/-! ## What should be kept -/

def stdout : ByteArray := joined ((c.looks ++ [c.last]).map (·.stdout.chunk))

def stderr : ByteArray := joined ((c.looks ++ [c.last]).map (·.stderr.chunk))

def expected (stdout stderr : String) : Action :=
  let a := { c.action with stdoutdata := stdout, stderrdata := stderr }
  match c.ending with
  | .exited returncode => finished textConf c.last.now returncode a
  | .timeout => timedOut textConf c.last.now a

/-- Nothing is raised, and the output is that of all the bytes, decoded together. -/
def Kept : Prop := ∃ a stdout stderr, c.run = .ok a ∧ String.fromUTF8? c.stdout = some stdout ∧
  String.fromUTF8? c.stderr = some stderr ∧ a.output = (c.expected stdout stderr).output ∧
  a.exitStatus = (c.expected stdout stderr).exitStatus ∧ a.exitStatus ∈ [0, 1, 2, 3]

/-! ## When it is -/

def heard (l : Look) : ByteArray := if l.stdout.isBytes then l.stderr.chunk else ByteArray.empty

def heardLast : ByteArray :=
  match c.ending with
  | .exited _ => c.last.stderr.chunk
  | .timeout => heard c.last

def heardStderr : ByteArray := joined (c.looks.map heard ++ [c.heardLast])

/-- What the errors `err'` give in place of `err`, with the output `out`. -/
def Harmless (ending : Ending) (out err' err : String) : Prop :=
  match ending with
  | .timeout => stripString out ≠ ""
  | .exited returncode =>
    if badSyntax err' = badSyntax err then
      if badSyntax err then stripString (out ++ err') = stripString (out ++ err) else stripString out ≠ ""
    else
      stripString out = "" ∧ returncode ∉ [0, 1, 2] ∧
        if badSyntax err then stripString err = err' else stripString err' = err

/-- Each piece that is decoded is a text, and the errors that are not heard change nothing. -/
structure Sound : Prop where
  looks : ∀ l ∈ c.looks, Readable l.running
  last : Readable c.lastPoll
  lost : ∃ out err err', String.fromUTF8? c.stdout = some out ∧ String.fromUTF8? c.stderr = some err ∧
    String.fromUTF8? c.heardStderr = some err' ∧ (err' = err ∨ Harmless c.ending out err' err)

end Course

open Course

/-! ## Decoding -/

variable {s : String} {r : Reading}

theorem fromUTF8?_eq_some {b : ByteArray} : String.fromUTF8? b = some s ↔ s.toByteArray = b := by
  unfold String.fromUTF8?
  split
  · rw [Option.some.injEq, ← String.toByteArray_inj]
    exact eq_comm
  · rename_i h
    refine iff_of_false (by simp) ?_
    intro e
    exact h (e ▸ s.isValidUTF8)

theorem read_bytes_text {b : ByteArray} : (Reading.bytes b).read = .text s ↔ s.toByteArray = b := by
  rw [← fromUTF8?_eq_some]
  change ((String.fromUTF8? b).map Read.text).getD .undecodable = .text s ↔ _
  cases String.fromUTF8? b <;> simp

theorem chunk_of_text (h : r.read = .text s) : r.isBytes = true ∧ r.chunk = s.toByteArray := by
  cases r with
  | bytes b => exact ⟨rfl, (read_bytes_text.mp h).symm⟩
  | nothing => cases h
  | failed => cases h

theorem chunk_of_not_text (h : r.read = .nothing ∨ r.read = .failed) :
    r.isBytes = false ∧ r.chunk = ByteArray.empty := by
  cases r with
  | bytes b =>
    change ((String.fromUTF8? b).map Read.text).getD .undecodable = _ ∨
      ((String.fromUTF8? b).map Read.text).getD .undecodable = _ at h
    cases hb : String.fromUTF8? b with
    | none => simp [hb] at h
    | some s => simp [hb] at h
  | nothing => exact ⟨rfl, rfl⟩
  | failed => exact ⟨rfl, rfl⟩

theorem joined_append (l l' : List ByteArray) : joined (l ++ l') = joined l ++ joined l' := by
  induction l with
  | nil => exact ByteArray.empty_append.symm
  | cons b l ih =>
    change b ++ joined (l ++ l') = b ++ joined l ++ joined l'
    rw [ih, ByteArray.append_assoc]

theorem joined_singleton (b : ByteArray) : joined [b] = b := ByteArray.append_empty

/-! ## Looks -/

section
variable {l : Look} {a a' : Action} {c : Course}

/-- The bytes of the texts of an action have grown, and what the looks need is kept. -/
structure Gathers (out err : ByteArray) (a a' : Action) : Prop where
  stdoutdata : a'.stdoutdata.toByteArray = a.stdoutdata.toByteArray ++ out
  stderrdata : a'.stderrdata.toByteArray = a.stderrdata.toByteArray ++ err
  timeout : a'.timeout = a.timeout
  checkTime : a'.checkTime = a.checkTime

theorem Gathers.trans {out err out' err' : ByteArray} {b : Action} (h : Gathers out err a a') (h' : Gathers out' err' a' b) :
    Gathers (out ++ out') (err ++ err') a b where
  stdoutdata := by rw [h'.stdoutdata, h.stdoutdata, ByteArray.append_assoc]
  stderrdata := by rw [h'.stderrdata, h.stderrdata, ByteArray.append_assoc]
  timeout := h'.timeout.trans h.timeout
  checkTime := h'.checkTime.trans h.checkTime

theorem readRunning_gathers (h : readRunning l.stdout.read l.stderr.read a = .ok a') :
    Gathers l.stdout.chunk (heard l) a a' := by
  unfold heard
  cases hout : l.stdout.read with
  | undecodable =>
    rw [hout] at h
    cases h
  | nothing =>
    rw [hout] at h
    cases h
    obtain ⟨hbytes, hchunk⟩ := chunk_of_not_text (Or.inl hout)
    exact ⟨by simp [hchunk], by simp [hbytes], rfl, rfl⟩
  | failed =>
    rw [hout] at h
    cases h
    obtain ⟨hbytes, hchunk⟩ := chunk_of_not_text (Or.inr hout)
    exact ⟨by simp [hchunk], by simp [hbytes], rfl, rfl⟩
  | text s =>
    obtain ⟨hbytes, hchunk⟩ := chunk_of_text hout
    rw [hout] at h
    rw [if_pos hbytes, hchunk]
    cases herr : l.stderr.read with
    | undecodable =>
      rw [herr] at h
      cases h
    | nothing =>
      rw [herr] at h
      cases h
      obtain ⟨-, hchunk⟩ := chunk_of_not_text (Or.inl herr)
      exact ⟨String.toByteArray_append, by simp [hchunk], rfl, rfl⟩
    | failed =>
      rw [herr] at h
      cases h
      obtain ⟨-, hchunk⟩ := chunk_of_not_text (Or.inr herr)
      exact ⟨String.toByteArray_append, by simp [hchunk], rfl, rfl⟩
    | text s' =>
      rw [herr] at h
      cases h
      obtain ⟨-, hchunk⟩ := chunk_of_text herr
      exact ⟨String.toByteArray_append, by rw [hchunk]; exact String.toByteArray_append, rfl, rfl⟩

theorem readExited_gathers {data out : String} (h : readExited data r.read = .ok out) :
    out.toByteArray = data.toByteArray ++ r.chunk := by
  cases hr : r.read with
  | undecodable =>
    rw [hr] at h
    cases h
  | nothing =>
    rw [hr] at h
    cases h
  | failed =>
    rw [hr] at h
    cases h
    rw [(chunk_of_not_text (Or.inr hr)).2]
    simp
  | text s =>
    rw [hr] at h
    cases h
    rw [(chunk_of_text hr).2, String.toByteArray_append]

def polledAction (l : Look) (a : Action) : Action := { a with lastPoll := l.polledAt, waitTime := min (a.waitTime * 2) (1 / 2) }

theorem checkFinished_running (l : Look) (a : Action) : checkFinished textConf l.running a =
    (readRunning l.stdout.read l.stderr.read (polledAction l a)).bind fun a =>
      if a.timeout < l.now - a.checkTime then .ok (timedOut textConf l.now a) else .ok a := by
  unfold checkFinished Look.running polledAction
  dsimp only
  cases readRunning l.stdout.read l.stderr.read _ <;> rfl

theorem checkFinished_look (hr : Readable l.running) (ht : ¬ a.timeout < l.now - a.checkTime) :
    ∃ a', checkFinished textConf l.running a = .ok a' ∧ Gathers l.stdout.chunk (heard l) a a' := by
  rw [checkFinished_running]
  obtain ⟨-, out, err, hok⟩ := (readRunning_cases l.stdout.read l.stderr.read (polledAction l a)).resolve_right fun h => h.1 hr
  have hg := readRunning_gathers hok
  rw [hok]
  refine ⟨_, if_neg ht, ?_⟩
  exact ⟨hg.stdoutdata, hg.stderrdata, rfl, rfl⟩

/-- The looks of a course return, and gather the bytes, when each piece that they
decode is a text. -/
theorem lookAll_ok (looks : List Look) (a : Action) (hr : ∀ l ∈ looks, Readable l.running)
    (ht : ∀ l ∈ looks, ¬ a.timeout < l.now - a.checkTime) :
    ∃ a', lookAll looks a = .ok a' ∧ Gathers (joined (looks.map (·.stdout.chunk))) (joined (looks.map heard)) a a' := by
  induction looks generalizing a with
  | nil => exact ⟨a, rfl, by simp [joined], by simp [joined], rfl, rfl⟩
  | cons l looks ih =>
    obtain ⟨a₁, hok, hg⟩ := checkFinished_look (hr l List.mem_cons_self) (ht l List.mem_cons_self)
    obtain ⟨a₂, hok2, hg2⟩ := ih a₁ (fun l hl => hr l (List.mem_cons_of_mem _ hl)) fun l' hl' => by
      rw [hg.timeout, hg.checkTime]
      exact ht l' (List.mem_cons_of_mem _ hl')
    refine ⟨a₂, ?_, hg.trans hg2⟩
    unfold lookAll
    rw [List.foldlM_cons, hok]
    exact hok2

theorem lookAll_readable (looks : List Look) (h : lookAll looks a = .ok a') : ∀ l ∈ looks, Readable l.running := by
  induction looks generalizing a with
  | nil => exact fun l hl => nomatch hl
  | cons l looks ih =>
    unfold lookAll at h
    rw [List.foldlM_cons] at h
    rcases checkFinished_cases textConf l.running a with ⟨hr, b, hok, -⟩ | ⟨-, e, herror⟩
    · rw [hok] at h
      exact List.forall_mem_cons.mpr ⟨hr.readable, ih h⟩
    · rw [herror] at h
      cases h

end

/-! ## The end of an action -/

section
variable {c : Course} {a a' : Action} {out err err' : String}

def endText (ending : Ending) (out err : String) : String :=
  match ending with
  | .exited _ => finalOutput (if badSyntax err then out ++ err else out) err
  | .timeout => finalOutput out err

def endStatus (ending : Ending) (err : String) : Int :=
  match ending with
  | .exited returncode =>
    let exitStatus := if badSyntax err then 3 else returncode
    if exitStatus ∈ [0, 1, 2, 3] then exitStatus else 3
  | .timeout => 3

theorem finished_ends (now : Rat) (returncode : Int) (a : Action) :
    (finished textConf now returncode a).output = endText (.exited returncode) a.stdoutdata a.stderrdata ∧
      (finished textConf now returncode a).exitStatus = endStatus (.exited returncode) a.stderrdata := by
  simp only [finished, Action.setOutputs, endText, endStatus, textConf, String.ofList_toList, and_self]

theorem timedOut_ends (now : Rat) (a : Action) :
    (timedOut textConf now a).output = endText .timeout a.stdoutdata a.stderrdata ∧
      (timedOut textConf now a).exitStatus = endStatus .timeout a.stderrdata := by
  simp only [timedOut, Action.setOutputs, endText, endStatus, textConf, String.ofList_toList, and_self]

theorem expected_ends (c : Course) (out err : String) :
    (c.expected out err).output = endText c.ending out err ∧ (c.expected out err).exitStatus = endStatus c.ending err := by
  unfold expected
  cases c.ending with
  | exited returncode => exact finished_ends c.last.now returncode { c.action with stdoutdata := out, stderrdata := err }
  | timeout => exact timedOut_ends c.last.now { c.action with stdoutdata := out, stderrdata := err }

theorem endStatus_valid (ending : Ending) (err : String) : endStatus ending err ∈ [0, 1, 2, 3] := by
  have hvalid : ∀ n : Int, (if n ∈ [0, 1, 2, 3] then n else 3) ∈ [0, 1, 2, 3] := by
    intro n
    split
    · assumption
    · simp
  cases ending with
  | timeout => simp [endStatus]
  | exited returncode => exact hvalid _

theorem checkFinished_last (hr : Readable c.lastPoll) (ht : a.timeout = c.action.timeout) (hc : a.checkTime = c.action.checkTime) :
    ∃ a' out err, checkFinished textConf c.lastPoll a = .ok a' ∧
      out.toByteArray = a.stdoutdata.toByteArray ++ c.last.stdout.chunk ∧
      err.toByteArray = a.stderrdata.toByteArray ++ c.heardLast ∧
      a'.output = endText c.ending out err ∧ a'.exitStatus = endStatus c.ending err := by
  unfold lastPoll at hr ⊢
  unfold heardLast
  cases he : c.ending with
  | exited returncode =>
    rw [he] at hr
    obtain ⟨-, out, hout⟩ := (readExited_cases a.stdoutdata c.last.stdout.read).resolve_right fun h => h.1 hr.1
    obtain ⟨-, err, herr⟩ := (readExited_cases a.stderrdata c.last.stderr.read).resolve_right fun h => h.1 hr.2
    have hends := finished_ends c.last.now returncode
      { { a with lastPoll := c.last.polledAt } with stdoutdata := out, stderrdata := err }
    refine ⟨_, out, err, ?_, readExited_gathers hout, readExited_gathers herr, hends⟩
    simp only [checkFinished, hout, herr]
  | timeout =>
    rw [he] at hr
    obtain ⟨-, out, err, hok⟩ := (readRunning_cases c.last.stdout.read c.last.stderr.read (polledAction c.last a)).resolve_right
      fun h => h.1 hr
    have hg := readRunning_gathers hok
    have hends := timedOut_ends c.last.now { polledAction c.last a with stdoutdata := out, stderrdata := err }
    refine ⟨_, out, err, ?_, hg.stdoutdata, hg.stderrdata, hends⟩
    have hlate : (polledAction c.last a).timeout < c.last.now - (polledAction c.last a).checkTime := by
      change a.timeout < c.last.now - a.checkTime
      rw [ht, hc]
      exact c.late he
    dsimp only
    rw [checkFinished_running, hok]
    exact if_pos hlate

theorem stdout_eq (c : Course) : c.stdout = joined (c.looks.map (·.stdout.chunk)) ++ c.last.stdout.chunk := by
  unfold Course.stdout
  rw [List.map_append, joined_append]
  exact congrArg _ (joined_singleton _)

theorem heardStderr_eq (c : Course) : c.heardStderr = joined (c.looks.map heard) ++ c.heardLast := by
  unfold heardStderr
  rw [joined_append, joined_singleton]

theorem empty_append_bytes (b : ByteArray) : "".toByteArray ++ b = b := ByteArray.empty_append

theorem run_ok (h : ∀ l ∈ c.looks, Readable l.running) (hl : Readable c.lastPoll) :
    ∃ a out err', c.run = .ok a ∧ String.fromUTF8? c.stdout = some out ∧ String.fromUTF8? c.heardStderr = some err' ∧
      a.output = endText c.ending out err' ∧ a.exitStatus = endStatus c.ending err' := by
  obtain ⟨a₁, hok, hg⟩ := lookAll_ok c.looks c.action h c.inTime
  obtain ⟨a, out, err', hlast, hout, herr, hends⟩ := checkFinished_last hl hg.timeout hg.checkTime
  refine ⟨a, out, err', ?_, ?_, ?_, hends⟩
  · unfold run
    rw [hok]
    exact hlast
  · rw [fromUTF8?_eq_some, hout, hg.stdoutdata, c.stdoutdata, empty_append_bytes, stdout_eq]
  · rw [fromUTF8?_eq_some, herr, hg.stderrdata, c.stderrdata, empty_append_bytes, heardStderr_eq]

theorem readable_of_run (h : c.run = .ok a) : (∀ l ∈ c.looks, Readable l.running) ∧ Readable c.lastPoll := by
  unfold run at h
  cases hl : lookAll c.looks c.action with
  | error e =>
    rw [hl] at h
    cases h
  | ok a₁ =>
    rw [hl] at h
    refine ⟨lookAll_readable c.looks hl, ?_⟩
    rcases checkFinished_cases textConf c.lastPoll a₁ with ⟨hr, -⟩ | ⟨-, e, herror⟩
    · exact hr.readable
    · have hlast : checkFinished textConf c.lastPoll a₁ = .ok a := h
      rw [herror] at hlast
      cases hlast

end

/-! ## Errors that are lost -/

section
variable {out err err' : String}

def inked (s : String) : Nat := s.toList.countP fun c => !isSpace c

theorem countP_dropWhile_space (l : List Char) :
    (l.dropWhile isSpace).countP (fun c => !isSpace c) = l.countP fun c => !isSpace c := by
  induction l with
  | nil => rfl
  | cons c l ih =>
    cases hc : isSpace c with
    | true => rw [List.dropWhile_cons_of_pos hc, ih, List.countP_cons_of_neg (by simp [hc])]
    | false => rw [List.dropWhile_cons_of_neg (by simp [hc])]

theorem inked_strip (s : String) : inked (stripString s) = inked s := by
  unfold inked stripString strip List.rdropWhile
  rw [String.toList_ofList, List.countP_reverse, countP_dropWhile_space, List.countP_reverse, countP_dropWhile_space]

theorem inked_append (s t : String) : inked (s ++ t) = inked s + inked t := by
  unfold inked
  rw [String.toList_append, List.countP_append]

theorem strip_ne_of_inked (h : 0 < inked out) : stripString out ≠ "" := by
  intro he
  rw [← inked_strip, he] at h
  exact absurd h (by decide)

theorem strip_after_blank (h : stripString out = "") : stripString (out ++ err) = stripString err := by
  have hzero : inked out = 0 := by
    rw [← inked_strip, h]
    rfl
  have hblank : Blank out.toList := by
    intro c hc
    have hspace := List.countP_eq_zero.mp hzero c hc
    simpa using hspace
  unfold stripString strip
  rw [String.toList_append, dropWhile_blank_append hblank]

theorem inked_of_contains {part : String} (h : contains err part = true) (hp : 0 < inked part) : 0 < inked err := by
  unfold contains at h
  exact Nat.lt_of_lt_of_le hp ((of_decide_eq_true h).sublist.countP_le)

theorem inked_of_badSyntax (h : badSyntax err = true) : 0 < inked err := by
  unfold badSyntax at h
  simp only [Bool.or_eq_true, Bool.and_eq_true] at h
  rcases h with h | ⟨h, -⟩ | h
  · exact inked_of_contains h (by decide)
  · exact inked_of_contains h (by decide)
  · exact inked_of_contains h (by decide)

theorem endText_bad (returncode : Int) (out : String) (h : badSyntax err = true) :
    endText (.exited returncode) out err = stripString (out ++ err) := by
  have hink : 0 < inked (out ++ err) := by
    rw [inked_append]
    exact Nat.add_pos_right _ (inked_of_badSyntax h)
  unfold endText finalOutput
  simp only [h, if_true]
  exact if_neg (strip_ne_of_inked hink)

theorem endText_good (returncode : Int) (out : String) (h : badSyntax err = false) :
    endText (.exited returncode) out err = finalOutput out err := by
  unfold endText
  simp only [h, Bool.false_eq_true, if_false]

theorem finalOutput_eq_iff : finalOutput out err' = finalOutput out err ↔ err' = err ∨ stripString out ≠ "" := by
  unfold finalOutput
  by_cases h : stripString out = ""
  · simp [h]
  · simp [h]

theorem endStatus_good (returncode : Int) (h : badSyntax err = false) :
    endStatus (.exited returncode) err = 3 ↔ returncode ∉ [0, 1, 2] := by
  unfold endStatus
  simp only [h, Bool.false_eq_true, if_false, List.mem_cons, List.not_mem_nil, or_false]
  split <;> omega

theorem endStatus_bad (returncode : Int) (h : badSyntax err = true) : endStatus (.exited returncode) err = 3 := by
  unfold endStatus
  simp [h]

theorem ends_mixed (returncode : Int) (out : String) (h : badSyntax err = true) (h' : badSyntax err' = false) :
    (endText (.exited returncode) out err' = endText (.exited returncode) out err ∧
      endStatus (.exited returncode) err' = endStatus (.exited returncode) err) ↔
    stripString out = "" ∧ returncode ∉ [0, 1, 2] ∧ stripString err = err' := by
  rw [endText_bad returncode out h, endText_good returncode out h', endStatus_bad returncode h, endStatus_good returncode h']
  by_cases ho : stripString out = ""
  · rw [strip_after_blank ho, finalOutput, if_pos ho, and_iff_right ho, and_comm, eq_comm (a := err')]
  · refine iff_of_false ?_ fun hn => ho hn.1
    rintro ⟨htext, -⟩
    rw [finalOutput, if_neg ho] at htext
    have hink := congrArg inked htext
    rw [inked_strip, inked_strip, inked_append] at hink
    have hpos := inked_of_badSyntax h
    omega

theorem ends_iff (ending : Ending) (out err' err : String) :
    (endText ending out err' = endText ending out err ∧ endStatus ending err' = endStatus ending err) ↔
      err' = err ∨ Harmless ending out err' err := by
  cases ending with
  | timeout =>
    have hstatus : endStatus .timeout err' = endStatus .timeout err := rfl
    exact (and_iff_left hstatus).trans finalOutput_eq_iff
  | exited returncode =>
    unfold Harmless
    dsimp only
    cases h : badSyntax err with
    | true =>
      cases h' : badSyntax err' with
      | true =>
        rw [endText_bad returncode out h, endText_bad returncode out h', endStatus_bad returncode h, endStatus_bad returncode h']
        simp only [and_true, if_true]
        refine (or_iff_right_of_imp ?_).symm
        rintro rfl
        rfl
      | false =>
        rw [ends_mixed returncode out h h']
        simp only [Bool.false_eq_true, if_false, if_true]
        refine (or_iff_right ?_).symm
        rintro rfl
        rw [h] at h'
        cases h'
    | false =>
      cases h' : badSyntax err' with
      | true =>
        rw [eq_comm, eq_comm (a := endStatus _ err'), ends_mixed returncode out h' h]
        simp only [Bool.false_eq_true, if_false, reduceCtorEq]
        refine (or_iff_right ?_).symm
        rintro rfl
        rw [h] at h'
        cases h'
      | false =>
        rw [endText_good returncode out h, endText_good returncode out h', finalOutput_eq_iff]
        simp [endStatus, h, h']

end

/-- The output of a process is kept if and only if each piece that is decoded is
a text, and the errors that are not heard change nothing. -/
theorem kept_iff_sound (c : Course) : c.Kept ↔ c.Sound := by
  constructor
  · rintro ⟨a, out, err, hrun, hout, herr, houtput, hstatus, -⟩
    obtain ⟨hlooks, hlast⟩ := readable_of_run hrun
    obtain ⟨a', out', err', hrun', hout', herr', houtput', hstatus'⟩ := run_ok hlooks hlast
    rw [hrun] at hrun'
    cases hrun'
    rw [hout] at hout'
    cases hout'
    refine ⟨hlooks, hlast, out, err, err', hout, herr, herr', ?_⟩
    rw [(expected_ends c out err).1, houtput'] at houtput
    rw [(expected_ends c out err).2, hstatus'] at hstatus
    exact (ends_iff c.ending out err' err).mp ⟨houtput, hstatus⟩
  · rintro ⟨hlooks, hlast, out, err, err', hout, herr, herr', hlost⟩
    obtain ⟨a, out', err'', hrun, hout', herr'', houtput, hstatus⟩ := run_ok hlooks hlast
    rw [hout] at hout'
    cases hout'
    rw [herr'] at herr''
    cases herr''
    obtain ⟨htext, hexit⟩ := (ends_iff c.ending out err' err).mpr hlost
    refine ⟨a, out, err, hrun, hout, herr, ?_, ?_, ?_⟩
    · rw [houtput, htext, (expected_ends c out err).1]
    · rw [hstatus, hexit, (expected_ends c out err).2]
    · rw [hstatus]
      exact endStatus_valid c.ending err'

/-! ## A character in two pieces -/

def launchedAction : Action := ⟨0, "check", 10, .launched, 0, 0, 0, 0, "", "", "", "", "", 0⟩

/-- The two bytes of an accented letter, and then the end of the process. -/
def cutLetter : Course where
  action := launchedAction
  looks := [⟨1, 1, .bytes ⟨#[0xC3]⟩, .nothing⟩]
  last := ⟨2, 2, .bytes ⟨#[0xA9]⟩, .bytes ⟨#[]⟩⟩
  ending := .exited 0
  stdoutdata := rfl
  stderrdata := rfl
  inTime := by simp [launchedAction]
  late h := nomatch h

/-- An error that comes before any output. -/
def lostError : Course where
  action := launchedAction
  looks := [⟨1, 1, .nothing, .bytes "failed".toUTF8⟩]
  last := ⟨2, 2, .bytes ⟨#[]⟩, .bytes ⟨#[]⟩⟩
  ending := .exited 2
  stdoutdata := rfl
  stderrdata := rfl
  inTime := by simp [launchedAction]
  late h := nomatch h

/-- The first look raises although the whole is a text, and the error that stands
alone is lost. -/
theorem not_kept : String.fromUTF8? cutLetter.stdout = some "é" ∧ ¬ cutLetter.Kept ∧
    String.fromUTF8? lostError.stderr = some "failed" ∧ ¬ lostError.Kept := by
  refine ⟨by decide +kernel, ?_, by decide +kernel, ?_⟩
  · rintro ⟨a, out, err, hrun, -⟩
    have hraised : cutLetter.run.toOption = none := by decide +kernel
    rw [hrun] at hraised
    cases hraised
  · rintro ⟨a, out, err, hrun, hout, herr, houtput, -⟩
    have hempty : lostError.run.toOption.map Action.output = some "" := by decide +kernel
    rw [hrun] at hempty
    have hfailed : endText (.exited 2) "" "failed" = "failed" := by decide +kernel
    have hnone : out = "" := Option.some.inj (hout.symm.trans (by decide +kernel))
    have herror : err = "failed" := Option.some.inj (herr.symm.trans (by decide +kernel))
    rw [(expected_ends lostError out err).1, hnone, herror] at houtput
    have hkept : a.output = "failed" := houtput.trans hfailed
    have hlost : a.output = "" := Option.some.inj hempty
    rw [hkept] at hlost
    exact absurd hlost (by decide)

end Alignak.ProcessReads
