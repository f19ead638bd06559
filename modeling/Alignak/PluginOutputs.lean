import Alignak.ReplaceCounts

/-!
# The outputs of a plugin

`get_outputs` cuts what a plugin has written: an output, performance data behind
a pipe, and more lines with the same two parts.
-/

namespace Alignak.Action

structure Outputs where
  output : List Char
  longOutput : List Char
  perfData : List Char
  deriving DecidableEq, Repr

def escapedPipe : List Char := ['\\', '|']

def placeholder : List Char := "___PROTECT_PIPE___".toList

/-- `.replace('___PROTECT_PIPE___', '|')`. -/
def reveal (text : List Char) : List Char := replace placeholder ['|'] text

section
variable {α : Type} [DecidableEq α]

/-- What stands before the first `x`. -/
def before (x : α) (l : List α) : List α := l.takeWhile (· != x)

/-- What stands behind the first `x`. -/
def after (x : α) (l : List α) : List α := (l.dropWhile (· != x)).drop 1

end

structure Cutting where
  longOutput : List (List Char)
  perfData : List Char
  inPerfdata : Bool

def cutLine (s : Cutting) (line : List Char) : Cutting :=
  if s.inPerfdata then { s with perfData := s.perfData ++ ' ' :: reveal (strip line) }
  else if '|' ∈ line then
    ⟨s.longOutput ++ [reveal (strip (before '|' line))], s.perfData ++ ' ' :: reveal (strip (after '|' line)), true⟩
  else { s with longOutput := s.longOutput ++ [reveal (strip (before '|' line))] }

def perfDataOf (eltsLine1 : List (List Char)) : List Char :=
  match eltsLine1[1]? with
  | some part => reveal (strip part)
  | none => []

def getOutputs (maxPluginsOutputLength : Nat) (out : List Char) : Outputs :=
  let out := replace escapedPipe placeholder (out.take maxPluginsOutputLength)
  let elts := out.splitOn '\n'
  let eltsLine1 := (elts.headD []).splitOn '|'
  let s := elts.tail.foldl cutLine ⟨[], perfDataOf eltsLine1, false⟩
  { output := reveal (strip (eltsLine1.headD []))
    longOutput := ['\n'].intercalate s.longOutput
    perfData := strip s.perfData }

/-! ## The characters of a text -/

inductive Mark
  | plain (c : Char)
  | escaped
  deriving DecidableEq, Repr

def marks : List Char → List Mark
  | [] => []
  | [c] => [.plain c]
  | c :: d :: text => if c = '\\' ∧ d = '|' then .escaped :: marks text else .plain c :: marks (d :: text)

def Mark.shown : Mark → Char
  | plain c => c
  | escaped => '|'

def Mark.isBlank : Mark → Bool
  | plain c => isSpace c
  | escaped => false

def bar : Mark := .plain '|'

def trim (l : List Mark) : List Mark := (l.dropWhile Mark.isBlank).rdropWhile Mark.isBlank

def upToBar : List (List Mark) → List (List Mark)
  | [] => []
  | line :: lines => if bar ∈ line then [before bar line] else line :: upToBar lines

def pastBar : List (List Mark) → List (List Mark)
  | [] => []
  | line :: lines => if bar ∈ line then after bar line :: lines else pastBar lines

def join (sep : Char) (parts : List (List Mark)) : List Mark := [Mark.plain sep].intercalate parts

def lines (out : List Char) : List (List Mark) := (marks out).splitOn (.plain '\n')

def firstLine (out : List Char) : List Mark := (lines out).headD []

def outputMarks (out : List Char) : List Mark := trim (before bar (firstLine out))

def longOutputMarks (out : List Char) : List Mark := join '\n' ((upToBar (lines out).tail).map trim)

def perfDataMarks (out : List Char) : List Mark := trim (join ' ' ((after bar (firstLine out) :: pastBar (lines out).tail).map trim))

def LosesNothing (out : List Char) (outputs : Outputs) : Prop :=
  outputs = ⟨(outputMarks out).map Mark.shown, (longOutputMarks out).map Mark.shown, (perfDataMarks out).map Mark.shown⟩

end Alignak.Action
