import Alignak.Dict
import Alignak.ExternalCommands

/-!
# The buffer of the legacy configuration

The lines of the buffer are joined at their backslashes, gathered into
definitions, and cut into properties and values.
-/

namespace Alignak

namespace ConfigBuffer

open ExternalCommandManager

abbrev Text := List Char

/-! ## Cutting a line -/

/-- `[\t\n\r]` -/
def isBreak (c : Char) : Bool := c == '\t' || c == '\n' || c == '\r'

/-- `[\x0b\x0c ]` -/
def isFill (c : Char) : Bool := c == '\x0b' || c == '\x0c' || c == ' '

/-- `string.whitespace` -/
def isWhitespace (c : Char) : Bool := isBreak c || isFill c

/-- The length of a match of `[\t\n\r]+|[\x0b\x0c ]{3,}` at the start, or 0. -/
def breakLength (l : Text) : Nat :=
  if l.head?.any isBreak then (l.takeWhile isBreak).length
  else if 3 ≤ (l.takeWhile isFill).length then (l.takeWhile isFill).length
  else 0

/-- What `([\t\n\r]+|[\x0b\x0c ]{3,})*` leaves. -/
def skipBreaks : Nat → Text → Text
  | 0, l => l
  | fuel + 1, l => if breakLength l = 0 then l else skipBreaks fuel (l.drop (breakLength l))

def splitBreak : Text → Option (Text × Text)
  | [] => none
  | c :: l =>
    if breakLength (c :: l) = 0 then (splitBreak l).map fun r => (c :: r.1, r.2)
    else some ([], skipBreaks l.length ((c :: l).drop (breakLength (c :: l))))

def splitSpace (l : Text) : List Text :=
  if l.any isWhitespace then
    [l.takeWhile fun c => !isWhitespace c, (l.dropWhile fun c => !isWhitespace c).dropWhile isWhitespace]
  else [l]

def cutLine (line : Text) : List Text :=
  (((splitBreak line).map fun r => [r.1, r.2]).getD (splitSpace line)).filterMap fun elt =>
    if (strip elt).isEmpty then none else some (strip elt)

/-! ## Reading the lines -/

structure Reading where
  tmp : List Text
  tmpType : Text
  inDefine : Bool
  almostInDefine : Bool
  continuationLine : Bool
  tmpLine : Text
  lineNb : Nat
  fileFrom : Text
  objectscfg : Dict Text (List (List Text))
  params : List Text

/-- `re.search(r"\\\s*$", line)` -/
def isContinued (line : Text) : Bool := (line.rdropWhile isSpace).getLast? == some '\\'

def continued (line : Text) : Text :=
  let line := (line.rdropWhile isSpace).dropLast
  if line.head?.any isSpace then ' ' :: line.dropWhile isSpace else line

/-- `^\s*#|^\s*$|^\s*}` -/
def isPassed (line : Text) : Bool :=
  match line.dropWhile isSpace with
  | [] => true
  | c :: _ => c == '#' || c == '}'

def defineText : Text := "define".toList

def typeOf (line : Text) : Text :=
  let words := strip ((line.dropWhile fun c => !isSpace c).tail.map fun c => if isSpace c then ' ' else c)
  strip (words.takeWhile (· != '{'))

def Reading.importedFrom (s : Reading) : Text :=
  "imported_from ".toList ++ (s.fileFrom ++ ':' :: Nat.toDigits 10 s.lineNb)

def Reading.saved (s : Reading) : Dict Text (List (List Text)) :=
  s.objectscfg.set s.tmpType ((s.objectscfg.get? s.tmpType).getD [] ++ [s.tmp])

def Reading.startDefine (s : Reading) (line : Text) : Reading :=
  { s with
    inDefine := s.inDefine || line.contains '{'
    almostInDefine := s.almostInDefine || !line.contains '{'
    objectscfg := s.saved
    tmp := [s.importedFrom]
    tmpType := typeOf line }

def Reading.put (s : Reading) (line : Text) : Reading :=
  if s.inDefine then { s with tmp := s.tmp ++ [line] } else { s with params := s.params ++ [line] }

def Reading.readComplete (s : Reading) (line : Text) : Reading :=
  let s := if strip line = ['}'] then { s with inDefine := false } else s
  if strip line = ['{'] ∧ s.almostInDefine = true then { s with almostInDefine := false, inDefine := true }
  else if isPassed line then s
  else if defineText.isPrefixOf line then s.startDefine line
  else s.put line

def fileMark : Text := "# imported_from=".toList

def Reading.readLine (s : Reading) (raw : Text) : Reading :=
  if fileMark.isPrefixOf raw then { s with fileFrom := (raw.splitOn '=').tail.headD [], lineNb := 0 }
  else
    let s := { s with lineNb := s.lineNb + 1 }
    let line := strip ((splitSemicolon raw none).headD [])
    if isContinued line then { s with continuationLine := true, tmpLine := s.tmpLine ++ continued line }
    else if s.continuationLine then
      Reading.readComplete { s with tmpLine := [], continuationLine := false } (s.tmpLine ++ line.dropWhile isSpace)
    else s.readComplete line

def startReading (configurationTypes : List Text) : Reading where
  tmp := []
  tmpType := "void".toList
  inDefine := false
  almostInDefine := false
  continuationLine := false
  tmpLine := []
  lineNb := 0
  fileFrom := []
  objectscfg := configurationTypes.foldl (fun d o_type => d.set o_type []) Dict.empty
  params := []

/-! ## Objects -/

abbrev Object := Dict Text (List Text)

def addValue (tmpObj : Object) (line : Text) : Object :=
  match cutLine line with
  | [] => tmpObj
  | prop :: rest => tmpObj.set prop ((tmpObj.get? prop).getD [] ++ [[' '].intercalate rest])

def buildObject (items : List Text) : Object := items.foldl addValue Dict.empty

def objectsOf (objectscfg : Dict Text (List (List Text))) : Dict Text (List Object) :=
  objectscfg.mapValues fun _ lists => (lists.map buildObject).filter fun tmpObj => !tmpObj.entries.isEmpty

structure Result where
  objects : Dict Text (List Object)
  params : List Text

def readConfigBuf (configurationTypes : List Text) (silent : Bool) (cfgBuffer : Text) : Result :=
  if !silent && cfgBuffer.isEmpty then ⟨Dict.empty, []⟩
  else
    let s := (cfgBuffer.splitOn '\n').foldl Reading.readLine (startReading configurationTypes)
    ⟨objectsOf s.saved, s.params⟩

end ConfigBuffer

end Alignak
