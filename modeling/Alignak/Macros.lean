import Alignak.Exn
import Alignak.Numerals
import Alignak.Replace

/-!
# The macros of a command line

A command line holds the names of macros between dollars. The resolver puts
their values in the place of the names, again and again until no name is left
or it has looped too often.
-/

namespace Alignak.Macros

abbrev Text := List Char

structure MacroProperty where
  name : Text
  args : List Text
  deriving DecidableEq, Repr

/-- What an element holds for a property: a call returns a text or raises `AttributeError`. -/
inductive Attribute
  | missing
  | text (value : Text)
  | items (values : List Text)
  | call (result : Option Text)
  deriving DecidableEq, Repr

/-- `macros` is the table of the class, and an empty name is in none of them. -/
structure ItemClass where
  myType : Text
  macros : Text → Option MacroProperty
  unnamed : macros [] = none

structure Element where
  cls : ItemClass
  hostName : Text
  getattr : MacroProperty → Attribute
  customs : List (Text × Text)
  macromodulations : List Nat

structure MacroModulation where
  isActive : Bool
  customs : List (Text × Text)

structure OnDemandList where
  innerClass : ItemClass
  findByName : Text → Option Element

/-- The resolver once it is initialized; `itself` and `myConf` are the two
objects that it adds to the data of a command. -/
structure MacroResolver where
  itself : Element
  myConf : Option Element
  listsOnDemand : List OnDemandList
  findSrvByNameAndHostname : Text → Text → Option Element
  macromodulations : Nat → Option MacroModulation
  illegalMacroOutputChars : Text
  /-- `str.isalnum` of a character. -/
  isAlnum : Char → Bool
  /-- `str.upper` -/
  upper : Text → Text

def outputMacros : List Text :=
  ["HOSTOUTPUT".toList, "HOSTPERFDATA".toList, "HOSTACKAUTHOR".toList, "HOSTACKCOMMENT".toList,
    "SERVICEOUTPUT".toList, "SERVICEPERFDATA".toList, "SERVICEACKAUTHOR".toList, "SERVICEACKCOMMENT".toList]

def notAvailable : Text := "n/a".toList

/-! ## The macros of a text -/

structure Cut where
  inMacro : Bool
  macros : List Text

def cut (s : Cut) (elt : Text) : Cut :=
  if elt = ['$'] then { s with inMacro := !s.inMacro }
  else if s.inMacro then { s with macros := if s.macros.contains elt then s.macros else s.macros ++ [elt] }
  else s

def getMacros (chain : Text) : List Text :=
  (((chain.splitOn '$').intersperse ['$']).foldl cut ⟨false, []⟩).macros

/-! ## Types -/

inductive MacroType
  | argn
  | custom (cls : Text)
  | ondemand
  | object (obj : Element)
  | unknown

/-- `re.match(r'ARG\d', macro)` -/
def isArgN : Text → Bool
  | 'A' :: 'R' :: 'G' :: c :: _ => Numerals.isDecimal c
  | _ => false

/-- `re.match(r'_HOST\w', macro)`, and the same for the other classes. -/
def isCustomOf (mr : MacroResolver) (cls m : Text) : Bool :=
  ('_' :: cls).isPrefixOf m && ((m.drop (cls.length + 1)).head?.any fun c => mr.isAlnum c || c == '_')

def getTypeOfMacro (mr : MacroResolver) (objs : List Element) (m : Text) : MacroType :=
  if isArgN m then .argn
  else if isCustomOf mr "HOST".toList m then .custom "HOST".toList
  else if isCustomOf mr "SERVICE".toList m then .custom "SERVICE".toList
  else if isCustomOf mr "CONTACT".toList m then .custom "CONTACT".toList
  else if 1 < (m.splitOn ':').length then .ondemand
  else match objs.reverse.find? fun obj => (obj.cls.macros m).isSome with
    | some obj => .object obj
    | none => .unknown

/-! ## Values -/

def getValueFromElement (elt : Element) (prop : MacroProperty) : Text :=
  match elt.getattr prop with
  | .missing => notAvailable
  | .text value => value
  | .items values => '[' :: [','].intercalate values ++ [']']
  | .call (some value) => value
  | .call none => notAvailable

def deleteUnwantedCaracters (illegal chain : Text) : Text := illegal.foldl (fun chain char => replace [char] [] chain) chain

/-- `$ARG0$` takes the last argument. -/
def resolveArgn (m : Text) (args : List Text) : Text :=
  let id := Nat.ofDigitChars 10 (((m.drop 3).takeWhile Numerals.isDecimal).map Numerals.asciiDigit) 0
  if id = 0 then args.getLast?.getD [] else (args[id - 1]?).getD []

/-- An empty host name stands for the last host of the data. -/
def hostNameIn (data : List Element) (name : Text) : Text :=
  if name = [] then ((data.filter fun elt => elt.cls.myType = "host".toList).getLast?.map Element.hostName).getD [] else name

def resolveInLists (macroName eltName : Text) : List OnDemandList → Text
  | [] => []
  | l :: ls =>
    match l.innerClass.macros macroName with
    | none => resolveInLists macroName eltName ls
    | some prop =>
      match l.findByName eltName with
      | none => resolveInLists macroName eltName ls
      | some i => getValueFromElement i prop

section
variable (mr : MacroResolver) (data : List Element)

def resolveOndemand (m : Text) : Except Exn Text :=
  match m.splitOn ':' with
  | [macroName, hostName, serviceDescription] =>
    match mr.findSrvByNameAndHostname (hostNameIn data hostName) serviceDescription with
    | none => .ok notAvailable
    | some serv =>
      match serv.cls.macros macroName with
      | none => .error .keyError
      | some prop => .ok (getValueFromElement serv prop)
  | macroName :: eltName :: _ => .ok (resolveInLists macroName (hostNameIn data eltName) mr.listsOnDemand)
  | _ => .ok []

def resolveObject (obj : Element) (m : Text) : Text :=
  match obj.cls.macros m with
  | none => []
  | some prop =>
    if prop.name = [] then []
    else if outputMacros.contains m then deleteUnwantedCaracters mr.illegalMacroOutputChars (getValueFromElement obj prop)
    else getValueFromElement obj prop

def resolveModulation (name : Text) (value : Text) (id : Nat) : Except Exn Text :=
  match mr.macromodulations id with
  | none => .error .keyError
  | some modulation => .ok (if modulation.isActive then (modulation.customs.lookup name).getD value else value)

def resolveCustom (cls m : Text) : Except Exn Text :=
  let name := '_' :: mr.upper (m.drop (cls.length + 1))
  data.foldlM (fun value elt =>
    if elt.cls.myType.map Char.toUpper ≠ cls ∨ elt.customs = [] then .ok value
    else elt.macromodulations.reverse.foldlM (resolveModulation mr name) ((elt.customs.lookup name).getD value)) []

def getValue (args : Option (List Text)) (m : Text) : Except Exn Text :=
  match getTypeOfMacro mr data m with
  | .argn => .ok ((args.map (resolveArgn m)).getD [])
  | .object obj => .ok (resolveObject mr obj m)
  | .custom cls => resolveCustom mr data cls m
  | .ondemand => resolveOndemand mr data m
  | .unknown => .ok []

def getValues (args : Option (List Text)) : List Text → Except Exn (List (Text × Text))
  | [] => .ok []
  | m :: ms => do
    let value ← getValue mr data args m
    let values ← getValues args ms
    return (m, value) :: values

end

/-! ## The loop -/

def dollared (m : Text) : Text := '$' :: m ++ ['$']

/-- The "big dirty thing" that stands for `$$`. -/
def doubleDollar : Text := "DOUBLEDOLLAR".toList

def replaceMacros (macros : List (Text × Text)) (cLine : Text) : Text :=
  replace ['$', '$'] doubleDollar (macros.foldl (fun cLine v => replace (dollared v.1) v.2 cLine) cLine)

section
variable (mr : MacroResolver) (data : List Element) (args : Option (List Text))

def resolveLoop : Nat → Nat → Text → Except Exn Text
  | 0, _, _ => .error .diverges
  | fuel + 1, nbLoop, cLine =>
    if getMacros cLine = [] then .ok cLine
    else do
      let macros ← getValues mr data args (getMacros cLine)
      let cLine := replaceMacros macros cLine
      if nbLoop + 1 > 32 then return cLine else resolveLoop fuel (nbLoop + 1) cLine

def resolveSimpleMacrosInString (fuel : Nat) (cLine : Text) : Except Exn Text := do
  let cLine ← resolveLoop mr (data ++ mr.itself :: mr.myConf.toList) args fuel 0 cLine
  return strip (replace doubleDollar ['$'] cLine)

end

end Alignak.Macros
