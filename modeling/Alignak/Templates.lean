import Alignak.Dict
import Alignak.Exn
import Alignak.Strip
import Mathlib.Logic.Function.Basic

/-!
# Items, templates and inheritance

`Items` is the container of the items and of the templates of one class, with
the objects on a heap indexed by their identifier.
-/

namespace Alignak

/-- The value of a property. `listOf` is a list with a list put in front. -/
inductive Value
  | none
  | str (s : String)
  | num (n : Int)
  | list (l : List String)
  | listOf (head : List String) (tail : Value)
  deriving DecidableEq, Repr

namespace Value

/-- `value is None or (isinstance(value, list) and not value)` -/
def isVoid : Value → Bool
  | none => true
  | list [] => true
  | _ => false

/-- `isinstance(value, list) and value[0] == '+'`, on a list that is not empty -/
def isAdditive : Value → Bool
  | list (s :: _) => s == "+"
  | _ => false

/-- `isinstance(value, (list, string_types)) and value and value[0] == '+'` -/
def startsWithPlus : Value → Bool
  | list (s :: _) => s == "+"
  | str s => s.toList.head? == some '+'
  | _ => false

/-- `value[1:]` -/
def tail : Value → Value
  | list l => list l.tail
  | str s => str (String.ofList s.toList.tail)
  | v => v

/-- `list(value)`, and what `extend` adds -/
def toList : Value → Except Exn (List String)
  | list l => .ok l
  | str s => .ok (s.toList.map fun c => String.singleton c)
  | _ => .error .typeError

/-- `value.insert(0, l)` -/
def insert (l : List String) : Value → Except Exn Value
  | list l' => .ok (listOf l (list l'))
  | listOf h t => .ok (listOf l (listOf h t))
  | _ => .error .attributeError

end Value

/-- The unique ordered list of the source's `new_list` loops. -/
def uniq (l : List String) : List String := l.foldl (fun acc e => if e ∈ acc then acc else acc ++ [e]) []

structure Item where
  isATemplate : Bool
  getName : String
  importedFrom : String
  use : List String
  templates : List Nat
  tags : List String
  attr : String → Option Value
  plus : Dict String (List String)
  customs : Dict String Value
  configurationWarnings : List String

structure Items where
  myType : String
  /-- The properties of the inner class. -/
  properties : List String
  items : List Nat
  templates : List Nat
  obj : Nat → Item
  nameToTemplate : String → Option Nat
  confIsCorrect : Bool
  configurationErrors : List String

namespace Item

def getTemplates (o : Item) : List String := (o.use.map stripString).filter fun n => n ≠ ""

def hasPlus (o : Item) (prop : String) : Bool := o.plus.contains prop

def setAttr (o : Item) (prop : String) (v : Value) : Item := { o with attr := Function.update o.attr prop (some v) }

def delAttr (o : Item) (prop : String) : Item := { o with attr := Function.update o.attr prop none }

def delPlus (o : Item) (prop : String) : Item := { o with plus := o.plus.erase prop }

/-- Unique elements, and no `+` left in an item. -/
def cleanList (o : Item) (l : List String) : List String :=
  if o.isATemplate then uniq l else (uniq l).filter fun e => e ≠ "+"

def clean (o : Item) : Value → Value
  | .list l => .list (o.cleanList l)
  | v => v

/-- Templates keep the `+` at the beginning of the chain. -/
def markPlus (o : Item) (l : List String) : List String :=
  if o.isATemplate && !l.isEmpty && l.head? != some "+" then "+" :: l else l

/-- The values with a `+` that are left become custom variables. -/
def getAllPlusAndDelete (o : Item) : Item :=
  { o with
    plus := Dict.empty
    customs := o.plus.entries.foldl (fun customs entry => customs.set entry.1 (.list entry.2)) o.customs }

end Item

namespace Items

def setObj (S : Items) (x : Nat) (o : Item) : Items := { S with obj := Function.update S.obj x o }

def addError (S : Items) (message : String) : Items :=
  { S with confIsCorrect := false, configurationErrors := S.configurationErrors ++ [message] }

/-! ## Linking the templates -/

def linkifyTemplate (x : Nat) (S : Items) (templateName : String) : Items :=
  let item := S.obj x
  match S.nameToTemplate templateName with
  | none => S.setObj x { item with configurationWarnings := item.configurationWarnings ++
      ["use/inherit from an unknown template: " ++ templateName ++ "; from: " ++ item.importedFrom] }
  | some template =>
    if template = x then
      S.addError ("[" ++ S.myType ++ "::" ++ item.getName ++ "] use/inherits from itself; from: " ++ item.importedFrom)
    else if template ∈ item.templates then S
    else S.setObj x { item with templates := item.templates ++ [template] }

def linkifyItemTemplates (S : Items) (x : Nat) : Items :=
  (S.obj x).getTemplates.foldl (linkifyTemplate x) (S.setObj x { S.obj x with templates := [] })

def tagsOfTemplates (rec : Nat → Except Exn (List String)) (S : Items) : List Nat → Except Exn (List String)
  | [] => .ok []
  | t :: ts => do
    let tags ← rec t
    let rest ← tagsOfTemplates rec S ts
    return (S.obj t).getName :: tags ++ rest

def getAllTags (S : Items) : Nat → Nat → Except Exn (List String)
  | 0, _ => .error .diverges
  | fuel + 1, x => do
    let tags ← tagsOfTemplates (getAllTags S fuel) S (S.obj x).templates
    return ((S.obj x).getTemplates ++ tags).dedup

def tagItems (fuel : Nat) : List Nat → Items → Except Exn Items
  | [], S => .ok S
  | x :: xs, S => do
    let tags ← getAllTags S fuel x
    tagItems fuel xs (S.setObj x { S.obj x with tags := tags })

def linkifyTemplates (fuel : Nat) (S : Items) : Except Exn Items :=
  let S := S.templates.foldl linkifyItemTemplates S
  let S := S.items.foldl linkifyItemTemplates S
  tagItems fuel S.items S

end Items

/-! ## Properties -/

abbrev Heap := Nat → Item

namespace Heap

def set (H : Heap) (x : Nat) (o : Item) : Heap := Function.update H x o

def mergeValue (o : Item) (prop : String) (value : Value) : Except Exn Value :=
  let value := if value.isAdditive && !o.isATemplate then value.tail else value
  match o.attr prop with
  | none => .ok (o.clean value)
  | some current => do
    let newVal ← current.toList
    let rest ← (if value.startsWithPlus then value.tail else value).toList
    return o.clean (.list (newVal ++ rest))

/-- The own `+` value put at the end of the value found in the templates. -/
def addPlus (o : Item) (value : Value) (plus : List String) : Except Exn Value := do
  let value := (← value.toList) ++ plus
  if o.isATemplate && value.isEmpty then .error .indexError
  else return o.clean (.list (o.markPlus value))

/-- The loop over the templates: the value returned, or `none` at its end. -/
def walkTemplates (rec : Heap → Nat → Except Exn (Value × Heap)) (x : Nat) (prop : String) :
    List Nat → Heap → Except Exn (Option Value × Heap)
  | [], H => .ok (none, H)
  | t :: ts, H => do
    let (value, H) ← rec H t
    if value.isVoid then walkTemplates rec x prop ts H
    else
      let stillLoop := value.isAdditive
      let value ← mergeValue (H x) prop value
      let H := H.set x ((H x).setAttr prop value)
      if stillLoop then walkTemplates rec x prop ts H
      else
        match (H x).plus.get? prop with
        | none => return (some value, H)
        | some plus =>
          let value ← addPlus (H x) value plus
          return (some value, H.set x (((H x).delPlus prop).setAttr prop value))

/-- The value after the loop: the `+` values of the templates, the own one. -/
def endOfTemplates (H : Heap) (x : Nat) (prop : String) : Except Exn (Value × Heap) :=
  let o := H x
  match o.plus.get? prop with
  | none => .ok ((o.attr prop).getD .none, H)
  | some plus => do
    let current ← ((o.attr prop).getD (.list [])).toList
    let value := o.clean (.list (o.markPlus (current ++ plus)))
    return (value, H.set x ((o.delPlus prop).setAttr prop value))

def getPropertyByInheritance (prop : String) : Nat → Heap → Nat → Except Exn (Value × Heap)
  | 0, _, _ => .error .diverges
  | fuel + 1, H, x =>
    if prop = "register" then .ok (.none, H)
    else
      match (H x).attr prop with
      | some value =>
        -- a list put in front of a list cannot be made a set
        if (H x).hasPlus prop then .error .typeError
        else .ok ((H x).clean value, H)
      | none => do
        let (res, H) ← walkTemplates (getPropertyByInheritance prop fuel) x prop (H x).templates H
        match res with
        | some value => return (value, H)
        | none => endOfTemplates H x prop

/-- One turn of `apply_partial_inheritance`. -/
def inheritProperty (fuel : Nat) (prop : String) (H : Heap) (x : Nat) : Except Exn Heap := do
  let (_, H) ← getPropertyByInheritance prop fuel H x
  -- a "null" attribute that was inherited is deleted
  if (H x).attr prop = some (.str "null") then return H.set x ((H x).delAttr prop)
  else return H

/-! ## Custom variables -/

def inheritCustom (x : Nat) (H : Heap) (entry : String × Value) : Except Exn Heap :=
  let o := H x
  let value := (o.customs.get? entry.1).getD entry.2
  match o.plus.get? entry.1 with
  | none => .ok (H.set x { o with customs := o.customs.set entry.1 value })
  | some plus => do
    let value ← value.insert plus
    return H.set x { o.delPlus entry.1 with customs := o.customs.set entry.1 value }

/-- The own `+` value of a custom variable. -/
def plusCustom (x : Nat) (H : Heap) (entry : String × Value) : Except Exn Heap :=
  let o := H x
  match o.plus.get? entry.1 with
  | none => .ok H
  | some plus => do
    let value ← entry.2.insert plus
    return H.set x { o.delPlus entry.1 with customs := o.customs.set entry.1 value }

def getCustomsPropertiesByInheritance : Nat → Heap → Nat → Except Exn Heap
  | 0, _, _ => .error .diverges
  | fuel + 1, H, x => do
    let H ← (H x).templates.foldlM (fun H t => do
      let H ← getCustomsPropertiesByInheritance fuel H t
      (H t).customs.entries.foldlM (inheritCustom x) H) H
    let H ← (H x).customs.entries.foldlM (plusCustom x) H
    return H.set x (H x).getAllPlusAndDelete

end Heap

namespace Items

def applyPartialInheritance (fuel : Nat) (S : Items) (prop : String) : Except Exn Items := do
  let H ← (S.items ++ S.templates).foldlM (Heap.inheritProperty fuel prop) S.obj
  return { S with obj := H }

def applyInheritance (fuel : Nat) (S : Items) : Except Exn Items := do
  let S ← S.properties.foldlM (applyPartialInheritance fuel) S
  let H ← (S.items ++ S.templates).foldlM (Heap.getCustomsPropertiesByInheritance fuel) S.obj
  return { S with obj := H }

end Items

end Alignak
