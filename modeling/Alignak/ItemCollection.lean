import Alignak.Dict
import Alignak.ExternalCommands
import Alignak.Replace

/-!
# Collections of configuration items

The class `Items` of `item.py`: the items and the templates of a kind with their
indexes by name.
-/

namespace Alignak

open ExternalCommandManager (readInt)

inductive IndexName
  | text (s : List Char)
  | pair (hostName serviceDescription : List Char)
  deriving DecidableEq, Repr

def IndexName.isEmpty : IndexName → Bool
  | text s => s.isEmpty
  | pair _ _ => false

structure ItemClass where
  myNameProperty : String
  myIndexProperty : Option String
  isExtInfo : Bool
  deriving DecidableEq, Repr

def ItemClass.host : ItemClass := ⟨"host_name", none, false⟩

def ItemClass.service : ItemClass := ⟨"service_description", some "host_service", false⟩

structure ConfigItem where
  uuid : Nat
  register : Bool
  definitionOrder : Option Int
  attrs : List (String × List Char)
  deriving DecidableEq, Repr

namespace ConfigItem

variable (x : ConfigItem)

def attr (name : String) : Option (List Char) := x.attrs.lookup name

def setAttr (name : String) (value : List Char) : ConfigItem :=
  { x with attrs := (name, value) :: x.attrs.filter fun a => a.1 ≠ name }

def isATemplate : Bool := !x.register

def order : Int := x.definitionOrder.getD 100

def attrOr (name default : String) : List Char := (x.attr name).getD default.toList

def getHostName : List Char := if x.attrOr "host_name" "unhosted" = [] then "unhosted".toList else x.attrOr "host_name" "unhosted"

/-- `get_name` of a service. -/
def serviceName : List Char :=
  if x.isATemplate then (x.attr "name").getD (x.attrOr "service_description" "Unnamed")
  else x.attrOr "service_description" "Unnamed"

def serviceRelation : List Char :=
  x.attrOr "host_name" "unknown" ++ '/' :: x.attrOr "service_description" "unknown" ++ "->".toList ++
    x.attrOr "dependent_host_name" "independant" ++ '/' :: x.attrOr "dependent_service_description" "unknown"

def hostRelation : List Char :=
  x.attrOr "host_name" "unknown" ++ "->".toList ++ x.attrOr "dependent_host_name" "independant"

/-- `getattr` of a name property: some are computed from other attributes. -/
def property (name : String) : Option IndexName :=
  if name = "host_service" then some (.pair x.getHostName x.serviceName)
  else if name = "service_relation" then some (.text x.serviceRelation)
  else if name = "host_relation" then some (.text x.hostRelation)
  else (x.attr name).map .text

end ConfigItem

structure ItemCollection where
  items : Dict Nat ConfigItem := Dict.empty
  nameToItem : Dict IndexName ConfigItem := Dict.empty
  templates : Dict Nat ConfigItem := Dict.empty
  nameToTemplate : Dict IndexName ConfigItem := Dict.empty
  nextUuid : Nat := 0

/-! ## Names with a range -/

/-- `pattern` is what stands between the brackets: min, max and a format. -/
structure NameRange where
  newName : List Char
  fmt : List Char
  minV : Int
  maxV : Int

def limitOf (limit : Option (List Char)) : Int :=
  match readInt (limit.getD []) with
  | .ok n => n
  | .error _ => 1

def nameRange (name : List Char) : Option NameRange :=
  if '[' ∈ name ∧ ']' ∈ name then
    let pattern := (name.take (name.idxOf ']')).drop (name.idxOf '[' + 1)
    if '-' ∈ pattern then
      let limits := pattern.splitOn '-'
      let fmt := if limits.length = 3 then (limits[2]?).getD [] else "%d".toList
      let cut := limits.take (if limits.length = 3 then 3 else 2)
      some ⟨replace ('[' :: ['-'].intercalate cut ++ [']']) "***".toList name, fmt, limitOf limits[0]?, limitOf limits[1]?⟩
    else none
  else none

/-- `range(min_v, max_v + 1)`. -/
def NameRange.numbers (r : NameRange) : List Int := (List.range (r.maxV + 1 - r.minV).toNat).map fun k => r.minV + k

section
variable (cls : ItemClass)

def getName (index : Bool) (x : ConfigItem) : IndexName :=
  if cls.isExtInfo then .text (((x.attr "host_name").orElse fun _ => x.attr "name").getD "UNKNOWN".toList)
  else
    let nameProperty := if index then cls.myIndexProperty.getD cls.myNameProperty else cls.myNameProperty
    let named := (x.property nameProperty).getD (.text "Unnamed".toList)
    if x.isATemplate then ((x.attr "name").map IndexName.text).getD named else named

def cloneNames (format : List Char → Int → Except Exn (List Char)) (name : IndexName) : Except Exn (List (List Char)) :=
  match name with
  | .pair hostName serviceDescription =>
    if [hostName, serviceDescription].contains ['['] && [hostName, serviceDescription].contains [']'] then .error .attributeError else .ok []
  | .text name =>
    match nameRange name with
    | none => .ok []
    | some r => r.numbers.mapM fun idx => do
      let number ← format r.fmt idx
      return replace "***".toList number r.newName

/-! ## Removal -/

def unindexItem (x : ConfigItem) (c : ItemCollection) : ItemCollection :=
  match x.property cls.myNameProperty with
  | none => c
  | some name => if name.isEmpty then c else { c with nameToItem := c.nameToItem.erase name }

def removeItem (x : ConfigItem) (c : ItemCollection) : ItemCollection :=
  let c := unindexItem cls x c
  { c with items := c.items.erase x.uuid }

def unindexTemplate (x : ConfigItem) (c : ItemCollection) : ItemCollection :=
  { c with nameToTemplate := c.nameToTemplate.erase (getName cls true x) }

def removeTemplate (x : ConfigItem) (c : ItemCollection) : ItemCollection :=
  let c := unindexTemplate cls x c
  { c with templates := c.templates.erase x.uuid }

/-! ## Indexing -/

def manageConflict (item : ConfigItem) (name : IndexName) (c : ItemCollection) : Except Exn (ConfigItem × ItemCollection) :=
  match (if item.isATemplate then c.nameToTemplate.get? name else c.nameToItem.get? name) with
  | none => .error .keyError
  | some existing =>
    if existing.uuid = item.uuid then .ok (item, c)
    else if existing.order < item.order then .ok (existing, c)
    else .ok (item, if item.isATemplate then removeTemplate cls existing c else removeItem cls existing c)

def indexItem (item : ConfigItem) (c : ItemCollection) : Except Exn (ConfigItem × ItemCollection) := do
  let name := getName cls true item
  let (kept, c) ← if !name.isEmpty && c.nameToItem.contains name then manageConflict cls item name c else .ok (item, c)
  return (kept, { c with nameToItem := c.nameToItem.set name kept })

def indexTemplate (template : ConfigItem) (c : ItemCollection) : Except Exn (ConfigItem × ItemCollection) := do
  let name := getName cls true template
  let (kept, c) ← if !name.isEmpty && c.nameToTemplate.contains name then manageConflict cls template name c else .ok (template, c)
  return (kept, { c with nameToTemplate := c.nameToTemplate.set name kept })

/-! ## Adding -/

/-- One object of `add_item`. -/
def place (index : Bool) (item : ConfigItem) (c : ItemCollection) : Except Exn ItemCollection := do
  let (kept, c) ← if index then indexItem cls item c else .ok (item, c)
  return { c with items := c.items.set kept.uuid kept, nextUuid := max c.nextUuid (item.uuid + 1) }

def definitions (format : List Char → Int → Except Exn (List Char)) (item : ConfigItem) (c : ItemCollection) :
    Except Exn (List ConfigItem) := do
  let names ← cloneNames format (getName cls true item)
  if names = [] then return [item]
  else return (names.zipIdx c.nextUuid).map fun clone => { item with uuid := clone.2 }.setAttr "host_name" clone.1

def addItem (format : List Char → Int → Except Exn (List Char)) (item : ConfigItem) (index : Bool) (c : ItemCollection) :
    Except Exn ItemCollection := do
  let objects ← definitions cls format item c
  objects.foldlM (fun c object => place cls index object c) c

def addServiceTemplate (template : ConfigItem) (c : ItemCollection) : Except Exn ItemCollection := do
  let hostName := template.attrOr "host_name" ""
  let serviceDescription := template.attrOr "service_description" ""
  let (kept, c) ←
    if (getName cls false template).isEmpty then
      if hostName = [] ∨ serviceDescription = [] then .ok (template, c)
      else indexTemplate cls (template.setAttr "name" (hostName ++ '_' :: serviceDescription)) c
    else indexTemplate cls template c
  return { c with templates := c.templates.set kept.uuid kept }

def addTemplate (template : ConfigItem) (c : ItemCollection) : Except Exn ItemCollection :=
  if cls.myIndexProperty = some "host_service" then addServiceTemplate cls template c
  else do
    let (kept, c) ← indexTemplate cls template c
    return { c with templates := c.templates.set kept.uuid kept }

end

end Alignak
