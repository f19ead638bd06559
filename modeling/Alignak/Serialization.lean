import Alignak.TimeperiodObjects
import Alignak.DependencyNode
import Alignak.Json

/-!
# Serialization of configuration objects

How timeperiods and business rules travel to the schedulers: an object is
written with the path of its class and its content, and `unserialize` builds it
again from the value that JSON has carried.
-/

namespace Alignak

/-! ## Business rule objects -/

mutual
inductive RuleObject
  | mk (operand : Option String) (sons : List RuleSon) (ofValues : OfValues) (isOfMul notValue : Bool)

inductive RuleSon
  | missing
  | uuid (s : String)
  | node (n : RuleObject)
end

namespace RuleObject

variable (items : RuleItems String)

/-- `hosts[self.sons[0]]` -/
def watchedSon (kind : ItemKind) : List RuleSon → Except Exn Watched
  | [] => .error .indexError
  | .uuid s :: _ => .ok (items.watched kind s)
  | _ :: _ => .error .keyError

def operatorOf (operand : String) : Option Operator :=
  if operand = "|" then some .or else if operand = "&" then some .and else if operand = "of:" then some .of else none

mutual
def getState : RuleObject → Except Exn Nat
  | mk none _ _ _ _ => .ok 4
  | mk (some operand) sons ofValues isOfMul notValue =>
    if operand = "host" then do return DependencyNode.getHostNodeState (← watchedSon items .host sons) notValue
    else if operand = "service" then do return DependencyNode.getServiceNodeState (← watchedSon items .service sons) notValue
    else match operatorOf operand with
      | none => .ok 4
      | some operator => do
        let states ← statesOf sons
        let state ← DependencyNode.combinedState items.reaches operator ofValues isOfMul states
        return if notValue then DependencyNode.getReverseState state else state

def statesOf : List RuleSon → Except Exn (List Nat)
  | [] => .ok []
  | .node n :: sons => do
    let state ← getState n
    let states ← statesOf sons
    return state :: states
  | _ :: _ => .error .attributeError
end

end RuleObject

/-! ## Serialization -/

def Json.ofObject (path : String) (content : List (String × Json)) : Json :=
  .obj [("__sys_python_module__", .str path), ("content", .obj content)]

namespace Timerange

def json : Option Timerange → Json
  | some r => .obj [("hstart", .int r.hstart), ("mstart", .int r.mstart), ("hend", .int r.hend), ("mend", .int r.mend),
      ("is_valid", .bool true)]
  | none => .obj [("hstart", .str "00:00"), ("mstart", .str "00:00"), ("hend", .str "00:00"), ("mend", .str "00:00"),
      ("is_valid", .bool false)]

end Timerange

namespace DaterangeObject

def className : Option DaterangeClass → String
  | none => "alignak.daterange.Daterange"
  | some .calendar => "alignak.daterange.CalendarDaterange"
  | some .monthWeekDay => "alignak.daterange.MonthWeekDayDaterange"
  | some .monthDate => "alignak.daterange.MonthDateDaterange"
  | some .weekDay => "alignak.daterange.WeekDayDaterange"
  | some .monthDay => "alignak.daterange.MonthDayDaterange"

def standardName : String := "alignak.daterange.StandardDaterange"

def json : DaterangeObject → Json
  | dated cls d skipInterval other timeranges => .ofObject (className cls)
      [("syear", .int d.syear), ("smon", .int d.smon), ("smday", .int d.smday),
       ("swday", .int d.swday), ("swday_offset", .int d.swdayOffset),
       ("eyear", .int d.eyear), ("emon", .int d.emon), ("emday", .int d.emday),
       ("ewday", .int d.ewday), ("ewday_offset", .int d.ewdayOffset),
       ("skip_interval", .int skipInterval), ("other", .str other),
       ("timeranges", .arr (timeranges.map Timerange.json))]
  | standard day other timeranges => .ofObject standardName
      [("day", .str day), ("other", .str other), ("timeranges", .arr (timeranges.map Timerange.json))]

end DaterangeObject

def Attribute.json : Attribute → Json
  | flag b => .bool b
  | number n => .int n
  | text s => .str s
  | texts l => .arr (l.map .str)

namespace TimeperiodProperty

def key : TimeperiodProperty → String
  | name => "name"
  | importedFrom => "imported_from"
  | use => "use"
  | definitionOrder => "definition_order"
  | register => "register"
  | timeperiodName => "timeperiod_name"
  | aliasName => "alias"
  | unresolved => "unresolved"
  | invalidEntries => "invalid_entries"
  | isActive => "is_active"
  | activatedOnce => "activated_once"

def default : TimeperiodProperty → Option Attribute
  | name => some (.text "")
  | importedFrom => some (.text "alignak-self")
  | use => some (.texts [])
  | definitionOrder => some (.number 100)
  | register => some (.number 1)
  | timeperiodName => none
  | aliasName => some (.text "")
  | unresolved => some (.texts [])
  | invalidEntries => some (.texts [])
  | isActive => some (.flag false)
  | activatedOnce => some (.flag false)

def before : List TimeperiodProperty := [name, importedFrom, use, definitionOrder, register, timeperiodName, aliasName]

def after : List TimeperiodProperty := [unresolved, invalidEntries, isActive, activatedOnce]

end TimeperiodProperty

namespace TimeperiodObject

def className : String := "alignak.objects.timeperiod.Timeperiod"

def attributesJson (attributes : TimeperiodProperty → Attribute) (properties : List TimeperiodProperty) : List (String × Json) :=
  properties.map fun property => (property.key, (attributes property).json)

def content (uuid : String) (attributes : TimeperiodProperty → Attribute) (dateranges exclude : List Json) : List (String × Json) :=
  ("uuid", .str uuid) :: attributesJson attributes TimeperiodProperty.before ++
    ("dateranges", .arr dateranges) :: ("exclude", .arr exclude) :: attributesJson attributes TimeperiodProperty.after

mutual
/-- The dateranges and the excluded timeperiods of the content are objects still:
the encoder writes them with `default_serialize`. -/
def json : TimeperiodObject → Json
  | mk uuid attributes dateranges exclude =>
    .ofObject className (content uuid attributes (dateranges.map DaterangeObject.json) (excludeJson exclude))

def excludeJson : List Excluded → List Json
  | [] => []
  | .uuid s :: l => .str s :: excludeJson l
  | .timeperiod tp :: l => json tp :: excludeJson l
end

end TimeperiodObject

namespace RuleObject

def className : String := "alignak.dependencynode.DependencyNode"

def ofValuesJson (values : OfValues) : Json :=
  .arr [.str (String.ofList values.ok), .str (String.ofList values.warn), .str (String.ofList values.crit)]

def operandJson : Option String → Json
  | none => .null
  | some operand => .str operand

mutual
def json : RuleObject → Json
  | mk operand sons ofValues isOfMul notValue => .ofObject className
      [("operand", operandJson operand), ("sons", .arr (sonsJson sons)), ("of_values", ofValuesJson ofValues),
       ("is_of_mul", .bool isOfMul), ("not_value", .bool notValue)]

def sonsJson : List RuleSon → List Json
  | [] => []
  | .missing :: l => .null :: sonsJson l
  | .uuid s :: l => .str s :: sonsJson l
  | .node n :: l => json n :: sonsJson l
end

end RuleObject

/-! ## Values with objects -/

/-- What `unserialize` returns. -/
inductive RestoredValue
  | null
  | bool (b : Bool)
  | int (n : Int)
  | float (x : Rat)
  | str (s : String)
  | list (l : List RestoredValue)
  | dict (l : List (String × RestoredValue))
  | daterange (d : DaterangeObject)
  | timeperiod (tp : TimeperiodObject)
  | node (n : RuleObject)

/-! ## Constructors

An object keeps the fields that its methods read. A field that is missing, or of
another type, is refused here, where the source would find out when it reads it.
-/

abbrev Params := List (String × RestoredValue)

namespace RestoredValue

def asInt : RestoredValue → Except Exn Int
  | int n => .ok n
  | _ => .error .typeError

def asBool : RestoredValue → Except Exn Bool
  | bool b => .ok b
  | _ => .error .typeError

def asStr : RestoredValue → Except Exn String
  | str s => .ok s
  | _ => .error .typeError

def asList : RestoredValue → Except Exn (List RestoredValue)
  | list l => .ok l
  | _ => .error .typeError

def asDict : RestoredValue → Except Exn Params
  | dict l => .ok l
  | _ => .error .typeError

def asAttribute : RestoredValue → Except Exn Attribute
  | bool b => .ok (.flag b)
  | int n => .ok (.number n)
  | str s => .ok (.text s)
  | list l => do return .texts (← l.mapM asStr)
  | _ => .error .typeError

def asDaterange : RestoredValue → Except Exn DaterangeObject
  | daterange d => .ok d
  | dict _ => .error .keyError
  | _ => .error .typeError

def asExcluded : RestoredValue → Except Exn Excluded
  | str s => .ok (.uuid s)
  | timeperiod tp => .ok (.timeperiod tp)
  | _ => .error .typeError

def asSon : RestoredValue → Except Exn RuleSon
  | null => .ok .missing
  | str s => .ok (.uuid s)
  | node n => .ok (.node n)
  | _ => .error .typeError

end RestoredValue

/-- `params[key]` -/
def Params.item (params : Params) (key : String) : Except Exn RestoredValue :=
  match params.lookup key with
  | some v => .ok v
  | none => .error .keyError

def Params.int (params : Params) (key : String) : Except Exn Int := params.item key >>= RestoredValue.asInt

def Params.str (params : Params) (key : String) : Except Exn String := params.item key >>= RestoredValue.asStr

/-- `if key in params` -/
def Params.optional {α : Type} (params : Params) (key : String) (read : RestoredValue → Except Exn α) (default : α) : Except Exn α :=
  match params.lookup key with
  | some v => read v
  | none => .ok default

def Params.list (params : Params) (key : String) : Except Exn (List RestoredValue) := params.optional key RestoredValue.asList []

namespace Timerange

def ofParams (v : RestoredValue) : Except Exn (Option Timerange) := do
  let params ← v.asDict
  if ← params.item "is_valid" >>= RestoredValue.asBool then
    return some ⟨(← params.int "hstart").toNat, (← params.int "mstart").toNat, (← params.int "hend").toNat, (← params.int "mend").toNat⟩
  else return none

def allOfParams (params : Params) : Except Exn (List (Option Timerange)) :=
  match params.lookup "timeranges" with
  | some timeranges => do (← timeranges.asList).mapM ofParams
  | none =>
    match params.lookup "other" with
    | some other => do return ofEntries (← other.asStr)
    | none => .ok []

end Timerange

namespace DaterangeObject

def datedOfParams (cls : Option DaterangeClass) (params : Params) : Except Exn DaterangeObject := do
  let fields : Daterange :=
    ⟨← params.int "syear", ← params.int "smon", ← params.int "smday", ← params.int "swday", ← params.int "swday_offset",
      ← params.int "eyear", ← params.int "emon", ← params.int "emday", ← params.int "ewday", ← params.int "ewday_offset"⟩
  return dated cls fields (← params.int "skip_interval") (← params.str "other") (← Timerange.allOfParams params)

def standardOfParams (params : Params) : Except Exn DaterangeObject := do
  let other ← params.str "other"
  let timeranges ← Timerange.allOfParams params
  return standard (← params.str "day") other timeranges

end DaterangeObject

namespace TimeperiodObject

def attributeOf (params : Params) (property : TimeperiodProperty) : Except Exn Attribute :=
  match params.lookup property.key with
  | some v => v.asAttribute
  | none =>
    match property.default with
    | some value => .ok value
    | none => .error .keyError

def attributesOf (params : Params) : List TimeperiodProperty → Except Exn (TimeperiodProperty → Attribute)
  | [] => .ok fun _ => .text ""
  | property :: l => do
    let value ← attributeOf params property
    let rest ← attributesOf params l
    return fun p => if p = property then value else rest p

def ofParams (params : Params) : Except Exn TimeperiodObject := do
  let attributes ← attributesOf params (TimeperiodProperty.before ++ TimeperiodProperty.after)
  let dateranges ← (← params.list "dateranges").mapM RestoredValue.asDaterange
  let exclude ← (← params.list "exclude").mapM RestoredValue.asExcluded
  return mk (← params.str "uuid") attributes dateranges exclude

end TimeperiodObject

namespace RuleObject

def operandOf : RestoredValue → Except Exn (Option String)
  | .null => .ok none
  | v => do return some (← v.asStr)

def ofValuesOf (v : RestoredValue) : Except Exn OfValues := do
  match ← (← v.asList).mapM RestoredValue.asStr with
  | [ok, warn, crit] => return ⟨ok.toList, warn.toList, crit.toList⟩
  | _ => throw .typeError

/-- The sons are objects by now: `unserialize` leaves them as they are. -/
def ofParams (params : Params) : Except Exn RuleObject := do
  let operand ← params.optional "operand" operandOf none
  let sons ← (← params.list "sons").mapM RestoredValue.asSon
  let ofValues ← params.optional "of_values" ofValuesOf ⟨['0'], ['0'], ['0']⟩
  let isOfMul ← params.optional "is_of_mul" RestoredValue.asBool false
  let notValue ← params.optional "not_value" RestoredValue.asBool false
  return mk operand sons ofValues isOfMul notValue

end RuleObject

/-! ## Unserialization -/

def daterangeClasses : List (Option DaterangeClass) :=
  [none, some .calendar, some .monthWeekDay, some .monthDate, some .weekDay, some .monthDay]

/-- `cls(content, parsing=False)` for the classes of this model. -/
def RestoredValue.construct (path : String) (params : Params) : Except Exn RestoredValue :=
  if path = TimeperiodObject.className then do return .timeperiod (← TimeperiodObject.ofParams params)
  else if path = RuleObject.className then do return .node (← RuleObject.ofParams params)
  else if path = DaterangeObject.standardName then do return .daterange (← DaterangeObject.standardOfParams params)
  else match daterangeClasses.find? fun cls => DaterangeObject.className cls = path with
    | some cls => do return .daterange (← DaterangeObject.datedOfParams cls params)
    | none => .error .attributeError

namespace Json

mutual
def unserialize : Json → Except Exn RestoredValue
  | .null => .ok .null
  | .bool b => .ok (.bool b)
  | .int n => .ok (.int n)
  | .float x => .ok (.float x)
  | .str s => .ok (.str s)
  | .arr l => do return .list (← unserializeItems l)
  | .obj l =>
    match l.lookup "__sys_python_module__" with
    | some (.str path) => do
      let content ← unserializeContent l
      RestoredValue.construct path (← content.asDict)
    | some _ => .error .attributeError
    | none => do return .dict (← unserializeFields l)

def unserializeItems : List Json → Except Exn (List RestoredValue)
  | [] => .ok []
  | j :: l => do
    let v ← unserialize j
    let vs ← unserializeItems l
    return v :: vs

def unserializeFields : List (String × Json) → Except Exn (List (String × RestoredValue))
  | [] => .ok []
  | (k, j) :: l => do
    let v ← unserialize j
    let vs ← unserializeFields l
    return (k, v) :: vs

/-- `data['content']` -/
def unserializeContent : List (String × Json) → Except Exn RestoredValue
  | [] => .error .keyError
  | (k, j) :: l => if k = "content" then unserialize j else unserializeContent l
end

end Json

end Alignak
