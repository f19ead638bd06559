import Alignak.Serialization

/-!
# The configuration arrives as it was sent

Building an object again from what JSON carries of it gives the object back, by
induction on the timeperiods that a timeperiod excludes and on the sons of a
business rule.
-/

namespace Alignak

section
variable {α β ε : Type}

theorem mapM_map_ok {read : β → Except ε α} {write : α → β} (h : ∀ a, read (write a) = .ok a) (l : List α) :
    (l.map write).mapM read = .ok l := by
  induction l with
  | nil => rfl
  | cons a l ih =>
    rw [List.map_cons, List.mapM_cons, h, ih]
    rfl

end

/-! ## What is unserialized -/

namespace Json

theorem unserializeItems_map {α : Type} {write : α → Json} {value : α → RestoredValue} (l : List α)
    (h : ∀ a, (write a).unserialize = .ok (value a)) : unserializeItems (l.map write) = .ok (l.map value) := by
  induction l with
  | nil => rfl
  | cons a l ih =>
    rw [List.map_cons, unserializeItems, h, ih]
    rfl

theorem unserialize_arr {l : List Json} {vs : List RestoredValue} (h : unserializeItems l = .ok vs) :
    (Json.arr l).unserialize = .ok (.list vs) := by
  rw [unserialize, h]
  rfl

theorem unserializeFields_cons {k : String} {j : Json} {l : List (String × Json)} {v : RestoredValue} {vs : List (String × RestoredValue)}
    (hj : j.unserialize = .ok v) (hl : unserializeFields l = .ok vs) : unserializeFields ((k, j) :: l) = .ok ((k, v) :: vs) := by
  rw [unserializeFields, hj, hl]
  rfl

theorem unserializeFields_append {l l' : List (String × Json)} {vs vs' : List (String × RestoredValue)}
    (h : unserializeFields l = .ok vs) (h' : unserializeFields l' = .ok vs') : unserializeFields (l ++ l') = .ok (vs ++ vs') := by
  induction l generalizing vs with
  | nil =>
    cases h
    exact h'
  | cons e l ih =>
    obtain ⟨k, j⟩ := e
    rw [unserializeFields] at h
    cases hj : j.unserialize with
    | error e => rw [hj] at h; cases h
    | ok v =>
      cases hl : unserializeFields l with
      | error e => rw [hj, hl] at h; cases h
      | ok ws =>
        rw [hj, hl] at h
        cases h
        exact unserializeFields_cons hj (ih hl)

theorem unserialize_ofObject {path : String} {content : List (String × Json)} (params : Params)
    (hn : content.lookup "__sys_python_module__" = none) (h : unserializeFields content = .ok params) :
    (ofObject path content).unserialize = RestoredValue.construct path params := by
  rw [ofObject, unserialize]
  simp only [List.lookup_cons, beq_self_eq_true, unserializeContent]
  rw [if_neg (by decide), if_pos trivial, unserialize, hn, h]
  rfl

end Json

open Json (unserialize unserializeItems unserializeFields)

/-! ## Dateranges -/

namespace Timerange

def value : Option Timerange → RestoredValue
  | some r => .dict [("hstart", .int r.hstart), ("mstart", .int r.mstart), ("hend", .int r.hend), ("mend", .int r.mend),
      ("is_valid", .bool true)]
  | none => .dict [("hstart", .str "00:00"), ("mstart", .str "00:00"), ("hend", .str "00:00"), ("mend", .str "00:00"),
      ("is_valid", .bool false)]

theorem unserialize_json (r : Option Timerange) : unserialize (json r) = .ok (value r) := by
  cases r <;> rfl

theorem ofParams_value (r : Option Timerange) : ofParams (value r) = .ok r := by
  cases r <;> rfl

theorem unserialize_all (timeranges : List (Option Timerange)) :
    unserialize (.arr (timeranges.map json)) = .ok (.list (timeranges.map value)) :=
  Json.unserialize_arr (Json.unserializeItems_map timeranges unserialize_json)

theorem allOfParams_value {params : Params} {timeranges : List (Option Timerange)}
    (h : params.lookup "timeranges" = some (.list (timeranges.map value))) : allOfParams params = .ok timeranges := by
  rw [allOfParams, h]
  exact mapM_map_ok ofParams_value timeranges

end Timerange

namespace DaterangeObject

theorem construct_dated (cls : Option DaterangeClass) (params : Params) :
    RestoredValue.construct (className cls) params = (do return .daterange (← datedOfParams cls params)) := by
  cases cls with
  | none => rfl
  | some cls => cases cls <;> rfl

theorem construct_standard (params : Params) :
    RestoredValue.construct standardName params = (do return .daterange (← standardOfParams params)) := rfl

theorem unserialize_json (d : DaterangeObject) : unserialize d.json = .ok (.daterange d) := by
  cases d with
  | dated cls d skipInterval other timeranges =>
    let params : Params :=
      [("syear", .int d.syear), ("smon", .int d.smon), ("smday", .int d.smday),
       ("swday", .int d.swday), ("swday_offset", .int d.swdayOffset),
       ("eyear", .int d.eyear), ("emon", .int d.emon), ("emday", .int d.emday),
       ("ewday", .int d.ewday), ("ewday_offset", .int d.ewdayOffset),
       ("skip_interval", .int skipInterval), ("other", .str other),
       ("timeranges", .list (timeranges.map Timerange.value))]
    have hp : datedOfParams cls params = .ok (dated cls d skipInterval other timeranges) := by
      have hr : Timerange.allOfParams params = .ok timeranges := Timerange.allOfParams_value rfl
      rw [datedOfParams, hr]
      rfl
    rw [json, Json.unserialize_ofObject params rfl, construct_dated, hp]
    · rfl
    · repeat apply Json.unserializeFields_cons rfl
      exact Json.unserializeFields_cons (Timerange.unserialize_all timeranges) rfl
  | standard day other timeranges =>
    let params : Params := [("day", .str day), ("other", .str other), ("timeranges", .list (timeranges.map Timerange.value))]
    have hp : standardOfParams params = .ok (standard day other timeranges) := by
      have hr : Timerange.allOfParams params = .ok timeranges := Timerange.allOfParams_value rfl
      rw [standardOfParams, hr]
      rfl
    rw [json, Json.unserialize_ofObject params rfl, construct_standard, hp]
    · rfl
    · repeat apply Json.unserializeFields_cons rfl
      exact Json.unserializeFields_cons (Timerange.unserialize_all timeranges) rfl

end DaterangeObject

/-! ## Timeperiods -/

namespace Attribute

def value : Attribute → RestoredValue
  | flag b => .bool b
  | number n => .int n
  | text s => .str s
  | texts l => .list (l.map .str)

theorem unserialize_json (a : Attribute) : unserialize a.json = .ok a.value := by
  cases a with
  | flag b => rfl
  | number n => rfl
  | text s => rfl
  | texts l => exact Json.unserialize_arr (Json.unserializeItems_map l fun _ => rfl)

theorem asAttribute_value (a : Attribute) : a.value.asAttribute = .ok a := by
  cases a with
  | flag b => rfl
  | number n => rfl
  | text s => rfl
  | texts l =>
    have hl : (l.map RestoredValue.str).mapM RestoredValue.asStr = .ok l := mapM_map_ok (by intro s; rfl) l
    rw [value, RestoredValue.asAttribute, hl]
    rfl

end Attribute

def Excluded.value : Excluded → RestoredValue
  | .uuid s => .str s
  | .timeperiod tp => .timeperiod tp

theorem Excluded.asExcluded_value (e : Excluded) : e.value.asExcluded = .ok e := by
  cases e <;> rfl

namespace TimeperiodObject

def attributesValue (attributes : TimeperiodProperty → Attribute) (properties : List TimeperiodProperty) : Params :=
  properties.map fun property => (property.key, (attributes property).value)

def params (uuid : String) (attributes : TimeperiodProperty → Attribute) (dateranges exclude : List RestoredValue) : Params :=
  ("uuid", .str uuid) :: attributesValue attributes TimeperiodProperty.before ++
    ("dateranges", .list dateranges) :: ("exclude", .list exclude) :: attributesValue attributes TimeperiodProperty.after

variable (uuid : String) (attributes : TimeperiodProperty → Attribute)

theorem unserialize_attributes (properties : List TimeperiodProperty) :
    unserializeFields (attributesJson attributes properties) = .ok (attributesValue attributes properties) := by
  induction properties with
  | nil => rfl
  | cons property l ih => exact Json.unserializeFields_cons (attributes property).unserialize_json ih

theorem unserialize_content {dateranges exclude : List Json} {ds es : List RestoredValue}
    (hd : unserializeItems dateranges = .ok ds) (he : unserializeItems exclude = .ok es) :
    unserializeFields (content uuid attributes dateranges exclude) = .ok (params uuid attributes ds es) := by
  apply Json.unserializeFields_append
  · exact Json.unserializeFields_cons rfl (unserialize_attributes attributes _)
  · exact Json.unserializeFields_cons (Json.unserialize_arr hd)
      (Json.unserializeFields_cons (Json.unserialize_arr he) (unserialize_attributes attributes _))

variable (ds es : List RestoredValue)

theorem lookup_params (property : TimeperiodProperty) :
    (params uuid attributes ds es).lookup property.key = some (attributes property).value := by
  cases property <;> rfl

theorem attributesOf_params (l : List TimeperiodProperty) :
    ∃ read, attributesOf (params uuid attributes ds es) l = .ok read ∧ ∀ property ∈ l, read property = attributes property := by
  induction l with
  | nil => exact ⟨_, rfl, fun property h => absurd h List.not_mem_nil⟩
  | cons property l ih =>
    obtain ⟨rest, hr, hrest⟩ := ih
    have hv : attributeOf (params uuid attributes ds es) property = .ok (attributes property) := by
      rw [attributeOf, lookup_params]
      exact Attribute.asAttribute_value _
    refine ⟨fun p => if p = property then attributes property else rest p, ?_, ?_⟩
    · rw [attributesOf, hv, hr]
      rfl
    · intro p hp
      simp only
      split
      · rename_i h
        rw [h]
      · rename_i h
        exact hrest p ((List.mem_cons.mp hp).resolve_left h)

theorem mem_properties (property : TimeperiodProperty) : property ∈ TimeperiodProperty.before ++ TimeperiodProperty.after := by
  cases property <;> decide

theorem ofParams_params (dateranges : List DaterangeObject) (exclude : List Excluded) :
    ofParams (params uuid attributes (dateranges.map .daterange) (exclude.map Excluded.value)) =
      .ok (mk uuid attributes dateranges exclude) := by
  obtain ⟨read, hr, hread⟩ := attributesOf_params uuid attributes (dateranges.map .daterange) (exclude.map Excluded.value)
    (TimeperiodProperty.before ++ TimeperiodProperty.after)
  have hread : read = attributes := funext fun property => hread property (mem_properties property)
  have hd : (dateranges.map RestoredValue.daterange).mapM RestoredValue.asDaterange = .ok dateranges := mapM_map_ok (by intro d; rfl) _
  have he : (exclude.map Excluded.value).mapM RestoredValue.asExcluded = .ok exclude := mapM_map_ok Excluded.asExcluded_value _
  subst hread
  have hds : Params.list (params uuid read (dateranges.map .daterange) (exclude.map Excluded.value)) "dateranges" =
      .ok (dateranges.map .daterange) := rfl
  have hes : Params.list (params uuid read (dateranges.map .daterange) (exclude.map Excluded.value)) "exclude" =
      .ok (exclude.map Excluded.value) := rfl
  rw [ofParams, hr, hds, hes]
  show (do
    let dateranges ← (dateranges.map RestoredValue.daterange).mapM RestoredValue.asDaterange
    let exclude ← (exclude.map Excluded.value).mapM RestoredValue.asExcluded
    return mk uuid read dateranges exclude : Except Exn TimeperiodObject) = _
  rw [hd, he]
  rfl

mutual
theorem unserialize_json : ∀ tp : TimeperiodObject, unserialize tp.json = .ok (.timeperiod tp)
  | mk uuid attributes dateranges exclude => by
    have hd := Json.unserializeItems_map dateranges DaterangeObject.unserialize_json
    have hc := unserialize_content uuid attributes hd (unserialize_exclude exclude)
    rw [json, Json.unserialize_ofObject _ rfl hc]
    show (do return RestoredValue.timeperiod (← ofParams _) : Except Exn RestoredValue) = _
    rw [ofParams_params]
    rfl

theorem unserialize_exclude : ∀ l : List Excluded, unserializeItems (excludeJson l) = .ok (l.map Excluded.value)
  | [] => rfl
  | .uuid s :: l => by
    rw [excludeJson, unserializeItems, unserialize_exclude l]
    rfl
  | .timeperiod tp :: l => by
    rw [excludeJson, unserializeItems, unserialize_json tp, unserialize_exclude l]
    rfl
end

end TimeperiodObject

/-! ## Business rules -/

def RuleSon.value : RuleSon → RestoredValue
  | .missing => .null
  | .uuid s => .str s
  | .node n => .node n

theorem RuleSon.asSon_value (son : RuleSon) : son.value.asSon = .ok son := by
  cases son <;> rfl

namespace RuleObject

theorem operandOf_operand (operand : Option String) :
    ∃ v, unserialize (operandJson operand) = .ok v ∧ operandOf v = .ok operand := by
  cases operand with
  | none => exact ⟨_, rfl, rfl⟩
  | some operand => exact ⟨_, rfl, rfl⟩

theorem ofValuesOf_ofValues (values : OfValues) :
    ∃ v, unserialize (ofValuesJson values) = .ok v ∧ ofValuesOf v = .ok values := by
  refine ⟨.list [.str (String.ofList values.ok), .str (String.ofList values.warn), .str (String.ofList values.crit)], rfl, ?_⟩
  show (Except.ok ⟨_, _, _⟩ : Except Exn OfValues) = _
  simp only [String.toList_ofList]

mutual
theorem unserialize_json : ∀ n : RuleObject, unserialize n.json = .ok (.node n)
  | mk operand sons ofValues isOfMul notValue => by
    obtain ⟨vo, ho, hro⟩ := operandOf_operand operand
    obtain ⟨vv, hv, hrv⟩ := ofValuesOf_ofValues ofValues
    have hs := Json.unserialize_arr (unserialize_sons sons)
    have hm : (sons.map RuleSon.value).mapM RestoredValue.asSon = .ok sons := mapM_map_ok RuleSon.asSon_value sons
    have hc := Json.unserializeFields_cons (k := "operand") ho (Json.unserializeFields_cons (k := "sons") hs
      (Json.unserializeFields_cons (k := "of_values") hv (Json.unserializeFields_cons (k := "is_of_mul") (j := .bool isOfMul) rfl
        (Json.unserializeFields_cons (k := "not_value") (j := .bool notValue) (l := []) rfl rfl))))
    rw [json, Json.unserialize_ofObject _ rfl hc]
    show (do
      let n ← (do
        let operand ← operandOf vo
        let sons ← (sons.map RuleSon.value).mapM RestoredValue.asSon
        let ofValues ← ofValuesOf vv
        return mk operand sons ofValues isOfMul notValue : Except Exn RuleObject)
      return RestoredValue.node n : Except Exn RestoredValue) = _
    rw [hro, hm, hrv]
    rfl

theorem unserialize_sons : ∀ l : List RuleSon, unserializeItems (sonsJson l) = .ok (l.map RuleSon.value)
  | [] => rfl
  | .missing :: l => by
    rw [sonsJson, unserializeItems, unserialize_sons l]
    rfl
  | .uuid s :: l => by
    rw [sonsJson, unserializeItems, unserialize_sons l]
    rfl
  | .node n :: l => by
    rw [sonsJson, unserializeItems, unserialize_json n, unserialize_sons l]
    rfl
end

end RuleObject

def ItemKind.operand : ItemKind → String
  | .host => "host"
  | .service => "service"

def Operator.operand : Operator → String
  | .or => "|"
  | .and => "&"
  | .of => "of:"

namespace DependencyNode

mutual
def ruleObject : DependencyNode String → RuleObject
  | leaf kind uuid notValue => .mk (some kind.operand) [.uuid uuid] ⟨['0'], ['0'], ['0']⟩ false notValue
  | object notValue _ => .mk (some "object") [] ⟨['0'], ['0'], ['0']⟩ false notValue
  | level operand sons ofValues isOfMul notValue _ =>
    .mk (operand.map Operator.operand) (ruleSons sons) ofValues isOfMul notValue

def ruleSons : List (Option (DependencyNode String)) → List RuleSon
  | [] => []
  | none :: sons => .missing :: ruleSons sons
  | some son :: sons => .node (ruleObject son) :: ruleSons sons
end

variable (items : RuleItems String)

mutual
theorem getState_ruleObject : ∀ n : DependencyNode String, n.ruleObject.getState items = n.getState items
  | leaf .host uuid notValue => rfl
  | leaf .service uuid notValue => rfl
  | object notValue error => rfl
  | level none sons ofValues isOfMul notValue errors => rfl
  | level (some operand) sons ofValues isOfMul notValue errors => by
    have hs := statesOf_ruleSons sons
    cases operand <;> rw [ruleObject, getState, ← hs] <;> rfl

theorem statesOf_ruleSons : ∀ sons : List (Option (DependencyNode String)),
    RuleObject.statesOf items (ruleSons sons) = statesOf items sons
  | [] => rfl
  | none :: sons => rfl
  | some son :: sons => by
    rw [ruleSons, RuleObject.statesOf, statesOf, getState_ruleObject son, statesOf_ruleSons sons]
end

end DependencyNode

/-! ## What the daemons ask -/

inductive TimeQuestion
  | isTimeValid (timestamp : Int)
  | getNextValidTimeFromT (timestamp : Int)

inductive TimeAnswer
  | valid (answer : Except Exn Bool)
  | nextTime (answer : Except Exn (Option Int))

namespace CachedTimeperiod

def configured (tp : TimeperiodObject) : CachedTimeperiod := ⟨tp, []⟩

section
variable (clock : Clock) (fuel : Nat)

def ask (tp : CachedTimeperiod) : TimeQuestion → TimeAnswer × CachedTimeperiod
  | .isTimeValid timestamp =>
    let r := isTimeValid clock timestamp tp
    (.valid (outcome r), stateAfter r)
  | .getNextValidTimeFromT timestamp =>
    let r := getNextValidTimeFromT clock fuel timestamp tp
    (.nextTime (outcome r), stateAfter r)

def answers (tp : CachedTimeperiod) : List TimeQuestion → List TimeAnswer
  | [] => []
  | question :: l => (tp.ask clock fuel question).1 :: (tp.ask clock fuel question).2.answers l

end

end CachedTimeperiod

/-- Whatever the timeperiod or the rule, what `unserialize` builds from its text
has the excluded timeperiods, the answers and the states of the original. -/
theorem configuration_transported :
    (∀ tp : TimeperiodObject, ∃ tp', tp.json.unserialize = .ok (.timeperiod tp') ∧ tp'.exclude = tp.exclude ∧
      ∀ clock fuel questions, (CachedTimeperiod.configured tp').answers clock fuel questions =
        (CachedTimeperiod.configured tp).answers clock fuel questions) ∧
    ∀ rule : RuleObject, ∃ rule', rule.json.unserialize = .ok (.node rule') ∧
      ∀ items, rule'.getState items = rule.getState items := by
  constructor
  · intro tp
    exact ⟨tp, tp.unserialize_json, rfl, fun _ _ _ => rfl⟩
  · intro rule
    exact ⟨rule, rule.unserialize_json, fun _ => rfl⟩

end Alignak
