import Alignak.ConfigBuffer
import Alignak.Loops

/-!
# The raw objects of the arbiter

The daemons and the modules of the environment file are put over those of the
legacy configuration.
-/

namespace Alignak

namespace ArbiterObjects

abbrev Text := List Char

/-! ## Definitions -/

inductive Value
  | text (t : Text)
  | list (l : List Text)
  deriving DecidableEq

abbrev Cfg := Dict Text Value

def nameKey : Text := "name".toList

def typeKey : Text := "type".toList

def modulesKey : Text := "modules".toList

def aliasKey : Text := "module_alias".toList

def typesKey : Text := "module_types".toList

def unset : Text := "unset".toList

/-- `'%s_name' % daemon_type` -/
def typeName (daemonType : Text) : Text := daemonType ++ "_name".toList

def moduleType : Text := "module".toList

def daemonTypes : List Text :=
  ["arbiter".toList, "scheduler".toList, "broker".toList, "poller".toList, "reactionner".toList, "receiver".toList]

/-! ## The environment file -/

abbrev Section := Dict Text Text

structure Environment where
  configurationFile : Text
  sections : Dict Text Section

/-- `{'imported_from': ...}` updated with the items of the section. -/
def Environment.found (env : Environment) (items : Section) : Section :=
  items.entries.foldl (fun d item => d.set item.1 item.2) (Dict.empty.set "imported_from".toList env.configurationFile)

def Environment.searchSections (env : Environment) (searchedSections : Text) : List (Text × Section) :=
  (env.sections.entries.filter fun s => searchedSections.isPrefixOf s.1).map fun s => (s.1, env.found s.2)

def Environment.getDaemons (env : Environment) : List (Text × Section) := env.searchSections "daemon.".toList

def Environment.getModules (env : Environment) : List (Text × Section) := env.searchSections "module.".toList

def Environment.modulesOf (env : Environment) : Value → List Text
  | .list _ => []
  | .text daemonName =>
    let searched := "daemon.".toList ++ daemonName
    match ((env.searchSections searched).lookup searched).bind (·.get? modulesKey) with
    | none => []
    | some modules => if modules.isEmpty then [] else modules.splitOn ','

/-! ## Daemons -/

structure Raw where
  objects : Dict Text (List Cfg)
  errors : List Text := []

def Raw.get (raw : Raw) (oType : Text) : List Cfg := (raw.objects.get? oType).getD []

def cfgOf (daemonCfg : Section) : Cfg := daemonCfg.mapValues fun _ => .text

def isUpdated (daemonType daemonName : Text) (cfgDaemon : Cfg) : Bool :=
  (cfgDaemon.get? nameKey).getD (.text unset) == .text daemonName ||
    (cfgDaemon.get? (typeName daemonType)).getD (.text unset) == .list [daemonName]

def updateDaemon (raw : Raw) (daemon : Text × Section) : Except Exn Raw :=
  match daemon.2.get? typeKey with
  | none => .ok { raw with errors := raw.errors ++ ["Ignoring daemon with an unknown type: ".toList ++ daemon.1] }
  | some daemonType =>
    match daemon.2.get? nameKey, raw.objects.get? daemonType with
    | some daemonName, some cfgDaemons =>
      let newCfgDaemons := (cfgDaemons.filter fun d => !isUpdated daemonType daemonName d) ++ [cfgOf daemon.2]
      .ok { raw with objects := raw.objects.set daemonType newCfgDaemons }
    | _, _ => .error .keyError

structure ExtraModule where
  daemonType : Text
  name : Text
  cfg : Section

def ExtraModule.toCfg (extra : ExtraModule) : Cfg := cfgOf (extra.cfg.set nameKey extra.name)

def Value.texts : Value → List Text
  | text t => [t]
  | list l => l

def setModules (env : Environment) (extra : List ExtraModule) (daemonType : Text) (name : Value) (cfgDaemon : Cfg) : Cfg :=
  let modules := ((cfgDaemon.get? modulesKey).map Value.texts).getD [] ++ env.modulesOf name
  cfgDaemon.set modulesKey (.list (modules.dedup ++ (extra.filter (·.daemonType = daemonType)).map (·.name)))

def checkDaemon (env : Environment) (extra : List ExtraModule) (daemonType : Text) (cfgDaemon : Cfg) : Except Exn Cfg :=
  match cfgDaemon.get? nameKey, cfgDaemon.get? (typeName daemonType) with
  | some name, _ => .ok (setModules env extra daemonType name cfgDaemon)
  | none, some name => .ok (setModules env extra daemonType name (cfgDaemon.set nameKey name))
  | none, none => .error .keyError

def checkDaemons (env : Environment) (extra : List ExtraModule) (raw : Raw) (daemonType : Text) : Except Exn Raw := do
  let cfgDaemons ← (raw.get daemonType).mapM (checkDaemon env extra daemonType)
  return { raw with objects := raw.objects.set daemonType cfgDaemons }

/-! ## Modules -/

def renameKey (former key : Text) (moduleCfg : Cfg) : Cfg :=
  match moduleCfg.get? former, moduleCfg.get? key with
  | some value, none => (moduleCfg.set key value).erase former
  | _, _ => moduleCfg

def renameModule (moduleCfg : Cfg) : Cfg := renameKey typesKey typeKey (renameKey aliasKey nameKey moduleCfg)

def isNameless (moduleCfg : Cfg) : Bool := !moduleCfg.contains aliasKey && !moduleCfg.contains nameKey

def checkModule (moduleCfg : Cfg) : Cfg := if isNameless moduleCfg then moduleCfg else renameModule moduleCfg

def checkModules (raw : Raw) : Raw where
  objects := raw.objects.set moduleType ((raw.get moduleType).map checkModule)
  errors := raw.errors ++
    ((raw.get moduleType).filter isNameless).map fun _ => "Module declared without any 'name' or 'module_alias'".toList

def isModule (name : Text) (cfgModule : Cfg) : Bool := (cfgModule.get? nameKey).getD (.text unset) == .list [name]

def updateModule (raw : Raw) (module : Text × Section) : Except Exn Raw :=
  match module.2.get? nameKey with
  | none => .error .keyError
  | some name =>
    if (raw.get moduleType).any (isModule name) then .ok raw
    else .ok { raw with objects := raw.objects.set moduleType (raw.get moduleType ++ [cfgOf module.2]) }

/-! ## Loading -/

def legacyObjects (legacy : Dict Text (List ConfigBuffer.Object)) (extra : List ExtraModule) : Dict Text (List Cfg) :=
  let objects : Dict Text (List Cfg) := legacy.mapValues fun _ cfgs => cfgs.map fun cfg => cfg.mapValues fun _ => Value.list
  objects.set moduleType ((objects.get? moduleType).getD [] ++ extra.map ExtraModule.toCfg)

def addType (objects : Dict Text (List Cfg)) (daemonType : Text) : Dict Text (List Cfg) :=
  if objects.contains daemonType then objects else objects.set daemonType []

/-- What `load_monitoring_config_file` makes of the objects of the legacy
configuration, with the modules made for its former parameters. -/
def loadMonitoringConfigFile (alignakEnv : Option Environment) (legacy : Dict Text (List ConfigBuffer.Object))
    (extra : List ExtraModule) : Except Exn Raw :=
  match alignakEnv with
  | none => .ok { objects := legacyObjects legacy extra }
  | some env => do
    let raw ← env.getDaemons.foldlM updateDaemon { objects := daemonTypes.foldl addType (legacyObjects legacy extra) }
    let raw ← daemonTypes.foldlM (checkDaemons env extra) raw
    env.getModules.foldlM updateModule (checkModules raw)

/-! ## What is to be loaded -/

/-- Under which name a definition is known, whose former parameter is `other`. -/
def nameOf (other : Text) (cfg : Cfg) : Option (List Text) := ((cfg.get? nameKey).or (cfg.get? other)).map Value.texts

structure OneEach (name : Cfg → Option (List Text)) (ofLegacy ofEnv : Cfg → Cfg) (legacy env result : List Cfg) : Prop where
  overloaded : ∀ n, (∃ cfg ∈ env, name cfg = some n) →
    ∃ cfg ∈ env, name cfg = some n ∧ result.filter (name · = some n) = [ofEnv cfg]
  kept : ∀ n, (¬ ∃ cfg ∈ env, name cfg = some n) → (∃ cfg ∈ legacy, name cfg = some n) →
    ∃ cfg ∈ legacy, name cfg = some n ∧ result.filter (name · = some n) = [ofLegacy cfg]

/-! ## Keys -/

variable {n : List Text} {e : Section}

section
variable {name : Cfg → Option (List Text)} {l : List Cfg}

theorem filter_eq_nil_of (h : ∀ cfg ∈ l, name cfg ≠ some n) : l.filter (name · = some n) = [] :=
  List.filter_eq_nil_iff.mpr fun cfg hcfg hname => h cfg hcfg (of_decide_eq_true hname)

theorem filter_length (l : List Cfg) (n : List Text) : (l.filter (name · = some n)).length = (l.filterMap name).count n := by
  rw [List.count_filterMap, List.countP_eq_length_filter]
  exact congrArg List.length (List.filter_congr fun cfg _ => by rw [beq_eq_decide])

theorem filter_map_name {f : Cfg → Cfg} (hf : ∀ cfg ∈ l, name (f cfg) = name cfg) (n : List Text) :
    (l.map f).filter (name · = some n) = (l.filter (name · = some n)).map f := by
  rw [List.filter_map]
  refine congrArg (List.map f) (List.filter_congr fun cfg hcfg => ?_)
  rw [Function.comp_apply, hf cfg hcfg]

theorem filter_eq_singleton (hn : (l.filterMap name).Nodup) (h : ∃ cfg ∈ l, name cfg = some n) :
    ∃ cfg ∈ l, name cfg = some n ∧ l.filter (name · = some n) = [cfg] := by
  obtain ⟨cfg, hcfg, hname⟩ := h
  have hlen : (l.filter (name · = some n)).length = 1 := by
    rw [filter_length]
    exact List.count_eq_one_of_mem hn (List.mem_filterMap.mpr ⟨cfg, hcfg, hname⟩)
  obtain ⟨d, hd⟩ := List.length_eq_one_iff.mp hlen
  have hmem : d ∈ l.filter (name · = some n) := hd ▸ List.mem_singleton_self d
  exact ⟨d, (List.mem_filter.mp hmem).1, of_decide_eq_true (List.mem_filter.mp hmem).2, hd⟩

theorem nodup_of_filter (h : ∀ n, (l.filter (name · = some n)).length ≤ 1) : (l.filterMap name).Nodup := by
  rw [List.nodup_iff_count_le_one]
  intro n
  rw [← filter_length]
  exact h n

end

/-! ## One list of daemons -/

def updates (daemonType : Text) (daemonCfg : Section) (cfgDaemon : Cfg) : Bool :=
  (daemonCfg.get? nameKey).any fun daemonName => isUpdated daemonType daemonName cfgDaemon

def notUpdated (daemonType : Text) (env : List Section) (legacy : List Cfg) : List Cfg :=
  legacy.filter fun cfg => !env.any (updates daemonType · cfg)

abbrev daemonName (daemonType : Text) : Cfg → Option (List Text) := nameOf (typeName daemonType)

def IsDefined (name : Cfg → Option (List Text)) (env : List Section) (n : List Text) : Prop :=
  ∃ e ∈ env, name (cfgOf e) = some n

structure DaemonsReplaced (daemonType : Text) (legacy : List Cfg) (env : List Section) : Prop where
  replaced : ∀ cfg ∈ notUpdated daemonType env legacy, ∀ n, daemonName daemonType cfg = some n →
    ¬ IsDefined (daemonName daemonType) env n
  kept : ∀ cfg ∈ legacy, ∀ n, daemonName daemonType cfg = some n → IsDefined (daemonName daemonType) env n ∨
    ∃ other ∈ notUpdated daemonType env legacy, daemonName daemonType other = some n
  single : ((notUpdated daemonType env legacy).filterMap (daemonName daemonType)).Nodup

section
variable {daemonType : Text} {legacy : List Cfg} {env : List Section} {check : Cfg → Cfg}

theorem get?_cfgOf (e : Section) (key : Text) : (cfgOf e).get? key = (e.get? key).map Value.text :=
  Dict.get?_mapValues _

theorem nameOf_cfgOf {n : Text} (h : e.get? nameKey = some n) (other : Text) :
    nameOf other (cfgOf e) = some [n] := by
  unfold nameOf
  rw [get?_cfgOf, h]
  rfl

theorem updates_cfgOf {e' : Section} (he : e.get? nameKey ≠ none) (he' : e'.get? nameKey ≠ none) (other : Text) :
    updates daemonType e' (cfgOf e) = true ↔ nameOf other (cfgOf e) = nameOf other (cfgOf e') := by
  obtain ⟨n, hn⟩ := Option.ne_none_iff_exists'.mp he
  obtain ⟨n', hn'⟩ := Option.ne_none_iff_exists'.mp he'
  have hlist : ∀ o : Option Text, ((o.map Value.text).getD (.text unset) == .list [n']) = false := by
    intro o
    cases o <;> rfl
  unfold updates isUpdated
  rw [nameOf_cfgOf hn, nameOf_cfgOf hn', hn', Option.any_some, get?_cfgOf, get?_cfgOf, hn, hlist]
  simp

theorem filter_notDefined (hn : ¬ IsDefined (daemonName daemonType) env n) :
    (lastOnes (updates daemonType) cfgOf env).filter (daemonName daemonType · = some n) = [] := by
  refine filter_eq_nil_of fun cfg hcfg hname => ?_
  obtain ⟨e, he, rfl⟩ := mem_lastOnes hcfg
  exact hn ⟨e, he, hname⟩

theorem isDefined_map {name : Cfg → Option (List Text)} :
    (∃ cfg ∈ env.map cfgOf, name cfg = some n) ↔ IsDefined name env n := by
  simp [IsDefined]

section
variable (hE : ∀ e ∈ env, e.get? nameKey ≠ none)
include hE

theorem filter_defined (hn : IsDefined (daemonName daemonType) env n) :
    ∃ e ∈ env, daemonName daemonType (cfgOf e) = some n ∧
      (lastOnes (updates daemonType) cfgOf env).filter (daemonName daemonType · = some n) = [cfgOf e] :=
  filter_lastOnes (fun e he e' he' => updates_cfgOf (hE e he) (hE e' he') _) hn

variable (hL : ∀ cfg ∈ legacy, daemonName daemonType cfg ≠ none)
include hL

theorem overlay_named : ∀ cfg ∈ overlay (updates daemonType) cfgOf legacy env, daemonName daemonType cfg ≠ none := by
  intro cfg hcfg
  rw [overlay_eq] at hcfg
  rcases List.mem_append.mp hcfg with h | h
  · exact hL cfg (List.mem_filter.mp h).1
  · obtain ⟨e, he, rfl⟩ := mem_lastOnes h
    obtain ⟨n, hn⟩ := Option.ne_none_iff_exists'.mp (hE e he)
    exact fun hnone => Option.some_ne_none _ ((nameOf_cfgOf hn _).symm.trans hnone)

variable (hcheck : ∀ cfg, daemonName daemonType cfg ≠ none → daemonName daemonType (check cfg) = daemonName daemonType cfg)
include hcheck

theorem filter_overlay (n : List Text) :
    ((overlay (updates daemonType) cfgOf legacy env).map check).filter (daemonName daemonType · = some n) =
      ((notUpdated daemonType env legacy).filter (daemonName daemonType · = some n) ++
        (lastOnes (updates daemonType) cfgOf env).filter (daemonName daemonType · = some n)).map check := by
  rw [filter_map_name fun cfg hcfg => hcheck cfg (overlay_named hE hL cfg hcfg), overlay_eq, List.filter_append]
  rfl

theorem daemonsReplaced_of_oneEach
    (h : OneEach (daemonName daemonType) check check legacy (env.map cfgOf)
      ((overlay (updates daemonType) cfgOf legacy env).map check)) :
    DaemonsReplaced daemonType legacy env := by
  have hdefined : ∀ n, IsDefined (daemonName daemonType) env n →
      (notUpdated daemonType env legacy).filter (daemonName daemonType · = some n) = [] := by
    intro n hn
    obtain ⟨cfg, -, -, hone⟩ := h.overloaded n (isDefined_map.mpr hn)
    obtain ⟨e, -, -, hlast⟩ := filter_defined hE hn
    have hlen := congrArg List.length hone
    rw [filter_overlay hE hL hcheck, hlast, List.length_map, List.length_append, List.length_singleton,
      List.length_singleton] at hlen
    exact List.length_eq_zero_iff.mp (by omega)
  have hlegacy : ∀ n, ¬ IsDefined (daemonName daemonType) env n → (∃ cfg ∈ legacy, daemonName daemonType cfg = some n) →
      ((notUpdated daemonType env legacy).filter (daemonName daemonType · = some n)).length = 1 := by
    intro n hn hcfg
    obtain ⟨cfg, -, -, hone⟩ := h.kept n (mt isDefined_map.mp hn) hcfg
    have hlen := congrArg List.length hone
    rw [filter_overlay hE hL hcheck, filter_notDefined hn, List.append_nil, List.length_map, List.length_singleton] at hlen
    exact hlen
  constructor
  · intro cfg hcfg n hname hn
    exact List.filter_eq_nil_iff.mp (hdefined n hn) cfg hcfg (decide_eq_true hname)
  · intro cfg hcfg n hname
    by_cases hn : IsDefined (daemonName daemonType) env n
    · exact .inl hn
    · obtain ⟨other, hother⟩ := List.length_eq_one_iff.mp (hlegacy n hn ⟨cfg, hcfg, hname⟩)
      have hmem := List.mem_filter.mp (hother ▸ List.mem_singleton_self other)
      exact .inr ⟨other, hmem.1, of_decide_eq_true hmem.2⟩
  · refine nodup_of_filter fun n => ?_
    by_cases hn : IsDefined (daemonName daemonType) env n
    · rw [hdefined n hn]
      exact Nat.zero_le 1
    · by_cases hcfg : ∃ cfg ∈ legacy, daemonName daemonType cfg = some n
      · exact (hlegacy n hn hcfg).le
      · rw [filter_eq_nil_of fun cfg (hmem : cfg ∈ notUpdated daemonType env legacy) hname =>
          hcfg ⟨cfg, (List.mem_filter.mp hmem).1, hname⟩]
        exact Nat.zero_le 1

theorem oneEach_of_daemonsReplaced (h : DaemonsReplaced daemonType legacy env) :
    OneEach (daemonName daemonType) check check legacy (env.map cfgOf)
      ((overlay (updates daemonType) cfgOf legacy env).map check) := by
  constructor
  · intro n hn
    rw [isDefined_map] at hn
    obtain ⟨e, he, hname, hlast⟩ := filter_defined hE hn
    refine ⟨cfgOf e, List.mem_map_of_mem he, hname, ?_⟩
    have hgone : (notUpdated daemonType env legacy).filter (daemonName daemonType · = some n) = [] :=
      filter_eq_nil_of fun cfg hcfg hcfgname => h.replaced cfg hcfg n hcfgname hn
    rw [filter_overlay hE hL hcheck, hgone, hlast]
    rfl
  · intro n hn hlegacy
    rw [isDefined_map] at hn
    obtain ⟨cfg, hcfg, hname⟩ := hlegacy
    obtain ⟨one, hone, honename, hfilter⟩ := filter_eq_singleton h.single ((h.kept cfg hcfg n hname).resolve_left hn)
    refine ⟨one, (List.mem_filter.mp hone).1, honename, ?_⟩
    rw [filter_overlay hE hL hcheck, filter_notDefined hn, hfilter]
    rfl

end

end

/-! ## The list of modules -/

abbrev moduleName : Cfg → Option (List Text) := nameOf aliasKey

structure ModulesApart (legacy : List Cfg) (env : List Section) : Prop where
  apart : ∀ cfg ∈ legacy, ∀ n, moduleName cfg = some n → ¬ IsDefined moduleName env n
  env : ((env.map cfgOf).filterMap moduleName).Nodup
  legacy : (legacy.filterMap moduleName).Nodup

def isFound (modules : List Cfg) (e : Section) : Bool := (e.get? nameKey).any fun name => modules.any (isModule name)

theorem nameOf_set {c : Cfg} {key other : Text} (v : Value) (hn : nameKey ≠ key) (ho : other ≠ key) :
    nameOf other (c.set key v) = nameOf other c := by
  unfold nameOf
  rw [Dict.get?_set_ne hn, Dict.get?_set_ne ho]

theorem nameOf_renameTypes (c : Cfg) : moduleName (renameKey typesKey typeKey c) = moduleName c := by
  unfold renameKey
  split
  · rename_i types _ _
    refine Eq.trans ?_ (@nameOf_set c typeKey aliasKey types (by decide) (by decide))
    unfold moduleName nameOf
    rw [Dict.get?_erase_ne (by decide), Dict.get?_erase_ne (by decide)]
  · rfl

theorem nameOf_renameAlias (c : Cfg) : moduleName (renameKey aliasKey nameKey c) = moduleName c := by
  unfold renameKey
  split
  · rename_i name ha hn
    unfold moduleName nameOf
    rw [Dict.get?_erase_ne (by decide), Dict.get?_set, if_pos rfl, hn, ha]
    rfl
  · rfl

theorem nameOf_checkModule (cfg : Cfg) : moduleName (checkModule cfg) = moduleName cfg := by
  unfold checkModule
  split
  · rfl
  · exact (nameOf_renameTypes _).trans (nameOf_renameAlias cfg)

section
variable {legacy : List Cfg} {env : List Section}

theorem get?_of_isModule {name : Text} {m : Cfg} (h : isModule name m = true) : m.get? nameKey = some (.list [name]) := by
  unfold isModule at h
  cases hm : m.get? nameKey with
  | none =>
    rw [hm] at h
    cases h
  | some value =>
    rw [hm] at h
    exact congrArg some (eq_of_beq h)

theorem named_of_isFound (h : isFound legacy e = true) :
    ∃ m ∈ legacy, ∃ n, m.get? nameKey = some (.list [n]) ∧ moduleName (cfgOf e) = some [n] := by
  obtain ⟨n, hn, hany⟩ := (Option.any_eq_true _ _).mp h
  obtain ⟨m, hm, hmodule⟩ := List.any_eq_true.mp hany
  exact ⟨m, hm, n, get?_of_isModule hmodule, nameOf_cfgOf hn _⟩

theorem not_named_cfgOf {n : Text} : (cfgOf e).get? nameKey ≠ some (.list [n]) := by
  rw [get?_cfgOf]
  cases e.get? nameKey <;> simp

def modulesOf (legacy : List Cfg) (env : List Section) : List Cfg :=
  legacy.map checkModule ++ (env.filter fun e => !isFound (legacy.map checkModule) e).map cfgOf

theorem filter_checked (n : List Text) :
    (legacy.map checkModule).filter (moduleName · = some n) = (legacy.filter (moduleName · = some n)).map checkModule :=
  filter_map_name (fun cfg _ => nameOf_checkModule cfg) n

theorem isFound_checked (h : isFound (legacy.map checkModule) e = true) :
    ∃ cfg ∈ legacy, ∃ n, (checkModule cfg).get? nameKey = some (.list [n]) ∧ moduleName cfg = some [n] ∧
      moduleName (cfgOf e) = some [n] := by
  obtain ⟨m, hm, n, hlist, hname⟩ := named_of_isFound h
  obtain ⟨cfg, hcfg, rfl⟩ := List.mem_map.mp hm
  refine ⟨cfg, hcfg, n, hlist, ?_, hname⟩
  rw [← nameOf_checkModule]
  unfold moduleName nameOf
  rw [hlist]
  rfl

theorem modulesOf_apart (h : ∀ cfg ∈ legacy, ∀ n, moduleName cfg = some n → ¬ IsDefined moduleName env n) :
    modulesOf legacy env = legacy.map checkModule ++ env.map cfgOf := by
  unfold modulesOf
  rw [List.filter_eq_self.mpr]
  intro e he
  rw [Bool.not_eq_true', ← Bool.not_eq_true]
  intro hfound
  obtain ⟨cfg, hcfg, n, -, hname, hen⟩ := isFound_checked hfound
  exact h cfg hcfg [n] hname ⟨e, he, hen⟩

theorem filter_modulesOf (h : ∀ cfg ∈ legacy, ∀ n, moduleName cfg = some n → ¬ IsDefined moduleName env n) (n : List (List Char)) :
    (modulesOf legacy env).filter (moduleName · = some n) =
      (legacy.filter (moduleName · = some n)).map checkModule ++ (env.map cfgOf).filter (moduleName · = some n) := by
  rw [modulesOf_apart h, List.filter_append, filter_checked]

theorem apart_of_oneEach (h : OneEach moduleName checkModule id legacy (env.map cfgOf) (modulesOf legacy env)) :
    ∀ cfg ∈ legacy, ∀ n, moduleName cfg = some n → ¬ IsDefined moduleName env n := by
  intro cfg hcfg n hname hn
  obtain ⟨d, hd, hdname, hone⟩ := h.overloaded n (isDefined_map.mpr hn)
  obtain ⟨e, he, rfl⟩ := List.mem_map.mp hd
  unfold modulesOf at hone
  rw [List.filter_append] at hone
  have hmem : checkModule cfg ∈ (legacy.map checkModule).filter (moduleName · = some n) :=
    List.mem_filter.mpr ⟨List.mem_map_of_mem hcfg, decide_eq_true ((nameOf_checkModule cfg).trans hname)⟩
  have hlen := congrArg List.length hone
  have hpos := List.length_pos_of_mem hmem
  rw [List.length_append, List.length_singleton] at hlen
  by_cases hfound : isFound (legacy.map checkModule) e = true
  · obtain ⟨cfg', hcfg', n', hlist, hname', hen⟩ := isFound_checked hfound
    have hmem' : checkModule cfg' ∈ (legacy.map checkModule).filter (moduleName · = some n) := by
      refine List.mem_filter.mpr ⟨List.mem_map_of_mem hcfg', decide_eq_true ?_⟩
      rw [nameOf_checkModule, hname', ← hen, hdname]
    have hsame := List.mem_singleton.mp (hone ▸ List.mem_append_left _ hmem')
    rw [hsame] at hlist
    exact not_named_cfgOf hlist
  · have hmem' : cfgOf e ∈ ((env.filter fun e => !isFound (legacy.map checkModule) e).map cfgOf).filter
        (moduleName · = some n) := by
      refine List.mem_filter.mpr ⟨List.mem_map_of_mem (List.mem_filter.mpr ⟨he, ?_⟩), decide_eq_true hdname⟩
      rw [Bool.not_eq_true', ← Bool.not_eq_true]
      exact hfound
    have hpos' := List.length_pos_of_mem hmem'
    omega

theorem modules_iff :
    OneEach moduleName checkModule id legacy (env.map cfgOf) (modulesOf legacy env) ↔ ModulesApart legacy env := by
  constructor
  · intro h
    have hapart := apart_of_oneEach h
    have hgone : ∀ n, IsDefined moduleName env n → legacy.filter (moduleName · = some n) = [] := fun n hn =>
      filter_eq_nil_of fun cfg hcfg hname => hapart cfg hcfg n hname hn
    refine ⟨hapart, nodup_of_filter fun n => ?_, nodup_of_filter fun n => ?_⟩
    · by_cases hn : IsDefined moduleName env n
      · obtain ⟨d, -, -, hone⟩ := h.overloaded n (isDefined_map.mpr hn)
        rw [filter_modulesOf hapart, hgone n hn] at hone
        exact (congrArg List.length hone).le
      · rw [filter_eq_nil_of fun cfg hcfg hname => hn (isDefined_map.mp ⟨cfg, hcfg, hname⟩)]
        exact Nat.zero_le 1
    · by_cases hcfg : ∃ cfg ∈ legacy, moduleName cfg = some n
      · obtain ⟨cfg, hmem, hname⟩ := hcfg
        obtain ⟨d, -, -, hone⟩ := h.kept n (mt isDefined_map.mp (hapart cfg hmem n hname)) ⟨cfg, hmem, hname⟩
        have hlen := congrArg List.length hone
        rw [filter_modulesOf hapart, List.length_append, List.length_map, List.length_singleton] at hlen
        omega
      · rw [filter_eq_nil_of fun cfg hmem hname => hcfg ⟨cfg, hmem, hname⟩]
        exact Nat.zero_le 1
  · intro h
    constructor
    · intro n hn
      obtain ⟨cfg, hcfg, hname, hone⟩ := filter_eq_singleton h.env hn
      refine ⟨cfg, hcfg, hname, ?_⟩
      rw [filter_modulesOf h.apart, hone, filter_eq_nil_of fun m hm hmname => h.apart m hm n hmname (isDefined_map.mp hn)]
      rfl
    · intro n hn hlegacy
      obtain ⟨cfg, hcfg, hname, hone⟩ := filter_eq_singleton h.legacy hlegacy
      refine ⟨cfg, hcfg, hname, ?_⟩
      rw [filter_modulesOf h.apart, hone, filter_eq_nil_of fun m hm hmname => hn ⟨m, hm, hmname⟩]
      rfl

end

/-! ## The loop over the daemons -/

theorem Raw.get_set (objects : Dict Text (List Cfg)) (errors : List Text) (t oType : Text) (l : List Cfg) :
    Raw.get ⟨objects.set t l, errors⟩ oType = if oType = t then l else Raw.get ⟨objects, errors⟩ oType := by
  unfold Raw.get
  rw [Dict.get?_set]
  split <;> rfl

def daemonsOf (daemons : List (Text × Section)) (daemonType : Text) : List Section :=
  (daemons.map Prod.snd).filter (·.get? typeKey = some daemonType)

def DaemonsNamed (daemons : List (Text × Section)) : Prop :=
  ∀ d ∈ daemons, ∀ daemonType, d.2.get? typeKey = some daemonType → daemonType ∈ daemonTypes ∧ d.2.get? nameKey ≠ none

theorem daemonsOf_cons (d : Text × Section) (daemons : List (Text × Section)) (t : Text) :
    daemonsOf (d :: daemons) t = daemonsOf [d] t ++ daemonsOf daemons t := by
  unfold daemonsOf
  rw [← List.filter_append]
  rfl

theorem daemonsOf_named {daemons : List (Text × Section)} (h : DaemonsNamed daemons) (t : Text) :
    ∀ e ∈ daemonsOf daemons t, e.get? nameKey ≠ none := by
  intro e he
  obtain ⟨hmem, ht⟩ := List.mem_filter.mp he
  obtain ⟨d, hd, rfl⟩ := List.mem_map.mp hmem
  exact (h d hd t (of_decide_eq_true ht)).2

theorem updateDaemon_ok {raw : Raw} {d : Text × Section} (hd : DaemonsNamed [d])
    (hr : ∀ t ∈ daemonTypes, raw.objects.get? t ≠ none) :
    ∃ raw', updateDaemon raw d = .ok raw' ∧ (∀ t ∈ daemonTypes, raw'.objects.get? t ≠ none) ∧
      ∀ t, raw'.get t = overlay (updates t) cfgOf (raw.get t) (daemonsOf [d] t) := by
  unfold updateDaemon
  cases htype : d.2.get? typeKey with
  | none =>
    refine ⟨_, rfl, hr, fun t => ?_⟩
    have hnil : daemonsOf [d] t = [] := by simp [daemonsOf, htype]
    rw [hnil]
    rfl
  | some daemonType =>
    obtain ⟨hmem, hname⟩ := hd d (List.mem_singleton_self d) daemonType htype
    obtain ⟨daemonName, hdaemonName⟩ := Option.ne_none_iff_exists'.mp hname
    obtain ⟨cfgDaemons, hcfgDaemons⟩ := Option.ne_none_iff_exists'.mp (hr daemonType hmem)
    simp only [hdaemonName, hcfgDaemons]
    refine ⟨_, rfl, fun t ht => ?_, fun t => ?_⟩
    · rw [Dict.get?_set]
      split
      · exact Option.some_ne_none _
      · exact hr t ht
    · rw [Raw.get_set]
      by_cases ht : t = daemonType
      · subst ht
        have hone : daemonsOf [d] t = [d.2] := by simp [daemonsOf, htype]
        have hget : raw.get t = cfgDaemons := by simp [Raw.get, hcfgDaemons]
        have hupdates : updates t d.2 = isUpdated t daemonName := by
          funext cfg
          simp [updates, hdaemonName]
        rw [if_pos rfl, hone, hget]
        simp only [overlay, List.foldl_cons, List.foldl_nil, hupdates]
      · have hnil : daemonsOf [d] t = [] := by simp [daemonsOf, htype, Ne.symm ht]
        rw [if_neg ht, hnil]
        rfl

theorem updateDaemons_ok : ∀ {daemons : List (Text × Section)} {raw : Raw}, DaemonsNamed daemons →
    (∀ t ∈ daemonTypes, raw.objects.get? t ≠ none) →
    ∃ raw', daemons.foldlM updateDaemon raw = .ok raw' ∧
      ∀ t, raw'.get t = overlay (updates t) cfgOf (raw.get t) (daemonsOf daemons t)
  | [], raw, _, _ => ⟨raw, rfl, fun _ => rfl⟩
  | d :: daemons, raw, hd, hr => by
    obtain ⟨raw', hstep, hr', hget⟩ := @updateDaemon_ok raw d
      (fun e he => hd e (List.mem_singleton.mp he ▸ List.mem_cons_self)) hr
    obtain ⟨raw'', hrun, hget'⟩ := updateDaemons_ok (fun e he => hd e (List.mem_cons_of_mem d he)) hr'
    refine ⟨raw'', ?_, fun t => ?_⟩
    · rw [List.foldlM_cons, hstep]
      exact hrun
    · rw [hget', hget, daemonsOf_cons d daemons]
      exact List.foldl_append.symm

/-! ## The checks of the daemons -/

def checkedDaemon (env : Environment) (extra : List ExtraModule) (daemonType : Text) (cfgDaemon : Cfg) : Cfg :=
  (checkDaemon env extra daemonType cfgDaemon).toOption.getD cfgDaemon

section
variable {env : Environment} {extra : List ExtraModule}

theorem checkDaemon_ok {daemonType : Text} {cfg : Cfg} (h : daemonName daemonType cfg ≠ none) :
    checkDaemon env extra daemonType cfg = .ok (checkedDaemon env extra daemonType cfg) ∧
      daemonName daemonType (checkedDaemon env extra daemonType cfg) = daemonName daemonType cfg := by
  have hset : ∀ (name : Value) (c : Cfg), c.get? nameKey = some name →
      (cfg.get? nameKey).or (cfg.get? (typeName daemonType)) = some name →
      daemonName daemonType (setModules env extra daemonType name c) = daemonName daemonType cfg := by
    intro name c hc hcfg
    unfold daemonName nameOf setModules
    rw [Dict.get?_set_ne (by decide), hc, hcfg]
    rfl
  unfold checkedDaemon checkDaemon
  cases hname : cfg.get? nameKey with
  | some name => exact ⟨rfl, hset name cfg hname (by rw [hname]; rfl)⟩
  | none =>
    cases htype : cfg.get? (typeName daemonType) with
    | some name => exact ⟨rfl, hset name _ (by rw [Dict.get?_set, if_pos rfl]) (by rw [hname, htype]; rfl)⟩
    | none =>
      refine absurd ?_ h
      unfold daemonName nameOf
      rw [hname, htype]
      rfl

theorem mapM_ok {f : Cfg → Except Exn Cfg} {g : Cfg → Cfg} {l : List Cfg} (h : ∀ cfg ∈ l, f cfg = .ok (g cfg)) :
    l.mapM f = .ok (l.map g) := by
  induction l with
  | nil => rfl
  | cons cfg l ih =>
    rw [List.mapM_cons, h cfg List.mem_cons_self, ih fun c hc => h c (List.mem_cons_of_mem _ hc)]
    rfl

theorem checkDaemons_ok : ∀ {types : List Text} {raw : Raw}, types.Nodup →
    (∀ t ∈ types, ∀ cfg ∈ raw.get t, daemonName t cfg ≠ none) →
    ∃ raw', types.foldlM (checkDaemons env extra) raw = .ok raw' ∧
      ∀ t, raw'.get t = if t ∈ types then (raw.get t).map (checkedDaemon env extra t) else raw.get t
  | [], raw, _, _ => ⟨raw, rfl, fun _ => rfl⟩
  | daemonType :: types, raw, hn, hr => by
    rw [List.nodup_cons] at hn
    have hmap := mapM_ok fun cfg hcfg =>
      (@checkDaemon_ok env extra daemonType cfg (hr daemonType List.mem_cons_self cfg hcfg)).1
    have hstep : checkDaemons env extra raw daemonType = .ok
        { raw with objects := raw.objects.set daemonType ((raw.get daemonType).map (checkedDaemon env extra daemonType)) } := by
      unfold checkDaemons
      rw [hmap]
      rfl
    have hother : ∀ t, t ≠ daemonType →
        Raw.get ⟨raw.objects.set daemonType ((raw.get daemonType).map (checkedDaemon env extra daemonType)), raw.errors⟩ t =
          raw.get t := by
      intro t ht
      rw [Raw.get_set, if_neg ht]
    obtain ⟨raw', hrun, hget⟩ := checkDaemons_ok hn.2 fun t ht cfg hcfg => by
      rw [hother t fun e => hn.1 (e ▸ ht)] at hcfg
      exact hr t (List.mem_cons_of_mem _ ht) cfg hcfg
    refine ⟨raw', ?_, fun t => ?_⟩
    · rw [List.foldlM_cons, hstep]
      exact hrun
    · rw [hget]
      by_cases ht : t = daemonType
      · subst ht
        rw [if_neg hn.1, if_pos List.mem_cons_self, Raw.get_set, if_pos rfl]
      · have hmem : t ∈ daemonType :: types ↔ t ∈ types := by simp [ht]
        rw [hother t ht]
        simp only [hmem]

/-! ## The loop over the modules -/

theorem isModule_cfgOf (name : Text) (e : Section) : isModule name (cfgOf e) = false := by
  unfold isModule
  rw [get?_cfgOf]
  cases e.get? nameKey <;> rfl

theorem isFound_concat (modules : List Cfg) (e e' : Section) : isFound (modules ++ [cfgOf e]) e' = isFound modules e' := by
  unfold isFound
  simp only [List.any_append, List.any_cons, List.any_nil, isModule_cfgOf, Bool.or_false]

theorem updateModules_ok : ∀ {modules : List (Text × Section)} {raw : Raw}, (∀ m ∈ modules, m.2.get? nameKey ≠ none) →
    ∃ raw', modules.foldlM updateModule raw = .ok raw' ∧
      raw'.get moduleType = raw.get moduleType ++
        ((modules.map Prod.snd).filter fun e => !isFound (raw.get moduleType) e).map cfgOf ∧
      ∀ t, t ≠ moduleType → raw'.get t = raw.get t
  | [], raw, _ => ⟨raw, rfl, (List.append_nil _).symm, fun _ _ => rfl⟩
  | m :: modules, raw, hm => by
    obtain ⟨name, hname⟩ := Option.ne_none_iff_exists'.mp (hm m List.mem_cons_self)
    have hfound : isFound (raw.get moduleType) m.2 = (raw.get moduleType).any (isModule name) := by
      unfold isFound
      rw [hname, Option.any_some]
    by_cases hany : (raw.get moduleType).any (isModule name) = true
    · have hstep : updateModule raw m = .ok raw := by
        unfold updateModule
        simp only [hname, hany, if_true]
      obtain ⟨raw', hrun, hget, hother⟩ := @updateModules_ok modules raw fun e he => hm e (List.mem_cons_of_mem m he)
      refine ⟨raw', ?_, ?_, hother⟩
      · rw [List.foldlM_cons, hstep]
        exact hrun
      · rw [hget, List.map_cons, List.filter_cons, hfound, hany]
        rfl
    · have hstep : updateModule raw m =
          .ok { raw with objects := raw.objects.set moduleType (raw.get moduleType ++ [cfgOf m.2]) } := by
        unfold updateModule
        simp only [hname, hany, if_false, Bool.false_eq_true]
      obtain ⟨raw', hrun, hget, hother⟩ := updateModules_ok fun e he => hm e (List.mem_cons_of_mem m he)
      refine ⟨raw', ?_, ?_, fun t ht => ?_⟩
      · rw [List.foldlM_cons, hstep]
        exact hrun
      · rw [hget, Raw.get_set, if_pos rfl, List.map_cons, List.filter_cons, hfound, Bool.eq_false_iff.mpr hany]
        simp [isFound_concat]
      · rw [hother t ht, Raw.get_set, if_neg ht]

/-! ## The definitions that are loaded -/

theorem addType_get (objects : Dict Text (List Cfg)) (daemonType t : Text) :
    Raw.get ⟨addType objects daemonType, []⟩ t = Raw.get ⟨objects, []⟩ t := by
  unfold addType
  split
  · rfl
  · rename_i hc
    rw [Raw.get_set]
    split
    · rename_i he
      have hnone : objects.get? t = none := by
        rw [he]
        simpa [Dict.contains] using hc
      simp [Raw.get, hnone]
    · rfl

theorem addType_ne_none {objects : Dict Text (List Cfg)} {daemonType t : Text} (h : t = daemonType ∨ objects.get? t ≠ none) :
    (addType objects daemonType).get? t ≠ none := by
  unfold addType
  split
  · rename_i hc
    rcases h with rfl | h
    · simpa [Dict.contains, Option.isSome_iff_ne_none] using hc
    · exact h
  · rw [Dict.get?_set]
    split
    · exact Option.some_ne_none _
    · rename_i hne
      exact h.resolve_left hne

theorem addTypes_get (types : List Text) (objects : Dict Text (List Cfg)) (t : Text) :
    Raw.get ⟨types.foldl addType objects, []⟩ t = Raw.get ⟨objects, []⟩ t := by
  induction types generalizing objects with
  | nil => rfl
  | cons daemonType types ih => rw [List.foldl_cons, ih, addType_get]

theorem addTypes_ne_none {types : List Text} {objects : Dict Text (List Cfg)} {t : Text}
    (h : t ∈ types ∨ objects.get? t ≠ none) : (types.foldl addType objects).get? t ≠ none := by
  induction types generalizing objects with
  | nil => exact h.resolve_left List.not_mem_nil
  | cons daemonType types ih =>
    refine ih ?_
    rw [List.mem_cons, or_assoc] at h
    rcases h with h | h | h
    · exact .inr (addType_ne_none (.inl h))
    · exact .inl h
    · exact .inr (addType_ne_none (.inr h))

end
section
variable {env : Environment} {legacy : Dict Text (List ConfigBuffer.Object)} {extra : List ExtraModule}

def legacyOf (legacy : Dict Text (List ConfigBuffer.Object)) (extra : List ExtraModule) (oType : Text) : List Cfg :=
  Raw.get ⟨legacyObjects legacy extra, []⟩ oType

structure WellFormed (env : Environment) (legacy : Dict Text (List ConfigBuffer.Object)) (extra : List ExtraModule) :
    Prop where
  daemons : DaemonsNamed env.getDaemons
  modules : ∀ m ∈ env.getModules, m.2.get? nameKey ≠ none
  legacy : ∀ t ∈ daemonTypes, ∀ cfg ∈ legacyOf legacy extra t, daemonName t cfg ≠ none

structure OneDefinition (env : Environment) (legacy : Dict Text (List ConfigBuffer.Object)) (extra : List ExtraModule)
    (raw : Raw) : Prop where
  daemons : ∀ t ∈ daemonTypes, OneEach (daemonName t) (checkedDaemon env extra t) (checkedDaemon env extra t)
    (legacyOf legacy extra t) ((daemonsOf env.getDaemons t).map cfgOf) (raw.get t)
  modules : OneEach moduleName checkModule id (legacyOf legacy extra moduleType)
    ((env.getModules.map Prod.snd).map cfgOf) (raw.get moduleType)

structure Replaced (env : Environment) (legacy : Dict Text (List ConfigBuffer.Object)) (extra : List ExtraModule) : Prop where
  daemons : ∀ t ∈ daemonTypes, DaemonsReplaced t (legacyOf legacy extra t) (daemonsOf env.getDaemons t)
  modules : ModulesApart (legacyOf legacy extra moduleType) (env.getModules.map Prod.snd)

theorem daemonsOf_module (h : DaemonsNamed env.getDaemons) : daemonsOf env.getDaemons moduleType = [] := by
  refine List.filter_eq_nil_iff.mpr fun e he ht => ?_
  obtain ⟨d, hd, rfl⟩ := List.mem_map.mp he
  exact absurd (h d hd moduleType (of_decide_eq_true ht)).1 (by decide)

theorem load_ok (h : WellFormed env legacy extra) : ∃ raw, loadMonitoringConfigFile (some env) legacy extra = .ok raw ∧
    (∀ t ∈ daemonTypes, raw.get t = (overlay (updates t) cfgOf (legacyOf legacy extra t) (daemonsOf env.getDaemons t)).map
      (checkedDaemon env extra t)) ∧
    raw.get moduleType = modulesOf (legacyOf legacy extra moduleType) (env.getModules.map Prod.snd) := by
  obtain ⟨raw₁, hrun1, hget1⟩ := @updateDaemons_ok env.getDaemons ⟨daemonTypes.foldl addType (legacyObjects legacy extra), []⟩
    h.daemons fun t ht => by
      dsimp only
      exact addTypes_ne_none (.inl ht)
  have hdaemons : ∀ t, raw₁.get t = overlay (updates t) cfgOf (legacyOf legacy extra t) (daemonsOf env.getDaemons t) := by
    intro t
    rw [hget1, addTypes_get]
    rfl
  obtain ⟨raw₂, hrun2, hget2⟩ := @checkDaemons_ok env extra daemonTypes raw₁ (by decide) fun t ht cfg hcfg => by
    rw [hdaemons] at hcfg
    exact overlay_named (daemonsOf_named h.daemons t) (h.legacy t ht) cfg hcfg
  obtain ⟨raw₃, hrun3, hget3, hother3⟩ := @updateModules_ok env.getModules (checkModules raw₂) h.modules
  refine ⟨raw₃, ?_, fun t ht => ?_, ?_⟩
  · rw [loadMonitoringConfigFile, hrun1]
    change (daemonTypes.foldlM (checkDaemons env extra) raw₁ >>= fun raw =>
      env.getModules.foldlM updateModule (checkModules raw)) = _
    rw [hrun2]
    exact hrun3
  · have hne : t ≠ moduleType := by
      rintro rfl
      exact absurd ht (by decide)
    have hcheck : (checkModules raw₂).get t = raw₂.get t := by
      unfold checkModules
      rw [Raw.get_set, if_neg hne]
      rfl
    rw [hother3 t hne, hcheck, hget2, if_pos ht, hdaemons]
  · have hcheck : (checkModules raw₂).get moduleType = (legacyOf legacy extra moduleType).map checkModule := by
      unfold checkModules
      rw [Raw.get_set, if_pos rfl, hget2, if_neg (by decide), hdaemons, daemonsOf_module h.daemons]
      rfl
    rw [hget3, hcheck]
    rfl

theorem load_definitions_iff (h : WellFormed env legacy extra) : ∃ raw,
    loadMonitoringConfigFile (some env) legacy extra = .ok raw ∧
      (OneDefinition env legacy extra raw ↔ Replaced env legacy extra) := by
  obtain ⟨raw, hload, hdaemons, hmodules⟩ := load_ok h
  refine ⟨raw, hload, ?_⟩
  constructor
  · intro ho
    refine ⟨fun t ht => ?_, modules_iff.mp (hmodules ▸ ho.modules)⟩
    exact daemonsReplaced_of_oneEach (daemonsOf_named h.daemons t) (h.legacy t ht) (fun cfg hcfg => (checkDaemon_ok hcfg).2)
      (hdaemons t ht ▸ ho.daemons t ht)
  · intro hr
    refine ⟨fun t ht => ?_, hmodules ▸ modules_iff.mpr hr.modules⟩
    rw [hdaemons t ht]
    exact oneEach_of_daemonsReplaced (daemonsOf_named h.daemons t) (h.legacy t ht) (fun cfg hcfg => (checkDaemon_ok hcfg).2)
      (hr.daemons t ht)

end

/-! ## Two configurations -/

def masterSection : Section := (Dict.empty.set typeKey "scheduler".toList).set nameKey "master".toList

def logsSection : Section := Dict.empty.set nameKey "logs".toList

def iniFile : Environment where
  configurationFile := "alignak.ini".toList
  sections := (Dict.empty.set "daemon.master".toList masterSection).set "module.logs".toList logsSection

def otherModule : Dict Text (List ConfigBuffer.Object) :=
  (Dict.empty.set "scheduler".toList [Dict.empty.set (typeName "scheduler".toList) ["master".toList]]).set moduleType
    [Dict.empty.set aliasKey ["metrics".toList]]

theorem iniFile_named : DaemonsNamed iniFile.getDaemons := by
  have hmaster : ∀ d ∈ iniFile.getDaemons, d.2.get? typeKey = some "scheduler".toList ∧ d.2.get? nameKey ≠ none := by
    decide
  intro d hd daemonType htype
  rw [(hmaster d hd).1] at htype
  cases htype
  exact ⟨by decide, (hmaster d hd).2⟩

theorem otherModule_wellFormed : WellFormed iniFile otherModule [] := ⟨iniFile_named, by decide, by decide⟩

theorem otherModule_replaced : Replaced iniFile otherModule [] := by
  have hupdated : ∀ t ∈ daemonTypes,
      (notUpdated t (daemonsOf iniFile.getDaemons t) (legacyOf otherModule [] t)).isEmpty = true := by
    decide
  have hdefined : ∀ t ∈ daemonTypes, ∀ cfg ∈ legacyOf otherModule [] t, ∃ e ∈ daemonsOf iniFile.getDaemons t,
      daemonName t (cfgOf e) = daemonName t cfg := by
    decide
  have hapart : ∀ cfg ∈ legacyOf otherModule [] moduleType, ∀ e ∈ iniFile.getModules.map Prod.snd,
      moduleName (cfgOf e) ≠ moduleName cfg := by
    decide
  constructor
  · intro t ht
    have hnil := List.isEmpty_iff.mp (hupdated t ht)
    refine ⟨fun cfg hcfg => ?_, fun cfg hcfg n hname => .inl ?_, ?_⟩
    · rw [hnil] at hcfg
      cases hcfg
    · obtain ⟨e, he, hsame⟩ := hdefined t ht cfg hcfg
      exact ⟨e, he, hsame.trans hname⟩
    · rw [hnil]
      exact List.nodup_nil
  · refine ⟨fun cfg hcfg n hname hn => ?_, by decide, by decide⟩
    obtain ⟨e, he, hen⟩ := hn
    exact hapart cfg hcfg e he (hen.trans hname.symm)

theorem otherModule_definitions : ∃ raw, loadMonitoringConfigFile (some iniFile) otherModule [] = .ok raw ∧
    OneDefinition iniFile otherModule [] raw := by
  obtain ⟨raw, hload, hiff⟩ := load_definitions_iff otherModule_wellFormed
  exact ⟨raw, hload, hiff.mpr otherModule_replaced⟩

def sameModule : Dict Text (List ConfigBuffer.Object) := Dict.empty.set moduleType [Dict.empty.set aliasKey ["logs".toList]]

theorem sameModule_wellFormed : WellFormed iniFile sameModule [] := ⟨iniFile_named, by decide, by decide⟩

/-- The legacy definition stays, that of the environment is lost. -/
theorem sameModule_kept : WellFormed iniFile sameModule [] ∧ ∃ raw,
    loadMonitoringConfigFile (some iniFile) sameModule [] = .ok raw ∧
      (raw.get moduleType).map (·.entries) = [[(nameKey, .list ["logs".toList])]] ∧
        ¬ OneDefinition iniFile sameModule [] raw := by
  obtain ⟨raw, hload, -, hmodules⟩ := load_ok sameModule_wellFormed
  refine ⟨sameModule_wellFormed, raw, hload, ?_, fun h => ?_⟩
  · rw [hmodules]
    decide +kernel
  · have hone := h.modules
    rw [hmodules] at hone
    have hdefined : ∀ cfg ∈ legacyOf sameModule [] moduleType, moduleName cfg = some ["logs".toList] ∧
        ∃ e ∈ iniFile.getModules.map Prod.snd, moduleName (cfgOf e) = some ["logs".toList] := by
      decide +kernel
    obtain ⟨cfg, hcfg⟩ := List.exists_mem_of_ne_nil (legacyOf sameModule [] moduleType) (by decide +kernel)
    obtain ⟨hname, hn⟩ := hdefined cfg hcfg
    exact apart_of_oneEach hone cfg hcfg _ hname hn

end ArbiterObjects

end Alignak
