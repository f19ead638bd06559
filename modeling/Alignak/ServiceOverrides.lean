import Alignak.KeyRanges
import Alignak.Numerals
import Mathlib.Data.List.Forall2

/-!
# Service overrides

A host may override properties of its services, with entries made of a service
description, a property and a value.
-/

namespace Alignak

namespace ServiceOverrides

abbrev Text := List Char

/-! ## Conversions -/

inductive Raised
  | keyError
  | indexError
  | pythonizeError
  | number (e : Numerals.Failure)
  deriving DecidableEq

inductive Converted
  | text (s : Text)
  | number (n : Int)
  | flag (b : Bool)
  | texts (l : List Text)
  deriving DecidableEq

/-- The classes of `property.py` that a service uses. -/
inductive PropertyType
  | string
  | integer
  | bool
  | char
  | list (keepEmpty : Bool)

def booleanStates : List (Text × Bool) :=
  [("1".toList, true), ("yes".toList, true), ("true".toList, true), ("on".toList, true), ("0".toList, false),
    ("no".toList, false), ("false".toList, false), ("off".toList, false)]

/-- `val.split(',')`, with nothing for an empty text -/
def toSplit (val : Text) : List Text := if val.splitOn ',' = [[]] then [] else val.splitOn ','

def toInt (val : Text) : Except Numerals.Failure Int :=
  match Numerals.toInt val with
  | .ok n => .ok n
  | .error _ => Numerals.toFloat val >>= Numerals.truncate

def PropertyType.pythonize : PropertyType → Text → Except Raised Converted
  | string, val => .ok (.text (strip val))
  | integer, val => ((toInt val).map Converted.number).mapError Raised.number
  | bool, val => ((booleanStates.lookup (val.map Char.toLower)).map Converted.flag).elim (.error .pythonizeError) .ok
  | char, val => (val.head?.map fun c => Converted.text [c]).elim (.error .indexError) .ok
  | list keepEmpty, val => .ok (.texts (((toSplit val).filter fun s => !(strip s).isEmpty || keepEmpty).map strip))

/-- `Service.properties` -/
def properties : List (String × PropertyType) :=
  [("name", .string), ("imported_from", .string), ("use", .list false), ("definition_order", .integer),
    ("register", .bool),
    ("display_name", .string), ("initial_state", .char), ("max_check_attempts", .integer), ("check_interval", .integer),
    ("retry_interval", .integer), ("active_checks_enabled", .bool), ("passive_checks_enabled", .bool),
    ("check_period", .string), ("check_freshness", .bool), ("freshness_threshold", .integer),
    ("event_handler", .string), ("event_handler_enabled", .bool), ("low_flap_threshold", .integer),
    ("high_flap_threshold", .integer), ("flap_detection_enabled", .bool), ("process_perf_data", .bool),
    ("retain_status_information", .bool), ("retain_nonstatus_information", .bool), ("contacts", .list false),
    ("contact_groups", .list false), ("notification_interval", .integer), ("first_notification_delay", .integer),
    ("notification_period", .string), ("notifications_enabled", .bool), ("stalking_options", .list false),
    ("notes", .string), ("notes_url", .string), ("action_url", .string), ("icon_image", .string),
    ("icon_image_alt", .string), ("icon_set", .string), ("poller_tag", .string), ("reactionner_tag", .string),
    ("escalations", .list false), ("maintenance_period", .string), ("time_to_orphanage", .integer),
    ("labels", .list false), ("business_rule_output_template", .string), ("business_rule_smart_notifications", .bool),
    ("business_rule_downtime_as_ack", .bool), ("business_rule_host_notification_options", .list false),
    ("business_rule_service_notification_options", .list false), ("business_impact", .integer),
    ("trending_policies", .list false), ("checkmodulations", .list false), ("macromodulations", .list false),
    ("resultmodulations", .list false), ("business_impact_modulations", .list false), ("custom_views", .list false),
    ("snapshot_enabled", .bool), ("snapshot_command", .string), ("snapshot_period", .string),
    ("snapshot_interval", .integer),
    ("alias", .string), ("host_name", .string), ("hostgroup_name", .string), ("service_description", .string),
    ("servicegroups", .list false), ("is_volatile", .bool), ("check_command", .string),
    ("flap_detection_options", .list false), ("notification_options", .list false), ("parallelize_check", .bool),
    ("merge_host_contacts", .bool), ("host_dependency_enabled", .bool), ("freshness_state", .char),
    ("service_dependencies", .list true), ("duplicate_foreach", .string), ("default_value", .string),
    ("aggregation", .string), ("snapshot_criteria", .list false)]

/-! ## Entries -/

structure Override where
  sdescr : Text
  prop : Text
  value : Text

/-- `^([^,]+),([^\s]+)\s+(.*)$` -/
def parse (ovr : Text) : Option Override :=
  let sdescr := ovr.takeWhile (· != ',')
  let rest := (ovr.dropWhile (· != ',')).tail
  let prop := rest.takeWhile fun c => !isSpace c
  let spaced := rest.dropWhile fun c => !isSpace c
  if !sdescr.isEmpty && ovr.contains ',' && !prop.isEmpty && !spaced.isEmpty then
    (restOfLine (spaced.dropWhile isSpace)).map fun value => ⟨sdescr, prop, value⟩
  else none

inductive Overrides
  | unset
  | one (ovr : Text)
  | many (l : List Text)

def Overrides.entries : Overrides → List Text
  | unset => []
  | one ovr => if ovr.isEmpty then [] else [ovr]
  | many l => l

structure Host where
  getName : Text
  hostName : Option Text
  serviceOverrides : Overrides
  configurationErrors : List Text
  confIsCorrect : Bool

def Host.addError (host : Host) (message : Text) : Host :=
  { host with
    configurationErrors := host.configurationErrors ++ ["[host::".toList ++ host.getName ++ "] ".toList ++ message]
    confIsCorrect := false }

structure Services where
  nameToItem : Text × Text → Option Nat
  attr : Nat → Text → Option Converted

def Services.setAttr (services : Services) (service : Nat) (prop : Text) (value : Converted) : Services :=
  { services with
    attr := fun i p => if i = service ∧ p = prop then some value else services.attr i p }

def Services.find (services : Services) (host : Host) (sdescr : Text) : Option Nat :=
  services.nameToItem (host.hostName.getD [], sdescr)

def excludes : List String := ["host_name", "service_description", "use", "servicegroups", "trigger_name"]

def Override.isExcluded (ovr : Override) : Bool := excludes.contains (String.ofList ovr.prop)

/-- `service.properties[prop].pythonize(value)` -/
def Override.convert (ovr : Override) : Except Raised Converted :=
  match properties.lookup (String.ofList ovr.prop) with
  | none => .error .keyError
  | some type => type.pythonize ovr.value

def syntaxError (ovr : Text) : Text := "invalid service override syntax: ".toList ++ ovr

def Override.unknownService (ovr : Override) : Text :=
  "trying to override property '".toList ++ ovr.prop ++ "' on service '".toList ++ ovr.sdescr ++
    "' but it's unknown for this host".toList

def Override.forbidden (ovr : Override) : Text :=
  "trying to override '".toList ++ ovr.prop ++ "', a forbidden property for service '".toList ++ ovr.sdescr ++ "'".toList

def applyOverride (s : Services × Host) (ovr : Text) : Except Raised (Services × Host) :=
  match parse ovr with
  | none => .ok (s.1, s.2.addError (syntaxError ovr))
  | some o =>
    match s.1.find s.2 o.sdescr with
    | none => .ok (s.1, s.2.addError o.unknownService)
    | some service =>
      if o.isExcluded then .ok (s.1, s.2.addError o.forbidden)
      else o.convert.map fun value => (s.1.setAttr service o.prop value, s.2)

def overrideProperties : Services → List Host → Except Raised (Services × List Host)
  | services, [] => .ok (services, [])
  | services, host :: hosts => do
    let s ← host.serviceOverrides.entries.foldlM applyOverride (services, host)
    let r ← overrideProperties s.1 hosts
    return (r.1, s.2 :: r.2)

/-! ## What is expected -/

def acceptable (services : Services) (host : Host) (ovr : Text) : Option (Nat × Text × Converted) := do
  let o ← parse ovr
  let service ← services.find host o.sdescr
  let value ← if o.isExcluded then none else o.convert.toOption
  return (service, o.prop, value)

def applied (services : Services) (host : Host) : List (Nat × Text × Converted) :=
  host.serviceOverrides.entries.filterMap (acceptable services host)

def refused (services : Services) (host : Host) : List Text :=
  host.serviceOverrides.entries.filter fun ovr => (acceptable services host ovr).isNone

def Services.overridden (services : Services) (l : List (Nat × Text × Converted)) (service : Nat) (prop : Text) :
    Option Converted :=
  ((l.filter fun a => a.1 == service && a.2.1 == prop).getLast?.map fun a => a.2.2).or (services.attr service prop)

/-- The host with an error for each entry. -/
def Host.noted (text : Text → Text) (host : Host) (l : List Text) : Host :=
  { host with
    configurationErrors := host.configurationErrors ++ l.map text
    confIsCorrect := host.confIsCorrect && l.isEmpty }

structure Overridden (services : Services) (hosts : List Host) (r : Services × List Host) : Prop where
  nameToItem : r.1.nameToItem = services.nameToItem
  attr : ∀ service prop, r.1.attr service prop = services.overridden (hosts.flatMap (applied services)) service prop
  hosts : List.Forall₂ (fun host host' => ∃ text, host' = host.noted text (refused services host)) hosts r.2

/-- An entry that passes the tests of the loop names a known property and a
value that it can have. -/
def Convertible (services : Services) (host : Host) (ovr : Text) : Prop :=
  ∀ o, parse ovr = some o → services.find host o.sdescr ≠ none → o.isExcluded = false → ∃ value, o.convert = .ok value

section
variable {services services' : Services} {host host' : Host} {ovr : Text} {l l' : List (Nat × Text × Converted)}
  {s s' : Services × Host} {service : Nat} {prop : Text}

/-! ## One entry -/

theorem find_congr (hn : services'.nameToItem = services.nameToItem) (hh : host'.hostName = host.hostName) (sdescr : Text) :
    services'.find host' sdescr = services.find host sdescr := by
  unfold Services.find
  rw [hn, hh]

theorem acceptable_congr (hn : services'.nameToItem = services.nameToItem) (hh : host'.hostName = host.hostName) :
    acceptable services' host' = acceptable services host := by
  funext ovr
  unfold acceptable
  simp only [find_congr hn hh]

theorem Convertible.congr (hn : services'.nameToItem = services.nameToItem) (hh : host'.hostName = host.hostName) :
    Convertible services' host' ovr ↔ Convertible services host ovr := by
  unfold Convertible
  simp only [find_congr hn hh]

/-- The error for an entry that is refused. -/
def messageOf (services : Services) (host : Host) (ovr : Text) : Text :=
  match parse ovr with
  | none => syntaxError ovr
  | some o => if (services.find host o.sdescr).isNone then o.unknownService else o.forbidden

/-- The turn of an entry that does not raise. -/
def turn (s : Services × Host) (ovr : Text) : Services × Host :=
  (acceptable s.1 s.2 ovr).elim (s.1, s.2.addError (messageOf s.1 s.2 ovr)) fun a => (s.1.setAttr a.1 a.2.1 a.2.2, s.2)

theorem applyOverride_ok (h : Convertible s.1 s.2 ovr) : applyOverride s ovr = .ok (turn s ovr) := by
  unfold applyOverride turn acceptable messageOf
  cases hp : parse ovr with
  | none => rfl
  | some o =>
    cases hf : s.1.find s.2 o.sdescr with
    | none => simp [hf]
    | some service =>
      cases he : o.isExcluded with
      | true => simp [hf, he]
      | false =>
        obtain ⟨value, hc⟩ := h o hp (by simp [hf]) he
        simp [hf, he, hc, Except.map, Except.toOption]

theorem convertible_of_ok (h : applyOverride s ovr = .ok s') : Convertible s.1 s.2 ovr := by
  intro o hp hf he
  unfold applyOverride at h
  obtain ⟨service, hservice⟩ := Option.ne_none_iff_exists'.mp hf
  simp only [hp, hservice, he, Bool.false_eq_true, if_false] at h
  cases hc : o.convert with
  | error e => rw [hc] at h; cases h
  | ok value => exact ⟨value, rfl⟩

theorem applyOverride_eq (h : applyOverride s ovr = .ok s') : s' = turn s ovr := by
  rw [applyOverride_ok (convertible_of_ok h)] at h
  exact (Except.ok.inj h).symm

/-! ## What is set -/

theorem overridden_nil : services.overridden [] service prop = services.attr service prop := rfl

theorem overridden_append (h : ∀ i p, services'.attr i p = services.overridden l i p) :
    services'.overridden l' service prop = services.overridden (l ++ l') service prop := by
  unfold Services.overridden at h ⊢
  rw [h, List.filter_append, List.getLast?_append, Option.map_or, Option.or_assoc]

theorem setAttr_overridden (a : Nat × Text × Converted) :
    (services.setAttr a.1 a.2.1 a.2.2).attr service prop = services.overridden [a] service prop := by
  unfold Services.overridden Services.setAttr
  by_cases h : service = a.1 ∧ prop = a.2.1
  · obtain ⟨rfl, rfl⟩ := h
    simp
  · have hne : (a.1 == service && a.2.1 == prop) = false := by
      rw [Bool.eq_false_iff]
      intro he
      simp only [Bool.and_eq_true, beq_iff_eq] at he
      exact h ⟨he.1.symm, he.2.symm⟩
    change (if service = a.1 ∧ prop = a.2.1 then some a.2.2 else services.attr service prop) = _
    rw [if_neg h, List.filter_cons_of_neg (by simp [hne])]
    rfl

@[simp] theorem noted_nil (text : Text → Text) : host.noted text [] = host := by
  simp [Host.noted]

theorem noted_cons (text : Text → Text) {message : Text}
    (h : text ovr = "[host::".toList ++ host.getName ++ "] ".toList ++ message) (refusals : List Text) :
    (host.addError message).noted text refusals = host.noted text (ovr :: refusals) := by
  simp [Host.noted, Host.addError, h]

/-- The text of the error for an entry, with the name of the host. -/
def errorText (services : Services) (host : Host) (ovr : Text) : Text :=
  "[host::".toList ++ host.getName ++ "] ".toList ++ messageOf services host ovr

/-! ## The entries of a host -/

/-- The services and the host after entries that have not raised. -/
structure Walked (services : Services) (host : Host) (l : List Text) (s s' : Services × Host) : Prop where
  nameToItem : s'.1.nameToItem = s.1.nameToItem
  attr : ∀ i p, s'.1.attr i p = s.1.overridden (l.filterMap (acceptable services host)) i p
  host : s'.2 = s.2.noted (errorText services host) (l.filter fun ovr => (acceptable services host ovr).isNone)

theorem messageOf_congr (hn : services'.nameToItem = services.nameToItem) (hh : host'.hostName = host.hostName) :
    messageOf services' host' = messageOf services host := by
  funext ovr
  unfold messageOf
  simp only [find_congr hn hh]

theorem turn_walked (hn : s.1.nameToItem = services.nameToItem) (hh : s.2.hostName = host.hostName)
    (hname : s.2.getName = host.getName) : Walked services host [ovr] s (turn s ovr) := by
  unfold turn
  rw [acceptable_congr hn hh]
  cases ha : acceptable services host ovr with
  | some a => exact ⟨rfl, fun i p => by simpa [ha] using setAttr_overridden a, by simp [ha]⟩
  | none =>
    refine ⟨rfl, fun i p => by simp [ha, overridden_nil], ?_⟩
    have htext : errorText services host ovr =
        "[host::".toList ++ s.2.getName ++ "] ".toList ++ messageOf s.1 s.2 ovr := by
      unfold errorText
      rw [hname, messageOf_congr hn hh]
    simpa [ha] using noted_cons (errorText services host) htext []

theorem isEmpty_append (a b : List Text) : (a ++ b).isEmpty = (a.isEmpty && b.isEmpty) := by
  cases a <;> rfl

theorem Walked.append {e e' : List Text} {s'' : Services × Host} (h : Walked services host e s s')
    (h' : Walked services host e' s' s'') : Walked services host (e ++ e') s s'' := by
  refine ⟨h'.nameToItem.trans h.nameToItem, fun i p => ?_, ?_⟩
  · rw [h'.attr, List.filterMap_append]
    exact overridden_append h.attr
  · rw [h'.host, h.host]
    simp [Host.noted, Bool.and_assoc, isEmpty_append]

theorem entries_walked : ∀ {e : List Text} {s : Services × Host}, (∀ ovr ∈ e, Convertible services host ovr) →
    s.1.nameToItem = services.nameToItem → s.2.hostName = host.hostName → s.2.getName = host.getName →
    ∃ s', e.foldlM applyOverride s = .ok s' ∧ Walked services host e s s'
  | [], s, _, _, _, _ => ⟨s, rfl, rfl, fun _ _ => rfl, by simp⟩
  | ovr :: e, s, hall, hn, hh, hname => by
    have hturn := applyOverride_ok ((Convertible.congr hn hh).mpr (hall ovr List.mem_cons_self))
    have hw : Walked services host [ovr] s (turn s ovr) := turn_walked hn hh hname
    obtain ⟨s', hok, hrest⟩ := entries_walked (s := turn s ovr) (fun o ho => hall o (List.mem_cons_of_mem _ ho))
      (hw.nameToItem.trans hn) ((congrArg Host.hostName hw.host).trans hh) ((congrArg Host.getName hw.host).trans hname)
    refine ⟨s', ?_, hw.append hrest⟩
    rw [List.foldlM_cons, hturn]
    exact hok

theorem convertible_of_run {e : List Text} (hn : s.1.nameToItem = services.nameToItem)
    (hh : s.2.hostName = host.hostName) (hname : s.2.getName = host.getName) (h : e.foldlM applyOverride s = .ok s') :
    ∀ ovr ∈ e, Convertible services host ovr := by
  intro ovr hovr
  let I : Services × Host → Prop := fun s =>
    s.1.nameToItem = services.nameToItem ∧ s.2.hostName = host.hostName ∧ s.2.getName = host.getName
  have hkeep : ∀ o ∈ e, ∀ s s', applyOverride s o = .ok s' → I s → I s' := by
    intro o _ s s' hs hI
    have hw : Walked services host [o] s s' := by
      rw [applyOverride_eq hs]
      exact turn_walked hI.1 hI.2.1 hI.2.2
    exact ⟨hw.nameToItem.trans hI.1, (congrArg Host.hostName hw.host).trans hI.2.1,
      (congrArg Host.getName hw.host).trans hI.2.2⟩
  obtain ⟨s₁, s₂, hI, hs⟩ := foldlM_turn h hkeep ⟨hn, hh, hname⟩ ovr hovr
  exact (Convertible.congr hI.1 hI.2.1).mp (convertible_of_ok hs)

end

/-! ## All the hosts -/

section
variable {services : Services}

theorem hosts_overridden : ∀ {hosts : List Host} {services' : Services},
    (∀ host ∈ hosts, ∀ ovr ∈ host.serviceOverrides.entries, Convertible services host ovr) →
    services'.nameToItem = services.nameToItem → ∃ r, overrideProperties services' hosts = .ok r ∧
      r.1.nameToItem = services.nameToItem ∧
      (∀ i p, r.1.attr i p = services'.overridden (hosts.flatMap (applied services)) i p) ∧
      List.Forall₂ (fun host host' => ∃ text, host' = host.noted text (refused services host)) hosts r.2
  | [], services', _, hn => ⟨(services', []), rfl, hn, fun _ _ => rfl, List.Forall₂.nil⟩
  | host :: hosts, services', hall, hn => by
    obtain ⟨s, hs, hw⟩ := @entries_walked services host _ (services', host) (hall host List.mem_cons_self) hn rfl rfl
    obtain ⟨r, hr, hnames, hattr, hhosts⟩ := @hosts_overridden hosts s.1
      (fun h hh => hall h (List.mem_cons_of_mem _ hh)) (hw.nameToItem.trans hn)
    refine ⟨(r.1, s.2 :: r.2), ?_, hnames, fun i p => ?_, ?_⟩
    · unfold overrideProperties
      rw [hs]
      change (overrideProperties s.1 hosts >>= fun r => .ok (r.1, s.2 :: r.2)) = _
      rw [hr]
      rfl
    · rw [hattr, List.flatMap_cons]
      exact overridden_append hw.attr
    · exact List.Forall₂.cons ⟨_, hw.host⟩ hhosts

theorem hosts_convertible : ∀ {hosts : List Host} {services' : Services} {r : Services × List Host},
    services'.nameToItem = services.nameToItem → overrideProperties services' hosts = .ok r →
    ∀ host ∈ hosts, ∀ ovr ∈ host.serviceOverrides.entries, Convertible services host ovr
  | [], _, _, _, _ => fun _ h => absurd h List.not_mem_nil
  | host :: hosts, services', r, hn, h => by
    unfold overrideProperties at h
    cases hs : host.serviceOverrides.entries.foldlM applyOverride (services', host) with
    | error e => rw [hs] at h; cases h
    | ok s =>
      rw [hs] at h
      have hfirst : ∀ ovr ∈ host.serviceOverrides.entries, Convertible services host ovr :=
        convertible_of_run (s := (services', host)) hn rfl rfl hs
      obtain ⟨s', hs', hw⟩ := @entries_walked services host _ (services', host) hfirst hn rfl rfl
      have hnames : s.1.nameToItem = services.nameToItem := by
        rw [hs] at hs'
        rw [Except.ok.inj hs']
        exact hw.nameToItem.trans hn
      change (overrideProperties s.1 hosts >>= fun r => .ok (r.1, s.2 :: r.2)) = _ at h
      cases hr : overrideProperties s.1 hosts with
      | error e => rw [hr] at h; cases h
      | ok r' =>
        intro host' hhost'
        rcases List.mem_cons.mp hhost' with rfl | hhost'
        · exact hfirst
        · exact hosts_convertible hnames hr host' hhost'

end

/-- The overrides are applied, and the errors noted, if and only if no entry
for a service of its host names an unknown property or a value that cannot be
converted. -/
theorem overrides_complete (services : Services) (hosts : List Host) :
    (∃ r, overrideProperties services hosts = .ok r ∧ Overridden services hosts r) ↔
      ∀ host ∈ hosts, ∀ ovr ∈ host.serviceOverrides.entries, Convertible services host ovr := by
  constructor
  · intro ⟨r, hr, _⟩
    exact hosts_convertible rfl hr
  · intro hall
    obtain ⟨r, hr, hnames, hattr, hhosts⟩ := hosts_overridden hall rfl
    exact ⟨r, hr, hnames, hattr, hhosts⟩

/-! ## A custom variable -/

/-- A host with the service `ping` that the entries are for. -/
def pingHost (entries : List String) : Host where
  getName := "h".toList
  hostName := some "h".toList
  serviceOverrides := .many (entries.map String.toList)
  configurationErrors := []
  confIsCorrect := true

def pingServices : Services where
  nameToItem := fun key => if key = ("h".toList, "ping".toList) then some 0 else none
  attr := fun _ _ => none

/-- The entries before are good, those after it are not looked at. -/
theorem override_raises : ¬ ∃ r, overrideProperties pingServices
      [pingHost ["ping,max_check_attempts 3", "ping,_LEVEL high", "ping,max_check_attempts 4"]] = .ok r ∧
    Overridden pingServices
      [pingHost ["ping,max_check_attempts 3", "ping,_LEVEL high", "ping,max_check_attempts 4"]] r := by
  intro ⟨r, hr, _⟩
  have hraised : overrideProperties pingServices
      [pingHost ["ping,max_check_attempts 3", "ping,_LEVEL high", "ping,max_check_attempts 4"]] = .error .keyError := by
    rfl
  rw [hraised] at hr
  cases hr

end ServiceOverrides

end Alignak
