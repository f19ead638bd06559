import Alignak.Json
import Alignak.Retention

/-!
# The inner retention module

The retention data of a scheduler are written to one file, or to a file for each
host, and read back from them. What a file holds is what the JSON encoding
carries over, whatever the order of the keys.
-/

namespace Alignak.InnerRetention

open Scheduling (ItemType)

abbrev Fields := List (String × Json)

def retainedName : Retention.Retained → String
  | .value name => name
  | .table .downtimes => "downtimes"
  | .table .comments => "comments"
  | .table .notificationsInProgress => "notifications_in_progress"
  | .acknowledgement => "acknowledgement"

/-- The properties that `get_retention_data` saves. -/
def retainedNames (t : ItemType) : List String := (Retention.retainedProperties t).map retainedName

/-- What `get_retention_data` produces: each item has its retained properties,
and the host of each service is there. -/
structure Data where
  hosts : Dict String Fields
  services : Dict (String × String) Fields
  retained : ∀ h fields, hosts.get? h = some fields → ∀ p, fields.lookup p ≠ none → p ∈ retainedNames .host
  hosted : ∀ h s, services.get? (h, s) ≠ none → hosts.get? h ≠ none

structure Disk where
  file : Option Json
  directory : Dict String Json

/-- `oneFile` tells that a retention file is configured; `absolute` that a file
can be opened for a name that is an absolute path. -/
structure Conf where
  oneFile : Bool
  absolute : String → Bool

/-! ## Saving -/

def prepareHost (hostName : String) (fields : Fields) : Fields :=
  Json.insert "name" (.str hostName) (Json.insert "services" (.obj []) fields)

def addService (hosts : Dict String Fields) (e : (String × String) × Fields) : Except Exn (Dict String Fields) :=
  match hosts.get? e.1.1 with
  | none => .error .keyError
  | some fields =>
    match fields.lookup "services" with
    | some (.obj services) =>
      .ok (hosts.set e.1.1 (Json.insert "services" (.obj (Json.insert e.1.2 (.obj e.2) services)) fields))
    | _ => .error .keyError

def mergedHosts (data : Data) : Except Exn (Dict String Fields) :=
  data.services.entries.foldlM addService (data.hosts.mapValues prepareHost)

inductive Opened
  | inDirectory (fileName : String)
  | elsewhere
  | fails
  deriving DecidableEq, Repr

def openFor (conf : Conf) (hostName : String) : Opened :=
  if hostName.toList.head? = some '/' then
    if conf.absolute hostName then .elsewhere else .fails
  else if '/' ∈ hostName.toList then .fails
  else .inDirectory (hostName ++ ".json")

def saveHosts (conf : Conf) : List (String × Fields) → Dict String Json → Dict String Json
  | [], directory => directory
  | (hostName, fields) :: hosts, directory =>
    match openFor conf hostName with
    | .inDirectory fileName => saveHosts conf hosts (directory.set fileName (.obj fields))
    | .elsewhere => saveHosts conf hosts directory
    | .fails => directory

def hookSaveRetention (conf : Conf) (data : Data) (disk : Disk) : Disk :=
  match mergedHosts data with
  | .error _ => disk
  | .ok hosts =>
    if conf.oneFile then { disk with file := some (.obj (hosts.mapValues fun _ fields => Json.obj fields).entries) }
    else { disk with directory := saveHosts conf hosts.entries disk.directory }

/-! ## Loading -/

inductive Key
  | null
  | bool (b : Bool)
  | int (n : Int)
  | float (x : Rat)
  | str (s : String)
  deriving DecidableEq

def hash : Json → Except Exn Key
  | .null => .ok .null
  | .bool b => .ok (.bool b)
  | .int n => .ok (.int n)
  | .float x => .ok (.float x)
  | .str s => .ok (.str s)
  | .arr _ | .obj _ => .error .typeError

structure AllData where
  hosts : Dict Key Json
  services : Dict (Key × String) Json

def AllData.empty : AllData := ⟨Dict.empty, Dict.empty⟩

def loadServices (name : Json) (services : Json) (all : AllData) : Except Exn AllData :=
  match services with
  | .obj [] | .arr [] | .str "" => .ok all
  | .obj l => do
    let key ← hash name
    return { all with services := l.foldl (fun d e => d.set (key, e.1) ((l.lookup e.1).getD .null)) all.services }
  | _ => .error .typeError

def loadHost (all : AllData) (host : Json) : Except Exn AllData := do
  let hostname ← host.item "name"
  let serviceKey := if host.has "retention_services" then "retention_services" else "services"
  let all ←
    if host.has serviceKey then do
      let services ← host.item serviceKey
      loadServices hostname services all
    else .ok all
  let key ← hash hostname
  return { all with hosts := all.hosts.set key host }

def asList : Json → List Json
  | .arr l => l
  | j => [j]

def isRetention : List Json → Bool
  | .obj l :: _ => (Json.obj l).has "name"
  | _ => false

def loadFile (all : AllData) (content : Json) : Except Exn AllData :=
  if isRetention (asList content) then (asList content).foldlM loadHost all else .ok all

/-- The files are those of `walk`, in its order. -/
def loadFiles (files : List Json) : Except Exn AllData := files.foldlM loadFile AllData.empty

def hookLoadRetention (conf : Conf) (walk : List Json) (disk : Disk) : Except Exn (Option AllData) :=
  if conf.oneFile then
    match disk.file with
    | none => .ok none
    | some content => (loadFiles [content]).map some
  else (loadFiles walk).map some

/-! ## What is given back -/

structure GivesBack (data : Data) (all : AllData) : Prop where
  hosts : ∀ h fields, data.hosts.get? h = some fields →
    ∃ host, all.hosts.get? (.str h) = some host ∧ ∀ p ∈ retainedNames .host, host.get? p = fields.lookup p
  services : ∀ h s fields, data.services.get? (h, s) = some fields → all.services.get? (.str h, s) = some (.obj fields)

end Alignak.InnerRetention
