import Alignak.Dict
import Alignak.Exn

/-!
# A new configuration in a running daemon

The links of a daemon to the other ones are in tables, each by the identifier of
the link; the texts of both identifiers have the type `κ`.
-/

namespace Alignak.NewConf

section
variable {κ α β : Type} [DecidableEq κ]

inductive LinkType
  | arbiters
  | schedulers
  | pollers
  | reactionners
  | brokers
  deriving DecidableEq, Repr

/-- `SatelliteLink`, with its context. -/
structure Link (κ α β : Type) [DecidableEq κ] where
  uuid : κ
  instanceId : κ
  runningId : Nat := 0
  broks : List β := []
  actions : Dict Nat α := Dict.empty
  waitHomerun : Dict Nat α := Dict.empty
  pushedCommands : List (List Char) := []
  externalCommands : List (List Char) := []

structure RsConf (κ : Type) where
  instanceId : κ
  uuid : Option κ := none

structure Conf (κ : Type) [DecidableEq κ] where
  links : LinkType → Option (Dict κ (RsConf κ))

/-- `created` counts the links that were created. -/
structure Daemon (κ α β : Type) [DecidableEq κ] where
  isScheduler : Bool
  links : LinkType → Dict κ (Link κ α β)
  created : Nat

def setupTypes (isScheduler : Bool) : List LinkType :=
  if isScheduler then [.arbiters, .pollers, .reactionners, .brokers] else [.arbiters, .schedulers]

def cleanedTypes (isScheduler : Bool) : List LinkType :=
  if isScheduler then [.arbiters, .schedulers, .pollers, .reactionners, .brokers] else [.arbiters, .schedulers]

def cleanPreviousRun (d : Daemon κ α β) : Daemon κ α β :=
  { d with links := fun type => if type ∈ cleanedTypes d.isScheduler then Dict.empty else d.links type }

/-- `get_a_satellite_link`: a link without an identifier gets a new one. -/
def getASatelliteLink (newObjectId : Nat → κ) (created : Nat) (rs : RsConf κ) : Link κ α β :=
  { uuid := rs.uuid.getD (newObjectId created), instanceId := rs.instanceId }

def Link.takeContext (link former : Link κ α β) : Link κ α β :=
  { link with
    runningId := former.runningId
    broks := former.broks
    actions := former.actions
    waitHomerun := former.waitHomerun
    externalCommands := former.pushedCommands }

/-- One turn of the loop over the received links, for the link of key `linkUuid`. -/
def setupLink (newObjectId : Nat → κ) (state : Nat × Dict κ (Link κ α β)) (linkUuid : κ) (rs : RsConf κ) :
    Except Exn (Nat × Dict κ (Link κ α β)) :=
  let (created, mySatellites) := state
  let newLink := getASatelliteLink newObjectId created rs
  if mySatellites.contains rs.instanceId then
    match mySatellites.get? linkUuid with
    | none => .error .keyError
    | some former => .ok (created + 1, (mySatellites.erase linkUuid).set newLink.uuid (newLink.takeContext former))
  else .ok (created + 1, mySatellites.set newLink.uuid newLink)

def setupLinks (newObjectId : Nat → κ) (conf : Conf κ) (d : Daemon κ α β) (type : LinkType) : Except Exn (Daemon κ α β) :=
  match conf.links type with
  | none => .ok d
  | some received => do
    let (created, links) ← received.entries.foldlM (fun state e => setupLink newObjectId state e.1 e.2) (d.created, d.links type)
    return { d with links := Function.update d.links type links, created := created }

def setupNewConf (newObjectId : Nat → κ) (conf : Conf κ) (d : Daemon κ α β) : Except Exn (Daemon κ α β) :=
  (setupTypes d.isScheduler).foldlM (setupLinks newObjectId conf) (cleanPreviousRun d)

end

end Alignak.NewConf
