import Alignak.Exn
import Alignak.Forests
import Mathlib.Data.List.Sort
import Mathlib.Logic.Function.Basic

/-!
# The hierarchy of the realms

`explode` of `realm.py` adds the realms that name a higher realm to its members
and looks for loops from every realm; `linkify` then gives each realm its level
and all its sub realms.
-/

namespace Alignak.Hierarchy

inductive SatType
  | arbiters
  | schedulers
  | brokers
  | pollers
  | reactionners
  | receivers
  deriving DecidableEq, Repr

inductive RealmError (κ : Type)
  | loop (name : κ)
  deriving DecidableEq, Repr

structure Realm (κ : Type) where
  realmMembers : List κ
  higherRealms : List κ
  satellites : SatType → List Nat
  unknownMembers : List κ := []
  configurationErrors : List (RealmError κ) := []
  recTag : Bool := false
  level : Int := -1
  allSubMembers : List κ := []
  allSubMembersNames : List κ := []

structure Realms (κ : Type) where
  names : List κ
  realm : κ → Realm κ

structure Declared (κ : Type) where
  names : List κ
  realmMembers : κ → List κ
  higherRealms : κ → List κ
  satellites : κ → SatType → List Nat

def Declared.realms {κ : Type} (d : Declared κ) : Realms κ where
  names := d.names
  realm name := ⟨d.realmMembers name, d.higherRealms name, d.satellites name, [], [], false, -1, [], []⟩

section
variable {κ : Type} [LinearOrder κ]

def Realms.modify (name : κ) (f : Realm κ → Realm κ) (w : Realms κ) : Realms κ :=
  { w with realm := Function.update w.realm name (f (w.realm name)) }

def Realms.findByName (name : κ) (w : Realms κ) : Option κ := if name ∈ w.names then some name else none

/-! ## The explosion -/

def addError (name : κ) (w : Realms κ) : Realms κ :=
  w.modify name fun realm => { realm with configurationErrors := realm.configurationErrors ++ [.loop name] }

def addUnknownMembers (name member : κ) (w : Realms κ) : Realms κ :=
  w.modify name fun realm => { realm with unknownMembers := realm.unknownMembers ++ [member] }

/-- The loop over the members of a realm. A member that returns `None` ends it. -/
def explodeMembers (explode : κ → Realms κ → Except Exn (Option (List κ) × Realms κ)) (name : κ) :
    List κ → Realms κ → Except Exn (Option (List κ) × Realms κ)
  | [], w => .ok (some (w.realm name).allSubMembers, w)
  | member :: members, w =>
    match w.findByName member with
    | none => explodeMembers explode name members (addUnknownMembers name member w)
    | some found =>
      match explode found w with
      | .error e => .error e
      | .ok (some _, w) => explodeMembers explode name members w
      | .ok (none, w) => .ok (none, w.modify name fun realm => { realm with allSubMembers := [], realmMembers := [] })

def tagAndSort (name : κ) (w : Realms κ) : Realms κ :=
  w.modify name fun realm => { realm with recTag := true, realmMembers := realm.realmMembers.insertionSort (· ≤ ·) }

def getRealmsByExplosion : Nat → κ → Realms κ → Except Exn (Option (List κ) × Realms κ)
  | 0, _, _ => .error .diverges
  | fuel + 1, name, w =>
    if (w.realm name).recTag then .ok (none, addError name w)
    else explodeMembers (getRealmsByExplosion fuel) name ((tagAndSort name w).realm name).realmMembers (tagAndSort name w)

def addHigherRealm (name : κ) (w : Realms κ) (parent : κ) : Realms κ :=
  match w.findByName parent with
  | none => w
  | some higher => w.modify higher fun realm => { realm with realmMembers := realm.realmMembers ++ [name] }

def manageHigherRealms (w : Realms κ) : Realms κ :=
  (w.names.filter fun name => (w.realm name).higherRealms ≠ []).foldl
    (fun w name => (w.realm name).higherRealms.foldl (addHigherRealm name) w) w

def cleanTags (w : Realms κ) : Realms κ := { w with realm := fun name => { w.realm name with recTag := false } }

def explodeRealm (w : Realms κ) (name : κ) : Except Exn (Realms κ) :=
  (getRealmsByExplosion (w.names.length + 1) name (cleanTags w)).map (·.2)

def explode (w : Realms κ) : Except Exn (Realms κ) := do
  let w := manageHigherRealms w
  let w ← w.names.foldlM explodeRealm w
  return cleanTags w

/-! ## The levels -/

def addSubMember (name child : κ) (w : Realms κ) : Realms κ :=
  w.modify name fun realm =>
    { realm with allSubMembers := realm.allSubMembers ++ [child], allSubMembersNames := realm.allSubMembersNames ++ [child] }

def addGrandChild (name : κ) (w : Realms κ) (grandChild : κ) : Realms κ :=
  if grandChild ∈ (w.realm name).allSubMembersNames then w
  else match w.findByName grandChild with
    | none => w
    | some found => addSubMember name found w

def setChildren (setLevel : Int → κ → Realms κ → Except Exn (List κ × Realms κ)) (name : κ) : List κ → Realms κ → Except Exn (Realms κ)
  | [], w => .ok w
  | child :: children, w =>
    match w.findByName child with
    | none => setChildren setLevel name children w
    | some found =>
      match setLevel ((w.realm name).level + 1) found (addSubMember name found w) with
      | .error e => .error e
      | .ok (grandChildren, w) => setChildren setLevel name children (grandChildren.foldl (addGrandChild name) w)

def startLevel (level : Int) (name : κ) (w : Realms κ) : Realms κ :=
  w.modify name fun realm => { realm with level := level, allSubMembers := [], allSubMembersNames := [] }

def setLevel : Nat → Int → κ → Realms κ → Except Exn (List κ × Realms κ)
  | 0, _, _, _ => .error .diverges
  | fuel + 1, level, name, w => do
    let w ← setChildren (setLevel fuel) name ((w.realm name).realmMembers.insertionSort (· ≤ ·)) (startLevel level name w)
    return ((w.realm name).allSubMembersNames, w)

def linkifyRealm (w : Realms κ) (name : κ) : Except Exn (Realms κ) :=
  if w.names.any fun other => other ≠ name ∧ name ∈ (w.realm other).realmMembers then .ok w
  else (setLevel (w.names.length + 1) 0 name (w.modify name fun realm => { realm with level := 0 })).map (·.2)

def linkify (w : Realms κ) : Except Exn (Realms κ) := w.names.foldlM linkifyRealm w

def getAllSubsSatellitesByType (satType : SatType) : Nat → κ → Realms κ → Except Exn (List Nat)
  | 0, _, _ => .error .diverges
  | fuel + 1, name, w =>
    (w.realm name).allSubMembers.foldlM
      (fun res member =>
        match w.findByName member with
        | none => .error .keyError
        | some found => (getAllSubsSatellitesByType satType fuel found w).map (res ++ ·))
      ((w.realm name).satellites satType)

/-! ## What is claimed -/

def Realms.known (w : Realms κ) (name : κ) : List κ :=
  if name ∈ w.names then (w.realm name).realmMembers.filter (· ∈ w.names) else []

def Realms.Reported (w : Realms κ) : Prop := ∃ name, (w.realm name).configurationErrors ≠ []

namespace Declared

variable (d : Declared κ)

def Member (a b : κ) : Prop := a ∈ d.names ∧ b ∈ d.names ∧ (b ∈ d.realmMembers a ∨ a ∈ d.higherRealms b)

def Loop : Prop := ∃ a, Relation.TransGen d.Member a a

/-- A loop is reported where there is one, and what is left ends. -/
structure Exploded (w : Realms κ) : Prop where
  reported : w.Reported ↔ d.Loop
  acyclic : Acyclic (Edge w.known)
  levels : ∀ level, ∀ name ∈ d.names, ∃ r, setLevel (d.names.length + 1) level name w = .ok r
  satellites : ∃ w', linkify w = .ok w' ∧
    ∀ satType, ∀ name ∈ d.names, ∃ l, getAllSubsSatellitesByType satType (d.names.length + 1) name w' = .ok l

def members (a : κ) : List κ := d.realmMembers a ++ d.names.flatMap fun b => (d.higherRealms b).filterMap fun parent =>
  if parent = a then some b else none

def known (a : κ) : List κ := if a ∈ d.names then (d.members a).filter (· ∈ d.names) else []

end Declared

end

end Alignak.Hierarchy
