import Alignak.Dict
import Alignak.Exn

/-!
# Objects that are written as dictionaries

The objects of `alignakobject.py`: a class is its table of properties, an object
is its attributes, a serialized object is a dictionary.
-/

namespace Alignak.Retention

inductive Value
  | none
  | bool (b : Bool)
  | int (n : Int)
  | float (x : Rat)
  | str (s : String)
  | list (l : List String)
  | flags (l : List Bool)
  | dict (l : List (String × String))
  deriving DecidableEq

/-- What `if value:` tests. -/
def Value.truthy : Value → Bool
  | .none => false
  | .bool b => b
  | .int n => n != 0
  | .float x => x != 0
  | .str s => s != ""
  | .list l => !l.isEmpty
  | .flags l => !l.isEmpty
  | .dict l => !l.isEmpty

abbrev Attributes := Dict String Value

structure ObjectClass where
  properties : List (String × Option Value)

namespace ObjectClass

def names (c : ObjectClass) : List String := c.properties.map Prod.fst

def fillDefault (c : ObjectClass) (o : Attributes) : Attributes :=
  c.properties.foldl (fun o p =>
    if (o.get? p.1).isSome then o
    else match p.2 with
      | none => o
      | some v => o.set p.1 v) o

/-- `AlignakObject.__init__` with parameters, outside the parsing of a
configuration. `newId` is the identifier that a new object gets. -/
def init (c : ObjectClass) (newId : String) (params : Attributes) : Attributes :=
  let o := c.fillDefault Dict.empty
  let o := if (params.get? "uuid").isSome then o else o.set "uuid" (.str newId)
  params.entries.foldl (fun o e => o.set e.1 e.2) o

def copy (o : Attributes) (res : Attributes) (p : String) : Attributes :=
  match o.get? p with
  | none => res
  | some v => res.set p v

def serialize (c : ObjectClass) (o : Attributes) : Except Exn Attributes :=
  match o.get? "uuid" with
  | none => .error .attributeError
  | some u => .ok (c.names.foldl (copy o) (Dict.empty.set "uuid" u))

/-! ## The defaults -/

def defaultOf (c : ObjectClass) (k : String) : Option Value :=
  (c.properties.find? fun p => p.1 = k && p.2.isSome).bind Prod.snd

theorem fill_get? (l : List (String × Option Value)) (o : Attributes) (k : String) :
    (l.foldl (fun o p =>
      if (o.get? p.1).isSome then o
      else match p.2 with
        | none => o
        | some v => o.set p.1 v) o).get? k =
      (o.get? k).or ((l.find? fun p => p.1 = k && p.2.isSome).bind Prod.snd) := by
  induction l generalizing o with
  | nil => simp
  | cons p l ih =>
    obtain ⟨n, d⟩ := p
    rw [List.foldl_cons, ih, List.find?_cons]
    by_cases hk : n = k
    · subst hk
      cases hg : o.get? n with
      | some v => simp [hg]
      | none => cases d with
        | none => simp [hg]
        | some v => simp
    · have hne : k ≠ n := fun e => hk e.symm
      simp only [hk, decide_false, Bool.false_and]
      split
      · rfl
      · cases d with
        | none => rfl
        | some v => rw [Dict.get?_set_ne hne]

theorem get?_fillDefault (c : ObjectClass) (o : Attributes) (k : String) :
    (c.fillDefault o).get? k = (o.get? k).or (c.defaultOf k) := fill_get? c.properties o k

theorem get?_init (c : ObjectClass) (newId : String) (params : Attributes) (k : String) :
    (c.init newId params).get? k =
      (params.get? k).or (if k = "uuid" then some (.str newId) else c.defaultOf k) := by
  unfold init
  simp only
  rw [Dict.get?_foldl_set (fun _ v => v) params.nodup]
  show ((params.get? k).map fun v => v).or _ = _
  rw [Option.map_id']
  cases hk : params.get? k with
  | some v => rfl
  | none =>
    rw [Option.none_or, Option.none_or]
    by_cases hu : k = "uuid"
    · subst hu
      rw [hk, if_pos rfl, if_neg (by simp), Dict.get?_set_self]
    · rw [if_neg hu]
      split
      · simp [get?_fillDefault]
      · simp [Dict.get?_set_ne hu, get?_fillDefault]

/-! ## The round trip of one object -/

def Complete (c : ObjectClass) (o : Attributes) : Prop := ∀ p, (c.defaultOf p).isSome → (o.get? p).isSome

theorem complete_fillDefault (c : ObjectClass) (o : Attributes) : c.Complete (c.fillDefault o) := by
  intro p hp
  rw [get?_fillDefault]
  simp [hp]

theorem Complete.get?_fillDefault {c : ObjectClass} {o : Attributes} (h : c.Complete o) (k : String) :
    (c.fillDefault o).get? k = o.get? k := by
  rw [ObjectClass.get?_fillDefault]
  cases hk : o.get? k with
  | some v => rfl
  | none =>
    rw [Option.none_or]
    by_contra hne
    have := h k (Option.isSome_iff_ne_none.mpr hne)
    rw [hk] at this
    cases this

theorem copy_get? (o : Attributes) (l : List String) (res : Attributes) (k : String) :
    (l.foldl (copy o) res).get? k = (if k ∈ l then o.get? k else none).or (res.get? k) := by
  induction l generalizing res with
  | nil => simp
  | cons p l ih =>
    rw [List.foldl_cons, ih]
    unfold copy
    by_cases hk : k = p
    · subst hk
      cases hg : o.get? k with
      | none => simp
      | some v =>
        by_cases hl : k ∈ l
        · simp [hl]
        · simp [hl]
    · have hmem : k ∈ p :: l ↔ k ∈ l := by simp [hk]
      simp only [hmem]
      cases hg : o.get? p with
      | none => rfl
      | some v => rw [Dict.get?_set_ne hk]

theorem serialize_ok {c : ObjectClass} {o : Attributes} {u : Value} (hu : o.get? "uuid" = some u) :
    ∃ d, c.serialize o = .ok d ∧ ∀ k, d.get? k = if k = "uuid" ∨ k ∈ c.names then o.get? k else none := by
  unfold serialize
  rw [hu]
  refine ⟨_, rfl, fun k => ?_⟩
  rw [copy_get?]
  by_cases hk : k = "uuid"
  · subst hk
    by_cases hm : "uuid" ∈ c.names
    · simp [hm, hu]
    · simp [hm, hu]
  · by_cases hm : k ∈ c.names
    · simp [hm, Dict.get?_set_ne hk]
    · simp [hk, hm, Dict.get?_set_ne hk]

end ObjectClass

end Alignak.Retention
