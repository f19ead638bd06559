import Alignak.Dict
import Alignak.Exn

/-!
# JSON values

What `json.dumps` and `json.loads` carry over: the keys of an object are
texts, a tuple is an array.
-/

namespace Alignak

inductive Json
  | null
  | bool (b : Bool)
  | int (n : Int)
  | float (x : Rat)
  | str (s : String)
  | arr (l : List Json)
  | obj (l : List (String × Json))

namespace Json

def insert (k : String) (v : Json) : List (String × Json) → List (String × Json)
  | [] => [(k, v)]
  | e :: l => if e.1 = k then (k, v) :: l else e :: insert k v l

/-- `j[k]`. -/
def item (j : Json) (k : String) : Except Exn Json :=
  match j with
  | .obj l =>
    match l.lookup k with
    | none => .error .keyError
    | some v => .ok v
  | _ => .error .typeError

def get? (j : Json) (k : String) : Option Json :=
  match j with
  | .obj l => l.lookup k
  | _ => none

/-- `k in j` for an object. -/
def has (j : Json) (k : String) : Bool := (j.get? k).isSome

variable {k k' : String} {v : Json} {l : List (String × Json)}

@[simp] theorem lookup_insert_self : (insert k v l).lookup k = some v := by
  induction l with
  | nil => simp [insert]
  | cons e l ih =>
    rw [insert]
    split
    · simp
    · rename_i hne
      rw [List.lookup_cons, beq_false_of_ne (Ne.symm hne)]
      exact ih

theorem lookup_insert_ne (h : k' ≠ k) : (insert k v l).lookup k' = l.lookup k' := by
  induction l with
  | nil =>
    rw [insert, List.lookup_cons, beq_false_of_ne h]
  | cons e l ih =>
    rw [insert]
    split
    · rename_i he
      rw [List.lookup_cons, List.lookup_cons, he, beq_false_of_ne h]
    · rw [List.lookup_cons, List.lookup_cons, ih]

theorem lookup_insert : (insert k v l).lookup k' = if k' = k then some v else l.lookup k' := by
  split
  · rename_i h
    rw [h, lookup_insert_self]
  · rename_i h
    exact lookup_insert_ne h

theorem item_of_get? {j : Json} (h : j.get? k = some v) : j.item k = .ok v := by
  cases j with
  | obj l =>
    have hl : l.lookup k = some v := h
    rw [item, hl]
  | _ => cases h

end Json

end Alignak
