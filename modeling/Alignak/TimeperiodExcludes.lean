import Alignak.Dict
import Alignak.Digraph
import Alignak.Effect
import Alignak.Exn
import Alignak.Strip

/-!
# The check of the excluded timeperiods

`linkify` puts the identifiers of the excluded timeperiods in the place of their
names, and the check for loops calls a method of each of them: an identifier is
a text and has none.
-/

namespace Alignak.ExcludeCheck

inductive TimeperiodError
  | unknown (name excluded : String)
  | loop (name : String)
  | invalidDaterange (name daterange : String)
  | invalidEntry (name entry : String)
  deriving DecidableEq, Repr

def TimeperiodError.text : TimeperiodError → String
  | .unknown name excluded => "[timeperiod::" ++ name ++ "] unknown " ++ excluded ++ " timeperiod"
  | .loop name => "[timeperiod::" ++ name ++ "] is in a loop in exclude parameter"
  | .invalidDaterange name daterange => "[timeperiod::" ++ name ++ "] invalid daterange '" ++ daterange ++ "'"
  | .invalidEntry name entry => "[timeperiod::" ++ name ++ "] invalid entry '" ++ entry ++ "'"

structure Timeperiod where
  name : String
  importedFrom : String
  exclude : List String
  dateranges : List (String × Bool)
  invalidEntries : List String
  confIsCorrect : Bool
  errors : List TimeperiodError
  recTag : Bool

namespace Timeperiod

def addError (tp : Timeperiod) (error : TimeperiodError) : Timeperiod :=
  { tp with errors := tp.errors ++ [error], confIsCorrect := false }

def checkDaterange (found : Timeperiod × Bool) (daterange : String × Bool) : Timeperiod × Bool :=
  (if daterange.2 then found.1 else found.1.addError (.invalidDaterange found.1.name daterange.1), found.2 && daterange.2)

def isCorrect (tp : Timeperiod) : Timeperiod × Bool :=
  let found := tp.dateranges.foldl checkDaterange (tp, true)
  let tp := found.1.invalidEntries.foldl (fun tp entry => tp.addError (.invalidEntry tp.name entry)) found.1
  (tp, tp.confIsCorrect && found.2)

end Timeperiod

inductive ItemsError
  | of (error : TimeperiodError)
  | incorrect (name importedFrom : String)
  deriving DecidableEq, Repr

def ItemsError.text : ItemsError → String
  | .of error => error.text
  | .incorrect name importedFrom => "Configuration in timeperiod::" ++ name ++ " is incorrect; from: " ++ importedFrom

structure Timeperiods where
  items : Dict String Timeperiod
  errors : List ItemsError

namespace Timeperiods

def findByName (tps : Timeperiods) (name : String) : Option String :=
  (tps.items.entries.find? fun e => e.2.name == name).map Prod.fst

/-- A name that is not known is an error of the timeperiod. -/
def linkExclude (tps : Timeperiods) (found : Timeperiod × List String) (name : String) : Timeperiod × List String :=
  match tps.findByName (stripString name) with
  | some uuid => (found.1, found.2 ++ [uuid])
  | none => (found.1.addError (.unknown found.1.name name), found.2)

def linkTimeperiod (tps : Timeperiods) (tp : Timeperiod) : Timeperiod :=
  let found := tp.exclude.foldl tps.linkExclude (tp, [])
  { found.1 with exclude := found.2 }

def linkify (tps : Timeperiods) : Timeperiods := { tps with items := tps.items.mapValues fun _ tp => tps.linkTimeperiod tp }

/-! ## The check -/

def setItem (x : String) (tp : Timeperiod) (tps : Timeperiods) : Timeperiods := { tps with items := tps.items.set x tp }

def callCheckExcludeRec (_ : String) : EStateM Exn Timeperiods PUnit := throw .attributeError

def checkExcludeRec (x : String) : EStateM Exn Timeperiods Bool := do
  match (← get).items.get? x with
  | none => throw .keyError
  | some tp =>
    if tp.recTag then
      modify (setItem x (tp.addError (.loop tp.name)))
      return false
    modify (setItem x { tp with recTag := true })
    tp.exclude.forM callCheckExcludeRec
    return true

def untag (tps : Timeperiods) : Timeperiods := { tps with items := tps.items.mapValues fun _ tp => { tp with recTag := false } }

def checkExcludes : List String → Bool → EStateM Exn Timeperiods Bool
  | [], valid => return valid
  | x :: l, valid => do
    modify untag
    let good ← checkExcludeRec x
    checkExcludes l (good && valid)

def collect (tps : Timeperiods) : Timeperiods × Bool :=
  let tps' : Timeperiods := { tps with items := tps.items.mapValues fun _ tp => tp.isCorrect.1 }
  ({ tps' with errors := tps.items.values.foldl (fun errors tp =>
      (if tp.isCorrect.2 then errors else errors ++ [.incorrect tp.isCorrect.1.name tp.isCorrect.1.importedFrom]) ++
        tp.isCorrect.1.errors.map .of) tps.errors }, tps.items.values.all fun tp => tp.isCorrect.2)

def finish (valid : Bool) (tps : Timeperiods) : Bool × Timeperiods :=
  let collected := collect tps
  (valid && collected.2 && collected.1.items.values.all fun tp => tp.isCorrect.2,
    { collected.1 with items := collected.1.items.mapValues fun _ tp => tp.isCorrect.1 })

def isCorrect : EStateM Exn Timeperiods Bool := do
  modify untag
  let valid ← checkExcludes (← get).items.keys true
  modifyGet (finish valid)

/-! ## What the check is for -/

def Excludes (tps : Timeperiods) (x y : String) : Prop :=
  ∃ tp, tps.items.get? x = some tp ∧ ∃ name ∈ tp.exclude, tps.findByName (stripString name) = some y

/-- Some timeperiod gets the error of a loop. -/
def Reported (tps tps' : Timeperiods) : Prop :=
  ∃ x tp tp', tps.items.get? x = some tp ∧ tps'.items.get? x = some tp' ∧
    ∃ name, .loop name ∈ tp'.errors ∧ .loop name ∉ tp.errors

/-- The check of the linked timeperiods ends, and reports an error exactly where one of them excludes itself. -/
def Checked (tps : Timeperiods) : Prop :=
  ∃ b tps', isCorrect tps.linkify = .ok b tps' ∧ (Reported tps.linkify tps' ↔ ∃ x, Relation.TransGen tps.Excludes x x)

/-! ## What linkify stores -/

section
variable {tps s s' : Timeperiods} {x y : String} {tp tp' : Timeperiod} {l : List String} {valid : Bool}

theorem linkExcludes_snd (l : List String) (found : Timeperiod × List String) :
    (l.foldl tps.linkExclude found).2 = found.2 ++ l.filterMap fun name => tps.findByName (stripString name) := by
  induction l generalizing found with
  | nil => simp
  | cons name l ih =>
    rw [List.foldl_cons, ih]
    unfold linkExclude
    cases h : tps.findByName (stripString name) <;> simp [h]

theorem linkTimeperiod_exclude : (tps.linkTimeperiod tp).exclude = tp.exclude.filterMap fun name => tps.findByName (stripString name) :=
  linkExcludes_snd tp.exclude (tp, [])

theorem linkify_get? : tps.linkify.items.get? x = (tps.items.get? x).map tps.linkTimeperiod := Dict.get?_mapValues _

/-! ## The loop check -/

theorem untag_get? : tps.untag.items.get? x = (tps.items.get? x).map fun tp => { tp with recTag := false } := Dict.get?_mapValues _

theorem callCheckExcludeRecs_eq (l : List String) (s : Timeperiods) :
    l.forM callCheckExcludeRec s = if l = [] then .ok ⟨⟩ s else .error .attributeError s := by
  cases l <;> rfl

theorem checkExcludeRec_untag (h : s.items.get? x = some tp) :
    checkExcludeRec x s.untag = if tp.exclude = [] then .ok true (setItem x { tp with recTag := true } s.untag)
      else .error .attributeError (setItem x { tp with recTag := true } s.untag) := by
  unfold checkExcludeRec
  rw [get_bind, untag_get?, h]
  simp only [Option.map_some, Bool.false_eq_true, if_false]
  rw [modify_bind, bind_eq, callCheckExcludeRecs_eq]
  by_cases he : tp.exclude = []
  · rw [if_pos he, if_pos he]
    rfl
  · rw [if_neg he, if_neg he]

def Retagged (s s' : Timeperiods) : Prop := ∀ x, s'.untag.items.get? x = s.untag.items.get? x

theorem retagged_setItem (h : s.items.get? x = some tp) : Retagged s (setItem x { tp with recTag := true } s.untag) := by
  intro y
  rw [untag_get?]
  unfold setItem
  simp only [Dict.get?_set]
  split
  next hy =>
    subst hy
    rw [untag_get?, h]
    rfl
  next =>
    rw [untag_get?, Option.map_map]
    rfl

theorem Retagged.exclude (h : Retagged s s') (hx : s.items.get? x = some tp) :
    ∃ tp', s'.items.get? x = some tp' ∧ tp'.exclude = tp.exclude ∧ tp'.errors = tp.errors := by
  have hboth := h x
  rw [untag_get?, untag_get?, hx] at hboth
  obtain ⟨tp', htp', heq⟩ := Option.map_eq_some_iff.mp hboth
  have hexclude := congrArg Timeperiod.exclude heq
  have herrors := congrArg Timeperiod.errors heq
  exact ⟨tp', htp', hexclude, herrors⟩

theorem checkExcludes_ok (h : ∀ x ∈ l, ∃ tp, s.items.get? x = some tp ∧ tp.exclude = []) :
    ∃ s', checkExcludes l valid s = .ok valid s' ∧ Retagged s s' := by
  induction l generalizing s valid with
  | nil => exact ⟨s, rfl, fun _ => rfl⟩
  | cons x l ih =>
    obtain ⟨tp, hx, hexclude⟩ := h x List.mem_cons_self
    have hstep := checkExcludeRec_untag hx
    rw [if_pos hexclude] at hstep
    have hretagged := retagged_setItem hx
    have hrest : ∀ y ∈ l, ∃ tp', (setItem x { tp with recTag := true } s.untag).items.get? y = some tp' ∧ tp'.exclude = [] := by
      intro y hy
      obtain ⟨tp₁, hy, hnil⟩ := h y (List.mem_cons_of_mem _ hy)
      obtain ⟨tp₂, hy', he, -⟩ := hretagged.exclude hy
      exact ⟨tp₂, hy', he.trans hnil⟩
    obtain ⟨s', hrun, hs'⟩ := ih hrest
    refine ⟨s', ?_, fun y => (hs' y).trans (hretagged y)⟩
    unfold checkExcludes
    rw [modify_bind, bind_ok hstep, Bool.true_and]
    exact hrun

/-- It raises at the first timeperiod that excludes one. -/
theorem checkExcludes_error (h : ∀ x ∈ l, ∃ tp, s.items.get? x = some tp) (hx : x ∈ l) (htp : s.items.get? x = some tp)
    (hne : tp.exclude ≠ []) : ∃ e s', checkExcludes l valid s = .error e s' := by
  induction l generalizing s tp valid with
  | nil => exact absurd hx List.not_mem_nil
  | cons y l ih =>
    obtain ⟨tp', hy⟩ := h y List.mem_cons_self
    have hstep := checkExcludeRec_untag hy
    unfold checkExcludes
    rw [modify_bind, bind_eq, hstep]
    by_cases he : tp'.exclude = []
    · rw [if_pos he]
      have hretagged := retagged_setItem hy
      have hxl : x ∈ l := by
        rcases List.mem_cons.mp hx with rfl | hx
        · cases htp.symm.trans hy
          exact absurd he hne
        · exact hx
      obtain ⟨tp'', hx', hsame, -⟩ := hretagged.exclude htp
      refine ih (fun z hz => ?_) hxl hx' (hsame ▸ hne)
      obtain ⟨tp₁, hz⟩ := h z (List.mem_cons_of_mem _ hz)
      obtain ⟨tp₂, hz', -⟩ := hretagged.exclude hz
      exact ⟨tp₂, hz'⟩
    · rw [if_neg he]
      exact ⟨_, _, rfl⟩

/-! ## The errors of the other checks -/

theorem isCorrect_loop {name : String} : .loop name ∈ tp.isCorrect.1.errors ↔ .loop name ∈ tp.errors := by
  have hadd : ∀ (tp : Timeperiod) error, .loop name ≠ error → (.loop name ∈ (tp.addError error).errors ↔ .loop name ∈ tp.errors) := by
    intro tp error hne
    unfold Timeperiod.addError
    simp [hne]
  have hdateranges : ∀ (l : List (String × Bool)) (found : Timeperiod × Bool),
      .loop name ∈ (l.foldl Timeperiod.checkDaterange found).1.errors ↔ .loop name ∈ found.1.errors := by
    intro l
    induction l with
    | nil => exact fun _ => Iff.rfl
    | cons daterange l ih =>
      intro found
      rw [List.foldl_cons, ih]
      unfold Timeperiod.checkDaterange
      simp only
      split
      · exact Iff.rfl
      · exact hadd _ _ TimeperiodError.noConfusion
  have hentries : ∀ (l : List String) (tp : Timeperiod),
      .loop name ∈ (l.foldl (fun tp entry => tp.addError (.invalidEntry tp.name entry)) tp).errors ↔ .loop name ∈ tp.errors := by
    intro l
    induction l with
    | nil => exact fun _ => Iff.rfl
    | cons entry l ih =>
      intro tp
      rw [List.foldl_cons, ih]
      exact hadd _ _ TimeperiodError.noConfusion
  exact (hentries _ _).trans (hdateranges _ _)

/-! ## The check -/

theorem finish_get? : (finish valid s).2.items.get? x = (s.items.get? x).map fun tp => tp.isCorrect.1.isCorrect.1 := by
  unfold finish collect
  simp only [Dict.get?_mapValues, Option.map_map]
  rfl

theorem isCorrect_ok (h : ∀ x tp, s.items.get? x = some tp → tp.exclude = []) :
    ∃ b s', isCorrect s = .ok b s' ∧ ¬ Reported s s' := by
  have huntag : ∀ x ∈ s.untag.items.keys, ∃ tp, s.untag.items.get? x = some tp ∧ tp.exclude = [] := by
    intro x hx
    obtain ⟨tp', htp'⟩ := Option.ne_none_iff_exists'.mp (Dict.mem_keys.mp hx)
    rw [untag_get?] at htp'
    obtain ⟨tp, htp, rfl⟩ := Option.map_eq_some_iff.mp htp'
    exact ⟨{ tp with recTag := false }, by rw [untag_get?, htp, Option.map_some], h x tp htp⟩
  obtain ⟨s₁, hrun, hsame⟩ := checkExcludes_ok huntag
  have hcheck : isCorrect s = .ok (finish true s₁).1 (finish true s₁).2 := by
    unfold isCorrect
    rw [modify_bind, get_bind, bind_ok hrun]
    rfl
  refine ⟨_, _, hcheck, ?_⟩
  rintro ⟨x, tp, tp', htp, htp', name, hin, hout⟩
  have hx : s.untag.items.get? x = some { tp with recTag := false } := by rw [untag_get?, htp, Option.map_some]
  obtain ⟨tp₁, htp1, -, herrors⟩ := hsame.exclude hx
  rw [finish_get?, htp1, Option.map_some, Option.some.injEq] at htp'
  rw [← htp', isCorrect_loop, isCorrect_loop, herrors] at hin
  exact hout hin

theorem isCorrect_error (hx : s.items.get? x = some tp) (hne : tp.exclude ≠ []) : ∃ e s', isCorrect s = .error e s' := by
  have hall : ∀ y ∈ s.untag.items.keys, ∃ tp, s.untag.items.get? y = some tp :=
    fun y hy => Option.ne_none_iff_exists'.mp (Dict.mem_keys.mp hy)
  have hx' : s.untag.items.get? x = some { tp with recTag := false } := by rw [untag_get?, hx, Option.map_some]
  have hk : x ∈ s.untag.items.keys := Dict.mem_keys.mpr (by rw [hx']; exact Option.some_ne_none _)
  obtain ⟨e, s', hrun⟩ := checkExcludes_error hall hk hx' hne
  refine ⟨e, s', ?_⟩
  unfold isCorrect
  rw [modify_bind, get_bind, bind_eq, hrun]

/-- The check ends, and is right about the loops, exactly where no timeperiod names
a known one among its excluded ones. -/
theorem checked_iff (tps : Timeperiods) :
    tps.Checked ↔ ∀ x tp, tps.items.get? x = some tp → ∀ name ∈ tp.exclude, tps.findByName (stripString name) = none := by
  constructor
  · rintro ⟨b, tps', hrun, -⟩ x tp hx name hname
    by_contra hknown
    have hx' : tps.linkify.items.get? x = some (tps.linkTimeperiod tp) := by rw [linkify_get?, hx, Option.map_some]
    have hne : (tps.linkTimeperiod tp).exclude ≠ [] := by
      obtain ⟨uuid, huuid⟩ := Option.ne_none_iff_exists'.mp hknown
      rw [linkTimeperiod_exclude]
      exact List.ne_nil_of_mem (List.mem_filterMap.mpr ⟨name, hname, huuid⟩)
    obtain ⟨e, s', herror⟩ := isCorrect_error hx' hne
    rw [hrun] at herror
    cases herror
  · intro h
    have hempty : ∀ x tp, tps.linkify.items.get? x = some tp → tp.exclude = [] := by
      intro x tp hx
      rw [linkify_get?] at hx
      obtain ⟨old, hold, rfl⟩ := Option.map_eq_some_iff.mp hx
      rw [linkTimeperiod_exclude]
      exact List.filterMap_eq_nil_iff.mpr (h x old hold)
    obtain ⟨b, tps', hrun, hnot⟩ := isCorrect_ok hempty
    refine ⟨b, tps', hrun, fun hr => absurd hr hnot, ?_⟩
    rintro ⟨x, hx⟩
    obtain ⟨y, ⟨tp, htp, name, hname, hfound⟩, -⟩ := Relation.TransGen.head'_iff.mp hx
    rw [h x tp htp name hname] at hfound
    cases hfound

end

def plain (name : String) (exclude : List String) : Timeperiod :=
  ⟨name, "periods.cfg", exclude, [("monday 09:00-17:00", true)], [], true, [], false⟩

def diamond : Timeperiods where
  items := ⟨[("1", plain "day" ["holidays"]), ("2", plain "night" ["holidays"]), ("3", plain "holidays" [])], (by decide)⟩
  errors := []

theorem diamond_raises : ¬ diamond.Checked := by
  rintro ⟨b, tps', hrun, -⟩
  have herror : returns (isCorrect diamond.linkify) = false := by decide +kernel
  rw [hrun] at herror
  cases herror

end Timeperiods

end Alignak.ExcludeCheck
