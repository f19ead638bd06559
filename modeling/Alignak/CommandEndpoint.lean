import Alignak.CommandFields
import Alignak.Dict
import Alignak.ReplaceCounts

/-!
# The command endpoint of the arbiter

A request gives a command line and what is to be appended to it; the line is
split again at its semicolons, and compared with the request.
-/

namespace Alignak.ArbiterInterface

open ExternalCommandManager

/-! ## Texts -/

/-- `str.upper`: a character becomes one or more that are upper case. A
semicolon and a backslash are left, and nothing else becomes one. -/
structure Upper where
  char : Char → List Char
  nonempty : ∀ c, char c ≠ []
  upper : ∀ c, ∀ d ∈ char c, char d = [d]
  mark : ∀ c d, d = ';' ∨ d = '\\' → (d ∈ char c ↔ c = d)

def Upper.text (upper : Upper) (text : List Char) : List Char := text.flatMap upper.char

/-- `str.replace`: the empty text is found before each character and at the end. -/
def replaceText (old new text : List Char) : List Char :=
  if old.isEmpty then new ++ text.flatMap (· :: new) else replace old new text

/-- `element.replace('/', ';', 1)` -/
def replaceSlash : List Char → List Char
  | [] => []
  | c :: text => if c = '/' then ';' :: text else c :: replaceSlash text

/-- `"[%d] "` -/
def stampText (n : Int) : List Char :=
  '[' :: ((if n < 0 then ['-'] else []) ++ Nat.toDigits 10 n.natAbs ++ [']', ' '])

/-! ## The request -/

inductive Stamp
  | number (n : Int)
  | text (text : List Char)
  deriving DecidableEq

def Stamp.truthy : Stamp → Bool
  | number n => n != 0
  | text t => !t.isEmpty

def Stamp.toInt : Stamp → Except Numerals.Failure Int
  | number n => .ok n
  | text t => Numerals.toInt t

structure Params where
  command : Option (List Char) := none
  timestamp : Option Stamp := none
  element : Option (List Char) := none
  host : Option (List Char) := none
  service : Option (List Char) := none
  user : Option (List Char) := none
  parameters : Option (List Char) := none

inductive Body
  | emptyObject
  | object (params : Params)
  | value (truthy : Bool)

def Body.truthy : Body → Bool
  | emptyObject => false
  | object _ => true
  | value truthy => truthy

/-- Only a request with a body has a `json`. -/
inductive Request
  | get (query : Params)
  | post (query : Params) (json : Body)
  | put (query : Params) (json : Body)

structure Answer where
  status : String
  message : List Char
  command : Option (List Char) := none
  deriving DecidableEq

def err (message : String) : Answer := ⟨"ERR", message.toList, none⟩

def Body.params : Body → Except Answer Params
  | emptyObject => .ok {}
  | object params => .ok params
  | value _ => .error (err "Missing command parameters")

def Request.received : Request → Except Answer Params
  | get query => if query.command.isSome then .ok query else .error (err "Missing command parameters")
  | post query json =>
    if !json.truthy then .error (err "You must POST parameters on this endpoint.")
    else if query.command.isSome then .ok query
    else json.params
  | put query json => if query.command.isSome then .ok query else json.params

/-! ## The line -/

/-- Neither `None` nor empty. -/
def given (param : Option (List Char)) : Bool := !(param.getD []).isEmpty

def addField (line : List Char) (param : Option (List Char)) : List Char :=
  if given param then line ++ ';' :: param.getD [] else line

def addStamp (timestamp : Option Stamp) (line : List Char) : Except Numerals.Failure (List Char) :=
  match timestamp with
  | none => .ok line
  | some stamp => if stamp.truthy then stamp.toInt.map (stampText · ++ line) else .ok line

def Params.addTarget (params : Params) (line : List Char) : List Char :=
  if given params.host || given params.service || given params.user then
    addField (addField (addField line params.host) params.service) params.user
  else if given params.element then
    let element := params.element.getD []
    line ++ ';' :: (if element.contains '/' then replaceSlash element else element)
  else line

def Params.name (params : Params) : List Char := (splitSemicolon (params.command.getD []) none).headD []

def Params.build (upper : Upper) (params : Params) : Answer × List (List Char) :=
  if !given params.command then (err "Missing command parameter", [])
  else
    match addStamp params.timestamp (replaceText params.name (upper.text params.name) (params.command.getD [])) with
    | .error _ => (err "Timestamp must be an integer value", [])
    | .ok line =>
      let line := addField (params.addTarget line) params.parameters
      (⟨"OK", "Got command: ".toList ++ line, some line⟩, [line])

def command (upper : Upper) (request : Request) : Answer × List (List Char) :=
  match request.received with
  | .error answer => (answer, [])
  | .ok params => params.build upper

/-! ## What the line is to have -/

def Params.stamp (params : Params) : Option Int :=
  match params.timestamp with
  | none => none
  | some (.number n) => some n
  | some (.text t) => if t.isEmpty then none else (Numerals.toInt t).toOption

def Params.rest (params : Params) : List Char := (params.command.getD []).drop params.name.length

def before (element : List Char) : List Char := element.takeWhile (· != '/')

def elementFields (element : List Char) : List (List Char) :=
  if element.contains '/' then [before element, (element.dropWhile (· != '/')).tail] else [element]

def givenFields (params : List (Option (List Char))) : List (List Char) := (params.filter given).map (·.getD [])

def Params.targets (params : Params) : List (List Char) :=
  if (givenFields [params.host, params.service, params.user]).isEmpty then
    (givenFields [params.element]).flatMap elementFields
  else givenFields [params.host, params.service, params.user]

def Params.expected (upper : Upper) (params : Params) : List (List Char) :=
  (params.stamp.elim [] stampText ++ upper.text params.name) ::
    ((splitSemicolon (params.command.getD []) none).tail ++ params.targets ++
      (givenFields [params.parameters]).flatMap (splitSemicolon · none))

abbrev IsName (text : List Char) : Prop := ';' ∉ text ∧ ¬ EndsEscaping text

structure Params.Named (params : Params) : Prop where
  name : IsName params.name
  targets : ∀ target ∈ [params.element, params.host, params.service, params.user], IsName (target.getD [])

structure Params.Untouched (upper : Upper) (params : Params) : Prop where
  stamp : params.timestamp ≠ some (.number 0)
  name : upper.text params.name = params.name ∨ ¬ params.name <:+: params.rest
  line : params.targets ++ givenFields [params.parameters] ≠ [] → ¬ EndsEscaping (params.command.getD [])
  element : (givenFields [params.host, params.service, params.user]).isEmpty → (params.element.getD []).contains '/' →
    ¬ EndsEscaping (before (params.element.getD []))

/-! ## Upper case -/

section
variable (upper : Upper) {text : List Char}

def Upper.changes (c : Char) : Bool := upper.char c != [c]

theorem Upper.char_mark {c : Char} (h : c = ';' ∨ c = '\\') : upper.char c = [c] :=
  upper.upper c c ((upper.mark c c h).mpr rfl)

theorem Upper.changes_mark {c : Char} (h : c = ';' ∨ c = '\\') : upper.changes c = false := by
  simp [changes, upper.char_mark h]

theorem Upper.countP_text : (upper.text text).countP upper.changes = 0 := by
  rw [List.countP_eq_zero]
  intro d hd
  obtain ⟨c, -, hd⟩ := List.mem_flatMap.mp hd
  simp [changes, upper.upper c d hd]

theorem Upper.text_fixed (h : text.countP upper.changes = 0) : upper.text text = text := by
  rw [List.countP_eq_zero] at h
  induction text with
  | nil => rfl
  | cons c text ih =>
    have hc : upper.char c = [c] := by simpa [changes] using h c List.mem_cons_self
    have htext := ih fun d hd => h d (List.mem_cons_of_mem c hd)
    unfold Upper.text at htext ⊢
    rw [List.flatMap_cons, hc, htext]
    rfl

theorem Upper.isName_text (h : IsName text) : IsName (upper.text text) := by
  constructor
  · intro hd
    obtain ⟨c, hc, hd⟩ := List.mem_flatMap.mp hd
    rw [(upper.mark c ';' (.inl rfl)).mp hd] at hc
    exact h.1 hc
  · intro hends
    rcases List.eq_nil_or_concat text with rfl | ⟨text, c, rfl⟩
    · exact not_endsEscaping_nil hends
    · have hflat : upper.text (text ++ [c]) = upper.text text ++ upper.char c := by simp [Upper.text]
      rw [List.concat_eq_append, hflat, endsEscaping_append_ne (upper.nonempty c)] at hends
      have hc := (upper.mark c '\\' (.inr rfl)).mp (List.mem_of_getLast? hends)
      subst hc
      exact h.2 (by simp [EndsEscaping])

end

/-! ## The fields appended to the line -/

variable {name rest element : List Char}

section
variable {params : Params} {line : List Char}

theorem addField_eq (param : Option (List Char)) : addField line param = line ++ appendFields (givenFields [param]) := by
  unfold addField givenFields
  by_cases hg : given param = true
  · rw [if_pos hg, List.filter_cons_of_pos hg]
    simp [appendFields]
  · rw [if_neg hg, List.filter_cons_of_neg hg]
    simp [appendFields]

theorem appendFields_append (fields more : List (List Char)) :
    appendFields (fields ++ more) = appendFields fields ++ appendFields more := List.flatMap_append

theorem givenFields_cons (param : Option (List Char)) (params : List (Option (List Char))) :
    givenFields (param :: params) = givenFields [param] ++ givenFields params := by
  unfold givenFields
  by_cases hg : given param = true
  · rw [List.filter_cons_of_pos hg, List.filter_cons_of_pos hg]
    rfl
  · rw [List.filter_cons_of_neg hg, List.filter_cons_of_neg hg]
    rfl

theorem replaceSlash_eq (h : element.contains '/' = true) :
    replaceSlash element = before element ++ ';' :: (element.dropWhile (· != '/')).tail := by
  unfold before
  induction element with
  | nil => simp at h
  | cons c element ih =>
    rw [replaceSlash]
    by_cases hc : c = '/'
    · subst hc
      rw [if_pos rfl]
      rfl
    · have hne : (c != '/') = true := by simpa using hc
      rw [if_neg hc, @List.takeWhile_cons_of_pos _ (· != '/') _ _ hne,
        @List.dropWhile_cons_of_pos _ (· != '/') _ _ hne, ih]
      · rfl
      · simpa [Ne.symm hc] using h

theorem appendFields_element (element : List Char) : appendFields (elementFields element) =
    ';' :: (if element.contains '/' then replaceSlash element else element) := by
  unfold elementFields
  by_cases h : element.contains '/' = true
  · rw [if_pos h, if_pos h, replaceSlash_eq h]
    simp [appendFields]
  · rw [if_neg h, if_neg h]
    simp [appendFields]

theorem givenFields_isEmpty : (givenFields [params.host, params.service, params.user]).isEmpty =
    !(given params.host || given params.service || given params.user) := by
  unfold givenFields
  cases hh : given params.host <;> cases hs : given params.service <;> cases hu : given params.user <;> simp [hh, hs, hu]

theorem addTarget_eq : params.addTarget line = line ++ appendFields params.targets := by
  have hempty := @givenFields_isEmpty params
  unfold Params.addTarget Params.targets
  by_cases hg : (given params.host || given params.service || given params.user) = true
  · rw [hg] at hempty
    rw [if_pos hg, hempty, if_neg (by decide), addField_eq, addField_eq, addField_eq,
      givenFields_cons params.host [params.service, params.user], givenFields_cons params.service [params.user],
      appendFields_append, appendFields_append]
    simp only [List.append_assoc]
  · rw [Bool.eq_false_iff.mpr hg] at hempty
    rw [if_neg hg, hempty, if_pos (show (!false) = true from rfl)]
    by_cases he : given params.element = true
    · have hone : givenFields [params.element] = [params.element.getD []] := by simp [givenFields, he]
      rw [if_pos he, hone, List.flatMap_cons, List.flatMap_nil, List.append_nil, appendFields_element]
    · have hnone : givenFields [params.element] = [] := by simp [givenFields, he]
      rw [if_neg he, hnone]
      simp [appendFields]

end

/-! ## The parts that are appended -/

section
variable {params : Params}

theorem mem_givenFields {l : List (Option (List Char))} {field : List Char} (h : field ∈ givenFields l) :
    ∃ param ∈ l, param.getD [] = field := by
  obtain ⟨param, hp, rfl⟩ := List.mem_map.mp h
  exact ⟨param, (List.mem_filter.mp hp).1, rfl⟩

theorem semicolon_notMem_elementFields (h : ';' ∉ element) :
    ∀ part ∈ elementFields element, ';' ∉ part := by
  unfold elementFields
  split
  · refine List.forall_mem_cons.mpr ⟨fun hb => h ((List.takeWhile_prefix _).subset hb), ?_⟩
    refine List.forall_mem_singleton.mpr fun ha => h ?_
    exact (List.dropWhile_suffix _).subset (List.mem_of_mem_tail ha)
  · exact List.forall_mem_singleton.mpr h

theorem Params.Named.givenTargets (h : params.Named) :
    ∀ target ∈ givenFields [params.host, params.service, params.user], IsName target := by
  intro target ht
  obtain ⟨param, hp, rfl⟩ := mem_givenFields ht
  exact h.targets param (List.mem_cons_of_mem _ hp)

theorem Params.Named.semicolon (h : params.Named) : ∀ target ∈ params.targets, ';' ∉ target := by
  unfold Params.targets
  split
  · intro target ht
    obtain ⟨element, he, ht⟩ := List.mem_flatMap.mp ht
    obtain ⟨param, hp, rfl⟩ := mem_givenFields he
    rw [List.mem_singleton.mp hp] at ht
    exact semicolon_notMem_elementFields (h.targets _ List.mem_cons_self).1 target ht
  · exact fun target ht => (h.givenTargets target ht).1

theorem Params.Named.flatMap_targets (h : params.Named) : params.targets.flatMap (fieldsFrom []) = params.targets := by
  have hplain : ∀ target ∈ params.targets, fieldsFrom [] target = [target] := fun target ht =>
    fieldsFrom_plain (h.semicolon target ht)
  rw [List.flatMap_congr hplain]
  exact List.flatMap_singleton' _

theorem forall_dropLast_cons {P : List Char → Prop} (field : List Char) (fields : List (List Char)) :
    (∀ f ∈ (field :: fields).dropLast, P f) ↔ (fields ≠ [] → P field) ∧ ∀ f ∈ fields.dropLast, P f := by
  cases fields with
  | nil => simp
  | cons f fields => simp

theorem forall_dropLast_append {P : List Char → Prop} {fields more : List (List Char)} (hm : more.length ≤ 1)
    (hlast : ∀ f, fields.getLast? = some f → P f) :
    (∀ f ∈ (fields ++ more).dropLast, P f) ↔ ∀ f ∈ fields.dropLast, P f := by
  cases more with
  | nil => rw [List.append_nil]
  | cons field more =>
    obtain rfl : more = [] := List.length_eq_zero_iff.mp (by rw [List.length_cons] at hm; omega)
    rw [List.dropLast_concat]
    rcases List.eq_nil_or_concat fields with rfl | ⟨init, last, rfl⟩
    · rfl
    · rw [List.concat_eq_append, List.dropLast_concat, List.forall_mem_append, List.forall_mem_singleton]
      exact and_iff_left (hlast last (by simp))

theorem not_endsEscaping_after (h : ¬ EndsEscaping element) :
    ¬ EndsEscaping (element.dropWhile (· != '/')).tail := by
  intro ha
  obtain ⟨part, hpart⟩ := (List.tail_suffix _).trans (List.dropWhile_suffix (l := element) (· != '/'))
  refine h ?_
  rw [← hpart, endsEscaping_append_ne]
  · exact ha
  · intro hnil
    rw [hnil] at ha
    exact not_endsEscaping_nil ha

theorem Params.Named.dropLast_targets (h : params.Named) : (∀ f ∈ params.targets.dropLast, ¬ EndsEscaping f) ↔
    ((givenFields [params.host, params.service, params.user]).isEmpty → (params.element.getD []).contains '/' →
      ¬ EndsEscaping (before (params.element.getD []))) := by
  unfold Params.targets
  by_cases he : (givenFields [params.host, params.service, params.user]).isEmpty = true
  · rw [if_pos he, forall_prop_of_true he]
    by_cases hg : given params.element = true
    · have hone : givenFields [params.element] = [params.element.getD []] := by simp [givenFields, hg]
      rw [hone, List.flatMap_cons, List.flatMap_nil, List.append_nil]
      unfold elementFields
      by_cases hc : (params.element.getD []).contains '/' = true
      · rw [if_pos hc, forall_prop_of_true hc]
        exact List.forall_mem_singleton
      · rw [if_neg hc]
        exact iff_of_true (fun f hf => by simp at hf) fun hc' => absurd hc' hc
    · have hnone : givenFields [params.element] = [] := by simp [givenFields, hg]
      have hnil : params.element.getD [] = [] := by simpa [given] using hg
      rw [hnone, hnil]
      simp
  · rw [if_neg he]
    exact iff_of_true (fun f hf => (h.givenTargets f (List.dropLast_subset _ hf)).2) fun he' => absurd he' he

theorem Params.Named.getLast_targets (h : params.Named) : ∀ f, params.targets.getLast? = some f → ¬ EndsEscaping f := by
  intro f hf
  unfold Params.targets at hf
  split at hf
  · by_cases hg : given params.element = true
    · have hone : givenFields [params.element] = [params.element.getD []] := by simp [givenFields, hg]
      have helement := (h.targets params.element List.mem_cons_self).2
      rw [hone, List.flatMap_cons, List.flatMap_nil, List.append_nil] at hf
      unfold elementFields at hf
      split at hf
      · cases hf
        exact not_endsEscaping_after helement
      · cases hf
        exact helement
    · have hnone : givenFields [params.element] = [] := by simp [givenFields, hg]
      rw [hnone] at hf
      cases hf
  · exact (h.givenTargets f (List.mem_of_getLast? hf)).2

theorem targets_endsEscaping (h : params.Named) (line : List Char) :
    (∀ field ∈ (line :: (params.targets ++ givenFields [params.parameters])).dropLast, ¬ EndsEscaping field) ↔
      (params.targets ++ givenFields [params.parameters] ≠ [] → ¬ EndsEscaping line) ∧
      ((givenFields [params.host, params.service, params.user]).isEmpty → (params.element.getD []).contains '/' →
        ¬ EndsEscaping (before (params.element.getD []))) := by
  have hone : (givenFields [params.parameters]).length ≤ 1 := (List.length_map _).trans_le (List.length_filter_le _ _)
  rw [forall_dropLast_cons, forall_dropLast_append hone h.getLast_targets, h.dropLast_targets]

/-! ## The start of the line -/

theorem isName_append {a b : List Char} (ha : IsName a) (hb : IsName b) : IsName (a ++ b) :=
  ⟨fun h => (List.mem_append.mp h).elim ha.1 hb.1, endsEscaping_append ha.2 hb.2⟩

theorem isName_nil : IsName [] := ⟨List.not_mem_nil, not_endsEscaping_nil⟩

theorem isName_stampText (n : Int) : IsName (stampText n) := by
  have hd : ';' ∉ Nat.toDigits 10 n.natAbs := fun h =>
    absurd (Nat.isDigit_of_mem_toDigits (by decide) (le_refl _) h) (by decide)
  constructor
  · unfold stampText
    split <;> simp [hd]
  · have hend : stampText n = ('[' :: ((if n < 0 then ['-'] else []) ++ Nat.toDigits 10 n.natAbs)) ++ [']', ' '] := by
      simp [stampText]
    rw [hend, endsEscaping_append_ne (by simp)]
    decide

theorem addStamp_ok {line stamped : List Char} (h : addStamp params.timestamp line = .ok stamped) :
    ∃ stamp, stamped = stamp ++ line ∧ IsName stamp ∧
      (stamp = params.stamp.elim [] stampText ↔ params.timestamp ≠ some (.number 0)) := by
  unfold addStamp at h
  unfold Params.stamp
  cases ht : params.timestamp with
  | none =>
    rw [ht] at h
    cases h
    exact ⟨[], rfl, isName_nil, by simp⟩
  | some timestamp =>
    rw [ht] at h
    cases timestamp with
    | number n =>
      by_cases hn : n = 0
      · subst hn
        cases h
        exact ⟨[], rfl, isName_nil, iff_of_false (List.cons_ne_nil _ _).symm (by simp)⟩
      · simp only [Stamp.truthy, Stamp.toInt, bne_iff_ne, ne_eq, hn, not_false_eq_true, if_true] at h
        cases h
        exact ⟨stampText n, rfl, isName_stampText n, by simp [hn]⟩
    | text t =>
      cases t with
      | nil =>
        cases h
        exact ⟨[], rfl, isName_nil, by simp⟩
      | cons c t =>
        cases hi : Numerals.toInt (c :: t) with
        | error e => simp [Stamp.truthy, Stamp.toInt, hi, Except.map] at h
        | ok n =>
          simp only [Stamp.truthy, Stamp.toInt, hi, Except.map] at h
          cases h
          exact ⟨stampText n, rfl, isName_stampText n, by simp [hi, Except.toOption]⟩

/-! ## The name -/

def AfterName (rest : List Char) (fields : List (List Char)) : Prop :=
  rest = [] ∧ fields = [] ∨ ∃ more, rest = ';' :: more ∧ fields = fieldsFrom [] more

theorem AfterName.fields {fields : List (List Char)} (h : AfterName rest fields) (hn : IsName name) :
    fieldsFrom [] (name ++ rest) = name :: fields := by
  rcases h with ⟨rfl, rfl⟩ | ⟨more, rfl, rfl⟩
  · rw [List.append_nil]
    exact fieldsFrom_plain hn.1
  · rw [@fieldsFrom_append [] _ hn.2, fieldsFrom_plain hn.1]
    rfl

theorem AfterName.endsEscaping {name' : List Char} {fields : List (List Char)} (h : AfterName rest fields)
    (hn : ¬ EndsEscaping name) (hn' : ¬ EndsEscaping name') : EndsEscaping (name ++ rest) ↔ EndsEscaping (name' ++ rest) := by
  rcases h with ⟨rfl, -⟩ | ⟨more, rfl, -⟩
  · rw [List.append_nil, List.append_nil]
    exact iff_of_false hn hn'
  · rw [endsEscaping_append_ne (by simp), endsEscaping_append_ne (by simp)]

theorem fieldsFrom_ne_nil (acc text : List Char) : fieldsFrom acc text ≠ [] := by
  induction text generalizing acc with
  | nil => exact List.cons_ne_nil _ _
  | cons c text ih =>
    rw [fieldsFrom]
    split
    · split
      · exact ih _
      · exact List.cons_ne_nil _ _
    · exact ih _

theorem Params.Named.command_eq (h : params.Named) : params.command.getD [] = params.name ++ params.rest ∧
    AfterName params.rest (splitSemicolon (params.command.getD []) none).tail := by
  have hsplit := splitSemicolon_fieldsFrom (params.command.getD [])
  obtain ⟨name, fields, hcons⟩ := List.exists_cons_of_ne_nil (fieldsFrom_ne_nil [] (params.command.getD []))
  have hname : params.name = name := by
    unfold Params.name
    rw [hsplit, hcons]
    rfl
  obtain ⟨field, rest, htext, hfield, hrest⟩ := fieldsFrom_eq_cons hcons (hname ▸ h.name.1)
  rw [List.nil_append] at hfield
  have hparams : params.rest = rest := by
    unfold Params.rest
    rw [htext, hname, hfield, List.drop_left]
  refine ⟨by rw [hparams, hname, hfield, htext], ?_⟩
  rw [hparams, hsplit, hcons]
  exact hrest.imp_right fun ⟨more, hmore, _, hfields⟩ => ⟨more, hmore, hfields⟩

theorem replaceText_name (upper : Upper) {fields : List (List Char)} (hname : ';' ∉ name)
    (h : AfterName rest fields) : ∃ edited, replaceText name (upper.text name) (name ++ rest) = upper.text name ++ edited ∧
      (∃ fields', AfterName edited fields') ∧
      (upper.text name = name ∨ ¬ name <:+: rest → edited = rest) ∧
      (edited.countP upper.changes = rest.countP upper.changes → upper.text name = name ∨ ¬ name <:+: rest) := by
  unfold replaceText
  by_cases hnil : name = []
  · subst hnil
    have hrest : rest.flatMap (· :: upper.text []) = rest := List.flatMap_singleton' rest
    refine ⟨rest, ?_, ⟨fields, h⟩, fun _ => rfl, fun _ => .inl rfl⟩
    rw [if_pos (by rfl), List.nil_append, hrest]
  · have hempty : ¬ name.isEmpty = true := by simpa using hnil
    refine ⟨replace name (upper.text name) rest, ?_, ?_, ?_, ?_⟩
    · rw [if_neg hempty, replace_append_self hnil]
    · rcases h with ⟨rfl, -⟩ | ⟨more, rfl, -⟩
      · exact ⟨[], .inl ⟨rfl, rfl⟩⟩
      · exact ⟨_, .inr ⟨_, replace_cons_sep hnil hname, rfl⟩⟩
    · rintro (hself | habsent)
      · rw [hself, replace_self hnil]
      · exact replace_absent habsent
    · intro hcount
      by_cases hself : upper.text name = name
      · exact .inl hself
      · have hpos := Nat.pos_of_ne_zero (mt upper.text_fixed hself)
        exact .inr (absent_of_replace_countP (upper.countP_text.trans_lt hpos) hcount)

end

/-! ## The line that is built -/

theorem countP_appendFields {p : Char → Bool} (hs : p ';' = false) (hb : p '\\' = false) (fields : List (List Char)) :
    (appendFields fields).countP p = (fields.flatMap (fieldsFrom [])).flatten.countP p := by
  induction fields with
  | nil => rfl
  | cons field fields ih =>
    rw [appendFields_cons, List.countP_cons, List.countP_append, ih, List.flatMap_cons, List.flatten_append,
      List.countP_append, fieldsFrom_countP hs hb]
    simp [hs]

theorem AfterName.appendFields {fields : List (List Char)} (h : AfterName rest fields)
    (more : List (List Char)) : ∃ fields', AfterName (rest ++ appendFields more) fields' := by
  rcases h with ⟨rfl, -⟩ | ⟨text, rfl, -⟩
  · cases more with
    | nil => exact ⟨[], .inl ⟨rfl, rfl⟩⟩
    | cons field more => exact ⟨_, .inr ⟨_, rfl, rfl⟩⟩
  · exact ⟨_, .inr ⟨_, rfl, rfl⟩⟩

theorem mem_build {upper : Upper} {params : Params} {line : List Char} (h : line ∈ (params.build upper).2) : ∃ stamped,
    addStamp params.timestamp (replaceText params.name (upper.text params.name) (params.command.getD [])) = .ok stamped ∧
      line = stamped ++ appendFields (params.targets ++ givenFields [params.parameters]) := by
  unfold Params.build at h
  split at h
  · simp at h
  · split at h
    · simp at h
    · rename_i stamped hstamped
      refine ⟨stamped, hstamped, ?_⟩
      rw [List.mem_singleton.mp h, addField_eq, addTarget_eq, appendFields_append, List.append_assoc]

theorem Params.Named.expected_eq {upper : Upper} {params : Params} (h : params.Named) : params.expected upper =
    (params.stamp.elim [] stampText ++ upper.text params.name) :: ((splitSemicolon (params.command.getD []) none).tail ++
      (params.targets ++ givenFields [params.parameters]).flatMap (fieldsFrom [])) := by
  have hsplit : (splitSemicolon · none) = fieldsFrom [] := funext splitSemicolon_fieldsFrom
  unfold Params.expected
  rw [List.flatMap_append, h.flatMap_targets, hsplit, List.append_assoc]

theorem fieldsFrom_edited (upper : Upper) {start edited : List Char} {args fields : List (List Char)}
    (hstart : IsName start) (hrest : AfterName rest args) {Kept : Prop} (hkept : Kept → edited = rest)
    (hcount : edited.countP upper.changes = rest.countP upper.changes → Kept) :
    fieldsFrom [] (start ++ edited ++ appendFields fields) = start :: (args ++ fields.flatMap (fieldsFrom [])) ↔
      Kept ∧ ∀ field ∈ ((start ++ rest) :: fields).dropLast, ¬ EndsEscaping field := by
  have hs := upper.changes_mark (.inl (rfl : ';' = ';'))
  have hb := upper.changes_mark (.inr (rfl : '\\' = '\\'))
  rw [← List.cons_append, ← hrest.fields hstart]
  constructor
  · intro h
    have hk : Kept := by
      have hsum := congrArg (fun fields : List (List Char) => fields.flatten.countP upper.changes) h
      simp only [List.flatten_append, List.countP_append, fieldsFrom_countP hs hb, countP_appendFields hs hb,
        List.countP_nil] at hsum
      exact hcount (by omega)
    rw [hkept hk] at h
    exact ⟨hk, fieldsFrom_appendFields_iff.mp h⟩
  · rintro ⟨hk, hends⟩
    rw [hkept hk]
    exact fieldsFrom_appendFields hends

theorem command_fields_iff (upper : Upper) {request : Request} {params : Params} (hr : request.received = .ok params)
    (hn : params.Named) {line : List Char} (h : line ∈ (command upper request).2) :
    splitSemicolon line none = params.expected upper ↔ params.Untouched upper := by
  unfold command at h
  rw [hr] at h
  obtain ⟨stamped, hstamped, rfl⟩ := mem_build h
  obtain ⟨stamp, rfl, hstamp, hgiven⟩ := addStamp_ok hstamped
  obtain ⟨hcommand, hargs⟩ := hn.command_eq
  obtain ⟨edited, hedited, ⟨fields', hfields'⟩, hkept, hcount⟩ := replaceText_name upper hn.name.1 hargs
  have hstart := isName_append hstamp (upper.isName_text hn.name)
  have hline : EndsEscaping (stamp ++ upper.text params.name ++ params.rest) ↔ EndsEscaping (params.command.getD []) := by
    rw [hcommand]
    exact hargs.endsEscaping hstart.2 hn.name.2
  have hiff := @fieldsFrom_edited _ upper _ _ _ (params.targets ++ givenFields [params.parameters]) hstart hargs _ hkept hcount
  have hends := targets_endsEscaping hn (stamp ++ upper.text params.name ++ params.rest)
  rw [hcommand, hedited, ← List.append_assoc, splitSemicolon_fieldsFrom, hn.expected_eq]
  constructor
  · intro h
    obtain ⟨more, hmore⟩ := hfields'.appendFields (params.targets ++ givenFields [params.parameters])
    have hread := hmore.fields hstart
    rw [← List.append_assoc] at hread
    -- the first field tells which stamp stands there
    have hhead := (List.cons.inj (hread.symm.trans h)).1
    have hs := List.append_cancel_right hhead
    rw [← hs] at h
    obtain ⟨hname, hplain⟩ := hiff.mp h
    obtain ⟨hl, he⟩ := hends.mp hplain
    exact ⟨hgiven.mp hs, hname, fun hne => mt hline.mpr (hl hne), he⟩
  · intro hu
    rw [← hgiven.mpr hu.stamp]
    exact hiff.mpr ⟨hu.name, hends.mpr ⟨fun hne => mt hline.mp (hu.line hne), hu.element⟩⟩

/-! ## ASCII -/

def letters : List (Char × Char) := "abcdefghijklmnopqrstuvwxyz".toList.zip "ABCDEFGHIJKLMNOPQRSTUVWXYZ".toList

theorem letters_upper : ∀ letter ∈ letters, letters.lookup letter.2 = none ∧ letter.2 ≠ ';' ∧ letter.2 ≠ '\\' :=
  Numerals.forall_of_all (by decide)

def Upper.ascii : Upper where
  char c := [(letters.lookup c).getD c]
  nonempty c := List.cons_ne_nil _ _
  upper := by
    intro c d h
    obtain rfl := List.mem_singleton.mp h
    cases hc : letters.lookup c with
    | none => rw [Option.getD_none, hc, Option.getD_none]
    | some u => rw [Option.getD_some, (letters_upper (c, u) (Dict.mem_of_lookup hc)).1, Option.getD_none]
  mark := by
    intro c d h
    rw [List.mem_singleton]
    cases hc : letters.lookup c with
    | none => exact eq_comm
    | some u =>
      have hu := (letters_upper (c, u) (Dict.mem_of_lookup hc)).2
      constructor
      · rintro rfl
        exact absurd h (not_or.mpr hu)
      · rintro rfl
        have hnone : letters.lookup c = none := by rcases h with rfl | rfl <;> rfl
        rw [hnone] at hc
        cases hc

def serviceCheck : Params where
  command := some "process_service_check_result".toList
  timestamp := some (.text "1519577463".toList)
  element := some "srv/disk".toList
  parameters := some "0;fine".toList

theorem serviceCheck_named : serviceCheck.Named := by
  constructor
  · decide
  · decide

theorem serviceCheck_fields : splitSemicolon "[1519577463] PROCESS_SERVICE_CHECK_RESULT;srv;disk;0;fine".toList none =
    serviceCheck.expected .ascii :=
  (@command_fields_iff .ascii (.get serviceCheck) _ rfl serviceCheck_named _ (by decide +kernel)).mpr
    ⟨by decide, by decide +kernel, by decide +kernel, by decide +kernel⟩

def failedCheck : Params where
  command := some "process_host_check_result;srv;2;process_host_check_result failed".toList

/-- The output is put in upper case too. -/
theorem failedCheck_fields : failedCheck.Named ∧ (command .ascii (.get failedCheck)).2 =
      ["PROCESS_HOST_CHECK_RESULT;srv;2;PROCESS_HOST_CHECK_RESULT failed".toList] ∧
    splitSemicolon "PROCESS_HOST_CHECK_RESULT;srv;2;PROCESS_HOST_CHECK_RESULT failed".toList none ≠
      failedCheck.expected .ascii :=
  ⟨⟨by decide +kernel, by decide +kernel⟩, by decide +kernel, by decide +kernel⟩

end Alignak.ArbiterInterface
