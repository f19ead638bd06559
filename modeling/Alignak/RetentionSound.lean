import Alignak.Retention

/-!
# Saving and restoring an item

Restoring what was saved gives back the retained values and the objects of the
tables, but an acknowledgement always comes out of it, without its comment.
-/

namespace Alignak.Retention

open Scheduling (ItemType)

/-! ## One object -/

variable {p : String} {params : Attributes}

section
variable {c : ObjectClass} {o d : Attributes} {newId u : String}

theorem ObjectClass.complete_init (c : ObjectClass) (newId : String) (params : Attributes) :
    c.Complete (c.init newId params) := by
  intro p hp
  rw [c.get?_init]
  by_cases h : p = "uuid"
  · simp [h]
  · simp [h, hp]

theorem ObjectClass.get?_restored (hc : c.Complete o) (hu : (o.get? "uuid").isSome)
    (hd : d.get? p = o.get? p) :
    (c.init newId (d.set "ref" (.str u))).get? p = if p = "ref" then some (.str u) else o.get? p := by
  rw [c.get?_init]
  by_cases hr : p = "ref"
  · simp [hr]
  · rw [Dict.get?_set_ne hr, hd, if_neg hr]
    cases hg : o.get? p with
    | some v => rfl
    | none =>
      have hne : p ≠ "uuid" := fun e => by rw [← e, hg] at hu; cases hu
      rw [if_neg hne, Option.none_or]
      by_contra hdef
      have := hc p (Option.isSome_iff_ne_none.mpr hdef)
      simp [hg] at this

end

/-! ## The objects of the tables -/

def Table.cls : Table → ObjectClass
  | .downtimes => downtimeClass
  | .comments => commentClass
  | .notificationsInProgress => notificationClass

def Table.kept : Table → List String
  | .downtimes => "uuid" :: downtimeClass.names
  | .comments => "uuid" :: commentClass.names
  | .notificationsInProgress => "uuid" :: notificationClass.names.filter (· ≠ "command_call")

/-- `b` has the attributes of `a`, but for its reference, which is the item `u`. -/
def Same (kept : List String) (u : String) (a b : Attributes) : Prop :=
  ∀ p ∈ kept, b.get? p = if p = "ref" then some (.str u) else a.get? p

def Table.serialized (t : Table) (o : Attributes) : Attributes :=
  match t.serialize o with
  | .ok d => d
  | .error _ => Dict.empty

section
variable (env : Env)

def Table.build (t : Table) (u : String) (e : String × Attributes) : Attributes :=
  let params := e.2.set "ref" (.str u)
  match t with
  | .downtimes => newDowntime env (env.newObjectId "downtime" e.1) params
  | .comments => newComment env (env.newObjectId "comment" e.1) params
  | .notificationsInProgress => newNotification env (env.newObjectId "notification" e.1) params

structure Table.Holds (t : Table) (k : String) (o : Attributes) : Prop where
  keyed : o.get? "uuid" = some (.str k)
  complete : t.cls.Complete o
  entryTime : t = .comments → (attr o "entry_time").truthy = true
  commentId : t = .downtimes → ∃ c, o.get? "comment_id" = some (.str c) ∧ hasUuid c = false

variable {env} {t : Table} {k u : String} {o : Attributes}

theorem Table.Holds.serialize (h : t.Holds k o) :
    t.serialize o = .ok (t.serialized o) ∧ ∀ p ∈ t.kept, (t.serialized o).get? p = o.get? p := by
  obtain ⟨d, hd, hget⟩ := t.cls.serialize_ok h.keyed
  unfold Table.serialized
  cases t with
  | downtimes =>
    have hs : Table.downtimes.serialize o = .ok d := hd
    rw [hs]
    refine ⟨rfl, fun p hp => ?_⟩
    exact (hget p).trans (if_pos (List.mem_cons.mp hp))
  | comments =>
    have hs : Table.comments.serialize o = .ok d := hd
    rw [hs]
    refine ⟨rfl, fun p hp => ?_⟩
    exact (hget p).trans (if_pos (List.mem_cons.mp hp))
  | notificationsInProgress =>
    have hs : Table.notificationsInProgress.serialize o =
        .ok (if d.contains "command_call" then d.set "command_call" (.str "n/a") else d) := by
      show (notificationClass.serialize o).bind _ = _
      rw [show notificationClass.serialize o = .ok d from hd]
      rfl
    rw [hs]
    refine ⟨rfl, fun p hp => ?_⟩
    have hne : p ≠ "command_call" := by
      rintro rfl
      exact absurd hp (by decide)
    have hmem : p = "uuid" ∨ p ∈ notificationClass.names := by
      rcases List.mem_cons.mp hp with e | e
      · exact Or.inl e
      · exact Or.inr (List.mem_filter.mp e).1
    show Dict.get? (if d.contains "command_call" then d.set "command_call" (.str "n/a") else d) p = _
    split
    · rw [Dict.get?_set_ne hne, hget]
      exact if_pos hmem
    · exact (hget p).trans (if_pos hmem)

theorem Table.Holds.uuid_serialized (h : t.Holds k o) : (t.serialized o).get? "uuid" = some (.str k) := by
  have hmem : "uuid" ∈ t.kept := by cases t <;> exact List.mem_cons_self
  rw [h.serialize.2 _ hmem]
  exact h.keyed

theorem newDowntime_get? {newId : String} (h : (params.get? "uuid").isSome) (p : String) :
    (newDowntime env newId params).get? p = (downtimeClass.init newId params).get? p := by
  unfold newDowntime
  rw [show params.contains "uuid" = true from h]
  exact (downtimeClass.complete_init newId params).get?_fillDefault p

theorem newComment_get? {newId : String}
    (h : (attr (commentClass.init newId params) "entry_time").truthy = true) (p : String) :
    (newComment env newId params).get? p = (commentClass.init newId params).get? p := by
  unfold newComment
  simp only
  rw [if_pos h]
  exact (commentClass.complete_init newId params).get?_fillDefault p

theorem newNotification_get? {newId : String} (h : (params.get? "creation_time").isSome)
    (hp : p ≠ "log_actions") :
    (newNotification env newId params).get? p = (notificationClass.init newId params).get? p := by
  have hc := notificationClass.complete_init newId params
  unfold newNotification
  simp only
  rw [if_pos (show params.contains "creation_time" = true from h)]
  have hc' : notificationClass.Complete (if params.contains "log_actions" then notificationClass.init newId params
      else (notificationClass.init newId params).set "log_actions" (.bool env.logActions)) := by
    intro q hq
    split
    · exact hc q hq
    · rw [Dict.get?_set]
      split
      · rfl
      · exact hc q hq
  rw [(notificationClass.complete_fillDefault _).get?_fillDefault, hc'.get?_fillDefault]
  split
  · rfl
  · exact Dict.get?_set_ne hp

theorem Table.Holds.build (env : Env) (u : String) (h : t.Holds k o) : Same t.kept u o (t.build env u (k, t.serialized o)) := by
  have hu : (o.get? "uuid").isSome := by rw [h.keyed]; rfl
  have hkept := h.serialize.2
  have hinit : ∀ newId, ∀ p ∈ t.kept, (t.cls.init newId ((t.serialized o).set "ref" (.str u))).get? p =
      if p = "ref" then some (.str u) else o.get? p :=
    fun newId p hp => t.cls.get?_restored h.complete hu (hkept p hp)
  intro p hp
  cases t with
  | downtimes =>
    have hid : (((Table.downtimes.serialized o).set "ref" (.str u)).get? "uuid").isSome := by
      rw [Dict.get?_set_ne (by decide), h.uuid_serialized]
      rfl
    exact (newDowntime_get? hid p).trans (hinit _ p hp)
  | comments =>
    refine (newComment_get? ?_ p).trans (hinit _ p hp)
    unfold attr
    rw [show (commentClass.init _ _).get? "entry_time" = _ from hinit _ "entry_time" (by decide), if_neg (by decide)]
    exact h.entryTime rfl
  | notificationsInProgress =>
    have hlog : p ≠ "log_actions" := by
      rintro rfl
      exact absurd hp (by decide)
    refine (newNotification_get? ?_ hlog).trans (hinit _ p hp)
    rw [Dict.get?_set_ne (by decide), hkept _ (by decide)]
    exact h.complete "creation_time" (by decide)

end

/-! ## Saving -/

structure Item.Sound (i : Item) : Prop where
  held : ∀ t k o, (i.tables t).get? k = some o → t.Holds k o
  acknowledgement : ∀ a, i.acknowledgement = some a →
    acknowledgeClass.Complete a ∧ (a.get? "uuid").isSome ∧ (a.get? "ref").isSome
  notifiedContacts : ∃ l, i.values "notified_contacts" = .list l

section
variable {i : Item} {t : ItemType}

theorem uuidOf_ok {o : Attributes} {k : String} (h : o.get? "uuid" = some (.str k)) : uuidOf o = .ok k := by
  unfold uuidOf
  rw [h]

theorem serializeAcknowledge_ok {a : Attributes} (h : ∀ p ∈ serializedByAcknowledge, (a.get? p).isSome) :
    ∃ d, serializeAcknowledge a = .ok d ∧ ∀ p, d.get? p = if p ∈ serializedByAcknowledge then a.get? p else none := by
  refine ⟨serializedByAcknowledge.foldl (ObjectClass.copy a) Dict.empty, foldlM_eq_foldl _ _ fun p hp res => ?_, fun p => ?_⟩
  · obtain ⟨v, hv⟩ := Option.isSome_iff_exists.mp (h p hp)
    unfold ObjectClass.copy
    rw [hv]
  · rw [ObjectClass.copy_get?, Dict.get?_empty, Option.or_none]

theorem dictToSerializedDict_ok (h : i.Sound) (T : Table) :
    ∃ d, dictToSerializedDict T (i.tables T) = .ok d ∧ ∀ k, d.get? k = ((i.tables T).get? k).map T.serialized := by
  have hturn : ∀ e ∈ (i.tables T).entries, ∀ result : Dict String Attributes,
      (do
        let s ← T.serialize e.2
        let u ← uuidOf e.2
        return result.set u s : Except Exn _) = .ok (result.set e.1 (T.serialized e.2)) := by
    intro e he result
    have hh := h.held T e.1 e.2 (Dict.get?_eq_some.mpr he)
    rw [hh.serialize.1, uuidOf_ok hh.keyed]
    rfl
  refine ⟨(i.tables T).entries.foldl (fun d e => d.set e.1 (T.serialized e.2)) Dict.empty, ?_, fun k => ?_⟩
  · unfold dictToSerializedDict Dict.values
    rw [List.foldlM_map]
    exact foldlM_eq_foldl _ _ hturn
  · rw [Dict.get?_foldl_set (fun _ o => T.serialized o) (i.tables T).nodup, Dict.get?_empty, Option.or_none]
    rfl

def SavedFrom (i : Item) (T : Table) (d : Dict String Attributes) : Prop :=
  ∀ k, d.get? k = ((i.tables T).get? k).map T.serialized

structure Saved (t : ItemType) (i : Item) (data : ItemData) : Prop where
  values : ∀ p, data.values.get? p = if .value p ∈ retainedProperties t then some (i.values p) else none
  tables : ∀ T, ∃ d, data.tables T = some d ∧ SavedFrom i T d
  acknowledgement : ∃ a, data.acknowledgement = some a ∧ toSerialized i.acknowledgement = .ok a

def saveProperty (i : Item) (D : Table → Dict String Attributes) (a : Attributes) (data : ItemData) : Retained → ItemData
  | .value name => { data with values := data.values.set name (i.values name) }
  | .table T => { data with tables := Function.update data.tables T (some (D T)) }
  | .acknowledgement => { data with acknowledgement := some a }

section
variable {D : Table → Dict String Attributes} {a : Attributes} (l : List Retained) (data : ItemData)

theorem saveProperties_values (p : String) : (l.foldl (saveProperty i D a) data).values.get? p =
    if .value p ∈ l then some (i.values p) else data.values.get? p := by
  induction l generalizing data with
  | nil => rfl
  | cons r l ih =>
    rw [List.foldl_cons, ih]
    cases r with
    | value name =>
      by_cases h : p = name
      · subst h
        simp [saveProperty]
      · simp [saveProperty, h, Dict.get?_set_ne h]
    | table T => simp [saveProperty]
    | acknowledgement => simp [saveProperty]

theorem saveProperties_tables (T : Table) : (l.foldl (saveProperty i D a) data).tables T =
    if .table T ∈ l then some (D T) else data.tables T := by
  induction l generalizing data with
  | nil => rfl
  | cons r l ih =>
    rw [List.foldl_cons, ih]
    cases r with
    | value name => simp [saveProperty]
    | table T' =>
      by_cases h : T = T'
      · subst h
        simp [saveProperty]
      · simp [saveProperty, h]
    | acknowledgement => simp [saveProperty]

theorem saveProperties_acknowledgement : (l.foldl (saveProperty i D a) data).acknowledgement =
    if .acknowledgement ∈ l then some a else data.acknowledgement := by
  induction l generalizing data with
  | nil => rfl
  | cons r l ih =>
    rw [List.foldl_cons, ih]
    cases r with
    | value name => simp [saveProperty]
    | table T => simp [saveProperty]
    | acknowledgement => simp [saveProperty]

end

theorem table_retained (t : ItemType) (T : Table) : .table T ∈ retainedProperties t := by
  cases t <;> cases T <;> decide

theorem acknowledgement_retained (t : ItemType) : .acknowledgement ∈ retainedProperties t := by
  cases t <;> decide

theorem serializedByAcknowledge_cases : ∀ p ∈ serializedByAcknowledge,
    p = "uuid" ∨ p = "ref" ∨ (acknowledgeClass.defaultOf p).isSome := by
  decide

theorem Item.Sound.serialized (hi : i.Sound) {a : Attributes} (ha : i.acknowledgement = some a) :
    ∀ p ∈ serializedByAcknowledge, (a.get? p).isSome := by
  obtain ⟨hc, hu, hr⟩ := hi.acknowledgement a ha
  intro p hp
  rcases serializedByAcknowledge_cases p hp with rfl | rfl | hp
  · exact hu
  · exact hr
  · exact hc p hp

theorem toSerialized_ok (h : i.Sound) : ∃ a, toSerialized i.acknowledgement = .ok a := by
  cases ha : i.acknowledgement with
  | none => exact ⟨_, rfl⟩
  | some a =>
    obtain ⟨d, hd, -⟩ := serializeAcknowledge_ok (h.serialized ha)
    exact ⟨d, hd⟩

theorem itemRetentionData_ok (h : i.Sound) : ∃ data, itemRetentionData t i = .ok data ∧ Saved t i data := by
  choose D hD hget using dictToSerializedDict_ok h
  obtain ⟨a, ha⟩ := toSerialized_ok h
  refine ⟨(retainedProperties t).foldl (saveProperty i D a) ItemData.empty, ?_, ?_⟩
  · refine foldlM_eq_foldl _ _ fun p _ data => ?_
    cases p with
    | value name => rfl
    | table T =>
      show (dictToSerializedDict T (i.tables T)).bind _ = _
      rw [hD]
      rfl
    | acknowledgement =>
      show (toSerialized i.acknowledgement).bind _ = _
      rw [ha]
      rfl
  · refine ⟨fun p => ?_, fun T => ⟨D T, ?_, hget T⟩, a, ?_, ha⟩
    · exact saveProperties_values _ _ p
    · rw [saveProperties_tables, if_pos (table_retained t T)]
    · rw [saveProperties_acknowledgement, if_pos (acknowledgement_retained t)]

end

/-! ## Restoring the properties -/

section
variable {data : ItemData} {item : Item}

variable (l : List Retained)

theorem restoreProperties_values (p : String) : (l.foldl (restoreProperty data) item).values p =
    if .value p ∈ l then (data.values.get? p).getD (item.values p) else item.values p := by
  induction l generalizing item with
  | nil => simp
  | cons r l ih =>
    rw [List.foldl_cons, ih]
    cases r with
    | value name =>
      cases hv : data.values.get? name with
      | none =>
        by_cases h : p = name
        · subst h
          simp [restoreProperty, hv]
        · simp [restoreProperty, hv, h]
      | some v =>
        by_cases h : p = name
        · subst h
          simp [restoreProperty, hv, Item.setValue]
        · simp [restoreProperty, hv, Item.setValue, h]
    | table T => cases hd : data.tables T <;> simp [restoreProperty, hd]
    | acknowledgement => cases ha : data.acknowledgement <;> simp [restoreProperty, ha]

theorem restoreProperties_tables (T : Table) : (l.foldl (restoreProperty data) item).tables T =
    if .table T ∈ l then (data.tables T).getD (item.tables T) else item.tables T := by
  induction l generalizing item with
  | nil => simp
  | cons r l ih =>
    rw [List.foldl_cons, ih]
    cases r with
    | value name => cases hv : data.values.get? name <;> simp [restoreProperty, hv, Item.setValue]
    | table T' =>
      cases hd : data.tables T' with
      | none =>
        by_cases h : T = T'
        · subst h
          simp [restoreProperty, hd]
        · simp [restoreProperty, hd, h]
      | some d =>
        by_cases h : T = T'
        · subst h
          simp [restoreProperty, hd]
        · simp [restoreProperty, hd, h]
    | acknowledgement => cases ha : data.acknowledgement <;> simp [restoreProperty, ha]

theorem restoreProperties_acknowledgement : (l.foldl (restoreProperty data) item).acknowledgement =
    if .acknowledgement ∈ l then (data.acknowledgement.map fromSerialized).or item.acknowledgement
    else item.acknowledgement := by
  induction l generalizing item with
  | nil => simp
  | cons r l ih =>
    rw [List.foldl_cons, ih]
    cases r with
    | value name => cases hv : data.values.get? name <;> simp [restoreProperty, hv, Item.setValue]
    | table T => cases hd : data.tables T <;> simp [restoreProperty, hd]
    | acknowledgement => cases ha : data.acknowledgement <;> simp [restoreProperty, ha]

theorem restoreProperties_uuid : (l.foldl (restoreProperty data) item).uuid = item.uuid := by
  induction l generalizing item with
  | nil => rfl
  | cons r l ih =>
    rw [List.foldl_cons, ih]
    cases r with
    | value name => cases hv : data.values.get? name <;> simp [restoreProperty, hv, Item.setValue]
    | table T => cases hd : data.tables T <;> simp [restoreProperty, hd]
    | acknowledgement => cases ha : data.acknowledgement <;> simp [restoreProperty, ha]

end

/-! ## Restoring the objects -/

section
variable {T : Table} {u : String}

theorem setObjects_eq (g : String × Attributes → Attributes) (l : List (String × Attributes)) (item : Item) :
    l.foldl (fun i e => i.setObject T e.1 (g e)) item =
      { item with tables := Function.update item.tables T (l.foldl (fun d e => d.set e.1 (g e)) (item.tables T)) } := by
  induction l generalizing item with
  | nil => simp
  | cons e l ih =>
    rw [List.foldl_cons, ih]
    simp [Item.setObject]

variable {σ : Type} (get : σ → Item) {step : σ → String × Attributes → Except Exn σ}

theorem foldlM_setObject {g : String × Attributes → Attributes} {l : List (String × Attributes)}
    (h : ∀ s, (get s).uuid = u → ∀ e ∈ l, ∃ s', step s e = .ok s' ∧ get s' = (get s).setObject T e.1 (g e))
    (s : σ) (hs : (get s).uuid = u) :
    ∃ s', l.foldlM step s = .ok s' ∧ get s' = l.foldl (fun i e => i.setObject T e.1 (g e)) (get s) := by
  induction l generalizing s with
  | nil => exact ⟨s, rfl, rfl⟩
  | cons e l ih =>
    obtain ⟨s₁, h1, hg1⟩ := h s hs e List.mem_cons_self
    have hs1 : (get s₁).uuid = u := by rw [hg1]; exact hs
    obtain ⟨s₂, h2, hg2⟩ := ih (fun s hs e he => h s hs e (List.mem_cons_of_mem _ he)) s₁ hs1
    refine ⟨s₂, ?_, ?_⟩
    · rw [List.foldlM_cons, h1]
      exact h2
    · rw [hg2, List.foldl_cons, hg1]

end

section
variable {env : Env} {T : Table} {u : String} {d : Dict String Attributes} {i : Item}

theorem SavedFrom.entry (h : SavedFrom i T d) (hi : i.Sound) {e : String × Attributes} (he : e ∈ d.entries) :
    ∃ o, T.Holds e.1 o ∧ e.2 = T.serialized o := by
  have hget : d.get? e.1 = some e.2 := Dict.get?_eq_some.mpr he
  rw [h] at hget
  obtain ⟨o, ho, hs⟩ := Option.map_eq_some_iff.mp hget
  exact ⟨o, hi.held T e.1 o ho, hs.symm⟩

theorem SavedFrom.uuidOf_build (env : Env) (u : String) (h : SavedFrom i T d) (hi : i.Sound) {e : String × Attributes}
    (he : e ∈ d.entries) : uuidOf (T.build env u e) = .ok e.1 := by
  obtain ⟨o, ho, hs⟩ := h.entry hi he
  have hmem : "uuid" ∈ T.kept := by cases T <;> exact List.mem_cons_self
  have hb := ho.build env u "uuid" hmem
  rw [if_neg (by decide), ho.keyed] at hb
  obtain ⟨k, s⟩ := e
  subst hs
  exact uuidOf_ok hb

theorem SavedFrom.restoreNotification (env : Env) (h : SavedFrom i .notificationsInProgress d) (hi : i.Sound)
    (s : Item × Dict String Attributes) (hs : s.1.uuid = u) (e : String × Attributes) (he : e ∈ d.entries) :
    ∃ s', restoreNotification env s e = .ok s' ∧
      s'.1 = s.1.setObject .notificationsInProgress e.1 (Table.build env .notificationsInProgress u e) := by
  subst hs
  unfold Retention.restoreNotification addNotification
  have huuid := h.uuidOf_build env s.1.uuid hi he
  unfold Table.build at huuid ⊢
  simp only at huuid ⊢
  rw [huuid]
  exact ⟨_, rfl, rfl⟩

theorem checkComment_ok {comments : Dict String Attributes} {downtime : Attributes} {c : String}
    (hc : downtime.get? "comment_id" = some (.str c)) (hu : hasUuid c = false) : checkComment comments downtime = .ok () := by
  unfold checkComment
  rw [hc]
  simp only
  split
  · exact if_neg (by decide)
  · rw [hu]
    rfl

theorem SavedFrom.restoreDowntime (env : Env) (h : SavedFrom i .downtimes d) (hi : i.Sound) (comments : Dict String Attributes)
    (item : Item) (hs : item.uuid = u) (e : String × Attributes) (he : e ∈ d.entries) :
    ∃ item', restoreDowntime env comments item e = .ok item' ∧
      item' = item.setObject .downtimes e.1 (Table.build env .downtimes u e) := by
  subst hs
  obtain ⟨o, ho, hs⟩ := h.entry hi he
  obtain ⟨c, hc, hu⟩ := ho.commentId rfl
  have hcheck : checkComment comments (e.2.set "ref" (.str item.uuid)) = .ok () := by
    refine checkComment_ok (c := c) ?_ hu
    rw [Dict.get?_set_ne (by decide), hs, ho.serialize.2 _ (by decide)]
    exact hc
  have huuid := h.uuidOf_build env item.uuid hi he
  unfold Retention.restoreDowntime Item.addObject
  unfold Table.build at huuid ⊢
  simp only at huuid ⊢
  rw [hcheck, huuid]
  exact ⟨_, rfl, rfl⟩

theorem SavedFrom.restoreComment (env : Env) (h : SavedFrom i .comments d) (hi : i.Sound)
    (item : Item) (hs : item.uuid = u) (e : String × Attributes) (he : e ∈ d.entries) :
    ∃ item', restoreComment env item e = .ok item' ∧
      item' = item.setObject .comments e.1 (Table.build env .comments u e) := by
  subst hs
  have huuid := h.uuidOf_build env item.uuid hi he
  unfold Retention.restoreComment Item.addObject
  unfold Table.build at huuid ⊢
  simp only at huuid ⊢
  rw [huuid]
  exact ⟨_, rfl, rfl⟩

theorem SavedFrom.get?_built (h : SavedFrom i T d) (k : String) :
    (d.entries.foldl (fun d e => d.set e.1 (T.build env u e)) d).get? k =
      ((i.tables T).get? k).map fun o => T.build env u (k, T.serialized o) := by
  rw [Dict.get?_foldl_set (fun k s => T.build env u (k, s)) d.nodup]
  show ((d.get? k).map _).or (d.get? k) = _
  rw [h k]
  cases (i.tables T).get? k with
  | none => rfl
  | some o => rfl

end

/-! ## The restored item -/

section
variable {env : Env} {t : ItemType} {i target r : Item} {data : ItemData}

/-- What comes out of saving the item `i` and restoring it into `target`. -/
structure Restored (env : Env) (t : ItemType) (i target r : Item) : Prop where
  uuid : r.uuid = target.uuid
  values : ∀ p, .value p ∈ retainedProperties t → p ≠ "notified_contacts" → r.values p = i.values p
  contacts : ∀ names, i.values "notified_contacts" = .list names →
    r.values "notified_contacts" = .list (relinkContacts env names).1
  customs : r.values "customs" = target.values "customs"
  tables : ∀ T k, (r.tables T).get? k =
    ((i.tables T).get? k).map fun o => T.build env target.uuid (k, T.serialized o)
  acknowledgement : ∃ a, toSerialized i.acknowledgement = .ok a ∧ r.acknowledgement =
    some (newAcknowledge (env.newObjectId "acknowledge" target.uuid) ((fromSerialized a).set "ref" (.str target.uuid)))

theorem customs_not_retained (t : ItemType) : .value "customs" ∉ retainedProperties t := by
  cases t <;> decide

theorem inChecking_not_retained (t : ItemType) : .value "in_checking" ∉ retainedProperties t := by
  cases t <;> decide

theorem notifiedContacts_retained (t : ItemType) : .value "notified_contacts" ∈ retainedProperties t := by
  cases t <;> decide

theorem restoredProperties_value (hd : Saved t i data) (target : Item) (hp : .value p ∈ retainedProperties t) :
    (restoreProperties t data target).values p = i.values p := by
  unfold restoreProperties
  rw [restoreProperties_values, if_pos hp, hd.values, if_pos hp]
  rfl

theorem restoredProperties_table (target : Item) {T : Table} {d : Dict String Attributes} (hT : data.tables T = some d) :
    (restoreProperties t data target).tables T = d := by
  unfold restoreProperties
  rw [restoreProperties_tables, if_pos (table_retained t T), hT]
  rfl

theorem restoredProperties_acknowledgement (target : Item) {a : Attributes} (ha : data.acknowledgement = some a) :
    (restoreProperties t data target).acknowledgement = some (fromSerialized a) := by
  unfold restoreProperties
  rw [restoreProperties_acknowledgement, if_pos (acknowledgement_retained t), ha]
  rfl

theorem restored_of_saved (env : Env) (hi : i.Sound) (hd : Saved t i data) (target : Item)
    (actions : Dict String Attributes) :
    ∃ r actions', restoreRetentionDataItem env t data target actions = .ok (r, actions') ∧ Restored env t i target r := by
  obtain ⟨dn, hdn, hsn⟩ := hd.tables .notificationsInProgress
  obtain ⟨dd, hdd, hsd⟩ := hd.tables .downtimes
  obtain ⟨dc, hdc, hsc⟩ := hd.tables .comments
  obtain ⟨a, ha, hsa⟩ := hd.acknowledgement
  obtain ⟨names, hnames⟩ := hi.notifiedContacts
  have hu0 : (restoreProperties t data target).uuid = target.uuid := restoreProperties_uuid _
  -- the three loops, each on one table
  obtain ⟨s₁, hr1, hs1⟩ := foldlM_setObject Prod.fst (hsn.restoreNotification env hi)
    (restoreProperties t data target, actions) hu0
  rw [setObjects_eq] at hs1
  have hu2 : s₁.1.updateInChecking.uuid = target.uuid := by rw [hs1]; exact hu0
  obtain ⟨item₃, hr3, hs3⟩ := foldlM_setObject id (hsd.restoreDowntime env hi dc) s₁.1.updateInChecking hu2
  rw [setObjects_eq] at hs3
  have hu3 : item₃.uuid = target.uuid := by rw [show item₃ = _ from hs3]; exact hu2
  obtain ⟨item₄, hr4, hs4⟩ := foldlM_setObject id (hsc.restoreComment env hi) item₃ hu3
  rw [setObjects_eq] at hs4
  simp only [id] at hs3 hs4
  have hu4 : item₄.uuid = target.uuid := by rw [hs4]; exact hu3
  have hv4 : item₄.values = s₁.1.updateInChecking.values := by rw [hs4, hs3]
  have ha4 : item₄.acknowledgement = some (fromSerialized a) := by
    rw [hs4, hs3, hs1]
    exact restoredProperties_acknowledgement target ha
  have hother : ∀ p, p ≠ "in_checking" → item₄.values p = (restoreProperties t data target).values p := fun p hp => by
    rw [hv4, hs1]
    exact Function.update_of_ne hp _ _
  have hnames4 : (restoreAcknowledgement env item₄).values "notified_contacts" = .list names := by
    have hack : (restoreAcknowledgement env item₄).values = item₄.values := by
      unfold restoreAcknowledgement
      rw [ha4]
    rw [hack, hother _ (by decide), restoredProperties_value hd target (notifiedContacts_retained t)]
    exact hnames
  refine ⟨{ (restoreAcknowledgement env item₄).setValue "notified_contacts" (.list (relinkContacts env names).1) with
    notifiedContactsIds := (relinkContacts env names).2 }, s₁.2, ?_, ?_⟩
  · unfold restoreRetentionDataItem restoreNotifications ItemData.table restoreContacts
    simp only
    rw [restoredProperties_table target hdn, hr1, hdd, hdc]
    show (dd.entries.foldlM (restoreDowntime env dc) s₁.1.updateInChecking).bind _ = _
    rw [hr3]
    show (dc.entries.foldlM (restoreComment env) item₃).bind _ = _
    rw [hr4]
    simp only [Except.bind]
    rw [hnames4]
    rfl
  · have hack : restoreAcknowledgement env item₄ = { item₄ with acknowledgement := some (newAcknowledge
        (env.newObjectId "acknowledge" target.uuid) ((fromSerialized a).set "ref" (.str target.uuid))) } := by
      unfold restoreAcknowledgement
      rw [ha4]
      simp only
      rw [hu4]
    rw [hack]
    refine ⟨hu4, fun p hp hne => ?_, fun names' hn => ?_, ?_, fun T k => ?_, a, hsa, rfl⟩
    · have hne' : p ≠ "in_checking" := fun e => inChecking_not_retained t (e ▸ hp)
      have hv : item₄.values p = i.values p := (hother p hne').trans (restoredProperties_value hd target hp)
      simp only [Item.setValue]
      rw [Function.update_of_ne hne]
      exact hv
    · rw [hnames] at hn
      cases hn
      simp only [Item.setValue, Function.update_self]
    · have hc : item₄.values "customs" = target.values "customs" := by
        rw [hother _ (by decide)]
        unfold restoreProperties
        rw [restoreProperties_values, if_neg (customs_not_retained t)]
      have hne : "customs" ≠ "notified_contacts" := by decide
      simp only [Item.setValue]
      rw [Function.update_of_ne hne]
      exact hc
    · show (item₄.tables T).get? k = _
      have htab : ∀ U d, data.tables U = some d → (restoreProperties t data target).tables U = d :=
        fun U d => restoredProperties_table target
      have h2 : s₁.1.updateInChecking.tables = Function.update (restoreProperties t data target).tables
          .notificationsInProgress (dn.entries.foldl (fun d e => d.set e.1 (Table.build env .notificationsInProgress
            target.uuid e)) dn) := by
        rw [hs1]
        simp only [Item.updateInChecking, Item.setValue]
        rw [htab _ _ hdn]
      have hdd2 : s₁.1.updateInChecking.tables .downtimes = dd := by
        rw [h2, Function.update_of_ne (by decide), htab _ _ hdd]
      have h3 : item₃.tables = Function.update s₁.1.updateInChecking.tables .downtimes
          (dd.entries.foldl (fun d e => d.set e.1 (Table.build env .downtimes target.uuid e)) dd) := by
        rw [hs3]
        simp only
        rw [hdd2]
      have hdc3 : item₃.tables .comments = dc := by
        rw [h3, Function.update_of_ne (by decide), h2, Function.update_of_ne (by decide), htab _ _ hdc]
      have h4 : item₄.tables = Function.update item₃.tables .comments
          (dc.entries.foldl (fun d e => d.set e.1 (Table.build env .comments target.uuid e)) dc) := by
        rw [hs4]
        simp only
        rw [hdc3]
      rw [h4, h3, h2]
      cases T with
      | downtimes =>
        rw [Function.update_of_ne (by decide), Function.update_self]
        exact hsd.get?_built k
      | comments =>
        rw [Function.update_self]
        exact hsc.get?_built k
      | notificationsInProgress =>
        rw [Function.update_of_ne (by decide), Function.update_of_ne (by decide), Function.update_self]
        exact hsn.get?_built k

/-! ## The round trip -/

def Item.inEffect (i : Item) : Nat := (i.tables .downtimes).count fun d => decide (d.get? "is_in_effect" = some (.bool true))

def acknowledgementKept : List String := "uuid" :: "ref" :: acknowledgeClass.names

/-- `r` has what is to survive of `i`: its retained values, the objects of its
tables, its acknowledgement or none, its custom variables, and the downtime
depth of its downtimes. The objects refer to `r`. -/
structure RoundTrip (t : ItemType) (i r : Item) : Prop where
  values : ∀ p, .value p ∈ retainedProperties t → r.values p = i.values p
  tables : ∀ T k, Option.Rel (Same T.kept r.uuid) ((i.tables T).get? k) ((r.tables T).get? k)
  acknowledgement : Option.Rel (Same acknowledgementKept r.uuid) i.acknowledgement r.acknowledgement
  customs : r.values "customs" = i.values "customs"
  depth : r.values "scheduled_downtime_depth" = .int r.inEffect

/-- The acknowledgement has lost its comment, the new item has the same custom
variables, and the notified contacts are known. -/
structure Survives (env : Env) (i target : Item) : Prop where
  acknowledgement : ∃ a, i.acknowledgement = some a ∧ a.get? "comment_id" = some (.str "")
  customs : target.values "customs" = i.values "customs"
  depth : i.values "scheduled_downtime_depth" = .int i.inEffect
  contacts : ∀ names, i.values "notified_contacts" = .list names →
    names.Nodup ∧ ∀ name ∈ names, (env.contactUuid name).isSome

def addKnown (env : Env) (l : List String) (name : String) : List String :=
  if (env.contactUuid name).isSome ∧ name ∉ l then l ++ [name] else l

theorem relinkContacts_fst (names : List String) (new : List String × List String) :
    (names.foldl (relinkContact env) new).1 = names.foldl (addKnown env) new.1 := by
  induction names generalizing new with
  | nil => rfl
  | cons name names ih =>
    rw [List.foldl_cons, ih, List.foldl_cons]
    unfold relinkContact addKnown
    cases hc : env.contactUuid name with
    | none => simp
    | some u =>
      by_cases hm : name ∈ new.1
      · simp [hm]
      · simp [hm]

theorem addKnown_mem {l : List String} {name x : String} (h : x ∈ addKnown env l name) :
    x ∈ l ∨ (env.contactUuid x).isSome := by
  unfold addKnown at h
  split at h
  · rename_i hn
    rcases List.mem_append.mp h with h | h
    · exact Or.inl h
    · rw [List.mem_singleton] at h
      exact Or.inr (h ▸ hn.1)
  · exact Or.inl h

theorem addKnown_nodup {l : List String} {name : String} (h : l.Nodup) : (addKnown env l name).Nodup := by
  unfold addKnown
  split
  · rename_i hn
    rw [List.nodup_append]
    refine ⟨h, List.nodup_singleton _, fun a ha b hb e => hn.2 ?_⟩
    rw [List.mem_singleton] at hb
    rw [← hb, ← e]
    exact ha
  · exact h

theorem addKnown_all (env : Env) (names l : List String) : (∀ x ∈ names.foldl (addKnown env) l, x ∈ l ∨ (env.contactUuid x).isSome) ∧
    (l.Nodup → (names.foldl (addKnown env) l).Nodup) := by
  induction names generalizing l with
  | nil => exact ⟨fun x hx => Or.inl hx, id⟩
  | cons name names ih =>
    rw [List.foldl_cons]
    obtain ⟨h1, h2⟩ := ih (addKnown env l name)
    refine ⟨fun x hx => ?_, fun hl => h2 (addKnown_nodup hl)⟩
    rcases h1 x hx with h | h
    · exact addKnown_mem h
    · exact Or.inr h

theorem addKnown_known {names l : List String} (hn : (l ++ names).Nodup) (hk : ∀ x ∈ names, (env.contactUuid x).isSome) :
    names.foldl (addKnown env) l = l ++ names := by
  induction names generalizing l with
  | nil => simp
  | cons name names ih =>
    have hnot : name ∉ l := fun hm => (List.nodup_append.mp hn).2.2 _ hm _ List.mem_cons_self rfl
    have hadd : addKnown env l name = l ++ [name] := if_pos ⟨hk _ List.mem_cons_self, hnot⟩
    rw [List.foldl_cons, hadd, ih (by simpa using hn) fun x hx => hk x (List.mem_cons_of_mem _ hx)]
    simp

theorem relinkContacts_eq (names : List String) :
    (relinkContacts env names).1 = names ↔ names.Nodup ∧ ∀ name ∈ names, (env.contactUuid name).isSome := by
  unfold relinkContacts
  rw [relinkContacts_fst]
  constructor
  · intro h
    obtain ⟨h1, h2⟩ := addKnown_all env names []
    rw [h] at h1 h2
    exact ⟨h2 List.nodup_nil, fun x hx => (h1 x hx).resolve_left List.not_mem_nil⟩
  · intro ⟨hn, hk⟩
    exact addKnown_known (by simpa using hn) hk

theorem fromSerialized_get? (a : Attributes) (p : String) : (fromSerialized a).get? p = a.get? p := by
  unfold fromSerialized
  split
  · rename_i h
    unfold Dict.get?
    rw [List.isEmpty_iff.mp h]
    rfl
  · rfl

theorem Restored.tables_same (hr : Restored env t i target r) (hi : i.Sound) (T : Table) (k : String) :
    Option.Rel (Same T.kept r.uuid) ((i.tables T).get? k) ((r.tables T).get? k) := by
  rw [hr.tables, hr.uuid]
  cases hg : (i.tables T).get? k with
  | none => exact Option.Rel.none
  | some o => exact Option.Rel.some ((hi.held T k o hg).build env target.uuid)

theorem Restored.inEffect (hr : Restored env t i target r) (hi : i.Sound) : r.inEffect = i.inEffect := by
  unfold Item.inEffect
  have hget : ∀ k, (r.tables .downtimes).get? k = ((i.tables .downtimes).mapValues fun k o =>
      Table.build env .downtimes target.uuid (k, Table.serialized .downtimes o)).get? k := fun k => by
    rw [hr.tables, Dict.get?_mapValues]
  rw [Dict.count_congr hget]
  refine Dict.count_mapValues fun k o ho => ?_
  have hb := (hi.held .downtimes k o ho).build env target.uuid "is_in_effect" (by decide)
  rw [if_neg (by decide)] at hb
  rw [hb]

theorem newAcknowledge_get? (newId : String) (params : Attributes) (p : String) :
    (newAcknowledge newId params).get? p =
      (params.get? p).or (if p = "uuid" then some (.str newId) else acknowledgeClass.defaultOf p) := by
  unfold newAcknowledge
  rw [(acknowledgeClass.complete_init newId params).get?_fillDefault, acknowledgeClass.get?_init]

theorem restored_acknowledgement (newId u : String) {a d : Attributes} (ha : toSerialized (some a) = .ok d)
    (hs : ∀ p ∈ serializedByAcknowledge, (a.get? p).isSome) (hp : p ∈ acknowledgementKept) :
    (newAcknowledge newId ((fromSerialized d).set "ref" (.str u))).get? p =
      if p = "ref" then some (.str u) else if p = "comment_id" then some (.str "") else a.get? p := by
  obtain ⟨d', hd', hget⟩ := serializeAcknowledge_ok hs
  have hd : d' = d := by
    rw [show toSerialized (some a) = serializeAcknowledge a from rfl, hd'] at ha
    exact Except.ok.inj ha
  subst hd
  rw [newAcknowledge_get?]
  by_cases hr : p = "ref"
  · simp [hr]
  rw [Dict.get?_set_ne hr, fromSerialized_get?, hget, if_neg hr]
  by_cases hc : p = "comment_id"
  · subst hc
    have hno : "comment_id" ∉ serializedByAcknowledge := by decide
    rw [if_neg hno, if_pos rfl, Option.none_or, if_neg (by decide)]
    rfl
  · have hmem : p ∈ serializedByAcknowledge := by
      unfold acknowledgementKept at hp
      unfold serializedByAcknowledge
      simpa [acknowledgeClass, ObjectClass.names, hc] using hp
    obtain ⟨v, hv⟩ := Option.isSome_iff_exists.mp (hs p hmem)
    rw [if_pos hmem, if_neg hc, hv]
    rfl

theorem Restored.acknowledgement_iff (hr : Restored env t i target r) (hi : i.Sound) :
    Option.Rel (Same acknowledgementKept r.uuid) i.acknowledgement r.acknowledgement ↔
      ∃ a, i.acknowledgement = some a ∧ a.get? "comment_id" = some (.str "") := by
  obtain ⟨d, hd, hack⟩ := hr.acknowledgement
  rw [hack, hr.uuid]
  cases ha : i.acknowledgement with
  | none =>
    constructor
    · exact fun h => absurd h Option.not_rel_none_some
    · rintro ⟨a, h, -⟩
      cases h
  | some a =>
    rw [ha] at hd
    have hget := fun p (hp : p ∈ acknowledgementKept) => restored_acknowledgement
      (env.newObjectId "acknowledge" target.uuid) target.uuid hd (hi.serialized ha) hp
    constructor
    · intro h
      have hsame := Option.rel_some_some.mp h
      refine ⟨a, rfl, ?_⟩
      have hc := hsame "comment_id" (by decide)
      rw [hget _ (by decide)] at hc
      exact hc.symm
    · rintro ⟨b, hb, hc⟩
      cases hb
      refine Option.Rel.some fun p hp => ?_
      rw [hget p hp]
      by_cases hp' : p = "comment_id"
      · subst hp'
        rw [hc]
        rfl
      · rw [if_neg hp']

theorem Restored.roundTrip_iff (hr : Restored env t i target r) (hi : i.Sound) :
    RoundTrip t i r ↔ Survives env i target := by
  have hdepth : r.values "scheduled_downtime_depth" = i.values "scheduled_downtime_depth" :=
    hr.values _ (by cases t <;> decide) (by decide)
  constructor
  · intro h
    refine ⟨(hr.acknowledgement_iff hi).mp h.acknowledgement, hr.customs.symm.trans h.customs, ?_, fun names hn => ?_⟩
    · rw [← hdepth, h.depth, hr.inEffect hi]
    · have hc := (hr.contacts names hn).symm.trans (h.values _ (notifiedContacts_retained t))
      rw [hn] at hc
      exact (relinkContacts_eq names).mp (Value.list.inj hc)
  · intro h
    refine ⟨fun p hp => ?_, hr.tables_same hi, (hr.acknowledgement_iff hi).mpr h.acknowledgement,
      hr.customs.trans h.customs, ?_⟩
    · by_cases hc : p = "notified_contacts"
      · subst hc
        obtain ⟨names, hn⟩ := hi.notifiedContacts
        rw [hr.contacts names hn, hn, (relinkContacts_eq names).mpr (h.contacts names hn)]
      · exact hr.values p hp hc
    · rw [hdepth, h.depth, hr.inEffect hi]

def GoesRound (env : Env) (t : ItemType) (i target : Item) (actions : Dict String Attributes) : Prop :=
  ∃ data r actions', itemRetentionData t i = .ok data ∧
    restoreRetentionDataItem env t data target actions = .ok (r, actions') ∧ RoundTrip t i r

/-- An item comes back from the retention as it was exactly when its
acknowledgement has no comment, in an item with the same custom variables. -/
theorem retention_goesRound_iff (hi : i.Sound) (actions : Dict String Attributes) :
    GoesRound env t i target actions ↔ Survives env i target := by
  obtain ⟨data, hdata, hsaved⟩ := itemRetentionData_ok (t := t) hi
  obtain ⟨r, actions', hr, hrest⟩ := restored_of_saved env hi hsaved target actions
  rw [← hrest.roundTrip_iff hi]
  constructor
  · rintro ⟨data', r', acts, hd', hr', hround⟩
    rw [hdata] at hd'
    cases hd'
    rw [hr] at hr'
    cases hr'
    exact hround
  · intro h
    exact ⟨data, r, actions', hdata, hr, h⟩

end

/-! ## Two items -/

section

theorem ObjectClass.complete_of_names {c : ObjectClass} {o : Attributes} (h : ∀ p ∈ c.names, (o.get? p).isSome) :
    c.Complete o := by
  intro p hp
  unfold ObjectClass.defaultOf at hp
  cases hf : c.properties.find? fun q => decide (q.1 = p) && q.2.isSome with
  | none =>
    rw [hf] at hp
    cases hp
  | some q =>
    have hq := List.find?_some hf
    simp only [Bool.and_eq_true, decide_eq_true_eq] at hq
    exact h p (List.mem_map.mpr ⟨q, List.mem_of_find?_eq_some hf, hq.1⟩)

def someEnv : Env where
  now := 1000
  newObjectId := fun c k => c ++ k
  logActions := false
  contactUuid := fun name => if name = "admin" then some "c1" else none

def aDowntime : Attributes :=
  ((newDowntime someEnv "d1" (Dict.empty.set "ref" (.str "h1"))).set "is_in_effect" (.bool true)).set
    "comment_id" (.str "k1")

def aComment : Attributes :=
  newComment someEnv "k1" (((Dict.empty.set "ref" (.str "h1")).set "entry_type" (.int 2)).set "comment_type" (.int 1))

def inDowntime (acknowledgement : Option Attributes) : Item where
  uuid := "h1"
  values := fun p =>
    if p = "notified_contacts" then .list ["admin"]
    else if p = "scheduled_downtime_depth" then .int 1
    else if p = "customs" then .dict [("_RACK", "7")]
    else .int 0
  tables
    | .downtimes => Dict.empty.set "d1" aDowntime
    | .comments => Dict.empty.set "k1" aComment
    | .notificationsInProgress => Dict.empty
  acknowledgement := acknowledgement
  checksInProgress := []
  notifiedContactsIds := ["c1"]

theorem aDowntime_holds : Table.downtimes.Holds "d1" aDowntime where
  keyed := by decide +kernel
  complete := ObjectClass.complete_of_names (by decide +kernel)
  entryTime := nofun
  commentId := fun _ => ⟨"k1", by decide +kernel, by decide +kernel⟩

theorem aComment_holds : Table.comments.Holds "k1" aComment where
  keyed := by decide
  complete := ObjectClass.complete_of_names (by decide)
  entryTime := fun _ => by decide
  commentId := nofun

theorem get?_single {k k' : String} {v o : Attributes} (h : (Dict.empty.set k v).get? k' = some o) : k' = k ∧ v = o := by
  rw [Dict.get?_set] at h
  split at h
  · rename_i hk
    cases h
    exact ⟨hk, rfl⟩
  · cases h

theorem inDowntime_sound {a : Option Attributes} (h : ∀ b, a = some b →
    acknowledgeClass.Complete b ∧ (b.get? "uuid").isSome ∧ (b.get? "ref").isSome) : (inDowntime a).Sound := by
  refine ⟨fun T k o ho => ?_, h, ["admin"], rfl⟩
  cases T with
  | downtimes =>
    obtain ⟨rfl, rfl⟩ := get?_single ho
    exact aDowntime_holds
  | comments =>
    obtain ⟨rfl, rfl⟩ := get?_single ho
    exact aComment_holds
  | notificationsInProgress => cases ho

def anAcknowledge : Attributes := newAcknowledge "a1" (Dict.empty.set "ref" (.str "h1"))

theorem anAcknowledge_sound : ∀ b, some anAcknowledge = some b →
    acknowledgeClass.Complete b ∧ (b.get? "uuid").isSome ∧ (b.get? "ref").isSome := by
  rintro b h
  cases h
  exact ⟨ObjectClass.complete_of_names (by decide), by decide, by decide⟩

theorem retention_goesRound_acknowledged :
    GoesRound someEnv .host (inDowntime (some anAcknowledge)) (inDowntime none) Dict.empty := by
  refine (retention_goesRound_iff (inDowntime_sound anAcknowledge_sound) Dict.empty).mpr ?_
  refine ⟨⟨anAcknowledge, rfl, by decide +kernel⟩, rfl, by decide +kernel, fun names hn => ?_⟩
  have hnames : Value.list ["admin"] = .list names := hn
  cases hnames
  decide

theorem retention_acknowledgement_appears : (inDowntime none).Sound ∧ ¬ GoesRound someEnv .host (inDowntime none)
    (inDowntime none) Dict.empty := by
  have hi : (inDowntime none).Sound := inDowntime_sound nofun
  refine ⟨hi, ?_⟩
  rintro ⟨data, r, actions', hdata, hr, hround⟩
  obtain ⟨data', hdata', hsaved⟩ := itemRetentionData_ok (t := .host) hi
  rw [hdata] at hdata'
  cases hdata'
  obtain ⟨r', actions'', hr', hrest⟩ := restored_of_saved someEnv hi hsaved (inDowntime none) Dict.empty
  rw [hr] at hr'
  cases hr'
  obtain ⟨a, ha, -⟩ := (hrest.acknowledgement_iff hi).mp hround.acknowledgement
  cases ha

end

end Alignak.Retention
