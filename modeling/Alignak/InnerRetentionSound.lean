import Alignak.InnerRetention

/-!
# What the files give back

The file of a host has the data of the host and those of its services, under
its name. The file of all the hosts is no list of such files: it is not read.
-/

namespace Alignak.InnerRetention

variable {moved : Dict (String × String) Fields} {hosts : Dict String Fields}

section
variable {conf : Conf} {data : Data} {disk : Disk} {all : AllData} {fields : Fields} {h n p : String}

/-! ## The services in the dictionaries of their hosts -/

structure Merged (h : String) (saved : Fields) (services : String → Option Fields) (fields : Fields) : Prop where
  name : fields.lookup "name" = some (.str h)
  others : ∀ p, p ≠ "name" → p ≠ "services" → fields.lookup p = saved.lookup p
  services : ∃ l, fields.lookup "services" = some (.obj l) ∧ ∀ s, l.lookup s = (services s).map Json.obj

theorem merged_prepareHost (h : String) (saved : Fields) : Merged h saved (fun _ => none) (prepareHost h saved) where
  name := Json.lookup_insert_self
  others p hn hs := by rw [prepareHost, Json.lookup_insert_ne hn, Json.lookup_insert_ne hs]
  services := by
    refine ⟨[], ?_, fun _ => rfl⟩
    rw [prepareHost, Json.lookup_insert_ne (by decide), Json.lookup_insert_self]

def MergedHosts (data : Data) (moved : Dict (String × String) Fields) (hosts : Dict String Fields) : Prop :=
  ∀ h, match data.hosts.get? h with
    | none => hosts.get? h = none
    | some saved => ∃ fields, hosts.get? h = some fields ∧ Merged h saved (fun s => moved.get? (h, s)) fields

theorem MergedHosts.of_some
    (hm : MergedHosts data moved hosts) {saved : Fields} (hh : data.hosts.get? h = some saved) :
    ∃ fields, hosts.get? h = some fields ∧ Merged h saved (fun s => moved.get? (h, s)) fields := by
  have hone := hm h
  rw [hh] at hone
  exact hone

theorem MergedHosts.of_none
    (hm : MergedHosts data moved hosts) (hh : data.hosts.get? h = none) : hosts.get? h = none := by
  have hone := hm h
  rw [hh] at hone
  exact hone

theorem mergedHosts_start (data : Data) : MergedHosts data Dict.empty (data.hosts.mapValues prepareHost) := by
  intro h
  split
  · rename_i hh
    rw [Dict.get?_mapValues, hh]
    rfl
  · rename_i saved hh
    rw [Dict.get?_mapValues, hh]
    exact ⟨_, rfl, merged_prepareHost h saved⟩

theorem addService_merged
    (hm : MergedHosts data moved hosts) (e : (String × String) × Fields) (he : data.hosts.get? e.1.1 ≠ none) :
    ∃ hosts', addService hosts e = .ok hosts' ∧ MergedHosts data (moved.set e.1 e.2) hosts' := by
  obtain ⟨⟨h, s⟩, sfields⟩ := e
  obtain ⟨saved, hsaved⟩ := Option.ne_none_iff_exists'.mp he
  obtain ⟨fields, hget, hname, hothers, l, hl, hservices⟩ := hm.of_some hsaved
  refine ⟨hosts.set h (Json.insert "services" (.obj (Json.insert s (.obj sfields) l)) fields), ?_, ?_⟩
  · simp only [addService, hget, hl]
  intro k
  by_cases hk : k = h
  · subst hk
    rw [hsaved]
    refine ⟨_, Dict.get?_set_self, ?_, ?_, ?_⟩
    · rw [Json.lookup_insert_ne (by decide), hname]
    · intro p hn hs
      rw [Json.lookup_insert_ne hs, hothers p hn hs]
    · refine ⟨_, Json.lookup_insert_self, ?_⟩
      intro s'
      rw [Json.lookup_insert, Dict.get?_set]
      by_cases hs : s' = s
      · simp [hs]
      · simp [hs, hservices]
  · split
    · rename_i hn
      rw [Dict.get?_set_ne hk]
      exact hm.of_none hn
    · rename_i saved' hs'
      obtain ⟨fields', hget', hmerged⟩ := hm.of_some hs'
      refine ⟨fields', (Dict.get?_set_ne hk).trans hget', hmerged.name, hmerged.others, ?_⟩
      obtain ⟨l', hl', hservices'⟩ := hmerged.services
      refine ⟨l', hl', ?_⟩
      intro s'
      rw [hservices', Dict.get?_set_ne]
      intro hkey
      exact hk (congrArg Prod.fst hkey)

theorem mergedHosts_ok (data : Data) : ∃ hosts, mergedHosts data = .ok hosts ∧ MergedHosts data data.services hosts := by
  have hfold : ∀ (l : List ((String × String) × Fields)) (moved : Dict (String × String) Fields) (hosts : Dict String Fields),
      (∀ e ∈ l, data.hosts.get? e.1.1 ≠ none) → MergedHosts data moved hosts →
      ∃ hosts', l.foldlM addService hosts = .ok hosts' ∧
        MergedHosts data (l.foldl (fun d e => d.set e.1 e.2) moved) hosts' := by
    intro l
    induction l with
    | nil => exact fun moved hosts _ hm => ⟨hosts, rfl, hm⟩
    | cons e l ih =>
      intro moved hosts hl hm
      obtain ⟨hosts1, hrun, hm1⟩ := addService_merged hm e (hl e List.mem_cons_self)
      obtain ⟨hosts', hrest, hm'⟩ := ih _ hosts1 (fun e' he' => hl e' (List.mem_cons_of_mem e he')) hm1
      refine ⟨hosts', ?_, hm'⟩
      rw [List.foldlM_cons, hrun]
      exact hrest
  have hhosted : ∀ e ∈ data.services.entries, data.hosts.get? e.1.1 ≠ none := by
    intro e he
    apply data.hosted e.1.1 e.1.2
    rw [Dict.get?_eq_some.mpr he]
    exact Option.some_ne_none _
  obtain ⟨hosts, hrun, hm⟩ := hfold data.services.entries Dict.empty _ hhosted (mergedHosts_start data)
  refine ⟨hosts, hrun, ?_⟩
  have hsame : ∀ k, (data.services.entries.foldl (fun d e => d.set e.1 e.2) Dict.empty).get? k = data.services.get? k := by
    intro k
    rw [Dict.get?_foldl_set (fun _ v => v) data.services.nodup]
    show ((data.services.get? k).map fun v => v).or none = _
    rw [Option.map_id', Option.or_none]
  intro h
  have hone := hm h
  simp only [hsame] at hone
  exact hone

/-! ## The files of the hosts -/

structure HostFile (n : String) (fields : Fields) : Prop where
  name : fields.lookup "name" = some (.str n)
  services : ∃ l, fields.lookup "services" = some (.obj l)
  plain : fields.lookup "retention_services" = none

theorem not_retained : "name" ∉ retainedNames .host ∧ "services" ∉ retainedNames .host ∧
    "retention_services" ∉ retainedNames .host := by
  decide +kernel

theorem Merged.hostFile {saved : Fields} {services : String → Option Fields} (hm : Merged h saved services fields)
    (hs : data.hosts.get? h = some saved) : HostFile h fields where
  name := hm.name
  services := by
    obtain ⟨l, hl, -⟩ := hm.services
    exact ⟨l, hl⟩
  plain := by
    rw [hm.others _ (by decide) (by decide)]
    by_contra hne
    exact not_retained.2.2 (data.retained h saved hs _ hne)

def Named (directory : Dict String Json) : Prop := ∀ f j, directory.get? f = some j →
  ∃ n fields, f = n ++ ".json" ∧ '/' ∉ n.toList ∧ j = .obj fields ∧ HostFile n fields

theorem openFor_slash (conf : Conf) (h : '/' ∈ n.toList) : openFor conf n = .elsewhere ∨ openFor conf n = .fails := by
  unfold openFor
  split
  · split
    · exact Or.inl rfl
    · exact Or.inr rfl
  · exact Or.inr rfl

theorem openFor_plain (h : '/' ∉ n.toList) : openFor conf n = .inDirectory (n ++ ".json") := by
  unfold openFor
  rw [if_neg, if_neg h]
  intro hh
  exact h (List.mem_of_mem_head? hh)

theorem Named.saveHosts (conf : Conf) {hosts : List (String × Fields)} {directory : Dict String Json}
    (hd : Named directory) (hh : ∀ e ∈ hosts, HostFile e.1 e.2) : Named (saveHosts conf hosts directory) := by
  induction hosts generalizing directory with
  | nil => exact hd
  | cons e hosts ih =>
    obtain ⟨n, fields⟩ := e
    have hrest := fun e he => hh e (List.mem_cons_of_mem _ he)
    unfold InnerRetention.saveHosts
    by_cases hn : '/' ∈ n.toList
    · rcases openFor_slash conf hn with ho | ho
      · rw [ho]
        exact ih hd hrest
      · rw [ho]
        exact hd
    · rw [openFor_plain hn]
      apply ih _ hrest
      intro f j hf
      rw [Dict.get?_set] at hf
      split at hf
      · rename_i he
        cases hf
        exact ⟨n, fields, he, hn, rfl, hh _ List.mem_cons_self⟩
      · exact hd f j hf

theorem json_injective {m : String} (h : n ++ ".json" = m ++ ".json") : n = m := by
  have hl : n.toList ++ ".json".toList = m.toList ++ ".json".toList := by
    rw [← String.toList_append, ← String.toList_append, h]
  exact String.toList_inj.mp (List.append_cancel_right hl)

theorem saveHosts_get? (conf : Conf) {hosts : List (String × Fields)} (hn : (hosts.map Prod.fst).Nodup)
    (directory : Dict String Json) (hplain : ∀ e ∈ hosts, '/' ∉ e.1.toList) (he : (n, fields) ∈ hosts) :
    (saveHosts conf hosts directory).get? (n ++ ".json") = some (.obj fields) := by
  have hkeep : ∀ (l : List (String × Fields)) (d : Dict String Json), n ∉ l.map Prod.fst →
      (saveHosts conf l d).get? (n ++ ".json") = d.get? (n ++ ".json") := by
    intro l
    induction l with
    | nil => exact fun d _ => rfl
    | cons e l ih =>
      obtain ⟨m, mfields⟩ := e
      intro d hl
      rw [List.map_cons, List.mem_cons, not_or] at hl
      unfold saveHosts
      split
      · rename_i f ho
        rw [ih _ hl.2, Dict.get?_set_ne]
        by_cases hm : '/' ∈ m.toList
        · rcases openFor_slash conf hm with h | h
          · rw [h] at ho
            cases ho
          · rw [h] at ho
            cases ho
        · rw [openFor_plain hm] at ho
          cases ho
          exact fun h => hl.1 (json_injective h)
      · exact ih _ hl.2
      · rfl
  induction hosts generalizing directory with
  | nil => cases he
  | cons e hosts ih =>
    obtain ⟨m, mfields⟩ := e
    rw [List.map_cons, List.nodup_cons] at hn
    unfold saveHosts
    rw [openFor_plain (hplain _ List.mem_cons_self)]
    rcases List.mem_cons.mp he with he | he
    · cases he
      rw [hkeep hosts _ hn.1, Dict.get?_set_self]
    · exact ih hn.2 _ (fun e he => hplain e (List.mem_cons_of_mem _ he)) he

/-! ## Loading -/

theorem get?_foldl_services {l : List (String × Json)} (key : Key) (g : String → Json) (d : Dict (Key × String) Json)
    (k : Key × String) : (l.foldl (fun d e => d.set (key, e.1) (g e.1)) d).get? k =
      if k.1 = key ∧ k.2 ∈ l.map Prod.fst then some (g k.2) else d.get? k := by
  induction l generalizing d with
  | nil => simp
  | cons e l ih =>
    rw [List.foldl_cons, ih, Dict.get?_set]
    by_cases hk : k = (key, e.1)
    · subst hk
      simp
    · have hne : ¬ (k.1 = key ∧ k.2 = e.1) := fun h => hk (Prod.ext h.1 h.2)
      rw [if_neg hk]
      by_cases hin : k.1 = key ∧ k.2 ∈ l.map Prod.fst
      · rw [if_pos hin, if_pos ⟨hin.1, List.mem_cons_of_mem _ hin.2⟩]
      · rw [if_neg hin, if_neg]
        rintro ⟨h1, h2⟩
        rcases List.mem_cons.mp h2 with h2 | h2
        · exact hne ⟨h1, h2⟩
        · exact hin ⟨h1, h2⟩

theorem loadFile_host (all : AllData) (hf : HostFile n fields) : ∃ all' l, fields.lookup "services" = some (.obj l) ∧
    loadFile all (.obj fields) = .ok all' ∧ all'.hosts = all.hosts.set (.str n) (.obj fields) ∧
    ∀ k, all'.services.get? k = if k.1 = .str n ∧ k.2 ∈ l.map Prod.fst then some ((l.lookup k.2).getD .null)
      else all.services.get? k := by
  obtain ⟨l, hl⟩ := hf.services
  have hname : (Json.obj fields).get? "name" = some (.str n) := hf.name
  have hservices : (Json.obj fields).get? "services" = some (.obj l) := hl
  have hplain : (Json.obj fields).has "retention_services" = false := by
    show (fields.lookup "retention_services").isSome = false
    rw [hf.plain]
    rfl
  have hhas : (Json.obj fields).has "services" = true := by
    rw [Json.has, hservices]
    rfl
  have hretention : isRetention (asList (.obj fields)) = true := by
    show (fields.lookup "name").isSome = true
    rw [hf.name]
    rfl
  have hload : ∀ all', loadServices (.str n) (.obj l) all = .ok all' →
      loadFile all (.obj fields) = .ok { all' with hosts := all'.hosts.set (.str n) (.obj fields) } := by
    intro all' hall
    unfold loadFile
    rw [if_pos hretention]
    show (loadHost all (.obj fields) >>= fun all => pure all) = _
    unfold loadHost
    rw [Json.item_of_get? hname]
    simp only [hplain, Bool.false_eq_true, if_false, hhas, if_true, Json.item_of_get? hservices]
    show ((loadServices (.str n) (.obj l) all >>= fun all => _) >>= fun all => pure all) = _
    rw [hall]
    rfl
  cases l with
  | nil => exact ⟨_, [], hl, hload all rfl, rfl, by simp⟩
  | cons e l =>
    refine ⟨_, e :: l, hl, hload _ rfl, rfl, ?_⟩
    intro k
    exact get?_foldl_services (.str n) (fun s => ((e :: l).lookup s).getD .null) all.services k

structure Loaded (files : List (String × Fields)) (all : AllData) : Prop where
  hosts : ∀ k, all.hosts.get? k ≠ none → ∃ e ∈ files, k = .str e.1
  host : ∀ e ∈ files, all.hosts.get? (.str e.1) = some (.obj e.2)
  services : ∀ e ∈ files, ∀ l, e.2.lookup "services" = some (.obj l) → ∀ s v, l.lookup s = some v →
    all.services.get? (.str e.1, s) = some v

theorem loaded_empty : Loaded [] AllData.empty where
  hosts k hk := absurd rfl hk
  host e he := by cases he
  services e he := by cases he

theorem loadFiles_loaded (rest done : List (String × Fields)) (hn : ((done ++ rest).map Prod.fst).Nodup)
    (hf : ∀ e ∈ rest, HostFile e.1 e.2) (hl : Loaded done all) :
    ∃ all', (rest.map fun e => Json.obj e.2).foldlM loadFile all = .ok all' ∧ Loaded (done ++ rest) all' := by
  induction rest generalizing done all with
  | nil =>
    refine ⟨all, rfl, ?_⟩
    rwa [List.append_nil]
  | cons e rest ih =>
    obtain ⟨n, fields⟩ := e
    obtain ⟨all₁, l, hservices, hrun, hhosts1, hservices1⟩ := loadFile_host all (hf _ List.mem_cons_self)
    have hnew : ∀ e ∈ done, Key.str e.1 ≠ .str n := by
      intro e he hk
      cases hk
      rw [List.map_append, List.nodup_append] at hn
      exact hn.2.2 e.1 (List.mem_map_of_mem he) e.1 (by simp) rfl
    have hl1 : Loaded (done ++ [(n, fields)]) all₁ := by
      constructor
      · intro k hk
        rw [hhosts1, Dict.get?_set] at hk
        split at hk
        · rename_i he
          exact ⟨(n, fields), by simp, he⟩
        · obtain ⟨e, he, hke⟩ := hl.hosts k hk
          exact ⟨e, List.mem_append_left _ he, hke⟩
      · intro e he
        rcases List.mem_append.mp he with he | he
        · rw [hhosts1, Dict.get?_set_ne (hnew e he), hl.host e he]
        · rw [List.mem_singleton.mp he, hhosts1, Dict.get?_set_self]
      · intro e he l' hl' s v hv
        rcases List.mem_append.mp he with he | he
        · rw [hservices1, if_neg (fun h => hnew e he h.1), hl.services e he l' hl' s v hv]
        · rw [List.mem_singleton.mp he] at hl' ⊢
          cases hservices.symm.trans hl'
          have hin : s ∈ l.map Prod.fst := List.mem_map.mpr ⟨(s, v), Dict.mem_of_lookup hv, rfl⟩
          rw [hservices1, if_pos ⟨rfl, hin⟩, hv]
          rfl
    have hn1 : ((done ++ [(n, fields)] ++ rest).map Prod.fst).Nodup := by
      rw [List.append_assoc]
      exact hn
    obtain ⟨all', hrest, hall'⟩ := ih (done ++ [(n, fields)]) hn1 (fun e he => hf e (List.mem_cons_of_mem _ he)) hl1
    refine ⟨all', ?_, ?_⟩
    · rw [List.map_cons, List.foldlM_cons, hrun]
      exact hrest
    · rw [List.append_assoc] at hall'
      exact hall'

/-! ## Saving and loading -/

def savedDisk (conf : Conf) (saves : List Data) : Disk :=
  saves.foldl (fun disk data => hookSaveRetention conf data disk) ⟨none, Dict.empty⟩

theorem MergedHosts.entry (hm : MergedHosts data data.services hosts) {e : String × Fields}
    (he : e ∈ hosts.entries) : HostFile e.1 e.2 ∧ data.hosts.get? e.1 ≠ none := by
  have hget := Dict.get?_eq_some.mpr he
  cases hh : data.hosts.get? e.1 with
  | none =>
    rw [hm.of_none hh] at hget
    cases hget
  | some saved =>
    obtain ⟨fields, hget', hmerged⟩ := hm.of_some hh
    cases hget'.symm.trans hget
    exact ⟨hmerged.hostFile hh, Option.some_ne_none _⟩

theorem Named.save (conf : Conf) (data : Data) (hd : Named disk.directory) :
    Named (hookSaveRetention conf data disk).directory := by
  obtain ⟨hosts, hrun, hm⟩ := mergedHosts_ok data
  unfold hookSaveRetention
  rw [hrun]
  dsimp only
  split
  · exact hd
  · exact hd.saveHosts conf fun e he => (hm.entry he).1

theorem named_saved (conf : Conf) (saves : List Data) : Named (savedDisk conf saves).directory := by
  have hfold : ∀ disk : Disk, Named disk.directory →
      Named (saves.foldl (fun disk data => hookSaveRetention conf data disk) disk).directory := by
    induction saves with
    | nil => exact fun _ hd => hd
    | cons data saves ih => exact fun disk hd => ih _ (hd.save conf data)
  apply hfold
  intro f j hf
  cases hf

/-- The data that are saved are given back by a load that lists the files as `walk`. -/
def RoundTrip (conf : Conf) (disk : Disk) (data : Data) (walk : List (String × Json)) : Prop :=
  ∃ all, hookLoadRetention conf (walk.map Prod.snd) (hookSaveRetention conf data disk) = .ok (some all) ∧ GivesBack data all

def Restorable (conf : Conf) (data : Data) : Prop :=
  if conf.oneFile then ∀ h, data.hosts.get? h = none else ∀ h, data.hosts.get? h ≠ none → '/' ∉ h.toList

theorem named_files {directory : Dict String Json} (hd : Named directory) {walk : List (String × Json)}
    (hw : walk.Perm directory.entries) : ∃ files : List (String × Fields),
      walk = files.map (fun e => (e.1 ++ ".json", Json.obj e.2)) ∧ (files.map Prod.fst).Nodup ∧
      ∀ e ∈ files, HostFile e.1 e.2 ∧ '/' ∉ e.1.toList := by
  have hall : ∀ x ∈ walk, ∃ e : String × Fields, x = (e.1 ++ ".json", Json.obj e.2) ∧ HostFile e.1 e.2 ∧ '/' ∉ e.1.toList := by
    intro x hx
    obtain ⟨n, fields, hf, hn, hj, hfile⟩ := hd x.1 x.2 (Dict.get?_eq_some.mpr (hw.mem_iff.mp hx))
    exact ⟨(n, fields), Prod.ext hf hj, hfile, hn⟩
  have hlist : ∀ l : List (String × Json), (∀ x ∈ l, x ∈ walk) → ∃ files : List (String × Fields),
      l = files.map (fun e => (e.1 ++ ".json", Json.obj e.2)) ∧ ∀ e ∈ files, HostFile e.1 e.2 ∧ '/' ∉ e.1.toList := by
    intro l
    induction l with
    | nil => exact fun _ => ⟨[], rfl, fun _ he => by cases he⟩
    | cons x l ih =>
      intro hl
      obtain ⟨files, hfiles, hok⟩ := ih fun y hy => hl y (List.mem_cons_of_mem x hy)
      obtain ⟨e, he, hfile⟩ := hall x (hl x List.mem_cons_self)
      refine ⟨e :: files, by rw [List.map_cons, ← he, hfiles], ?_⟩
      intro e' he'
      rcases List.mem_cons.mp he' with rfl | he'
      · exact hfile
      · exact hok e' he'
  obtain ⟨files, hfiles, hok⟩ := hlist walk fun _ hx => hx
  refine ⟨files, hfiles, ?_, hok⟩
  have hkeys : (walk.map Prod.fst).Nodup := (hw.map Prod.fst).nodup_iff.mpr directory.nodup
  rw [hfiles, List.map_map] at hkeys
  apply List.Nodup.of_map (fun n => n ++ ".json")
  rw [List.map_map]
  exact hkeys

theorem roundTrip_hosts (hc : conf.oneFile = false) (hd : Named disk.directory) {walk : List (String × Json)}
    (hw : walk.Perm (hookSaveRetention conf data disk).directory.entries) :
    RoundTrip conf disk data walk ↔ ∀ h, data.hosts.get? h ≠ none → '/' ∉ h.toList := by
  obtain ⟨hosts, hrun, hm⟩ := mergedHosts_ok data
  have hsave : hookSaveRetention conf data disk = { disk with directory := saveHosts conf hosts.entries disk.directory } := by
    simp [hookSaveRetention, hrun, hc]
  have hd' : Named (hookSaveRetention conf data disk).directory := hd.save conf data
  obtain ⟨files, hfiles, hnodup, hok⟩ := named_files hd' hw
  obtain ⟨all, hload, hloaded⟩ := loadFiles_loaded files [] hnodup (fun e he => (hok e he).1) loaded_empty
  rw [List.nil_append] at hloaded
  have hhook : hookLoadRetention conf (walk.map Prod.snd) (hookSaveRetention conf data disk) = .ok (some all) := by
    have hcontents : walk.map Prod.snd = files.map fun e => Json.obj e.2 := by
      rw [hfiles, List.map_map]
      rfl
    simp only [hookLoadRetention, hc, Bool.false_eq_true, if_false, loadFiles, hcontents, hload]
    rfl
  constructor
  · rintro ⟨all', hall', hgives⟩ h hh hslash
    cases hhook.symm.trans hall'
    obtain ⟨saved, hs⟩ := Option.ne_none_iff_exists'.mp hh
    obtain ⟨host, hhost, -⟩ := hgives.hosts h saved hs
    obtain ⟨e, he, hk⟩ := hloaded.hosts (.str h) (by rw [hhost]; exact Option.some_ne_none _)
    cases hk
    exact (hok e he).2 hslash
  · intro hplain
    refine ⟨all, hhook, ?_⟩
    -- the file of a host of the data
    have hfile : ∀ h saved, data.hosts.get? h = some saved → ∃ fields, (h, fields) ∈ files ∧
        Merged h saved (fun s => data.services.get? (h, s)) fields := by
      intro h saved hs
      obtain ⟨fields, hget, hmerged⟩ := hm.of_some hs
      refine ⟨fields, ?_, hmerged⟩
      have hwritten : (h ++ ".json", Json.obj fields) ∈ (hookSaveRetention conf data disk).directory.entries := by
        rw [hsave]
        apply Dict.get?_eq_some.mp
        apply saveHosts_get? conf hosts.nodup disk.directory
        · exact fun e he => hplain e.1 (hm.entry he).2
        · exact Dict.get?_eq_some.mp hget
      rw [← hw.mem_iff, hfiles, List.mem_map] at hwritten
      obtain ⟨e, he, heq⟩ := hwritten
      obtain ⟨hname, hfields⟩ := Prod.mk.inj heq
      rw [Json.obj.injEq] at hfields
      rw [← json_injective hname, ← hfields]
      exact he
    constructor
    · intro h saved hs
      obtain ⟨fields, hin, hmerged⟩ := hfile h saved hs
      refine ⟨_, hloaded.host _ hin, ?_⟩
      intro p hp
      apply hmerged.others
      · rintro rfl
        exact not_retained.1 hp
      · rintro rfl
        exact not_retained.2.1 hp
    · intro h s sfields hs
      obtain ⟨saved, hsaved⟩ := Option.ne_none_iff_exists'.mp (data.hosted h s (by rw [hs]; exact Option.some_ne_none _))
      obtain ⟨fields, hin, hmerged⟩ := hfile h saved hsaved
      obtain ⟨l, hl, hservices⟩ := hmerged.services
      apply hloaded.services _ hin l hl
      rw [hservices, hs]
      rfl

theorem roundTrip_oneFile (hc : conf.oneFile = true) (walk : List (String × Json)) :
    RoundTrip conf disk data walk ↔ ∀ h, data.hosts.get? h = none := by
  obtain ⟨hosts, hrun, hm⟩ := mergedHosts_ok data
  have hhook : hookLoadRetention conf (walk.map Prod.snd) (hookSaveRetention conf data disk) =
      (loadFile AllData.empty (.obj (hosts.mapValues fun _ fields => Json.obj fields).entries)).map some := by
    simp [hookLoadRetention, hookSaveRetention, hrun, hc, loadFiles]
  have hkey : ∀ h, (hosts.mapValues fun _ fields => Json.obj fields).entries.lookup h = (hosts.get? h).map Json.obj :=
    fun h => Dict.lookup_map (fun _ fields => Json.obj fields) hosts.entries h
  unfold RoundTrip
  rw [hhook]
  generalize (hosts.mapValues fun _ fields => Json.obj fields).entries = l at hkey ⊢
  cases hname : hosts.get? "name" with
  | none =>
    have hpassed : loadFile AllData.empty (.obj l) = .ok AllData.empty := by
      have hno : isRetention (asList (.obj l)) = false := by
        show (l.lookup "name").isSome = false
        rw [hkey, hname]
        rfl
      unfold loadFile
      rw [hno]
      rfl
    rw [hpassed]
    constructor
    · rintro ⟨all, hall, hgives⟩ h
      cases hall
      by_contra hne
      obtain ⟨saved, hs⟩ := Option.ne_none_iff_exists'.mp hne
      obtain ⟨host, hhost, -⟩ := hgives.hosts h saved hs
      cases hhost
    · intro hnone
      refine ⟨_, rfl, ?_, ?_⟩
      · intro h saved hs
        rw [hnone] at hs
        cases hs
      · intro h s saved hs
        exact absurd (hnone h) (data.hosted h s (by rw [hs]; exact Option.some_ne_none _))
  | some fields =>
    have hraises : ∃ e, loadFile AllData.empty (.obj l) = .error e := by
      have hitem : (Json.obj l).get? "name" = some (.obj fields) := by
        show l.lookup "name" = _
        rw [hkey, hname]
        rfl
      have hyes : isRetention (asList (.obj l)) = true := by
        show ((Json.obj l).get? "name").isSome = true
        rw [hitem]
        rfl
      unfold loadFile
      rw [if_pos hyes]
      show ∃ e, (loadHost AllData.empty (.obj l) >>= fun all => pure all) = .error e
      unfold loadHost
      rw [Json.item_of_get? hitem]
      -- the name is a dictionary, it is no key
      generalize (if (Json.obj l).has "retention_services" then "retention_services" else "services") = serviceKey
      cases hhas : (Json.obj l).has serviceKey with
      | false => exact ⟨.typeError, by simp [bind, Except.bind, hhas, hash]⟩
      | true =>
        cases hservices : (Json.obj l).item serviceKey with
        | error e => exact ⟨e, by simp [bind, Except.bind, hhas, hservices]⟩
        | ok services =>
          cases hall : loadServices (.obj fields) services AllData.empty with
          | error e => exact ⟨e, by simp [bind, Except.bind, hhas, hservices, hall]⟩
          | ok all => exact ⟨.typeError, by simp [bind, Except.bind, hhas, hservices, hall, hash]⟩
    obtain ⟨e, he⟩ := hraises
    rw [he]
    constructor
    · rintro ⟨all, hall, -⟩
      cases hall
    · intro hnone
      rw [hm.of_none (hnone "name")] at hname
      cases hname

/-- After any saves, a save and a load give the data back if and only if there is a file for
each host and no name of a host has a slash, or there is no host. -/
theorem load_save_iff (conf : Conf) (saves : List Data) (data : Data) {walk : List (String × Json)}
    (hw : walk.Perm (hookSaveRetention conf data (savedDisk conf saves)).directory.entries) :
    RoundTrip conf (savedDisk conf saves) data walk ↔ Restorable conf data := by
  unfold Restorable
  cases hc : conf.oneFile with
  | true => exact roundTrip_oneFile hc walk
  | false => exact roundTrip_hosts hc (named_saved conf saves) hw

end

/-! ## One host -/

def oneHost : Data where
  hosts := Dict.empty.set "localhost" [("state", .str "DOWN")]
  services := Dict.empty.set ("localhost", "disk") [("state", .str "CRITICAL")]
  retained h fields hh p hp := by
    rw [Dict.get?_set] at hh
    split at hh
    · cases hh
      have hstate : p = "state" := by
        by_contra hne
        apply hp
        rw [List.lookup_cons, beq_false_of_ne hne]
        rfl
      rw [hstate]
      decide +kernel
    · cases hh
  hosted h s hs := by
    rw [Dict.get?_set] at hs
    split at hs
    · rename_i he
      cases he
      rw [Dict.get?_set_self]
      exact Option.some_ne_none _
    · exact absurd rfl hs

def hostFiles : Conf := ⟨false, fun _ => false⟩

def schedulerFile : Conf := ⟨true, fun _ => false⟩

theorem load_save_iff_host :
    RoundTrip hostFiles (savedDisk hostFiles []) oneHost
      (hookSaveRetention hostFiles oneHost (savedDisk hostFiles [])).directory.entries ↔ Restorable hostFiles oneHost :=
  load_save_iff hostFiles [] oneHost (List.Perm.refl _)

/-- The file of the scheduler gives nothing back. -/
theorem file_lost : (oneHost.hosts.get? "localhost").isSome = true ∧
    ¬ RoundTrip schedulerFile (savedDisk schedulerFile []) oneHost [] := by
  refine ⟨rfl, ?_⟩
  intro h
  rw [roundTrip_oneFile rfl] at h
  have hnone := h "localhost"
  cases hnone

end Alignak.InnerRetention
