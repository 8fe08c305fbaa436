import MqttBroker.Config.Loading
import MqttBroker.Proofs.Config.Laying
import MqttBroker.Proofs.Config.Reading

/-!
A document that is read by itself, and one that is laid over the defaults, make the same
configuration: what reads as the default goes on to do so wherever the document is silent.
-/
namespace MqttBroker.Config
open Toml Scalars

variable {v old : Value} {underneath given found : Option Value}

section fields
variable {α : Type} {strict loose : Value → Option α} {absent a : α}

/-- A part that the document has is read as it is by itself, and any other one as the default. -/
lemma Laid.orElse (h : Laid underneath given found)
    (hu : orElse absent loose underneath = some absent)
    (hk : ∀ v old, given = some v → v.Tidy → (old = .table [] ∨ underneath = some old) →
      strict v = some a → loose (lay v.undate old) = some a)
    (hg : Config.orElse absent strict given = some a) :
    Config.orElse absent loose found = some a := by
  cases h with
  | given hv ho => exact hk _ _ rfl hv ho hg
  | absent hf =>
    cases hg
    obtain rfl | rfl := hf
    · rfl
    · exact hu

/-- What lies under a section reads as the default, like nothing at all. -/
lemma loose_of_under (hu : Config.orElse absent loose underneath = some absent)
    (hempty : loose (.table []) = some absent) (ho : old = .table [] ∨ underneath = some old) :
    loose old = some absent := by
  obtain rfl | rfl := ho
  · exact hempty
  · exact hu

lemma bool_lay {b : Bool} (h : exact.bool v = some b) (old : Value) :
    converting.bool (lay v.undate old) = some b := by
  cases v with
  | boolean b => exact h
  | _ => cases h

lemma natural_lay {max n : ℕ} (h : exact.natural max v = some n) (old : Value) :
    converting.natural max (lay v.undate old) = some n := by
  cases v with
  | integer m =>
    obtain ⟨⟨hm, hmax⟩, he⟩ := Option.ite_none_right_eq_some.mp h
    cases he
    have hle : m.toNat ≤ max := by omega
    simp [Value.undate, lay, converting, hm, hle]
  | _ => cases h

lemma text_lay {text : String} (h : exact.text v = some text) (old : Value) :
    converting.text (lay v.undate old) = some text := by
  cases v with
  | string text => exact h
  | _ => cases h

/-- The items of a list are read one by one, and nothing lies under them. -/
lemma listOf_lay {list : List α} (hk : ∀ v a, v.Tidy → strict v = some a → loose v.undate = some a)
    (hv : v.Tidy) (h : listOf strict v = some list) (old : Value) :
    listOf loose (lay v.undate old) = some list := by
  cases hv with
  | @array items ht =>
    change items.mapM strict = some list at h
    change (undateItems items).mapM loose = some list
    induction items generalizing list with
    | nil => exact h
    | cons item rest ih =>
      obtain ⟨hitem, hrest⟩ := List.forall_mem_cons.mp ht
      rw [List.mapM_cons] at h
      obtain ⟨first, hf, h⟩ := Option.bind_eq_some_iff.mp h
      obtain ⟨others, ho, h⟩ := Option.bind_eq_some_iff.mp h
      cases h
      rw [undateItems, List.mapM_cons, hk item first hitem hf, ih hrest ho]
      rfl
  | _ => cases h

variable (h : Laid underneath given found)
include h

lemma Laid.bool {default b : Bool}
    (hu : Config.orElse default converting.bool underneath = some default)
    (hg : Config.orElse default exact.bool given = some b) :
    Config.orElse default converting.bool found = some b :=
  h.orElse hu (fun _ old _ _ _ hb => bool_lay hb old) hg

lemma Laid.natural {max default n : ℕ}
    (hu : Config.orElse default (converting.natural max) underneath = some default)
    (hg : Config.orElse default (exact.natural max) given = some n) :
    Config.orElse default (converting.natural max) found = some n :=
  h.orElse hu (fun _ old _ _ _ hn => natural_lay hn old) hg

lemma Laid.text {default text : String}
    (hu : Config.orElse default converting.text underneath = some default)
    (hg : Config.orElse default exact.text given = some text) :
    Config.orElse default converting.text found = some text :=
  h.orElse hu (fun _ old _ _ _ ht => text_lay ht old) hg

lemma Laid.list {default list : List α}
    (hk : ∀ v a, v.Tidy → strict v = some a → loose v.undate = some a)
    (hu : Config.orElse default (listOf loose) underneath = some default)
    (hg : Config.orElse default (listOf strict) given = some list) :
    Config.orElse default (listOf loose) found = some list :=
  h.orElse hu (fun _ old _ hv _ hl => listOf_lay hk hv hl old) hg

lemma Laid.texts {texts : List String} (hu : converting.texts underneath = some [])
    (hg : exact.texts given = some texts) : converting.texts found = some texts := by
  refine h.list (fun v text hv ht => ?_) hu hg
  have hl := text_lay ht (.table [])
  rwa [lay_nothing hv.undate] at hl

end fields

section sections

/-- Nothing lies under the parts of an item of a list. -/
lemma parts_item (hv : v.Tidy) {part : ℕ → String → Option Value} (hp : parts? v = some part)
    (hd : v.isDate = false) : ∃ found, parts? v.undate = some found ∧
      ∀ i name, Laid none (part i name) (found i name) := by
  obtain ⟨found, hf, hl⟩ := parts_lay hv hd hp (rfl : parts? (.table []) = some _)
  rw [lay_nothing hv.undate] at hf
  exact ⟨found, hf, hl⟩

/-- A text that an item must have. -/
lemma Laid.required (h : Laid none given found) (hg : given = some v) {text : String}
    (ht : exact.text v = some text) :
    ∃ w, found = some w ∧ converting.text w = some text := by
  cases h with
  | @given w old hv ho =>
    cases hg
    exact ⟨_, rfl, text_lay ht old⟩
  | absent => cases hg

lemma Laid.optionalText (h : Laid none given found) {text : Option String}
    (hg : exact.optionalText given = some text) : converting.optionalText found = some text := by
  cases h with
  | @given w old hv ho =>
    cases w with
    | gap | string text => exact hg
    | _ => cases hg
  | absent hf =>
    obtain rfl | rfl := hf <;> exact hg

lemma user_item {user : UserConfig} (hv : v.Tidy) (h : exact.user v = some user) :
    converting.user v.undate = some user := by
  obtain ⟨part, hp, username, hu, hname, hpassword, hhash, hrole⟩ := user_eq_some.mp h
  have hd : v.isDate = false := by
    cases v with
    | datetime text =>
      cases hp
      cases hu
    | _ => rfl
  obtain ⟨found, hf, hl⟩ := parts_item hv hp hd
  obtain ⟨w, hw, hname⟩ := (hl 0 "username").required hu hname
  exact user_eq_some.mpr ⟨found, hf, w, hw, hname, (hl 1 _).optionalText hpassword,
    (hl 2 _).optionalText hhash, (hl 3 _).optionalText hrole⟩

lemma role_item {role : RoleConfig} (hv : v.Tidy) (h : exact.role v = some role) :
    converting.role v.undate = some role := by
  obtain ⟨part, hp, name, hn, hname, hpublish, hsubscribe⟩ := role_eq_some.mp h
  have hd : v.isDate = false := by
    cases v with
    | datetime text =>
      cases hp
      cases hn
    | _ => rfl
  obtain ⟨found, hf, hl⟩ := parts_item hv hp hd
  obtain ⟨w, hw, hname⟩ := (hl 0 "name").required hn hname
  exact role_eq_some.mpr
    ⟨found, hf, w, hw, hname, (hl 1 _).texts rfl hpublish, (hl 2 _).texts rfl hsubscribe⟩

/-- A section reads as it does by itself when it is laid over what reads as the default. -/
structure Survives {α : Type} (read : Scalars → Value → Option α) (default : α) (v : Value) :
    Prop where
  laid {old : Value} {a : α} : read converting old = some default → read exact v = some a →
    read converting (lay v.undate old) = some a

lemma Laid.survives {α : Type} {read : Scalars → Value → Option α} {default a : α}
    (h : Laid underneath given found) (hs : ∀ v, given = some v → v.Tidy → Survives read default v)
    (hempty : read converting (.table []) = some default)
    (hu : Config.orElse default (read converting) underneath = some default)
    (hg : Config.orElse default (read exact) given = some a) :
    Config.orElse default (read converting) found = some a :=
  h.orElse hu (fun v _ hv ht ho ha => (hs v hv ht).laid (loose_of_under hu hempty ho) ha) hg

lemma log_survives (hv : v.Tidy) (hd : v.isDate = false) : Survives Scalars.log {} v := by
  refine ⟨fun ho ha => ?_⟩
  obtain ⟨under, hu, hlevel⟩ := log_eq_some.mp ho
  obtain ⟨part, hp, level⟩ := log_eq_some.mp ha
  obtain ⟨found, hf, hl⟩ := parts_lay hv hd hp hu
  exact log_eq_some.mpr ⟨found, hf, (hl _ _).text hlevel level⟩

lemma admission_survives (hv : v.Tidy) (hd : v.isDate = false) :
    Survives Scalars.admission {} v := by
  refine ⟨fun ho ha => ?_⟩
  obtain ⟨under, hu, hanonymous, hzero, hagain⟩ := admission_eq_some.mp ho
  obtain ⟨part, hp, anonymous, zero, again⟩ := admission_eq_some.mp ha
  obtain ⟨found, hf, hl⟩ := parts_lay hv hd hp hu
  exact admission_eq_some.mpr ⟨found, hf, (hl _ _).bool hanonymous anonymous,
    (hl _ _).bool hzero zero, (hl _ _).bool hagain again⟩

lemma auth_survives (hv : v.Tidy) (hd : v.isDate = false) : Survives Scalars.auth {} v := by
  refine ⟨fun ho ha => ?_⟩
  obtain ⟨under, hu, henabled, hids, husers⟩ := auth_eq_some.mp ho
  obtain ⟨part, hp, enabled, ids, users⟩ := auth_eq_some.mp ha
  obtain ⟨found, hf, hl⟩ := parts_lay hv hd hp hu
  exact auth_eq_some.mpr ⟨found, hf, (hl _ _).bool henabled enabled, (hl _ _).texts hids ids,
    (hl _ _).list (fun _ _ => user_item) husers users⟩

lemma permissions_survives (hv : v.Tidy) (hd : v.isDate = false) :
    Survives Scalars.permissions {} v := by
  refine ⟨fun ho ha => ?_⟩
  obtain ⟨under, hu, hpublish, hsubscribe⟩ := permissions_eq_some.mp ho
  obtain ⟨part, hp, publish, subscribe⟩ := permissions_eq_some.mp ha
  obtain ⟨found, hf, hl⟩ := parts_lay hv hd hp hu
  exact permissions_eq_some.mpr
    ⟨found, hf, (hl _ _).texts hpublish publish, (hl _ _).texts hsubscribe subscribe⟩

lemma acl_survives (hv : v.Tidy) (hd : v.isDate = false)
    (hinner : ∀ part, parts? v = some part → ∀ w, part 2 "default" = some w ∨
      part 3 "anonymous" = some w → w.isDate = false) : Survives Scalars.acl {} v := by
  refine ⟨fun ho ha => ?_⟩
  obtain ⟨under, hu, henabled, hroles, hdefault, hanonymous⟩ := acl_eq_some.mp ho
  obtain ⟨part, hp, enabled, roles, default, anonymous⟩ := acl_eq_some.mp ha
  obtain ⟨found, hf, hl⟩ := parts_lay hv hd hp hu
  exact acl_eq_some.mpr ⟨found, hf, (hl _ _).bool henabled enabled,
    (hl _ _).list (fun _ _ => role_item) hroles roles,
    (hl _ _).survives (fun w hw ht => permissions_survives ht (hinner part hp w (.inl hw))) rfl
      hdefault default,
    (hl _ _).survives (fun w hw ht => permissions_survives ht (hinner part hp w (.inr hw))) rfl
      hanonymous anonymous⟩

lemma mqtt_survives (hv : v.Tidy) (hd : v.isDate = false) : Survives Scalars.mqtt {} v := by
  refine ⟨fun ho ha => ?_⟩
  obtain ⟨under, hu, hqos, hlength, hlevels⟩ := mqtt_eq_some.mp ho
  obtain ⟨part, hp, qos, length, levels⟩ := mqtt_eq_some.mp ha
  obtain ⟨found, hf, hl⟩ := parts_lay hv hd hp hu
  exact mqtt_eq_some.mpr ⟨found, hf, (hl _ _).natural hqos qos, (hl _ _).natural hlength length,
    (hl _ _).natural hlevels levels⟩

lemma session_survives (hv : v.Tidy) (hd : v.isDate = false) : Survives Scalars.session {} v := by
  refine ⟨fun ho ha => ?_⟩
  obtain ⟨under, hu, hqueued⟩ := session_eq_some.mp ho
  obtain ⟨part, hp, queued⟩ := session_eq_some.mp ha
  obtain ⟨found, hf, hl⟩ := parts_lay hv hd hp hu
  exact session_eq_some.mpr ⟨found, hf, (hl _ _).natural hqueued queued⟩

lemma persistence_survives (hv : v.Tidy) (hd : v.isDate = false) :
    Survives Scalars.persistence {} v := by
  refine ⟨fun ho ha => ?_⟩
  obtain ⟨under, hu, henabled, hpath⟩ := persistence_eq_some.mp ho
  obtain ⟨part, hp, enabled, path⟩ := persistence_eq_some.mp ha
  obtain ⟨found, hf, hl⟩ := parts_lay hv hd hp hu
  exact persistence_eq_some.mpr
    ⟨found, hf, (hl _ _).bool henabled enabled, (hl _ _).text hpath path⟩

end sections

section documents
variable {document : List (String × Value)} {environment : Environment} {text : String}
  {config : Config}

/-- The names of the sections. -/
def sectionNames : List String :=
  ["log", "admission", "auth", "acl", "mqtt", "session", "persistence"]

/-- The sections inside the access rules: the rights of everybody and those of clients without a
name. -/
def innerSections (rules : Value) : List Value :=
  match parts? rules with
  | some part => (part 2 "default").toList ++ (part 3 "anonymous").toList
  | none => []

/-- What a document gives for the sections of a configuration. -/
def sections (document : List (String × Value)) : List Value :=
  sectionNames.filterMap (document.lookup ·) ++ (document.lookup "acl").toList.flatMap innerSections

lemma isDate_of_lookup (hd : ∀ part ∈ sections document, part.isDate = false) {name : String}
    (hn : name ∈ sectionNames) (hv : document.lookup name = some v) : v.isDate = false :=
  hd v (List.mem_append_left _ (List.mem_filterMap.mpr ⟨name, hn, hv⟩))

lemma isDate_of_inner (hd : ∀ part ∈ sections document, part.isDate = false)
    (hv : document.lookup "acl" = some v) {part : ℕ → String → Option Value}
    (hp : parts? v = some part) {w : Value}
    (hw : part 2 "default" = some w ∨ part 3 "anonymous" = some w) : w.isDate = false := by
  refine hd w (List.mem_append_right _ (List.mem_flatMap.mpr ⟨v, by simp [hv], ?_⟩))
  simpa [innerSections, hp] using hw

/-- A date is taken for a section without settings. -/
def emptied : Value → Value
  | .datetime _ => .table []
  | v => v

/-- Access rules with no date in the place of a section. -/
def emptiedRules : Value → Value
  | .table entries => .table (entries.map fun entry =>
      (entry.1, if entry.1 = "default" ∨ entry.1 = "anonymous" then emptied entry.2 else entry.2))
  | .array items => .array (items.mapIdx fun i item => if i = 2 ∨ i = 3 then emptied item else item)
  | v => emptied v

/-- A document with no date in the place of a section. -/
def emptiedDocument (document : List (String × Value)) : List (String × Value) :=
  document.map fun entry => (entry.1,
    if entry.1 = "acl" then emptiedRules entry.2
    else if entry.1 ∈ sectionNames then emptied entry.2 else entry.2)

lemma isDate_emptied (v : Value) : (emptied v).isDate = false := by
  cases v <;> rfl

lemma lookup_map (change : String → Value → Value) (entries : List (String × Value))
    (name : String) : (entries.map fun entry => (entry.1, change entry.1 entry.2)).lookup name =
      (entries.lookup name).map (change name) := by
  induction entries with
  | nil => rfl
  | cons entry rest ih =>
    rw [List.map_cons, lookup_cons_eq_ite, lookup_cons_eq_ite, ih]
    split
    next he => rw [he, Option.map_some]
    next => rfl

/-- The parts of the access rules stay, but for dates in the place of sections. -/
lemma parts_emptiedRules (v : Value) (part : ℕ → String → Option Value)
    (hp : parts? v = some part) : ∃ found, parts? (emptiedRules v) = some found ∧
      found 0 "enabled" = part 0 "enabled" ∧ found 1 "roles" = part 1 "roles" ∧
      found 2 "default" = (part 2 "default").map emptied ∧
      found 3 "anonymous" = (part 3 "anonymous").map emptied := by
  cases v with
  | table entries =>
    cases hp
    refine ⟨_, rfl, ?_⟩
    simp only [lookup_map fun name v =>
      if name = "default" ∨ name = "anonymous" then emptied v else v]
    simp
  | array items =>
    cases hp
    refine ⟨_, rfl, ?_⟩
    simp
  | datetime text =>
    cases hp
    exact ⟨_, rfl, rfl, rfl, rfl, rfl⟩
  | _ => cases hp

lemma orElse_map {α : Type} {read : Value → Option α} {change : Value → Value}
    (h : ∀ v, read (change v) = read v) (absent : α) (given : Option Value) :
    orElse absent read (given.map change) = orElse absent read given := by
  cases given with
  | none => rfl
  | some v => exact h v

lemma acl_emptiedRules (v : Value) : exact.acl (emptiedRules v) = exact.acl v := by
  cases hp : parts? v with
  | none =>
    cases v with
    | table | array | datetime => cases hp
    | _ => rfl
  | some part =>
    obtain ⟨found, hf, henabled, hroles, hdefault, hanonymous⟩ := parts_emptiedRules v part hp
    have hpermissions : ∀ v, exact.permissions (emptied v) = exact.permissions v := by
      intro v
      cases v <;> rfl
    unfold Scalars.acl
    rw [hp, hf]
    dsimp only [bind, Option.bind]
    rw [henabled, hroles, hdefault, hanonymous, orElse_map hpermissions, orElse_map hpermissions]

lemma lookup_emptiedDocument (document : List (String × Value)) (name : String)
    (hn : name ∈ sectionNames) : (emptiedDocument document).lookup name =
      (document.lookup name).map (if name = "acl" then emptiedRules else emptied) := by
  rw [emptiedDocument, lookup_map fun name v =>
    if name = "acl" then emptiedRules v else if name ∈ sectionNames then emptied v else v]
  simp only [hn, if_true]
  split <;> rfl

/-- Whoever takes values as they are reads a date as a section without settings. -/
theorem config_emptiedDocument (document : List (String × Value)) :
    exact.config (.table (emptiedDocument document)) = exact.config (.table document) := by
  have hlookup := lookup_emptiedDocument document
  unfold Scalars.config
  dsimp only [parts?, bind, Option.bind]
  rw [hlookup "log" (by decide), hlookup "admission" (by decide), hlookup "auth" (by decide),
    hlookup "acl" (by decide), hlookup "mqtt" (by decide), hlookup "session" (by decide),
    hlookup "persistence" (by decide)]
  simp only [String.reduceEq, if_false, if_true, orElse_map acl_emptiedRules]
  have hsection {α : Type} {read : Value → Option α} (h : ∀ v, read (emptied v) = read v)
      (absent : α) (name : String) :
      orElse absent read ((document.lookup name).map emptied) =
        orElse absent read (document.lookup name) := orElse_map h absent _
  rw [hsection (fun v => by cases v <;> rfl), hsection (fun v => by cases v <;> rfl),
    hsection (fun v => by cases v <;> rfl), hsection (fun v => by cases v <;> rfl),
    hsection (fun v => by cases v <;> rfl), hsection (fun v => by cases v <;> rfl)]

lemma isDate_emptiedRules (v : Value) : (emptiedRules v).isDate = false := by
  cases v <;> rfl

lemma isDate_innerSections (v : Value) :
    ∀ part ∈ innerSections (emptiedRules v), part.isDate = false := by
  intro part hm
  unfold innerSections at hm
  cases hp : parts? v with
  | none =>
    cases v with
    | table | array | datetime => cases hp
    | _ => cases hm
  | some given =>
    obtain ⟨found, hf, -, -, hdefault, hanonymous⟩ := parts_emptiedRules v given hp
    simp only [hf, hdefault, hanonymous, List.mem_append, Option.mem_toList,
      Option.map_eq_some_iff] at hm
    obtain ⟨w, -, rfl⟩ | ⟨w, -, rfl⟩ := hm <;> exact isDate_emptied w

lemma isDate_emptiedDocument (document : List (String × Value)) :
    ∀ part ∈ sections (emptiedDocument document), part.isDate = false := by
  intro part hm
  obtain hm | hm := List.mem_append.mp hm
  · obtain ⟨name, hn, hp⟩ := List.mem_filterMap.mp hm
    rw [lookup_emptiedDocument document _ hn] at hp
    obtain ⟨v, -, rfl⟩ := Option.map_eq_some_iff.mp hp
    split
    · exact isDate_emptiedRules v
    · exact isDate_emptied v
  · obtain ⟨rules, hr, hm⟩ := List.mem_flatMap.mp hm
    rw [lookup_emptiedDocument document _ (by decide), if_pos rfl, Option.mem_toList] at hr
    obtain ⟨v, -, rfl⟩ := Option.map_eq_some_iff.mp hr
    exact isDate_innerSections v part hm

/-- A whole document. -/
theorem config_survives (hv : (Value.table document).Tidy)
    (hd : ∀ part ∈ sections document, part.isDate = false) :
    Survives Scalars.config {} (.table document) := by
  refine ⟨fun ho ha => ?_⟩
  obtain ⟨under, hu, hlog, hadmission, hauth, hacl, hmqtt, hsession, hpersistence⟩ :=
    config_eq_some.mp ho
  obtain ⟨part, hp, log, admission, auth, acl, mqtt, session, persistence⟩ := config_eq_some.mp ha
  obtain ⟨found, hf, hl⟩ := parts_lay hv rfl hp hu
  cases hp
  have hundated {name : String} (hn : name ∈ sectionNames) (v : Value)
      (hv : document.lookup name = some v) : v.isDate = false := isDate_of_lookup hd hn hv
  refine config_eq_some.mpr ⟨found, hf, ?_, ?_, ?_, ?_, ?_, ?_, ?_⟩
  · exact (hl _ _).survives (fun v hv ht => log_survives ht (hundated (by decide) v hv)) rfl hlog log
  · exact (hl _ _).survives (fun v hv ht => admission_survives ht (hundated (by decide) v hv)) rfl
      hadmission admission
  · exact (hl _ _).survives (fun v hv ht => auth_survives ht (hundated (by decide) v hv)) rfl
      hauth auth
  · exact (hl _ _).survives (fun v hv ht => acl_survives ht (hundated (by decide) v hv)
      fun _ hp _ hw => isDate_of_inner hd hv hp hw) rfl hacl acl
  · exact (hl _ _).survives (fun v hv ht => mqtt_survives ht (hundated (by decide) v hv)) rfl
      hmqtt mqtt
  · exact (hl _ _).survives (fun v hv ht => session_survives ht (hundated (by decide) v hv)) rfl
      hsession session
  · exact (hl _ _).survives (fun v hv ht => persistence_survives ht (hundated (by decide) v hv)) rfl
      hpersistence persistence

/-- A document of plain keys is laid over the defaults as it is, but for its dates. -/
lemma bind_layered (hv : (Value.table document).Tidy) (he : environmentLayer environment = []) :
    (documentLayer? document).bind (fun document =>
      converting.config (layered document environment)) =
        converting.config (lay (Value.table document).undate (layOver defaultLayer (.table []))) := by
  have hdocument : documentLayer? document = some (undateEntries document) := by
    rw [documentLayer?, Value.Tidy.undated hv]
    rfl
  have hplain : ∀ key ∈ (undateEntries document).map Prod.fst, IsPlain key := by
    rw [map_fst_undateEntries]
    cases hv with
    | table hk _ => exact hk.2
  rw [hdocument, Option.bind_some, layered, he, layOver_of_plain hplain]
  rfl

/-- A date that became a text is no section. -/
lemma Laid.not_date {α : Type} {read : Value → Option α} {absent a : α} {date : Value}
    (h : Laid underneath given found) (hg : given = some date) (hd : date.isDate = true)
    (hr : ∀ text, read (.string text) = none) : Config.orElse absent read found ≠ some a := by
  subst hg
  cases h with
  | given hv ho =>
    cases date with
    | datetime text =>
      intro ha
      exact Option.some_ne_none _ (ha.symm.trans (hr text))
    | _ => cases hd

/-- No section inside the access rules may be a date where these are laid over the defaults. -/
lemma isDate_of_acl_lay {acl : AclConfig} (hv : v.Tidy) (ho : converting.acl old = some {})
    (ha : converting.acl (lay v.undate old) = some acl) :
    ∀ part ∈ innerSections v, part.isDate = false := by
  intro part hm
  unfold innerSections at hm
  split at hm
  next given hg =>
    have hm : given 2 "default" = some part ∨ given 3 "anonymous" = some part := by simpa using hm
    have hd : v.isDate = false := by
      cases v with
      | datetime text =>
        cases hg
        exact (hm.elim nofun nofun)
      | _ => rfl
    obtain ⟨under, hu, -⟩ := acl_eq_some.mp ho
    obtain ⟨found, hf, hl⟩ := parts_lay hv hd hg hu
    obtain ⟨found', hf', -, -, default, anonymous⟩ := acl_eq_some.mp ha
    cases hf.symm.trans hf'
    rw [Bool.eq_false_iff]
    intro hdate
    obtain hp | hp := hm
    · exact (hl 2 "default").not_date hp hdate (fun _ => rfl) default
    · exact (hl 3 "anonymous").not_date hp hdate (fun _ => rfl) anonymous
  · cases hm

/-- No section may be a date where a document is laid over the defaults. -/
lemma isDate_of_config_lay (hv : (Value.table document).Tidy)
    (ho : converting.config old = some {})
    (hc : converting.config (lay (Value.table document).undate old) = some config) :
    ∀ part ∈ sections document, part.isDate = false := by
  obtain ⟨under, hu, -, -, -, hacl, -⟩ := config_eq_some.mp ho
  obtain ⟨found, hf, hl⟩ := parts_lay hv rfl rfl hu
  obtain ⟨found', hf', log, admission, auth, acl, mqtt, session, persistence⟩ :=
    config_eq_some.mp hc
  cases hf.symm.trans hf'
  intro part hm
  obtain hm | hm := List.mem_append.mp hm
  · rw [Bool.eq_false_iff]
    intro hd
    obtain ⟨name, hn, hp⟩ := List.mem_filterMap.mp hm
    simp only [sectionNames, List.mem_cons, List.not_mem_nil, or_false] at hn
    obtain rfl | rfl | rfl | rfl | rfl | rfl | rfl := hn
    · exact (hl 0 "log").not_date hp hd (fun _ => rfl) log
    · exact (hl 1 "admission").not_date hp hd (fun _ => rfl) admission
    · exact (hl 2 "auth").not_date hp hd (fun _ => rfl) auth
    · exact (hl 3 "acl").not_date hp hd (fun _ => rfl) acl
    · exact (hl 4 "mqtt").not_date hp hd (fun _ => rfl) mqtt
    · exact (hl 5 "session").not_date hp hd (fun _ => rfl) session
    · exact (hl 6 "persistence").not_date hp hd (fun _ => rfl) persistence
  · obtain ⟨rules, hr, hm⟩ := List.mem_flatMap.mp hm
    have hrules : document.lookup "acl" = some rules := by simpa using hr
    have hfound := hl 3 "acl"
    rw [hrules] at hfound
    generalize found 3 "acl" = rest at acl hfound
    cases hfound with
    | given ht hold => exact isDate_of_acl_lay ht (loose_of_under hacl rfl hold) acl part hm

/-- Layers read as the document by itself if no section is a date. -/
theorem config_layered (hv : (Value.table document).Tidy) (he : environmentLayer environment = [])
    (hd : ∀ part ∈ sections document, part.isDate = false)
    (hc : exact.config (.table document) = some config) :
    (documentLayer? document).bind (fun document =>
      converting.config (layered document environment)) = some config := by
  rw [bind_layered hv he]
  exact (config_survives hv hd).laid config_defaultLayer hc

/-- Layers with a date in the place of a section make no configuration. -/
theorem config_layered_dated (hv : (Value.table document).Tidy)
    (he : environmentLayer environment = [])
    (hd : ¬ ∀ part ∈ sections document, part.isDate = false) :
    (documentLayer? document).bind (fun document =>
      converting.config (layered document environment)) = none := by
  rw [bind_layered hv he]
  refine Option.eq_none_iff_forall_ne_some.mpr fun other ho => hd ?_
  exact isDate_of_config_lay hv config_defaultLayer ho

lemma environmentLayer_eq_nil
    (h : ∀ v ∈ environment, ¬ variableStart.isPrefixOf (lowerCase v.1).toList) :
    environmentLayer environment = [] := by
  refine List.filterMap_eq_nil_iff.mpr fun v hv => ?_
  exact if_neg (h v hv)

lemma bounds_of_checked {c : Config} (h : config.checked = .ok c) :
    c.mqtt.maxQos ≤ 2 ∧ 1 ≤ c.session.maxQueuedMessages := by
  unfold checked Config.validate at h
  split at h
  · next hvalid =>
    cases h
    split at hvalid
    · cases hvalid
    · split at hvalid
      · cases hvalid
      · omega
  · cases h

lemma checked_of_parse (h : parse environment text = .ok config) :
    ∃ read : Config, read.checked = .ok config := by
  unfold parse at h
  split at h
  · split at h
    · exact ⟨_, h⟩
    · cases h
  · cases h

lemma checked_of_load {file : Option ByteArray} (h : load environment file = .ok config) :
    ∃ read : Config, read.checked = .ok config := by
  have htext : ∀ text : Option String, loadText environment text = .ok config →
      ∃ read : Config, read.checked = .ok config := by
    intro text h
    unfold loadText at h
    dsimp only at h
    split at h
    · exact ⟨_, h⟩
    · cases h
  unfold load at h
  split at h
  · exact htext _ h
  · split at h
    · exact htext _ h
    · cases h

lemma load_toUTF8 (environment : Environment) (text : String) :
    load environment (some text.toUTF8) = loadText environment (some text) := by
  have hread : String.fromUTF8? text.toUTF8 = some text := dif_pos text.isValidUTF8
  simp only [load, hread]

section agreeing
variable (he : environmentLayer environment = [])
  (ht : Toml.parse? (substituteVariables environment.get? text) = some document)
  (hk : ∀ key ∈ (Value.table document).keys, IsPlain key)
include he ht hk

/-- The layers make of a document what it is by itself, unless it is malformed. -/
lemma load_eq_of_parse (hd : ∀ part ∈ sections document, part.isDate = false)
    (hp : parse environment text ≠ .error .malformed) :
    load environment (some text.toUTF8) = parse environment text := by
  have hv : (Value.table document).Tidy := Value.Distinct.tidy (distinct_of_parse ht) hk
  rw [load_toUTF8]
  unfold parse at hp ⊢
  simp only [ht] at hp ⊢
  cases hc : exact.config (.table document) with
  | none =>
    rw [hc] at hp
    exact absurd rfl hp
  | some config =>
    unfold loadText
    dsimp only
    rw [ht, Option.bind_some, config_layered hv he hd hc]

lemma load_of_dated (hd : ¬ ∀ part ∈ sections document, part.isDate = false) :
    load environment (some text.toUTF8) = .error .refused := by
  have hv : (Value.table document).Tidy := Value.Distinct.tidy (distinct_of_parse ht) hk
  rw [load_toUTF8]
  unfold loadText
  dsimp only
  rw [ht, Option.bind_some, config_layered_dated hv he hd]

end agreeing

/-- Whatever is read keeps to the bounds of QoS and queue.  And where no variable holds a setting and
the keys of a document are plain, a file is loaded as its text is parsed, with the same result and
the same complaint about a setting, unless a section is given as a date: loading refuses that, and
parsing takes it for a section without settings. -/
theorem load_agrees_with_parse :
    (∀ environment text config, parse environment text = .ok config →
      config.mqtt.maxQos ≤ 2 ∧ 1 ≤ config.session.maxQueuedMessages) ∧
    (∀ environment file config, load environment file = .ok config →
      config.mqtt.maxQos ≤ 2 ∧ 1 ≤ config.session.maxQueuedMessages) ∧
    ∀ environment text document,
      (∀ v ∈ environment, ¬ variableStart.isPrefixOf (lowerCase v.1).toList) →
      Toml.parse? (substituteVariables environment.get? text) = some document →
      (∀ key ∈ (Value.table document).keys, IsPlain key) →
      ((∀ part ∈ sections document, part.isDate = false) →
        (∀ config, parse environment text = .ok config →
          load environment (some text.toUTF8) = .ok config) ∧
        ∀ setting, parse environment text = .error (.invalid setting) →
          load environment (some text.toUTF8) = .error (.invalid setting)) ∧
      ((∃ part ∈ sections document, part.isDate = true) →
        load environment (some text.toUTF8) = .error .refused) ∧
      (∀ part ∈ sections (emptiedDocument document), part.isDate = false) ∧
      parse environment text =
        (exact.config (.table (emptiedDocument document))).elim (.error .malformed) checked := by
  refine ⟨fun environment text config h => ?_, fun environment file config h => ?_,
    fun environment text document he ht hk => ?_⟩
  · obtain ⟨read, hc⟩ := checked_of_parse h
    exact bounds_of_checked hc
  · obtain ⟨read, hc⟩ := checked_of_load h
    exact bounds_of_checked hc
  · have he := environmentLayer_eq_nil he
    refine ⟨fun hd => ⟨fun config hp => ?_, fun setting hp => ?_⟩, fun ⟨part, hm, hd⟩ => ?_,
      isDate_emptiedDocument document, ?_⟩
    · rw [load_eq_of_parse he ht hk hd (by rw [hp]; nofun), hp]
    · rw [load_eq_of_parse he ht hk hd (by rw [hp]; nofun), hp]
    · exact load_of_dated he ht hk fun hall => absurd (hall part hm) (by simp [hd])
    · simp only [config_emptiedDocument, parse, ht]
      cases exact.config (.table document) <;> rfl

/-- A section that is partly filled, with a list for which there is no default. -/
theorem load_agrees_with_parse_partly :
    let text := "auth.users = [\x7busername = 'u'\x7d]\n"
    let config : Config := { auth := { users := [{ username := "u" }] } }
    parse [] text = .ok config ∧ load [] (some text.toUTF8) = .ok config := by
  intro text config
  obtain ⟨document, ht, hread⟩ := (Option.any_eq_true _ _).mp
    (by decide +kernel : (Toml.parse? (substituteVariables (Environment.get? []) text)).any
      (fun document => decide ((∀ key ∈ (Value.table document).keys, IsPlain key) ∧
        (∀ part ∈ sections document, part.isDate = false) ∧
        exact.config (.table document) = some config)))
  obtain ⟨hkeys, hsections, hconfig⟩ := of_decide_eq_true hread
  have hp : parse [] text = .ok config := by
    simp only [parse, ht, hconfig]
    rfl
  obtain ⟨hagree, -⟩ := load_agrees_with_parse.2.2 [] text document nofun ht hkeys
  exact ⟨hp, (hagree hsections).1 config hp⟩

/-- A date in the place of a section. -/
theorem load_refuses_dated_section :
    let text := "mqtt = 1979-05-27\n"
    (Toml.parse? (substituteVariables (Environment.get? []) text)).any
        (fun document => (Value.table document).keys = ["mqtt"]) ∧ IsPlain "mqtt" ∧
      parse [] text = .ok {} ∧ load [] (some text.toUTF8) = .error .refused := by
  intro text
  have hplain : IsPlain "mqtt" := by decide
  obtain ⟨document, ht, hread⟩ := (Option.any_eq_true _ _).mp
    (by decide +kernel : (Toml.parse? (substituteVariables (Environment.get? []) text)).any
      (fun document => decide ((Value.table document).keys = ["mqtt"] ∧
        ¬ (∀ part ∈ sections document, part.isDate = false) ∧
        exact.config (.table document) = some {})))
  obtain ⟨hkeys, hsections, hconfig⟩ := of_decide_eq_true hread
  have hp : parse [] text = .ok {} := by
    simp only [parse, ht, hconfig]
    rfl
  refine ⟨?_, hplain, hp, ?_⟩
  · simp [ht, hkeys]
  · exact load_of_dated rfl ht (by simp [hkeys, hplain]) hsections

end documents

end MqttBroker.Config
