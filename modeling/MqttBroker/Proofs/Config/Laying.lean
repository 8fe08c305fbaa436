import Mathlib.Tactic.Common
import MqttBroker.Config.Layers
import MqttBroker.Proofs.Toml.Document

/-!
What is left of a document that is laid over something: a key that the document has holds the
document's value, laid over what was there, and any other key holds what it held before.
-/
namespace MqttBroker

namespace Toml

mutual

/-- The value with its dates written as texts, if no table stands for a date. -/
def Value.undate : Value → Value
  | .table entries => .table (undateEntries entries)
  | .array items => .array (undateItems items)
  | .datetime text => .string text
  | value => value

def undateEntries : List (String × Value) → List (String × Value)
  | [] => []
  | (key, value) :: rest => (key, value.undate) :: undateEntries rest

def undateItems : List Value → List Value
  | [] => []
  | item :: rest => item.undate :: undateItems rest

end

/-- A key of lower-case letters and underscores. -/
def IsPlain (key : String) : Prop := ∀ c ∈ key.toList, c.isLower ∨ c = '_'

-- The characters of the key are tried, and not all there are.
instance (key : String) : Decidable (IsPlain key) :=
  List.decidableBAll (fun c : Char => c.isLower ∨ c = '_') key.toList

mutual

/-- All keys of the tables in a value, at whatever depth. -/
def Value.keys : Value → List String
  | .table entries => entriesKeys entries
  | .array items => itemsKeys items
  | _ => []

def entriesKeys : List (String × Value) → List String
  | [] => []
  | (key, value) :: rest => key :: (value.keys ++ entriesKeys rest)

def itemsKeys : List Value → List String
  | [] => []
  | item :: rest => item.keys ++ itemsKeys rest

end

def Value.isDate : Value → Bool
  | .datetime _ => true
  | _ => false

/-- Plain keys in every table, and none of them twice. -/
abbrev Value.Tidy : Value → Prop :=
  Tables fun keys => keys.Nodup ∧ ∀ key ∈ keys, IsPlain key

variable {key : String} {v old : Value} {entries : List (String × Value)} {items : List Value}

section tidy

lemma undateEntries_eq_map (entries : List (String × Value)) :
    undateEntries entries = entries.map fun entry => (entry.1, entry.2.undate) := by
  induction entries with
  | nil => rfl
  | cons entry rest ih => rw [undateEntries, ih, List.map_cons]

lemma undateItems_eq_map (items : List Value) : undateItems items = items.map Value.undate := by
  induction items with
  | nil => rfl
  | cons item rest ih => rw [undateItems, ih, List.map_cons]

lemma map_fst_undateEntries (entries : List (String × Value)) :
    (undateEntries entries).map Prod.fst = entries.map Prod.fst := by
  rw [undateEntries_eq_map, List.map_map]
  rfl

lemma lookup_undateEntries (entries : List (String × Value)) (key : String) :
    (undateEntries entries).lookup key = (entries.lookup key).map Value.undate := by
  induction entries with
  | nil => rfl
  | cons entry rest ih =>
    rw [undateEntries, List.lookup_cons, List.lookup_cons, ih]
    split <;> rfl

/-- The keys of tables do not change with the dates. -/
lemma Value.Tables.undate {wanted : List String → Prop} (h : v.Tables wanted) :
    v.undate.Tables wanted := by
  induction h with
  | string text => exact .string text
  | integer n => exact .integer n
  | float x => exact .float x
  | boolean b => exact .boolean b
  | datetime text => exact .string text
  | gap => exact .gap
  | array h ih =>
    refine .array fun item hi => ?_
    rw [undateItems_eq_map] at hi
    obtain ⟨item, hm, rfl⟩ := List.mem_map.mp hi
    exact ih item hm
  | table hk h ih =>
    refine .table (by rwa [map_fst_undateEntries]) fun entry he => ?_
    rw [undateEntries_eq_map] at he
    obtain ⟨entry, hm, rfl⟩ := List.mem_map.mp he
    exact ih entry hm

/-- A key that stands for dates is not plain. -/
lemma dateKey_ne (h : IsPlain key) : key ≠ dateKey := by
  rintro rfl
  exact absurd h (by decide)

lemma undatedTable?_eq (h : ∀ entry ∈ entries, entry.1 ≠ dateKey) :
    undatedTable? entries = (undatedEntries? entries).map .table := by
  cases entries with
  | nil => rfl
  | cons entry rest =>
    obtain ⟨key, value⟩ := entry
    unfold undatedTable?
    rw [if_neg (h (key, value) List.mem_cons_self), undatedEntries?]
    cases value.undated? with
    | none => rfl
    | some value => cases undatedEntries? rest <;> rfl

/-- In a tidy value every date can be written as a text. -/
lemma Value.Tidy.undated (h : v.Tidy) : v.undated? = some v.undate := by
  induction h with
  | @array items h ih =>
    have hitems : undatedItems? items = some (undateItems items) := by
      clear h
      induction items with
      | nil => rfl
      | cons item rest ihrest =>
        obtain ⟨hi, hr⟩ := List.forall_mem_cons.mp ih
        simp [undatedItems?, undateItems, hi, ihrest hr]
    rw [Value.undated?, hitems]
    rfl
  | @table entries hk h ih =>
    have hentries : undatedEntries? entries = some (undateEntries entries) := by
      clear hk h
      induction entries with
      | nil => rfl
      | cons entry rest ihrest =>
        obtain ⟨he, hr⟩ := List.forall_mem_cons.mp ih
        simp [undatedEntries?, undateEntries, he, ihrest hr]
    rw [Value.undated?, undatedTable?_eq fun entry he => dateKey_ne (hk.2 _ (List.mem_map_of_mem he)),
      hentries]
    rfl
  | _ => rfl

lemma mem_itemsKeys {item : Value} (hi : item ∈ items) (hk : key ∈ item.keys) :
    key ∈ itemsKeys items := by
  induction items with
  | nil => cases hi
  | cons first rest ih =>
    obtain rfl | hi := List.mem_cons.mp hi
    · exact List.mem_append_left _ hk
    · exact List.mem_append_right _ (ih hi)

lemma fst_mem_entriesKeys {entry : String × Value} (he : entry ∈ entries) :
    entry.1 ∈ entriesKeys entries := by
  induction entries with
  | nil => cases he
  | cons first rest ih =>
    obtain rfl | he := List.mem_cons.mp he
    · exact List.mem_cons_self
    · exact List.mem_cons_of_mem _ (List.mem_append_right _ (ih he))

lemma mem_entriesKeys {entry : String × Value} (he : entry ∈ entries) (hk : key ∈ entry.2.keys) :
    key ∈ entriesKeys entries := by
  induction entries with
  | nil => cases he
  | cons first rest ih =>
    obtain rfl | he := List.mem_cons.mp he
    · exact List.mem_cons_of_mem _ (List.mem_append_left _ hk)
    · exact List.mem_cons_of_mem _ (List.mem_append_right _ (ih he))

/-- What a document lists is tidy if its keys are plain. -/
lemma Value.Distinct.tidy (h : v.Distinct) (hk : ∀ key ∈ v.keys, IsPlain key) : v.Tidy := by
  induction h with
  | string text => exact .string text
  | integer n => exact .integer n
  | float x => exact .float x
  | boolean b => exact .boolean b
  | datetime text => exact .datetime text
  | gap => exact .gap
  | array h ih => exact .array fun item hi => ih item hi fun key hm => hk key (mem_itemsKeys hi hm)
  | table hn h ih =>
    refine .table ⟨hn, fun key hm => ?_⟩ fun entry he => ih entry he fun key hm => ?_
    · obtain ⟨entry, he, rfl⟩ := List.mem_map.mp hm
      exact hk entry.1 (fst_mem_entriesKeys he)
    · exact hk key (mem_entriesKeys he hm)

end tidy
end Toml

namespace Config
open Toml

/-- What is found where something is given and something lies underneath. -/
inductive Laid (underneath : Option Value) : Option Value → Option Value → Prop
  | given {v old : Value} (hv : v.Tidy) (ho : old = .table [] ∨ underneath = some old) :
    Laid underneath (some v) (some (lay v.undate old))
  | absent {found} (hf : found = none ∨ found = underneath) : Laid underneath none found

variable {key name : String} {v old : Value} {entries before : List (String × Value)}

section plain

lemma lowerCase_of_plain (h : IsPlain key) : lowerCase key = key := by
  have hsame : key.toList.map Char.toLower = key.toList := by
    refine (List.map_congr_left fun c hc => ?_).trans (List.map_id _)
    obtain hl | rfl := h c hc
    · obtain ⟨hlow, -⟩ := Bool.and_eq_true_iff.mp hl
      have hupper : ¬ (c.val ≥ 'A'.val ∧ c.val ≤ 'Z'.val) := fun hu =>
        absurd (UInt32.le_trans (of_decide_eq_true hlow) hu.2) (by decide)
      exact dif_neg hupper
    · rfl
  rw [lowerCase, hsame, String.ofList_toList]

/-- A plain key is the path to itself. -/
lemma keyPath_of_plain (h : IsPlain key) : keyPath key = [.key key] := by
  have hnone : ∀ c, ¬ c.isLower → c ≠ '_' → c ∉ key.toList := fun c hl hc hm =>
    (h c hm).elim hl hc
  have hnames : key.toList.all isNameChar := by
    refine List.all_eq_true.mpr fun c hc => ?_
    obtain hl | rfl := h c hc
    · have halpha : c.isAlpha := Bool.or_eq_true_iff.mpr (.inr hl)
      have halnum : c.isAlphanum := Bool.or_eq_true_iff.mpr (.inl halpha)
      rw [isNameChar, halnum]
      rfl
    · rfl
  have hsteps : namedSteps? key.toList =
      if key.toList.isEmpty then none else some [.key key] := by
    rw [namedSteps?, List.splitOn_eq_singleton (hnone _ (by decide) (by decide))]
    simp only [hnames]
    cases key.toList.isEmpty <;> simp
  rw [keyPath, List.splitOn_eq_singleton (hnone _ (by decide) (by decide)), List.mapM_cons, hsteps]
  cases key.toList.isEmpty <;> rfl

end plain

section tables

lemma lookup_cons_eq_ite (entry : String × Value) (rest : List (String × Value)) (name : String) :
    (entry :: rest).lookup name = if name = entry.1 then some entry.2 else rest.lookup name := by
  rw [List.lookup_cons]
  split
  next he => rw [if_pos (eq_of_beq he)]
  next he => rw [if_neg (ne_of_beq_false he)]

lemma lookup_setKey (key : String) (value : Value) (entries : List (String × Value))
    (name : String) : (setKey key value entries).lookup name =
      if name = key then some value else entries.lookup name := by
  induction entries with
  | nil => exact lookup_cons_eq_ite (key, value) [] name
  | cons entry rest ih =>
    unfold setKey
    by_cases he : entry.1 = key
    · rw [if_pos he, lookup_cons_eq_ite, lookup_cons_eq_ite, he]
      by_cases hn : name = key <;> simp [hn]
    · rw [if_neg he, lookup_cons_eq_ite, lookup_cons_eq_ite, ih]
      by_cases hn : name = entry.1
      · simp [hn, he]
      · simp [hn]

/-- A key that is not there is added at the end. -/
lemma setKey_of_lookup_none (h : entries.lookup key = none) (value : Value) :
    setKey key value entries = entries ++ [(key, value)] := by
  induction entries with
  | nil => rfl
  | cons entry rest ih =>
    rw [lookup_cons_eq_ite] at h
    split at h
    · cases h
    next hne => rw [setKey, if_neg (Ne.symm hne), ih h, List.cons_append]

lemma changeKey_of_plain (h : IsPlain key) (change : Value → Value) (v : Value) :
    changeKey key change v =
      .table (setKey key (change (((entriesOf v).lookup key).getD (.table []))) (entriesOf v)) := by
  rw [changeKey, lowerCase_of_plain h]

/-- Of what lies underneath only the entries are kept. -/
lemma layEntries_of_ne_nil (h : entries ≠ []) (old : Value) :
    layEntries entries old = layEntries entries (.table (entriesOf old)) := by
  cases entries with
  | nil => exact absurd rfl h
  | cons entry rest => rfl

/-- The keys of the entries hold them, laid over what was there, and other keys hold what they
did. -/
lemma lookup_layEntries (hn : (entries.map Prod.fst).Nodup)
    (hp : ∀ key ∈ entries.map Prod.fst, IsPlain key) (before : List (String × Value)) :
    ∃ after, layEntries entries (.table before) = .table after ∧
      ∀ name, after.lookup name = match entries.lookup name with
        | some value => some (lay value ((before.lookup name).getD (.table [])))
        | none => before.lookup name := by
  induction entries generalizing before with
  | nil => exact ⟨before, rfl, fun name => rfl⟩
  | cons entry rest ih =>
    obtain ⟨key, value⟩ := entry
    obtain ⟨hfresh, hn⟩ := List.nodup_cons.mp hn
    obtain ⟨hplain, hp⟩ := List.forall_mem_cons.mp hp
    obtain ⟨after, hlay, hlookup⟩ :=
      ih hn hp (setKey key (lay value ((before.lookup key).getD (.table []))) before)
    refine ⟨after, ?_, fun name => ?_⟩
    · rw [layEntries, changeKey_of_plain hplain]
      exact hlay
    · rw [hlookup, lookup_cons_eq_ite, lookup_setKey]
      by_cases hname : name = key
      · subst hname
        have hnone : rest.lookup name = none := List.lookup_eq_none_iff.mpr fun entry he =>
          bne_iff_ne.mpr fun heq => hfresh (List.mem_map.mpr ⟨entry, he, heq.symm⟩)
        simp [hnone]
      · simp [hname]

/-- Entries with new keys go to the end, if each is itself when it is laid over nothing. -/
lemma layEntries_of_new (hn : (entries.map Prod.fst).Nodup)
    (hp : ∀ key ∈ entries.map Prod.fst, IsPlain key)
    (hnew : ∀ key ∈ entries.map Prod.fst, before.lookup key = none)
    (hself : ∀ entry ∈ entries, lay entry.2 (.table []) = entry.2) :
    layEntries entries (.table before) = .table (before ++ entries) := by
  induction entries generalizing before with
  | nil => rw [layEntries, List.append_nil]
  | cons entry rest ih =>
    obtain ⟨key, value⟩ := entry
    obtain ⟨hfresh, hn⟩ := List.nodup_cons.mp hn
    obtain ⟨hplain, hp⟩ := List.forall_mem_cons.mp hp
    obtain ⟨hnone, hnew⟩ := List.forall_mem_cons.mp hnew
    obtain ⟨hvalue, hself⟩ := List.forall_mem_cons.mp hself
    have hset : changeKey key (lay value) (.table before) = .table (before ++ [(key, value)]) := by
      rw [changeKey_of_plain hplain, entriesOf, hnone, Option.getD_none, hvalue,
        setKey_of_lookup_none hnone]
    rw [layEntries, hset, ih hn hp (fun other ho => ?_) hself, List.append_assoc]
    · rfl
    · rw [List.lookup_append, hnew other ho]
      have hne : other ≠ key := fun heq => hfresh (heq ▸ ho)
      rw [lookup_cons_eq_ite, if_neg hne]
      rfl

/-- Laid over nothing, a tidy value is itself. -/
lemma lay_nothing (h : v.Tidy) : lay v (.table []) = v := by
  induction h with
  | table hk _ ih =>
    rw [lay, layEntries_of_new hk.1 hk.2 (fun _ _ => rfl) ih, List.nil_append]
  | _ => rfl

/-- Keys without dots and brackets are laid one by one. -/
lemma layOver_of_plain (hp : ∀ key ∈ entries.map Prod.fst, IsPlain key) (old : Value) :
    layOver entries old = lay (.table entries) old := by
  rw [lay]
  induction entries generalizing old with
  | nil => rfl
  | cons entry rest ih =>
    obtain ⟨key, value⟩ := entry
    obtain ⟨hplain, hp⟩ := List.forall_mem_cons.mp hp
    have hstep : layAt (keyPath key) value old = changeKey key (lay value) old := by
      rw [keyPath_of_plain hplain]
      rfl
    rw [layOver, List.foldl_cons, hstep, layEntries]
    exact ih hp _

end tables

/-- By its name a part is found in a table only. -/
lemma lookup_entriesOf {under : ℕ → String → Option Value} (hu : parts? old = some under) (i : ℕ)
    (name : String) :
    (entriesOf old).lookup name = none ∨ (entriesOf old).lookup name = under i name := by
  cases old with
  | table entries =>
    cases hu
    exact .inr rfl
  | _ => exact .inl rfl

/-- The parts of a section that is laid over another one. -/
theorem parts_lay (hv : v.Tidy) (hd : v.isDate = false)
    {given under : ℕ → String → Option Value} (hg : parts? v = some given)
    (hu : parts? old = some under) : ∃ found, parts? (lay v.undate old) = some found ∧
      ∀ i name, Laid (under i name) (given i name) (found i name) := by
  cases hv with
  | datetime text => cases hd
  | @array items h =>
    cases hg
    refine ⟨_, rfl, fun i name => ?_⟩
    dsimp only
    rw [undateItems_eq_map, List.getElem?_map]
    cases hi : items[i]? with
    | none => exact .absent (.inl rfl)
    | some item =>
      have ht : item.Tidy := h item (List.mem_of_getElem? hi)
      have hl : Laid (under i name) (some item) _ := .given ht (.inl rfl)
      rw [lay_nothing ht.undate] at hl
      exact hl
  | @table entries hk h =>
    cases hg
    by_cases hempty : entries = []
    · subst hempty
      exact ⟨under, hu, fun i name => .absent (.inr rfl)⟩
    · have hne : undateEntries entries ≠ [] := by
        rw [undateEntries_eq_map]
        simpa using hempty
      rw [← map_fst_undateEntries] at hk
      obtain ⟨after, hlay, hlookup⟩ := lookup_layEntries hk.1 hk.2 (entriesOf old)
      refine ⟨fun _ name => after.lookup name, ?_, fun i name => ?_⟩
      · rw [Value.undate, lay, layEntries_of_ne_nil hne, hlay]
        rfl
      · dsimp only
        rw [hlookup, lookup_undateEntries]
        have hold := lookup_entriesOf hu i name
        cases he : entries.lookup name with
        | none => exact .absent hold
        | some w =>
          obtain ⟨first, last, rfl, -⟩ := List.lookup_eq_some_iff.mp he
          refine .given (h (name, w) (by simp)) ?_
          cases ho : (entriesOf old).lookup name with
          | none => exact .inl rfl
          | some value =>
            rw [ho] at hold
            exact .inr (hold.resolve_left nofun).symm
  | _ => cases hg

end Config
end MqttBroker
