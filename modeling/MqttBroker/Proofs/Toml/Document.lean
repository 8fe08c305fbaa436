import Mathlib.Data.List.Nodup
import Mathlib.Tactic.Common
import MqttBroker.Toml.Document

/-!
Tables without repetition: no table that a document holds lists a key twice, at whatever depth and
however the table came to be.
-/
namespace MqttBroker.Toml

namespace Value

/-- The keys of every table are as wanted, at whatever depth. -/
inductive Tables (wanted : List String → Prop) : Value → Prop
  | string (text) : Tables wanted (.string text)
  | integer (n) : Tables wanted (.integer n)
  | float (x) : Tables wanted (.float x)
  | boolean (b) : Tables wanted (.boolean b)
  | datetime (text) : Tables wanted (.datetime text)
  | gap : Tables wanted .gap
  | array {items} (h : ∀ item ∈ items, Tables wanted item) : Tables wanted (.array items)
  | table {entries : List (String × Value)} (hk : wanted (entries.map Prod.fst))
    (h : ∀ entry ∈ entries, Tables wanted entry.2) : Tables wanted (.table entries)

/-- No table lists a key twice. -/
abbrev Distinct : Value → Prop := Tables List.Nodup

end Value

/-- No table of the document under construction lists a key twice. -/
inductive Node.Distinct : Node → Prop
  | value {value : Value} (h : value.Distinct) : Distinct (.value value)
  | table (origin) {entries : List (String × Node)} (hk : (entries.map Prod.fst).Nodup)
    (h : ∀ entry ∈ entries, Distinct entry.2) : Distinct (.table origin entries)
  | tables {items : List (List (String × Node))} (hk : ∀ item ∈ items, (item.map Prod.fst).Nodup)
    (h : ∀ item ∈ items, ∀ entry ∈ item, Distinct entry.2) : Distinct (.tables items)

/-- The same of the entries of one table. -/
structure Entries.Distinct (entries : Entries) : Prop where
  keys : (entries.map Prod.fst).Nodup
  nodes : ∀ entry ∈ entries, entry.2.Distinct

variable {key : String} {node : Node} {entries : Entries} {origin : Origin} {path : List String}
  {text rest : Text} {v : Value} {result : Origin × Entries}

section finishing

lemma entriesToValues_eq_map (entries : List (String × Node)) :
    entriesToValues entries = entries.map fun entry => (entry.1, entry.2.toValue) := by
  induction entries with
  | nil => rfl
  | cons entry rest ih => rw [entriesToValues, ih, List.map_cons]

lemma itemsToValues_eq_map (items : List (List (String × Node))) :
    itemsToValues items = items.map fun entries => .table (entriesToValues entries) := by
  induction items with
  | nil => rfl
  | cons entries rest ih => rw [itemsToValues, ih, List.map_cons]

lemma map_fst_entriesToValues (entries : List (String × Node)) :
    (entriesToValues entries).map Prod.fst = entries.map Prod.fst := by
  rw [entriesToValues_eq_map, List.map_map]
  rfl

/-- A table is finished entry by entry. -/
lemma distinct_entriesToValues (hk : (entries.map Prod.fst).Nodup)
    (h : ∀ entry ∈ entries, entry.2.toValue.Distinct) :
    (Value.table (entriesToValues entries)).Distinct := by
  refine .table (map_fst_entriesToValues entries ▸ hk) fun entry he => ?_
  rw [entriesToValues_eq_map] at he
  obtain ⟨node, hn, rfl⟩ := List.mem_map.mp he
  exact h node hn

/-- What is finished keeps its keys. -/
lemma Node.Distinct.toValue (h : node.Distinct) : node.toValue.Distinct := by
  induction h with
  | value h => exact h
  | table origin hk _ ih => exact distinct_entriesToValues hk ih
  | tables hk _ ih =>
    rw [Node.toValue, itemsToValues_eq_map]
    refine .array fun item hi => ?_
    obtain ⟨entries, he, rfl⟩ := List.mem_map.mp hi
    exact distinct_entriesToValues (hk entries he) (ih entries he)

lemma Entries.Distinct.toValues (h : entries.Distinct) :
    (Value.table (entriesToValues entries)).Distinct :=
  distinct_entriesToValues h.keys fun entry he => (h.nodes entry he).toValue

end finishing

section building

lemma distinct_nil : Entries.Distinct [] := ⟨List.nodup_nil, nofun⟩

lemma Entries.Distinct.table (h : entries.Distinct) (origin : Origin) :
    (Node.table origin entries).Distinct := .table origin h.keys h.nodes

lemma distinct_tables {items : List Entries} (h : ∀ item ∈ items, item.Distinct) :
    (Node.tables items).Distinct :=
  .tables (fun item hi => (h item hi).keys) fun item hi => (h item hi).nodes

lemma Node.Distinct.of_table (h : (Node.table origin entries).Distinct) : entries.Distinct := by
  cases h with
  | table _ hk h => exact ⟨hk, h⟩

lemma Node.Distinct.of_tables {items : List Entries} (h : (Node.tables items).Distinct) :
    ∀ item ∈ items, item.Distinct := by
  cases h with
  | tables hk h => exact fun item hi => ⟨hk item hi, h item hi⟩

lemma Entries.Distinct.lookup (h : entries.Distinct) (hl : entries.lookup key = some node) :
    node.Distinct := by
  obtain ⟨before, after, rfl, -⟩ := List.lookup_eq_some_iff.mp hl
  exact h.nodes _ (List.mem_append_right before List.mem_cons_self)

/-- A key that is new goes to the end. -/
lemma Entries.Distinct.concat (h : entries.Distinct) (hl : entries.lookup key = none)
    (hn : node.Distinct) : Entries.Distinct (entries ++ [(key, node)]) := by
  have hfresh : key ∉ entries.map Prod.fst := by
    intro hm
    obtain ⟨entry, he, rfl⟩ := List.mem_map.mp hm
    exact absurd (List.lookup_eq_none_iff.mp hl entry he) (by simp)
  constructor
  · rw [List.map_append]
    exact List.nodup_append.mpr ⟨h.keys, List.nodup_singleton key, fun other ho last hl => by
      rintro rfl
      cases List.mem_singleton.mp hl
      exact hfresh ho⟩
  · intro entry he
    obtain he | he := List.mem_append.mp he
    · exact h.nodes entry he
    · cases List.mem_singleton.mp he
      exact hn

lemma mem_setEntry {entry : String × Node} (he : entry ∈ setEntry key node entries) :
    entry ∈ entries ∨ entry = (key, node) := by
  induction entries with
  | nil => exact .inr (List.mem_singleton.mp he)
  | cons first rest ih =>
    unfold setEntry at he
    split at he
    · obtain rfl | he := List.mem_cons.mp he
      · exact .inr rfl
      · exact .inl (List.mem_cons_of_mem _ he)
    · obtain rfl | he := List.mem_cons.mp he
      · exact .inl List.mem_cons_self
      · exact (ih he).imp_left (List.mem_cons_of_mem _)

lemma nodup_setEntry (h : (entries.map Prod.fst).Nodup) :
    ((setEntry key node entries).map Prod.fst).Nodup := by
  induction entries with
  | nil => exact List.nodup_singleton key
  | cons first rest ih =>
    obtain ⟨hfirst, hrest⟩ := List.nodup_cons.mp h
    unfold setEntry
    split
    next he => exact List.nodup_cons.mpr ⟨he ▸ hfirst, hrest⟩
    next hne =>
      refine List.nodup_cons.mpr ⟨fun hm => ?_, ih hrest⟩
      obtain ⟨entry, he, hf⟩ := List.mem_map.mp hm
      obtain he | rfl := mem_setEntry he
      · exact hfirst (hf ▸ List.mem_map_of_mem he)
      · exact hne hf.symm

lemma Entries.Distinct.setEntry (h : entries.Distinct) (hn : node.Distinct) :
    Entries.Distinct (setEntry key node entries) := by
  refine ⟨nodup_setEntry h.keys, fun entry he => ?_⟩
  obtain he | rfl := mem_setEntry he
  · exact h.nodes entry he
  · exact hn

/-- A change that keeps one table in order keeps all of them in order. -/
lemma Entries.Distinct.within {change : Origin → Entries → Option (Origin × Entries)}
    (hc : ∀ origin entries result, entries.Distinct → change origin entries = some result →
      result.2.Distinct) (dotted : Bool) (h : entries.Distinct)
    (hr : within dotted change path origin entries = some result) : result.2.Distinct := by
  induction path generalizing origin entries result with
  | nil => exact hc origin entries result h hr
  | cons key path ih =>
    unfold Toml.within at hr
    split at hr
    · obtain ⟨inner, hi, he⟩ := Option.bind_eq_some_iff.mp hr
      cases he
      exact h.setEntry ((ih distinct_nil hi).table _)
    next found inner hl =>
      split at hr
      · cases hr
      · obtain ⟨changed, hi, he⟩ := Option.bind_eq_some_iff.mp hr
        cases he
        exact h.setEntry ((ih (h.lookup hl).of_table hi).table _)
    next items hl =>
      have hitems := (h.lookup hl).of_tables
      split at hr
      · cases hr
      next last earlier hi =>
        obtain rfl : items = earlier.reverse ++ [last] := by
          rw [← List.reverse_cons, ← hi, List.reverse_reverse]
        obtain ⟨changed, hlast, he⟩ := Option.bind_eq_some_iff.mp hr
        cases he
        refine h.setEntry (distinct_tables fun item hm => ?_)
        obtain hm | hm := List.mem_append.mp hm
        · exact hitems item (List.mem_append_left _ hm)
        · cases List.mem_singleton.mp hm
          exact ih (hitems last (by simp)) hlast
    · cases hr

lemma Entries.Distinct.assign (h : entries.Distinct) (hn : node.Distinct)
    (hr : assign path key node origin entries = some result) : result.2.Distinct := by
  refine h.within (fun origin entries result h hr => ?_) true hr
  split at hr
  · cases hr
  next hfree =>
    cases hr
    simp only [Bool.or_eq_true, not_or, Option.isSome_iff_ne_none, not_not] at hfree
    exact h.concat hfree.2 hn

lemma Entries.Distinct.openTable (h : entries.Distinct)
    (hr : openTable key origin entries = some result) : result.2.Distinct := by
  unfold Toml.openTable at hr
  split at hr
  · cases hr
    exact h.setEntry (distinct_nil.table _)
  next inner hl =>
    cases hr
    have hkept : Entries.Distinct (entries.filter (·.1 ≠ key)) :=
      ⟨h.keys.sublist (List.filter_sublist.map _), fun entry he =>
        h.nodes entry (List.mem_of_mem_filter he)⟩
    refine hkept.concat ?_ ((h.lookup hl).of_table.table _)
    refine List.lookup_eq_none_iff.mpr fun entry he => ?_
    have hne : entry.1 ≠ key := of_decide_eq_true (List.mem_filter.mp he).2
    exact bne_iff_ne.mpr hne.symm
  · cases hr

lemma Entries.Distinct.openItem (h : entries.Distinct)
    (hr : openItem key origin entries = some result) : result.2.Distinct := by
  unfold Toml.openItem at hr
  split at hr
  · cases hr
    refine h.setEntry (distinct_tables fun item hi => ?_)
    cases List.mem_singleton.mp hi
    exact distinct_nil
  next items hl =>
    cases hr
    refine h.setEntry (distinct_tables fun item hi => ?_)
    obtain hi | hi := List.mem_append.mp hi
    · exact (h.lookup hl).of_tables item hi
    · cases List.mem_singleton.mp hi
      exact distinct_nil
  · cases hr

end building

section reading

lemma distinct_specialFloat {negative : Bool} (h : specialFloat? negative text = some (v, rest)) :
    v.Distinct := by
  unfold specialFloat? at h
  split at h <;> cases h <;> exact .float _

lemma distinct_basedInteger {base : ℕ} (h : basedInteger? base text = some (v, rest)) :
    v.Distinct := by
  unfold basedInteger? at h
  dsimp only at h
  split at h <;> cases h
  exact .integer _

lemma distinct_decimalNumber (h : decimalNumber? text = some (v, rest)) : v.Distinct := by
  unfold decimalNumber? at h
  dsimp only at h
  split at h
  · exact distinct_specialFloat h
  · obtain ⟨fraction, -, h⟩ := Option.bind_eq_some_iff.mp h
    obtain ⟨exponent, -, h⟩ := Option.bind_eq_some_iff.mp h
    split at h
    · rw [Option.ite_none_right_eq_some] at h
      obtain ⟨-, h⟩ := h
      cases h
      exact .integer _
    · obtain ⟨x, -, h⟩ := Option.bind_eq_some_iff.mp h
      split at h <;> cases h
      exact .float _

lemma distinct_number (h : number? text = some (v, rest)) : v.Distinct := by
  unfold number? at h
  obtain ⟨date, -, h⟩ := Option.bind_eq_some_iff.mp h
  split at h
  · cases h
    exact .datetime _
  · split at h
    · exact distinct_basedInteger h
    · exact distinct_basedInteger h
    · exact distinct_basedInteger h
    · exact distinct_decimalNumber h

lemma distinct_scalarValue (h : scalarValue text = some (v, rest)) : v.Distinct := by
  unfold scalarValue at h
  split at h
  · obtain ⟨string, -, he⟩ := Option.map_eq_some_iff.mp h
    cases he
    exact .string _
  · obtain ⟨string, -, he⟩ := Option.map_eq_some_iff.mp h
    cases he
    exact .string _
  · cases h
    exact .boolean _
  · cases h
    exact .boolean _
  · exact distinct_specialFloat h
  · exact distinct_specialFloat h
  · exact distinct_number h

/-- All values that are read with some fuel list no key twice: single ones, the rest of an array,
and the rest of an inline table. -/
structure ReadsDistinct (fuel : ℕ) : Prop where
  value : ∀ depth text v rest, Toml.value fuel depth text = some (v, rest) → v.Distinct
  array : ∀ depth items text v rest, (∀ item ∈ items, item.Distinct) →
    arrayItems fuel depth items text = some (v, rest) → v.Distinct
  inline : ∀ depth first entries text v rest, Entries.Distinct entries →
    inlineEntries fuel depth first entries text = some (v, rest) → v.Distinct

namespace ReadsDistinct
variable {fuel depth : ℕ}

lemma value_succ (h : ReadsDistinct fuel)
    (hr : Toml.value (fuel + 1) depth text = some (v, rest)) : v.Distinct := by
  unfold Toml.value at hr
  split at hr
  · cases hr
  · cases hr
  · cases hr
  next he =>
    cases he
    exact h.array _ _ _ _ _ (fun _ hm => absurd hm List.not_mem_nil) hr
  next he =>
    cases he
    exact h.inline _ _ _ _ _ _ distinct_nil hr
  · exact distinct_scalarValue hr

lemma array_succ (h : ReadsDistinct fuel) {items : List Value} (hi : ∀ item ∈ items, item.Distinct)
    (hr : arrayItems (fuel + 1) depth items text = some (v, rest)) : v.Distinct := by
  unfold arrayItems at hr
  split at hr
  · cases hr
    exact .array fun item hm => hi item (List.mem_reverse.mp hm)
  · obtain ⟨⟨item, after⟩, hv, hr⟩ := Option.bind_eq_some_iff.mp hr
    have hall : ∀ other ∈ item :: items, other.Distinct :=
      List.forall_mem_cons.mpr ⟨h.value _ _ _ _ hv, hi⟩
    dsimp only at hr
    split at hr
    · exact h.array _ _ _ _ _ hall hr
    · cases hr
      exact .array fun item hm => hall item (List.mem_reverse.mp hm)
    · cases hr

lemma inline_succ (h : ReadsDistinct fuel) {first : Bool} {entries : Entries}
    (he : entries.Distinct)
    (hr : inlineEntries (fuel + 1) depth first entries text = some (v, rest)) : v.Distinct := by
  unfold inlineEntries at hr
  split at hr
  · cases hr
    exact he.toValues
  · obtain ⟨⟨keys, afterKeys⟩, -, hr⟩ := Option.bind_eq_some_iff.mp hr
    dsimp only at hr
    split at hr
    next afterSign =>
      obtain ⟨⟨item, afterItem⟩, hv, hr⟩ := Option.bind_eq_some_iff.mp hr
      obtain ⟨⟨path, key⟩, -, hr⟩ := Option.bind_eq_some_iff.mp hr
      obtain ⟨⟨origin, entries'⟩, ha, hr⟩ := Option.bind_eq_some_iff.mp hr
      have he' : entries'.Distinct := he.assign (.value (h.value _ _ _ _ hv)) ha
      dsimp only at hr
      split at hr
      · exact h.inline _ _ _ _ _ _ he' hr
      · cases hr
        exact he'.toValues
      · cases hr
    · cases hr

end ReadsDistinct

lemma readsDistinct (fuel : ℕ) : ReadsDistinct fuel := by
  induction fuel with
  | zero => exact ⟨by simp [value], by simp [arrayItems], by simp [inlineEntries]⟩
  | succ fuel ih =>
    exact ⟨fun _ _ _ _ => ih.value_succ, fun _ _ _ _ _ => ih.array_succ,
      fun _ _ _ _ _ _ => ih.inline_succ⟩

lemma distinct_header {progress : Progress} {result : Progress × Text}
    (h : progress.root.Distinct) (hr : header progress text = some result) :
    result.1.root.Distinct := by
  have hopen : ∀ (isItem : Bool) key, ∀ origin entries result, Entries.Distinct entries →
      (if isItem then openItem key else openTable key) origin entries = some result →
        result.2.Distinct := by
    intro isItem key origin entries result h hc
    split at hc
    · exact h.openItem hc
    · exact h.openTable hc
  unfold header at hr
  obtain ⟨⟨keys, afterKeys⟩, -, hr⟩ := Option.bind_eq_some_iff.mp hr
  dsimp only at hr
  split at hr
  case h_3 => cases hr
  -- one bracket or two
  all_goals
    obtain ⟨afterBracket, -, hr⟩ := Option.bind_eq_some_iff.mp hr
    obtain ⟨⟨path, key⟩, -, hr⟩ := Option.bind_eq_some_iff.mp hr
    obtain ⟨opened, ho, hr⟩ := Option.bind_eq_some_iff.mp hr
    obtain ⟨afterLine, -, hr⟩ := Option.bind_eq_some_iff.mp hr
    cases hr
    exact h.within (hopen _ key) false ho

lemma distinct_keyValue {progress : Progress} {result : Progress × Text}
    (h : progress.root.Distinct) (hr : keyValue progress text = some result) :
    result.1.root.Distinct := by
  unfold keyValue at hr
  obtain ⟨⟨keys, afterKeys⟩, -, hr⟩ := Option.bind_eq_some_iff.mp hr
  dsimp only at hr
  split at hr
  next afterSign =>
    obtain ⟨⟨item, afterItem⟩, hv, hr⟩ := Option.bind_eq_some_iff.mp hr
    obtain ⟨⟨path, key⟩, -, hr⟩ := Option.bind_eq_some_iff.mp hr
    obtain ⟨assigned, ha, hr⟩ := Option.bind_eq_some_iff.mp hr
    obtain ⟨afterLine, -, hr⟩ := Option.bind_eq_some_iff.mp hr
    cases hr
    have hn := (readsDistinct _).value _ _ _ _ hv
    exact h.within (fun origin entries result h hc => h.assign (.value hn) hc) false ha
  · cases hr

/-- Header by header and key by key. -/
lemma distinct_lines {fuel : ℕ} {progress final : Progress} (h : progress.root.Distinct)
    (hr : lines fuel progress text = some final) : final.root.Distinct := by
  induction fuel generalizing progress text with
  | zero => cases hr
  | succ fuel ih =>
    unfold lines at hr
    split at hr
    · cases hr
      exact h
    · obtain ⟨⟨next, rest⟩, hn, hr⟩ := Option.bind_eq_some_iff.mp hr
      exact ih (distinct_header h hn) hr
    · obtain ⟨⟨next, rest⟩, hn, hr⟩ := Option.bind_eq_some_iff.mp hr
      exact ih (distinct_keyValue h hn) hr

/-- A document lists no key twice. -/
theorem distinct_of_parse {document : String} {entries : List (String × Value)}
    (h : parse? document = some entries) : (Value.table entries).Distinct := by
  unfold parse? at h
  obtain ⟨progress, hl, he⟩ := Option.bind_eq_some_iff.mp h
  cases he
  exact (distinct_lines distinct_nil hl).toValues

end reading
end MqttBroker.Toml
