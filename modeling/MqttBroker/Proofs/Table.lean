import Mathlib.Tactic
import MqttBroker.Table

/-!
What the bulk operations of a table do to one key.
-/
namespace MqttBroker.Table

variable {α : Type}

lemma getElem?_foldl_insert (entries : List (String × α)) (table : Table α) (key : String) :
    (entries.foldl (fun table entry => table.insert entry.1 entry.2) table)[key]? =
      (ofEntries entries)[key]?.or table[key]? := by
  unfold ofEntries
  induction entries using List.reverseRecOn with
  | nil => simp
  | append_singleton entries entry ih =>
    simp only [List.foldl_append, List.foldl_cons, List.foldl_nil,
      Std.ExtTreeMap.getElem?_insert]
    split
    · rfl
    · exact ih

/-- Of two lists of entries the second one counts. -/
lemma getElem?_ofEntries_cons (entry : String × α) (entries : List (String × α)) (key : String) :
    (ofEntries (entry :: entries))[key]? =
      (ofEntries entries)[key]?.or (if entry.1 = key then some entry.2 else none) := by
  rw [ofEntries, List.foldl_cons, getElem?_foldl_insert]
  simp [Std.ExtTreeMap.getElem?_insert]

/-- Entries of different keys are all found again. -/
lemma getElem?_ofEntries_eq_some {entries : List (String × α)}
    (h : entries.Pairwise fun entry next => ¬ compare entry.1 next.1 = .eq) {key : String}
    {value : α} : (ofEntries entries)[key]? = some value ↔ (key, value) ∈ entries := by
  refine ⟨mem_of_getElem?_ofEntries, fun hm => ?_⟩
  have he : ofEntries entries = Std.ExtTreeMap.ofList entries :=
    Std.ExtTreeMap.ofList_eq_foldl.symm
  rw [he]
  exact Std.ExtTreeMap.getElem?_ofList_of_mem Std.ReflCmp.compare_self h hm

@[simp] lemma ofEntries_toList (table : Table α) : ofEntries table.toList = table := by
  refine Std.ExtTreeMap.ext_getElem? fun key => Option.ext fun value => ?_
  rw [getElem?_ofEntries_eq_some Std.ExtTreeMap.distinct_keys_toList]
  exact Std.ExtTreeMap.mem_toList_iff_getElem?_eq_some

lemma getElem?_eraseAll (table : Table α) (keys : List String) (key : String) :
    (table.eraseAll keys)[key]? = if key ∈ keys then none else table[key]? := by
  unfold eraseAll
  induction keys generalizing table with
  | nil => simp
  | cons first keys ih =>
    rw [List.foldl_cons, ih]
    by_cases h : key = first
    · simp [h]
    · simp [h, Std.ExtTreeMap.getElem?_erase, Ne.symm h]

lemma eraseAll_keys (table : Table α) : table.eraseAll table.keys = ∅ := by
  refine Std.ExtTreeMap.ext_getElem? fun key => ?_
  rw [getElem?_eraseAll]
  split
  next => simp
  next h => simpa using h

end MqttBroker.Table
