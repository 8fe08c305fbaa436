import Std.Data.ExtTreeMap

/-!
Finite maps from texts, listed in code point order, which is also the order of their UTF-8 bytes.
Two tables with the same entries are equal.
-/
namespace MqttBroker

abbrev Table (α : Type) := Std.ExtTreeMap String α

namespace Table

variable {α β : Type}

/-- Later entries replace earlier ones of the same key. -/
def ofEntries (entries : List (String × α)) : Table α :=
  entries.foldl (fun table entry => table.insert entry.1 entry.2) ∅

theorem mem_of_getElem?_foldl_insert {entries : List (String × α)} {table : Table α}
    {key : String} {value : α}
    (h : (entries.foldl (fun table entry => table.insert entry.1 entry.2) table)[key]? =
      some value) : (key, value) ∈ entries ∨ table[key]? = some value := by
  induction entries generalizing table with
  | nil => exact .inr h
  | cons entry entries ih =>
    rcases ih h with h | h
    · exact .inl (.tail _ h)
    · rw [Std.ExtTreeMap.getElem?_insert] at h
      split at h
      next he =>
        cases h
        cases Std.LawfulEqCmp.eq_of_compare he
        exact .inl (.head _)
      next => exact .inr h

theorem mem_of_getElem?_ofEntries {entries : List (String × α)} {key : String} {value : α}
    (h : (ofEntries entries)[key]? = some value) : (key, value) ∈ entries := by
  rcases mem_of_getElem?_foldl_insert h with h | h
  · exact h
  · simp at h

/-- Remove every key of the list. -/
def eraseAll (table : Table α) (keys : List String) : Table α :=
  keys.foldl (fun table key => table.erase key) table

end Table
end MqttBroker
