import MqttBroker.Proofs.Subscription.Trie
import MqttBroker.Proofs.Table
import MqttBroker.Subscription.Directory

/-!
A directory as a map from (filter, client) pairs to QoS: what each change does to one pair, and
that the size counts the pairs.
-/
namespace MqttBroker.Subscription
open Topic

namespace Directory

/-- The (filter, client) pairs of a directory. -/
def pairs (directory : Directory) : Set (String × ClientId) :=
  {pair | directory.contains pair.1 pair.2}

/-- What every directory satisfies that was built by its own operations. -/
structure WellFormed (directory : Directory) : Prop where
  canonical : directory.trie.Canonical
  /-- Only filters are paths with subscribers. -/
  spelled : ∀ path, directory.trie.find path ≠ ∅ → ∃ filter, filterLevels filter = path
  finite : directory.pairs.Finite
  counted : directory.size = directory.pairs.ncard

variable {directory : Directory}

@[simp] lemma mem_pairs {filter : String} {client : ClientId} :
    (filter, client) ∈ directory.pairs ↔ directory.find? filter client ≠ none := by
  simp [pairs, contains, Option.isSome_iff_ne_none]

@[simp] lemma find?_empty (filter : String) (client : ClientId) :
    empty.find? filter client = none := by simp [find?, empty]

theorem wellFormed_empty : empty.WellFormed where
  canonical := .leaf
  spelled path h := by simp [empty] at h
  finite := by simp [pairs, contains]
  counted := by
    have h : empty.pairs = ∅ := by simp [pairs, contains]
    rw [h, Set.ncard_empty]
    rfl

/-- A change of one filter, seen from every filter. -/
lemma find?_alter (h : directory.trie.Canonical) (change : Subscribers → Subscribers) (size : Nat)
    (filter other : String) (client : ClientId) :
    find? ⟨directory.trie.alter change (filterLevels filter), size⟩ other client =
      if other = filter then (change (directory.trie.find (filterLevels filter)))[client]?
      else directory.find? other client := by
  rw [find?, Trie.find_alter change (filterLevels_ne_nil filter) h]
  simp only [filterLevels_injective.eq_iff]
  split <;> rfl

lemma spelled_alter (h : directory.WellFormed) (change : Subscribers → Subscribers)
    (filter : String) (path : List FilterLevel)
    (hp : (directory.trie.alter change (filterLevels filter)).find path ≠ ∅) :
    ∃ filter, filterLevels filter = path := by
  rw [Trie.find_alter change (filterLevels_ne_nil filter) h.canonical] at hp
  split at hp
  next he => exact ⟨filter, he.symm⟩
  next => exact h.spelled path hp

section add

lemma find?_add (h : directory.WellFormed) (filter other : String) (client someone : ClientId)
    (qos : QoS) :
    (directory.add filter client qos).2.find? other someone =
      if other = filter ∧ someone = client then some qos else directory.find? other someone := by
  rw [add, find?_alter h.canonical]
  by_cases hf : other = filter
  · subst hf
    by_cases hc : someone = client
    · simp [hc]
    · simp [hc, Std.ExtTreeMap.getElem?_insert, Ne.symm hc, find?]
  · simp [hf]

lemma pairs_add (h : directory.WellFormed) (filter : String) (client : ClientId) (qos : QoS) :
    (directory.add filter client qos).2.pairs = insert (filter, client) directory.pairs := by
  ext ⟨other, someone⟩
  rw [mem_pairs, find?_add h, Set.mem_insert_iff, mem_pairs, Prod.mk.injEq]
  split <;> simp_all

theorem WellFormed.add (h : directory.WellFormed) (filter : String) (client : ClientId)
    (qos : QoS) : (directory.add filter client qos).2.WellFormed where
  canonical := Trie.canonical_alter _ _ h.canonical
  spelled := spelled_alter h _ filter
  finite := by
    rw [pairs_add h]
    exact h.finite.insert _
  counted := by
    rw [pairs_add h]
    change (if !directory.contains filter client then _ else _) = _
    cases hc : directory.contains filter client with
    | true => rw [Set.insert_eq_of_mem (by exact hc), if_neg (by simp), h.counted]
    | false =>
      have hn : (filter, client) ∉ directory.pairs := fun hm => by simp [pairs, hc] at hm
      rw [Set.ncard_insert_of_notMem hn h.finite, if_pos (by simp), h.counted]

end add

section remove

lemma find?_remove (h : directory.WellFormed) (filter other : String)
    (client someone : ClientId) :
    (directory.remove filter client).2.find? other someone =
      if other = filter ∧ someone = client then none else directory.find? other someone := by
  unfold remove
  split
  · rw [find?_alter h.canonical]
    by_cases hf : other = filter
    · subst hf
      by_cases hc : someone = client
      · simp [hc]
      · simp [hc, Std.ExtTreeMap.getElem?_erase, Ne.symm hc, find?]
    · simp [hf]
  next hc =>
    split
    next he => simpa [he.1, he.2, contains] using hc
    next => rfl

lemma pairs_remove (h : directory.WellFormed) (filter : String) (client : ClientId) :
    (directory.remove filter client).2.pairs = directory.pairs \ {(filter, client)} := by
  ext ⟨other, someone⟩
  rw [mem_pairs, find?_remove h, Set.mem_sdiff, mem_pairs, Set.mem_singleton_iff, Prod.mk.injEq]
  split <;> simp_all

theorem WellFormed.remove (h : directory.WellFormed) (filter : String) (client : ClientId) :
    (directory.remove filter client).2.WellFormed := by
  have hp := pairs_remove h filter client
  have hfin := h.finite.sdiff (t := {(filter, client)})
  rw [← hp] at hfin
  by_cases hc : directory.contains filter client
  · refine ⟨?_, ?_, hfin, ?_⟩
    · rw [Directory.remove, if_pos hc]
      exact Trie.canonical_alter _ _ h.canonical
    · rw [Directory.remove, if_pos hc]
      exact spelled_alter h _ filter
    · rw [hp, Set.ncard_sdiff_singleton_of_mem (by exact hc), ← h.counted, Directory.remove,
        if_pos hc]
  · rw [Directory.remove, if_neg hc]
    exact h

end remove

section bulk
variable (client someone : ClientId) (filter : String)

theorem WellFormed.addAll (h : directory.WellFormed) (grants : List (String × QoS)) :
    (directory.addAll client grants).WellFormed := by
  unfold Directory.addAll
  induction grants generalizing directory with
  | nil => exact h
  | cons grant grants ih => exact ih (h.add _ _ _)

/-- The last grant for a filter counts. -/
lemma find?_addAll (h : directory.WellFormed) (grants : List (String × QoS)) :
    (directory.addAll client grants).find? filter someone =
      if someone = client then (Table.ofEntries grants)[filter]?.or (directory.find? filter client)
      else directory.find? filter someone := by
  unfold addAll
  induction grants generalizing directory with
  | nil => by_cases hc : someone = client <;> simp [hc, Table.ofEntries]
  | cons grant grants ih =>
    rw [List.foldl_cons, ih (h.add _ _ _), find?_add h, find?_add h,
      Table.getElem?_ofEntries_cons]
    by_cases hc : someone = client
    · by_cases hf : filter = grant.1
      · cases he : (Table.ofEntries grants)[grant.1]? <;> simp [hc, hf, he]
      · simp [hc, hf, Ne.symm hf]
    · simp [hc]

theorem WellFormed.removeAll (h : directory.WellFormed) (filters : List String) :
    (directory.removeAll client filters).2.WellFormed := by
  induction filters generalizing directory with
  | nil => exact h
  | cons filter filters ih => exact ih (h.remove _ _)

lemma find?_removeAll (h : directory.WellFormed) (filters : List String) :
    (directory.removeAll client filters).2.find? filter someone =
      if someone = client ∧ filter ∈ filters then none else directory.find? filter someone := by
  induction filters generalizing directory with
  | nil => simp [removeAll]
  | cons first filters ih =>
    rw [removeAll, ih (h.remove _ _), find?_remove h]
    by_cases hc : someone = client
    · by_cases hf : filter = first <;> simp [hc, hf]
    · simp [hc]

end bulk

end Directory

/-- A request to change a directory. -/
inductive Change where
  | add (filter : String) (client : ClientId) (qos : QoS)
  | remove (filter : String) (client : ClientId)
  | removeAll (client : ClientId) (filters : List String)
  deriving DecidableEq, Repr

/-- The plain map that a directory stands for. -/
abbrev Holdings := String → ClientId → Option QoS

def Holdings.apply (held : Holdings) : Change → Holdings
  | .add filter client qos => fun other someone =>
    if other = filter ∧ someone = client then some qos else held other someone
  | .remove filter client => fun other someone =>
    if other = filter ∧ someone = client then none else held other someone
  | .removeAll client filters => fun other someone =>
    if someone = client ∧ other ∈ filters then none else held other someone

/-- The last QoS added for each pair and not removed since. -/
def Holdings.ofChanges (changes : List Change) : Holdings :=
  changes.foldl Holdings.apply fun _ _ => none

namespace Directory

def apply (directory : Directory) : Change → Directory
  | .add filter client qos => (directory.add filter client qos).2
  | .remove filter client => (directory.remove filter client).2
  | .removeAll client filters => (directory.removeAll client filters).2

def ofChanges (changes : List Change) : Directory := changes.foldl apply empty

variable {directory : Directory}

theorem WellFormed.apply (h : directory.WellFormed) (change : Change) :
    (directory.apply change).WellFormed := by
  cases change with
  | add filter client qos => exact h.add filter client qos
  | remove filter client => exact h.remove filter client
  | removeAll client filters => exact h.removeAll client filters

lemma find?_apply (h : directory.WellFormed) (change : Change) :
    (directory.apply change).find? = Holdings.apply directory.find? change := by
  funext filter client
  cases change with
  | add => exact find?_add h _ _ _ _ _
  | remove => exact find?_remove h _ _ _ _
  | removeAll => exact find?_removeAll _ _ _ h _

theorem wellFormed_ofChanges (changes : List Change) : (ofChanges changes).WellFormed := by
  induction changes using List.reverseRecOn with
  | nil => exact wellFormed_empty
  | append_singleton changes change ih =>
    rw [ofChanges, List.foldl_append]
    exact WellFormed.apply ih change

/-- Every history of changes leaves the directory that stands for its plain map. -/
theorem find?_ofChanges (changes : List Change) :
    (ofChanges changes).find? = Holdings.ofChanges changes := by
  induction changes using List.reverseRecOn with
  | nil =>
    funext filter client
    exact find?_empty filter client
  | append_singleton changes change ih =>
    rw [ofChanges, Holdings.ofChanges, List.foldl_append, List.foldl_append]
    change (Directory.apply (ofChanges changes) change).find? =
      Holdings.apply (.ofChanges changes) change
    rw [find?_apply (wellFormed_ofChanges changes), ih]

end Directory
end MqttBroker.Subscription
