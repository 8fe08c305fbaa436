import MqttBroker.Proofs.Subscription.Directory

/-!
A directory has one form.  Every node of its tree is on the way to a subscription, so directories
that stand for the same plain map are the same, and what a change reports is what happens to that
map.
-/
namespace MqttBroker.Subscription
open Topic

namespace Trie
variable {s t : Trie}

/-- A branch leads to subscribers: its own, or those further down. -/
lemma exists_find_branch {first : FilterLevel} {here : Subscribers} {below next : Trie}
    (h : (branch first here below next).Canonical) :
    ∃ path, find (first :: path) (branch first here below next) ≠ ∅ := by
  induction below generalizing first here next with
  | leaf =>
    cases h with
    | branch occupied => exact ⟨[], by simpa [find] using occupied⟩
  | branch second found below sibling ihb _ =>
    cases h with
    | branch _ hb _ _ =>
      obtain ⟨path, hf⟩ := ihb hb
      exact ⟨second :: path, by simpa [find] using hf⟩

/-- The nodes are the paths on which, or further down which, there are subscribers. -/
theorem mem_entries (ht : t.Canonical) (above path : List FilterLevel) (here : Subscribers) :
    (path, here) ∈ entries above t ↔ ∃ level rest, path = above ++ level :: rest ∧
      find (level :: rest) t = here ∧ ∃ further, find (level :: rest ++ further) t ≠ ∅ := by
  induction ht generalizing above with
  | leaf => simp [entries]
  | @branch first found below next occupied hb hn after ihb ihn =>
    rw [entries, List.cons_append, List.mem_cons, List.mem_append, ihb, ihn]
    constructor
    · rintro (he | ⟨level, rest, rfl, rfl, further, hf⟩ | ⟨level, rest, rfl, rfl, further, hf⟩)
      · obtain ⟨rfl, rfl⟩ := Prod.mk.inj he
        have hleads := exists_find_branch (.branch occupied hb hn after)
        exact ⟨first, [], rfl, by simp [find], hleads⟩
      · exact ⟨first, level :: rest, by simp, by simp [find], further, by simpa [find] using hf⟩
      · have hne : level ≠ first := by
          rintro rfl
          exact hf (find_of_after hn after _)
        exact ⟨level, rest, rfl, by simp [find, hne], further, by simpa [find, hne] using hf⟩
    · rintro ⟨level, rest, rfl, hh, further, hf⟩
      rw [List.cons_append] at hf
      by_cases hl : level = first
      · subst hl
        cases rest with
        | nil => exact .inl (by simpa [find] using hh.symm)
        | cons second rest =>
          refine .inr (.inl ⟨second, rest, by simp, by simpa [find] using hh, further, ?_⟩)
          simpa [find] using hf
      · rw [find, if_neg hl] at hh hf
        exact .inr (.inr ⟨level, rest, rfl, hh, further, hf⟩)

/-- The first branch of a tree does not come before that of another one which has the same
subscribers on every path. -/
lemma not_before_of_find_eq {first first' : FilterLevel} {here here' : Subscribers}
    {below below' next next' : Trie} (hs : (branch first here below next).Canonical)
    (ht : (branch first' here' below' next').Canonical)
    (h : ∀ path, find path (branch first here below next) =
      find path (branch first' here' below' next')) : compare first first' ≠ .lt := by
  intro hlt
  obtain ⟨path, hf⟩ := exists_find_branch hs
  rw [h, find_of_after ht hlt] at hf
  exact hf rfl

/-- Two trees with the same subscribers on every path are the same. -/
theorem eq_of_find_eq (hs : s.Canonical) (ht : t.Canonical)
    (h : ∀ path, find path s = find path t) : s = t := by
  induction hs generalizing t with
  | leaf =>
    cases ht with
    | leaf => rfl
    | branch occupied hb hn after =>
      obtain ⟨path, hf⟩ := exists_find_branch (.branch occupied hb hn after)
      rw [← h, find_leaf] at hf
      exact absurd rfl hf
  | @branch first here below next occupied hb hn after ihb ihn =>
    have hbranch : (Trie.branch first here below next).Canonical := .branch occupied hb hn after
    cases ht with
    | leaf =>
      obtain ⟨path, hf⟩ := exists_find_branch hbranch
      rw [h, find_leaf] at hf
      exact absurd rfl hf
    | @branch first' here' below' next' occupied' hb' hn' after' =>
      have hbranch' : (Trie.branch first' here' below' next').Canonical :=
        .branch occupied' hb' hn' after'
      have hfirst : first = first' := by
        have hle := not_before_of_find_eq hbranch hbranch' h
        have hge := not_before_of_find_eq hbranch' hbranch fun path => (h path).symm
        cases hc : compare first first' with
        | lt => exact absurd hc hle
        | eq => exact Std.LawfulEqOrd.eq_of_compare hc
        | gt => exact absurd (Std.OrientedCmp.lt_of_gt hc) hge
      subst hfirst
      have hhere : here = here' := by simpa [find] using h [first]
      have hbelow : below = below' := by
        refine ihb hb' fun path => ?_
        cases path with
        | nil => simp
        | cons level path => simpa [find] using h (first :: level :: path)
      have hnext : next = next' := by
        refine ihn hn' fun path => ?_
        cases path with
        | nil => simp
        | cons level path =>
          by_cases hl : level = first
          · rw [hl, find_of_after hn after, find_of_after hn' after']
          · simpa [find, hl] using h (level :: path)
      rw [hhere, hbelow, hnext]

end Trie

namespace Directory
variable {directory other : Directory}

/-- The paths of the nodes below the root. -/
def nodes (directory : Directory) : List (List FilterLevel) :=
  (directory.trie.entries []).map Prod.fst

/-- There is a node for every beginning of a filter that somebody holds, and no other one. -/
theorem mem_nodes (h : directory.WellFormed) (path : List FilterLevel) :
    path ∈ directory.nodes ↔ path ≠ [] ∧ ∃ filter client,
      directory.find? filter client ≠ none ∧ path <+: filterLevels filter := by
  have hm : path ∈ directory.nodes ↔ ∃ here, (path, here) ∈ directory.trie.entries [] := by
    simp [nodes]
  rw [hm]
  simp only [Trie.mem_entries h.canonical, List.nil_append]
  constructor
  · rintro ⟨here, level, rest, rfl, -, further, hf⟩
    obtain ⟨filter, hfilter⟩ := h.spelled _ hf
    refine ⟨by simp, filter, ?_⟩
    obtain ⟨client, hc⟩ : ∃ client, (directory.trie.find (filterLevels filter))[client]? ≠ none := by
      by_contra hn
      push Not at hn
      rw [hfilter] at hn
      exact hf (Std.ExtTreeMap.ext_getElem? fun client => (hn client).trans (by simp))
    exact ⟨client, hc, hfilter ▸ List.prefix_append _ _⟩
  · rintro ⟨hp, filter, client, hc, further, hf⟩
    obtain ⟨level, rest, rfl⟩ := List.exists_cons_of_ne_nil hp
    refine ⟨_, level, rest, rfl, rfl, further, fun he => hc ?_⟩
    rw [find?, ← hf, he]
    simp

/-- Directories that stand for the same map have the same tree and the same size. -/
theorem eq_of_find?_eq (h : directory.WellFormed) (h' : other.WellFormed)
    (he : directory.find? = other.find?) : directory = other := by
  have hfilter : ∀ filter, directory.trie.find (filterLevels filter) =
      other.trie.find (filterLevels filter) := fun filter =>
    Std.ExtTreeMap.ext_getElem? fun client => congrFun (congrFun he filter) client
  have htrie : directory.trie = other.trie := by
    refine Trie.eq_of_find_eq h.canonical h'.canonical fun path => ?_
    by_cases hs : ∃ filter, filterLevels filter = path
    · obtain ⟨filter, rfl⟩ := hs
      exact hfilter filter
    · have hn : directory.trie.find path = ∅ := by
        by_contra hn
        exact hs (h.spelled path hn)
      have hn' : other.trie.find path = ∅ := by
        by_contra hn'
        exact hs (h'.spelled path hn')
      rw [hn, hn']
  have hpairs : directory.pairs = other.pairs := by
    ext ⟨filter, client⟩
    rw [mem_pairs, mem_pairs, he]
  have hsize : directory.size = other.size := by rw [h.counted, h'.counted, hpairs]
  cases directory
  cases other
  exact congrArg₂ mk htrie hsize

/-- Removing reports whether there was something to remove. -/
lemma remove_fst (directory : Directory) (filter : String) (client : ClientId) :
    (directory.remove filter client).1 = directory.contains filter client := by
  rw [remove]
  split
  next hc => exact hc.symm
  next hc => exact (Bool.eq_false_iff.mpr hc).symm

lemma removeAll_cons (directory : Directory) (client : ClientId) (filter : String)
    (filters : List String) :
    (directory.removeAll client (filter :: filters)).1 =
      if (directory.remove filter client).1 then
        ((directory.remove filter client).2.removeAll client filters).1 + 1
      else ((directory.remove filter client).2.removeAll client filters).1 := rfl

/-- A filter that is listed twice is removed once. -/
theorem removeAll_fst (h : directory.WellFormed) (client : ClientId) (filters : List String) :
    (directory.removeAll client filters).1 =
      (filters.toFinset.filter fun filter => directory.contains filter client).card := by
  induction filters generalizing directory with
  | nil => rfl
  | cons first filters ih =>
    set held := filters.toFinset.filter fun filter => directory.contains filter client with hheld
    have hrest : (filters.toFinset.filter fun filter =>
        (directory.remove first client).2.contains filter client) = held.erase first := by
      ext filter
      rw [hheld, Finset.mem_erase, Finset.mem_filter, Finset.mem_filter, contains, contains,
        find?_remove h]
      by_cases hf : filter = first <;> simp [hf]
    rw [removeAll_cons, ih (h.remove _ _), hrest, remove_fst, List.toFinset_cons,
      Finset.filter_insert, ← hheld]
    by_cases hc : directory.contains first client
    · have hins : insert first (held.erase first) = insert first held := by
        ext filter
        by_cases hf : filter = first <;> simp [hf]
      rw [if_pos hc, if_pos hc, ← hins]
      exact (Finset.card_insert_of_notMem (Finset.notMem_erase first held)).symm
    · have hn : first ∉ held := fun hm => hc (Finset.mem_filter.mp hm).2
      rw [if_neg hc, if_neg hc, Finset.erase_eq_of_notMem hn]

end Directory

/-- What is reported of a change. -/
inductive Answer where
  /-- Whether the subscription is a new one. -/
  | added (isNew : Bool)
  /-- Whether there was a subscription to remove. -/
  | removed (wasHeld : Bool)
  /-- How many subscriptions were removed. -/
  | removedAll (count : Nat)
  deriving DecidableEq, Repr

def Directory.answer (directory : Directory) : Change → Answer
  | .add filter client qos => .added (directory.add filter client qos).1
  | .remove filter client => .removed (directory.remove filter client).1
  | .removeAll client filters => .removedAll (directory.removeAll client filters).1

/-- What there is to report of a change of the plain map. -/
def Holdings.answer (held : Holdings) : Change → Answer
  | .add filter client _ => .added (held filter client).isNone
  | .remove filter client => .removed (held filter client).isSome
  | .removeAll client filters =>
    .removedAll (filters.toFinset.filter fun filter => (held filter client).isSome).card

namespace Directory
variable {directory : Directory}

lemma answer_eq (h : directory.WellFormed) (change : Change) :
    directory.answer change = Holdings.answer directory.find? change := by
  cases change with
  | add filter client qos => simp [answer, Holdings.answer, add, contains]
  | remove filter client => exact congrArg Answer.removed (remove_fst directory filter client)
  | removeAll client filters => exact congrArg Answer.removedAll (removeAll_fst h client filters)

lemma encard_pairs (h : directory.WellFormed) :
    {pair : String × ClientId | directory.find? pair.1 pair.2 ≠ none}.encard = directory.size := by
  have hp : {pair : String × ClientId | directory.find? pair.1 pair.2 ≠ none} = directory.pairs := by
    ext ⟨filter, client⟩
    rw [mem_pairs]
    rfl
  rw [hp, h.counted, h.finite.cast_ncard_eq]

lemma size_pos_of_find? (h : directory.WellFormed) {filter : String} {client : ClientId}
    (hf : directory.find? filter client ≠ none) : 0 < directory.size := by
  rw [h.counted, Set.ncard_pos h.finite]
  exact ⟨(filter, client), mem_pairs.mpr hf⟩

/-- Nobody is subscribed to anything exactly if the root has no nodes below it. -/
lemma isEmpty_iff (h : directory.WellFormed) :
    directory.isEmpty = true ↔ directory.trie = .leaf := by
  constructor
  · intro he
    have hz : directory.size = 0 := by simpa [isEmpty] using he
    have hn : ∀ filter client, directory.find? filter client = none := by
      intro filter client
      by_contra hf
      exact absurd (size_pos_of_find? h hf) (by omega)
    refine congrArg Directory.trie (eq_of_find?_eq h wellFormed_empty ?_)
    funext filter client
    rw [hn, find?_empty]
  · intro he
    have hp : directory.pairs = ∅ := by
      ext ⟨filter, client⟩
      simp [find?, he]
    rw [isEmpty, h.counted, hp, Set.ncard_empty]
    rfl

end Directory

/-- Whatever was added and removed, a directory stands for the plain map that its history leaves:
it answers every look-up and every further change as that map does, and counts its pairs, so that
the count is never taken below zero.  Its tree has a node for every beginning of a filter that is
held, and no other one, and depends on the map alone. -/
theorem directory_represents_holdings (changes : List Change) :
    let directory := Directory.ofChanges changes
    let held := Holdings.ofChanges changes
    (∀ filter client, directory.find? filter client = held filter client) ∧
    (∀ change, directory.answer change = held.answer change) ∧
    {pair : String × ClientId | held pair.1 pair.2 ≠ none}.encard = directory.size ∧
    (∀ filter client, held filter client ≠ none → 0 < directory.size) ∧
    (∀ path, path ∈ directory.nodes ↔ path ≠ [] ∧ ∃ filter client,
      held filter client ≠ none ∧ path <+: filterLevels filter) ∧
    (directory.isEmpty = true ↔ directory.trie = .leaf) ∧
    ∀ others, Holdings.ofChanges others = held ↔ Directory.ofChanges others = directory := by
  intro directory held
  have hd : directory.WellFormed := Directory.wellFormed_ofChanges changes
  have hheld : directory.find? = held := Directory.find?_ofChanges changes
  rw [← hheld]
  refine ⟨fun _ _ => rfl, Directory.answer_eq hd, Directory.encard_pairs hd,
    fun _ _ => Directory.size_pos_of_find? hd, Directory.mem_nodes hd, Directory.isEmpty_iff hd,
    fun others => ?_⟩
  rw [← Directory.find?_ofChanges others]
  constructor
  · exact Directory.eq_of_find?_eq (Directory.wellFormed_ofChanges others) hd
  · intro he
    rw [he]

end MqttBroker.Subscription
