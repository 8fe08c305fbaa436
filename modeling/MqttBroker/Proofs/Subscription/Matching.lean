import MqttBroker.Proofs.Protocol.QoS
import MqttBroker.Proofs.Subscription.Directory

/-!
Whom a topic reaches.  The walk through the tree of filters and the comparison of a topic with one
filter decide every valid filter alike, so a directory answers with the clients that hold a
matching filter, each at the highest QoS among its own.
-/
namespace MqttBroker.Subscription
open Topic

/-- What the walk through the tree asks of a filter, also of one that is not valid. -/
def Reaches (topic filter : String) : Prop :=
  MultiLast (filterLevels filter) ∧ levelsMatch (filterLevels filter) (levels topic) ∧
    (isReserved topic → ∀ first ∈ (filterLevels filter).head?, ¬first.isWildcard)

lemma reaches_iff {topic filter : String} (h : validateFilter filter = .ok ()) :
    Reaches topic filter ↔ topicMatches topic filter := by
  have hw := startsWild_iff h
  have hm := multiLast_filterLevels h
  simp only [Reaches, hm, true_and, topicMatches, Bool.and_eq_true, Bool.not_eq_true',
    Bool.and_eq_false_imp]
  rw [and_comm]
  refine and_congr_left fun _ => imp_congr_right fun _ => ?_
  rw [← Bool.not_eq_true, hw]
  push Not
  rfl

namespace Directory
variable {directory : Directory}

/-- One grant for every filter of the client that the topic reaches. -/
lemma mem_collect (h : directory.WellFormed) (topic : String) (client : ClientId) (qos : QoS) :
    (client, qos) ∈ (if isReserved topic then directory.trie.withoutWildcards
        else directory.trie).collect (levels topic) ↔
      ∃ filter, directory.find? filter client = some qos ∧ Reaches topic filter := by
  have hspell : ∀ path, (directory.trie.find path)[client]? = some qos →
      ∃ filter, filterLevels filter = path := by
    intro path hf
    refine h.spelled path fun he => ?_
    simp [he] at hf
  split
  next hr =>
    rw [Trie.mem_collect (Trie.canonical_withoutWildcards h.canonical)]
    constructor
    · rintro ⟨path, hp, hm, hl, hf⟩
      obtain ⟨level, path, rfl⟩ := List.exists_cons_of_ne_nil hp
      rw [Trie.find_withoutWildcards h.canonical] at hf
      split at hf
      · simp at hf
      next hw =>
        obtain ⟨filter, hfilter⟩ := hspell _ hf
        refine ⟨filter, by rw [find?, hfilter, hf], ?_⟩
        simpa [Reaches, hfilter, hm, hl] using fun _ => hw
    · rintro ⟨filter, hf, hm, hl, hw⟩
      refine ⟨filterLevels filter, filterLevels_ne_nil filter, hm, hl, ?_⟩
      obtain ⟨level, path, he⟩ := List.exists_cons_of_ne_nil (filterLevels_ne_nil filter)
      have hlevel := hw hr level (by simp [he])
      rw [he, Trie.find_withoutWildcards h.canonical, if_neg hlevel, ← he]
      exact hf
  next hr =>
    rw [Trie.mem_collect h.canonical]
    constructor
    · rintro ⟨path, _, hm, hl, hf⟩
      obtain ⟨filter, rfl⟩ := hspell path hf
      exact ⟨filter, hf, hm, hl, fun h => absurd h hr⟩
    · rintro ⟨filter, hf, hm, hl, -⟩
      exact ⟨filterLevels filter, filterLevels_ne_nil filter, hm, hl, hf⟩

/-- The QoS of a client's grants. -/
def grantsOf (client : ClientId) (grants : List (ClientId × QoS)) : Set QoS :=
  {qos | (client, qos) ∈ grants}

lemma grantsOf_append_self (client : ClientId) (grants : List (ClientId × QoS)) (qos : QoS) :
    grantsOf client (grants ++ [(client, qos)]) = insert qos (grantsOf client grants) := by
  ext other
  simp [grantsOf, or_comm]

lemma grantsOf_append_other {client someone : ClientId} (hc : someone ≠ client)
    (grants : List (ClientId × QoS)) (qos : QoS) :
    grantsOf client (grants ++ [(someone, qos)]) = grantsOf client grants := by
  ext other
  simp [grantsOf, Ne.symm hc]

/-- The highest QoS among a client's grants is kept. -/
lemma strongest_cases (grants : List (ClientId × QoS)) (client : ClientId) :
    ((strongest grants)[client]? = none ∧ grantsOf client grants = ∅) ∨
      ∃ best, (strongest grants)[client]? = some best ∧
        IsGreatest (grantsOf client grants) best := by
  unfold strongest
  induction grants using List.reverseRecOn with
  | nil => simp [grantsOf]
  | append_singleton grants grant ih =>
    obtain ⟨someone, granted⟩ := grant
    rw [List.foldl_append, List.foldl_cons, List.foldl_nil, Std.ExtTreeMap.getElem?_alter]
    by_cases hc : someone = client
    · subst hc
      rw [grantsOf_append_self, if_pos Std.ReflCmp.compare_self]
      right
      obtain ⟨hb, he⟩ | ⟨best, hb, hg⟩ := ih
      · rw [hb, he, insert_empty_eq]
        exact ⟨granted, rfl, isGreatest_singleton⟩
      · rw [hb]
        exact ⟨max best granted, rfl, max_comm granted best ▸ hg.insert granted⟩
    · rw [grantsOf_append_other hc, if_neg (by simpa using hc)]
      exact ih

lemma getElem?_strongest (grants : List (ClientId × QoS)) (client : ClientId) (qos : QoS) :
    (strongest grants)[client]? = some qos ↔ IsGreatest (grantsOf client grants) qos := by
  obtain ⟨hn, he⟩ | ⟨best, hb, hg⟩ := strongest_cases grants client
  · simp [hn, he, IsGreatest]
  · rw [hb, Option.some.injEq]
    exact ⟨fun h => h ▸ hg, fun h => hg.unique h⟩

/-- Each client that the topic reaches is given the highest QoS among the filters it reaches. -/
theorem matching_eq_some_iff (h : directory.WellFormed) (topic : String) (client : ClientId)
    (qos : QoS) : (directory.matching topic)[client]? = some qos ↔
      IsGreatest {q | ∃ filter, directory.find? filter client = some q ∧ Reaches topic filter}
        qos := by
  rw [matching, getElem?_strongest]
  have hset : grantsOf client ((if isReserved topic then directory.trie.withoutWildcards
      else directory.trie).collect (levels topic)) =
      {q | ∃ filter, directory.find? filter client = some q ∧ Reaches topic filter} := by
    ext q
    exact mem_collect h topic client q
  rw [hset]

theorem mem_matching_iff (h : directory.WellFormed) (topic : String) (client : ClientId) :
    client ∈ directory.matching topic ↔
      ∃ filter, directory.contains filter client ∧ Reaches topic filter := by
  rw [matching]
  obtain ⟨hn, he⟩ | ⟨best, hb, hg⟩ := strongest_cases
    ((if isReserved topic then directory.trie.withoutWildcards
      else directory.trie).collect (levels topic)) client
  · rw [← Std.ExtTreeMap.isSome_getElem?_iff_mem, hn]
    simp only [Option.isSome_none, Bool.false_eq_true, false_iff, not_exists, not_and]
    intro filter hf hr
    obtain ⟨q, hq⟩ := Option.isSome_iff_exists.mp hf
    have hm : q ∈ grantsOf client _ := (mem_collect h topic client q).mpr ⟨filter, hq, hr⟩
    rw [he] at hm
    exact hm
  · rw [← Std.ExtTreeMap.isSome_getElem?_iff_mem, hb]
    obtain ⟨filter, hf, hr⟩ := (mem_collect h topic client best).mp hg.1
    simpa using ⟨filter, by simp [contains, hf], hr⟩

end Directory

/-- Whatever is held was added. -/
lemma Holdings.add_mem_of_held {changes : List Change} {filter : String} {client : ClientId}
    {qos : QoS} (h : Holdings.ofChanges changes filter client = some qos) :
    Change.add filter client qos ∈ changes := by
  induction changes using List.reverseRecOn with
  | nil => simp [Holdings.ofChanges] at h
  | append_singleton changes change ih =>
    rw [Holdings.ofChanges, List.foldl_append] at h
    change Holdings.apply (.ofChanges changes) change filter client = some qos at h
    rw [List.mem_append, List.mem_singleton]
    cases change with
    | add other someone granted =>
      simp only [Holdings.apply] at h
      split at h
      next he =>
        obtain ⟨rfl, rfl⟩ := he
        right
        rw [Option.some.inj h]
      next => exact .inl (ih h)
    | remove other someone =>
      simp only [Holdings.apply] at h
      split at h
      · contradiction
      · exact .inl (ih h)
    | removeAll someone filters =>
      simp only [Holdings.apply] at h
      split at h
      · contradiction
      · exact .inl (ih h)

/-- After any history of changes with valid filters a topic reaches the clients that hold a
matching filter in the plain map, each once and at its highest matching QoS.  In particular a lone
subscription is reached exactly if the topic matches its filter. -/
theorem matching_ofChanges (changes : List Change)
    (valid : ∀ filter client qos, Change.add filter client qos ∈ changes →
      validateFilter filter = .ok ()) (topic : String) :
    let held := Holdings.ofChanges changes
    let reached := ((Directory.ofChanges changes).matching topic).toList
    (reached.map Prod.fst).Nodup ∧
    (∀ client, client ∈ reached.map Prod.fst ↔
      ∃ filter qos, held filter client = some qos ∧ topicMatches topic filter) ∧
    (∀ client qos, (client, qos) ∈ reached ↔
      IsGreatest {q | ∃ filter, held filter client = some q ∧ topicMatches topic filter} qos) ∧
    ∀ filter client qos, validateFilter filter = .ok () →
      (client ∈ (Directory.empty.add filter client qos).2.matching topic ↔
        topicMatches topic filter) := by
  intro held reached
  have hd := Directory.wellFormed_ofChanges changes
  have hheld : (Directory.ofChanges changes).find? = held := Directory.find?_ofChanges changes
  have hreach : ∀ filter client q, held filter client = some q →
      (Reaches topic filter ↔ topicMatches topic filter) := fun filter client q h =>
    reaches_iff (valid filter client q (Holdings.add_mem_of_held h))
  have hkeys : reached.map Prod.fst = ((Directory.ofChanges changes).matching topic).keys :=
    Std.ExtTreeMap.map_fst_toList_eq_keys
  refine ⟨?_, fun client => ?_, fun client qos => ?_, fun filter client qos hv => ?_⟩
  · rw [hkeys]
    exact Std.ExtTreeMap.nodup_keys
  · rw [hkeys, Std.ExtTreeMap.mem_keys, Directory.mem_matching_iff hd]
    simp only [Directory.contains, Option.isSome_iff_exists, hheld]
    constructor
    · rintro ⟨filter, ⟨q, hq⟩, hr⟩
      exact ⟨filter, q, hq, (hreach filter client q hq).mp hr⟩
    · rintro ⟨filter, q, hq, hm⟩
      exact ⟨filter, ⟨q, hq⟩, (hreach filter client q hq).mpr hm⟩
  · have hset : {q | ∃ filter, held filter client = some q ∧ Reaches topic filter} =
        {q | ∃ filter, held filter client = some q ∧ topicMatches topic filter} := by
      ext q
      exact exists_congr fun filter => and_congr_right fun hq => hreach filter client q hq
    rw [Std.ExtTreeMap.mem_toList_iff_getElem?_eq_some, Directory.matching_eq_some_iff hd, hheld,
      hset]
  · rw [Directory.mem_matching_iff (Directory.wellFormed_empty.add filter client qos)]
    simp only [Directory.contains, Directory.find?_add Directory.wellFormed_empty, and_true,
      Directory.find?_empty]
    constructor
    · rintro ⟨other, ho, hr⟩
      split at ho
      next he => exact (reaches_iff hv).mp (he ▸ hr)
      next => simp at ho
    · intro hm
      exact ⟨filter, by simp, (reaches_iff hv).mpr hm⟩

/-- Filters that overlap, one of them replaced and another one removed. -/
theorem matching_ofChanges_overlap :
    let changes := [Change.add "a/#" "x" .atLeastOnce, .add "+" "x" .atMostOnce,
      .add "a" "y" .atLeastOnce, .add "+" "x" .exactlyOnce, .remove "a" "y"]
    (∀ filter client qos, Change.add filter client qos ∈ changes →
      validateFilter filter = .ok ()) ∧
    ("x", QoS.exactlyOnce) ∈ ((Directory.ofChanges changes).matching "a").toList ∧
    "y" ∉ ((Directory.ofChanges changes).matching "a").toList.map Prod.fst := by
  intro changes
  have valid : ∀ filter client qos, Change.add filter client qos ∈ changes →
      validateFilter filter = .ok () := by
    intro filter client qos h
    simp only [changes, List.mem_cons, Change.add.injEq, List.not_mem_nil, reduceCtorEq,
      or_false] at h
    rcases h with ⟨rfl, -⟩ | ⟨rfl, -⟩ | ⟨rfl, -⟩ | ⟨rfl, -⟩ <;> decide
  obtain ⟨-, hclients, hpairs, -⟩ := matching_ofChanges changes valid "a"
  refine ⟨valid, (hpairs "x" .exactlyOnce).mpr ⟨⟨"+", ?_, ?_⟩, fun q _ => QoS.toNat_le q⟩, ?_⟩
  · simp [changes, Holdings.ofChanges, Holdings.apply]
  · decide
  · rw [hclients]
    rintro ⟨filter, qos, h, -⟩
    simp [changes, Holdings.ofChanges, Holdings.apply] at h
    grind

end MqttBroker.Subscription
