import MqttBroker.Retained
import MqttBroker.Proofs.Table
import MqttBroker.Proofs.Storage.Repository

/-!
What is retained for a topic is what its last change left: in memory always, and in the repository
unless that change could not be written.
-/
namespace MqttBroker

/-- What a stored record and a publish have in common. -/
def StoredMessage.content (stored : StoredMessage) : Nat × Bytes := (stored.qos, stored.payload)

def Publish.content (publish : Publish) : Nat × Bytes := (publish.qos.toNat, publish.payload)

/-- The record of a retained message gives that message back. -/
lemma StoredMessage.toPublish_eq {stored : StoredMessage} {publish : Publish} {topic : String}
    (h : publish.IsRetained topic) (hc : stored.content = publish.content) :
    stored.toPublish topic = publish := by
  obtain ⟨hq, hp⟩ := Prod.mk.inj hc
  obtain ⟨rfl, hr, hd, hi⟩ := h
  cases publish
  simp_all [StoredMessage.toPublish]

namespace RetainedStore
variable {store other : RetainedStore}

section queries

lemma mem_matching {filter : String} {publish : Publish} : publish ∈ store.matching filter ↔
    ∃ topic, store.get? topic = some publish ∧ Topic.topicMatches topic filter = true := by
  simp only [matching, get?, List.mem_map, List.mem_filter, Prod.exists,
    Std.ExtTreeMap.mem_toList_iff_getElem?_eq_some]
  constructor
  · rintro ⟨topic, message, ⟨hm, ht⟩, rfl⟩
    exact ⟨topic, hm, ht⟩
  · rintro ⟨topic, hm, ht⟩
    exact ⟨topic, publish, ⟨hm, ht⟩, rfl⟩

/-- Messages are listed by topic, and none is listed twice. -/
lemma pairwise_matching (store : RetainedStore) (filter : String) :
    (store.matching filter).Pairwise fun publish next => publish.topic < next.topic := by
  rw [matching, List.pairwise_map]
  refine List.Pairwise.filter _ ?_
  refine List.Pairwise.imp_of_mem (fun {entry next} he hn hlt => ?_)
    Std.ExtTreeMap.ordered_keys_toList
  have hkey : ∀ entry ∈ store.messages.toList, entry.2.topic = entry.1 := fun entry he =>
    (store.marked _ _ (Std.ExtTreeMap.mem_toList_iff_getElem?_eq_some.mp he)).topic
  rw [hkey entry he, hkey next hn]
  exact compareOfLessAndEq_eq_lt.mp hlt

/-- The size counts the topics for which something is retained. -/
lemma encard_topics (store : RetainedStore) :
    {topic | store.get? topic ≠ none}.encard = store.size := by
  have ht : {topic | store.get? topic ≠ none} = (store.messages.keys.toFinset : Set String) := by
    ext topic
    simp [get?]
  rw [ht, Set.encard_coe_eq_coe_finsetCard,
    List.toFinset_card_of_nodup Std.ExtTreeMap.nodup_keys, Std.ExtTreeMap.length_keys, size]

end queries

section changes

/-- A request to change what is retained; those that leave a record tell the time. -/
inductive Change where
  | apply (now : Nat) (publish : Publish)
  | set (now : Nat) (publish : Publish) (filled : publish.payload ≠ [])
  | clear (topic : String)

namespace Change

def topic : Change → String
  | apply _ publish | set _ publish _ => publish.topic
  | clear topic => topic

/-- The message that a change leaves for its topic. -/
def left : Change → Option Publish
  | apply _ publish => if publish.payload = [] then none else some publish.asRetained
  | set _ publish _ => some publish.asRetained
  | clear _ => none

/-- What the repository is asked for. -/
def call (change : Change) : RepositoryCall :=
  if change.left.isSome then .save change.topic else .delete change.topic

end Change

/-- The message that the last change of a topic left. -/
def lastLeft (changes : List Change) (topic : String) : Option Publish :=
  (changes.reverse.find? fun change => change.topic == topic).bind Change.left

def perform (store : RetainedStore) : Change → RetainedStore
  | .apply now publish => { store with clock := now }.apply publish
  | .set now publish _ => { store with clock := now }.set publish
  | .clear topic => (store.clear topic).2

def after (store : RetainedStore) (changes : List Change) : RetainedStore :=
  changes.foldl perform store

lemma lastLeft_append (changes : List Change) (change : Change) (topic : String) :
    lastLeft (changes ++ [change]) topic =
      if change.topic = topic then change.left else lastLeft changes topic := by
  rw [lastLeft, List.reverse_append, List.reverse_singleton, List.singleton_append,
    List.find?_cons]
  by_cases h : change.topic = topic
  · simp [h]
  · simp [h, beq_eq_false_iff_ne.mpr h, lastLeft]

/-- A change sets a message that is not empty, or clears its topic. -/
lemma perform_cases (store : RetainedStore) (change : Change) :
    (∃ now publish, publish.topic = change.topic ∧ publish.payload ≠ [] ∧
      change.left = some publish.asRetained ∧
      store.perform change = { store with clock := now }.set publish) ∨
    ∃ now, change.left = none ∧
      store.perform change = ({ store with clock := now }.clear change.topic).2 := by
  cases change with
  | apply now publish =>
    by_cases hp : publish.payload = []
    · exact .inr ⟨now, by simp [Change.left, hp],
        by simp [perform, RetainedStore.apply, hp, Change.topic]⟩
    · exact .inl ⟨now, publish, rfl, hp, by simp [Change.left, hp],
        by simp [perform, RetainedStore.apply, hp]⟩
  | set now publish filled => exact .inl ⟨now, publish, rfl, filled, rfl, rfl⟩
  | clear topic => exact .inr ⟨store.clock, rfl, rfl⟩

/-- What was left is not empty. -/
lemma payload_of_left {change : Change} {publish : Publish} (h : change.left = some publish) :
    publish.payload ≠ [] := by
  obtain ⟨-, kept, -, hp, hl, -⟩ | ⟨-, hl, -⟩ := inMemory.perform_cases change
  · rw [hl] at h
    cases h
    exact hp
  · rw [hl] at h
    cases h

lemma payload_of_lastLeft {changes : List Change} {topic : String} {publish : Publish}
    (h : lastLeft changes topic = some publish) : publish.payload ≠ [] := by
  obtain ⟨change, -, hl⟩ := Option.bind_eq_some_iff.mp h
  exact payload_of_left hl

end changes

section publishes

/-- A repository was told of a publish: by one call, which changes nothing but the record of the
topic, and not even that if it fails. -/
structure Told (publish : Publish) (now : Nat) (repository later : Repository StoredMessage) :
    Prop where
  history : later.history = ⟨(Change.apply now publish).call,
    repository.obstacle (Change.apply now publish).call⟩ :: repository.history
  failure : later.failure = repository.failure
  record : later.records[publish.topic]? =
    if (repository.obstacle (Change.apply now publish).call).isSome then
      repository.records[publish.topic]?
    else if publish.payload = [] then none
    else some ⟨publish.qos.toNat, publish.payload, now⟩
  others : ∀ topic, topic ≠ publish.topic → later.records[topic]? = repository.records[topic]?

/-- A publish became the retained message of its topic, as if it had never been delivered; one
without payload left none.  Other topics are not concerned. -/
structure Retains (publish : Publish) (store next : RetainedStore) : Prop where
  kept : next.get? publish.topic = if publish.payload = [] then none
    else some { publish with retain := true, dup := false, id := none }
  others : ∀ topic, topic ≠ publish.topic → next.get? topic = store.get? topic
  clock : next.clock = store.clock
  told : Option.Rel (Told publish store.clock) store.repository next.repository

variable {publish : Publish}

lemma told_save (hp : publish.payload ≠ []) (now : Nat) (repository : Repository StoredMessage) :
    Told publish now repository (repository.save publish.topic (.ofPublish publish now)).2 := by
  have hc : (Change.apply now publish).call = .save publish.topic := by
    simp [Change.call, Change.left, Change.topic, hp]
  refine ⟨?_, Repository.failure_request _ _ _, ?_, fun topic ht => ?_⟩
  · rw [hc, Repository.save, Repository.request_snd]
  · rw [hc, if_neg hp, Repository.records_save]
    split
    · rfl
    · exact Std.ExtTreeMap.getElem?_insert_self
  · rw [Repository.records_save]
    split
    · rfl
    · simp [Std.ExtTreeMap.getElem?_insert, Ne.symm ht]

lemma told_delete (hp : publish.payload = []) (now : Nat)
    (repository : Repository StoredMessage) :
    Told publish now repository (repository.delete publish.topic).2 := by
  have hc : (Change.apply now publish).call = .delete publish.topic := by
    simp [Change.call, Change.left, Change.topic, hp]
  refine ⟨?_, Repository.failure_request _ _ _, ?_, fun topic ht => ?_⟩
  · rw [hc, Repository.delete, Repository.request_snd]
  · rw [hc, if_pos hp, Repository.records_delete]
    split
    · rfl
    · exact Std.ExtTreeMap.getElem?_erase_self
  · rw [Repository.records_delete]
    split
    · rfl
    · simp [Std.ExtTreeMap.getElem?_erase, Ne.symm ht]

/-- A store tells its repository, if it has one. -/
lemma told_map {change : Repository StoredMessage → Repository StoredMessage} {now : Nat}
    (h : ∀ repository, Told publish now repository (change repository)) :
    Option.Rel (Told publish now) store.repository (store.repository.map change) := by
  cases store.repository with
  | none => exact .none
  | some repository => exact .some (h repository)

theorem retains_apply (store : RetainedStore) (publish : Publish) :
    Retains publish store (store.apply publish) := by
  by_cases hp : publish.payload = []
  · have he : store.apply publish = (store.clear publish.topic).2 := if_pos (by simp [hp])
    rw [he]
    refine ⟨?_, fun topic ht => ?_, rfl, told_map (told_delete hp store.clock)⟩
    · rw [if_pos hp]
      exact Std.ExtTreeMap.getElem?_erase_self
    · exact Std.ExtTreeMap.getElem?_erase.trans (by simp [Ne.symm ht, RetainedStore.get?])
  · have he : store.apply publish = store.set publish := if_neg (by simp [hp])
    rw [he]
    refine ⟨?_, fun topic ht => ?_, rfl, told_map (told_save hp store.clock)⟩
    · rw [if_neg hp]
      exact Std.ExtTreeMap.getElem?_insert_self
    · exact Std.ExtTreeMap.getElem?_insert.trans (by simp [Ne.symm ht, RetainedStore.get?])

end publishes

section opening

lemma getElem?_messagesOf (records : Table StoredMessage) (topic : String) :
    (messagesOf records.toList)[topic]? =
      ((records[topic]?).filter fun stored => !stored.payload.isEmpty).map (·.toPublish topic) := by
  have hd : ((records.toList.filter fun record => !record.2.payload.isEmpty).map fun record =>
      (record.1, record.2.toPublish record.1)).Pairwise fun entry next =>
        ¬ compare entry.1 next.1 = .eq :=
    (Std.ExtTreeMap.distinct_keys_toList.filter _).map _ fun _ _ h => h
  refine Option.ext fun publish => ?_
  rw [messagesOf, Table.getElem?_ofEntries_eq_some hd]
  simp only [List.mem_map, List.mem_filter, Prod.exists, Prod.mk.injEq,
    Std.ExtTreeMap.mem_toList_iff_getElem?_eq_some, Option.map_eq_some_iff,
    Option.filter_eq_some_iff]
  constructor
  · rintro ⟨other, stored, hs, rfl, rfl⟩
    exact ⟨stored, hs, rfl⟩
  · rintro ⟨stored, hs, rfl⟩
    exact ⟨topic, stored, hs, rfl, rfl⟩

/-- A repository that can be read opens as a store with its messages. -/
lemma exists_openOn (repository : Repository StoredMessage)
    (readable : ∀ n, repository.failure n .loadAll = none) :
    ∃ opened, (openOn repository).1 = .ok opened ∧
      opened.messages = messagesOf repository.records.toList ∧
      opened.repository = some repository.loadAll.2 := by
  have ho : repository.obstacle .loadAll = none := readable _
  unfold openOn Repository.loadAll Repository.request
  rw [ho]
  exact ⟨_, rfl, rfl, rfl⟩

end opening

/-- A store and its repository after a list of changes. -/
structure Follows (store : RetainedStore) (repository : Repository StoredMessage)
    (failure : FailureSchedule) (changes : List Change) : Prop where
  kept : store.repository = some repository
  failure : repository.failure = failure
  told : repository.history.reverse.map PastCall.call = .loadAll :: changes.map Change.call
  get? : ∀ topic, store.get? topic = lastLeft changes topic
  mirrored : ∀ topic, ∃ record, repository.Holds topic record ∧
    record.map StoredMessage.content = (lastLeft changes topic).map Publish.content

namespace Follows
variable {repository : Repository StoredMessage} {failure : FailureSchedule}
  {changes : List Change}

lemma opened (hm : store.messages = messagesOf (∅ : Table StoredMessage).toList)
    (hk : store.repository = some (Repository.loadAll ⟨∅, [], failure⟩).2) :
    store.Follows (Repository.loadAll ⟨∅, [], failure⟩).2 failure [] where
  kept := hk
  failure := Repository.failure_request _ _ _
  told := by
    rw [Repository.loadAll, Repository.request_snd]
    rfl
  get? topic := by
    rw [RetainedStore.get?, hm, getElem?_messagesOf]
    simp [lastLeft]
  mirrored topic := by
    refine ⟨none, fun _ => ?_, rfl⟩
    rw [Repository.records_loadAll]
    simp

lemma set (h : store.Follows repository failure changes) {change : Change} {now : Nat}
    {publish : Publish} (ht : publish.topic = change.topic)
    (hl : change.left = some publish.asRetained) :
    ({ store with clock := now }.set publish).Follows
      (repository.save publish.topic (.ofPublish publish now)).2 failure (changes ++ [change]) where
  kept := by simp [RetainedStore.set, h.kept]
  failure := by rw [← h.failure]; exact Repository.failure_request _ _ _
  told := by
    rw [Repository.save, Repository.request_snd]
    simp [h.told, Change.call, hl, ht]
  get? topic := by
    rw [lastLeft_append, ← h.get?, hl, ← ht]
    exact Std.ExtTreeMap.getElem?_insert.trans (by simp [RetainedStore.get?])
  mirrored topic := by
    rw [lastLeft_append, hl]
    by_cases hc : change.topic = topic
    · rw [← ht] at hc
      subst hc
      exact ⟨_, repository.holds_save publish.topic _, by simp [ht, StoredMessage.content,
        StoredMessage.ofPublish, Publish.content, Publish.asRetained]⟩
    · obtain ⟨record, hr, he⟩ := h.mirrored topic
      rw [if_neg hc]
      exact ⟨record, hr.save_of_ne (ht ▸ hc) _, he⟩

lemma clear (h : store.Follows repository failure changes) {change : Change} (now : Nat)
    (hl : change.left = none) :
    ({ store with clock := now }.clear change.topic).2.Follows
      (repository.delete change.topic).2 failure (changes ++ [change]) where
  kept := by simp [RetainedStore.clear, h.kept]
  failure := by rw [← h.failure]; exact Repository.failure_request _ _ _
  told := by
    rw [Repository.delete, Repository.request_snd]
    simp [h.told, Change.call, hl]
  get? topic := by
    rw [lastLeft_append, ← h.get?, hl]
    exact Std.ExtTreeMap.getElem?_erase.trans (by simp [RetainedStore.get?])
  mirrored topic := by
    rw [lastLeft_append, hl]
    by_cases hc : change.topic = topic
    · subst hc
      exact ⟨none, repository.holds_delete _, by simp⟩
    · obtain ⟨record, hr, he⟩ := h.mirrored topic
      rw [if_neg hc]
      exact ⟨record, hr.delete_of_ne hc, he⟩

lemma perform (h : store.Follows repository failure changes) (change : Change) :
    ∃ later, (store.perform change).Follows later failure (changes ++ [change]) := by
  obtain ⟨now, publish, ht, -, hl, he⟩ | ⟨now, hl, he⟩ := store.perform_cases change <;> rw [he]
  · exact ⟨_, h.set ht hl⟩
  · exact ⟨_, h.clear now hl⟩

lemma after (h : store.Follows repository failure []) (changes : List Change) :
    ∃ later, (store.after changes).Follows later failure changes := by
  induction changes using List.reverseRecOn with
  | nil => exact ⟨repository, h⟩
  | append_singleton changes change ih =>
    obtain ⟨later, hl⟩ := ih
    rw [RetainedStore.after, List.foldl_append]
    exact hl.perform change

/-- What is stored and not stale gives the retained message back. -/
lemma getElem?_records (h : store.Follows repository failure changes) {topic : String}
    (hs : ¬ repository.Stale topic) :
    (repository.records[topic]?).map StoredMessage.content =
      (lastLeft changes topic).map Publish.content := by
  obtain ⟨record, hr, he⟩ := h.mirrored topic
  rw [hr hs, he]

/-- Where nothing is stale, a store that is opened on the repository starts with the same
messages. -/
lemma messagesOf_records (h : store.Follows repository failure changes)
    (hs : ∀ topic, ¬ repository.Stale topic) :
    messagesOf repository.records.toList = store.messages := by
  refine Std.ExtTreeMap.ext_getElem? fun topic => ?_
  have hr := h.getElem?_records (hs topic)
  have hg : store.messages[topic]? = lastLeft changes topic := h.get? topic
  rw [getElem?_messagesOf, hg]
  cases hl : lastLeft changes topic with
  | none =>
    rw [hl, Option.map_none, Option.map_eq_none_iff] at hr
    simp [hr]
  | some publish =>
    rw [hl, Option.map_some, Option.map_eq_some_iff] at hr
    obtain ⟨stored, hf, hc⟩ := hr
    have hp : stored.payload ≠ [] := by
      rw [(Prod.mk.inj hc).2]
      exact payload_of_lastLeft hl
    have hk : publish.IsRetained topic := store.marked topic publish (hg.trans hl)
    simp [hf, hp, StoredMessage.toPublish_eq hk hc]

end Follows

/-- Whatever was changed and whichever writes failed, what is retained for a topic is what the last
change of that topic left; it is found under the filters that match its topic, listed by topic, and
counted once.  The repository is told of every change in turn, and holds the same messages but for
topics whose last change it could not write.  Where there are none, a store opened on it is the
same. -/
theorem retained_is_last_left (failure : FailureSchedule)
    (readable : ∀ n, failure n .loadAll = none) (changes : List Change) :
    ∃ opened repository, (openOn ⟨∅, [], failure⟩).1 = .ok opened ∧
      let store := opened.after changes
      store.repository = some repository ∧
      repository.history.reverse.map PastCall.call = .loadAll :: changes.map Change.call ∧
      (∀ topic, store.get? topic = lastLeft changes topic) ∧
      {topic | lastLeft changes topic ≠ none}.encard = store.size ∧
      (∀ filter, (∀ publish, publish ∈ store.matching filter ↔ ∃ topic,
          lastLeft changes topic = some publish ∧ Topic.topicMatches topic filter = true) ∧
        (store.matching filter).Pairwise fun publish next => publish.topic < next.topic) ∧
      (∀ topic, ¬ repository.Stale topic → (repository.records[topic]?).map StoredMessage.content =
        (lastLeft changes topic).map Publish.content) ∧
      ((∀ topic, ¬ repository.Stale topic) → ∃ reopened, (openOn repository).1 = .ok reopened ∧
        reopened.get? = store.get? ∧ reopened.matching = store.matching ∧
        reopened.size = store.size) := by
  obtain ⟨opened, ho, hm, hk⟩ := exists_openOn ⟨∅, [], failure⟩ readable
  obtain ⟨repository, h⟩ := (Follows.opened hm hk).after changes
  have hg : lastLeft changes = (opened.after changes).get? := funext fun topic => (h.get? topic).symm
  refine ⟨opened, repository, ho, h.kept, h.told, h.get?, ?_, fun filter => ⟨fun publish => ?_, ?_⟩,
    fun topic => h.getElem?_records, fun hs => ?_⟩
  · rw [hg]
    exact encard_topics _
  · rw [hg]
    exact mem_matching
  · exact pairwise_matching _ filter
  · obtain ⟨reopened, hr, hm, -⟩ := exists_openOn repository (h.failure ▸ readable)
    rw [h.messagesOf_records hs] at hm
    refine ⟨reopened, hr, ?_, ?_, ?_⟩
    · funext topic
      rw [RetainedStore.get?, hm, RetainedStore.get?]
    · funext filter
      rw [matching, hm, matching]
    · rw [size, hm, size]

/-- The first write fails and the next one of its topic makes up for it; a topic that holds nothing
is cleared all the same. -/
theorem retained_after_failed_write :
    let failure : FailureSchedule := fun n call =>
      if n = 1 ∧ call = .save "a" then some (.write "full") else none
    let changes : List Change := [.set 5 ⟨"a", [1], .atMostOnce, true, false, none⟩ (by decide),
      .clear "b", .apply 6 ⟨"a", [2], .exactlyOnce, false, true, some 9⟩]
    (∀ n, failure n .loadAll = none) ∧
    ∃ opened repository, (openOn ⟨∅, [], failure⟩).1 = .ok opened ∧
      (opened.after changes).repository = some repository ∧
      repository.history.map (fun past => past.error.isSome) = [false, false, true, false] ∧
      (repository.records["a"]?).map StoredMessage.content = some (2, [2]) ∧
      ∃ reopened, (openOn repository).1 = .ok reopened ∧
        reopened.get? "a" = some ⟨"a", [2], .exactlyOnce, true, false, none⟩ := by
  intro failure changes
  have readable : ∀ n, failure n .loadAll = none := fun n => if_neg (by simp)
  obtain ⟨opened, repository, ho, hk, -, hg, -, -, hr, hl⟩ :=
    retained_is_last_left failure readable changes
  have hhistory : ((openOn ⟨∅, [], failure⟩).1.toOption.bind fun opened =>
      (opened.after changes).repository).map (·.history) = some [⟨.save "a", none⟩,
        ⟨.delete "b", none⟩, ⟨.save "a", some (.write "full")⟩, ⟨.loadAll, none⟩] := by
    decide +kernel
  rw [ho] at hhistory
  change ((opened.after changes).repository).map (·.history) = _ at hhistory
  rw [hk] at hhistory
  have hh : repository.history = _ := Option.some.inj hhistory
  have hs : ∀ topic, ¬ repository.Stale topic := by
    rintro topic ⟨past, hp, he⟩
    simp only [Repository.lastWrite?, hh, List.find?_cons, RepositoryCall.writes] at hp
    grind
  obtain ⟨reopened, hopen, he, -⟩ := hl hs
  refine ⟨readable, opened, repository, ho, hk, by rw [hh]; rfl, ?_, reopened, hopen, ?_⟩
  · rw [hr "a" (hs "a")]
    decide +kernel
  · rw [he, hg]
    decide +kernel

end RetainedStore
end MqttBroker
