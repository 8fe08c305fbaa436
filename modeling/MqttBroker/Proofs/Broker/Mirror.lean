import MqttBroker.Proofs.Broker.Invariant
import MqttBroker.Proofs.Subscription.Matching

/-!
The directory mirrors the subscriptions of the sessions, whatever a broker is asked to do.
-/
namespace MqttBroker.Broker
open Subscription

/-- The QoS that the session of a client holds for a filter. -/
def held? (b : Broker) (filter : String) (id : ClientId) : Option QoS :=
  (b.session? id).bind (·.subscriptions[filter]?)

structure Mirrored (b : Broker) : Prop where
  wellFormed : b.directory.WellFormed
  routed : ∀ filter id, b.directory.find? filter id = b.held? filter id
  attached : ∀ id session, b.session? id = some session → session.attached

variable {b b' : Broker} {id : ClientId} {session : Session}

namespace Mirrored

/-- Only the directory and the sessions matter. -/
lemma congr (h : b.Mirrored) (hd : b'.directory = b.directory)
    (hs : ∀ id, b'.session? id = b.session? id) : b'.Mirrored where
  wellFormed := by
    rw [hd]
    exact h.wellFormed
  routed filter id := by rw [hd, held?, hs, h.routed, held?]
  attached id session := by
    rw [hs]
    exact h.attached id session

lemma attached_setSession (h : b.Mirrored) (hs : b.session? id = some session) {next : Session}
    (ha : next.attached = session.attached) (other : ClientId) (found : Session)
    (hf : (b.setSession id next).session? other = some found) : found.attached := by
  rw [session?_setSession] at hf
  split at hf
  · cases hf
    rw [ha]
    exact h.attached id session hs
  · exact h.attached other found hf

lemma setSession (h : b.Mirrored) (hs : b.session? id = some session) {next : Session}
    (hn : session.SameGrants next) : (b.setSession id next).Mirrored where
  wellFormed := h.wellFormed
  routed filter other := by
    rw [directory_setSession, h.routed, held?, held?, session?_setSession]
    by_cases ho : id = other
    · subst ho
      simp [hs, hn.subscriptions]
    · simp [ho]
  attached := h.attached_setSession hs hn.attached

lemma subscribed (h : b.Mirrored) (hs : b.session? id = some session) (filter : String)
    (granted : QoS) : (b.subscribed id session filter granted).Mirrored where
  wellFormed := h.wellFormed.add filter id granted
  routed other someone := by
    change (b.directory.add filter id granted).2.find? other someone = _
    rw [Directory.find?_add h.wellFormed, h.routed, held?, held?, Broker.subscribed,
      session?_setSession]
    by_cases ho : id = someone
    · subst ho
      by_cases hf : other = filter
      · simp [hf]
      · simp [hf, Std.ExtTreeMap.getElem?_insert, Ne.symm hf, hs]
    · rw [if_neg fun he => ho he.2.symm, if_neg ho]
      rfl
  attached := h.attached_setSession hs rfl

lemma unsubscribed (h : b.Mirrored) (hs : b.session? id = some session) (filter : String) :
    (b.unsubscribed id session filter).Mirrored where
  wellFormed := h.wellFormed.remove filter id
  routed other someone := by
    change (b.directory.remove filter id).2.find? other someone = _
    rw [Directory.find?_remove h.wellFormed, h.routed, held?, held?, Broker.unsubscribed,
      session?_setSession]
    by_cases ho : id = someone
    · subst ho
      by_cases hf : other = filter
      · simp [hf]
      · simp [hf, Std.ExtTreeMap.getElem?_erase, Ne.symm hf, hs]
    · rw [if_neg fun he => ho he.2.symm, if_neg ho]
      rfl
  attached := h.attached_setSession hs rfl

lemma teardown (h : b.Mirrored) (hs : b.session? id = some session) :
    (b.teardown id session).Mirrored := by
  have he := teardown_eq b id session
  have hd : (b.teardown id session).directory =
      (b.directory.removeAll id session.subscriptions.keys).2 := by
    rw [he, directory_withBooks, directory_dropSession, detach, if_pos (h.attached id session hs)]
  refine ⟨?_, fun filter someone => ?_, fun other found hf => ?_⟩
  · rw [hd]
    exact h.wellFormed.removeAll id _
  · rw [hd, Directory.find?_removeAll _ _ _ h.wellFormed, h.routed, held?, held?, session?_teardown]
    by_cases ho : id = someone
    · subst ho
      simp [hs]
    · rw [if_neg fun he => ho he.1.symm, if_neg ho]
  · rw [session?_teardown] at hf
    split at hf
    · cases hf
    · exact h.attached other found hf

/-- A bound session brings along what the directory does not have of it, or takes from both what
it loses. -/
lemma rebind (h : b.Mirrored) {clean : Bool} {client : ClientInfo}
    (hf : b.Found id clean client session) (k : ConnectionId) (lost : List String) :
    (b.rebind id clean k client session lost).Mirrored := by
  have hd : (b.rebind id clean k client session lost).directory.WellFormed ∧ ∀ filter someone,
      (b.rebind id clean k client session lost).directory.find? filter someone =
        if someone = id then (session.subscriptions.eraseAll lost)[filter]?
        else b.held? filter someone := by
    rw [directory_rebind]
    obtain hs | ⟨hs, ha, -⟩ := hf.own_or_new
    · rw [if_pos (h.attached id session hs)]
      refine ⟨h.wellFormed.removeAll id _, fun filter someone => ?_⟩
      rw [Directory.find?_removeAll _ _ _ h.wellFormed, h.routed]
      by_cases ho : someone = id
      · subst ho
        simp [held?, hs, Table.getElem?_eraseAll]
      · simp [ho]
    · rw [ha, if_neg nofun]
      refine ⟨h.wellFormed.addAll id _, fun filter someone => ?_⟩
      rw [Directory.find?_addAll _ _ _ h.wellFormed, Table.ofEntries_toList, h.routed, h.routed]
      simp [held?, hs]
  refine ⟨hd.1, fun filter someone => ?_, fun other found ho => ?_⟩
  · simp only [hd.2, held?, session?_rebind]
    by_cases ho : id = someone
    · subst ho
      simp [Session.rebound, Session.trimmed]
    · rw [if_neg (Ne.symm ho), if_neg ho]
  · rw [session?_rebind] at ho
    split at ho
    · cases ho
      rfl
    · exact h.attached other found ho

/-- The directory and the sessions change together. -/
theorem upheld : Upheld Mirrored where
  books h _ _ _ _ := h.congr rfl fun _ => rfl
  connections h _ := h.congr rfl fun _ => rfl
  retained h _ := h.congr rfl fun _ => rfl
  note h _ _ := h.congr rfl fun _ => rfl
  session h _ _ hs _ hn := h.setSession hs hn
  subscribed h _ _ hs filter granted _ _ :=
    (h.subscribed hs filter granted).congr rfl fun _ => rfl
  unsubscribed h _ _ hs filter _ := (h.unsubscribed hs filter).congr rfl fun _ => rfl
  teardown h _ _ hs := h.teardown hs
  rebind h _ _ _ _ hf k lost _ := (h.rebind hf k lost).congr rfl fun _ => rfl

theorem of_opened (h : b.Opened) : b.Mirrored where
  wellFormed := by
    rw [h.eq.1]
    exact Directory.wellFormed_empty
  routed filter id := by rw [h.eq.1, Directory.find?_empty, held?, h.session?, Option.bind_none]
  attached id session hs := by
    rw [h.session?] at hs
    cases hs

theorem after (h : b.Mirrored) (operations : List Operation) : (b.after operations).Mirrored :=
  upheld.after h operations

/-- The size of the directory is the number of subscriptions of all sessions together. -/
theorem size_eq (h : b.Mirrored) : b.directory.size =
    (b.sessions.toList.map fun entry => entry.2.subscriptions.size).sum := by
  let entries : List (String × ClientId) :=
    b.sessions.toList.flatMap fun entry => entry.2.subscriptions.keys.map fun f => (f, entry.1)
  have hp : b.directory.pairs = (entries.toFinset : Set (String × ClientId)) := by
    ext ⟨filter, id⟩
    rw [Directory.mem_pairs, h.routed, Finset.mem_coe, List.mem_toFinset]
    simp only [entries, List.mem_flatMap, List.mem_map, Prod.mk.injEq, Prod.exists,
      Std.ExtTreeMap.mem_toList_iff_getElem?_eq_some, Std.ExtTreeMap.mem_keys]
    cases hs : b.sessions[id]? with
    | none => simp [held?, session?, hs]
    | some session => simp [held?, session?, hs]
  have hn : entries.Nodup := by
    refine List.nodup_flatMap.mpr ⟨fun entry _ => ?_, ?_⟩
    · exact Std.ExtTreeMap.nodup_keys.map fun f g he => (Prod.mk.inj he).1
    · refine Std.ExtTreeMap.distinct_keys_toList.imp fun {a c} hd => ?_
      intro pair ha hc
      obtain ⟨f, -, rfl⟩ := List.mem_map.mp ha
      obtain ⟨g, -, he⟩ := List.mem_map.mp hc
      exact hd (Std.LawfulEqCmp.compare_eq_iff_eq.mpr (Prod.mk.inj he).2.symm)
  rw [h.wellFormed.counted, hp, Set.ncard_coe_finset, List.toFinset_card_of_nodup hn]
  simp [entries, List.length_flatMap]

end Mirrored

/-- Whatever was asked of a broker since it was opened, the directory holds a client at a QoS for
a filter exactly if the client's session does.  So it has as many entries as all sessions have
subscriptions, and a topic reaches the clients whose sessions hold a filter it reaches. -/
theorem directory_mirrors_sessions (h : b.Opened) (operations : List Operation) :
    let final := b.after operations
    (∀ filter id qos, final.directory.find? filter id = some qos ↔
      ∃ session, final.session? id = some session ∧ session.subscriptions[filter]? = some qos) ∧
    final.directory.size =
      (final.sessions.toList.map fun entry => entry.2.subscriptions.size).sum ∧
    ∀ topic id, id ∈ final.directory.matching topic ↔
      ∃ session filter, final.session? id = some session ∧ filter ∈ session.subscriptions ∧
        Reaches topic filter := by
  intro final
  have hm : final.Mirrored := (Mirrored.of_opened h).after operations
  refine ⟨fun filter id qos => ?_, hm.size_eq, fun topic id => ?_⟩
  · rw [hm.routed, held?, Option.bind_eq_some_iff]
  · simp only [Directory.mem_matching_iff hm.wellFormed, Directory.contains, hm.routed, held?,
      Option.isSome_bind, Option.any_eq_true, Std.ExtTreeMap.isSome_getElem?_iff_mem]
    constructor
    · rintro ⟨filter, ⟨session, hs, hf⟩, hr⟩
      exact ⟨session, filter, hs, hf, hr⟩
    · rintro ⟨session, filter, hs, hf, hr⟩
      exact ⟨filter, ⟨session, hs, hf⟩, hr⟩

/-- A stored session is restored, taken over by another connection and changed there. -/
theorem directory_mirrors_sessions_restored :
    let stored := Repository.ofRecords (Table.ofEntries [("c", ⟨[("a/#", 1), ("b", 2), ("d", 3)]⟩)])
    let final := (lenient {} stored).after [.accept, .bind "c" false 0 (.anonymous "c"), .accept,
      .connect 1 ⟨"MQTT", 4, false, "c", none, none, none⟩,
      .event 1 (.packet (.subscribe 1 [("a/+", .exactlyOnce)])), .unsubscribe "c" 1 "b"]
    (lenient {} stored).Opened ∧ final.directory.find? "a/+" "c" = some .exactlyOnce ∧
      final.directory.find? "b" "c" = none ∧ final.directory.size = 2 := by
  intro stored final
  obtain ⟨hf, hz, -⟩ := directory_mirrors_sessions (opened_lenient {} stored)
    [.accept, .bind "c" false 0 (.anonymous "c"), .accept,
      .connect 1 ⟨"MQTT", 4, false, "c", none, none, none⟩,
      .event 1 (.packet (.subscribe 1 [("a/+", .exactlyOnce)])), .unsubscribe "c" 1 "b"]
  have hs : (final.session? "c").map (·.subscriptions.toList) =
      some [("a/#", .atLeastOnce), ("a/+", .exactlyOnce)] := by decide +kernel
  obtain ⟨session, hc, he⟩ := Option.map_eq_some_iff.mp hs
  refine ⟨opened_lenient {} stored, (hf _ _ _).mpr ⟨session, hc, ?_⟩, ?_, ?_⟩
  · rw [← Std.ExtTreeMap.mem_toList_iff_getElem?_eq_some, he]
    simp
  · refine Option.eq_none_iff_forall_ne_some.mpr fun qos hq => ?_
    obtain ⟨found, hc', hb⟩ := (hf _ _ _).mp hq
    rw [hc] at hc'
    cases hc'
    rw [← Std.ExtTreeMap.mem_toList_iff_getElem?_eq_some, he] at hb
    simp at hb
  · rw [hz]
    decide +kernel

end MqttBroker.Broker
