import MqttBroker.Proofs.Broker.Expiry
import MqttBroker.Proofs.Broker.Independence

/-!
A bind that starts anew.  Whether the session in memory is emptied in place, or expires first and is
made again, comes to the same: nothing of what a client had before shows afterwards.
-/
namespace MqttBroker

/-- Nothing goes in or out any more. -/
def Connection.Shut (c : Connection) : Prop := c.state = .closed ∧ c.transport.isOpen = false

namespace Broker

variable {b b' b'' : Broker} {id : ClientId} {k j : ConnectionId} {clean : Bool}
  {client : ClientInfo} {effect next : ConnectionId → Connection → Connection}

namespace Spares

lemma trans (h : Spares id effect b b') (h' : Spares id next b' b'') :
    Spares id (fun j c => next j (effect j c)) b b'' where
  sessions other ho := (h'.sessions other ho).trans (h.sessions other ho)
  records other ho := (h'.records other ho).trans (h.records other ho)
  retained := h'.retained.trans h.retained
  size := h'.size.trans h.size
  connections j hj := by rw [h'.connections j (h.size ▸ hj), h.connections j hj]

/-- The session expires and is made again. -/
lemma expire_bind (h : b.Faithful) (id : ClientId) (clean : Bool) (k : ConnectionId)
    (client : ClientInfo) :
    Spares id (fun j c => (Operation.bind id clean k client).effect none j
        ((Operation.expire id).effect (b.owner? id) j c)) b
      ((b.expire id).2.bind .quiet id clean k client).2 := by
  have hnone : (b.expire id).2.owner? id = none := by
    rw [owner?, session?_expire, Option.bind_none]
  have hbind := Spares.bind (Faithful.upheld.expire h id).reliable id clean k client
  rw [hnone] at hbind
  exact (Spares.expire h.reliable id).trans hbind

/-- A connection is as the operation leaves it, or was never accepted. -/
lemma shut (h : Spares id effect b b') (hj : (effect j (b.connection j)).Shut) :
    (b'.connection j).Shut := by
  by_cases hs : j < b.connections.size
  · rw [h.connections j hs]
    exact hj
  · rw [connection_of_not_lt (h.size ▸ hs)]
    exact ⟨rfl, rfl⟩

/-- Those who leave the other clients alone agree if they agree on one. -/
lemma agree (h : Spares id effect b b') (h' : Spares id next b b'')
    (hs : b''.session? id = b'.session? id)
    (hr : b''.stored.records[id]? = b'.stored.records[id]?) (other : ClientId) :
    b''.session? other = b'.session? other ∧
      b''.stored.records[other]? = b'.stored.records[other]? := by
  by_cases ho : id = other
  · subst ho
    exact ⟨hs, hr⟩
  · rw [h'.sessions other ho, h.sessions other ho, h'.records other ho, h.records other ho]
    exact ⟨rfl, rfl⟩

end Spares

/-- A bind that is clean, or finds a clean session, comes to the same as if the session expired just
before: the client has a fresh session, of which nothing is stored but that it has no subscriptions,
and the connection that had the earlier one is closed. -/
theorem clean_bind_is_expire_and_bind (h : b.Opened) (hr : b.stored.Reliable)
    (operations : List Operation) (id : ClientId) (clean : Bool) (k : ConnectionId)
    (client : ClientInfo)
    (hc : clean = true ∨
      ∃ session, (b.after operations).session? id = some session ∧ session.clean = true) :
    let before := b.after operations
    ∃ inPlace anew,
      before.bind .quiet id clean k client =
        (.ok ⟨(before.session? id).isSome, false, []⟩, inPlace) ∧
      (before.expire id).2.bind .quiet id clean k client = (.ok ⟨false, false, []⟩, anew) ∧
      anew.sessions = inPlace.sessions ∧ anew.directory = inPlace.directory ∧
      anew.stored.records = inPlace.stored.records ∧
      inPlace.session? id = some ((Session.fresh clean client).rebound clean k) ∧
      (∀ filter, inPlace.directory.find? filter id = none) ∧
      inPlace.stored.records[id]? = (if clean then none else some ⟨[]⟩) ∧
      ∀ session j, before.session? id = some session → session.connection = some j → j ≠ k →
        (inPlace.connection j).Shut ∧ (anew.connection j).Shut := by
  intro before
  have hbefore : before.Faithful := Faithful.upheld.after (.of_opened h hr) operations
  have hexpired : (before.expire id).2.Faithful := Faithful.upheld.expire hbefore id
  have hmirrored : before.Mirrored := (Mirrored.of_opened h).after operations
  -- A clean session was not stored, so there is nothing to resume either way.
  have hstored : clean = true ∨ before.stored.records[id]? = none := by
    refine hc.imp_right ?_
    rintro ⟨session, hs, hclean⟩
    rw [hbefore.recorded id session hs, Session.durable, if_pos hclean]
  have hgone : clean = true ∨ (before.expire id).2.stored.records[id]? = none := by
    refine hstored.imp_right fun hn => ?_
    rw [hbefore.getElem?_expire id, hn, ite_self]
  obtain ⟨inPlace, he, hs, hf⟩ := hbefore.bind_anew hstored k client
  obtain ⟨anew, he', hs', hf'⟩ := hexpired.bind_anew hgone k client
  rw [session?_expire] at he'
  have hspares := Spares.bind hbefore.reliable id clean k client
  have hspares' := Spares.expire_bind hbefore id clean k client
  rw [he] at hspares
  rw [he'] at hspares'
  have hagree := hspares.agree hspares' (hs'.trans hs.symm) (hf'.trans hf.symm)
  have hm := Mirrored.upheld.bind hmirrored id clean k client
  have hm' := Mirrored.upheld.bind (Mirrored.upheld.expire hmirrored id) id clean k client
  rw [he] at hm
  rw [he'] at hm'
  refine ⟨inPlace, anew, he, he', ?_, hm.directory_eq hm' fun other => (hagree other).1, ?_, hs,
    fun filter => ?_, hf, fun session j hj hk hne => ?_⟩
  · exact Std.ExtTreeMap.ext_getElem? fun {other} => (hagree other).1
  · exact Std.ExtTreeMap.ext_getElem? fun {other} => (hagree other).2
  · rw [hm.routed, held?, hs]
    exact Std.ExtTreeMap.getElem?_empty
  · have ho : before.owner? id = some j := owner?_eq_some.mpr ⟨session, hj, hk⟩
    constructor
    · refine hspares.shut ?_
      rw [Operation.effect, if_neg hne.symm, if_pos ho]
      exact ⟨rfl, rfl⟩
    · refine hspares'.shut ?_
      rw [Operation.effect, if_neg hne.symm, if_neg (Option.some_ne_none j).symm, Operation.effect,
        if_pos ho]
      exact ⟨rfl, rfl⟩

/-- A client with a clean session, a will and a subscription comes back on another connection, and
asks for a persistent session. -/
theorem clean_bind_is_expire_and_bind_takeover :
    let operations : List Operation := [.accept, .accept,
      .connect 0 ⟨"MQTT", 4, true, "c", some ⟨"w", [1], .atLeastOnce, false⟩, none, none⟩,
      .event 0 (.packet (.subscribe 1 [("a", .exactlyOnce)]))]
    let before := (lenient {} .empty).after operations
    before.directory.size = 1 ∧ ∃ inPlace anew,
      before.bind .quiet "c" false 1 (.anonymous "c") = (.ok ⟨true, false, []⟩, inPlace) ∧
      (before.expire "c").2.bind .quiet "c" false 1 (.anonymous "c") =
        (.ok ⟨false, false, []⟩, anew) ∧
      anew.sessions = inPlace.sessions ∧ anew.directory = inPlace.directory ∧
      anew.stored.records = inPlace.stored.records ∧
      inPlace.directory.find? "a" "c" = none ∧ inPlace.stored.records["c"]? = some ⟨[]⟩ ∧
      (inPlace.connection 0).Shut ∧ (anew.connection 0).Shut := by
  intro operations before
  have hsome : (before.session? "c").map (fun session => (session.clean, session.connection)) =
      some (true, some 0) := by decide +kernel
  obtain ⟨session, hs, he⟩ := Option.map_eq_some_iff.mp hsome
  obtain ⟨hclean, hk⟩ := Prod.mk.inj he
  obtain ⟨inPlace, anew, hbind, hagain, hsessions, hdirectory, hrecords, -, hfind, hrecord,
    hshut⟩ := clean_bind_is_expire_and_bind (opened_lenient {} .empty) (fun _ _ => rfl) operations
      "c" false 1 (.anonymous "c") (.inr ⟨session, hs, hclean⟩)
  have hbefore : ((lenient {} .empty).after operations).session? "c" = some session := hs
  rw [hbefore] at hbind
  exact ⟨by decide +kernel, inPlace, anew, hbind, hagain, hsessions, hdirectory, hrecords,
    hfind "a", hrecord, hshut session 0 hs hk (by decide)⟩

end Broker
end MqttBroker
