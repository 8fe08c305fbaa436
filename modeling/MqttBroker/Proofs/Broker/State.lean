import Mathlib.Tactic
import MqttBroker.Broker.Dispatch

/-!
What the elementary changes of a broker leave as they find it.
-/
namespace MqttBroker.Broker

/-- The broker with other counters and another storage, on which no answer in memory depends. -/
def withBooks (b : Broker) (calls : CallCounts) (stored : Repository StoredSession)
    (identified : Nat) : Broker := { b with calls, stored, identified }

variable {b : Broker} {k j : ConnectionId} {id : ClientId}

section books
variable {calls : CallCounts} {stored : Repository StoredSession} {identified : Nat}

@[simp] lemma connection_withBooks :
    (b.withBooks calls stored identified).connection k = b.connection k := rfl

@[simp] lemma session?_withBooks :
    (b.withBooks calls stored identified).session? id = b.session? id := rfl

@[simp] lemma history_withBooks : (b.withBooks calls stored identified).history = b.history := rfl

@[simp] lemma retained_withBooks :
    (b.withBooks calls stored identified).retained = b.retained := rfl

@[simp] lemma directory_withBooks :
    (b.withBooks calls stored identified).directory = b.directory := rfl

/-- What is stored once a record was deleted, if that is due. -/
def cleared (b : Broker) (id : ClientId) (due : Bool) : Repository StoredSession :=
  if due then (b.stored.delete id).2 else b.stored

/-- What is stored once a session was saved, unless it is clean. -/
def saved (b : Broker) (id : ClientId) (clean : Bool) (session : Session) :
    Repository StoredSession :=
  if clean then b.stored else (b.stored.save id session.toStored).2

end books

section connections
variable {α : Type} (act : Connection → α × Connection) (change : Connection → Connection)

@[simp] lemma onConnection_fst : (b.onConnection k act).1 = (act (b.connection k)).1 := rfl

@[simp] lemma onConnection_snd :
    (b.onConnection k act).2 = b.modifyConnection k fun c => (act c).2 := rfl

@[simp] lemma setState_snd (source target : ConnectionState) :
    (b.setState k source target).2 =
      b.modifyConnection k fun c => (c.transition source target).2 := rfl

@[simp] lemma session?_modifyConnection :
    (b.modifyConnection k change).session? id = b.session? id := rfl

@[simp] lemma history_modifyConnection :
    (b.modifyConnection k change).history = b.history := rfl

@[simp] lemma size_modifyConnection :
    (b.modifyConnection k change).connections.size = b.connections.size := by
  simp [modifyConnection, setConnection]

lemma modifyConnection_id (b : Broker) (k : ConnectionId) :
    b.modifyConnection k (fun c => c) = b := by
  have he : b.connections.setIfInBounds k (b.connection k) = b.connections := by
    by_cases h : k < b.connections.size
    · refine Array.ext_getElem? fun j => ?_
      rw [Array.getElem?_setIfInBounds]
      split
      next hj =>
        subst hj
        simp [connection, h]
      next => rfl
    · exact Array.setIfInBounds_eq_of_size_le (Nat.le_of_not_lt h)
  rw [modifyConnection, setConnection, he]

lemma modifyConnection_absent (h : ¬ k < b.connections.size) :
    b.modifyConnection k change = b := by
  rw [modifyConnection, setConnection, Array.setIfInBounds_eq_of_size_le (Nat.le_of_not_lt h)]

lemma connection_modifyConnection (h : k < b.connections.size) :
    (b.modifyConnection k change).connection j =
      if k = j then change (b.connection k) else b.connection j :=
  b.connection_setConnection k j _ h

lemma connection_modifyConnection_of_ne (h : k ≠ j) :
    (b.modifyConnection k change).connection j = b.connection j := by
  simp [connection, modifyConnection, setConnection, h]

/-- A connection that was never accepted stays absent. -/
lemma connection_modifyConnection_cases :
    (b.modifyConnection k change).connection k = change (b.connection k) ∨
      (b.modifyConnection k change).connection k = b.connection k := by
  by_cases h : k < b.connections.size
  · rw [connection_modifyConnection _ h, if_pos rfl]
    exact .inl rfl
  · rw [modifyConnection_absent _ h]
    exact .inr rfl

/-- What a change of one connection does to another one, which may be the same. -/
lemma modifyConnection_rel_of {P : Connection → Connection → Prop}
    {change : Connection → Connection} (hr : ∀ c, P c c) (j : ConnectionId)
    (h : k = j → P (b.connection j) (change (b.connection j))) :
    P (b.connection j) ((b.modifyConnection k change).connection j) := by
  by_cases hj : k = j
  · subst hj
    rcases connection_modifyConnection_cases (b := b) (k := k) change with he | he <;> rw [he]
    · exact h rfl
    · exact hr _
  · rw [connection_modifyConnection_of_ne _ hj]
    exact hr _

/-- What a change of one connection does to any of them. -/
lemma modifyConnection_rel {P : Connection → Connection → Prop} {change : Connection → Connection}
    (hr : ∀ c, P c c) (h : P (b.connection k) (change (b.connection k))) (j : ConnectionId) :
    P (b.connection j) ((b.modifyConnection k change).connection j) :=
  modifyConnection_rel_of hr j fun hj => hj ▸ h

lemma connection_of_not_lt (h : ¬ k < b.connections.size) : b.connection k = .absent := by
  simp [connection, h]

lemma lt_size_of_state (h : (b.connection k).state ≠ .closed) : k < b.connections.size := by
  by_contra hk
  rw [connection_of_not_lt hk] at h
  exact h rfl

lemma lt_size_of_idle (h : (b.connection k).state = .idle) : k < b.connections.size :=
  lt_size_of_state (by rw [h]; nofun)

lemma lt_size_of_clientId (h : (b.connection k).clientId = some id) : k < b.connections.size := by
  by_contra hk
  rw [connection_of_not_lt hk] at h
  cases h

lemma modifyConnection_modifyConnection (next : Connection → Connection) :
    (b.modifyConnection k change).modifyConnection k next =
      b.modifyConnection k fun c => next (change c) := by
  by_cases h : k < b.connections.size
  · rw [modifyConnection, connection_modifyConnection _ h, if_pos rfl]
    simp [modifyConnection, setConnection]
  · rw [modifyConnection_absent _ h, modifyConnection_absent _ h, modifyConnection_absent _ h]

lemma connection_accept :
    b.accept.2.connection j = if j = b.connections.size then .fresh else b.connection j := by
  simp only [accept, connection, Array.getElem?_push]
  split <;> simp_all

end connections

section sessions
variable (session : Session)

@[simp] lemma connection_setSession : (b.setSession id session).connection k = b.connection k := rfl

@[simp] lemma history_setSession : (b.setSession id session).history = b.history := rfl

@[simp] lemma directory_setSession : (b.setSession id session).directory = b.directory := rfl

@[simp] lemma history_dropSession : (b.dropSession id).history = b.history := rfl

@[simp] lemma directory_dropSession : (b.dropSession id).directory = b.directory := rfl

lemma boundSession?_eq_some {session : Session} :
    b.boundSession? id k = some session ↔
      b.session? id = some session ∧ session.connection = some k := by
  simp [boundSession?, Option.filter_eq_some_iff, Session.isBoundTo]

end sessions

section note
variable (episode : Episode)

@[simp] lemma connection_note : (b.note id episode).connection k = b.connection k := rfl

@[simp] lemma session?_note {other : ClientId} :
    (b.note id episode).session? other = b.session? other := rfl

lemma history_note {other : ClientId} :
    (b.note id episode).history other =
      if other = id then b.history id ++ [episode] else b.history other := rfl

end note
end MqttBroker.Broker
