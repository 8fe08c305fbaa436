import MqttBroker.Proofs.Broker.State
import MqttBroker.Proofs.Connection.Transport

/-!
What subscribing and routing do to a broker while nobody else acts, case by case.
-/
namespace MqttBroker

/-- Whatever is published, what is routed and queued is a copy. -/
lemma Publish.isCopy_copyFor {publish : Publish} {granted : QoS}
    (h : (publish.copyFor granted).qos ≠ .atMostOnce) : (publish.copyFor granted).IsCopy :=
  ⟨h, rfl, rfl⟩

namespace Broker

variable {b : Broker} {k : ConnectionId} {id : ClientId}

lemma callOut_quiet (b : Broker) (callout : Callout) :
    b.callOut .quiet callout = b.withBooks (b.calls.tick callout) b.stored b.identified := rfl

/-- Saving a session changes nothing in memory. -/
lemma saveUnless_quiet (b : Broker) (id : ClientId) (session : Session) (clean : Bool) :
    ∃ calls, (if clean then b else b.saveSession .quiet id session) =
      b.withBooks calls (b.saved id clean session) b.identified := by
  cases clean with
  | true => exact ⟨b.calls, rfl⟩
  | false => exact ⟨_, rfl⟩

section subscriptions
variable (filter : String)

/-- A session with one subscription more, or another QoS for it, and the directory alike. -/
def subscribed (b : Broker) (id : ClientId) (session : Session) (filter : String) (granted : QoS) :
    Broker :=
  { b with directory := (b.directory.add filter id granted).2 }.setSession id
    { session with subscriptions := session.subscriptions.insert filter granted }

/-- A session with one subscription less, and the directory alike. -/
def unsubscribed (b : Broker) (id : ClientId) (session : Session) (filter : String) : Broker :=
  { b with directory := (b.directory.remove filter id).2 }.setSession id
    { session with subscriptions := session.subscriptions.erase filter }

lemma enterSubscription_cases (b : Broker) (id : ClientId) (k : ConnectionId) (granted : QoS) :
    (b.enterSubscription .quiet id k filter granted).2 = b ∨
      ∃ session calls, b.session? id = some session ∧ session.connection = some k ∧
        (b.enterSubscription .quiet id k filter granted).2 =
          (b.subscribed id session filter granted).withBooks calls
            (b.saved id session.clean
              { session with subscriptions := session.subscriptions.insert filter granted })
            b.identified := by
  unfold enterSubscription
  split
  · exact .inl rfl
  next session hs =>
    obtain ⟨hs, hk⟩ := boundSession?_eq_some.mp hs
    obtain ⟨calls, he⟩ := saveUnless_quiet (b.subscribed id session filter granted) id
      { session with subscriptions := session.subscriptions.insert filter granted } session.clean
    exact .inr ⟨session, calls, hs, hk, he⟩

/-- A filter is refused, or the client may not read it, or the subscription is entered. -/
lemma subscribe_snd (b : Broker) (client : ClientInfo) (k : ConnectionId) (qos : QoS) :
    (b.subscribe .quiet client k filter qos).2 = b ∨
      (b.subscribe .quiet client k filter qos).2 = b.callOut .quiet .read ∨
        (b.subscribe .quiet client k filter qos).2 =
          ((b.callOut .quiet .read).enterSubscription .quiet client.id k filter
            (min qos (b.callOut .quiet .read).config.mqtt.qosLimit)).2 := by
  unfold subscribe askRead
  cases b.checkFilter filter with
  | error cause => exact .inl rfl
  | ok =>
    refine .inr ?_
    cases hr : (b.callOut .quiet .read).authorizer.canRead client filter with
    | false => exact .inl (by simp only [hr])
    | true =>
      refine .inr ?_
      rcases he : (b.callOut .quiet .read).enterSubscription .quiet client.id k filter
        (min qos (b.callOut .quiet .read).config.mqtt.qosLimit) with ⟨_ | _, entered⟩ <;>
        simp only [hr, he]

/-- A subscription is entered, or nothing happens in memory. -/
lemma subscribe_cases (b : Broker) (client : ClientInfo) (k : ConnectionId) (qos : QoS) :
    ∃ calls,
      (b.subscribe .quiet client k filter qos).2 = b.withBooks calls b.stored b.identified ∨
        ∃ session granted, b.session? client.id = some session ∧ session.connection = some k ∧
          granted = min qos b.config.mqtt.qosLimit ∧
          (b.subscribe .quiet client k filter qos).2 =
            (b.subscribed client.id session filter granted).withBooks calls
              (b.saved client.id session.clean
                { session with subscriptions := session.subscriptions.insert filter granted })
              b.identified := by
  obtain h | h | h := b.subscribe_snd filter client k qos <;> rw [h]
  · exact ⟨b.calls, .inl rfl⟩
  · exact ⟨_, .inl (b.callOut_quiet .read)⟩
  · obtain he | ⟨session, calls, hs, hk, he⟩ := enterSubscription_cases filter
      (b.callOut .quiet .read) client.id k
      (min qos (b.callOut .quiet .read).config.mqtt.qosLimit) <;> rw [he]
    · exact ⟨_, .inl (b.callOut_quiet .read)⟩
    · exact ⟨calls, .inr ⟨session, _, hs, hk, rfl, rfl⟩⟩

/-- Whoever may not read a filter is not subscribed to it. -/
lemma subscribe_of_unreadable {filter : String} {client : ClientInfo}
    (h : b.authorizer.canRead client filter = false) (qos : QoS) : ∃ calls,
      (b.subscribe .quiet client k filter qos).2 = b.withBooks calls b.stored b.identified := by
  unfold subscribe askRead
  cases b.checkFilter filter with
  | error cause => exact ⟨b.calls, rfl⟩
  | ok =>
    have hr : (b.callOut .quiet .read).authorizer.canRead client filter = false := h
    simp only [hr]
    exact ⟨_, b.callOut_quiet .read⟩

@[simp] lemma connections_subscribe (client : ClientInfo) (qos : QoS) :
    (b.subscribe .quiet client k filter qos).2.connections = b.connections := by
  obtain ⟨calls, he | ⟨session, granted, -, -, -, he⟩⟩ := subscribe_cases filter b client k qos <;>
    rw [he] <;> rfl

@[simp] lemma connection_subscribe {j : ConnectionId} (client : ClientInfo) (qos : QoS) :
    (b.subscribe .quiet client k filter qos).2.connection j = b.connection j := by
  rw [connection, connections_subscribe, connection]

/-- A subscription is removed, or nothing happens. -/
lemma unsubscribe_cases (b : Broker) (id : ClientId) (k : ConnectionId) :
    (b.unsubscribe .quiet id k filter).2 = b ∨
      ∃ session calls, b.session? id = some session ∧ session.connection = some k ∧
        (b.unsubscribe .quiet id k filter).2 =
          (b.unsubscribed id session filter).withBooks calls
            (b.saved id session.clean
              { session with subscriptions := session.subscriptions.erase filter })
            b.identified := by
  unfold unsubscribe
  split
  · exact .inl rfl
  next session hs =>
    obtain ⟨hs, hk⟩ := boundSession?_eq_some.mp hs
    split
    next =>
      obtain ⟨calls, he⟩ := saveUnless_quiet (b.unsubscribed id session filter) id
        { session with subscriptions := session.subscriptions.erase filter } session.clean
      exact .inr ⟨session, calls, hs, hk, he⟩
    next => exact .inl rfl

@[simp] lemma connections_unsubscribe :
    (b.unsubscribe .quiet id k filter).2.connections = b.connections := by
  obtain he | ⟨session, calls, -, -, he⟩ := unsubscribe_cases filter b id k <;> rw [he]
  rfl

@[simp] lemma connection_unsubscribe {j : ConnectionId} :
    (b.unsubscribe .quiet id k filter).2.connection j = b.connection j := by
  rw [connection, connections_unsubscribe, connection]

end subscriptions

section route
variable {session : Session} (publish : Publish)

/-- A message that is kept changes the retained messages alone. -/
lemma retain_eq : ∃ retained, b.retain publish = { b with retained } := by
  unfold retain
  split <;> exact ⟨_, rfl⟩

@[simp] lemma connections_retain : (b.retain publish).connections = b.connections := by
  obtain ⟨retained, he⟩ := b.retain_eq publish
  rw [he]

@[simp] lemma connection_retain : (b.retain publish).connection k = b.connection k := by
  rw [connection, connections_retain, connection]

@[simp] lemma session?_retain : (b.retain publish).session? id = b.session? id := by
  obtain ⟨retained, he⟩ := b.retain_eq publish
  rw [he]
  rfl

@[simp] lemma history_retain : (b.retain publish).history = b.history := by
  obtain ⟨retained, he⟩ := b.retain_eq publish
  rw [he]

/-- Whether or not a copy is delivered, only the connection of the session is touched. -/
lemma tryDeliver_cases (b : Broker) (session : Session) :
    session.connection = none ∧ b.tryDeliver session publish = (false, b) ∨
      ∃ k, session.connection = some k ∧
        (b.tryDeliver session publish).2 =
          b.modifyConnection k (fun c => (c.deliver publish).2) ∧
        ((b.tryDeliver session publish).1 = true ↔
          ((b.connection k).deliver publish).1 = .ok ()) := by
  unfold tryDeliver
  cases hk : session.connection with
  | none => exact .inl ⟨rfl, rfl⟩
  | some k =>
    refine .inr ⟨k, rfl, ?_⟩
    rcases hd : (b.connection k).deliver publish with ⟨_ | _, c⟩ <;>
      simp [onConnection, modifyConnection, hd]

@[simp] lemma session?_tryDeliver (session : Session) :
    (b.tryDeliver session publish).2.session? id = b.session? id := by
  obtain ⟨-, he⟩ | ⟨k, -, he, -⟩ := tryDeliver_cases publish b session <;> rw [he]
  rfl

@[simp] lemma history_tryDeliver (session : Session) :
    (b.tryDeliver session publish).2.history = b.history := by
  obtain ⟨-, he⟩ | ⟨k, -, he, -⟩ := tryDeliver_cases publish b session <;> rw [he]
  rfl

/-- A copy that cannot be delivered is queued for a persistent session unless it is sent at most
once. -/
lemma route_cases (hs : b.session? id = some session) :
    ((b.tryDeliver session publish).1 = true ∨ session.clean = true ∨
        publish.qos = .atMostOnce) ∧
      (b.route id publish).2 =
        (b.tryDeliver session publish).2.note id (.routed publish none) ∨
    (b.tryDeliver session publish).1 = false ∧ session.clean = false ∧
      publish.qos ≠ .atMostOnce ∧ ∃ max,
        max = (b.tryDeliver session publish).2.config.session.maxQueuedMessages ∧
        (b.route id publish).2 =
          ((b.tryDeliver session publish).2.setSession id (session.enqueue max publish)).note id
            (.routed publish (session.displacedBy max publish)) := by
  unfold route
  rcases hd : b.tryDeliver session publish with ⟨_ | _, tried⟩
  · simp only [hs, hd]
    by_cases hc : session.clean || publish.qos == .atMostOnce
    · exact .inl ⟨.inr (by simpa using hc), by simp only [if_pos hc]⟩
    · obtain ⟨hp, hq⟩ : session.clean = false ∧ publish.qos ≠ .atMostOnce := by simpa using hc
      exact .inr ⟨trivial, hp, hq, _, rfl, by simp only [if_neg hc]⟩
  · simp only [hs, hd]
    exact .inl ⟨.inl trivial, trivial⟩

lemma route_of_none (hs : b.session? id = none) : (b.route id publish).2 = b := by
  unfold route
  rw [hs]

/-- Only sessions, connections and histories are touched. -/
lemma route_frame (b : Broker) (id : ClientId) : ∃ sessions connections history,
    (b.route id publish).2 = { b with sessions, connections, history } := by
  cases hs : b.session? id with
  | none => exact ⟨_, _, _, route_of_none publish hs⟩
  | some session =>
    obtain ⟨connections, ht⟩ : ∃ connections,
        (b.tryDeliver session publish).2 = { b with connections } := by
      obtain ⟨-, he⟩ | ⟨k, -, he, -⟩ := tryDeliver_cases publish b session <;> rw [he]
      · exact ⟨_, rfl⟩
      · exact ⟨_, rfl⟩
    obtain ⟨-, he⟩ | ⟨-, -, -, max, -, he⟩ := route_cases publish hs <;> rw [he, ht]
    · exact ⟨_, _, _, rfl⟩
    · exact ⟨_, _, _, rfl⟩

@[simp] lemma retained_route : (b.route id publish).2.retained = b.retained := by
  obtain ⟨_, _, _, he⟩ := b.route_frame publish id
  rw [he]

@[simp] lemma stored_route : (b.route id publish).2.stored = b.stored := by
  obtain ⟨_, _, _, he⟩ := b.route_frame publish id
  rw [he]

lemma stored_fanOut (targets : List (ClientId × QoS)) (b : Broker) :
    (b.fanOut publish targets).2.stored = b.stored := by
  induction targets generalizing b with
  | nil => rfl
  | cons target targets ih => exact (ih _).trans (stored_route _)

/-- Publishing asks nothing of the storage of sessions. -/
lemma stored_publish (b : Broker) : (b.publish publish).2.stored = b.stored := by
  obtain ⟨retained, he⟩ := b.retain_eq publish
  refine (stored_fanOut publish _ _).trans ?_
  rw [he]

lemma size_route (b : Broker) (id : ClientId) :
    (b.route id publish).2.connections.size = b.connections.size := by
  cases hs : b.session? id with
  | none => rw [route_of_none _ hs]
  | some session =>
    have ht : (b.tryDeliver session publish).2.connections.size = b.connections.size := by
      obtain ⟨-, he⟩ | ⟨k, -, he, -⟩ := tryDeliver_cases publish b session <;> rw [he]
      exact size_modifyConnection _
    obtain ⟨-, he⟩ | ⟨-, -, -, max, -, he⟩ := route_cases publish hs <;> rw [he] <;> exact ht

/-- What a copy for a client does to any connection. -/
lemma route_rel {P : Connection → Connection → Prop} (hr : ∀ c, P c c) (j : ConnectionId)
    (h : ∀ session, b.session? id = some session → session.connection = some j →
      P (b.connection j) ((b.connection j).deliver publish).2) :
    P (b.connection j) ((b.route id publish).2.connection j) := by
  cases hs : b.session? id with
  | none =>
    rw [route_of_none _ hs]
    exact hr _
  | some session =>
    have ht : P (b.connection j) ((b.tryDeliver session publish).2.connection j) := by
      obtain ⟨-, he⟩ | ⟨k, hk, he, -⟩ := tryDeliver_cases publish b session <;> rw [he]
      · exact hr _
      · exact modifyConnection_rel_of hr j fun hj => h session hs (hj ▸ hk)
    obtain ⟨-, he⟩ | ⟨-, -, -, max, -, he⟩ := route_cases publish hs <;> rw [he]
    · exact ht
    · exact ht

/-- Other clients do not notice. -/
lemma route_of_ne {other : ClientId} (ho : other ≠ id) (publish : Publish) :
    (b.route other publish).2.session? id = b.session? id ∧
      (b.route other publish).2.history id = b.history id := by
  cases hs : b.session? other with
  | none =>
    rw [route_of_none _ hs]
    exact ⟨rfl, rfl⟩
  | some session =>
    obtain ⟨-, he⟩ | ⟨-, -, -, max, -, he⟩ := route_cases publish hs <;>
      rw [he, session?_note, history_note, if_neg ho.symm]
    · exact ⟨session?_tryDeliver publish session, congrFun (history_tryDeliver publish session) id⟩
    · rw [session?_setSession, if_neg ho, history_setSession]
      exact ⟨session?_tryDeliver publish session, congrFun (history_tryDeliver publish session) id⟩

end route
end Broker
end MqttBroker
