import MqttBroker.Proofs.Broker.Opening
import MqttBroker.Proofs.Broker.Run

/-!
A CONNECT that is refused concerns nobody but the connection it came on: whatever session it names,
and wherever on its way it fails.
-/
namespace MqttBroker.Broker

/-- Two brokers that differ in one connection at most, and in the calls that were made. -/
structure AgreesBeyond (k : ConnectionId) (b b' : Broker) : Prop where
  config : b'.config = b.config
  authenticator : b'.authenticator = b.authenticator
  authorizer : b'.authorizer = b.authorizer
  sessions : b'.sessions = b.sessions
  directory : b'.directory = b.directory
  retained : b'.retained = b.retained
  records : b'.stored.records = b.stored.records
  asked : b.stored.Asked b'.stored
  size : b'.connections.size = b.connections.size
  others : ∀ j, j ≠ k → b'.connection j = b.connection j
  history : b'.history = b.history
  identifiers : b'.identifiers = b.identifiers
  identified : b'.identified = b.identified

variable {b b' : Broker} {k : ConnectionId} {meanwhile : Interlude} {connect : Connect}
  {answer : ConnectResult}

section turnedAway
variable {code : Option ConnackCode} {result : ConnectResult × Broker}

lemma TurnedAway.agreesBeyond (h : TurnedAway k code b result) : b.AgreesBeyond k result.2 := by
  obtain ⟨calls, stored, hs, he⟩ := h.broker
  rw [he]
  exact {
    config := rfl
    authenticator := rfl
    authorizer := rfl
    sessions := rfl
    directory := rfl
    retained := rfl
    records := (Repository.Consulted.of_asked hs).records
    asked := hs
    size := size_modifyConnection (b := b) (k := k) (·.turnAway code)
    others := fun j hj => connection_modifyConnection_of_ne (b := b) (·.turnAway code) hj.symm
    history := rfl
    identifiers := rfl
    identified := rfl }

/-- What the connection that was turned away has become; one that was never accepted is left as it
is. -/
lemma TurnedAway.connection (h : TurnedAway k code b result) :
    result.2.connection k = (b.connection k).turnAway code ∨
      ¬ k < b.connections.size ∧ result.2.connection k = b.connection k := by
  obtain ⟨calls, stored, -, he⟩ := h.broker
  rw [he, connection_withBooks]
  by_cases hk : k < b.connections.size
  · rw [connection_modifyConnection _ hk, if_pos rfl]
    exact .inl rfl
  · rw [modifyConnection_absent _ hk]
    exact .inr ⟨hk, rfl⟩

lemma TurnedAway.isOpen (h : TurnedAway k code b result) :
    (result.2.connection k).state = .closed ∧ (result.2.connection k).transport.isOpen = false := by
  obtain he | ⟨hk, he⟩ := h.connection
  · rw [he]
    exact ⟨Connection.state_turnAway _ code, Connection.isOpen_turnAway _ code⟩
  · rw [he, connection_of_not_lt hk]
    exact ⟨rfl, rfl⟩

lemma TurnedAway.written (h : TurnedAway k code b result) :
    (result.2.connection k).transport.written = code.elim (b.connection k).transport.written
      fun code => if (b.connection k).transport.Fails then (b.connection k).transport.written
        else (b.connection k).transport.written.push (.connack false code) := by
  obtain he | ⟨hk, he⟩ := h.connection
  · rw [he, Connection.written_turnAway]
  · rw [he, connection_of_not_lt hk]
    cases code <;> rfl

end turnedAway

/-- Unless it is answered by a code that refuses it, or comes late or with a will that may not be
published, a CONNECT is not turned away. -/
lemma processConnect_turnedAway (hm : meanwhile.SilentAt .authenticate)
    (h : b.processConnect meanwhile k connect = (answer, b'))
    (hr : (∃ code, answer = .rejected code) ∨
      answer = .closed ∧ ((b.connection k).state ≠ .idle ∨ b.willAllowed connect = false)) :
    ∃ code, TurnedAway k code b (answer, b') := by
  obtain ⟨code, ht, -⟩ | ⟨client, isGiven, calls, hs, hw, -, -, he⟩ :=
    processConnect_turnedAway_or hm b k connect
  · rw [h] at ht
    exact ⟨code, ht⟩
  · obtain ⟨code, rfl⟩ | ⟨-, hn | hn⟩ := hr
    · obtain ht | hn := bindAndEstablish_turnedAway_or meanwhile (b.awaiting k calls) k connect
        client isGiven
      · rw [← he, h] at ht
        exact ⟨_, ht.of_awaiting⟩
      · rw [← he, h] at hn
        exact absurd rfl (hn code)
    · exact absurd hs hn
    · rw [hw] at hn
      cases hn

/-- A CONNECT that is answered by a refusal, or that comes late or with a will that may not be
published, touches nothing but its own connection, which is closed and has received the answer at
most. -/
theorem refused_connect_touches_nothing_shared (hm : meanwhile.SilentAt .authenticate)
    (h : b.processConnect meanwhile k connect = (answer, b')) :
    (∀ code, answer = .rejected code → b.AgreesBeyond k b' ∧
      (b'.connection k).state = .closed ∧ (b'.connection k).transport.isOpen = false ∧
      code ≠ .accepted ∧ (b'.connection k).transport.written =
        if (b.connection k).transport.Fails then (b.connection k).transport.written
        else (b.connection k).transport.written.push (.connack false code)) ∧
    (answer = .closed → ((b.connection k).state ≠ .idle ∨
        ∃ will error, connect.will = some will ∧ b.checkTopicName will.topic = .error error) →
      b.AgreesBeyond k b' ∧
      (b'.connection k).state = .closed ∧ (b'.connection k).transport.isOpen = false ∧
      (b'.connection k).transport.written = (b.connection k).transport.written) := by
  constructor
  · rintro code rfl
    obtain ⟨answer, ht⟩ := processConnect_turnedAway hm h (.inl ⟨code, rfl⟩)
    have ha := ht.answered
    cases answer with
    | none => cases ha
    | some refusal =>
      cases ha
      exact ⟨ht.agreesBeyond, ht.isOpen.1, ht.isOpen.2, by simpa using ht.code, ht.written⟩
  · rintro rfl hc
    have hw : (b.connection k).state ≠ .idle ∨ b.willAllowed connect = false := by
      refine hc.imp_right ?_
      rintro ⟨will, error, hwill, ht⟩
      rw [willAllowed, hwill]
      simp [ht, Except.toBool]
    obtain ⟨answer, ht⟩ := processConnect_turnedAway hm h (.inr ⟨rfl, hw⟩)
    have ha := ht.answered
    cases answer with
    | some refusal => cases ha
    | none => exact ⟨ht.agreesBeyond, ht.isOpen.1, ht.isOpen.2, ht.written⟩

/-- A connected client keeps its session when somebody names it with bad credentials, when storage
fails for another client, and when its own connection sends a second CONNECT. -/
theorem refused_connect_touches_nothing_shared_connected :
    let stored : Repository StoredSession :=
      ⟨∅, [], fun n call => if 0 < n ∧ call.isLoad then some (.read "down") else none⟩
    let anonymous (id : ClientId) : Connect := ⟨"MQTT", 4, false, id, none, none, none⟩
    let named : Connect := ⟨"MQTT", 4, true, "c", none, some "u", some [1]⟩
    let b := { lenient {} stored with authenticator := fun _ => (.denyBadCredentials, none) }.after
      [.accept, .accept, .accept, .connect 0 (anonymous "c")]
    let meanwhile : Interlude := fun callout _ b =>
      if callout = .authenticate then b else b.closeConnection 0
    ((b.processConnect meanwhile 1 named).1 = .rejected .badUsernamePassword ∧
      b.AgreesBeyond 1 (b.processConnect meanwhile 1 named).2) ∧
    ((b.processConnect meanwhile 2 (anonymous "d")).1 = .rejected .serverUnavailable ∧
      b.AgreesBeyond 2 (b.processConnect meanwhile 2 (anonymous "d")).2) ∧
    (b.processConnect meanwhile 0 named).1 = .closed ∧
      b.AgreesBeyond 0 (b.processConnect meanwhile 0 named).2 := by
  intro stored anonymous named b meanwhile
  have hm : meanwhile.SilentAt .authenticate := fun _ _ => rfl
  have hnamed : (b.processConnect meanwhile 1 named).1 = .rejected .badUsernamePassword := by
    decide +kernel
  have hload : (b.processConnect meanwhile 2 (anonymous "d")).1 = .rejected .serverUnavailable := by
    decide +kernel
  have hlate : (b.processConnect meanwhile 0 named).1 = .closed := by decide +kernel
  have hstate : (b.connection 0).state ≠ .idle := by decide +kernel
  obtain ⟨h1, -⟩ := refused_connect_touches_nothing_shared hm
    (Prod.eta (b.processConnect meanwhile 1 named)).symm
  obtain ⟨h2, -⟩ := refused_connect_touches_nothing_shared hm
    (Prod.eta (b.processConnect meanwhile 2 (anonymous "d"))).symm
  obtain ⟨-, h0⟩ := refused_connect_touches_nothing_shared hm
    (Prod.eta (b.processConnect meanwhile 0 named)).symm
  exact ⟨⟨hnamed, (h1 _ hnamed).1⟩, ⟨hload, (h2 _ hload).1⟩, hlate, (h0 hlate (.inl hstate)).1⟩

end MqttBroker.Broker
