import MqttBroker.Proofs.Broker.Handling
import MqttBroker.Proofs.Table

/-!
The admission of a connection while nobody else acts: it is refused and closed, or one session is
bound to it.
-/
namespace MqttBroker

/-- Nobody acts during the calls of one kind. -/
def Interlude.SilentAt (meanwhile : Interlude) (callout : Callout) : Prop :=
  ∀ call b, meanwhile callout call b = b

lemma Interlude.silentAt_quiet (callout : Callout) : Interlude.quiet.SilentAt callout :=
  fun _ _ => rfl

namespace Connection

/-- A connection that is turned away is answered with a code, if there is one, and closed. -/
def turnAway (c : Connection) (answer : Option ConnackCode) : Connection :=
  match answer with
  | none => c.close
  | some code => (c.send (.connack false code)).2.close

lemma turnAway_advance (c : Connection) (state : ConnectionState) (answer : Option ConnackCode) :
    { c with state }.turnAway answer = c.turnAway answer := by
  cases answer <;> rfl

@[simp] lemma state_turnAway (c : Connection) (answer : Option ConnackCode) :
    (c.turnAway answer).state = .closed := by
  cases answer <;> rfl

@[simp] lemma isOpen_turnAway (c : Connection) (answer : Option ConnackCode) :
    (c.turnAway answer).transport.isOpen = false := by
  cases answer <;> rfl

/-- What a connection that is turned away has received. -/
lemma written_turnAway (c : Connection) (answer : Option ConnackCode) :
    (c.turnAway answer).transport.written = answer.elim c.transport.written fun code =>
      if c.transport.Fails then c.transport.written
      else c.transport.written.push (.connack false code) := by
  cases answer with
  | none => rfl
  | some code => exact c.transport.written_send (.connack false code)

end Connection

namespace Broker

variable {b b' : Broker} {k : ConnectionId} {result : ConnectResult × Broker}

section refusal

/-- Nobody was admitted, and the connection is at its end. -/
structure Refused (k : ConnectionId) (b : Broker) (result : ConnectResult × Broker) : Prop where
  chores : Chores k b result.2
  notAccepted : result.1.isAccepted = false
  closed : (result.2.connection k).state = .closed

lemma Refused.after (h : Chores k b b') (hr : Refused k b' result) : Refused k b result :=
  ⟨h.trans hr.chores, hr.notAccepted, hr.closed⟩

lemma Refused.services (h : Refused k b result) : Services k none b result.2 := h.chores.services

/-- The connection was turned away, with a code or without one, and nothing else was touched. -/
structure TurnedAway (k : ConnectionId) (answer : Option ConnackCode) (b : Broker)
    (result : ConnectResult × Broker) : Prop where
  answered : result.1 = answer.elim .closed .rejected
  code : answer ≠ some .accepted
  broker : ∃ calls stored, b.stored.Asked stored ∧
    result.2 = (b.modifyConnection k (·.turnAway answer)).withBooks calls stored b.identified

lemma turnedAway_refuse (b : Broker) (k : ConnectionId) : TurnedAway k none b (b.refuse k) :=
  ⟨rfl, by simp, b.calls, b.stored, .inl rfl, rfl⟩

lemma turnedAway_reject_asked {code : ConnackCode} (hc : code ≠ .accepted)
    {stored : Repository StoredSession} (hs : b.stored.Asked stored) (k : ConnectionId) :
    TurnedAway k (some code) b ((b.withBooks b.calls stored b.identified).reject k code) := by
  refine ⟨rfl, by simpa using hc, b.calls, stored, hs, ?_⟩
  exact modifyConnection_modifyConnection (fun c => (c.send (.connack false code)).2) .close

lemma turnedAway_reject {code : ConnackCode} (hc : code ≠ .accepted) (b : Broker)
    (k : ConnectionId) : TurnedAway k (some code) b (b.reject k code) :=
  turnedAway_reject_asked hc (.inl rfl) k

/-- In which state a connection was turned away does not show. -/
lemma TurnedAway.advance {answer : Option ConnackCode} {state : ConnectionState}
    (h : TurnedAway k answer (b.modifyConnection k fun c => { c with state }) result) :
    TurnedAway k answer b result := by
  obtain ⟨calls, stored, hs, he⟩ := h.broker
  refine ⟨h.answered, h.code, calls, stored, hs, ?_⟩
  rw [he, modifyConnection_modifyConnection]
  exact congrArg (fun change => (b.modifyConnection k change).withBooks calls stored b.identified)
    (funext fun c => c.turnAway_advance state answer)

lemma TurnedAway.tick {answer : Option ConnackCode} {calls : CallCounts}
    (h : TurnedAway k answer (b.withBooks calls b.stored b.identified) result) :
    TurnedAway k answer b result := by
  obtain ⟨calls', stored, hs, he⟩ := h.broker
  exact ⟨h.answered, h.code, calls', stored, hs, he⟩

lemma TurnedAway.refused {answer : Option ConnackCode} (h : TurnedAway k answer b result) :
    Refused k b result := by
  obtain ⟨calls, stored, hs, he⟩ := h.broker
  have hbooks : Chore k (b.modifyConnection k (·.turnAway answer)) result.2 := by
    rw [he]
    exact .books (b := b.modifyConnection k (·.turnAway answer)) calls (.of_asked hs) b.identified
  refine ⟨?_, ?_, ?_⟩
  · cases answer with
    | none => exact .head .close (.single hbooks)
    | some code =>
      have hp : (Packet.connack false code).publish? = none := rfl
      refine .head (.send hp) (.head .close (.single ?_))
      rwa [closeConnection, modifyConnection_modifyConnection]
  · rw [h.answered]
    cases answer <;> rfl
  · rw [he, connection_withBooks]
    by_cases hk : k < b.connections.size
    · rw [connection_modifyConnection _ hk, if_pos rfl, Connection.state_turnAway]
    · rw [modifyConnection_absent _ hk, connection_of_not_lt hk]
      rfl

end refusal

section opening
variable {client : ClientInfo} {outcome : BindOutcome}

lemma establish_of_ok (h : ((b.connection k).establish (.connack outcome.resumed .accepted)
    outcome.replay).1 = .ok ()) :
    b.establish k client outcome = (.accepted outcome.resumed,
      b.modifyConnection k fun c =>
        (c.establish (.connack outcome.resumed .accepted) outcome.replay).2) := by
  unfold establish
  rw [show b.onConnection k (·.establish (.connack outcome.resumed .accepted) outcome.replay) =
    (.ok (), _) from Prod.ext h rfl]
  rfl

/-- What a connection that does not open did not send is put back before it is lost. -/
lemma establish_of_error {unsent : List Publish}
    (h : ((b.connection k).establish (.connack outcome.resumed .accepted) outcome.replay).1 =
      .error unsent) :
    b.establish k client outcome = (.closed,
      ((b.modifyConnection k fun c => (c.establish (.connack outcome.resumed .accepted)
        outcome.replay).2).requeue client.id k unsent).2.connectionLost k) := by
  unfold establish
  rw [show b.onConnection k (·.establish (.connack outcome.resumed .accepted) outcome.replay) =
    (.error unsent, _) from Prod.ext h rfl]
  rfl

end opening

section pipeline
variable {meanwhile : Interlude}

lemma authenticate_of_silent (hm : meanwhile.SilentAt .authenticate) (b : Broker)
    (connect : Connect) (id : ClientId) :
    b.authenticate meanwhile connect id = b.authenticate .quiet connect id := by
  unfold authenticate askAuthenticator callOut
  rw [hm]
  rfl

/-- Connections have no say in who a client is. -/
lemma authenticate_modifyConnection (b : Broker) (k : ConnectionId)
    (change : Connection → Connection) (connect : Connect) (id : ClientId) :
    ((b.modifyConnection k change).authenticate .quiet connect id).1 =
      (b.authenticate .quiet connect id).1 := by
  unfold authenticate
  split
  · rfl
  · split <;> rfl

/-- The identity that comes of a CONNECT bears the identifier, and an answer refuses. -/
lemma authenticate_quiet (b : Broker) (connect : Connect) (id : ClientId) :
    (∃ calls, (b.authenticate .quiet connect id).2 = b.withBooks calls b.stored b.identified) ∧
      (∀ client, (b.authenticate .quiet connect id).1 = .ok client → client.id = id) ∧
      ∀ code, (b.authenticate .quiet connect id).1 = .error code → code ≠ .accepted := by
  unfold authenticate
  split
  · refine ⟨⟨b.calls, rfl⟩, fun client h => ?_, fun code h => ?_⟩
    · split at h <;> cases h
      rfl
    · split at h <;> cases h
      simp
  · split
    · refine ⟨⟨_, rfl⟩, fun client h => ?_, fun code h => ?_⟩
      · dsimp only at h
        split at h <;> cases h
        rfl
      · dsimp only at h
        split at h <;> cases h <;> simp
    · refine ⟨⟨b.calls, rfl⟩, by simp, fun code h => ?_⟩
      cases h
      simp

lemma resolveId_error {connect : Connect} {code : ConnackCode}
    (h : b.resolveId connect = .error code) : code = .identifierRejected := by
  unfold resolveId at h
  split at h
  · cases h
  · split at h <;> cases h
    rfl

lemma setState_of_state {source target : ConnectionState} (h : (b.connection k).state = source) :
    b.setState k source target =
      (true, b.modifyConnection k fun c => { c with state := target }) := by
  simp [setState, onConnection, Connection.transition, h, modifyConnection]

/-- A connection that waits for its session, while nothing shared was touched. -/
def awaiting (b : Broker) (k : ConnectionId) (calls : CallCounts) : Broker :=
  (b.modifyConnection k fun c => { c with state := .binding }).withBooks calls b.stored b.identified

lemma awaiting_chores (h : (b.connection k).state = .idle) (calls : CallCounts) :
    Chores k b (b.awaiting k calls) := by
  have ha : Chore k b (b.setState k .idle .binding).2 := .advance ⟨nofun, nofun⟩ nofun
  rw [setState_of_state h] at ha
  exact .head ha (.single (.books calls (.refl _) _))

lemma TurnedAway.of_awaiting {answer : Option ConnackCode} {calls : CallCounts}
    (h : TurnedAway k answer (b.awaiting k calls) result) : TurnedAway k answer b result :=
  .advance (.tick h)

lemma authenticateAndBind_cases (hm : meanwhile.SilentAt .authenticate)
    (h : (b.connection k).state = .idle) (connect : Connect) (id : ClientId) (isGiven : Bool) :
    (∃ code, TurnedAway k (some code) b
        ((b.modifyConnection k fun c => { c with state := .authenticating }).authenticateAndBind
          meanwhile k connect id isGiven)) ∨
      ∃ client calls, client.id = id ∧ (b.authenticate .quiet connect id).1 = .ok client ∧
        (b.modifyConnection k fun c => { c with state := .authenticating }).authenticateAndBind
          meanwhile k connect id isGiven =
          (b.awaiting k calls).bindAndEstablish meanwhile k connect client isGiven := by
  have hk := lt_size_of_idle h
  rw [← b.authenticate_modifyConnection k (fun c => { c with state := .authenticating }) connect id]
  set asking := b.modifyConnection k fun c => { c with state := .authenticating } with ha
  obtain ⟨⟨calls, hb⟩, hi, hn⟩ := asking.authenticate_quiet connect id
  unfold authenticateAndBind
  rw [authenticate_of_silent hm]
  generalize asking.authenticate .quiet connect id = result at hb hi hn ⊢
  obtain ⟨answer, b'⟩ := result
  dsimp only at hb hi hn ⊢
  subst hb
  cases answer with
  | error code => exact .inl ⟨code, .advance (.tick (turnedAway_reject (hn code rfl) _ k))⟩
  | ok client =>
    have hs : (asking.connection k).state = .authenticating := by
      rw [ha, connection_modifyConnection _ hk, if_pos rfl]
    refine .inr ⟨client, calls, hi client rfl, rfl, ?_⟩
    dsimp only
    rw [setState_of_state (by exact hs)]
    have hm : asking.modifyConnection k (fun c => { c with state := .binding }) =
        b.modifyConnection k fun c => { c with state := .binding } :=
      modifyConnection_modifyConnection _ _
    exact congrArg (fun b' : Broker => (b'.withBooks calls b.stored b.identified).bindAndEstablish
      meanwhile k connect client isGiven) hm

/-- A CONNECT passes only if its will has a valid topic. -/
lemma checkTopicName_of_willAllowed {connect : Connect} {will : Will}
    (ha : b.willAllowed connect = true) (hw : connect.will = some will) :
    b.checkTopicName will.topic = .ok () := by
  unfold willAllowed at ha
  rw [hw] at ha
  dsimp only at ha
  cases ht : b.checkTopicName will.topic with
  | ok => rfl
  | error =>
    rw [ht] at ha
    cases ha

/-- A CONNECT is turned away, without a code only if it comes late or with a will that may not be
published; or the connection goes on to be bound to the session of its client. -/
theorem processConnect_turnedAway_or (hm : meanwhile.SilentAt .authenticate) (b : Broker)
    (k : ConnectionId) (connect : Connect) :
    (∃ answer, TurnedAway k answer b (b.processConnect meanwhile k connect) ∧
        (answer ≠ none → (b.connection k).state = .idle)) ∨
      ∃ client isGiven calls, (b.connection k).state = .idle ∧
        b.willAllowed connect = true ∧ b.resolveId connect = .ok (client.id, isGiven) ∧
        (b.authenticate .quiet connect client.id).1 = .ok client ∧
        b.processConnect meanwhile k connect =
          (b.awaiting k calls).bindAndEstablish meanwhile k connect client isGiven := by
  unfold processConnect
  split
  · exact .inl ⟨none, turnedAway_refuse b k, fun hn => absurd rfl hn⟩
  next hs =>
  have hs : (b.connection k).state = .idle := by simpa using hs
  split
  · exact .inl ⟨_, turnedAway_reject (by simp) b k, fun _ => hs⟩
  split
  · exact .inl ⟨none, turnedAway_refuse b k, fun _ => hs⟩
  next hw =>
  have hw : b.willAllowed connect = true := by simpa using hw
  split
  next code hi =>
    exact .inl ⟨_, turnedAway_reject (by simp [resolveId_error hi]) b k, fun _ => hs⟩
  next id isGiven hi =>
  rw [setState_of_state hs]
  obtain ⟨code, hr⟩ | ⟨client, calls, rfl, ha, he⟩ :=
    authenticateAndBind_cases hm hs connect id isGiven
  · exact .inl ⟨_, hr, fun _ => hs⟩
  · exact .inr ⟨client, isGiven, calls, hs, hw, hi, ha, he⟩

/-- A CONNECT is refused, or the connection goes on to be bound to the session of its client. -/
theorem processConnect_cases (b : Broker) (k : ConnectionId) (connect : Connect) :
    Refused k b (b.processConnect .quiet k connect) ∨
      ∃ client isGiven calls, (b.connection k).state = .idle ∧
        b.willAllowed connect = true ∧ b.resolveId connect = .ok (client.id, isGiven) ∧
        (b.authenticate .quiet connect client.id).1 = .ok client ∧
        b.processConnect .quiet k connect =
          (b.awaiting k calls).bindAndEstablish .quiet k connect client isGiven := by
  obtain ⟨answer, h, -⟩ | h :=
    processConnect_turnedAway_or (Interlude.silentAt_quiet .authenticate) b k connect
  · exact .inl h.refused
  · exact .inr h

end pipeline
end Broker
end MqttBroker
