import MqttBroker.Proofs.Broker.State

/-!
What the calls of the registry do to a broker, case by case.
-/
namespace MqttBroker.Broker

variable {b : Broker} {k : ConnectionId} {id : ClientId}

lemma takeWill_cases (b : Broker) (id : ClientId) (k : ConnectionId) :
    (b.takeWill id k).2 = b ∨ ∃ session, b.session? id = some session ∧
      (b.takeWill id k).2 = b.setSession id { session with will := none } := by
  unfold takeWill
  split
  · exact .inl rfl
  next session hs => exact .inr ⟨session, (boundSession?_eq_some.mp hs).1, rfl⟩

@[simp] lemma connections_takeWill : (b.takeWill id k).2.connections = b.connections := by
  obtain he | ⟨session, -, he⟩ := takeWill_cases b id k <;> rw [he]
  rfl

@[simp] lemma connection_takeWill {j : ConnectionId} :
    (b.takeWill id k).2.connection j = b.connection j := by
  rw [connection, connections_takeWill, connection]

lemma setWill_cases (b : Broker) (id : ClientId) (k : ConnectionId) (will : Option Will) :
    (b.setWill id k will).2 = b ∨ ∃ session, b.session? id = some session ∧
      (b.setWill id k will).2 = b.setSession id { session with will } := by
  unfold setWill
  split
  · exact .inl rfl
  next session hs => exact .inr ⟨session, (boundSession?_eq_some.mp hs).1, rfl⟩

lemma clearWill_cases (b : Broker) (id : ClientId) :
    b.clearWill id = b ∨ ∃ session, b.session? id = some session ∧
      b.clearWill id = b.setSession id { session with will := none } := by
  unfold clearWill
  split
  · exact .inl rfl
  next session hs => exact .inr ⟨session, hs, rfl⟩

lemma requeue_cases (b : Broker) (id : ClientId) (k : ConnectionId) (unsent : List Publish) :
    (b.requeue id k unsent).2 = b ∨ ∃ session, b.session? id = some session ∧
      (b.requeue id k unsent).2 =
        b.setSession id { session with queue := Session.keepable unsent ++ session.queue } := by
  unfold requeue
  split
  · exact .inl rfl
  next session hs =>
    split
    · exact .inl rfl
    · exact .inr ⟨session, (boundSession?_eq_some.mp hs).1, rfl⟩

lemma teardown_eq (b : Broker) (id : ClientId) (session : Session) :
    b.teardown id session = ((b.detach id session).dropSession id).withBooks b.calls
      (b.cleared id !session.clean) b.identified := by
  unfold teardown detach cleared
  cases session.clean <;> cases session.attached <;> rfl

lemma detach_eq (b : Broker) (id : ClientId) (session : Session) :
    ∃ directory, b.detach id session = { b with directory } := by
  unfold detach
  split
  · exact ⟨_, rfl⟩
  · exact ⟨b.directory, rfl⟩

@[simp] lemma connections_detach (session : Session) :
    (b.detach id session).connections = b.connections := by
  obtain ⟨directory, he⟩ := b.detach_eq id session
  rw [he]

@[simp] lemma session?_detach (session : Session) {other : ClientId} :
    (b.detach id session).session? other = b.session? other := by
  obtain ⟨directory, he⟩ := b.detach_eq id session
  rw [he]
  rfl

@[simp] lemma history_detach (session : Session) :
    (b.detach id session).history = b.history := by
  obtain ⟨directory, he⟩ := b.detach_eq id session
  rw [he]

@[simp] lemma connections_teardown (session : Session) :
    (b.teardown id session).connections = b.connections := by
  rw [teardown_eq]
  exact connections_detach session

@[simp] lemma connection_teardown (session : Session) :
    (b.teardown id session).connection k = b.connection k := by
  rw [connection, connections_teardown, connection]

lemma session?_teardown (session : Session) {other : ClientId} :
    (b.teardown id session).session? other = if id = other then none else b.session? other := by
  rw [teardown_eq, session?_withBooks, session?_dropSession, session?_detach]

@[simp] lemma history_teardown (session : Session) :
    (b.teardown id session).history = b.history := by
  rw [teardown_eq]
  simp

lemma unbind_cases (b : Broker) (id : ClientId) (k : ConnectionId) (remove : Bool) :
    b.boundSession? id k = none ∧ (b.unbind id k remove).2 = b ∨
      ∃ session, b.session? id = some session ∧ session.connection = some k ∧
        (b.unbind id k remove).2 =
          if remove then b.teardown id session
          else b.setSession id { session with connection := none } := by
  unfold unbind
  split
  next hs => exact .inl ⟨hs, rfl⟩
  next session hs =>
    obtain ⟨hs, hk⟩ := boundSession?_eq_some.mp hs
    exact .inr ⟨session, hs, hk, rfl⟩

@[simp] lemma connections_unbind (remove : Bool) :
    (b.unbind id k remove).2.connections = b.connections := by
  obtain ⟨-, he⟩ | ⟨session, -, -, he⟩ := unbind_cases b id k remove <;> rw [he]
  split
  · exact connections_teardown session
  · rfl

@[simp] lemma connection_unbind {j : ConnectionId} (remove : Bool) :
    (b.unbind id k remove).2.connection j = b.connection j := by
  rw [connection, connections_unbind, connection]

/-- A connection that was never accepted counts as closed. -/
lemma state_closeConnection (b : Broker) (k : ConnectionId) :
    ((b.closeConnection k).connection k).state = .closed := by
  unfold closeConnection
  by_cases hk : k < b.connections.size
  · rw [connection_modifyConnection _ hk, if_pos rfl]
    rfl
  · rw [modifyConnection_absent _ hk, connection_of_not_lt hk]
    rfl

lemma expire_cases (b : Broker) (id : ClientId) :
    (b.expire id).2 = b ∧ b.session? id = none ∨ ∃ session, b.session? id = some session ∧
      (session.connection = none ∧ (b.expire id).2 = b.teardown id session ∨
        ∃ k, session.connection = some k ∧
          (b.expire id).2 = (b.closeConnection k).teardown id session) := by
  unfold expire
  cases hs : b.session? id with
  | none => exact .inl ⟨rfl, rfl⟩
  | some session =>
    refine .inr ⟨session, rfl, ?_⟩
    cases hk : session.connection with
    | none => exact .inl ⟨rfl, by simp only [hk]⟩
    | some k => exact .inr ⟨k, rfl, by simp only [hk, closeConnection]⟩

/-- A session expires in two steps: the connection that has it is closed, and it is torn down. -/
theorem expire_induction {P : Broker → Prop} (h : P b) (id : ClientId)
    (close : ∀ k, P (b.closeConnection k))
    (teardown : ∀ b session, P b → b.session? id = some session →
      (∀ k, session.connection = some k → (b.connection k).state = .closed) →
        P (b.teardown id session)) : P (b.expire id).2 := by
  obtain ⟨he, -⟩ | ⟨session, hs, ⟨hk, he⟩ | ⟨k, hk, he⟩⟩ := expire_cases b id <;> rw [he]
  · exact h
  · refine teardown b session h hs fun j hj => ?_
    rw [hk] at hj
    cases hj
  · refine teardown _ session (close k) hs fun j hj => ?_
    rw [hk] at hj
    cases hj
    exact b.state_closeConnection k

/-- The connection that has a session is closed when it expires. -/
lemma state_expire {session : Session} (hs : b.session? id = some session)
    (hk : session.connection = some k) : ((b.expire id).2.connection k).state = .closed := by
  obtain ⟨-, hn⟩ | ⟨found, hf, ⟨hn, -⟩ | ⟨j, hj, he⟩⟩ := expire_cases b id
  · rw [hs] at hn
    cases hn
  · rw [hs] at hf
    cases hf
    rw [hk] at hn
    cases hn
  · rw [hs] at hf
    cases hf
    rw [hk] at hj
    cases hj
    rw [he, connection_teardown]
    exact b.state_closeConnection k

lemma session?_expire (b : Broker) (id : ClientId) : (b.expire id).2.session? id = none := by
  obtain ⟨he, hs⟩ | ⟨session, -, ⟨-, he⟩ | ⟨k, -, he⟩⟩ := expire_cases b id <;> rw [he]
  · exact hs
  · rw [session?_teardown, if_pos rfl]
  · rw [session?_teardown, if_pos rfl]

lemma expire_fst (b : Broker) (id : ClientId) : (b.expire id).1 = (b.session? id).isSome := by
  unfold expire
  cases b.session? id <;> rfl

end MqttBroker.Broker
