import MqttBroker.Proofs.Broker.Opening
import MqttBroker.Proofs.Broker.Run
import MqttBroker.Proofs.Broker.Serving

/-!
A connection serves one client, and a session is only bound to a connection of its own client:
this holds throughout every run in which connections are driven by their actors.
-/
namespace MqttBroker.Broker

/-- Sessions and their histories name connections of their own clients. -/
structure Consistent (b : Broker) : Prop where
  regular : ∀ k, (b.connection k).Regular
  bound : ∀ id session k, b.session? id = some session → session.connection = some k →
    (b.connection k).clientId = some id
  noted : ∀ id k, .bound k ∈ b.history id → (b.connection k).clientId = some id

/-- The CONNECT of the operation is the admission of its client. -/
def Enters (b b' : Broker) (k : ConnectionId) (operation : Operation) : Prop :=
  ∃ connect client sent unsent admitted, operation.Presents k connect ∧
    (b.connection k).state = .idle ∧ b.willAllowed connect = true ∧
    Joined b admitted k client connect.clean connect.will sent unsent ∧
    Opens b admitted k (sent ++ unsent) (b.processConnect .quiet k connect) ∧
    b' = (b.processConnect .quiet k connect).2

variable {b b' : Broker} {k : ConnectionId} {id : ClientId} {actor : Option ClientId}
  {session : Session} {operation : Operation}

lemma presents_inj {connect other : Connect} (h : operation.Presents k connect)
    (h' : operation.Presents k other) : connect = other := by
  obtain rfl | rfl := h <;> obtain he | he := h' <;> cases he
  · rfl
  · rfl

namespace Consistent

/-- Nothing is routed to a connection before the end of its admission. -/
lemma begun (h : b.Consistent) (hc : (b.connection k).clientId = some id) :
    (b.connection k).Begun := by
  by_contra hb
  rw [((h.regular k).waiting hb).1] at hc
  cases hc

/-- Clients of connections stay, and sessions are at most let go. -/
lemma unbound (h : b.Consistent) (hu : Unbound b b') (hr : ∀ k, (b'.connection k).Regular)
    (hc : ∀ k, (b'.connection k).clientId = (b.connection k).clientId) : b'.Consistent where
  regular := hr
  bound id session k hs hk := by
    obtain ⟨old, hs, -, hb⟩ := hu.sessions id session hs
    rw [hc]
    exact h.bound id old k hs (hb k hk)
  noted id k hn := by
    rw [hc]
    exact h.noted id k (hu.history id k hn)

lemma route (h : b.Consistent) (id : ClientId) (publish : Publish) (j : ConnectionId) :
    ((b.route id publish).2.connection j).Regular :=
  route_rel publish (P := fun c d => c.Regular → d.Regular) (fun _ hc => hc) j
    (fun session hs hk hc => hc.deliver (h.begun (h.bound id session j hs hk)) publish)
    (h.regular j)

/-- What a change of one connection keeps if it hands nothing over. -/
lemma regular_onward (h : b.Consistent) {change : Connection → Connection}
    (ho : (b.connection k).Onward (change (b.connection k))) (j : ConnectionId) :
    ((b.modifyConnection k change).connection j).Regular :=
  modifyConnection_rel (P := fun c d => c.Regular → d.Regular) (fun _ hc => hc)
    (fun hc => ho.regular hc) j (h.regular j)

lemma chore (h : b.Consistent) (hs : Chore k b b') (j : ConnectionId) :
    (b'.connection j).Regular := by
  cases hs with
  | books => exact h.regular j
  | send hp => exact h.regular_onward (Connection.wrote_control hp _).onward j
  | close => exact h.regular_onward (Connection.onward_close _) j
  | advance hs ht =>
    rw [setState_snd]
    exact h.regular_onward (Connection.onward_transition hs ht _) j

lemma serve (h : b.Consistent) (hs : Service k actor b b')
    (ha : ∀ id, actor = some id → (b.connection k).clientId = some id) : b'.Consistent := by
  refine h.unbound hs.undisturbed.unbound (fun j => ?_) fun j => (hs.steady j).clientId
  cases hs with
  | chore hs => exact h.chore hs j
  | deliver hp =>
    exact h.regular_onward (Connection.wrote_deliver_retained hp (h.begun (ha _ rfl))).onward j
  | route id publish granted => exact h.route id _ j
  | retain | subscribe | unsubscribe => simpa using h.regular j

/-- What one move of an actor keeps. -/
theorem move (h : b.Consistent) (hm : Move k actor b b')
    (ha : ∀ id, actor = some id → (b.connection k).clientId = some id) : b'.Consistent := by
  refine h.unbound hm.unbound (fun j => ?_) fun j => (hm.kept j).clientId
  cases hm with
  | serve hs => exact (h.serve hs ha).regular j
  | forget => exact h.regular_onward (Connection.onward_forget _) j
  | noteFired will => exact h.regular_onward (Connection.onward_noteFired will _) j
  | takeWill | unbind => simpa using h.regular j

theorem moves (h : b.Consistent) (hm : Moves k actor b b')
    (ha : ∀ id, actor = some id → (b.connection k).clientId = some id) : b'.Consistent := by
  induction hm with
  | refl => exact h
  | tail hm hs ih =>
    exact ih.move hs fun id hi => (Moves.kept hm k).clientId.trans (ha id hi)

lemma clientId_of_idle (h : b.Consistent) (hs : (b.connection k).state = .idle) :
    (b.connection k).clientId = none :=
  ((h.regular k).waiting (by rw [Connection.Begun, hs]; nofun)).1

/-- Nobody is served on a connection that was bound for nobody. -/
lemma client_of_clientId (h : b.Consistent) (hi : (b.connection k).clientId = none) :
    (b.connection k).client = none := by
  refine Option.eq_none_iff_forall_ne_some.mpr fun info hc => ?_
  rw [(h.regular k).admitted info hc] at hi
  cases hi

lemma client_of_idle (h : b.Consistent) (hs : (b.connection k).state = .idle) :
    (b.connection k).client = none :=
  h.client_of_clientId (h.clientId_of_idle hs)

/-- Whoever is served is served on another connection than one that nobody was admitted on. -/
lemma ne_of_idle (h : b.Consistent) (hs : (b.connection k).state = .idle) {j : ConnectionId}
    (hj : (b.connection j).clientId = some id) : k ≠ j := by
  rintro rfl
  rw [h.clientId_of_idle hs] at hj
  cases hj

/-- A CONNECT is refused, or its client enters. -/
lemma processConnect_enters (h : b.Consistent) (k : ConnectionId) {connect : Connect}
    (hp : operation.Presents k connect) : Refused k b (b.processConnect .quiet k connect) ∨
      Enters b (b.processConnect .quiet k connect).2 k operation := by
  obtain hr | ⟨client, isGiven, sent, unsent, admitted, hs, hw, -, hj, hd⟩ :=
    b.admission_cases k connect (h.regular k).held h.clientId_of_idle
  · exact .inl hr
  · exact .inr ⟨connect, client, sent, unsent, admitted, hp, hs, hw, hj, hd, rfl⟩

/-- The end of an admission: from now on the connection serves its client. -/
lemma joined (h : b.Consistent) {client : ClientInfo} {clean : Bool} {will : Option Will}
    {sent unsent : List Publish} (hs : (b.connection k).state = .idle)
    (hj : Joined b b' k client clean will sent unsent) : b'.Consistent := by
  obtain ⟨-, ha, hw, -⟩ := hj
  -- other connections are at most evicted, and serve whom they served
  have hc : ∀ id j, (b.connection j).clientId = some id → (b'.connection j).clientId = some id := by
    intro id j hj
    rcases ha.others_cases (h.ne_of_idle hs hj) with he | he <;> rw [he] <;> exact hj
  have hk : (b'.connection k).clientId = some client.id := hw.kept.clientId
  refine ⟨fun j => ?_, fun id session j hb hj => ?_, fun id j hj => ?_⟩
  · by_cases hj : k = j
    · subst hj
      refine hw.regular (.inl rfl) ⟨fun info hi => ?_, fun hb => absurd (.inl rfl) hb, rfl,
        (h.regular k).sound⟩
      cases hi
      rfl
    · rcases ha.others_cases hj with he | he <;> rw [he]
      · exact h.regular j
      · exact (Connection.onward_evict _).regular (h.regular j)
  · by_cases hi : id = client.id
    · subst hi
      obtain ⟨bound, hb', -, hk', -⟩ := ha.session
      rw [hb] at hb'
      cases hb'
      rw [hj] at hk'
      cases hk'
      exact hk
    · rw [ha.sessions id hi] at hb
      exact hc id j (h.bound id session j hb hj)
  · rw [ha.history] at hj
    split at hj
    next hi =>
      subst hi
      rcases List.mem_append.mp hj with hj | hj
      · exact hc _ j (h.noted _ j hj)
      · cases List.mem_singleton.mp hj
        exact hk
    next => exact hc id j (h.noted id j hj)

theorem processConnect (h : b.Consistent) (k : ConnectionId) (connect : Connect) :
    (b.processConnect .quiet k connect).2.Consistent := by
  obtain hr | ⟨client, isGiven, sent, unsent, b', hs, -, -, hj, hd⟩ :=
    b.admission_cases k connect (h.regular k).held h.clientId_of_idle
  · exact h.moves hr.services.moves nofun
  · refine (h.joined hs hj).moves (hd.served.still.moves hj.speaksFor) fun id hi => ?_
    cases hi
    exact hj.wrote.kept.clientId

/-- The client of a connection is the one it was bound for. -/
lemma speaker (h : b.Consistent) (hi : b.speaker k = some id) :
    (b.connection k).clientId = some id := by
  obtain ⟨info, hc, rfl⟩ := Option.map_eq_some_iff.mp hi
  exact (h.regular k).admitted info hc

theorem handle (h : b.Consistent) (k : ConnectionId) (event : Event) :
    (b.handle .quiet k event).2.Consistent := by
  obtain hm | ⟨connect, -, -, he⟩ := b.handle_moves k event
  · exact h.moves hm fun id hi => h.speaker hi
  · rw [he]
    exact h.processConnect k connect

lemma close (h : b.Consistent) (k : ConnectionId) : (b.closeConnection k).Consistent :=
  h.move (.serve (.chore .close) : Move k none b _) nofun

lemma teardown (h : b.Consistent) (id : ClientId) (session : Session) :
    (b.teardown id session).Consistent := by
  refine h.unbound (unbound_teardown b id session) (fun k => ?_) fun k => ?_
  · rw [connection_teardown]
    exact h.regular k
  · rw [connection_teardown]

theorem expire (h : b.Consistent) (id : ClientId) : (b.expire id).2.Consistent :=
  expire_induction h id h.close fun _ session h _ _ => h.teardown id session

theorem fault (h : b.Consistent) (k : ConnectionId) (fault : Fault) :
    (b.perform (.fault k fault)).Consistent := by
  have ho := Connection.onward_suffer fault
  exact h.unbound (unbound_of_same (fun _ => rfl) rfl) (h.regular_onward (ho _))
    (modifyConnection_rel (P := fun c d => d.clientId = c.clientId) (fun _ => rfl) rfl)

theorem accept (h : b.Consistent) : b.accept.2.Consistent := by
  have hn : (b.connection b.connections.size).clientId = none := by
    rw [connection_of_not_lt (lt_irrefl _)]
    rfl
  refine h.unbound (unbound_of_same (fun _ => rfl) rfl) (fun k => ?_) fun k => ?_ <;>
    rw [connection_accept] <;> split
  · exact Connection.regular_fresh
  · exact h.regular k
  next he => rw [he, hn]; rfl
  · rfl

theorem perform (h : b.Consistent) (ho : operation.IsDriven b) :
    (b.perform operation).Consistent := by
  cases operation with
  | accept => exact h.accept
  | connect k connect => exact h.processConnect k connect
  | event k event => exact h.handle k event
  | expire id => exact h.expire id
  | fault k fault => exact h.fault k fault
  | _ => exact ho.elim

theorem of_opened (h : b.Opened) : b.Consistent where
  regular k := by
    rw [h.connection]
    exact Connection.regular_absent
  bound id session k hs := by
    rw [h.session?] at hs
    cases hs
  noted id k hn := by
    rw [h.history] at hn
    cases hn

end Consistent
end MqttBroker.Broker
