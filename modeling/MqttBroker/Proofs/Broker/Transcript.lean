import MqttBroker.Proofs.Broker.Fencing

/-!
All that the peer of a connection receives: nothing, or a refusal, or a CONNACK that accepts and
then no CONNACK any more.  The state of a connection says which of these it is.
-/
namespace MqttBroker

/-- The packets that a peer may receive in all. -/
inductive Transcript : List Packet → Prop
  | silent : Transcript []
  | refused {code} (h : code ≠ .accepted) : Transcript [.connack false code]
  | admitted (resumed) {rest} (h : ∀ packet ∈ rest, packet.isConnack = false) :
    Transcript (.connack resumed .accepted :: rest)

/-- Whoever has received a CONNACK that accepts may receive any other packet. -/
lemma Transcript.concat {resumed : Bool} {packets : List Packet} {packet : Packet}
    (h : Transcript (.connack resumed .accepted :: packets)) (hp : packet.isConnack = false) :
    Transcript (.connack resumed .accepted :: (packets ++ [packet])) := by
  cases h with
  | refused hc => exact absurd rfl hc
  | admitted resumed hr =>
    refine .admitted resumed fun other hm => ?_
    rcases List.mem_append.mp hm with hm | hm
    · exact hr other hm
    · cases List.mem_singleton.mp hm
      exact hp

namespace Connection

/-- What the peer has received so far. -/
def received (c : Connection) : List Packet := c.transport.written.toList

/-- Between the steps of actors a connection has received what its state says: nothing before it is
admitted, the CONNACK while it is established, and all there will be once it is closed. -/
structure Proper (c : Connection) : Prop where
  transcript : Transcript c.received
  waiting : ¬ c.Begun → c.received = []
  served : c.state = .established →
    ∃ resumed rest, c.received = .connack resumed .accepted :: rest
  ended : c.state = .closed → c.transport.isOpen = false
  begun : ∀ info, c.client = some info → c.Begun

/-- The connection stays proper, and receives nothing once it is closed. -/
structure Continues (c d : Connection) : Prop where
  proper : c.Proper → d.Proper
  ended : c.Proper → c.state = .closed → d.state = .closed ∧ d.received = c.received

variable {c d e : Connection} {packet : Packet}

lemma proper_absent : absent.Proper :=
  ⟨.silent, fun _ => rfl, by simp [absent], fun _ => rfl, by simp [absent, fresh]⟩

lemma proper_fresh : fresh.Proper :=
  ⟨.silent, fun _ => rfl, by simp [fresh], by simp [fresh], by simp [fresh]⟩

section received

lemma received_send (c : Connection) (packet : Packet) :
    (c.send packet).2.received = if c.transport.Fails then c.received else c.received ++ [packet] := by
  have hw := c.transport.written_send packet
  unfold received
  change (c.transport.send packet).2.written.toList = _
  rw [hw]
  split
  · rfl
  · exact Array.toList_push

/-- Once the transport is closed, all writes fail. -/
lemma received_send_closed (h : c.transport.isOpen = false) (packet : Packet) :
    (c.send packet).2.received = c.received := by
  rw [received_send, if_pos (.inr (.inl h))]

@[simp] lemma isOpen_send (c : Connection) (packet : Packet) :
    (c.send packet).2.transport.isOpen = c.transport.isOpen := by
  obtain ⟨-, he⟩ | ⟨-, error, he⟩ := c.transport.send_cases packet <;>
    exact congrArg (fun result => result.2.isOpen) he

end received

namespace Continues

lemma refl (c : Connection) : Continues c c := ⟨id, fun _ h => ⟨h, rfl⟩⟩

lemma trans (h : Continues c d) (h' : Continues d e) : Continues c e where
  proper hc := h'.proper (h.proper hc)
  ended hc hs := by
    obtain ⟨hd, hr⟩ := h.ended hc hs
    obtain ⟨he, hr'⟩ := h'.ended (h.proper hc) hd
    exact ⟨he, hr'.trans hr⟩

/-- Nothing of what matters changes. -/
lemma of_eq (ht : d.transport.written = c.transport.written)
    (ho : c.transport.isOpen = false → d.transport.isOpen = false) (hs : d.state = c.state)
    (hc : ∀ info, d.client = some info → c.client = some info) : Continues c d := by
  have hr : d.received = c.received := congrArg Array.toList ht
  constructor
  · intro h
    have hb : d.Begun ↔ c.Begun := by rw [Begun, Begun, hs]
    refine ⟨hr ▸ h.transcript, fun hn => ?_, fun he => ?_, fun he => ?_, fun info hi => ?_⟩
    · rw [hr]
      exact h.waiting (mt hb.mpr hn)
    · rw [hr]
      exact h.served (hs ▸ he)
    · exact ho (h.ended (hs ▸ he))
    · exact hb.mpr (h.begun info (hc info hi))
  · intro _ he
    exact ⟨hs.trans he, hr⟩

/-- A connection past its admission may receive anything but a CONNACK. -/
lemma send (hb : c.Begun) (hp : packet.isConnack = false) : Continues c (c.send packet).2 := by
  constructor
  · intro h
    rcases hb with hs | hs
    · obtain ⟨resumed, rest, hr⟩ := h.served hs
      have hr' : ∃ rest, (c.send packet).2.received = .connack resumed .accepted :: rest ∧
          Transcript (c.send packet).2.received := by
        rw [received_send]
        split
        · exact ⟨rest, hr, h.transcript⟩
        · refine ⟨rest ++ [packet], by rw [hr, List.cons_append], ?_⟩
          rw [hr, List.cons_append]
          exact (hr ▸ h.transcript).concat hp
      obtain ⟨rest, hr', ht⟩ := hr'
      refine ⟨ht, fun hn => absurd (.inl hs) hn, fun _ => ⟨resumed, rest, hr'⟩, fun he => ?_,
        fun _ _ => .inl hs⟩
      have he : c.state = .closed := he
      rw [hs] at he
      cases he
    · have ho := h.ended hs
      have hr := received_send_closed ho packet
      refine ⟨hr ▸ h.transcript, fun hn => absurd (.inr hs) hn, fun he => ?_, fun _ => ?_,
        fun _ _ => .inr hs⟩
      · have he : c.state = .established := he
        rw [hs] at he
        cases he
      · rw [isOpen_send]
        exact ho
  · intro h hs
    exact ⟨hs, received_send_closed (h.ended hs) packet⟩

lemma writePublish (hb : c.Begun) (publish : Publish) :
    Continues c (c.writePublish publish).2 := by
  unfold Connection.writePublish
  split
  · exact .send hb rfl
  · obtain ⟨id, nextId, ha⟩ := c.allocateId_eq
    rw [ha]
    have hn : Continues c { c with nextId } := .of_eq rfl (fun h => h) rfl fun _ h => h
    exact hn.trans (.send (c := { c with nextId }) hb rfl)

/-- A publish reaches the peer of an established connection only. -/
lemma deliver (c : Connection) (publish : Publish) : Continues c (c.deliver publish).2 := by
  unfold Connection.deliver
  split
  next hs => exact .writePublish (.inl hs) publish
  next => exact .of_eq rfl id rfl fun _ => id
  next => exact .refl c

/-- A connection that is closed has received all there will be. -/
lemma close (c : Connection) : Continues c c.close := by
  constructor
  · intro h
    exact ⟨h.transcript, fun hn => absurd (.inr rfl) hn, by simp [Connection.close], fun _ => rfl,
      fun _ _ => .inr rfl⟩
  · intro _ _
    exact ⟨rfl, rfl⟩

lemma evict (c : Connection) : Continues c c.evict :=
  (close c).trans (.of_eq rfl id rfl fun _ => id)

lemma suffer (fault : Fault) (c : Connection) :
    Continues c { c with transport := c.transport.suffer fault } := by
  cases fault with
  | closed => exact .of_eq rfl (fun _ => rfl) rfl fun _ => id
  | peerGone | breaks => exact .of_eq rfl id rfl fun _ => id

end Continues

/-- A connection may be turned away by a code as long as nobody was admitted. -/
lemma Continues.turnAway {answer : Option ConnackCode} (hc : answer ≠ some .accepted)
    (hs : answer ≠ none → ¬ c.Begun) : Continues c (c.turnAway answer) := by
  cases answer with
  | none => exact .close c
  | some code =>
    have hs := hs (by simp)
    refine ⟨fun h => ?_, fun _ he => absurd (.inr he) hs⟩
    have hr : (c.turnAway (some code)).received =
        if c.transport.Fails then c.received else c.received ++ [.connack false code] :=
      received_send c (.connack false code)
    have ht : Transcript (c.turnAway (some code)).received := by
      rw [hr, h.waiting hs]
      split
      · exact .silent
      · exact .refused (by simpa using hc)
    have hstate := c.state_turnAway (some code)
    refine ⟨ht, fun hn => absurd (.inr hstate) hn, fun he => ?_, fun _ => c.isOpen_turnAway _,
      fun _ _ => .inr hstate⟩
    rw [hstate] at he
    cases he

/-- A connection that was greeted is proper if it got the CONNACK, and in any case once it is
closed. -/
lemma Greeted.proper {resumed : Bool} (h : Greeted resumed c d) (hc : c.received = []) :
    d.close.Proper ∧ (d.state = .established → ¬ c.transport.Fails → d.Proper) := by
  have hr : (c.transport.Fails ∧ d.received = []) ∨ (¬ c.transport.Fails ∧ ∃ publishes,
      d.received = .connack resumed .accepted :: List.map Packet.publish publishes) := by
    refine h.imp (fun ⟨hf, hw⟩ => ⟨hf, ?_⟩) fun ⟨hf, publishes, hw⟩ => ⟨hf, publishes, ?_⟩
    · exact (congrArg Array.toList hw).trans hc
    · have hc : c.transport.written.toList = [] := hc
      rw [hc, List.nil_append] at hw
      exact hw
  have ht : Transcript d.received := by
    obtain ⟨-, hr⟩ | ⟨-, publishes, hr⟩ := hr <;> rw [hr]
    · exact .silent
    · refine .admitted resumed fun packet hm => ?_
      obtain ⟨publish, -, rfl⟩ := List.mem_map.mp hm
      rfl
  constructor
  · exact ⟨ht, fun hn => absurd (.inr rfl) hn, by simp [Connection.close], fun _ => rfl,
      fun _ _ => .inr rfl⟩
  · intro hs hf
    refine ⟨ht, fun hn => absurd (.inl hs) hn, fun _ => ?_, fun he => ?_, fun _ _ => .inl hs⟩
    · obtain ⟨hn, -⟩ | ⟨-, publishes, hr⟩ := hr
      · exact absurd hn hf
      · exact ⟨resumed, _, hr⟩
    · rw [hs] at he
      cases he

end Connection

namespace Broker

variable {b b' : Broker} {k j : ConnectionId} {client : ClientInfo} {connect : Connect}

/-- Every connection stays proper, and receives nothing once it is closed. -/
def Continues (b b' : Broker) : Prop :=
  ∀ j, (b.connection j).Continues (b'.connection j)

/-- All connections are proper. -/
def Proper (b : Broker) : Prop := ∀ j, (b.connection j).Proper

namespace Continues

lemma refl (b : Broker) : Continues b b := fun _ => .refl _

lemma trans {b'' : Broker} (h : Continues b b') (h' : Continues b' b'') : Continues b b'' :=
  fun j => (h j).trans (h' j)

lemma proper (h : Continues b b') (hp : b.Proper) : b'.Proper := fun j => (h j).proper (hp j)

lemma of_connections (h : b'.connections = b.connections) : Continues b b' := by
  intro j
  have hj : b'.connection j = b.connection j := by rw [connection, h, connection]
  rw [hj]
  exact .refl _

lemma modifyConnection {change : Connection → Connection}
    (h : (b.connection k).Continues (change (b.connection k))) :
    Continues b (b.modifyConnection k change) :=
  modifyConnection_rel .refl h

lemma close (b : Broker) (k : ConnectionId) : Continues b (b.closeConnection k) :=
  .modifyConnection (.close _)

end Continues

section steps

lemma publish_continues (b : Broker) (publish : Publish) :
    Continues b (b.publish publish).2 := by
  have hfan : ∀ (targets : List (ClientId × QoS)) (b : Broker),
      Continues b (b.fanOut publish targets).2 := by
    intro targets
    induction targets with
    | nil => exact .refl
    | cons target rest ih =>
      intro b
      have hroute : Continues b (b.route target.1 (publish.copyFor target.2)).2 := fun j =>
        route_rel _ .refl j fun _ _ _ => .deliver _ _
      exact hroute.trans (ih _)
  have hretain : Continues b (b.retain publish) := by
    obtain ⟨retained, he⟩ := b.retain_eq publish
    rw [he]
    exact .of_connections rfl
  exact hretain.trans (hfan _ _)

lemma Errand.continues (h : Errand k client b b') (hb : (b.connection k).Begun) :
    Continues b b' := by
  cases h with
  | answer hp => exact .modifyConnection (.send hb hp.notConnack)
  | deliver => exact .modifyConnection (.deliver _ _)
  | subscribe filter qos => exact .of_connections (connections_subscribe filter client qos)
  | unsubscribe filter => exact .of_connections (by simp)

/-- What an actor does for the client that was admitted on its connection. -/
lemma Deed.continues (h : Deed k client b b') (hb : (b.connection k).Begun) : Continues b b' := by
  cases h with
  | errand h => exact h.continues hb
  | publish => exact publish_continues b _

lemma executeWill_continues (b : Broker) (k : ConnectionId) (will : Option Will) :
    Continues b (b.executeWill k will) := by
  cases will with
  | none => exact .refl b
  | some will =>
    have hf : Continues b (b.fireWill will).2 := by
      unfold fireWill
      split
      · exact .refl b
      · exact publish_continues b _
    exact hf.trans (.modifyConnection (.of_eq rfl id rfl fun _ => id))

lemma Parting.continues (h : Parting k b b') : Continues b b' := by
  cases h with
  | close => exact .close b k
  | forget => exact .modifyConnection (.of_eq rfl id rfl (by simp))
  | bequeath id =>
    have ht : Continues b (b.takeWill id k).2 := .of_connections connections_takeWill
    exact ht.trans (executeWill_continues _ k _)
  | discard id => exact .of_connections connections_takeWill
  | unbind id => exact .of_connections (connections_unbind _)

lemma Partings.continues (h : Partings k b b') : Continues b b' := by
  induction h with
  | refl => exact .refl b
  | tail _ hp ih => exact ih.trans hp.continues

/-- One act of an actor: it answers its client only past its admission. -/
theorem Act.continues (h : Act k b b') (hp : b.Proper) : Continues b b' := by
  cases h with
  | deed hc hd => exact hd.continues ((hp k).begun _ hc)
  | part h => exact h.continues

theorem Acts.continues (h : Acts k b b') (hp : b.Proper) : Continues b b' := by
  induction h with
  | refl => exact .refl b
  | tail _ ha ih => exact ih.trans (ha.continues (ih.proper hp))

end steps

section operations

/-- A lost connection is closed first. -/
lemma connectionLost_continues (b : Broker) (k : ConnectionId) :
    Continues (b.closeConnection k) (b.connectionLost k) := by
  rw [← connectionLost_closeConnection]
  exact (connectionLost_partings _ k).continues

/-- A connection that was just admitted got the CONNACK, or it is lost. -/
lemma admission_continues {b' : Broker} {clean resumed : Bool} {will : Option Will}
    {sent unsent : List Publish} {result : ConnectResult × Broker}
    (hs : (b.connection k).state = .idle) (hj : Joined b b' k client clean will sent unsent)
    (ho : Opens b b' k (sent ++ unsent) result) (hg : Greets b b' k resumed result) :
    Continues b result.2 := by
  have hbegun : ¬ (b.connection k).Begun := by simp [Connection.Begun, hs]
  have hothers : ∀ j, k ≠ j → (b.connection j).Continues (b'.connection j) := by
    intro j hkj
    obtain he | he := hj.admitted.others_cases hkj <;> rw [he]
    · exact .refl _
    · exact .evict _
  have hstate : (b'.connection k).state = .established := by rw [hj.wrote.frame]
  obtain ⟨hserved, haccepted⟩ := ho
  obtain ⟨answer, final⟩ := result
  dsimp only at haccepted hserved ⊢
  generalize hr : answer.isAccepted = accepted at haccepted hserved
  intro j
  by_cases hkj : k = j
  · subst hkj
    refine ⟨fun hp => ?_, fun _ he => absurd (.inr he) hbegun⟩
    obtain ⟨hclosed, hopen⟩ := hg.greeted.proper (hp.waiting hbegun)
    cases hserved with
    | goesOn he =>
      subst he
      have hf := haccepted.mp rfl
      rw [Transport.failsWithin_succ (.connack resumed .accepted), not_or] at hf
      exact hopen hstate hf.1
    | lost he =>
      subst he
      have hk : k < b'.connections.size := lt_size_of_state (by simp [hstate])
      refine (connectionLost_continues b' k k).proper ?_
      rw [closeConnection, connection_modifyConnection _ hk, if_pos rfl]
      exact hclosed
  · cases hserved with
    | goesOn he =>
      subst he
      exact hothers j hkj
    | lost he =>
      subst he
      have hclose := hothers j hkj
      rw [← connection_modifyConnection_of_ne (b := b') .close hkj] at hclose
      exact hclose.trans (connectionLost_continues b' k j)

theorem processConnect_continues (hc : b.Consistent) (k : ConnectionId) (connect : Connect) :
    Continues b (b.processConnect .quiet k connect).2 := by
  obtain ⟨answer, ht, hi⟩ | ⟨client, outcome, bound, sent, unsent, b', hb, -, hj, ho, hg⟩ :=
    b.admission_outcome k connect (hc.regular k).held hc.clientId_of_idle
  · obtain ⟨calls, stored, -, he⟩ := ht.broker
    rw [he]
    have hn : answer ≠ none → ¬ (b.connection k).Begun := by
      intro ha
      simp [Connection.Begun, hi ha]
    have hturned : Continues b (b.modifyConnection k (·.turnAway answer)) :=
      .modifyConnection (.turnAway ht.code hn)
    exact hturned
  · exact admission_continues hb.idle hj ho hg

theorem handle_continues (hc : b.Consistent) (hp : b.Proper) (k : ConnectionId) (event : Event) :
    Continues b (b.handle .quiet k event).2 := by
  obtain ha | ⟨connect, -, -, he⟩ := b.handle_acts k event
  · exact ha.continues hp
  · rw [he]
    exact processConnect_continues hc k connect

lemma expire_continues (b : Broker) (id : ClientId) : Continues b (b.expire id).2 :=
  expire_induction (P := Continues b) (.refl b) id (.close b) fun _ session h _ _ =>
    h.trans (.of_connections (connections_teardown session))

/-- What one operation does to the connections that were accepted; a new one is proper, too. -/
theorem Proper.perform (hp : b.Proper) (hc : b.Consistent) {operation : Operation}
    (ho : operation.IsDriven b) : (b.perform operation).Proper ∧
      ∀ j < b.connections.size, (b.connection j).Continues ((b.perform operation).connection j) := by
  have hall : Continues b (b.perform operation) → (b.perform operation).Proper ∧
      ∀ j < b.connections.size, (b.connection j).Continues ((b.perform operation).connection j) :=
    fun h => ⟨h.proper hp, fun j _ => h j⟩
  cases operation with
  | accept =>
    refine ⟨fun j => ?_, fun j hj => ?_⟩
    · change (b.accept.2.connection j).Proper
      rw [connection_accept]
      split
      · exact Connection.proper_fresh
      · exact hp j
    · change (b.connection j).Continues (b.accept.2.connection j)
      rw [connection_accept, if_neg hj.ne]
      exact .refl _
  | connect k connect => exact hall (processConnect_continues hc k connect)
  | event k event => exact hall (handle_continues hc hp k event)
  | expire id => exact hall (expire_continues b id)
  | fault k fault => exact hall (.modifyConnection (.suffer fault _))
  | _ => exact ho.elim

/-- What a whole run does to them. -/
theorem Proper.after (hp : b.Proper) (hc : b.Consistent) {operations : List Operation}
    (ha : b.Allows (fun b operation => operation.IsDriven b) operations) :
    (b.after operations).Proper ∧
      ∀ j < b.connections.size, (b.connection j).Continues ((b.after operations).connection j) := by
  induction operations generalizing b with
  | nil => exact ⟨hp, fun j _ => .refl _⟩
  | cons operation operations ih =>
    obtain ⟨ho, ha⟩ := ha
    obtain ⟨hp', hstep⟩ := hp.perform hc ho
    obtain ⟨hfinal, hrest⟩ := ih hp' (hc.perform ho) ha
    refine ⟨hfinal, fun j hj => (hstep j hj).trans (hrest j ?_)⟩
    exact hj.trans_le (Abides.perform hc ho).size

lemma proper_of_opened (h : b.Opened) : b.Proper := by
  intro j
  rw [h.connection]
  exact Connection.proper_absent

/-- The CONNECT of an operation is processed unless somebody was admitted on its connection. -/
lemma perform_presents {operation : Operation} (hp : operation.Presents k connect)
    (hn : (b.connection k).client = none) :
    b.perform operation = (b.processConnect .quiet k connect).2 := by
  obtain rfl | rfl := hp
  · rfl
  · have he : b.handle .quiet k (.packet (.connect connect)) =
        ((b.processConnect .quiet k connect).1.isAccepted,
          (b.processConnect .quiet k connect).2) := by
      simp only [handle, hn, onFirstPacket]
    exact congrArg Prod.snd he

end operations
end Broker
end MqttBroker
