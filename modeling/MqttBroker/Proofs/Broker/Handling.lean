import MqttBroker.Proofs.Broker.Moves
import MqttBroker.Proofs.Protocol.QoS

/-!
The handling of events.  An actor serves the client that was admitted on its connection by deeds:
each asks the authorizer before it shows, enters or publishes anything.
-/
namespace MqttBroker.Broker

/-- A retained message under a filter that the client may read, at a QoS that may be granted. -/
def Shows (b : Broker) (client : ClientInfo) (publish : Publish) : Prop :=
  ∃ filter message qos, b.authorizer.canRead client filter = true ∧
    message ∈ b.retained.matching filter ∧ qos ≤ b.config.mqtt.qosLimit ∧
      publish = { message with qos }

/-- What the actor of connection `k` does between itself and the client that was admitted on it. -/
inductive Errand (k : ConnectionId) (client : ClientInfo) : Broker → Broker → Prop
  | answer {b packet} (h : packet.IsAnswer) :
    Errand k client b (b.modifyConnection k fun c => (c.send packet).2)
  | deliver {b publish} (h : b.Shows client publish) :
    Errand k client b (b.modifyConnection k fun c => (c.deliver publish).2)
  | subscribe {b} (filter qos) : Errand k client b (b.subscribe .quiet client k filter qos).2
  | unsubscribe {b} (filter) : Errand k client b (b.unsubscribe .quiet client.id k filter).2

/-- A sequence of errands. -/
abbrev Errands (k : ConnectionId) (client : ClientInfo) : Broker → Broker → Prop :=
  Relation.ReflTransGen (Errand k client)

/-- What the actor of connection `k` does for the client that was admitted on it. -/
inductive Deed (k : ConnectionId) (client : ClientInfo) : Broker → Broker → Prop
  | errand {b b'} (h : Errand k client b b') : Deed k client b b'
  | publish {b publish} (ht : b.checkTopicName publish.topic = .ok ())
    (hw : b.authorizer.canWrite client publish.topic = true) :
    Deed k client b (b.publish publish).2

/-- A sequence of deeds. -/
abbrev Deeds (k : ConnectionId) (client : ClientInfo) : Broker → Broker → Prop :=
  Relation.ReflTransGen (Deed k client)

/-- How the actor of connection `k` lets go of its client.  A will is published as soon as it was
taken, unless the client took its leave. -/
inductive Parting (k : ConnectionId) : Broker → Broker → Prop
  | close {b} : Parting k b (b.closeConnection k)
  | forget {b} : Parting k b (b.modifyConnection k fun c => { c with client := none })
  | bequeath {b} (id) : Parting k b ((b.takeWill id k).2.executeWill k (b.takeWill id k).1)
  | discard {b} (id) : Parting k b (b.takeWill id k).2
  | unbind {b} (id) : Parting k b (b.unbind id k (b.connection k).clean).2

/-- A sequence of partings. -/
abbrev Partings (k : ConnectionId) : Broker → Broker → Prop := Relation.ReflTransGen (Parting k)

/-- What the actor of connection `k` does: deeds for the client admitted on it, and partings. -/
inductive Act (k : ConnectionId) : Broker → Broker → Prop
  | deed {client b b'} (hc : (b.connection k).client = some client) (h : Deed k client b b') :
    Act k b b'
  | part {b b'} (h : Parting k b b') : Act k b b'

/-- A sequence of acts. -/
abbrev Acts (k : ConnectionId) : Broker → Broker → Prop := Relation.ReflTransGen (Act k)

/-- Pass on what a client publishes.  Other packets are between the client and its actor. -/
def passOn (b : Broker) (client : ClientInfo) : Packet → Broker
  | .publish publish => (b.publishFrom client publish).2
  | _ => b

variable {b b' : Broker} {k : ConnectionId} {client : ClientInfo} {publish : Publish}
  {result : Bool × Broker}

section services

/-- What is shown to a client is marked as retained. -/
lemma Shows.retain (h : b.Shows client publish) : publish.retain = true := by
  obtain ⟨filter, message, qos, -, hm, -, rfl⟩ := h
  obtain ⟨⟨topic, kept⟩, he, rfl⟩ := List.mem_map.mp hm
  have hk := Std.ExtTreeMap.mem_toList_iff_getElem?_eq_some.mp (List.mem_of_mem_filter he)
  exact (b.retained.marked topic kept hk).retain

lemma Errand.service (h : Errand k client b b') : Service k (some client.id) b b' := by
  cases h with
  | answer h => exact .chore (.send h.control)
  | deliver h => exact .deliver h.retain
  | subscribe filter qos => exact .subscribe client filter qos
  | unsubscribe filter => exact .unsubscribe client.id filter

lemma Errands.deeds (h : Errands k client b b') : Deeds k client b b' :=
  h.lift id fun _ _ => .errand

lemma Deed.services (h : Deed k client b b') : Services k (some client.id) b b' := by
  cases h with
  | errand h => exact .single h.service
  | publish => exact publish_services b _

lemma Deeds.services (h : Deeds k client b b') : Services k (some client.id) b b' := by
  induction h with
  | refl => exact .refl
  | tail _ hd ih => exact ih.trans hd.services

/-- What is done before the rest counts as service. -/
lemma Served.after {step : Broker → Broker → Prop} (h : Relation.ReflTransGen step b b')
    (hr : Served k (Relation.ReflTransGen step) b' result) :
    Served k (Relation.ReflTransGen step) b result := by
  cases hr with
  | goesOn h' => exact .goesOn (h.trans h')
  | lost h' => exact .lost (h.trans h')

lemma Served.services (h : Served k (Deeds k client) b result) :
    Served k (Services k (some client.id)) b result :=
  h.mono fun _ => Deeds.services

end services

section writing

lemma continueIf_served (outcome : Except WriteError Unit) (b : Broker) :
    Served k (Errands k client) b (continueIf k (outcome, b)) := by
  cases outcome with
  | error => exact .lost .refl
  | ok => exact .goesOn .refl

lemma reply_served {packet : Packet} (hp : packet.IsAnswer) :
    Served k (Errands k client) b (b.reply k packet) :=
  .after (.single (.answer hp)) (continueIf_served _ _)

lemma deliverAll_errands (k : ConnectionId) (client : ClientInfo) {publishes : List Publish}
    (b : Broker) (hp : ∀ publish ∈ publishes, b.Shows client publish) :
    Errands k client b (deliverAll k publishes b).2 := by
  induction publishes generalizing b with
  | nil => exact .refl
  | cons publish rest ih =>
    obtain ⟨hp, hr⟩ := List.forall_mem_cons.mp hp
    refine .head (.deliver hp) ?_
    unfold deliverAll
    match he : b.onConnection k (·.deliver publish) with
    | (.ok (), d) =>
      obtain rfl : d = _ := (congrArg Prod.snd he).symm
      exact ih _ hr
    | (.error _, d) =>
      obtain rfl : d = _ := (congrArg Prod.snd he).symm
      exact .refl

/-- On an established connection publishes are written one after the other. -/
lemma deliverAll_established (publishes : List Publish) (b : Broker)
    (hs : (b.connection k).state = .established) :
    ((deliverAll k publishes b).1 = .ok () ↔
        ((b.connection k).writeAll publishes).1 = .ok ()) ∧
      (deliverAll k publishes b).2 = b.modifyConnection k fun c => (c.writeAll publishes).2 := by
  induction publishes generalizing b with
  | nil => exact ⟨iff_of_true rfl rfl, (modifyConnection_id b k).symm⟩
  | cons publish rest ih =>
    have hk : k < b.connections.size := lt_size_of_state (by rw [hs]; nofun)
    have hd : (b.connection k).deliver publish = (b.connection k).writePublish publish := by
      simp only [Connection.deliver, hs]
    have hon : b.onConnection k (·.deliver publish) =
        (((b.connection k).writePublish publish).1,
          b.modifyConnection k fun c => (c.writePublish publish).2) := by
      simp only [onConnection, modifyConnection, hd]
    have hc : (b.modifyConnection k fun c => (c.writePublish publish).2).connection k =
        ((b.connection k).writePublish publish).2 := by
      rw [connection_modifyConnection _ hk, if_pos rfl]
    unfold deliverAll
    rw [hon]
    rcases hw : (b.connection k).writePublish publish with ⟨error | _, d⟩
    · have hall : (b.connection k).writeAll (publish :: rest) = (.error (publish :: rest), d) := by
        simp only [Connection.writeAll, hw]
      refine ⟨by simp [hall], ?_⟩
      simp only [modifyConnection, hw, hall]
    · have hall : (b.connection k).writeAll (publish :: rest) = d.writeAll rest := by
        simp only [Connection.writeAll, hw]
      obtain ⟨packet, nextId, -, hp⟩ := (b.connection k).writePublish_eq publish
      have hs' : ((b.connection k).writePublish publish).2.state = .established := by
        rw [hp]
        exact hs
      obtain ⟨hr, he⟩ := ih _ (by rw [hc]; exact hs')
      rw [hc, hw] at hr
      rw [hall]
      refine ⟨hr, he.trans ?_⟩
      rw [modifyConnection_modifyConnection]
      simp only [modifyConnection, hw, hall]

end writing

section subscribing

/-- Subscribing leaves what is retained, and who may read it. -/
lemma subscribe_shows (filter : String) (qos : QoS) (h : b.Shows client publish) :
    (b.subscribe .quiet client k filter qos).2.Shows client publish := by
  obtain ⟨calls, he | ⟨session, granted, -, -, -, he⟩⟩ := subscribe_cases filter b client k qos <;>
    rw [he] <;> exact h

lemma shows_of_subscribe {filter : String} {qos : QoS} {grant : Grant}
    (h : (b.subscribe .quiet client k filter qos).1 = .ok grant) :
    ∀ publish ∈ grant.retained,
      (b.subscribe .quiet client k filter qos).2.Shows client publish := by
  intro publish hp
  refine subscribe_shows filter qos ?_
  unfold subscribe askRead at h
  split at h
  · cases h
  · split at h
    · cases h
    next asked hr =>
      obtain rfl : b.callOut .quiet .read = asked := congrArg Prod.snd hr
      dsimp only at h
      split at h
      · cases h
      next entered he =>
        cases h
        obtain ⟨message, hm, rfl⟩ := List.mem_map.mp hp
        have hq : min message.qos (min qos b.config.mqtt.qosLimit) ≤ b.config.mqtt.qosLimit :=
          (min_le_right _ _).trans (min_le_right _ _)
        refine ⟨filter, message, _, congrArg Prod.fst hr, ?_, hq, rfl⟩
        obtain he' | ⟨session, calls, -, -, he'⟩ := enterSubscription_cases filter
          (b.callOut .quiet .read) client.id k
          (min qos (b.callOut .quiet .read).config.mqtt.qosLimit) <;>
          rw [he] at he' <;> rw [show entered = _ from he'] at hm <;> exact hm

lemma subscribeAll_errands (k : ConnectionId) (client : ClientInfo)
    (requests : List (String × QoS)) (b : Broker) :
    Errands k client b (subscribeAll .quiet client k requests b).2 ∧
      (∀ publish, b.Shows client publish →
        (subscribeAll .quiet client k requests b).2.Shows client publish) ∧
      ∀ publish ∈ (subscribeAll .quiet client k requests b).1.2,
        (subscribeAll .quiet client k requests b).2.Shows client publish := by
  induction requests generalizing b with
  | nil => exact ⟨.refl, fun _ hp => hp, by simp [subscribeAll]⟩
  | cons request rest ih =>
    obtain ⟨filter, qos⟩ := request
    obtain ⟨hm, hs, hr⟩ := ih (b.subscribe .quiet client k filter qos).2
    have hd := hm.head (.subscribe filter qos)
    have hf := fun publish hp => hs publish (subscribe_shows filter qos hp)
    unfold subscribeAll
    match hg : (b.subscribe .quiet client k filter qos).1 with
    | .ok grant =>
      simp only [hg]
      refine ⟨hd, hf, fun publish hp => ?_⟩
      rcases List.mem_append.mp hp with hp | hp
      · exact hs publish (shows_of_subscribe hg publish hp)
      · exact hr publish hp
    | .error _ =>
      simp only [hg]
      exact ⟨hd, hf, hr⟩

end subscribing

section packets

lemma onSubscribe_served (b : Broker) (client : ClientInfo) (k : ConnectionId) (id : PacketId)
    (requests : List (String × QoS)) :
    Served k (Errands k client) b (b.onSubscribe .quiet client k id requests) := by
  obtain ⟨hm, -, hr⟩ := subscribeAll_errands k client requests b
  refine .after hm ?_
  unfold onSubscribe
  generalize subscribeAll .quiet client k requests b = result at hr ⊢
  obtain ⟨⟨codes, retained⟩, b⟩ := result
  dsimp only at hr ⊢
  have hp : (Packet.suback id codes).IsAnswer := ⟨rfl, rfl⟩
  refine .after (.single (.answer hp)) ?_
  split
  next he =>
    obtain ⟨-, rfl⟩ := Prod.mk.inj he
    exact .lost .refl
  next he =>
    obtain ⟨-, rfl⟩ := Prod.mk.inj he
    exact .after (deliverAll_errands k client _ hr) (continueIf_served _ _)

lemma onUnsubscribe_served (b : Broker) (client : ClientInfo) (k : ConnectionId) (id : PacketId)
    (filters : List String) :
    Served k (Errands k client) b (b.onUnsubscribe .quiet client k id filters) := by
  have hm : Errands k client b (filters.foldl
      (fun b filter => (b.unsubscribe .quiet client.id k filter).2) b) := by
    induction filters generalizing b with
    | nil => exact .refl
    | cons filter rest ih => exact .head (.unsubscribe filter) (ih _)
  exact .after hm (reply_served ⟨rfl, rfl⟩)

lemma publishFrom_deeds (b : Broker) (client : ClientInfo) (k : ConnectionId) (publish : Publish) :
    Deeds k client b (b.publishFrom client publish).2 := by
  unfold publishFrom
  split
  · exact .refl
  next ht =>
    split
    next hw => exact .single (.publish ht hw)
    · exact .refl

lemma onPublish_served (b : Broker) (client : ClientInfo) (k : ConnectionId) (publish : Publish) :
    Served k (Errands k client) (b.publishFrom client publish).2
      (b.onPublish client k publish) := by
  unfold onPublish
  generalize b.publishFrom client publish = result
  obtain ⟨result, b⟩ := result
  dsimp only
  have ha : ∀ packet, acknowledgement publish = some packet → packet.IsAnswer := by
    intro packet hp
    unfold acknowledgement at hp
    split at hp <;> cases hp <;> exact ⟨rfl, rfl⟩
  split
  next he =>
    obtain ⟨-, rfl⟩ := Prod.mk.inj he
    exact .lost .refl
  next he =>
    obtain ⟨-, rfl⟩ := Prod.mk.inj he
    split
    next packet hp => exact reply_served (ha packet hp)
    next => exact .goesOn .refl

/-- Once it was passed on, a packet other than a DISCONNECT is answered, or the connection is
lost. -/
theorem onPacket_answered (b : Broker) (client : ClientInfo) (k : ConnectionId) {packet : Packet}
    (hp : packet ≠ .disconnect) : Served k (Errands k client) (b.passOn client packet)
      (b.onPacket .quiet client k packet) := by
  cases packet with
  | subscribe id requests => exact onSubscribe_served b client k id requests
  | unsubscribe id filters => exact onUnsubscribe_served b client k id filters
  | publish publish => exact onPublish_served b client k publish
  | pubrel id => exact reply_served ⟨rfl, rfl⟩
  | puback | pubrec | pubcomp => exact .goesOn .refl
  | pingreq => exact reply_served ⟨rfl, rfl⟩
  | disconnect => exact absurd rfl hp
  | connect | connack | suback | unsuback | pingresp => exact .lost .refl

lemma passOn_deeds (b : Broker) (client : ClientInfo) (k : ConnectionId) (packet : Packet) :
    Deeds k client b (b.passOn client packet) := by
  cases packet with
  | publish publish => exact publishFrom_deeds b client k publish
  | _ => exact .refl

theorem onPacket_served (b : Broker) (client : ClientInfo) (k : ConnectionId) {packet : Packet}
    (hp : packet ≠ .disconnect) :
    Served k (Deeds k client) b (b.onPacket .quiet client k packet) :=
  .after (passOn_deeds b client k packet)
    ((onPacket_answered b client k hp).mono fun _ => Errands.deeds)

end packets

section events

lemma speaker_of_client (h : (b.connection k).client = some client) :
    b.speaker k = some client.id := by
  rw [speaker, h, Option.map_some]

/-- While nobody is admitted on a connection, only a CONNECT is not the end of it. -/
lemma handle_of_none (h : (b.connection k).client = none) (packet : Packet) :
    (∃ connect, packet = .connect connect ∧ b.handle .quiet k (.packet packet) =
      ((b.processConnect .quiet k connect).1.isAccepted,
        (b.processConnect .quiet k connect).2)) ∨
    b.handle .quiet k (.packet packet) = (false, b.connectionLost k) := by
  unfold handle
  simp only [h]
  rw [connectionLost_of_client h]
  cases packet with
  | connect connect => exact .inl ⟨connect, rfl, rfl⟩
  | _ => exact .inr rfl

lemma handle_of_some (h : (b.connection k).client = some client) (packet : Packet) :
    b.handle .quiet k (.packet packet) =
      if (b.connection k).isOpen then b.onPacket .quiet client k packet
      else (false, b.connectionLost k) := by
  unfold handle
  simp only [h]

/-- The event is a client's leave, taken while its connection is open. -/
def TakesLeave (b : Broker) (k : ConnectionId) (event : Event) : Prop :=
  event = .packet .disconnect ∧ (b.connection k).isOpen = true

/-- An admitted client is served, or its connection is lost, or it takes its leave. -/
theorem handle_admitted (h : (b.connection k).client = some client) {event : Event}
    (he : event ≠ .evicted) :
    (¬ b.TakesLeave k event ∧ Served k (Deeds k client) b (b.handle .quiet k event)) ∨
      (b.TakesLeave k event ∧ b.handle .quiet k event = (false, b.onDisconnect client k)) := by
  cases event with
  | evicted => exact absurd rfl he
  | transportClosed => exact .inl ⟨fun hl => (nomatch hl.1), .lost .refl⟩
  | packet packet =>
    rw [handle_of_some h]
    split
    next ho =>
      by_cases hp : packet = .disconnect
      · subst hp
        exact .inr ⟨⟨rfl, ho⟩, rfl⟩
      · refine .inl ⟨fun hl => hp ?_, onPacket_served b client k hp⟩
        obtain ⟨hl, -⟩ := hl
        cases hl
        rfl
    next ho => exact .inl ⟨fun hl => ho hl.2, .lost .refl⟩

/-- A connection that nobody was admitted on is lost by every event, but for a notice of eviction
and a CONNECT. -/
theorem handle_unadmitted (h : (b.connection k).client = none) (event : Event) :
    event = .evicted ∨ b.handle .quiet k event = (false, b.connectionLost k) ∨
      ∃ connect, event = .packet (.connect connect) ∧ b.handle .quiet k event =
        ((b.processConnect .quiet k connect).1.isAccepted,
          (b.processConnect .quiet k connect).2) := by
  cases event with
  | evicted => exact .inl rfl
  | transportClosed => exact .inr (.inl rfl)
  | packet packet =>
    obtain ⟨connect, rfl, he⟩ | he := handle_of_none h packet
    · exact .inr (.inr ⟨connect, rfl, he⟩)
    · exact .inr (.inl he)

/-- Every event is handled by moves, but for the CONNECT of a connection that nobody was admitted
on. -/
theorem handle_moves (b : Broker) (k : ConnectionId) (event : Event) :
    Moves k (b.speaker k) b (b.handle .quiet k event).2 ∨
      ∃ connect, event = .packet (.connect connect) ∧ (b.connection k).client = none ∧
        (b.handle .quiet k event).2 = (b.processConnect .quiet k connect).2 := by
  have hs := b.speaksFor_speaker k
  cases hc : (b.connection k).client with
  | none =>
    obtain rfl | he | ⟨connect, hp, he⟩ := handle_unadmitted hc event
    · exact .inl .refl
    · rw [he]
      exact .inl (connectionLost_moves hs)
    · exact .inr ⟨connect, hp, rfl, congrArg Prod.snd he⟩
  | some client =>
    left
    rw [speaker_of_client hc] at hs ⊢
    by_cases hv : event = .evicted
    · subst hv
      exact .refl
    obtain ⟨-, hd⟩ | ⟨-, he⟩ := handle_admitted hc hv
    · exact hd.services.moves hs
    · rw [he]
      exact onDisconnect_moves b client k

end events

section acts

lemma Partings.acts (h : Partings k b b') : Acts k b b' := by
  induction h with
  | refl => exact .refl
  | tail _ hp ih => exact ih.tail (.part hp)

lemma Services.client_eq {actor : Option ClientId} (h : Services k actor b b')
    (j : ConnectionId) : (b'.connection j).client = (b.connection j).client := by
  induction h with
  | refl => rfl
  | tail _ hs ih => exact (hs.steady j).sameClient.trans ih

lemma Deeds.acts (h : Deeds k client b b') (hc : (b.connection k).client = some client) :
    Acts k b b' := by
  induction h with
  | refl => exact .refl
  | tail hs hd ih => exact ih.tail (.deed ((Deeds.services hs).client_eq k |>.trans hc) hd)

lemma Parting.moves (h : Parting k b b') : ∃ actor, Moves k actor b b' := by
  cases h with
  | close => exact ⟨none, .single (.serve (.chore .close))⟩
  | forget => exact ⟨none, .single .forget⟩
  | bequeath id => exact ⟨some id, .head (.takeWill id) (executeWill_moves _ k _)⟩
  | discard id => exact ⟨some id, .single (.takeWill id)⟩
  | unbind id => exact ⟨some id, .single (.unbind id)⟩

lemma Act.moves (h : Act k b b') : ∃ actor, Moves k actor b b' := by
  cases h with
  | @deed client _ _ _ h => exact ⟨some client.id, h.services.moves⟩
  | part h => exact h.moves

lemma Acts.kept (h : Acts k b b') (j : ConnectionId) :
    (b.connection j).Kept (b'.connection j) := by
  induction h with
  | refl => exact .refl _
  | tail _ ha ih =>
    obtain ⟨actor, hm⟩ := ha.moves
    exact ih.trans (hm.kept j)

lemma connectionLost_partings (b : Broker) (k : ConnectionId) :
    Partings k b (b.connectionLost k) := by
  unfold connectionLost
  dsimp only
  refine .head .close ?_
  split
  · exact .refl
  next client _ => exact .head .forget (.head (.bequeath client.id) (.single (.unbind client.id)))

lemma onDisconnect_partings (b : Broker) (client : ClientInfo) (k : ConnectionId) :
    Partings k b (b.onDisconnect client k) :=
  .head (.discard client.id) (.head .close (.single (.unbind client.id)))

/-- Nothing but partings comes after the admission of a client that was lost at once. -/
lemma Served.partings (h : Served k Eq b result) : Partings k b result.2 := by
  cases h with
  | goesOn h => exact h ▸ .refl
  | lost h => exact h ▸ connectionLost_partings b k

lemma Served.acts (h : Served k (Acts k) b result) : Acts k b result.2 := by
  cases h with
  | goesOn h => exact h
  | lost h => exact h.trans (connectionLost_partings _ k).acts

/-- Every event is handled by acts, but for the CONNECT of a connection that nobody was admitted
on. -/
theorem handle_acts (b : Broker) (k : ConnectionId) (event : Event) :
    Acts k b (b.handle .quiet k event).2 ∨
      ∃ connect, event = .packet (.connect connect) ∧ (b.connection k).client = none ∧
        (b.handle .quiet k event).2 = (b.processConnect .quiet k connect).2 := by
  cases hc : (b.connection k).client with
  | none =>
    obtain rfl | he | ⟨connect, hp, he⟩ := handle_unadmitted hc event
    · exact .inl .refl
    · rw [he]
      exact .inl (connectionLost_partings b k).acts
    · exact .inr ⟨connect, hp, rfl, congrArg Prod.snd he⟩
  | some client =>
    left
    by_cases hv : event = .evicted
    · subst hv
      exact .refl
    obtain ⟨-, hd⟩ | ⟨-, he⟩ := handle_admitted hc hv
    · exact (hd.mono fun _ h => h.acts hc).acts
    · rw [he]
      exact (onDisconnect_partings b client k).acts

end acts
end MqttBroker.Broker
