import MqttBroker.Proofs.Broker.Handling

/-!
Which events end the connection of an admitted client without its leave.
-/
namespace MqttBroker

/-- Nothing that a client sends once it was admitted. -/
def Packet.IsUnexpected : Packet → Prop
  | .connect _ | .connack _ _ | .suback _ _ | .unsuback _ | .pingresp => True
  | _ => False

namespace Broker

/-- The broker once what a packet asks for was done, and how many writes its actor then has to
make. -/
def owing (b : Broker) (client : ClientInfo) (k : ConnectionId) : Packet → Broker × Nat
  | .subscribe _ requests =>
    ((subscribeAll .quiet client k requests b).2,
      (subscribeAll .quiet client k requests b).1.2.length + 1)
  | .unsubscribe _ filters =>
    (filters.foldl (fun b filter => (b.unsubscribe .quiet client.id k filter).2) b, 1)
  | .publish publish =>
    ((b.publishFrom client publish).2, (acknowledgement publish).toList.length)
  | .pubrel _ | .pingreq => (b, 1)
  | _ => (b, 0)

/-- The event ends the connection of a client that did not take its leave. -/
inductive EndsAbnormally (b : Broker) (client : ClientInfo) (k : ConnectionId) : Event → Prop
  | transportClosed : EndsAbnormally b client k .transportClosed
  /-- The connection, or its transport, was closed before the packet arrived. -/
  | shut {packet} (h : (b.connection k).isOpen = false) : EndsAbnormally b client k (.packet packet)
  | unexpected {packet} (h : packet.IsUnexpected) : EndsAbnormally b client k (.packet packet)
  | invalidTopic {publish} (h : b.checkTopicName publish.topic ≠ .ok ()) :
    EndsAbnormally b client k (.packet (.publish publish))
  /-- A write that the packet demands fails. -/
  | unanswered {packet} (h : ((b.owing client k packet).1.connection k).transport.FailsWithin
      (b.owing client k packet).2) : EndsAbnormally b client k (.packet packet)

variable {b : Broker} {k : ConnectionId} {client : ClientInfo}

section writing

lemma continueIf_fst (result : Except WriteError Unit × Broker) :
    (continueIf k result).1 = true ↔ result.1 = .ok () := by
  obtain ⟨outcome, b⟩ := result
  cases outcome with
  | error => exact iff_of_false nofun nofun
  | ok => exact iff_of_true rfl rfl

lemma reply_fst (b : Broker) (k : ConnectionId) (packet : Packet) :
    (b.reply k packet).1 = true ↔ ¬ (b.connection k).transport.FailsWithin 1 := by
  rw [reply, continueIf_fst, onConnection_fst, Transport.failsWithin_succ packet]
  simp only [Transport.not_failsWithin_zero, and_false, or_false]
  exact Transport.send_fst _ packet

/-- On an established connection publishes are delivered if their writes work. -/
lemma deliverAll_fst (publishes : List Publish) (b : Broker)
    (hs : (b.connection k).state = .established) : (deliverAll k publishes b).1 = .ok () ↔
      ¬ (b.connection k).transport.FailsWithin publishes.length :=
  (deliverAll_established publishes b hs).1.trans ((b.connection k).writeAll_fst publishes)

end writing

section packets

lemma connections_subscribeAll (requests : List (String × QoS)) (b : Broker) :
    (subscribeAll .quiet client k requests b).2.connections = b.connections := by
  induction requests generalizing b with
  | nil => rfl
  | cons request rest ih =>
    obtain ⟨filter, qos⟩ := request
    have he := (ih (b.subscribe .quiet client k filter qos).2).trans
      (connections_subscribe filter client qos)
    unfold subscribeAll
    cases hg : (b.subscribe .quiet client k filter qos).1 with
    | ok _ => simpa only [hg] using he
    | error _ => simpa only [hg] using he

lemma onSubscribe_fst (hs : (b.connection k).state = .established) (id : PacketId)
    (requests : List (String × QoS)) : (b.onSubscribe .quiet client k id requests).1 = true ↔
      ¬ (b.connection k).transport.FailsWithin
        ((subscribeAll .quiet client k requests b).1.2.length + 1) := by
  have hc : (subscribeAll .quiet client k requests b).2.connection k = b.connection k := by
    rw [connection, connections_subscribeAll, connection]
  unfold onSubscribe
  generalize subscribeAll .quiet client k requests b = result at hc ⊢
  obtain ⟨⟨codes, retained⟩, b'⟩ := result
  dsimp only at hc ⊢
  rw [← hc] at hs ⊢
  have hk : k < b'.connections.size := lt_size_of_state (by simp [hs])
  rw [Transport.failsWithin_succ (.suback id codes)]
  have hf : (b'.onConnection k (·.send (.suback id codes))).1 = .ok () ↔
      ¬ (b'.connection k).transport.Fails := Transport.send_fst _ _
  have hsent : (b'.onConnection k (·.send (.suback id codes))).2.connection k =
      ((b'.connection k).send (.suback id codes)).2 := by
    rw [onConnection_snd, connection_modifyConnection _ hk, if_pos rfl]
  generalize b'.onConnection k (·.send (.suback id codes)) = result at hf hsent ⊢
  obtain ⟨_ | _, d⟩ := result
  · have hn : (b'.connection k).transport.Fails := by simpa using hf
    simp [hn]
  · have hn := hf.mp rfl
    dsimp only at hsent
    simp only [hn, false_or, not_false_iff, true_and]
    rw [continueIf_fst, deliverAll_fst retained _ (by rw [hsent]; exact hs), hsent]
    rfl

lemma onPublish_fst (b : Broker) (client : ClientInfo) (k : ConnectionId) (publish : Publish) :
    (b.onPublish client k publish).1 = true ↔ b.checkTopicName publish.topic = .ok () ∧
      ¬ ((b.publishFrom client publish).2.connection k).transport.FailsWithin
        (acknowledgement publish).toList.length := by
  unfold onPublish publishFrom
  cases ht : b.checkTopicName publish.topic with
  | error cause => exact iff_of_false (by simp) (by simp)
  | ok =>
    simp only [true_and]
    -- The packet is acknowledged whether or not the client may write to the topic.
    cases ha : acknowledgement publish with
    | none =>
      refine iff_of_true ?_ Transport.not_failsWithin_zero
      cases b.authorizer.canWrite client publish.topic <;> rfl
    | some packet =>
      cases b.authorizer.canWrite client publish.topic <;> exact reply_fst _ k packet

/-- A client may send the packet, which is no publish. -/
lemma expected_iff {packet : Packet} {P : Prop} (he : ¬ packet.IsUnexpected)
    (hn : ∀ publish, packet ≠ .publish publish) :
    P ↔ ¬ packet.IsUnexpected ∧
      (∀ publish, packet = .publish publish → b.checkTopicName publish.topic = .ok ()) ∧ P :=
  ⟨fun h => ⟨he, fun publish hp => absurd hp (hn publish), h⟩, fun h => h.2.2⟩

/-- A packet other than a DISCONNECT is the end of an established connection if a client may not
send it, if it is a publish with an invalid topic, or if a write fails that it demands. -/
theorem onPacket_fst (hs : (b.connection k).state = .established) {packet : Packet}
    (hp : packet ≠ .disconnect) : (b.onPacket .quiet client k packet).1 = true ↔
      ¬ packet.IsUnexpected ∧
      (∀ publish, packet = .publish publish → b.checkTopicName publish.topic = .ok ()) ∧
      ¬ ((b.owing client k packet).1.connection k).transport.FailsWithin
        (b.owing client k packet).2 := by
  cases packet with
  | subscribe id requests =>
    have hc : (subscribeAll .quiet client k requests b).2.connection k = b.connection k :=
      congrArg (fun connections : Array Connection => connections[k]?.getD .absent)
        (connections_subscribeAll requests b)
    refine Iff.trans ?_ (expected_iff (fun h => h) nofun)
    change (b.onSubscribe .quiet client k id requests).1 = true ↔
      ¬ ((subscribeAll .quiet client k requests b).2.connection k).transport.FailsWithin _
    rw [hc]
    exact onSubscribe_fst hs id requests
  | unsubscribe id filters => exact (reply_fst _ k _).trans (expected_iff (fun h => h) nofun)
  | publish publish =>
    refine (b.onPublish_fst client k publish).trans ⟨fun h => ⟨fun he => he, ?_, h.2⟩,
      fun h => ⟨h.2.1 publish rfl, h.2.2⟩⟩
    rintro _ ⟨⟩
    exact h.1
  | pubrel id => exact (b.reply_fst k (.pubcomp id)).trans (expected_iff (fun h => h) nofun)
  | pingreq => exact (b.reply_fst k .pingresp).trans (expected_iff (fun h => h) nofun)
  | puback | pubrec | pubcomp =>
    exact iff_of_true rfl ⟨fun h => h, nofun, Transport.not_failsWithin_zero⟩
  | disconnect => exact absurd rfl hp
  | connect | connack | suback | unsuback | pingresp =>
    exact iff_of_false nofun fun h => h.1 trivial

end packets

/-- Exactly such an event ends the connection of a client that is not told of an eviction and does
not take its leave. -/
theorem handle_fst (hc : (b.connection k).client = some client) (hb : (b.connection k).Begun)
    {event : Event} (he : event ≠ .evicted) (hl : ¬ b.TakesLeave k event) :
    (b.handle .quiet k event).1 = false ↔ b.EndsAbnormally client k event := by
  cases event with
  | evicted => exact absurd rfl he
  | transportClosed => exact iff_of_true rfl .transportClosed
  | packet packet =>
    rw [handle_of_some hc]
    split
    next ho =>
      have hs : (b.connection k).state = .established := by
        refine hb.resolve_right fun hclosed => ?_
        simp [Connection.isOpen, hclosed] at ho
      have hp : packet ≠ .disconnect := fun hp => hl ⟨congrArg Event.packet hp, ho⟩
      rw [← Bool.not_eq_true, onPacket_fst hs hp]
      constructor
      · intro hn
        by_contra hne
        refine hn ⟨fun hu => hne (.unexpected hu), fun publish hq => ?_,
          fun hf => hne (.unanswered hf)⟩
        subst hq
        by_contra ht
        exact hne (.invalidTopic ht)
      · rintro hends ⟨hu, ht, hf⟩
        cases hends with
        | shut h =>
          rw [h] at ho
          cases ho
        | unexpected h => exact hu h
        | invalidTopic h => exact h (ht _ rfl)
        | unanswered h => exact hf h
    next ho => exact iff_of_true rfl (.shut (Bool.eq_false_of_not_eq_true ho))

end Broker
end MqttBroker
