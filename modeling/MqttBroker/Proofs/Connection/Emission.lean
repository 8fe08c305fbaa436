import MqttBroker.Proofs.Connection.Writing

/-!
Which writes get through to the peer of a connection, and the publishes they carry.
-/
namespace MqttBroker

/-- A publish is about a topic of the set. -/
def Publish.About (topics : String → Prop) (publish : Publish) : Prop := topics publish.topic

namespace Transport

/-- One of so many writes fails. -/
def FailsWithin (transport : Transport) (writes : Nat) : Prop :=
  ∃ n < writes, transport.breaks (transport.attempts + n) = true ∨ transport.isOpen = false ∨
    transport.peerPresent = false

/-- The publishes that arrived at the peer, in order. -/
def publishes (transport : Transport) : List Publish :=
  transport.written.toList.filterMap Packet.publish?

variable {transport : Transport}

lemma not_failsWithin_zero : ¬ transport.FailsWithin 0 := by
  rintro ⟨n, hn, -⟩
  exact absurd hn (Nat.not_lt_zero n)

/-- The first of several writes fails, or one of the others after it. -/
lemma failsWithin_succ (packet : Packet) (writes : Nat) : transport.FailsWithin (writes + 1) ↔
    transport.Fails ∨ ¬ transport.Fails ∧ (transport.send packet).2.FailsWithin writes := by
  obtain ⟨hf, he⟩ | ⟨hf, error, he⟩ := transport.send_cases packet
  · rw [he]
    simp only [hf, false_or, not_false_iff, true_and]
    constructor
    · rintro ⟨n, hn, hb⟩
      cases n with
      | zero => exact absurd hb hf
      | succ n => exact ⟨n, Nat.lt_of_succ_lt_succ hn, by rwa [Nat.add_assoc, Nat.add_comm 1]⟩
    · rintro ⟨n, hn, hb⟩
      exact ⟨n + 1, Nat.succ_lt_succ hn, by rwa [Nat.add_assoc, Nat.add_comm 1] at hb⟩
  · simp only [hf, true_or, iff_true]
    exact ⟨0, Nat.succ_pos _, hf⟩

lemma send_fst (transport : Transport) (packet : Packet) :
    (transport.send packet).1 = .ok () ↔ ¬ transport.Fails := by
  obtain ⟨hf, he⟩ | ⟨hf, error, he⟩ := transport.send_cases packet <;> simp [he, hf]

lemma publishes_send (transport : Transport) (packet : Packet) :
    (transport.send packet).2.publishes = transport.publishes ∨
      ∃ publish, packet.publish? = some publish ∧
        (transport.send packet).2.publishes = transport.publishes ++ [publish] := by
  obtain ⟨-, he⟩ | ⟨-, error, he⟩ := transport.send_cases packet
  · rw [he]
    cases hp : packet.publish? with
    | none => exact .inl (by simp [publishes, hp])
    | some publish => exact .inr ⟨publish, rfl, by simp [publishes, hp]⟩
  · rw [he]
    exact .inl rfl

end Transport

namespace Connection

/-- Every publish that the peer has got since is one of the given messages, whatever its packet
identifier. -/
def Emitted (source : Publish → Prop) (c d : Connection) : Prop :=
  ∃ publishes, d.transport.publishes = c.transport.publishes ++ publishes ∧
    ∀ publish ∈ publishes, ∃ message, source message ∧ publish = { message with id := publish.id }

/-- Every publish that the peer has got since is about a topic of the set. -/
abbrev EmittedAbout (topics : String → Prop) (c d : Connection) : Prop :=
  Emitted (Publish.About topics) c d

variable {source other : Publish → Prop} {c d e : Connection} {packet : Packet}
  {publish : Publish}

section emitted

lemma Emitted.refl (c : Connection) : Emitted source c c := ⟨[], by simp, by simp⟩

lemma Emitted.trans (h : Emitted source c d) (h' : Emitted source d e) : Emitted source c e := by
  obtain ⟨first, hf, ht⟩ := h
  obtain ⟨second, hs, ht'⟩ := h'
  refine ⟨first ++ second, by rw [hs, hf, List.append_assoc], fun publish hp => ?_⟩
  exact (List.mem_append.mp hp).elim (ht publish) (ht' publish)

lemma Emitted.mono (h : Emitted source c d) (hm : ∀ message, source message → other message) :
    Emitted other c d := by
  obtain ⟨publishes, he, hp⟩ := h
  refine ⟨publishes, he, fun publish hw => ?_⟩
  obtain ⟨message, hs, hi⟩ := hp publish hw
  exact ⟨message, hm message hs, hi⟩

/-- The topics of what the peer has got. -/
lemma EmittedAbout.topics {topics : String → Prop} (h : EmittedAbout topics c d) :
    ∃ publishes, d.transport.publishes = c.transport.publishes ++ publishes ∧
      ∀ publish ∈ publishes, topics publish.topic := by
  obtain ⟨publishes, he, hp⟩ := h
  refine ⟨publishes, he, fun publish hw => ?_⟩
  obtain ⟨message, ht, hi⟩ := hp publish hw
  rw [hi]
  exact ht

lemma emitted_of_eq (h : d.transport.publishes = c.transport.publishes) : Emitted source c d :=
  ⟨[], by simpa using h, by simp⟩

lemma emitted_send (hp : ∀ publish, packet.publish? = some publish →
      ∃ message, source message ∧ publish = { message with id := publish.id })
    (c : Connection) : Emitted source c (c.send packet).2 := by
  obtain he | ⟨publish, hs, he⟩ := c.transport.publishes_send packet
  · exact emitted_of_eq he
  · refine ⟨[publish], he, fun written hm => ?_⟩
    cases List.mem_singleton.mp hm
    exact hp publish hs

lemma emitted_control (h : packet.publish? = none) (c : Connection) :
    Emitted source c (c.send packet).2 :=
  emitted_send (fun publish hp => by rw [h] at hp; cases hp) c

lemma emitted_writePublish (h : source publish) (c : Connection) :
    Emitted source c (c.writePublish publish).2 := by
  unfold writePublish
  split
  · refine emitted_send (fun written hp => ?_) c
    cases hp
    exact ⟨publish, h, rfl⟩
  · obtain ⟨id, nextId, ha⟩ := c.allocateId_eq
    rw [ha]
    refine emitted_send (c := { c with nextId }) (fun written hp => ?_)
    cases hp
    exact ⟨publish, h, rfl⟩

lemma emitted_deliver (h : source publish) (c : Connection) :
    Emitted source c (c.deliver publish).2 := by
  unfold deliver
  split
  · exact emitted_writePublish h c
  · exact .refl c
  · exact .refl c

lemma emitted_writeAll {publishes : List Publish} (h : ∀ publish ∈ publishes, source publish)
    (c : Connection) : Emitted source c (c.writeAll publishes).2 := by
  induction publishes generalizing c with
  | nil => exact .refl c
  | cons publish rest ih =>
    obtain ⟨hp, hr⟩ := List.forall_mem_cons.mp h
    have hw := emitted_writePublish hp c
    unfold writeAll
    generalize c.writePublish publish = result at hw ⊢
    obtain ⟨_ | _, d⟩ := result
    · exact hw
    · exact hw.trans (ih hr d)

lemma emitted_establish (hp : packet.publish? = none) {replay : List Publish}
    (h : ∀ publish ∈ replay, source publish) (hh : c.held = []) :
    Emitted source c (c.establish packet replay).2 := by
  unfold establish
  by_cases hs : c.state = .binding
  · have ht : ({ c with held := [] } : Connection).transition .binding .established =
        (true, { c with state := .established, held := [] }) := by
      simp [transition, hs]
    simp only [ht, hh, List.append_nil]
    have ho : Emitted source c (({ c with state := .established, held := [] } :
        Connection).send packet).2 := emitted_control hp _
    generalize ({ c with state := .established, held := [] } : Connection).send packet = result
      at ho ⊢
    obtain ⟨_ | _, d⟩ := result
    · exact ho
    · exact ho.trans (emitted_writeAll h d)
  · have ht : ({ c with held := [] } : Connection).transition .binding .established =
        (false, { c with held := [] }) := by
      simp [transition, hs]
    simp only [ht]
    exact .refl c

end emitted

section fired

lemma fired_writePublish (c : Connection) (publish : Publish) :
    (c.writePublish publish).2.fired = c.fired := by
  obtain ⟨packet, nextId, -, he⟩ := c.writePublish_eq publish
  rw [he]
  rfl

lemma fired_deliver (c : Connection) (publish : Publish) :
    (c.deliver publish).2.fired = c.fired := by
  unfold deliver
  split
  · exact c.fired_writePublish publish
  · rfl
  · rfl

end fired

end Connection
end MqttBroker
