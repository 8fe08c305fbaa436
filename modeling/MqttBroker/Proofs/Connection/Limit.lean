import MqttBroker.Proofs.Connection.Emission

/-!
A limit on the QoS of the publishes that a connection is handed.
-/
namespace MqttBroker.Connection

/-- No publish that was sent, or is held, has a QoS above the limit. -/
structure Limited (limit : Nat) (c : Connection) : Prop where
  sent : ∀ publish ∈ c.transport.publishes, publish.qos.toNat ≤ limit
  held : ∀ publish ∈ c.held, publish.qos.toNat ≤ limit

variable {limit : Nat} {c d : Connection} {packet : Packet} {publish : Publish}

lemma limited_fresh (limit : Nat) : fresh.Limited limit := ⟨nofun, nofun⟩

lemma limited_absent (limit : Nat) : absent.Limited limit := ⟨nofun, nofun⟩

namespace Limited

/-- Only what was sent and is held matters. -/
lemma congr (h : c.Limited limit) (ht : d.transport.publishes = c.transport.publishes)
    (hh : d.held = c.held) : d.Limited limit :=
  ⟨ht ▸ h.sent, hh ▸ h.held⟩

lemma send (h : c.Limited limit)
    (hp : ∀ publish, packet.publish? = some publish → publish.qos.toNat ≤ limit) :
    (c.send packet).2.Limited limit := by
  obtain he | ⟨publish, hs, he⟩ := c.transport.publishes_send packet
  · exact h.congr he rfl
  · refine ⟨fun written hw => ?_, h.held⟩
    change written ∈ (c.transport.send packet).2.publishes at hw
    rw [he] at hw
    obtain hw | hw := List.mem_append.mp hw
    · exact h.sent written hw
    · cases List.mem_singleton.mp hw
      exact hp publish hs

lemma control (h : c.Limited limit) (hp : packet.publish? = none) :
    (c.send packet).2.Limited limit :=
  h.send fun publish hs => by
    rw [hp] at hs
    cases hs

lemma writePublish (h : c.Limited limit) (hp : publish.qos.toNat ≤ limit) :
    (c.writePublish publish).2.Limited limit := by
  unfold Connection.writePublish
  split
  · refine h.send fun written hw => ?_
    cases hw
    exact hp
  · obtain ⟨id, nextId, ha⟩ := c.allocateId_eq
    rw [ha]
    refine Limited.send (c := { c with nextId }) (h.congr rfl rfl) fun written hw => ?_
    cases hw
    exact hp

lemma deliver (h : c.Limited limit) (hp : publish.qos.toNat ≤ limit) :
    (c.deliver publish).2.Limited limit := by
  unfold Connection.deliver
  split
  · exact h.writePublish hp
  · refine ⟨h.sent, fun held hh => ?_⟩
    obtain hh | hh := List.mem_append.mp hh
    · exact h.held held hh
    · cases List.mem_singleton.mp hh
      exact hp
  · exact h

lemma writeAll {publishes : List Publish} (h : c.Limited limit)
    (hp : ∀ publish ∈ publishes, publish.qos.toNat ≤ limit) :
    (c.writeAll publishes).2.Limited limit := by
  induction publishes generalizing c with
  | nil => exact h
  | cons publish rest ih =>
    obtain ⟨hp, hr⟩ := List.forall_mem_cons.mp hp
    have hw := h.writePublish hp
    unfold Connection.writeAll
    generalize c.writePublish publish = result at hw ⊢
    obtain ⟨_ | _, d⟩ := result
    · exact hw
    · exact ih hw hr

/-- What is sent as a connection opens, and what comes back, was handed to it before. -/
lemma establish {replay : List Publish} (h : c.Limited limit) (hp : packet.publish? = none)
    (hr : ∀ publish ∈ replay, publish.qos.toNat ≤ limit) :
    (c.establish packet replay).2.Limited limit ∧
      ∀ unsent, (c.establish packet replay).1 = .error unsent →
        ∀ publish ∈ unsent, publish.qos.toNat ≤ limit := by
  have hpending : ∀ publish ∈ replay ++ c.held, publish.qos.toNat ≤ limit := fun publish hm =>
    (List.mem_append.mp hm).elim (hr publish) (h.held publish)
  have hopen : ∀ state, { c with state, held := [] }.Limited limit := fun _ => ⟨h.sent, nofun⟩
  unfold Connection.establish transition
  by_cases hs : c.state = .binding
  · have hsend := (hopen .established).control hp
    simp only [hs, if_true]
    generalize ({ c with state := .established, held := [] } : Connection).send packet = result
      at hsend ⊢
    obtain ⟨_ | _, d⟩ := result
    · refine ⟨hsend, fun unsent he => ?_⟩
      cases he
      exact hpending
    · refine ⟨hsend.writeAll hpending, fun unsent he publish hm => ?_⟩
      obtain ⟨sent, rest, hu, -, ⟨hok, -⟩ | ⟨herror, -⟩⟩ :=
        wrote_writeAll (rfl : d.writeAll (replay ++ c.held) = _)
      · cases hok.symm.trans he
      · cases herror.symm.trans he
        exact hpending publish (hu ▸ List.mem_append_right _ hm)
  · simp only [hs, if_false]
    refine ⟨hopen c.state, fun unsent he => ?_⟩
    cases he
    exact hpending

end Limited
end MqttBroker.Connection
