import Mathlib.Tactic
import MqttBroker.Connection.Basic

/-!
The copies of publishes that a transport has carried, and transports that never work again once
they have failed.
-/
namespace MqttBroker

/-- What a publish hands over to a subscriber: retained messages and those sent at most once do
not count, and packet identifiers do not matter. -/
def Publish.copy? (publish : Publish) : Option Publish :=
  if publish.retain ∨ publish.qos = .atMostOnce then none else some { publish with id := none }

namespace Packet

/-- The publish that a packet carries, if it is no control packet. -/
def publish? : Packet → Option Publish
  | .publish message => some message
  | _ => none

def copy? (packet : Packet) : Option Publish := packet.publish?.bind Publish.copy?

def isConnack : Packet → Bool
  | .connack _ _ => true
  | _ => false

/-- A packet that answers a client that was admitted. -/
structure IsAnswer (packet : Packet) : Prop where
  control : packet.publish? = none
  notConnack : packet.isConnack = false

lemma copy?_of_control {packet : Packet} (h : packet.publish? = none) : packet.copy? = none := by
  rw [copy?, h, Option.bind_none]

end Packet

/-- A copy as it is routed and queued. -/
structure Publish.IsCopy (publish : Publish) : Prop where
  qos : publish.qos ≠ .atMostOnce
  retain : publish.retain = false
  id : publish.id = none

lemma Publish.IsCopy.copy?_eq {publish : Publish} (h : publish.IsCopy) :
    publish.copy? = some publish := by
  rw [copy?, if_neg (by simp [h.qos, h.retain])]
  simp [← h.id]

lemma Publish.filterMap_copy? {publishes : List Publish}
    (h : ∀ publish ∈ publishes, publish.IsCopy) : publishes.filterMap copy? = publishes := by
  rw [List.filterMap_congr fun publish hp => (h publish hp).copy?_eq, List.filterMap_some]

namespace Transport

/-- The copies that arrived at the peer, in order. -/
def copies (transport : Transport) : List Publish := transport.written.toList.filterMap Packet.copy?

/-- No more was written than attempted. -/
def Sound (transport : Transport) : Prop := transport.written.size ≤ transport.attempts

/-- Some write has failed. -/
def Broken (transport : Transport) : Prop := transport.written.size < transport.attempts

/-- The next write fails. -/
def Fails (transport : Transport) : Prop :=
  transport.breaks transport.attempts ∨ transport.isOpen = false ∨ transport.peerPresent = false

instance (transport : Transport) : Decidable transport.Fails :=
  inferInstanceAs (Decidable (_ ∨ _ ∨ _))

/-- Once a write fails, no later one works. -/
structure Permanent (transport : Transport) : Prop where
  breaks : ∀ n, transport.attempts ≤ n → transport.breaks n → transport.breaks (n + 1)
  broken : transport.Broken → transport.Fails

variable {transport : Transport}

lemma send_cases (transport : Transport) (packet : Packet) :
    (¬ transport.Fails ∧ transport.send packet = (.ok (), { transport with
      attempts := transport.attempts + 1, written := transport.written.push packet })) ∨
    (transport.Fails ∧ ∃ error, transport.send packet = (.error error, { transport with
      attempts := transport.attempts + 1 })) := by
  unfold send Fails
  by_cases hb : transport.breaks transport.attempts
  · simp [hb]
  · by_cases ho : transport.isOpen
    · by_cases hp : transport.peerPresent <;> simp [hb, ho, hp]
    · simp [hb, ho]

/-- A packet arrives unless the write fails. -/
lemma written_send (transport : Transport) (packet : Packet) :
    (transport.send packet).2.written =
      if transport.Fails then transport.written else transport.written.push packet := by
  obtain ⟨hf, he⟩ | ⟨hf, error, he⟩ := transport.send_cases packet
  · rw [he, if_neg hf]
  · rw [he, if_pos hf]

lemma copies_send {packet : Packet} (h : (transport.send packet).1 = .ok ()) :
    (transport.send packet).2.copies = transport.copies ++ packet.copy?.toList := by
  obtain ⟨-, he⟩ | ⟨-, error, he⟩ := transport.send_cases packet <;> rw [he] at h ⊢
  · cases hc : packet.copy? <;> simp [copies, hc]
  · cases h

lemma copies_send_error {packet : Packet} {error : WriteError}
    (h : (transport.send packet).1 = .error error) :
    (transport.send packet).2.copies = transport.copies := by
  obtain ⟨-, he⟩ | ⟨-, error, he⟩ := transport.send_cases packet <;> rw [he] at h ⊢
  · cases h
  · rfl

lemma Sound.send (h : transport.Sound) (packet : Packet) : (transport.send packet).2.Sound := by
  unfold Sound at h ⊢
  obtain ⟨-, he⟩ | ⟨-, _, he⟩ := transport.send_cases packet <;> rw [he]
  · simpa using h
  · exact Nat.le_succ_of_le h

lemma Broken.send (h : transport.Broken) (packet : Packet) : (transport.send packet).2.Broken := by
  unfold Broken at h ⊢
  obtain ⟨-, he⟩ | ⟨-, _, he⟩ := transport.send_cases packet <;> rw [he]
  · simpa using h
  · exact Nat.lt_succ_of_lt h

lemma Sound.broken_of_error {packet : Packet} {error : WriteError} (h : transport.Sound)
    (he : (transport.send packet).1 = .error error) : (transport.send packet).2.Broken := by
  obtain ⟨-, hs⟩ | ⟨-, _, hs⟩ := transport.send_cases packet <;> rw [hs] at he ⊢
  · cases he
  · exact Nat.lt_succ_of_le h

lemma Permanent.not_broken {packet : Packet} (h : transport.Permanent)
    (hs : (transport.send packet).1 = .ok ()) : ¬ transport.Broken := by
  intro hb
  obtain ⟨hf, -⟩ | ⟨-, error, he⟩ := transport.send_cases packet
  · exact hf (h.broken hb)
  · rw [he] at hs
    cases hs

lemma Permanent.send (h : transport.Permanent) (packet : Packet) :
    (transport.send packet).2.Permanent := by
  obtain ⟨hf, he⟩ | ⟨hf, _, he⟩ := transport.send_cases packet <;> rw [he]
  · refine ⟨fun n hn => h.breaks n (Nat.le_of_succ_le hn), fun hb => ?_⟩
    refine absurd (h.broken ?_) hf
    simpa [Broken] using hb
  · refine ⟨fun n hn => h.breaks n (Nat.le_of_succ_le hn), fun _ => ?_⟩
    exact hf.imp_left (h.breaks _ le_rfl)

lemma Permanent.close (h : transport.Permanent) : transport.close.Permanent :=
  ⟨h.breaks, fun _ => .inr (.inl rfl)⟩

lemma Permanent.dropPeer (h : transport.Permanent) : transport.dropPeer.Permanent :=
  ⟨h.breaks, fun _ => .inr (.inr rfl)⟩

end Transport
end MqttBroker
