import MqttBroker.Protocol.Error

/-!
Quality of service, ordered from at-most-once to exactly-once.
-/
namespace MqttBroker

inductive QoS where
  | atMostOnce
  | atLeastOnce
  | exactlyOnce
  deriving DecidableEq, Repr

namespace QoS

def toNat : QoS → Nat
  | atMostOnce => 0
  | atLeastOnce => 1
  | exactlyOnce => 2

def ofNat? : Nat → Option QoS
  | 0 => some atMostOnce
  | 1 => some atLeastOnce
  | 2 => some exactlyOnce
  | _ => none

def decode (value : Nat) : Except ProtocolError QoS :=
  match ofNat? value with
  | some qos => .ok qos
  | none => .error (.invalidQoS value)

instance : LE QoS := ⟨fun a b => a.toNat ≤ b.toNat⟩
instance : DecidableLE QoS := fun a b => inferInstanceAs (Decidable (a.toNat ≤ b.toNat))
instance : Min QoS := minOfLe
instance : Max QoS := maxOfLe

@[simp] theorem ofNat?_toNat (q : QoS) : ofNat? q.toNat = some q := by cases q <;> rfl

theorem toNat_min (a b : QoS) : (min a b).toNat = min a.toNat b.toNat := by
  cases a <;> cases b <;> rfl

theorem toNat_max (a b : QoS) : (max a b).toNat = max a.toNat b.toNat := by
  cases a <;> cases b <;> rfl

/-- The number is never above two. -/
theorem toNat_le (q : QoS) : q.toNat ≤ 2 := by cases q <;> decide

end QoS
end MqttBroker
