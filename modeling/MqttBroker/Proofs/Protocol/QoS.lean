import Mathlib.Order.Defs.LinearOrder
import MqttBroker.Protocol.QoS

/-!
Quality of service is linearly ordered by its number.
-/
namespace MqttBroker.QoS

lemma toNat_injective : Function.Injective toNat := by
  intro a b h
  have hs := congrArg ofNat? h
  simpa using hs

instance : LinearOrder QoS where
  le_refl a := Nat.le_refl a.toNat
  le_trans a b c := Nat.le_trans (m := b.toNat)
  le_antisymm a b hab hba := toNat_injective (Nat.le_antisymm hab hba)
  le_total a b := Nat.le_total a.toNat b.toNat
  toDecidableLE := inferInstance
  min_def _ _ := rfl
  max_def _ _ := rfl

end MqttBroker.QoS
