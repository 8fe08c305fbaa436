import MqttBroker.Protocol.Packet

/-!
Base64 without padding.  Decoding is strict: every byte string has one written form.
-/
namespace MqttBroker.Password.Base64

/-- The value of a digit in the standard alphabet. -/
def digit? (c : Char) : Option Nat :=
  if 'A' ≤ c ∧ c ≤ 'Z' then some (c.toNat - 'A'.toNat)
  else if 'a' ≤ c ∧ c ≤ 'z' then some (c.toNat - 'a'.toNat + 26)
  else if '0' ≤ c ∧ c ≤ '9' then some (c.toNat - '0'.toNat + 52)
  else if c = '+' then some 62
  else if c = '/' then some 63
  else none

/-- Three bytes for every four digits.  Of a short last group the unused bits must be zero, and a
single digit is no group. -/
def decodeDigits : List Nat → Option Bytes
  | [] => some []
  | [_] => none
  | [a, b] => if b % 16 = 0 then some [.ofNat (a * 4 + b / 16)] else none
  | [a, b, c] =>
    if c % 4 = 0 then some [.ofNat (a * 4 + b / 16), .ofNat (b % 16 * 16 + c / 4)] else none
  | a :: b :: c :: d :: rest => do
    let bytes ← decodeDigits rest
    return .ofNat (a * 4 + b / 16) :: .ofNat (b % 16 * 16 + c / 4) :: .ofNat (c % 4 * 64 + d) ::
      bytes

def decode (text : List Char) : Option Bytes := do
  decodeDigits (← text.mapM digit?)

example : decode ['c', '2', '8'] = some [0x73, 0x6f] := by decide
example : decode ['c', '2', '9'] = none := by decide

end MqttBroker.Password.Base64
