import MqttBroker.Text.Unseen

/-!
Text in double quotes for messages: quotes, backslashes and the common control characters get a
short escape, every other unseen character is written by its number.
-/
namespace MqttBroker.Text

/-- Lower-case hexadecimal digits without padding. -/
def hexDigits (n : Nat) : List Char := Nat.toDigits 16 n

/-- How one character stands between the quotes. -/
def escapeChar (c : Char) : List Char :=
  match c with
  | '"' => ['\\', '"']
  | '\\' => ['\\', '\\']
  | '\t' => ['\\', 't']
  | '\n' => ['\\', 'n']
  | '\r' => ['\\', 'r']
  | '\x00' => ['\\', '0']
  | c => if isUnseen c then ['\\', 'u', '\x7b'] ++ hexDigits c.toNat ++ ['\x7d'] else [c]

/-- The text between double quotes, escaped. -/
def quoted (s : String) : String :=
  String.ofList ('"' :: s.toList.flatMap escapeChar ++ ['"'])

example : quoted "a'b" = "\"a'b\"" := by decide +kernel
example : quoted "x\x7f" = "\"x\\u\x7b7f\x7d\"" := by decide +kernel

end MqttBroker.Text
