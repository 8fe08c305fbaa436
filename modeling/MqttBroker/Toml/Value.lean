import MqttBroker.Number.Binary64

/-!
The values a TOML document can hold.  A table lists its keys in the order of the document.
-/
namespace MqttBroker.Toml

inductive Value where
  | string (text : String)
  | integer (n : Int)
  | float (x : Number.Binary64)
  | boolean (b : Bool)
  /-- A date, a time or both, in normal form. -/
  | datetime (text : String)
  /-- A place of an array that was passed over; no document holds one. -/
  | gap
  | array (items : List Value)
  | table (entries : List (String × Value))

instance : Inhabited Value := ⟨.table []⟩

end MqttBroker.Toml
