import MqttBroker.Text.Quoted

/-!
Why a decoded packet or one of its fields is refused.
-/
namespace MqttBroker

inductive ProtocolError where
  | invalidProtocolName (name : String)
  | unsupportedProtocolVersion (version : Nat)
  | invalidQoS (value : Nat)
  | topicTooLong (length max : Nat)
  | topicTooDeep (levels max : Nat)
  | invalidTopicName (topic : String)
  | invalidTopicFilter (filter : String)
  deriving DecidableEq, Repr

namespace ProtocolError

def message : ProtocolError → String
  | invalidProtocolName name =>
    "Invalid protocol name: expected 'MQTT' or 'MQIsdp', got '" ++ name ++ "'"
  | unsupportedProtocolVersion version => "Unsupported protocol version: " ++ toString version
  | invalidQoS value => "Invalid QoS: " ++ toString value
  | topicTooLong length max =>
    "Topic too long: " ++ toString length ++ " bytes (max " ++ toString max ++ ")"
  | topicTooDeep levels max =>
    "Topic too deep: " ++ toString levels ++ " levels (max " ++ toString max ++ ")"
  | invalidTopicName topic => "Invalid topic name: " ++ Text.quoted topic
  | invalidTopicFilter filter => "Invalid topic filter: " ++ Text.quoted filter

end ProtocolError
end MqttBroker
