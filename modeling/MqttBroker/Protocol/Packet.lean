import MqttBroker.Protocol.QoS

/-!
Decoded MQTT 3.1 and 3.1.1 control packets.
-/
namespace MqttBroker

abbrev Bytes := List UInt8

abbrev ClientId := String

/-- Valid identifiers run from 1 to 65535. -/
abbrev PacketId := UInt16

structure Publish where
  topic : String
  payload : Bytes
  qos : QoS
  retain : Bool
  dup : Bool
  id : Option PacketId
  deriving DecidableEq, Repr

/-- The message a client leaves behind for an abnormal end of its connection. -/
structure Will where
  topic : String
  message : Bytes
  qos : QoS
  retain : Bool
  deriving DecidableEq, Repr

def Will.toPublish (will : Will) : Publish :=
  { topic := will.topic, payload := will.message, qos := will.qos, retain := will.retain
    dup := false, id := none }

structure Connect where
  protocolName : String
  protocolVersion : Nat
  clean : Bool
  clientId : ClientId
  will : Option Will
  username : Option String
  password : Option Bytes
  deriving DecidableEq, Repr

namespace Connect

/-- The client presents neither a username nor a password. -/
def isAnonymous (connect : Connect) : Bool :=
  connect.username.isNone && connect.password.isNone

/-- The version is checked before the name; an empty name is tolerated. -/
def validateProtocol (connect : Connect) : Except ProtocolError Unit :=
  if connect.protocolVersion ≠ 3 ∧ connect.protocolVersion ≠ 4 then
    .error (.unsupportedProtocolVersion connect.protocolVersion)
  else if connect.protocolName ∈ ["", "MQTT", "MQIsdp"] then .ok ()
  else .error (.invalidProtocolName connect.protocolName)

end Connect

inductive ConnackCode where
  | accepted
  | unacceptableProtocolVersion
  | identifierRejected
  | serverUnavailable
  | badUsernamePassword
  | notAuthorized
  deriving DecidableEq, Repr

namespace ConnackCode

def toNat : ConnackCode → Nat
  | accepted => 0
  | unacceptableProtocolVersion => 1
  | identifierRejected => 2
  | serverUnavailable => 3
  | badUsernamePassword => 4
  | notAuthorized => 5

def all : List ConnackCode :=
  [accepted, unacceptableProtocolVersion, identifierRejected, serverUnavailable,
    badUsernamePassword, notAuthorized]

def ofNat? (n : Nat) : Option ConnackCode := all.find? (·.toNat == n)

@[simp] theorem ofNat?_toNat (code : ConnackCode) : ofNat? code.toNat = some code := by
  cases code <;> rfl

end ConnackCode

/-- The answer to one requested filter: the granted QoS, or nothing if it is refused. -/
abbrev SubackCode := Option QoS

/-- A refusal is written as 128. -/
def SubackCode.toNat : SubackCode → Nat
  | some qos => qos.toNat
  | none => 128

inductive Packet where
  | connect (connect : Connect)
  | connack (sessionPresent : Bool) (code : ConnackCode)
  | publish (publish : Publish)
  | puback (id : PacketId)
  | pubrec (id : PacketId)
  | pubrel (id : PacketId)
  | pubcomp (id : PacketId)
  | subscribe (id : PacketId) (requests : List (String × QoS))
  | suback (id : PacketId) (codes : List SubackCode)
  | unsubscribe (id : PacketId) (filters : List String)
  | unsuback (id : PacketId)
  | pingreq
  | pingresp
  | disconnect
  deriving DecidableEq, Repr

def Packet.name : Packet → String
  | .connect _ => "CONNECT"
  | .connack _ _ => "CONNACK"
  | .publish _ => "PUBLISH"
  | .puback _ => "PUBACK"
  | .pubrec _ => "PUBREC"
  | .pubrel _ => "PUBREL"
  | .pubcomp _ => "PUBCOMP"
  | .subscribe _ _ => "SUBSCRIBE"
  | .suback _ _ => "SUBACK"
  | .unsubscribe _ _ => "UNSUBSCRIBE"
  | .unsuback _ => "UNSUBACK"
  | .pingreq => "PINGREQ"
  | .pingresp => "PINGRESP"
  | .disconnect => "DISCONNECT"

end MqttBroker
