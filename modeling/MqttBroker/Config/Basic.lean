import MqttBroker.Protocol.QoS
import MqttBroker.Topic.Validity

/-!
The settings of a broker, their defaults, and the values that make no sense.
-/
namespace MqttBroker

structure LogConfig where
  level : String := "info"
  deriving DecidableEq, Repr

structure AdmissionConfig where
  allowAnonymous : Bool := true
  allowZeroByteClientId : Bool := true
  reauthorizeSubscriptionsOnConnect : Bool := false
  deriving DecidableEq, Repr

structure UserConfig where
  username : String
  password : Option String := none
  /-- Wins over the plain password. -/
  passwordHash : Option String := none
  role : Option String := none
  deriving DecidableEq, Repr

structure AuthConfig where
  enabled : Bool := false
  /-- The client identifiers that may connect; none listed means any. -/
  clientIds : List String := []
  users : List UserConfig := []
  deriving DecidableEq, Repr

/-- Topic patterns a client may publish and subscribe to. -/
structure Permissions where
  publish : List String := []
  subscribe : List String := []
  deriving DecidableEq, Repr

structure RoleConfig where
  name : String
  permissions : Permissions := {}
  deriving DecidableEq, Repr

structure AclConfig where
  enabled : Bool := false
  roles : List RoleConfig := []
  default : Permissions := {}
  anonymous : Permissions := {}
  deriving DecidableEq, Repr

structure MqttConfig where
  maxQos : Nat := 2
  maxTopicLength : Nat := 4096
  maxTopicLevels : Nat := 32
  deriving DecidableEq, Repr

structure SessionConfig where
  maxQueuedMessages : Nat := 1000
  deriving DecidableEq, Repr

structure PersistenceConfig where
  enabled : Bool := false
  path : String := "./data"
  deriving DecidableEq, Repr

structure Config where
  log : LogConfig := {}
  admission : AdmissionConfig := {}
  auth : AuthConfig := {}
  acl : AclConfig := {}
  mqtt : MqttConfig := {}
  session : SessionConfig := {}
  persistence : PersistenceConfig := {}
  deriving DecidableEq, Repr

/-- The highest QoS granted to a subscription; a number out of range sets no bound. -/
def MqttConfig.qosLimit (config : MqttConfig) : QoS :=
  (QoS.ofNat? config.maxQos).getD .exactlyOnce

def MqttConfig.topicLimits (config : MqttConfig) : Topic.Limits :=
  ⟨config.maxTopicLength, config.maxTopicLevels⟩

/-- What is wrong with a configuration that was read. -/
inductive InvalidSetting where
  | maxQos
  | maxQueuedMessages
  deriving DecidableEq, Repr

def InvalidSetting.message : InvalidSetting → String
  | maxQos => "max_qos must be 0, 1, or 2"
  | maxQueuedMessages => "max_queued_messages must be greater than 0"

/-- The QoS limit is checked before the queue length. -/
def Config.validate (config : Config) : Except InvalidSetting Unit :=
  if 2 < config.mqtt.maxQos then .error .maxQos
  else if config.session.maxQueuedMessages = 0 then .error .maxQueuedMessages
  else .ok ()

end MqttBroker
