import MqttBroker.Broker.Admission

/-!
The events of a connection, one after the other.
-/
namespace MqttBroker

/-- What a connection's actor is told. -/
inductive Event where
  | packet (packet : Packet)
  /-- The transport went away without a DISCONNECT. -/
  | transportClosed
  /-- Another connection took over the client identifier. -/
  | evicted
  deriving DecidableEq, Repr

namespace Broker

variable (meanwhile : Interlude) (b : Broker)

/-- The connection goes on if the write worked, and is lost if it did not. -/
def continueIf (k : ConnectionId) (result : Except WriteError Unit × Broker) : Bool × Broker :=
  match result with
  | (.ok (), b) => (true, b)
  | (.error _, b) => (false, b.connectionLost k)

/-- Write a packet; the connection is lost if that fails. -/
def reply (k : ConnectionId) (packet : Packet) : Bool × Broker :=
  continueIf k (b.onConnection k (·.send packet))

/-- Subscribe to each filter in turn: the codes for the acknowledgement, and the retained messages
to send after it. -/
def subscribeAll (client : ClientInfo) (k : ConnectionId) :
    List (String × QoS) → Broker → (List SubackCode × List Publish) × Broker
  | [], b => (([], []), b)
  | (filter, qos) :: rest, b =>
    let (result, b) := b.subscribe meanwhile client k filter qos
    let ((codes, retained), b) := subscribeAll client k rest b
    match result with
    | .ok grant => ((some grant.qos :: codes, grant.retained ++ retained), b)
    | .error _ => ((none :: codes, retained), b)

/-- Deliver publishes until one fails. -/
def deliverAll (k : ConnectionId) : List Publish → Broker → Except WriteError Unit × Broker
  | [], b => (.ok (), b)
  | publish :: rest, b =>
    match b.onConnection k (·.deliver publish) with
    | (.ok (), b) => deliverAll k rest b
    | (.error error, b) => (.error error, b)

def onSubscribe (client : ClientInfo) (k : ConnectionId) (id : PacketId)
    (requests : List (String × QoS)) : Bool × Broker :=
  let ((codes, retained), b) := subscribeAll meanwhile client k requests b
  match b.onConnection k (·.send (.suback id codes)) with
  | (.error _, b) => (false, b.connectionLost k)
  | (.ok (), b) => continueIf k (deliverAll k retained b)

def onUnsubscribe (client : ClientInfo) (k : ConnectionId) (id : PacketId)
    (filters : List String) : Bool × Broker :=
  let b := filters.foldl (fun b filter => (b.unsubscribe meanwhile client.id k filter).2) b
  b.reply k (.unsuback id)

/-- The acknowledgement that a publish asks for. -/
def acknowledgement (publish : Publish) : Option Packet :=
  match publish.qos, publish.id with
  | .atLeastOnce, some id => some (.puback id)
  | .exactlyOnce, some id => some (.pubrec id)
  | _, _ => none

/-- A publish that is not authorized is acknowledged all the same; an invalid topic ends the
connection. -/
def onPublish (client : ClientInfo) (k : ConnectionId) (publish : Publish) : Bool × Broker :=
  match b.publishFrom client publish with
  | (.error (.invalidTopic _), b) => (false, b.connectionLost k)
  | (_, b) =>
    match acknowledgement publish with
    | some packet => b.reply k packet
    | none => (true, b)

/-- An announced end: the will is discarded. -/
def onDisconnect (client : ClientInfo) (k : ConnectionId) : Broker :=
  let (_, b) := b.takeWill client.id k
  let b := b.closeConnection k
  (b.unbind client.id k (b.connection k).clean).2

/-- A packet of an admitted client. -/
def onPacket (client : ClientInfo) (k : ConnectionId) (packet : Packet) : Bool × Broker :=
  match packet with
  | .subscribe id requests => b.onSubscribe meanwhile client k id requests
  | .unsubscribe id filters => b.onUnsubscribe meanwhile client k id filters
  | .publish publish => b.onPublish client k publish
  | .pubrel id => b.reply k (.pubcomp id)
  | .puback _ | .pubrec _ | .pubcomp _ => (true, b)
  | .pingreq => b.reply k .pingresp
  | .disconnect => (false, b.onDisconnect client k)
  | .connect _ | .connack _ _ | .suback _ _ | .unsuback _ | .pingresp =>
    (false, b.connectionLost k)

/-- A packet before anybody was admitted: only a CONNECT is answered. -/
def onFirstPacket (k : ConnectionId) (packet : Packet) : Bool × Broker :=
  match packet with
  | .connect connect =>
    let (result, b) := b.processConnect meanwhile k connect
    (result.isAccepted, b)
  | _ => (false, b.closeConnection k)

/-- Handle one event, and say whether the connection goes on. -/
def handle (k : ConnectionId) (event : Event) : Bool × Broker :=
  match event with
  | .transportClosed => (false, b.connectionLost k)
  | .evicted => (false, b)
  | .packet packet =>
    match (b.connection k).client with
    | none => b.onFirstPacket meanwhile k packet
    | some client =>
      if (b.connection k).isOpen then b.onPacket meanwhile client k packet
      else (false, b.connectionLost k)

/-- Handle events until the connection ends; after the last one the connection ends by the given
event. -/
def run (k : ConnectionId) (last : Event) : List Event → Broker → Broker
  | [], b => (b.handle meanwhile k last).2
  | event :: rest, b =>
    match b.handle meanwhile k event with
    | (true, b) => run k last rest b
    | (false, b) => b

end Broker
end MqttBroker
