import MqttBroker.Broker.Registry

/-!
Subscribing and publishing: grants, retained messages, and one copy of every publish for each
client it reaches.
-/
namespace MqttBroker

/-- Why a filter is refused. -/
inductive SubscribeError where
  | invalidFilter (cause : ProtocolError)
  | notAuthorized (filter : String)
  | noSession (client : ClientId)
  deriving DecidableEq, Repr

def SubscribeError.message : SubscribeError → String
  | invalidFilter cause => "invalid topic filter: " ++ cause.message
  | notAuthorized filter => "not authorized to subscribe to '" ++ filter ++ "'"
  | noSession client => "no session for client '" ++ client ++ "'"

/-- Why a client's publish is refused. -/
inductive PublishError where
  | invalidTopic (cause : ProtocolError)
  | notAuthorized (topic : String)
  deriving DecidableEq, Repr

def PublishError.message : PublishError → String
  | invalidTopic cause => "invalid topic name: " ++ cause.message
  | notAuthorized topic => "not authorized to publish to '" ++ topic ++ "'"

/-- A granted subscription, with the retained messages to deliver once it is acknowledged. -/
structure Grant where
  qos : QoS
  retained : List Publish

/-- What became of one copy of a publish. -/
inductive Route where
  | delivered
  | queued
  | dropped
  deriving DecidableEq, Repr

/-- The copy that a subscriber gets: at the lower QoS, and as a fresh message. -/
def Publish.copyFor (publish : Publish) (granted : QoS) : Publish :=
  { publish with qos := min publish.qos granted, retain := false, dup := false, id := none }

namespace Broker

variable (meanwhile : Interlude) (b : Broker)

def checkFilter (filter : String) : Except ProtocolError Unit :=
  Topic.checkFilter b.config.mqtt.topicLimits filter

def checkTopicName (topic : String) : Except ProtocolError Unit :=
  Topic.checkName b.config.mqtt.topicLimits topic

/-- Retained messages for a new subscription, at no more than the granted QoS. -/
def retainedFor (filter : String) (granted : QoS) : List Publish :=
  (b.retained.matching filter).map fun publish =>
    { publish with qos := min publish.qos granted }

/-- Enter a granted subscription, if the connection still has the session. -/
def enterSubscription (id : ClientId) (k : ConnectionId) (filter : String) (granted : QoS) :
    Bool × Broker :=
  match b.boundSession? id k with
  | none => (false, b)
  | some session =>
    let session := { session with subscriptions := session.subscriptions.insert filter granted }
    let b := { b with directory := (b.directory.add filter id granted).2 }.setSession id session
    (true, if session.clean then b else b.saveSession meanwhile id session)

/-- Subscribe a client.  The connection may lose the session while the authorizer is asked. -/
def subscribe (client : ClientInfo) (k : ConnectionId) (filter : String) (qos : QoS) :
    Except SubscribeError Grant × Broker :=
  match b.checkFilter filter with
  | .error cause => (.error (.invalidFilter cause), b)
  | .ok () =>
    match b.askRead meanwhile client filter with
    | (false, b) => (.error (.notAuthorized filter), b)
    | (true, b) =>
      let granted := min qos b.config.mqtt.qosLimit
      match b.enterSubscription meanwhile client.id k filter granted with
      | (false, b) => (.error (.noSession client.id), b)
      | (true, b) => (.ok ⟨granted, b.retainedFor filter granted⟩, b)

/-- Remove a subscription, if the connection still has the session. -/
def unsubscribe (id : ClientId) (k : ConnectionId) (filter : String) : Bool × Broker :=
  match b.boundSession? id k with
  | none => (false, b)
  | some session =>
    if session.subscriptions.contains filter then
      let session := { session with subscriptions := session.subscriptions.erase filter }
      let b := { b with directory := (b.directory.remove filter id).2 }.setSession id session
      (true, if session.clean then b else b.saveSession meanwhile id session)
    else (false, b)

/-- Deliver a copy to the connection of a session, if there is one. -/
def tryDeliver (session : Session) (publish : Publish) : Bool × Broker :=
  match session.connection with
  | none => (false, b)
  | some k =>
    match b.onConnection k (·.deliver publish) with
    | (.ok (), b) => (true, b)
    | (.error _, b) => (false, b)

/-- Deliver a copy to a client, or queue it for a persistent session. -/
def route (id : ClientId) (publish : Publish) : Route × Broker :=
  match b.session? id with
  | none => (.dropped, b)
  | some session =>
    match b.tryDeliver session publish with
    | (true, b) => (.delivered, b.note id (.routed publish none))
    | (false, b) =>
      if session.clean || publish.qos == .atMostOnce then
        (.dropped, b.note id (.routed publish none))
      else
        let max := b.config.session.maxQueuedMessages
        (.queued, (b.setSession id (session.enqueue max publish)).note id
          (.routed publish (session.displacedBy max publish)))

/-- Send a copy to each subscriber, and count those that accept it. -/
def fanOut (publish : Publish) : List (ClientId × QoS) → Broker → Nat × Broker
  | [], b => (0, b)
  | (id, granted) :: rest, b =>
    let (route, b) := b.route id (publish.copyFor granted)
    let (count, b) := fanOut publish rest b
    (if route = .dropped then count else count + 1, b)

/-- Update the retained message of the topic, if the publish asks for it. -/
def retain (publish : Publish) : Broker :=
  if publish.retain then { b with retained := b.retained.apply publish } else b

/-- Publish to every client the topic reaches.  The result counts the copies that were delivered
or queued. -/
def publish (publish : Publish) : Nat × Broker :=
  let b := b.retain publish
  b.fanOut publish (b.directory.matching publish.topic).toList

/-- Publish for a client: the topic is checked before the permission. -/
def publishFrom (client : ClientInfo) (publish : Publish) : Except PublishError Nat × Broker :=
  match b.checkTopicName publish.topic with
  | .error cause => (.error (.invalidTopic cause), b)
  | .ok () =>
    if b.authorizer.canWrite client publish.topic then
      let (count, b) := b.publish publish
      (.ok count, b)
    else (.error (.notAuthorized publish.topic), b)

/-- Publish a will.  One with an invalid topic is dropped. -/
def fireWill (will : Will) : Nat × Broker :=
  match b.checkTopicName will.topic with
  | .error _ => (0, b)
  | .ok () => b.publish will.toPublish

end Broker
end MqttBroker
