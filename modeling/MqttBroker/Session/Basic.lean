import MqttBroker.Table
import MqttBroker.Connection.Basic

/-!
What the broker remembers of one client.
-/
namespace MqttBroker

/-- The durable part of a session: its subscriptions, in the order of their filters. -/
structure StoredSession where
  subscriptions : List (String × Nat)
  deriving DecidableEq, Repr

structure Session where
  client : ClientInfo
  clean : Bool
  /-- The granted QoS of each filter. -/
  subscriptions : Table QoS
  will : Option Will
  connection : Option ConnectionId
  /-- Messages published while a persistent session was offline, oldest first. -/
  queue : List Publish
  /-- Whether the session was bound before, or restored. -/
  existed : Bool
  /-- Whether the directory has the subscriptions. -/
  attached : Bool

namespace Session

def fresh (clean : Bool) (client : ClientInfo) : Session :=
  { client, clean, subscriptions := ∅, will := none, connection := none, queue := []
    existed := false, attached := false }

/-- Subscriptions stored with a QoS out of range are lost. -/
def restoredSubscriptions (stored : StoredSession) : Table QoS :=
  Table.ofEntries (stored.subscriptions.filterMap fun (filter, qos) =>
    (QoS.ofNat? qos).map fun qos => (filter, qos))

def restore (stored : StoredSession) (client : ClientInfo) : Session :=
  { fresh false client with subscriptions := restoredSubscriptions stored, existed := true }

def toStored (session : Session) : StoredSession :=
  ⟨session.subscriptions.toList.map fun (filter, qos) => (filter, qos.toNat)⟩

def isBoundTo (session : Session) (connection : ConnectionId) : Bool :=
  session.connection == some connection

/-- Whether a bind discards what the session had: one of the two sides is clean. -/
def isReset (session : Session) (clean : Bool) : Bool := session.existed && (session.clean || clean)

/-- Append a message to the queue; one that is over the bound pushes out the oldest. -/
def enqueue (session : Session) (max : Nat) (publish : Publish) : Session :=
  let queue := session.queue ++ [publish]
  { session with queue := if max < queue.length then queue.tail else queue }

/-- The message that would be pushed out. -/
def displacedBy (session : Session) (max : Nat) (publish : Publish) : Option Publish :=
  let queue := session.queue ++ [publish]
  if max < queue.length then queue.head? else none

/-- The messages worth keeping for later. -/
def keepable (publishes : List Publish) : List Publish :=
  publishes.filter (·.qos != .atMostOnce)

end Session

/-- A copy of a session's state for a reader. -/
structure SessionSnapshot where
  clientId : ClientId
  clean : Bool
  subscriptions : List (String × QoS)
  will : Option Will
  connected : Bool
  queued : Nat

def Session.snapshot (session : Session) (id : ClientId) : SessionSnapshot :=
  { clientId := id, clean := session.clean, subscriptions := session.subscriptions.toList
    will := session.will, connected := session.connection.isSome
    queued := session.queue.length }

end MqttBroker
