import MqttBroker.Access.Acl
import MqttBroker.Access.StaticUsers
import MqttBroker.Retained
import MqttBroker.Session.Basic
import MqttBroker.Subscription.Directory

/-!
The state of a whole broker.

A broker calls out to collaborators: it asks an authenticator and an authorizer, and saves
sessions.  Other connections may act while it waits.  An interlude says what they do at the n-th
call of each kind, so that every such schedule can be spoken of.
-/
namespace MqttBroker
open Subscription

/-- What befell the session of a client. -/
inductive Episode where
  | bound (k : ConnectionId)
  /-- A copy of a publish was routed to it, and may have pushed another one out of the queue. -/
  | routed (copy : Publish) (displaced : Option Publish)
  deriving DecidableEq, Repr

/-- How often the broker has called out so far. -/
structure CallCounts where
  authenticate : Nat := 0
  read : Nat := 0
  save : Nat := 0
  deriving DecidableEq, Repr

structure Broker where
  config : Config
  authenticator : Authenticator
  authorizer : Authorizer
  directory : Directory
  retained : RetainedStore
  sessions : Table Session
  stored : Repository StoredSession
  connections : Array Connection
  /-- The episodes of each client's session so far, oldest first. -/
  history : ClientId → List Episode
  calls : CallCounts
  /-- Identifiers to give to clients that bring none. -/
  identifiers : Nat → ClientId
  /-- How many of them were given. -/
  identified : Nat

/-- A call during which others may act. -/
inductive Callout where
  | authenticate
  | read
  | save
  deriving DecidableEq, Repr

/-- What happens during the n-th call of a kind. -/
abbrev Interlude := Callout → Nat → Broker → Broker

/-- Nobody acts meanwhile. -/
def Interlude.quiet : Interlude := fun _ _ broker => broker

def CallCounts.get (calls : CallCounts) : Callout → Nat
  | .authenticate => calls.authenticate
  | .read => calls.read
  | .save => calls.save

def CallCounts.tick (calls : CallCounts) : Callout → CallCounts
  | .authenticate => { calls with authenticate := calls.authenticate + 1 }
  | .read => { calls with read := calls.read + 1 }
  | .save => { calls with save := calls.save + 1 }

namespace Broker

/-- The collaborators a configuration asks for, over the given repositories. -/
def openOn (config : Config) (retained : Repository StoredMessage)
    (stored : Repository StoredSession) (identifiers : Nat → ClientId) :
    Except StorageError Broker × Repository StoredMessage :=
  match RetainedStore.openOn retained with
  | (.error error, retained) => (.error error, retained)
  | (.ok store, retained) =>
    (.ok {
      config
      authenticator := StaticUsers.authenticator config.auth
      authorizer := Acl.authorizer config.acl
      directory := .empty
      retained := store
      sessions := ∅
      stored
      connections := #[]
      history := fun _ => []
      calls := {}
      identifiers
      identified := 0 }, retained)

variable (meanwhile : Interlude) (b : Broker)

/-- Let others act during a call. -/
def callOut (callout : Callout) : Broker :=
  meanwhile callout (b.calls.get callout) { b with calls := b.calls.tick callout }

def connection (k : ConnectionId) : Connection := b.connections[k]?.getD .absent

def setConnection (k : ConnectionId) (c : Connection) : Broker :=
  { b with connections := b.connections.setIfInBounds k c }

def modifyConnection (k : ConnectionId) (change : Connection → Connection) : Broker :=
  b.setConnection k (change (b.connection k))

theorem connection_setConnection (k other : ConnectionId) (c : Connection)
    (h : k < b.connections.size) :
    (b.setConnection k c).connection other = if k = other then c else b.connection other := by
  by_cases same : k = other
  · subst same
    simp [connection, setConnection, h]
  · simp [connection, setConnection, same]

/-- Do something on a connection that has a result. -/
def onConnection {α : Type} (k : ConnectionId) (act : Connection → α × Connection) : α × Broker :=
  let (result, c) := act (b.connection k)
  (result, b.setConnection k c)

/-- A new connection gets the next number. -/
def accept : ConnectionId × Broker :=
  (b.connections.size, { b with connections := b.connections.push .fresh })

def session? (id : ClientId) : Option Session := b.sessions[id]?

def setSession (id : ClientId) (session : Session) : Broker :=
  { b with sessions := b.sessions.insert id session }

def dropSession (id : ClientId) : Broker := { b with sessions := b.sessions.erase id }

theorem session?_setSession (id other : ClientId) (session : Session) :
    (b.setSession id session).session? other =
      if id = other then some session else b.session? other := by
  simp [session?, setSession, Std.ExtTreeMap.getElem?_insert]

theorem session?_dropSession (id other : ClientId) :
    (b.dropSession id).session? other = if id = other then none else b.session? other := by
  simp [session?, dropSession, Std.ExtTreeMap.getElem?_erase]

/-- The session of a client, if it is bound to the connection. -/
def boundSession? (id : ClientId) (k : ConnectionId) : Option Session :=
  (b.session? id).filter (·.isBoundTo k)

/-- Note an episode of a client's session. -/
def note (id : ClientId) (episode : Episode) : Broker :=
  let past := b.history
  { b with history := fun other => if other = id then past id ++ [episode] else past other }

/-- Ask the authorizer whether a client may read. -/
def askRead (client : ClientInfo) (filter : String) : Bool × Broker :=
  let b := b.callOut meanwhile .read
  (b.authorizer.canRead client filter, b)

/-- Ask the authenticator about credentials. -/
def askAuthenticator (credentials : Credentials) : (Verdict × Option String) × Broker :=
  let b := b.callOut meanwhile .authenticate
  (b.authenticator credentials, b)

/-- Write the durable part of a session.  A failure is not reported. -/
def saveSession (id : ClientId) (session : Session) : Broker :=
  let b := b.callOut meanwhile .save
  { b with stored := (b.stored.save id session.toStored).2 }

/-- Remove what is stored of a session.  A failure is not reported. -/
def deleteStored (id : ClientId) : Broker :=
  { b with stored := (b.stored.delete id).2 }

/-- Take a session's subscriptions out of the directory. -/
def detach (id : ClientId) (session : Session) : Broker :=
  if session.attached then
    { b with directory := (b.directory.removeAll id session.subscriptions.keys).2 }
  else b

end Broker
end MqttBroker
