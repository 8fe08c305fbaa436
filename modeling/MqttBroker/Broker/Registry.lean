import MqttBroker.Broker.State

/-!
Sessions by client identifier: binding a connection, taking over from another one, and letting
go.
-/
namespace MqttBroker

structure BindOutcome where
  /-- A session existed for the client before. -/
  wasPresent : Bool
  /-- Its state was kept, since both sides are persistent. -/
  resumed : Bool
  /-- Messages that were queued while it was offline, to be sent after the CONNACK. -/
  replay : List Publish

namespace Broker

variable (meanwhile : Interlude) (b : Broker)

/-- The session of a client: the one in memory, else a new one, which for a persistent client is
restored from storage. -/
def findOrCreate (id : ClientId) (clean : Bool) (client : ClientInfo) :
    Except StorageError Session × Broker :=
  match b.session? id with
  | some session => (.ok session, b)
  | none =>
    if clean then (.ok (.fresh true client), b)
    else match b.stored.load id with
      | (.error error, stored) => (.error error, { b with stored })
      | (.ok (some record), stored) => (.ok (.restore record client), { b with stored })
      | (.ok none, stored) => (.ok (.fresh false client), { b with stored })

/-- Evict the connection a session is bound to, unless it is the given one. -/
def evictOther (session : Session) (k : ConnectionId) : Broker :=
  match session.connection with
  | some old => if old = k then b else b.modifyConnection old .evict
  | none => b

/-- The filters of the list that the client may no longer read. -/
def deniedFilters (client : ClientInfo) : List String → Broker → List String × Broker
  | [], b => ([], b)
  | filter :: filters, b =>
    let (allowed, b) := b.askRead meanwhile client filter
    let (denied, b) := deniedFilters client filters b
    (if allowed then denied else filter :: denied, b)

/-- Drop the subscriptions that the client may no longer read. -/
def reauthorize (id : ClientId) (session : Session) : Session × Broker :=
  let (denied, b) := deniedFilters meanwhile session.client session.subscriptions.keys b
  let kept := { session with subscriptions := session.subscriptions.eraseAll denied }
  (kept, if session.attached then { b with directory := (b.directory.removeAll id denied).2 } else b)

/-- Give a session's subscriptions to the directory, unless it has them. -/
def attach (id : ClientId) (session : Session) : Broker :=
  if session.attached then b
  else { b with directory := b.directory.addAll id session.subscriptions.toList }

/-- Take from a found session what it does not keep over a bind: everything if either side is
clean, else the subscriptions that the client may no longer read. -/
def trim (id : ClientId) (clean : Bool) (client : ClientInfo) (session : Session) :
    Session × Broker :=
  let reset := session.isReset clean
  let b := if reset then b.detach id session else b
  let b := if clean && !(session.existed && session.clean) then b.deleteStored id else b
  let session :=
    if reset then { session with subscriptions := ∅, queue := [], will := none } else session
  let session := { session with client, connection := none }
  if !reset && b.config.admission.reauthorizeSubscriptionsOnConnect then
    b.reauthorize meanwhile id session
  else (session, b)

/-- Bind a found session to a connection. -/
def bindSession (id : ClientId) (clean : Bool) (k : ConnectionId) (client : ClientInfo)
    (session : Session) : BindOutcome × Broker :=
  let wasPresent := session.existed
  let resumed := wasPresent && !session.isReset clean
  let (session, b) := (b.evictOther session k).trim meanwhile id clean client session
  let b := b.attach id session
  let replay := session.queue
  let session :=
    { session with clean, existed := true, attached := true, connection := some k, queue := [] }
  let b := ((b.setSession id session).modifyConnection k (·.setClientId id)).note id (.bound k)
  let b := if clean then b else b.saveSession meanwhile id session
  ({ wasPresent, resumed, replay }, b)

/-- Bind a connection to a client's session, evicting the connection that has it.  If either side
is clean the earlier state is discarded; otherwise subscriptions are kept and queued messages
handed back. -/
def bind (id : ClientId) (clean : Bool) (k : ConnectionId) (client : ClientInfo) :
    Except StorageError BindOutcome × Broker :=
  match b.findOrCreate id clean client with
  | (.error error, b) => (.error error, b)
  | (.ok session, b) =>
    let (outcome, b) := b.bindSession meanwhile id clean k client session
    (.ok outcome, b)

/-- Remove a session from memory, and what is stored of it. -/
def teardown (id : ClientId) (session : Session) : Broker :=
  let b := (b.detach id session).dropSession id
  if session.clean then b else b.deleteStored id

/-- Let go of a session that is still bound to the connection, and remove it if that is due. -/
def unbind (id : ClientId) (k : ConnectionId) (remove : Bool) : Bool × Broker :=
  match b.boundSession? id k with
  | none => (false, b)
  | some session =>
    (true, if remove then b.teardown id session
      else b.setSession id { session with connection := none })

/-- Remove a session whether it is clean or not, and close its connection. -/
def expire (id : ClientId) : Bool × Broker :=
  match b.session? id with
  | none => (false, b)
  | some session =>
    let b := match session.connection with
      | some k => b.modifyConnection k .close
      | none => b
    (true, b.teardown id session)

def retrieve (id : ClientId) : Option SessionSnapshot := (b.session? id).map (·.snapshot id)

def will? (id : ClientId) : Option Will := (b.session? id).bind (·.will)

/-- Set or remove the will of the session bound to the connection. -/
def setWill (id : ClientId) (k : ConnectionId) (will : Option Will) : Bool × Broker :=
  match b.boundSession? id k with
  | none => (false, b)
  | some session => (true, b.setSession id { session with will })

def clearWill (id : ClientId) : Broker :=
  match b.session? id with
  | none => b
  | some session => b.setSession id { session with will := none }

/-- Take the will for publication, if the connection still has the session. -/
def takeWill (id : ClientId) (k : ConnectionId) : Option Will × Broker :=
  match b.boundSession? id k with
  | none => (none, b)
  | some session => (session.will, b.setSession id { session with will := none })

/-- Put publishes that were not sent back at the head of a persistent session's queue. -/
def requeue (id : ClientId) (k : ConnectionId) (unsent : List Publish) : Nat × Broker :=
  match b.boundSession? id k with
  | none => (0, b)
  | some session =>
    if session.clean then (0, b)
    else
      let kept := Session.keepable unsent
      (kept.length, b.setSession id { session with queue := kept ++ session.queue })

end Broker
end MqttBroker
