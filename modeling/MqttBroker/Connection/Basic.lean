import MqttBroker.Connection.Transport
import MqttBroker.Access.Client

/-!
One network connection: its life from the first packet to its end, the publishes held while it is
being bound, and its packet identifiers.
-/
namespace MqttBroker

/-- Connections are numbered in the order in which they were accepted. -/
abbrev ConnectionId := Nat

/-- Any failure leads straight to the last state. -/
inductive ConnectionState where
  | idle
  | authenticating
  | binding
  | established
  | closed
  deriving DecidableEq, Repr

structure Connection where
  transport : Transport
  state : ConnectionState
  /-- The first client identifier it was bound to. -/
  clientId : Option ClientId
  /-- Publishes that arrived before the connection was established, oldest first. -/
  held : List Publish
  nextId : PacketId
  /-- A notice of eviction that nobody has read. -/
  evictionNotice : Bool
  /-- Whether somebody is there to read such a notice. -/
  noticeReader : Bool
  /-- The client that was admitted on this connection, until it is gone. -/
  client : Option ClientInfo
  /-- Whether the admitted client asked for a clean session. -/
  clean : Bool
  /-- The wills that were published on its behalf. -/
  fired : List Will

namespace Connection

def fresh : Connection :=
  { transport := .fresh, state := .idle, clientId := none, held := [], nextId := 1
    evictionNotice := false, noticeReader := true, client := none, clean := true, fired := [] }

/-- What stands for a connection that was never accepted. -/
def absent : Connection := { fresh with state := .closed, transport := Transport.fresh.close }

variable (c : Connection)

def isOpen : Bool := c.state != .closed && c.transport.isOpen

/-- Change the state if it is the expected one. -/
def transition (source target : ConnectionState) : Bool × Connection :=
  if c.state = source then (true, { c with state := target }) else (false, c)

/-- The client identifier is set once. -/
def setClientId (id : ClientId) : Connection :=
  { c with clientId := c.clientId.or (some id) }

/-- Read the counter of packet identifiers, and move it on. -/
def fetchId : PacketId × Connection := (c.nextId, { c with nextId := c.nextId + 1 })

/-- The next packet identifier: what the counter gives, again until that is not zero. -/
@[semireducible]
def allocateId (c : Connection) : PacketId × Connection :=
  if c.fetchId.1 = 0 then c.fetchId.2.allocateId else c.fetchId
termination_by if c.nextId = 0 then 1 else 0
decreasing_by
  have zero : c.nextId = 0 := ‹_›
  simp [fetchId, zero]

/-- The counter is zero once at most before it gives an identifier. -/
theorem allocateId_eq_ite : c.allocateId =
    if c.nextId = 0 then (1, { c with nextId := 2 })
    else (c.nextId, { c with nextId := c.nextId + 1 }) := by
  by_cases zero : c.nextId = 0
  · rw [allocateId, allocateId]
    simp [fetchId, zero]
  · rw [allocateId]
    simp [fetchId, zero]

/-- Write a control packet, whatever the state. -/
def send (packet : Packet) : Except WriteError Unit × Connection :=
  let (result, transport) := c.transport.send packet
  (result, { c with transport })

/-- Write a publish.  Above at-most-once it takes a packet identifier, also if the write fails. -/
def writePublish (publish : Publish) : Except WriteError Unit × Connection :=
  match publish.qos with
  | .atMostOnce => c.send (.publish { publish with id := none })
  | _ =>
    let (id, c) := c.allocateId
    c.send (.publish { publish with id := some id })

/-- Deliver a publish.  While the connection is being bound it is held. -/
def deliver (publish : Publish) : Except WriteError Unit × Connection :=
  match c.state with
  | .established => c.writePublish publish
  | .binding => (.ok (), { c with held := c.held ++ [publish] })
  | _ => (.error .notEstablished, c)

/-- Write publishes until one fails; that one and the rest come back. -/
def writeAll (c : Connection) : List Publish → Except (List Publish) Unit × Connection
  | [] => (.ok (), c)
  | publish :: rest =>
    match c.writePublish publish with
    | (.ok (), c) => writeAll c rest
    | (.error _, c) => (.error (publish :: rest), c)

/-- Write the CONNACK, then the replay and what is held, and accept deliveries from now on.
Publishes that were not written come back, oldest first. -/
def establish (connack : Packet) (replay : List Publish) :
    Except (List Publish) Unit × Connection :=
  let pending := replay ++ c.held
  let c := { c with held := [] }
  match c.transition .binding .established with
  | (false, c) => (.error pending, c)
  | (true, c) =>
    match c.send connack with
    | (.error _, c) => (.error pending, c)
    | (.ok (), c) => c.writeAll pending

def close : Connection :=
  { c with state := .closed, transport := c.transport.close }

/-- Close for another connection of the same client, and leave a notice.  There is room for one
notice. -/
def evict : Connection :=
  { c.close with evictionNotice := c.evictionNotice || c.noticeReader }

/-- Nobody reads notices any more, and one that was left is lost. -/
def dropReader : Connection := { c with noticeReader := false, evictionNotice := false }

/-- Note that a will was published. -/
def noteFired (will : Will) : Connection := { c with fired := c.fired ++ [will] }

end Connection
end MqttBroker
