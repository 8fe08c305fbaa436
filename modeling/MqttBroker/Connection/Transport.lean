import MqttBroker.Protocol.Packet

/-!
The outgoing side of a connection.  A transport may fail at any write; which writes break is a
schedule over the writes attempted so far.
-/
namespace MqttBroker

/-- Why a packet did not leave. -/
inductive WriteError where
  /-- The transport broke at this write. -/
  | reset
  /-- The transport was closed before. -/
  | transportClosed
  /-- Nobody takes the packets any more. -/
  | peerGone
  /-- Publishes are not accepted before the connection is established. -/
  | notEstablished
  deriving DecidableEq, Repr

namespace WriteError

inductive Kind where
  | connectionReset
  | notConnected
  | brokenPipe
  deriving DecidableEq, Repr

def kind : WriteError → Kind
  | reset => .connectionReset
  | transportClosed => .notConnected
  | peerGone => .brokenPipe
  | notEstablished => .notConnected

def message : WriteError → String
  | reset => "scripted failure"
  | transportClosed => "transport closed"
  | peerGone => "peer dropped"
  | notEstablished => "connection not established"

end WriteError

structure Transport where
  isOpen : Bool
  peerPresent : Bool
  /-- Writes attempted so far. -/
  attempts : Nat
  /-- Whether the n-th write breaks. -/
  breaks : Nat → Bool
  /-- What the peer has received, in order. -/
  written : Array Packet

namespace Transport

/-- Open, and never to break. -/
def fresh : Transport := ⟨true, true, 0, fun _ => false, #[]⟩

/-- A break is noticed before it is seen that the transport is closed. -/
def send (transport : Transport) (packet : Packet) : Except WriteError Unit × Transport :=
  let next := { transport with attempts := transport.attempts + 1 }
  if transport.breaks transport.attempts then (.error .reset, next)
  else if !transport.isOpen then (.error .transportClosed, next)
  else if !transport.peerPresent then (.error .peerGone, next)
  else (.ok (), { next with written := transport.written.push packet })

def close (transport : Transport) : Transport := { transport with isOpen := false }

def dropPeer (transport : Transport) : Transport := { transport with peerPresent := false }

/-- Let so many more writes through, or all of them. -/
def breakAfter (transport : Transport) (count : Option Nat) : Transport :=
  { transport with
    breaks := match count with
      | some count => fun n => transport.attempts + count ≤ n
      | none => fun _ => false }

end Transport
end MqttBroker
