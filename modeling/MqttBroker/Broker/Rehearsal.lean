import MqttBroker.Broker.Dispatch

/-!
Rehearsed interludes: plans that say which actions others take during a call of the broker.  The
actions may lead to calls of their own, during which other plans come true.
-/
namespace MqttBroker

/-- What another party does. -/
inductive Action where
  | close (k : ConnectionId)
  | closeTransport (k : ConnectionId)
  | breakAfter (k : ConnectionId) (count : Option Nat)
  | deliver (k : ConnectionId) (publish : Publish)
  /-- Bind a connection to an anonymous client. -/
  | bind (k : ConnectionId) (id : ClientId) (clean : Bool)
  | expire (id : ClientId)
  deriving DecidableEq, Repr

/-- Actions during the call of one number. -/
structure Plan where
  callout : Callout
  call : Nat
  actions : List Action
  deriving Repr

def Action.perform (meanwhile : Interlude) (b : Broker) : Action → Broker
  | close k => b.closeConnection k
  | closeTransport k => b.modifyConnection k fun c => { c with transport := c.transport.close }
  | breakAfter k count =>
    b.modifyConnection k fun c => { c with transport := c.transport.breakAfter count }
  | deliver k publish => (b.onConnection k (·.deliver publish)).2
  | bind k id clean => (b.bind meanwhile id clean k (.anonymous id)).2
  | expire id => (b.expire id).2

namespace Plan

/-- The interlude of plans within plans, up to a depth.  Of several plans for one call the first
counts. -/
def nested (plans : List Plan) : Nat → Interlude
  | 0 => .quiet
  | depth + 1 => fun callout call b =>
    match plans.find? fun plan => plan.callout = callout && plan.call = call with
    | some plan => plan.actions.foldl (Action.perform (nested plans depth)) b
    | none => b

/-- The interlude of plans.  A plan comes true once, so no more than all of them are nested. -/
def interlude (plans : List Plan) : Interlude := nested plans plans.length

end Plan

namespace Broker

/-- Start again with another configuration over the same repositories: connections, sessions in
memory and queues are gone. -/
def reopen (b : Broker) (config : Config) : Except StorageError Broker × Repository StoredMessage :=
  match openOn config (b.retained.repository.getD .empty) b.stored b.identifiers with
  | (.ok fresh, retained) =>
    (.ok { fresh with calls := b.calls, identified := b.identified }, retained)
  | (.error error, retained) => (.error error, retained)

end Broker
end MqttBroker
