import MqttBroker.Broker.Dispatch
import MqttBroker.Proofs.Connection.Emission

/-!
Runs of a broker: operations asked of it from outside, one after the other.
-/
namespace MqttBroker

/-- What may befall a transport. -/
inductive Fault where
  | closed
  | peerGone
  /-- From now on the writes of a schedule break. -/
  | breaks (schedule : Nat → Bool)

def Transport.suffer (transport : Transport) : Fault → Transport
  | .closed => transport.close
  | .peerGone => transport.dropPeer
  | .breaks schedule => { transport with breaks := schedule }

lemma Connection.onward_suffer (fault : Fault) (c : Connection) :
    c.Onward { c with transport := c.transport.suffer fault } := by
  cases fault <;> exact ⟨⟨rfl, rfl, fun _ => id, id, id⟩, id, id, rfl, id⟩

lemma Connection.emitted_suffer {source : Publish → Prop} (fault : Fault) (c : Connection) :
    c.Emitted source { c with transport := c.transport.suffer fault } :=
  emitted_of_eq (by cases fault <;> rfl)

/-- What can be asked of a broker and of its connections. -/
inductive Operation where
  | accept
  | connect (k : ConnectionId) (connect : Connect)
  | event (k : ConnectionId) (event : Event)
  | expire (id : ClientId)
  | fault (k : ConnectionId) (fault : Fault)
  | bind (id : ClientId) (clean : Bool) (k : ConnectionId) (client : ClientInfo)
  | unbind (id : ClientId) (k : ConnectionId) (remove : Bool)
  | subscribe (client : ClientInfo) (k : ConnectionId) (filter : String) (qos : QoS)
  | unsubscribe (id : ClientId) (k : ConnectionId) (filter : String)
  | publish (publish : Publish)
  | publishFrom (client : ClientInfo) (publish : Publish)
  | setWill (id : ClientId) (k : ConnectionId) (will : Option Will)
  | clearWill (id : ClientId)
  | takeWill (id : ClientId) (k : ConnectionId)
  | fireWill (will : Will)
  | requeue (id : ClientId) (k : ConnectionId) (unsent : List Publish)
  /-- Anything that concerns one connection alone. -/
  | connection (k : ConnectionId) (change : Connection → Connection)

namespace Operation

/-- Connections are accepted and driven by their actors, sessions expire, and transports fail.
Only an evicted connection is told that it was. -/
def IsDriven (b : Broker) : Operation → Prop
  | accept | connect _ _ | expire _ | fault _ _ => True
  | event k news => news = .evicted → (b.connection k).evictionNotice
  | _ => False

/-- The operation hands a CONNECT to a connection. -/
def Presents (operation : Operation) (k : ConnectionId) (connect : Connect) : Prop :=
  operation = .connect k connect ∨ operation = .event k (.packet (.connect connect))

end Operation

namespace Broker

/-- Carry out an operation, while nobody else acts. -/
def perform (b : Broker) : Operation → Broker
  | .accept => b.accept.2
  | .connect k connect => (b.processConnect .quiet k connect).2
  | .event k event => (b.handle .quiet k event).2
  | .expire id => (b.expire id).2
  | .fault k fault => b.modifyConnection k fun c => { c with transport := c.transport.suffer fault }
  | .bind id clean k client => (b.bind .quiet id clean k client).2
  | .unbind id k remove => (b.unbind id k remove).2
  | .subscribe client k filter qos => (b.subscribe .quiet client k filter qos).2
  | .unsubscribe id k filter => (b.unsubscribe .quiet id k filter).2
  | .publish publish => (b.publish publish).2
  | .publishFrom client publish => (b.publishFrom client publish).2
  | .setWill id k will => (b.setWill id k will).2
  | .clearWill id => b.clearWill id
  | .takeWill id k => (b.takeWill id k).2
  | .fireWill will => (b.fireWill will).2
  | .requeue id k unsent => (b.requeue id k unsent).2
  | .connection k change => b.modifyConnection k change

/-- The broker after a run. -/
def after (b : Broker) (operations : List Operation) : Broker := operations.foldl perform b

/-- Every operation of a run is allowed where it takes place. -/
def Allows (allowed : Broker → Operation → Prop) : Broker → List Operation → Prop
  | _, [] => True
  | b, operation :: operations =>
    allowed b operation ∧ Allows allowed (b.perform operation) operations

/-- The client was admitted on some connection in the course of a run. -/
def Admits (b : Broker) (operations : List Operation) (client : ClientInfo) : Prop :=
  ∃ before, before <+: operations ∧ ∃ k, ((b.after before).connection k).client = some client

/-- A broker that was just opened over some repositories, with any collaborators. -/
def Opened (b : Broker) : Prop :=
  ∃ retained stored fresh rest, openOn b.config retained stored b.identifiers = (.ok fresh, rest) ∧
    b = { fresh with authenticator := b.authenticator, authorizer := b.authorizer }

variable {b : Broker}

/-- What every allowed operation keeps, every run keeps. -/
theorem after_induction {allowed : Broker → Operation → Prop} {P : Broker → Prop}
    (step : ∀ b operation, allowed b operation → P b → P (b.perform operation))
    {operations : List Operation} (ha : b.Allows allowed operations) (h : P b) :
    P (b.after operations) := by
  induction operations generalizing b with
  | nil => exact h
  | cons operation operations ih => exact ih ha.2 (step b operation ha.1 h)

lemma after_append (operations later : List Operation) :
    b.after (operations ++ later) = (b.after operations).after later :=
  List.foldl_append

lemma allows_append {allowed : Broker → Operation → Prop} {operations later : List Operation} :
    b.Allows allowed (operations ++ later) ↔
      b.Allows allowed operations ∧ (b.after operations).Allows allowed later := by
  induction operations generalizing b with
  | nil => exact (iff_of_eq (true_and _)).symm
  | cons operation operations ih => exact (and_congr_right fun _ => ih).trans and_assoc.symm

/-- Operations are allowed one by one, each where it takes place. -/
lemma allows_iff {allowed : Broker → Operation → Prop} {operations : List Operation} :
    b.Allows allowed operations ↔ ∀ before operation later,
      operations = before ++ operation :: later → allowed (b.after before) operation := by
  constructor
  · rintro ha before operation later rfl
    exact (allows_append.mp ha).2.1
  · intro h
    induction operations generalizing b with
    | nil => trivial
    | cons operation operations ih =>
      refine ⟨h [] operation operations rfl, ih fun before next later he => ?_⟩
      exact h (operation :: before) next later (congrArg (operation :: ·) he)

lemma Opened.eq (h : b.Opened) : b.directory = .empty ∧ b.sessions = ∅ ∧ b.connections = #[] ∧
    b.history = fun _ => [] := by
  obtain ⟨retained, stored, fresh, rest, ho, he⟩ := h
  unfold openOn at ho
  split at ho
  · cases ho
  · cases ho
    rw [he]
    exact ⟨rfl, rfl, rfl, rfl⟩

lemma Opened.session? (h : b.Opened) (id : ClientId) : b.session? id = none := by
  simp [Broker.session?, h.eq.2.1]

lemma Opened.connection (h : b.Opened) (k : ConnectionId) : b.connection k = .absent := by
  simp [Broker.connection, h.eq.2.2.1]

lemma Opened.history (h : b.Opened) (id : ClientId) : b.history id = [] := by rw [h.eq.2.2.2]

/-- A broker that lets everybody do everything. -/
def lenient (config : Config) (stored : Repository StoredSession) : Broker where
  config
  authenticator := .allowAll
  authorizer := .allowAll
  directory := .empty
  retained := (RetainedStore.openOn .empty).1.toOption.getD .inMemory
  sessions := ∅
  stored
  connections := #[]
  history := fun _ => []
  calls := {}
  identifiers := fun _ => ""
  identified := 0

lemma opened_lenient (config : Config) (stored : Repository StoredSession) :
    (lenient config stored).Opened :=
  ⟨.empty, stored, _, _, rfl, rfl⟩

end Broker
end MqttBroker
