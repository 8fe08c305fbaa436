import MqttBroker.Broker.Routing

/-!
The admission of a connection by its CONNECT, and what happens when it ends.
-/
namespace MqttBroker

inductive ConnectResult where
  | accepted (sessionPresent : Bool)
  | rejected (code : ConnackCode)
  /-- The connection was closed without an answer that admits it. -/
  | closed
  deriving DecidableEq, Repr

def ConnectResult.isAccepted : ConnectResult → Bool
  | accepted _ => true
  | _ => false

namespace Broker

variable (meanwhile : Interlude) (b : Broker)

def setState (k : ConnectionId) (source target : ConnectionState) : Bool × Broker :=
  b.onConnection k (·.transition source target)

def closeConnection (k : ConnectionId) : Broker := b.modifyConnection k .close

/-- Close without a CONNACK. -/
def refuse (k : ConnectionId) : ConnectResult × Broker := (.closed, b.closeConnection k)

/-- Answer with a code and close.  The answer may get lost. -/
def reject (k : ConnectionId) (code : ConnackCode) : ConnectResult × Broker :=
  let (_, b) := b.onConnection k (·.send (.connack false code))
  (.rejected code, b.closeConnection k)

/-- The client identifier, and whether it is one the broker gives.  Only clean sessions may bring
an empty one. -/
def resolveId (connect : Connect) : Except ConnackCode (ClientId × Bool) :=
  if connect.clientId ≠ "" then .ok (connect.clientId, false)
  else if connect.clean && b.config.admission.allowZeroByteClientId then
    .ok (b.identifiers b.identified, true)
  else .error .identifierRejected

/-- Check the credentials of a CONNECT. -/
def authenticate (connect : Connect) (id : ClientId) :
    Except ConnackCode ClientInfo × Broker :=
  if connect.isAnonymous then
    (if b.config.admission.allowAnonymous then .ok (.anonymous id)
      else .error .badUsernamePassword, b)
  else match connect.username, connect.password with
    | some username, some password =>
      let ((verdict, role), b) :=
        b.askAuthenticator meanwhile ⟨id, some username, some password⟩
      (match verdict with
        | .allow => .ok (.authenticated id (some username) role)
        | .denyServerError => .error .serverUnavailable
        | _ => .error .badUsernamePassword, b)
    | _, _ => (.error .badUsernamePassword, b)

/-- Publish the will that was taken from a connection's session, if there was one. -/
def executeWill (k : ConnectionId) (will : Option Will) : Broker :=
  match will with
  | some will => (b.fireWill will).2.modifyConnection k (·.noteFired will)
  | none => b

/-- The end of a connection that its client did not announce: the will is published and the
session let go. -/
def connectionLost (k : ConnectionId) : Broker :=
  let b := b.closeConnection k
  match (b.connection k).client with
  | none => b
  | some client =>
    let b := b.modifyConnection k fun c => { c with client := none }
    let (will, b) := b.takeWill client.id k
    let b := b.executeWill k will
    (b.unbind client.id k (b.connection k).clean).2

/-- Remember on the connection whom it was admitted for. -/
def recordClient (k : ConnectionId) (client : ClientInfo) (clean : Bool) : Broker :=
  b.modifyConnection k fun c => { c with client := some client, clean }

/-- Open a bound connection.  If it is lost meanwhile, what was not sent goes back to the
queue. -/
def establish (k : ConnectionId) (client : ClientInfo) (outcome : BindOutcome) :
    ConnectResult × Broker :=
  match b.onConnection k (·.establish (.connack outcome.resumed .accepted) outcome.replay) with
  | (.ok (), b) => (.accepted outcome.resumed, b)
  | (.error unsent, b) =>
    let (_, b) := b.requeue client.id k unsent
    (.closed, b.connectionLost k)

/-- Bind an authenticated connection and open it. -/
def bindAndEstablish (k : ConnectionId) (connect : Connect) (client : ClientInfo)
    (isGiven : Bool) : ConnectResult × Broker :=
  match b.bind meanwhile client.id connect.clean k client with
  | (.error _, b) => b.reject k .serverUnavailable
  | (.ok outcome, b) =>
    let b := if isGiven then { b with identified := b.identified + 1 } else b
    let (_, b) := b.setWill client.id k connect.will
    (b.recordClient k client connect.clean).establish k client outcome

/-- Authenticate and go on.  Nothing shared is touched before the connection is bound. -/
def authenticateAndBind (k : ConnectionId) (connect : Connect) (id : ClientId)
    (isGiven : Bool) : ConnectResult × Broker :=
  match b.authenticate meanwhile connect id with
  | (.error code, b) => b.reject k code
  | (.ok client, b) =>
    match b.setState k .authenticating .binding with
    | (false, b) => b.reject k .serverUnavailable
    | (true, b) => b.bindAndEstablish meanwhile k connect client isGiven

/-- Whether the will of a CONNECT has a topic that may be published to. -/
def willAllowed (connect : Connect) : Bool :=
  match connect.will with
  | none => true
  | some will => (b.checkTopicName will.topic).toBool

/-- Admit a connection by its CONNECT: protocol, will, identifier, credentials, session. -/
def processConnect (k : ConnectionId) (connect : Connect) : ConnectResult × Broker :=
  if (b.connection k).state ≠ .idle then b.refuse k
  else if !connect.validateProtocol.toBool then b.reject k .unacceptableProtocolVersion
  else if !b.willAllowed connect then b.refuse k
  else match b.resolveId connect with
    | .error code => b.reject k code
    | .ok (id, isGiven) =>
      match b.setState k .idle .authenticating with
      | (false, b) => b.refuse k
      | (true, b) => b.authenticateAndBind meanwhile k connect id isGiven

end Broker
end MqttBroker
