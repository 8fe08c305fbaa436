import MqttBroker.Protocol.Packet

/-!
Who a connection speaks for, and what an authenticator and an authorizer decide about it.
-/
namespace MqttBroker

structure ClientInfo where
  id : ClientId
  username : Option String
  role : Option String
  isAnonymous : Bool
  deriving DecidableEq, Repr

namespace ClientInfo

def anonymous (id : ClientId) : ClientInfo := ⟨id, none, none, true⟩

def authenticated (id : ClientId) (username role : Option String) : ClientInfo :=
  ⟨id, username, role, false⟩

end ClientInfo

inductive Verdict where
  | allow
  | denyBadCredentials
  | denyNotAuthorized
  | denyServerError
  deriving DecidableEq, Repr

def Verdict.isAllowed (verdict : Verdict) : Bool := verdict == .allow

structure Credentials where
  clientId : ClientId
  username : Option String
  password : Option Bytes
  deriving DecidableEq, Repr

/-- A verdict on credentials, and the role that comes with it. -/
abbrev Authenticator := Credentials → Verdict × Option String

structure Authorizer where
  canWrite : ClientInfo → String → Bool
  canRead : ClientInfo → String → Bool

def Authenticator.allowAll : Authenticator := fun _ => (.allow, none)

def Authorizer.allowAll : Authorizer := ⟨fun _ _ => true, fun _ _ => true⟩

end MqttBroker
