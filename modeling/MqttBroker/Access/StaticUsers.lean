import MqttBroker.Access.Client
import MqttBroker.Config.Basic
import MqttBroker.Password.Phc

/-!
Authentication against the configured users.
-/
namespace MqttBroker.StaticUsers

/-- A check of a password against its written hash. -/
abbrev HashCheck := String → Bytes → Bool

/-- The entry of a user name; of several the last one counts. -/
def user? (config : AuthConfig) (username : String) : Option UserConfig :=
  config.users.reverse.find? (·.username == username)

/-- A hash is checked in place of the plain password.  A user with neither has no password. -/
def accepts (check : HashCheck) (user : UserConfig) (password : Bytes) : Bool :=
  match user.passwordHash, user.password with
  | some hash, _ => check hash password
  | none, some plain => plain.toUTF8.toList == password
  | none, none => false

/-- Whether the identifier is among those that may connect. -/
def admitsId (config : AuthConfig) (id : ClientId) : Bool :=
  config.clientIds.isEmpty || config.clientIds.contains id

def authenticate (check : HashCheck) (config : AuthConfig) : Authenticator := fun credentials =>
  if !admitsId config credentials.clientId then (.denyBadCredentials, none)
  else match credentials.username, credentials.password with
    | some username, some password =>
      match user? config username with
      | some user =>
        if accepts check user password then (.allow, user.role) else (.denyBadCredentials, none)
      | none => (.denyBadCredentials, none)
    | _, _ => (.denyBadCredentials, none)

/-- The authenticator a configuration asks for, under any check of hashes. -/
def authenticatorWith (check : HashCheck) (config : AuthConfig) : Authenticator :=
  if config.enabled then authenticate check config else .allowAll

/-- The authenticator a configuration asks for. -/
def authenticator (config : AuthConfig) : Authenticator :=
  authenticatorWith Password.Phc.verify config

end MqttBroker.StaticUsers
