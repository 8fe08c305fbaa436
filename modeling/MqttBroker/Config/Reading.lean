import MqttBroker.Config.Basic
import MqttBroker.Toml.Value

/-!
A configuration from a tree of values.  What counts as a truth value, a number or a text is a
parameter: one reading takes values as they are, another converts them.
-/
namespace MqttBroker.Config
open Toml

/-- How single values are read. -/
structure Scalars where
  bool : Value → Option Bool
  /-- A natural number up to the given one. -/
  natural : Nat → Value → Option Nat
  text : Value → Option String

/-- Values of exactly the wanted type. -/
def Scalars.exact : Scalars where
  bool
    | .boolean b => some b
    | _ => none
  natural max
    | .integer n => if 0 ≤ n ∧ n ≤ max then some n.toNat else none
    | _ => none
  text
    | .string text => some text
    | _ => none

def maxByte : Nat := 1 <<< 8 - 1

def maxWord : Nat := 1 <<< 64 - 1

/-- The parts of a section: a table has them by name, an array in order.  A date counts as a
section without any. -/
def parts? : Value → Option (Nat → String → Option Value)
  | .table entries => some fun _ name => entries.lookup name
  | .array items => some fun index _ => items[index]?
  | .datetime _ => some fun _ _ => none
  | _ => none

/-- A part that may be absent. -/
def orElse {α : Type} (absent : α) (read : Value → Option α) : Option Value → Option α
  | some value => read value
  | none => some absent

def listOf {α : Type} (read : Value → Option α) : Value → Option (List α)
  | .array items => items.mapM read
  | _ => none

namespace Scalars

variable (s : Scalars)

/-- A text that may be absent; a gap counts as absent too. -/
def optionalText : Option Value → Option (Option String)
  | none | some .gap => some none
  | some value => (s.text value).map some

def texts : Option Value → Option (List String) := orElse [] (listOf s.text)

def log (value : Value) : Option LogConfig := do
  let part ← parts? value
  return { level := ← orElse "info" s.text (part 0 "level") }

def admission (value : Value) : Option AdmissionConfig := do
  let part ← parts? value
  return {
    allowAnonymous := ← orElse true s.bool (part 0 "allow_anonymous")
    allowZeroByteClientId := ← orElse true s.bool (part 1 "allow_zero_byte_client_id")
    reauthorizeSubscriptionsOnConnect :=
      ← orElse false s.bool (part 2 "reauthorize_subscriptions_on_connect") }

def user (value : Value) : Option UserConfig := do
  let part ← parts? value
  return {
    username := ← s.text (← part 0 "username")
    password := ← s.optionalText (part 1 "password")
    passwordHash := ← s.optionalText (part 2 "password_hash")
    role := ← s.optionalText (part 3 "role") }

def auth (value : Value) : Option AuthConfig := do
  let part ← parts? value
  return {
    enabled := ← orElse false s.bool (part 0 "enabled")
    clientIds := ← s.texts (part 1 "client_ids")
    users := ← orElse [] (listOf s.user) (part 2 "users") }

def permissions (value : Value) : Option Permissions := do
  let part ← parts? value
  return { publish := ← s.texts (part 0 "publish"), subscribe := ← s.texts (part 1 "subscribe") }

def role (value : Value) : Option RoleConfig := do
  let part ← parts? value
  return {
    name := ← s.text (← part 0 "name")
    permissions := {
      publish := ← s.texts (part 1 "publish")
      subscribe := ← s.texts (part 2 "subscribe") } }

def acl (value : Value) : Option AclConfig := do
  let part ← parts? value
  return {
    enabled := ← orElse false s.bool (part 0 "enabled")
    roles := ← orElse [] (listOf s.role) (part 1 "roles")
    default := ← orElse {} s.permissions (part 2 "default")
    anonymous := ← orElse {} s.permissions (part 3 "anonymous") }

def mqtt (value : Value) : Option MqttConfig := do
  let part ← parts? value
  return {
    maxQos := ← orElse 2 (s.natural maxByte) (part 0 "max_qos")
    maxTopicLength := ← orElse 4096 (s.natural maxWord) (part 1 "max_topic_length")
    maxTopicLevels := ← orElse 32 (s.natural maxWord) (part 2 "max_topic_levels") }

def session (value : Value) : Option SessionConfig := do
  let part ← parts? value
  return {
    maxQueuedMessages := ← orElse 1000 (s.natural maxWord) (part 0 "max_queued_messages") }

def persistence (value : Value) : Option PersistenceConfig := do
  let part ← parts? value
  return {
    enabled := ← orElse false s.bool (part 0 "enabled")
    path := ← orElse "./data" s.text (part 1 "path") }

/-- Read a whole configuration.  Unknown keys are ignored. -/
def config (value : Value) : Option Config := do
  let part ← parts? value
  return {
    log := ← orElse {} s.log (part 0 "log")
    admission := ← orElse {} s.admission (part 1 "admission")
    auth := ← orElse {} s.auth (part 2 "auth")
    acl := ← orElse {} s.acl (part 3 "acl")
    mqtt := ← orElse {} s.mqtt (part 4 "mqtt")
    session := ← orElse {} s.session (part 5 "session")
    persistence := ← orElse {} s.persistence (part 6 "persistence") }

end Scalars
end MqttBroker.Config
