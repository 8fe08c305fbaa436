import MqttBroker.Access.Client
import MqttBroker.Config.Basic
import MqttBroker.Topic.Level

/-!
Authorization by topic patterns.  A pattern may name the client identifier and the user name; an
identity that holds a wildcard or a separator is never put into a pattern.
-/
namespace MqttBroker.Acl
open Topic

/-- Whether a percent sign and the given letter stand next to each other. -/
def mentions (letter : Char) : List Char → Bool
  | [] => false
  | c :: rest => (c == '%' && rest.head? == some letter) || mentions letter rest

/-- Put a value in the place of every mention, from left to right. -/
def substitute (letter : Char) (value : List Char) : List Char → List Char
  | [] => []
  | [c] => [c]
  | c :: d :: rest =>
    if c = '%' ∧ d = letter then value ++ substitute letter value rest
    else c :: substitute letter value (d :: rest)

/-- An identity that would widen a pattern. -/
def isUnsafe (value : List Char) : Bool :=
  value.any fun c => c == '+' || c == '#' || c == '/'

/-- A pattern for one client: `%c` becomes the client identifier, then `%u` the user name. -/
def expand (pattern clientId username : List Char) : Option (List Char) :=
  if (mentions 'c' pattern && isUnsafe clientId) || (mentions 'u' pattern && isUnsafe username)
  then none
  else some (substitute 'u' username (substitute 'c' clientId pattern))

/-- Whether a pattern's levels cover those of a topic or a filter.  A wildcard in the filter needs
a wildcard that covers it. -/
def covers : List Level → List Level → Bool
  | ['#'] :: _, _ => true
  | [], topic => topic.isEmpty
  | _ :: _, [] => false
  | _ :: _, ['#'] :: _ => false
  | level :: pattern, first :: topic => (level == ['+'] || level == first) && covers pattern topic

@[simp] theorem covers_hash (pattern topic : List Level) : covers (['#'] :: pattern) topic := by
  rw [covers]

@[simp] theorem covers_nil_cons (first : Level) (topic : List Level) :
    covers [] (first :: topic) = false := by
  rw [covers, List.isEmpty_cons]

theorem covers_nil {pattern : List Level} :
    covers pattern [] ↔ pattern = [] ∨ ∃ rest, pattern = ['#'] :: rest := by
  rw [covers.eq_def]
  split <;> simp_all

/-- Only the multi-level wildcard covers itself. -/
theorem covers_cons_hash {level : Level} (hl : level ≠ ['#']) (pattern topic : List Level) :
    covers (level :: pattern) (['#'] :: topic) = false := by
  rw [covers.eq_def]
  split <;> simp_all

/-- What remains of a comparison once neither side starts with the multi-level wildcard. -/
theorem covers_cons {level first : Level} (hl : level ≠ ['#']) (hf : first ≠ ['#'])
    (pattern topic : List Level) : covers (level :: pattern) (first :: topic) =
      ((level == ['+'] || level == first) && covers pattern topic) := by
  rw [covers.eq_def]
  split <;> simp_all

/-- Whether some pattern, expanded for the client, covers the topic or filter. -/
def permits (patterns : List String) (client : ClientInfo) (topic : String) : Bool :=
  patterns.any fun pattern =>
    match expand pattern.toList client.id.toList (client.username.getD "").toList with
    | some expanded => covers (expanded.splitOn '/') (levels topic)
    | none => false

/-- The role of a name; of several the last one counts. -/
def role? (config : AclConfig) (name : String) : Option RoleConfig :=
  config.roles.reverse.find? (·.name == name)

/-- Anonymous clients have their own permissions, clients of a known role those of the role, and
all others the default ones. -/
def permissionsFor (config : AclConfig) (client : ClientInfo) : Permissions :=
  if client.isAnonymous then config.anonymous
  else match client.role.bind (role? config) with
    | some role => role.permissions
    | none => config.default

/-- The authorizer a configuration asks for. -/
def authorizer (config : AclConfig) : Authorizer :=
  if config.enabled then
    { canWrite := fun client topic => permits (permissionsFor config client).publish client topic
      canRead := fun client filter =>
        permits (permissionsFor config client).subscribe client filter }
  else .allowAll

end MqttBroker.Acl
