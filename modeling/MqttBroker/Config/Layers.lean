import MqttBroker.Config.Path
import MqttBroker.Config.Reading
import MqttBroker.Toml.Undated

/-!
Configurations from several layers: defaults, a document and the environment.  Later layers win
key by key, keys outside arrays do not distinguish case, and values are converted to the type that
is wanted.
-/
namespace MqttBroker.Config
open Toml Number

/-- Words for yes and no, in any case. -/
def truthWord? (text : String) : Option Bool :=
  if lowerCase text ∈ ["true", "on", "yes"] then some true
  else if lowerCase text ∈ ["false", "off", "no"] then some false
  else none

/-- Values converted to the wanted type where that makes sense. -/
def Scalars.converting : Scalars where
  bool
    | .boolean b => some b
    | .integer n => some (n != 0)
    | .float x => some !x.isZero
    | .string text =>
      if text = "1" then some true else if text = "0" then some false else truthWord? text
    | _ => none
  natural max value :=
    let converted : Option Nat := match value with
      | .boolean b => some b.toNat
      | .integer n => if 0 ≤ n then some n.toNat else none
      | .float x => some (x.toNatSaturating maxWord)
      | .string text =>
        match truthWord? text with
        | some b => some b.toNat
        | none => natural? text.toList
      | _ => none
    converted.filter (· ≤ max)
  text
    | .string text => some text
    | .boolean b => some (if b then "true" else "false")
    | .integer n => some (toString n)
    | .float x => some x.text
    | _ => none

/-- The settings that every configuration starts from. -/
def defaultLayer : List (String × Value) := [
  ("log.level", .string "info"),
  ("admission.allow_anonymous", .boolean true),
  ("admission.allow_zero_byte_client_id", .boolean true),
  ("admission.reauthorize_subscriptions_on_connect", .boolean false),
  ("auth.enabled", .boolean false),
  ("acl.enabled", .boolean false),
  ("mqtt.max_qos", .integer 2),
  ("mqtt.max_topic_length", .integer 4096),
  ("mqtt.max_topic_levels", .integer 32),
  ("session.max_queued_messages", .integer 1000),
  ("persistence.enabled", .boolean false),
  ("persistence.path", .string "./data")]

/-- The variables of the process, by name. -/
abbrev Environment := List (String × String)

/-- Names of variables that hold settings start like this, in any case. -/
def variableStart : List Char := "mqhub__".toList

/-- Two underscores in the name of a variable separate the keys of a path. -/
def dotted : List Char → List Char
  | '_' :: '_' :: rest => '.' :: dotted rest
  | c :: rest => c :: dotted rest
  | [] => []

/-- The value that a variable's text spells. -/
def variableValue (text : String) : Value :=
  if lowerCase text = "true" then .boolean true
  else if lowerCase text = "false" then .boolean false
  else match int64? text.toList with
    | some n => .integer n
    | none =>
      match float? text.toList with
      | some x => .float x
      | none => .string text

/-- The settings of the environment. -/
def environmentLayer (environment : Environment) : List (String × Value) :=
  environment.filterMap fun (name, text) =>
    let name := (lowerCase name).toList
    if variableStart.isPrefixOf name then
      some (String.ofList (dotted (name.drop variableStart.length)), variableValue text)
    else none

/-- The settings of a document.  Dates count as texts. -/
def documentLayer? (document : List (String × Value)) : Option (List (String × Value)) :=
  match Value.undated? (.table document) with
  | some (.table entries) => some entries
  | _ => none

/-- Lay the settings of one layer over a value. -/
def layOver (layer : List (String × Value)) (target : Value) : Value :=
  layer.foldl (fun target entry => layAt (keyPath entry.1) entry.2 target) target

/-- The settings that every configuration starts from are the defaults of its sections. -/
theorem config_defaultLayer :
    Scalars.converting.config (layOver defaultLayer (.table [])) = some {} := by decide +kernel

/-- Defaults, then the document, then the environment. -/
def layered (document : List (String × Value)) (environment : Environment) : Value :=
  layOver (environmentLayer environment) (layOver document (layOver defaultLayer (.table [])))

end MqttBroker.Config
