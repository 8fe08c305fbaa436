import MqttBroker.Config.Layers
import MqttBroker.Config.Substitution
import MqttBroker.Toml.Document

/-!
Configurations from the text of a document or from a file, checked before use.
-/
namespace MqttBroker

inductive ConfigError where
  /-- The file could not be read. -/
  | io (detail : String)
  /-- The layers do not make a configuration. -/
  | refused
  /-- A document alone does not make a configuration. -/
  | malformed
  | invalid (setting : InvalidSetting)
  deriving DecidableEq, Repr

def ConfigError.message : ConfigError → String
  | io detail => "IO error: " ++ detail
  | refused => "Config error"
  | malformed => "TOML parse error"
  | invalid setting => "Validation error: " ++ setting.message

namespace Config

/-- The value of a variable.  A variable is kept as one text, its name, an equals sign and its
value, and what is looked up is a beginning of that text before an equals sign. -/
def Environment.get? (environment : Environment) (name : String) : Option String :=
  environment.findSome? fun (key, value) =>
    ((name ++ "=").toList.isPrefixOf? (key ++ "=" ++ value).toList).map String.ofList

example : Environment.get? [("A", "B=C")] "A" = some "B=C" := by decide +kernel
example : Environment.get? [("A", "B=C")] "A=B" = some "C" := by decide +kernel
example : Environment.get? [("AB", "C")] "A" = none := by decide +kernel

def checked (config : Config) : Except ConfigError Config :=
  match config.validate with
  | .ok () => .ok config
  | .error setting => .error (.invalid setting)

/-- Read a document by itself, with values of exactly the wanted types. -/
def parse (environment : Environment) (text : String) : Except ConfigError Config :=
  match Toml.parse? (substituteVariables environment.get? text) with
  | some document =>
    match Scalars.exact.config (.table document) with
    | some config => config.checked
    | none => .error .malformed
  | none => .error .malformed

/-- Read a document, if there is one, between defaults and environment. -/
def loadText (environment : Environment) (text : Option String) : Except ConfigError Config :=
  let document := match text with
    | some text => (Toml.parse? (substituteVariables environment.get? text)).bind documentLayer?
    | none => some []
  match document.bind fun document =>
      Scalars.converting.config (layered document environment) with
  | some config => config.checked
  | none => .error .refused

/-- Load a file.  A missing file counts as an empty one. -/
def load (environment : Environment) (file : Option ByteArray) : Except ConfigError Config :=
  match file with
  | none => loadText environment none
  | some bytes =>
    match String.fromUTF8? bytes with
    | some text => loadText environment (some text)
    | none => .error (.io "stream did not contain valid UTF-8")

end Config
end MqttBroker
