import MqttBroker.Toml.Scalar

/-!
Values whose dates are written as texts, for readers that know no dates.
-/
namespace MqttBroker.Toml

/-- A table that begins with this key stands for the date that the key's text spells. -/
def dateKey : String := "$__toml_private_datetime"

/-- The normal form of a date that fills a whole text. -/
def dateOfText? (text : String) : Option String :=
  match datetime? text.toList with
  | some (some (date, [])) => some date
  | _ => none

example : dateOfText? "1979-05-27 07:32:00.500" = some "1979-05-27T07:32:00.5" := by
  decide +kernel
example : dateOfText? "1979-05-27t07:32:00z" = some "1979-05-27T07:32:00Z" := by decide +kernel
example : dateOfText? "1979-02-29" = none ∧ dateOfText? "1979-05-27 " = none := by decide +kernel

mutual

/-- Write dates as texts.  A table for a date must spell one; its other keys do not count. -/
def Value.undated? : Value → Option Value
  | .table entries => undatedTable? entries
  | .array items => (undatedItems? items).map .array
  | .datetime text => some (.string text)
  | value => some value

def undatedTable? : List (String × Value) → Option Value
  | [] => some (.table [])
  | (key, value) :: rest =>
    if key = dateKey then
      match value with
      | .string text => (dateOfText? text).map .string
      | _ => none
    else do
      let value ← value.undated?
      let rest ← undatedEntries? rest
      return .table ((key, value) :: rest)

def undatedEntries? : List (String × Value) → Option (List (String × Value))
  | [] => some []
  | (key, value) :: rest => do
    let value ← value.undated?
    let rest ← undatedEntries? rest
    return (key, value) :: rest

def undatedItems? : List Value → Option (List Value)
  | [] => some []
  | item :: rest => do
    let item ← item.undated?
    let rest ← undatedItems? rest
    return item :: rest

end

end MqttBroker.Toml
