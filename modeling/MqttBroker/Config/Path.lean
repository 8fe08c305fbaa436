import MqttBroker.Toml.Lexeme
import MqttBroker.Toml.Value

/-!
Paths into a tree of values: how a key spells one, and how a value is laid over what stands at its
end.  Keys lose their case on the way and in merged tables, and what is missing is made.
-/
namespace MqttBroker.Config
open Toml Number

/-- One step of a path: to a key of a table, or to a position of an array.  A negative position
counts from the end. -/
inductive Step where
  | key (name : String)
  | item (position : Int)
  deriving DecidableEq, Repr

def isNameChar (c : Char) : Bool := c.isAlphanum || c == '_' || c == '-' || c == ' '

/-- A position and the bracket that closes it.  Blanks may surround the position, and it has no plus
sign. -/
def position? (text : List Char) : Option Step :=
  match text.reverse with
  | ']' :: inside =>
    let number := skipBlanks (skipBlanks inside).reverse
    if number.head? = some '+' then none else (int64? number).map .item
  | _ => none

/-- The steps of a name with positions in brackets after it. -/
def namedSteps? (text : List Char) : Option (List Step) :=
  match text.splitOn '[' with
  | name :: positions =>
    if name.isEmpty || !name.all isNameChar then none
    else (positions.mapM position?).map (.key (String.ofList name) :: ·)
  | [] => none

/-- The path that a key spells with dots and brackets; a key that spells none stands for itself. -/
def keyPath (key : String) : List Step :=
  match (key.toList.splitOn '.').mapM namedSteps? with
  | some steps => steps.flatten
  | none => [.key key]

example : keyPath "auth.users[0].name" = [.key "auth", .key "users", .item 0, .key "name"] := by
  decide +kernel
example : keyPath "a[ -1 ][02]" = [.key "a", .item (-1), .item 2] := by decide +kernel
example : keyPath "a[0]b" = [.key "a[0]b"] ∧ keyPath "a..b" = [.key "a..b"] := by decide +kernel

def lowerCase (text : String) : String := String.ofList (text.toList.map Char.toLower)

/-- The entries of a table; any other value has none. -/
def entriesOf : Value → List (String × Value)
  | .table entries => entries
  | _ => []

/-- The items of an array; any other value has none. -/
def itemsOf : Value → List Value
  | .array items => items
  | _ => []

/-- Replace the value of a key, or add it. -/
def setKey (key : String) (value : Value) : List (String × Value) → List (String × Value)
  | [] => [(key, value)]
  | entry :: rest =>
    if entry.1 = key then (key, value) :: rest else entry :: setKey key value rest

/-- Change the value of a key; a missing one starts as an empty table. -/
def changeKey (name : String) (change : Value → Value) (target : Value) : Value :=
  let key := lowerCase name
  let old := ((entriesOf target).lookup key).getD (.table [])
  .table (setKey key (change old) (entriesOf target))

/-- Change the item at a position.  An array that is too short is filled up with gaps, and a
position before the first item is that of the first. -/
def changeItem (position : Int) (change : Value → Value) (target : Value) : Value :=
  let items := itemsOf target
  let index := (if position < 0 then items.length + position else position).toNat
  .array ((items ++ List.replicate (index + 1 - items.length) Value.gap).modify index change)

mutual

/-- Lay a value over another.  Tables are merged, and other values replace; an array keeps the case
of all keys inside it. -/
def lay : Value → Value → Value
  | .table entries, old => layEntries entries old
  | value, _ => value

/-- Lay the entries of a table over a value, one after the other. -/
def layEntries : List (String × Value) → Value → Value
  | [], target => target
  | (key, value) :: rest, target => layEntries rest (changeKey key (lay value) target)

end

/-- Lay a value over what stands at the end of a path.  An item of an array is replaced. -/
def layAt : List Step → Value → Value → Value
  | [], value, target => lay value target
  | [.item position], value, target => changeItem position (fun _ => value) target
  | .key name :: path, value, target => changeKey name (layAt path value) target
  | .item position :: path, value, target => changeItem position (layAt path value) target

end MqttBroker.Config
