/-!
Topics and filters are sequences of levels between separators.
-/
namespace MqttBroker.Topic

/-- The text between two separators; it may be empty. -/
abbrev Level := List Char

/-- A text without a separator is one level, also when it is empty. -/
def levels (text : String) : List Level := text.toList.splitOn '/'

/-- Topics of the broker itself start with a dollar sign. -/
def isReserved (topic : String) : Bool := topic.toList.head? == some '$'

example : levels "a//b" = [['a'], [], ['b']] := by decide
example : levels "" = [[]] := by decide

end MqttBroker.Topic
